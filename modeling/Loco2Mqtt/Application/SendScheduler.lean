import Loco2Mqtt.Foundations.DelayLine
import Loco2Mqtt.Foundations.WrappingClock
import Loco2Mqtt.Turnout.LocoNetEncoder

/-! `PendingLocoNetSendScheduler`. A delayed send is kept with the sum, modulo `2 ^ 32`, of
the clock reading at the call and the delay; `update` hands over every pending message
whose sum is at most the reading it takes, in the order in which they were scheduled. The
scan with its erasures is a delay line over the stored due times. -/

namespace Loco2Mqtt

structure PendingLocoNetSend where
  message : LocoNetMessage
  dueAtMilliseconds : UInt32
  deriving DecidableEq, Repr

structure PendingLocoNetSendScheduler where
  pending : List PendingLocoNetSend
  deriving DecidableEq, Repr

namespace PendingLocoNetSendScheduler

open LocoNetSendScheduler DelayLine WrappingClock

/-- Every operation also returns the messages it hands to `LocoNetPort::send`, in order. -/
def sendNow (scheduler : PendingLocoNetSendScheduler) (message : LocoNetMessage) :
    PendingLocoNetSendScheduler × List LocoNetMessage :=
  (scheduler, [message])

def sendAfter (scheduler : PendingLocoNetSendScheduler) (now : UInt32) (message : LocoNetMessage)
    (delayMilliseconds : UInt32) : PendingLocoNetSendScheduler :=
  ⟨scheduler.pending ++ [⟨message, now + delayMilliseconds⟩]⟩

/-- The loop of `update`: `passed` are the entries before the iterator, the other list the
entries from it on. -/
def updateFrom (now : UInt32) (passed : List PendingLocoNetSend) :
    List PendingLocoNetSend → PendingLocoNetSendScheduler × List LocoNetMessage
  | [] => (⟨passed⟩, [])
  | it :: rest =>
    if it.dueAtMilliseconds > now then updateFrom now (passed ++ [it]) rest
    else
      let (scheduler, sent) := updateFrom now passed rest
      (scheduler, it.message :: sent)

def update (scheduler : PendingLocoNetSendScheduler) (now : UInt32) :
    PendingLocoNetSendScheduler × List LocoNetMessage :=
  updateFrom now [] scheduler.pending

/-- One call through the port; only `sendAfter` reads the clock. -/
def perform (scheduler : PendingLocoNetSendScheduler) (now : UInt32) :
    Call → PendingLocoNetSendScheduler × List LocoNetMessage
  | .sendNow message => scheduler.sendNow message
  | .sendAfter message delay => (scheduler.sendAfter now message delay, [])

def performAll (scheduler : PendingLocoNetSendScheduler) (now : UInt32) :
    List Call → PendingLocoNetSendScheduler × List LocoNetMessage
  | [] => (scheduler, [])
  | call :: rest =>
    let (scheduler, sent) := scheduler.perform now call
    let (scheduler, more) := performAll scheduler now rest
    (scheduler, sent ++ more)

/-! ### The scan as a delay line -/

/-- The stored due time as a number. -/
def dueNat (entry : PendingLocoNetSend) : ℕ := entry.dueAtMilliseconds.toNat

theorem updateFrom_eq (now : UInt32) (passed rest : List PendingLocoNetSend) :
    updateFrom now passed rest =
      (⟨passed ++ kept dueNat now.toNat rest⟩,
        (released dueNat now.toNat rest).map PendingLocoNetSend.message) := by
  induction rest generalizing passed with
  | nil => simp [updateFrom, kept, released]
  | cons it rest ih =>
    unfold updateFrom
    split_ifs with h
    · have hdue : now.toNat < dueNat it := UInt32.lt_iff_toNat_lt.mp h
      rw [ih, kept_cons_of_not_due rest hdue, released_cons_of_not_due rest hdue,
        List.append_assoc, List.singleton_append]
    · have hdue : dueNat it ≤ now.toNat := by
        rw [gt_iff_lt, UInt32.not_lt, UInt32.le_iff_toNat_le] at h
        exact h
      rw [ih, kept_cons_of_due rest hdue, released_cons_of_due rest hdue, List.map_cons]

theorem update_eq (scheduler : PendingLocoNetSendScheduler) (now : UInt32) :
    scheduler.update now =
      (⟨kept dueNat now.toNat scheduler.pending⟩,
        (released dueNat now.toNat scheduler.pending).map PendingLocoNetSend.message) := by
  rw [update, updateFrom_eq, List.nil_append]

/-- A delay from `now` on ends before the counter wraps. -/
def DueUnwrapped (now delay : ℕ) : Prop := now + delay < 2 ^ 32

instance (now delay : ℕ) : Decidable (DueUnwrapped now delay) := Nat.decLt _ _

theorem dueNat_of_unwrapped {now : ℕ} {delay : UInt32} (h : DueUnwrapped now delay.toNat)
    (message : LocoNetMessage) : dueNat ⟨message, reading now + delay⟩ = now + delay.toNat := by
  rw [dueNat, reading_add, toNat_reading_of_lt h]

/-- A turnout command sends its on-pulse at once and schedules its off-pulse. -/
theorem performAll_encode (scheduler : PendingLocoNetSendScheduler) (now : UInt32)
    (command : DomainCommand) :
    scheduler.performAll now (TurnoutLocoNetEncoder.encode command) =
      (scheduler.sendAfter now (TurnoutLocoNetEncoder.buildSwReq command false)
          TurnoutLocoNetEncoder.kOffPulseDelayMs,
        [TurnoutLocoNetEncoder.buildSwReq command true]) := rfl

end PendingLocoNetSendScheduler
end Loco2Mqtt
