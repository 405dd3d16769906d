import Mathlib.Data.Multiset.AddSub
import Loco2Mqtt.Application.SendScheduler
import Loco2Mqtt.Foundations.Runs

/-! The loop of `PendingLocoNetSendScheduler::update`. It walks the vector by an iterator and
erases what it has sent, after which the iterator is at the entry behind. It sends the entries
that are due and leaves the others, so that over a run of calls every scheduled message is
either sent or still pending, and only once. -/

namespace Loco2Mqtt.SchedulerLoop

open PendingLocoNetSendScheduler DelayLine Runs

/-- The loop with the iterator as an index. -/
def updateAt (now : UInt32) (pending : List PendingLocoNetSend) (it : ℕ) :
    List PendingLocoNetSend × List LocoNetMessage :=
  if h : it < pending.length then
    if pending[it].dueAtMilliseconds > now then updateAt now pending (it + 1)
    else
      let (left, sent) := updateAt now (pending.eraseIdx it) it
      (left, pending[it].message :: sent)
  else (pending, [])
termination_by pending.length - it
decreasing_by
  · omega
  · rw [List.length_eraseIdx_of_lt h]
    omega

/-- With `passed` in front of the iterator, the loop does with the rest what `updateFrom`
does. -/
theorem updateAt_eq (now : UInt32) (passed rest : List PendingLocoNetSend) :
    updateAt now (passed ++ rest) passed.length =
      ((updateFrom now passed rest).1.pending, (updateFrom now passed rest).2) := by
  induction rest generalizing passed with
  | nil => rw [List.append_nil, updateAt, dif_neg (Nat.lt_irrefl _), updateFrom]
  | cons it rest ih =>
    have hlt : passed.length < (passed ++ it :: rest).length := by simp
    have hit : (passed ++ it :: rest)[passed.length] = it := by simp
    rw [updateAt, dif_pos hlt, hit, updateFrom]
    split_ifs with hdue
    · have hnext := ih (passed ++ [it])
      rwa [List.append_assoc, List.singleton_append, List.length_append] at hnext
    · have herase : (passed ++ it :: rest).eraseIdx passed.length = passed ++ rest := by
        simp [List.eraseIdx_append_of_length_le]
      rw [herase, ih]

theorem update_eq_loop (scheduler : PendingLocoNetSendScheduler) (now : UInt32) :
    updateAt now scheduler.pending 0 =
      ((scheduler.update now).1.pending, (scheduler.update now).2) :=
  updateAt_eq now [] scheduler.pending

/-! ### Runs of calls -/

/-- A call, with the clock reading that it takes. -/
inductive Call where
  | sendAfter (now : UInt32) (message : LocoNetMessage) (delayMilliseconds : UInt32)
  | update (now : UInt32)

/-- The scheduler, the entries scheduled and the messages that updates have sent so far, each
oldest first. -/
structure State where
  scheduler : PendingLocoNetSendScheduler
  scheduled : List PendingLocoNetSend
  sent : List LocoNetMessage

def initial : State := ⟨⟨[]⟩, [], []⟩

def step (s : State) : Call → State
  | .sendAfter now message delay =>
    ⟨s.scheduler.sendAfter now message delay, s.scheduled ++ [⟨message, now + delay⟩], s.sent⟩
  | .update now =>
    let (scheduler, sent) := s.scheduler.update now
    ⟨scheduler, s.scheduled, s.sent ++ sent⟩

/-- The pending entries are in the order in which they were scheduled, and with the messages
sent they make up what was scheduled. -/
structure Accounted (s : State) : Prop where
  ordered : s.scheduler.pending.Sublist s.scheduled
  whole : (s.sent ++ s.scheduler.pending.map PendingLocoNetSend.message).Perm
    (s.scheduled.map PendingLocoNetSend.message)

theorem accounted_initial : Accounted initial := ⟨List.Sublist.refl [], List.Perm.refl []⟩

theorem accounted_step (s : State) (call : Call) (h : Accounted s) : Accounted (step s call) := by
  cases call with
  | sendAfter now message delay =>
    refine ⟨h.ordered.append (List.Sublist.refl _), ?_⟩
    simp only [step, sendAfter, List.map_append]
    rw [← List.append_assoc]
    exact h.whole.append_right _
  | update now =>
    refine ⟨?_, ?_⟩
    · simp only [step, update_eq]
      exact (kept_sublist _ _).trans h.ordered
    · simp only [step, update_eq]
      rw [List.append_assoc, ← List.map_append]
      have hscan : (released dueNat now.toNat s.scheduler.pending ++
          kept dueNat now.toNat s.scheduler.pending).Perm s.scheduler.pending :=
        released_append_kept_perm _ _
      exact ((hscan.map _).append_left s.sent).trans h.whole

/-- The loop sends the entries whose due time is at most the reading and leaves the others,
both in their order. In every run the messages sent and those still pending are, as a
multiset, the messages scheduled. -/
theorem scheduler_loses_nothing :
    (∀ (scheduler : PendingLocoNetSendScheduler) (now : UInt32),
      updateAt now scheduler.pending 0 =
          ((scheduler.update now).1.pending, (scheduler.update now).2) ∧
        (scheduler.update now).2 =
          (scheduler.pending.filter (fun entry => entry.dueAtMilliseconds ≤ now)).map
            PendingLocoNetSend.message ∧
        (scheduler.update now).1.pending =
          scheduler.pending.filter (fun entry => ¬ entry.dueAtMilliseconds ≤ now)) ∧
      ∀ calls : List Call,
        let s := run step initial calls
        s.scheduler.pending.Sublist s.scheduled ∧
          (s.scheduled.map PendingLocoNetSend.message : Multiset LocoNetMessage) =
            s.sent + s.scheduler.pending.map PendingLocoNetSend.message := by
  constructor
  · intro scheduler now
    refine ⟨update_eq_loop scheduler now, ?_, ?_⟩
    · rw [update_eq]
      rfl
    · rw [update_eq]
      refine List.filter_congr (fun entry _ => ?_)
      rw [decide_eq_decide, UInt32.not_le, UInt32.lt_iff_toNat_lt]
      rfl
  · intro calls
    have h : Accounted (run step initial calls) :=
      run_invariant_of_step accounted_step accounted_initial calls
    refine ⟨h.ordered, ?_⟩
    rw [Multiset.coe_add, Multiset.coe_eq_coe]
    exact h.whole.symm

end Loco2Mqtt.SchedulerLoop
