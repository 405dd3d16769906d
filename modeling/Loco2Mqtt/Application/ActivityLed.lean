import Mathlib.Data.List.Chain
import Mathlib.Data.List.Induction
import Loco2Mqtt.Domain.LocoNetMessage
import Loco2Mqtt.Foundations.Runs
import Loco2Mqtt.Foundations.WrappingClock

/-! `ActivityLed` behind `FlashingMessageLog`. Every message recorded lights the pin, and an
update darkens it once the last flash is old enough, so at any moment the pin is lit exactly
if no update since the last message has found that message old. -/

namespace Loco2Mqtt

open WrappingClock Runs

inductive Level where
  | low
  | high
  deriving DecidableEq, Repr

/-- `written` are the levels written to the pin, which starts low. -/
structure ActivityLed where
  written : List Level
  litSinceMs : UInt32
  lit : Bool
  deriving DecidableEq, Repr

namespace ActivityLed

def initial : ActivityLed := ⟨[], 0, false⟩

def pin (led : ActivityLed) : Level := led.written.getLast?.getD .low

def flash (led : ActivityLed) (now : UInt32) : ActivityLed :=
  ⟨led.written ++ [.high], now, true⟩

def dueToTurnOff (led : ActivityLed) (flashDurationMs now : UInt32) : Bool :=
  now - led.litSinceMs ≥ flashDurationMs

def update (led : ActivityLed) (flashDurationMs now : UInt32) : ActivityLed :=
  if led.lit && led.dueToTurnOff flashDurationMs now then
    { led with written := led.written ++ [.low], lit := false }
  else led

end ActivityLed

/-- The log and the indicator that it flashes. -/
structure FlashingMessageLog where
  inner : List LocoNetMessage
  indicator : ActivityLed
  deriving DecidableEq, Repr

namespace FlashingMessageLog

def initial : FlashingMessageLog := ⟨[], ActivityLed.initial⟩

def record (log : FlashingMessageLog) (message : LocoNetMessage) (now : UInt32) :
    FlashingMessageLog :=
  ⟨log.inner ++ [message], log.indicator.flash now⟩

/-! ### Messages and updates in time -/

inductive Event where
  | record (message : LocoNetMessage) (instant : ℕ)
  | update (instant : ℕ)
  deriving DecidableEq, Repr

def Event.instant : Event → ℕ
  | .record _ instant => instant
  | .update instant => instant

def Event.message? : Event → Option LocoNetMessage
  | .record message _ => some message
  | .update _ => none

variable (flashDurationMs : UInt32)

def step (log : FlashingMessageLog) : Event → FlashingMessageLog
  | .record message instant => log.record message (reading instant)
  | .update instant =>
    { log with indicator := log.indicator.update flashDurationMs (reading instant) }

/-- One after another, and less than `2 ^ 31` milliseconds apart. -/
def InTime (events : List Event) : Prop :=
  events.IsChain (fun e next =>
    e.instant ≤ next.instant ∧ next.instant < e.instant + 2 ^ 31)

/-- The last message came at `r`, and every update since came before its flash was over. -/
def LitSince (r : ℕ) (events : List Event) : Prop :=
  ∃ before message after, events = before ++ .record message r :: after ∧
    ∀ e ∈ after, ∃ t, e = .update t ∧ t < r + flashDurationMs.toNat

variable {flashDurationMs}

theorem litSince_record {r : ℕ} {events : List Event} (message : LocoNetMessage) (t : ℕ) :
    LitSince flashDurationMs r (events ++ [.record message t]) ↔ r = t := by
  constructor
  · rintro ⟨before, first, after, hevents, hafter⟩
    rcases List.eq_nil_or_concat after with rfl | ⟨front, last, rfl⟩
    · have hlast := (List.append_inj' hevents rfl).2
      cases hlast
      rfl
    · rw [List.concat_eq_append] at hevents hafter
      have hend : events ++ [.record message t] =
          (before ++ .record first r :: front) ++ [last] := by simpa using hevents
      obtain ⟨u, hu, -⟩ := hafter last (List.mem_append_right _ (List.mem_singleton.mpr rfl))
      have hlast := (List.append_inj' hend rfl).2
      rw [hu] at hlast
      cases hlast
  · rintro rfl
    exact ⟨events, message, [], rfl, fun e he => absurd he List.not_mem_nil⟩

theorem litSince_update {r : ℕ} {events : List Event} (t : ℕ) :
    LitSince flashDurationMs r (events ++ [.update t]) ↔
      LitSince flashDurationMs r events ∧ t < r + flashDurationMs.toNat := by
  constructor
  · rintro ⟨before, first, after, hevents, hafter⟩
    rcases List.eq_nil_or_concat after with rfl | ⟨front, last, rfl⟩
    · have hlast := (List.append_inj' hevents rfl).2
      cases hlast
    · rw [List.concat_eq_append] at hevents hafter
      have hend : events ++ [.update t] = (before ++ .record first r :: front) ++ [last] := by
        simpa using hevents
      obtain ⟨hfront, hlast⟩ := List.append_inj' hend rfl
      obtain ⟨u, hu, hyoung⟩ := hafter last (List.mem_append_right _ (List.mem_singleton.mpr rfl))
      rw [hu] at hlast
      cases hlast
      exact ⟨⟨before, first, front, hfront, fun e he =>
        hafter e (List.mem_append_left _ he)⟩, hyoung⟩
  · rintro ⟨⟨before, first, after, rfl, hafter⟩, hyoung⟩
    refine ⟨before, first, after ++ [.update t], by simp, fun e he => ?_⟩
    rcases List.mem_append.mp he with he | he
    · exact hafter e he
    · exact ⟨t, List.mem_singleton.mp he, hyoung⟩

theorem LitSince.unique {r r' : ℕ} {events : List Event} (h : LitSince flashDurationMs r events)
    (h' : LitSince flashDurationMs r' events) : r = r' := by
  induction events using List.reverseRecOn with
  | nil =>
    obtain ⟨before, message, after, hevents, -⟩ := h
    simp at hevents
  | append_singleton events e ih =>
    cases e with
    | record message t =>
      rw [(litSince_record message t).mp h, (litSince_record message t).mp h']
    | update t => exact ih ((litSince_update t).mp h).1 ((litSince_update t).mp h').1

/-! ### Runs -/

/-- The indicator knows when the last message came, as long as its flash lasts. -/
structure Follows (flashDurationMs : UInt32) (events : List Event) (log : FlashingMessageLog) :
    Prop where
  inner : log.inner = events.filterMap Event.message?
  flashes : log.indicator.written.count .high = log.inner.length
  pin : log.indicator.pin = .high ↔ log.indicator.lit
  lit : ∀ r, LitSince flashDurationMs r events →
    log.indicator.lit ∧ log.indicator.litSinceMs = reading r
  since : log.indicator.lit → ∃ r, LitSince flashDurationMs r events ∧
    ∀ last ∈ events.getLast?, r ≤ last.instant ∧ last.instant ≤ r + flashDurationMs.toNat

theorem follows_initial : Follows flashDurationMs [] initial where
  inner := rfl
  flashes := rfl
  pin := by decide
  lit := by
    rintro r ⟨before, message, after, hevents, -⟩
    simp at hevents
  since := fun h => absurd h (by decide)

theorem follows_record {events : List Event} {log : FlashingMessageLog}
    (h : Follows flashDurationMs events log) (message : LocoNetMessage) (t : ℕ) :
    Follows flashDurationMs (events ++ [.record message t])
      (step flashDurationMs log (.record message t)) where
  inner := by simp [step, record, h.inner, Event.message?]
  flashes := by simp [step, record, ActivityLed.flash, h.flashes]
  pin := by simp [step, record, ActivityLed.flash, ActivityLed.pin]
  lit := by
    intro r hr
    rw [(litSince_record message t).mp hr]
    exact ⟨rfl, rfl⟩
  since := by
    intro _
    refine ⟨t, (litSince_record message t).mpr rfl, fun last hlast => ?_⟩
    rw [List.getLast?_concat, Option.mem_some_iff] at hlast
    subst hlast
    exact ⟨Nat.le_refl _, Nat.le_add_right _ _⟩

/-- The modular age of the last flash is its real age. -/
theorem Follows.due_iff {events : List Event} {log : FlashingMessageLog}
    (h : Follows flashDurationMs events log) (hduration : flashDurationMs.toNat < 2 ^ 31) {t r : ℕ}
    (htime : ∀ last ∈ events.getLast?, last.instant ≤ t ∧ t < last.instant + 2 ^ 31)
    (hlit : log.indicator.lit) (hr : LitSince flashDurationMs r events) :
    r ≤ t ∧ (log.indicator.dueToTurnOff flashDurationMs (reading t) ↔
      r + flashDurationMs.toNat ≤ t) := by
  obtain ⟨r', hr', hlast⟩ := h.since hlit
  obtain rfl := hr.unique hr'
  have hne : events ≠ [] := by
    rintro rfl
    obtain ⟨before, message, after, hevents, -⟩ := hr
    simp at hevents
  obtain ⟨last, hgetLast⟩ := Option.isSome_iff_exists.mp (List.getLast?_isSome.mpr hne)
  obtain ⟨hafter, hsoon⟩ := htime last hgetLast
  obtain ⟨hle, hyoung⟩ := hlast last hgetLast
  refine ⟨by omega, ?_⟩
  rw [ActivityLed.dueToTurnOff, (h.lit r hr).2, decide_eq_true_eq, ge_iff_le, ← UInt32.not_lt,
    reading_sub_lt_iff (by omega) (by omega)]
  omega

theorem follows_update {events : List Event} {log : FlashingMessageLog}
    (h : Follows flashDurationMs events log) (hduration : flashDurationMs.toNat < 2 ^ 31) (t : ℕ)
    (htime : ∀ last ∈ events.getLast?, last.instant ≤ t ∧ t < last.instant + 2 ^ 31) :
    Follows flashDurationMs (events ++ [.update t]) (step flashDurationMs log (.update t)) := by
  have hinner : log.inner = (events ++ [Event.update t]).filterMap Event.message? := by
    rw [List.filterMap_append, ← h.inner]
    exact (List.append_nil _).symm
  rcases hlit : log.indicator.lit with _ | _
  · -- a dark pin stays dark
    have hsame : step flashDurationMs log (.update t) = log := by
      simp [step, ActivityLed.update, hlit]
    rw [hsame]
    refine ⟨hinner, h.flashes, h.pin, fun r hr => ?_, fun hl => absurd hl (by simp [hlit])⟩
    exact h.lit r ((litSince_update t).mp hr).1
  · obtain ⟨r, hr, -⟩ := h.since hlit
    obtain ⟨hle, hdue⟩ := h.due_iff hduration htime hlit hr
    by_cases hold : r + flashDurationMs.toNat ≤ t
    · have hoff : step flashDurationMs log (.update t) = { log with indicator :=
          { log.indicator with written := log.indicator.written ++ [.low], lit := false } } := by
        simp [step, ActivityLed.update, hlit, hdue.mpr hold]
      rw [hoff]
      refine ⟨hinner, ?_, ?_, fun r' hr' => ?_, fun hl => absurd hl (by simp)⟩
      · simpa using h.flashes
      · simp [ActivityLed.pin]
      · obtain ⟨hr', hyoung⟩ := (litSince_update t).mp hr'
        obtain rfl := hr.unique hr'
        omega
    · have hsame : step flashDurationMs log (.update t) = log := by
        simp [step, ActivityLed.update, hlit, hdue.not.mpr hold]
      rw [hsame]
      refine ⟨hinner, h.flashes, h.pin, fun r hr => h.lit r ((litSince_update t).mp hr).1,
        fun _ => ⟨r, (litSince_update t).mpr ⟨hr, by omega⟩, fun last hlast => ?_⟩⟩
      rw [List.getLast?_concat, Option.mem_some_iff] at hlast
      subst hlast
      simp only [Event.instant]
      omega

theorem follows_run (hduration : flashDurationMs.toNat < 2 ^ 31) {events : List Event}
    (htime : InTime events) :
    Follows flashDurationMs events (run (step flashDurationMs) initial events) := by
  induction events using List.reverseRecOn with
  | nil => exact follows_initial
  | append_singleton events e ih =>
    obtain ⟨hbefore, -, hnext⟩ := List.isChain_append.mp htime
    rw [run_concat]
    cases e with
    | record message t => exact follows_record (ih hbefore) message t
    | update t =>
      exact follows_update (ih hbefore) hduration t (fun last hlast => hnext last hlast _ rfl)

/-- However often the counter wraps, every message is recorded once and flashes once, and the
pin is high exactly as long as no update has come after the flash of the last message was
over. -/
theorem led_lit_iff_recent (hduration : flashDurationMs.toNat < 2 ^ 31) (events : List Event)
    (htime : InTime events) :
    let log := run (step flashDurationMs) initial events
    log.inner = events.filterMap Event.message? ∧
      log.indicator.written.count .high = log.inner.length ∧
      (log.indicator.pin = .high ↔ ∃ r, LitSince flashDurationMs r events) := by
  intro log
  have hfollows : Follows flashDurationMs events log := follows_run hduration htime
  refine ⟨hfollows.inner, hfollows.flashes, hfollows.pin.trans ⟨fun hlit => ?_, ?_⟩⟩
  · obtain ⟨r, hr, -⟩ := hfollows.since hlit
    exact ⟨r, hr⟩
  · rintro ⟨r, hr⟩
    exact (hfollows.lit r hr).1

/-- Two messages 30 milliseconds apart, and updates in between and after. -/
def twoMessages : List Event :=
  [.record ⟨[0x83, 0x7C]⟩ 100, .update 120, .record ⟨[0x83, 0x7C]⟩ 130, .update 150, .update 169,
    .update 170]

theorem led_lit_iff_recent_twoMessages :
    (run (step 40) initial twoMessages).indicator.written.count .high = 2 :=
  (led_lit_iff_recent (by decide) twoMessages (by unfold InTime; decide)).2.1

end FlashingMessageLog
end Loco2Mqtt
