import Mathlib.Tactic.ByContra
import Loco2Mqtt.Application.ButtonSetupModeTrigger
import Loco2Mqtt.Foundations.Occasions
import Loco2Mqtt.Foundations.WrappingClock

/-! When the setup button triggers. The flags and time stamps of the trigger are tied to the
history of its polls: where the current press began, which is the first active poll after the
last settled release, and where the inactive run began that may settle next. What the history
says of settling depends on how the age of a run is told, by the readings of the counter or in
real time, and the two agree for polls that are not too far apart. -/

namespace Loco2Mqtt.SetupButton

open ButtonSetupModeTrigger Occasions WrappingClock

universe u

/-- The level of the button at a poll, and the real time. -/
structure Poll where
  active : Bool
  time : ℕ

variable {σ : Type u} (request : σ → σ) (stored : σ) (polls : ℕ → Poll)

/-- The trigger and the store before poll number `n`. -/
def before : ℕ → ButtonSetupModeTrigger × σ
  | 0 => (ButtonSetupModeTrigger.initial, stored)
  | n + 1 =>
    let (trigger, stored) := before n
    let (trigger, stored, _) :=
      trigger.update request (polls n).active (reading (polls n).time) stored
    (trigger, stored)

/-- What `update` returns at poll number `n`. -/
def returns (n : ℕ) : Bool :=
  let (trigger, stored) := before request stored polls n
  (trigger.update request (polls n).active (reading (polls n).time) stored).2.2

/-! ### The history of the polls -/

def Active (n : ℕ) : Prop := (polls n).active = true

/-- At poll `n`, at least 50 milliseconds have passed since poll `r`. -/
def Ripe (r n : ℕ) : Prop := (polls r).time + 50 ≤ (polls n).time

/-- The same by the readings of the counter. -/
def LooksRipe (r n : ℕ) : Prop :=
  kReleaseSettleMs ≤ reading (polls n).time - reading (polls r).time

section History

-- how the age of a run is told
variable (ripe : ℕ → ℕ → Prop)

/-- Poll `n` is inactive, `r` begins its run of inactive polls, and `n` is the first poll of the
run at which it is ripe. -/
def SettledFrom (r n : ℕ) : Prop :=
  ¬ Active polls n ∧ Since (Active polls) r n ∧ First (ripe r) r n

def Settled (n : ℕ) : Prop := ∃ r, SettledFrom polls ripe r n

/-- Before poll `n`, the first active poll after the last settled release, or after the start,
was `h`. -/
def HeldSince (h n : ℕ) : Prop :=
  ∃ s, Since (Settled polls ripe) s n ∧ First (Active polls) s h ∧ h < n

end History

/-- The release that began at `r` settles at `n`, at least 3000 milliseconds after the press
began. -/
def Fires (n : ℕ) : Prop :=
  ∃ r h, SettledFrom polls (Ripe polls) r n ∧ HeldSince polls (Ripe polls) h n ∧
    (polls h).time + 3000 ≤ (polls r).time

/-- The same by the readings of the counter. -/
def LooksFiring (n : ℕ) : Prop :=
  ∃ r h, SettledFrom polls (LooksRipe polls) r n ∧ HeldSince polls (LooksRipe polls) h n ∧
    kHoldDurationMs ≤ reading (polls r).time - reading (polls h).time

/-! ### What the trigger remembers -/

/-- Before poll `n`, where `s` follows the last settled release and `r` the last active poll. -/
structure Tracks (s r n : ℕ) (trigger : ButtonSetupModeTrigger) : Prop where
  since : Since (Settled polls (LooksRipe polls)) s n
  run : Since (Active polls) r n
  idle : trigger.holding = false → ∀ k, s ≤ k → k < n → ¬ Active polls k
  held : trigger.holding = true → ∃ h, First (Active polls) s h ∧ h < n ∧
    trigger.holdStartMs = reading (polls h).time
  pressed : trigger.holding = true → trigger.releasing = false → r = n
  releasing : trigger.releasing = true → trigger.holding = true ∧ r < n ∧
    trigger.releaseStartMs = reading (polls r).time ∧
      ∀ k, r ≤ k → k < n → ¬ LooksRipe polls r k

variable {polls} {s r n : ℕ} {trigger : ButtonSetupModeTrigger}

theorem tracks_initial : Tracks polls 0 0 0 ButtonSetupModeTrigger.initial where
  since := since_zero
  run := since_zero
  idle _ k _ hk := absurd hk (Nat.not_lt_zero k)
  held h := absurd h Bool.false_ne_true
  pressed h := absurd h Bool.false_ne_true
  releasing h := absurd h Bool.false_ne_true

theorem not_looksRipe_self (n : ℕ) : ¬ LooksRipe polls n n := by
  rw [LooksRipe, UInt32.sub_self]
  decide

/-- During a press, an inactive poll settles the release exactly when the trigger finds it
old enough. -/
theorem Tracks.settledFrom_iff (h : Tracks polls s r n trigger) (hinactive : ¬ Active polls n)
    (hholding : trigger.holding = true) :
    SettledFrom polls (LooksRipe polls) r n ↔ trigger.releasing = true ∧
      kReleaseSettleMs ≤ reading (polls n).time - trigger.releaseStartMs := by
  constructor
  · rintro ⟨-, -, -, hripe, -⟩
    rcases hreleasing : trigger.releasing with _ | _
    · obtain rfl := h.pressed hholding hreleasing
      exact absurd hripe (not_looksRipe_self r)
    · obtain ⟨-, -, hstart, -⟩ := h.releasing hreleasing
      rw [hstart]
      exact ⟨rfl, hripe⟩
  · rintro ⟨hreleasing, hripe⟩
    obtain ⟨-, hlt, hstart, hearlier⟩ := h.releasing hreleasing
    rw [hstart] at hripe
    exact ⟨hinactive, h.run, Nat.le_of_lt hlt, hripe, hearlier⟩

theorem Tracks.settled_iff (h : Tracks polls s r n trigger) :
    Settled polls (LooksRipe polls) n ↔ SettledFrom polls (LooksRipe polls) r n := by
  constructor
  · rintro ⟨r', hsettled⟩
    obtain rfl := h.run.unique hsettled.2.1
    exact hsettled
  · exact fun hsettled => ⟨r, hsettled⟩

/-! ### One poll -/

/-- The press that is timed is the one since the last settled release. -/
theorem Tracks.heldSince_unique (h : Tracks polls s r n trigger) {first held : ℕ}
    (hfirst : First (Active polls) s first)
    (hheld : HeldSince polls (LooksRipe polls) held n) : held = first := by
  obtain ⟨s', hsince, hfirst', -⟩ := hheld
  obtain rfl := h.since.unique hsince
  exact hfirst'.unique hfirst

theorem tracks_active (h : Tracks polls s r n trigger) (hactive : Active polls n) (stored : σ) :
    Tracks polls s (n + 1) (n + 1)
      (trigger.update request true (reading (polls n).time) stored).1 := by
  have hnone : ¬ Settled polls (LooksRipe polls) n := fun ⟨_, hinactive, _⟩ => hinactive hactive
  rw [update_active]
  refine ⟨h.since.succ hnone, since_succ hactive, fun hf => absurd hf.symm Bool.false_ne_true,
    fun _ => ?_, fun _ _ => rfl, fun hf => absurd hf Bool.false_ne_true⟩
  rcases hholding : trigger.holding with _ | _
  · -- the press begins here
    exact ⟨n, ⟨h.since.1, hactive, h.idle hholding⟩, Nat.lt_succ_self n, rfl⟩
  · obtain ⟨first, hfirst, hlt, hstart⟩ := h.held hholding
    exact ⟨first, hfirst, by omega, hstart⟩

theorem tracks_idle (h : Tracks polls s r n trigger) (hinactive : ¬ Active polls n)
    (hholding : trigger.holding = false) : ∃ s', Tracks polls s' r (n + 1) trigger := by
  obtain ⟨s', hsince, hle, -⟩ := h.since.step
  refine ⟨s', hsince, h.run.succ hinactive, fun _ k hk hkn => ?_, fun hf => ?_, fun hf => ?_,
    fun hf => ?_⟩
  · rcases Nat.lt_succ_iff_lt_or_eq.mp hkn with hkn | rfl
    · exact h.idle hholding k (by omega) hkn
    · exact hinactive
  · rw [hholding] at hf
    cases hf
  · rw [hholding] at hf
    cases hf
  · obtain ⟨hf, -⟩ := h.releasing hf
    rw [hholding] at hf
    cases hf

theorem tracks_released (h : Tracks polls s r n trigger) (hinactive : ¬ Active polls n)
    (hholding : trigger.holding = true) (hreleasing : trigger.releasing = false) :
    Tracks polls s r (n + 1)
      { trigger with releasing := true, releaseStartMs := reading (polls n).time } := by
  have hnone : ¬ Settled polls (LooksRipe polls) n := by
    rw [h.settled_iff, h.settledFrom_iff hinactive hholding, hreleasing]
    exact fun hf => absurd hf.1 Bool.false_ne_true
  obtain rfl := h.pressed hholding hreleasing
  obtain ⟨first, hfirst, hlt, hstart⟩ := h.held hholding
  refine ⟨h.since.succ hnone, h.run.succ hinactive, fun hf => ?_,
    fun _ => ⟨first, hfirst, by omega, hstart⟩, fun _ hf => absurd hf.symm Bool.false_ne_true,
    fun _ => ⟨hholding, Nat.lt_succ_self r, rfl, fun k hk hkn => ?_⟩⟩
  · exact absurd (hholding.symm.trans hf).symm Bool.false_ne_true
  · obtain rfl : r = k := by omega
    exact not_looksRipe_self r

theorem tracks_settling (h : Tracks polls s r n trigger) (hinactive : ¬ Active polls n)
    (hholding : trigger.holding = true) (hreleasing : trigger.releasing = true)
    (hyoung : ¬ kReleaseSettleMs ≤ reading (polls n).time - trigger.releaseStartMs) :
    Tracks polls s r (n + 1) trigger := by
  have hnone : ¬ Settled polls (LooksRipe polls) n := by
    rw [h.settled_iff, h.settledFrom_iff hinactive hholding]
    exact fun hf => hyoung hf.2
  obtain ⟨first, hfirst, hlt, hstart⟩ := h.held hholding
  obtain ⟨-, hrun, hrelease, hearlier⟩ := h.releasing hreleasing
  refine ⟨h.since.succ hnone, h.run.succ hinactive, fun hf => ?_,
    fun _ => ⟨first, hfirst, by omega, hstart⟩, fun _ hf => ?_,
    fun _ => ⟨hholding, by omega, hrelease, fun k hk hkn => ?_⟩⟩
  · exact absurd (hholding.symm.trans hf).symm Bool.false_ne_true
  · exact absurd (hreleasing.symm.trans hf).symm Bool.false_ne_true
  · rcases Nat.lt_succ_iff_lt_or_eq.mp hkn with hkn | rfl
    · exact hearlier k hk hkn
    · rwa [hrelease] at hyoung

theorem tracks_settled (h : Tracks polls s r n trigger) (hinactive : ¬ Active polls n)
    (hholding : trigger.holding = true) (hreleasing : trigger.releasing = true)
    (hripe : kReleaseSettleMs ≤ reading (polls n).time - trigger.releaseStartMs) :
    Tracks polls (n + 1) r (n + 1) { trigger with holding := false, releasing := false } := by
  have hsettled : Settled polls (LooksRipe polls) n :=
    h.settled_iff.mpr ((h.settledFrom_iff hinactive hholding).mpr ⟨hreleasing, hripe⟩)
  refine ⟨since_succ hsettled, h.run.succ hinactive, fun _ k hk hkn => by omega,
    fun hf => absurd hf Bool.false_ne_true, fun hf => absurd hf Bool.false_ne_true,
    fun hf => absurd hf Bool.false_ne_true⟩

theorem not_looksFiring_of_not_settled (h : ¬ Settled polls (LooksRipe polls) n) :
    ¬ LooksFiring polls n := fun ⟨r, _, hsettled, _⟩ => h ⟨r, hsettled⟩

/-- Where a release settles, the press it ends and the run it began with are the ones the
trigger has noted. -/
theorem Tracks.looksFiring_iff (h : Tracks polls s r n trigger) (hinactive : ¬ Active polls n)
    (hholding : trigger.holding = true) (hreleasing : trigger.releasing = true)
    (hripe : kReleaseSettleMs ≤ reading (polls n).time - trigger.releaseStartMs) :
    LooksFiring polls n ↔ kHoldDurationMs ≤ trigger.releaseStartMs - trigger.holdStartMs := by
  obtain ⟨first, hfirst, hlt, hstart⟩ := h.held hholding
  obtain ⟨-, -, hrelease, -⟩ := h.releasing hreleasing
  rw [hstart, hrelease]
  constructor
  · rintro ⟨r', held, hsettled, hheld, hlong⟩
    obtain rfl := h.run.unique hsettled.2.1
    obtain rfl := h.heldSince_unique hfirst hheld
    exact hlong
  · intro hlong
    have hsettled := (h.settledFrom_iff hinactive hholding).mpr ⟨hreleasing, hripe⟩
    exact ⟨r, first, hsettled, ⟨s, h.since, hfirst, hlt⟩, hlong⟩

/-- A poll keeps track of the history and returns what the history says. -/
theorem Tracks.step (h : Tracks polls s r n trigger) (stored : σ) :
    let result := trigger.update request (polls n).active (reading (polls n).time) stored
    (∃ s' r', Tracks polls s' r' (n + 1) result.1) ∧ (result.2.2 = true ↔ LooksFiring polls n) := by
  intro result
  rcases hlevel : (polls n).active with _ | _
  · have hinactive : ¬ Active polls n := by
      rw [Active, hlevel]
      exact Bool.false_ne_true
    simp only [result, hlevel]
    rcases hholding : trigger.holding with _ | _
    · rw [update_idle request trigger _ stored hholding]
      obtain ⟨s', hnext⟩ := tracks_idle h hinactive hholding
      refine ⟨⟨s', r, hnext⟩, iff_of_false Bool.false_ne_true ?_⟩
      rintro ⟨r', held, -, ⟨s'', hsince, ⟨hs, hactive, -⟩, hlt⟩, -⟩
      obtain rfl := h.since.unique hsince
      exact h.idle hholding held hs hlt hactive
    rcases hreleasing : trigger.releasing with _ | _
    · rw [update_released request trigger _ stored hholding hreleasing]
      refine ⟨⟨s, r, tracks_released h hinactive hholding hreleasing⟩,
        iff_of_false Bool.false_ne_true (not_looksFiring_of_not_settled ?_)⟩
      rw [h.settled_iff, h.settledFrom_iff hinactive hholding, hreleasing]
      exact fun hf => absurd hf.1 Bool.false_ne_true
    by_cases hripe : kReleaseSettleMs ≤ reading (polls n).time - trigger.releaseStartMs
    · simp only [update_settled request trigger _ stored hholding hreleasing hripe,
        decide_eq_true_eq]
      exact ⟨⟨n + 1, r, tracks_settled h hinactive hholding hreleasing hripe⟩,
        (h.looksFiring_iff hinactive hholding hreleasing hripe).symm⟩
    · rw [update_settling request trigger _ stored hholding hreleasing hripe]
      refine ⟨⟨s, r, tracks_settling h hinactive hholding hreleasing hripe⟩,
        iff_of_false Bool.false_ne_true (not_looksFiring_of_not_settled ?_)⟩
      rw [h.settled_iff, h.settledFrom_iff hinactive hholding]
      exact fun hf => hripe hf.2
  · have hactive : Active polls n := hlevel
    simp only [result, hlevel]
    refine ⟨⟨s, n + 1, tracks_active request h hactive stored⟩, ?_⟩
    rw [update_active]
    refine iff_of_false Bool.false_ne_true (not_looksFiring_of_not_settled ?_)
    exact fun ⟨_, hinactive, _⟩ => hinactive hactive

/-! ### All polls -/

variable (polls)

theorem before_tracks (n : ℕ) : ∃ s r, Tracks polls s r n (before request stored polls n).1 := by
  induction n with
  | zero => exact ⟨0, 0, tracks_initial⟩
  | succ n ih =>
    obtain ⟨s, r, h⟩ := ih
    exact (h.step request (before request stored polls n).2).1

/-- At any spacing of the polls, an update returns true where it should by the readings. -/
theorem returns_iff_looksFiring (n : ℕ) :
    returns request stored polls n = true ↔ LooksFiring polls n := by
  obtain ⟨s, r, h⟩ := before_tracks request stored polls n
  exact (h.step request (before request stored polls n).2).2

theorem stored_succ (n : ℕ) :
    (before request stored polls (n + 1)).2 =
      if returns request stored polls n then request (before request stored polls n).2
      else (before request stored polls n).2 :=
  update_requests request _ _ _ _

/-! ### Real time -/

/-- From the beginning of a press to that of the release that ends it, the counter does not
come round. -/
def HoldsBelowWrap : Prop :=
  ∀ h r n, HeldSince polls (Ripe polls) h n → SettledFrom polls (Ripe polls) r n →
    (polls r).time < (polls h).time + 2 ^ 32

variable {polls}

theorem settledFrom_eq (h : Spaced (fun k => (polls k).time)) :
    SettledFrom polls (LooksRipe polls) = SettledFrom polls (Ripe polls) := by
  have hms : kReleaseSettleMs.toNat = 50 := rfl
  funext r n
  have hfirst : First (LooksRipe polls r) r n ↔ First (Ripe polls r) r n := by
    refine first_congr (fun k hrk hyoung => ?_)
    exact h.age_iff (by rw [hms]; omega) hrk (fun j hrj hjk => Nat.not_le.mp (hyoung j hrj hjk))
  exact propext (and_congr_right fun _ => and_congr_right fun _ => hfirst)

theorem looksFiring_iff (h : Spaced (fun k => (polls k).time)) (hholds : HoldsBelowWrap polls)
    (n : ℕ) : LooksFiring polls n ↔ Fires polls n := by
  have hheld : HeldSince polls (LooksRipe polls) = HeldSince polls (Ripe polls) := by
    unfold HeldSince Settled
    rw [settledFrom_eq h]
  rw [LooksFiring, Fires, settledFrom_eq h, hheld]
  refine exists_congr fun r => exists_congr fun held => and_congr_right fun hsettled =>
    and_congr_right fun hsince => ?_
  have hbegan : held < r := by
    -- the press began at an active poll, so before the run
    by_contra hge
    obtain ⟨s, -, ⟨-, hactive, -⟩, hlt⟩ := hsince
    obtain ⟨-, ⟨-, hrun, -⟩, -⟩ := hsettled
    exact hrun held (Nat.not_lt.mp hge) hlt hactive
  have hle : (polls held).time ≤ (polls r).time := h.le (Nat.le_of_lt hbegan)
  have hspan := hholds held r n hsince hsettled
  have hms : kHoldDurationMs.toNat = 3000 := rfl
  rw [← UInt32.not_lt, reading_sub_lt_iff hle (by omega), hms]
  omega

/-- After a settled release, the next press begins later. -/
theorem exists_active_between {ripe : ℕ → ℕ → Prop} {m n h : ℕ} (hsettled : Settled polls ripe m)
    (hmn : m < n) (hheld : HeldSince polls ripe h n) : ∃ k, m < k ∧ k < n ∧ Active polls k := by
  obtain ⟨s, ⟨-, hnone, -⟩, ⟨hs, hactive, -⟩, hlt⟩ := hheld
  have hms : m < s := by
    by_contra hge
    exact hnone m (Nat.not_lt.mp hge) hmn hsettled
  exact ⟨h, by omega, hlt, hactive⟩

variable (polls)

/-- On polls that are not too far apart, an update returns true exactly where a long press has
just been released for good. The request is made then and at no other poll, never while the
button is active, and the button is active between any two requests. -/
theorem button_triggers_exactly (hspaced : Spaced (fun k => (polls k).time))
    (hholds : HoldsBelowWrap polls) :
    (∀ n, returns request stored polls n = true ↔ Fires polls n) ∧
      (∀ n, (before request stored polls (n + 1)).2 =
        if returns request stored polls n then request (before request stored polls n).2
        else (before request stored polls n).2) ∧
      (∀ n, returns request stored polls n = true → ¬ Active polls n) ∧
      ∀ m n, m < n → returns request stored polls m = true → returns request stored polls n = true →
        ∃ k, m < k ∧ k < n ∧ Active polls k := by
  have hfires : ∀ n, returns request stored polls n = true ↔ Fires polls n := fun n =>
    (returns_iff_looksFiring request stored polls n).trans (looksFiring_iff hspaced hholds n)
  refine ⟨hfires, stored_succ request stored polls, fun n hn => ?_, fun m n hmn hm hn => ?_⟩
  · obtain ⟨r, h, hsettled, -⟩ := (hfires n).mp hn
    exact hsettled.1
  · obtain ⟨r, -, hsettled, -⟩ := (hfires m).mp hm
    obtain ⟨-, h, -, hheld, -⟩ := (hfires n).mp hn
    exact exists_active_between ⟨r, hsettled⟩ hmn hheld

/-- A press of four seconds, polled every second. -/
def longPress (n : ℕ) : Poll := ⟨n < 4, 1000 * n⟩

theorem button_triggers_longPress :
    Fires longPress 5 ∧ (before (· + 1) 0 longPress 6).2 = 1 := by
  have hspaced : Spaced (fun k => (longPress k).time) := fun k => by
    simp only [longPress]
    omega
  have hholds : HoldsBelowWrap longPress := by
    rintro h r n - ⟨-, ⟨-, -, hrun⟩, -⟩
    rcases r with _ | r
    · simp [longPress]
    · have hactive : r < 4 := of_decide_eq_true (hrun r rfl)
      simp only [longPress]
      omega
  exact ⟨((button_triggers_exactly (· + 1) 0 longPress hspaced hholds).1 5).mp (by decide),
    by decide⟩

end Loco2Mqtt.SetupButton
