import Loco2Mqtt.Commissioning.SetupButton

/-! The releases inside a press. The trigger tests the age of a release at inactive polls only,
so it takes a release for a bounce of the contacts unless it is polled once more, still
inactive, when 50 milliseconds have passed. A long release that is not polled in time joins the
press before it to the press after it. Nothing here depends on the spacing of the polls. -/

namespace Loco2Mqtt.ButtonReleases

open ButtonSetupModeTrigger SetupButton Occasions WrappingClock

universe u

variable {σ : Type u} (request : σ → σ) (stored : σ) (polls : ℕ → Poll)

/-- The trigger before poll `n`. -/
def trigger (n : ℕ) : ButtonSetupModeTrigger := (before request stored polls n).1

/-- The press that the trigger times before poll `n` began at poll `h`. -/
def PressedFrom (h n : ℕ) : Prop :=
  h < n ∧ (trigger request stored polls h).holding = false ∧
    ∀ k, h < k → k ≤ n → (trigger request stored polls k).holding = true

/-- A release that does not last: after an active poll, from the first inactive poll `i` to the
next active poll `j`. -/
def Gap (i j : ℕ) : Prop := 0 < i ∧ i < j ∧ Since (Active polls) i j ∧ Active polls j

/-- The release is polled when it looks at least 50 milliseconds old. -/
def Seen (i j : ℕ) : Prop := ∃ k, i < k ∧ k < j ∧ LooksRipe polls i k

/-- In the press timed before poll `n`, up to the first poll `r` of its final release, every
gap is shorter than 50 milliseconds. -/
def Unbroken (n : ℕ) : Prop :=
  ∀ h r, PressedFrom request stored polls h n → Since (Active polls) r n →
    ∀ i j, h < i → Gap polls i j → j < r → (polls j).time < (polls i).time + 50

/-- In the press timed before poll `n`, every gap of at least 50 milliseconds is seen. -/
def LongGapsSeen (n : ℕ) : Prop :=
  ∀ h r, PressedFrom request stored polls h n → Since (Active polls) r n →
    ∀ i j, h < i → Gap polls i j → j < r → (polls i).time + 50 ≤ (polls j).time → Seen polls i j

variable {request stored polls} {h i j k n : ℕ}

theorem trigger_succ (n : ℕ) :
    trigger request stored polls (n + 1) = ((trigger request stored polls n).update request
      (polls n).active (reading (polls n).time) (before request stored polls n).2).1 := rfl

/-- A press that is being timed began at an active poll. -/
theorem exists_pressedFrom (hholding : (trigger request stored polls n).holding = true) :
    ∃ h, PressedFrom request stored polls h n ∧ Active polls h := by
  induction n with
  | zero => exact absurd hholding Bool.false_ne_true
  | succ n ih =>
    by_cases hbefore : (trigger request stored polls n).holding = true
    · obtain ⟨h, ⟨hlt, hidle, hheld⟩, hactive⟩ := ih hbefore
      refine ⟨h, ⟨by omega, hidle, fun k hk hkn => ?_⟩, hactive⟩
      rcases Nat.lt_or_eq_of_le hkn with hkn | rfl
      · exact hheld k hk (by omega)
      · exact hholding
    · rw [Bool.not_eq_true] at hbefore
      refine ⟨n, ⟨Nat.lt_succ_self n, hbefore, fun k hk hkn => ?_⟩, ?_⟩
      · obtain rfl : k = n + 1 := by omega
        exact hholding
      · by_contra hinactive
        rw [Active, Bool.not_eq_true] at hinactive
        rw [trigger_succ, hinactive, update_idle request _ _ _ hbefore, hbefore] at hholding
        exact Bool.false_ne_true hholding

/-- An update that returns true ends a press. -/
theorem holding_of_returns (hreturns : returns request stored polls n = true) :
    (trigger request stored polls n).holding = true := by
  by_contra hidle
  rw [Bool.not_eq_true, trigger] at hidle
  simp only [returns] at hreturns
  rcases hlevel : (polls n).active with _ | _
  · rw [hlevel, update_idle request _ _ _ hidle] at hreturns
    exact Bool.false_ne_true hreturns
  · rw [hlevel, update_active] at hreturns
    exact Bool.false_ne_true hreturns

theorem trigger_succ_of_active (hactive : Active polls n) :
    (trigger request stored polls (n + 1)).releasing = false := by
  rw [trigger_succ, show (polls n).active = true from hactive, update_active]

/-- While the press goes on, the trigger keeps the time of the first inactive poll, and no later
one has looked ripe. -/
theorem releasing_of_gap (hgap : Gap polls i j) (hik : i < k) (hkj : k ≤ j)
    (hheld : ∀ m, i ≤ m → m ≤ k → (trigger request stored polls m).holding = true)
    (hafter : (trigger request stored polls i).releasing = false) :
    (trigger request stored polls k).releasing = true ∧
      (trigger request stored polls k).releaseStartMs = reading (polls i).time ∧
        ∀ m, i < m → m < k → ¬ LooksRipe polls i m := by
  have hinactive : ∀ m, i ≤ m → m < j → (polls m).active = false := fun m him hmj =>
    Bool.eq_false_iff.mpr (hgap.2.2.1.2.1 m him hmj)
  induction k with
  | zero => omega
  | succ k ih =>
    rw [trigger_succ, hinactive k (by omega) (by omega)]
    have hholding := hheld k (by omega) (by omega)
    rcases Nat.lt_succ_iff_lt_or_eq.mp hik with hlt | rfl
    · obtain ⟨hreleasing, hstart, hyoung⟩ :=
        ih hlt (by omega) (fun m him hmk => hheld m him (by omega))
      have hripe : ¬ kReleaseSettleMs ≤
          reading (polls k).time - (trigger request stored polls k).releaseStartMs := by
        -- the press would be over after this poll
        intro hripe
        have hnext := hheld (k + 1) (by omega) (Nat.le_refl _)
        rw [trigger_succ, hinactive k (by omega) (by omega),
          update_settled request _ _ _ hholding hreleasing hripe] at hnext
        exact Bool.false_ne_true hnext
      rw [update_settling request _ _ _ hholding hreleasing hripe]
      refine ⟨hreleasing, hstart, fun m him hmk => ?_⟩
      rcases Nat.lt_succ_iff_lt_or_eq.mp hmk with hmk | rfl
      · exact hyoung m him hmk
      · rwa [hstart] at hripe
    · rw [update_released request _ _ _ hholding hafter]
      exact ⟨rfl, rfl, fun m him hmi => by omega⟩

/-- A gap inside a press has not been seen. -/
theorem not_seen_of_pressedFrom (hpressed : PressedFrom request stored polls h n) (hhi : h < i)
    (hgap : Gap polls i j) (hjn : j ≤ n) : ¬ Seen polls i j := by
  rintro ⟨k, hik, hkj, hripe⟩
  obtain ⟨-, -, hheld⟩ := hpressed
  have hafter : (trigger request stored polls i).releasing = false := by
    obtain ⟨m, rfl⟩ : ∃ m, i = m + 1 := ⟨i - 1, by omega⟩
    exact trigger_succ_of_active (hgap.2.2.1.2.2 m rfl)
  obtain ⟨-, -, hyoung⟩ := releasing_of_gap hgap hgap.2.1 (Nat.le_refl j)
    (fun m him hmj => hheld m (by omega) (by omega)) hafter
  exact hyoung k hik hkj hripe

theorem unbroken_iff (n : ℕ) :
    Unbroken request stored polls n ↔ LongGapsSeen request stored polls n := by
  refine forall_congr' fun h => forall_congr' fun r => forall_congr' fun hpressed =>
    forall_congr' fun hrun => forall_congr' fun i => forall_congr' fun j => forall_congr' fun hhi =>
      forall_congr' fun hgap => forall_congr' fun hjr => ?_
  have hjn : j ≤ n := Nat.le_of_lt (Nat.lt_of_lt_of_le hjr hrun.1)
  have hnone := not_seen_of_pressedFrom hpressed hhi hgap hjn
  constructor
  · intro hshort hlong
    omega
  · intro hseen
    by_contra hlong
    exact hnone (hseen (Nat.not_lt.mp hlong))

variable (request stored polls)

/-- At any spacing of the polls, an update that returns true counts a press that began at an
active poll. If every release of at least 50 milliseconds is polled in time, none of these
presses is broken by one, and each is unbroken exactly when the releases inside it were polled
so. -/
theorem counted_press_unbroken :
    (∀ n, returns request stored polls n = true → ∃ h r,
        PressedFrom request stored polls h n ∧ Active polls h ∧ Since (Active polls) r n) ∧
      ((∀ i j, Gap polls i j → (polls i).time + 50 ≤ (polls j).time → Seen polls i j) →
        ∀ n, returns request stored polls n = true → Unbroken request stored polls n) ∧
      ∀ n, returns request stored polls n = true →
        (Unbroken request stored polls n ↔ LongGapsSeen request stored polls n) := by
  refine ⟨fun n hreturns => ?_, fun hseen n _ => ?_, fun n _ => unbroken_iff n⟩
  · obtain ⟨h, hpressed, hactive⟩ := exists_pressedFrom (holding_of_returns hreturns)
    obtain ⟨r, hrun⟩ := exists_since (Active polls) n
    exact ⟨h, r, hpressed, hactive, hrun⟩
  · rw [unbroken_iff]
    exact fun _ _ _ _ i j _ hgap _ hlong => hseen i j hgap hlong

/-- A short press and a long one, with the release between them polled in time. -/
def twoPresses : ℕ → Poll
  | 0 => ⟨true, 0⟩
  | 1 => ⟨false, 1000⟩
  | 2 => ⟨false, 1050⟩
  | 3 => ⟨true, 5000⟩
  | 4 => ⟨false, 8000⟩
  | n + 5 => ⟨false, 8050 + n⟩

theorem counted_press_unbroken_twoPresses :
    returns (· + 1) 0 twoPresses 5 = true ∧ Unbroken (· + 1) 0 twoPresses 5 := by
  have hreturns : returns (· + 1) 0 twoPresses 5 = true := by decide
  refine ⟨hreturns, (counted_press_unbroken (· + 1) 0 twoPresses).2.1 ?_ 5 hreturns⟩
  rintro i j ⟨hi, hij, ⟨-, -, hlast⟩, hactive⟩ -
  obtain rfl : j = 3 := by
    match j, hactive with
    | 0, _ => omega
    | 3, _ => rfl
    | 1, h | 2, h | 4, h | _ + 5, h => exact absurd h Bool.false_ne_true
  obtain rfl : i = 1 := by
    match i, hij, hi with
    | 1, _, _ => rfl
    | 2, _, _ => exact absurd (hlast 1 rfl) (by unfold Active; decide)
  exact ⟨2, by omega, by omega, by unfold LooksRipe; decide⟩

/-- The loop stalls during a release of four seconds. -/
def stalled : ℕ → Poll
  | 0 => ⟨true, 0⟩
  | 1 => ⟨false, 1000⟩
  | 2 => ⟨true, 5000⟩
  | 3 => ⟨false, 5500⟩
  | n + 4 => ⟨false, 5550 + n⟩

/-- Two presses, of one second and of half a second, count as one of five and a half. -/
theorem short_presses_add_up :
    (∀ k, (stalled k).time < (stalled (k + 1)).time) ∧
      returns (· + 1) 0 stalled 4 = true ∧ ¬ Unbroken (· + 1) 0 stalled 4 := by
  refine ⟨fun k => ?_, by decide, fun h => ?_⟩
  · match k with
    | 0 | 1 | 2 | 3 => decide
    | k + 4 =>
      simp only [stalled]
      omega
  · have hpressed : PressedFrom (· + 1) 0 stalled 0 4 := by
      refine ⟨by omega, rfl, fun k hk hk4 => ?_⟩
      match k, hk, hk4 with
      | 1, _, _ | 2, _, _ | 3, _, _ | 4, _, _ => decide
    have hrun : Since (Active stalled) 3 4 := by
      refine ⟨by omega, fun k hk hk4 => ?_, fun k hk => ?_⟩
      · obtain rfl : k = 3 := by omega
        exact Bool.false_ne_true
      · obtain rfl : 2 = k := Nat.succ.inj hk
        rfl
    have hgap : Gap stalled 1 2 := by
      refine ⟨by omega, by omega, ⟨by omega, fun k hk hk2 => ?_, fun k hk => ?_⟩, rfl⟩
      · obtain rfl : k = 1 := by omega
        exact Bool.false_ne_true
      · obtain rfl : 0 = k := Nat.succ.inj hk
        rfl
    exact absurd (h 0 3 hpressed hrun 1 2 (by omega) hgap (by omega)) (by decide)

end Loco2Mqtt.ButtonReleases
