import Mathlib.Data.Nat.Notation

/-! Occasions along a sequence: the first one from a place on, and the place just after the
last one so far. The second marks where a history starts anew, so that an unbroken run of
occasions up to now begins where the last interruption ended. -/

namespace Loco2Mqtt.Occasions

variable {p q : ℕ → Prop} {s t m n : ℕ}

/-- `n` is the first occasion of `q` from `s` on. -/
def First (q : ℕ → Prop) (s n : ℕ) : Prop := s ≤ n ∧ q n ∧ ∀ k, s ≤ k → k < n → ¬ q k

/-- Before `n`, the last occasion of `q` came just before `s`, or there was none and `s` is 0. -/
def Since (q : ℕ → Prop) (s n : ℕ) : Prop :=
  s ≤ n ∧ (∀ k, s ≤ k → k < n → ¬ q k) ∧ ∀ k, s = k + 1 → q k

theorem First.unique (h : First q s m) (h' : First q s n) : m = n := by
  obtain ⟨hm, hqm, hbefore⟩ := h
  obtain ⟨hn, hqn, hbefore'⟩ := h'
  rcases Nat.lt_trichotomy m n with hlt | heq | hlt
  · exact absurd hqm (hbefore' m hm hlt)
  · exact heq
  · exact absurd hqn (hbefore n hn hlt)

/-- Two conditions have the same first occasion if they agree as long as the second has not
occurred. -/
theorem first_congr (h : ∀ k, s ≤ k → (∀ j, s ≤ j → j < k → ¬ q j) → (p k ↔ q k)) :
    First p s n ↔ First q s n := by
  constructor
  · rintro ⟨hs, hp, hbefore⟩
    have hnone : ∀ k, s ≤ k → k < n → ¬ q k := by
      intro k
      induction k using Nat.strongRecOn with
      | ind k ih =>
        intro hk hkn hq
        have hearlier : ∀ j, s ≤ j → j < k → ¬ q j := fun j hj hjk => ih j hjk hj (by omega)
        exact hbefore k hk hkn ((h k hk hearlier).mpr hq)
    exact ⟨hs, (h n hs hnone).mp hp, hnone⟩
  · rintro ⟨hs, hq, hbefore⟩
    refine ⟨hs, (h n hs hbefore).mpr hq, fun k hk hkn hp => ?_⟩
    exact hbefore k hk hkn ((h k hk (fun j hj hjk => hbefore j hj (by omega))).mp hp)

theorem since_zero : Since q 0 0 := ⟨Nat.le_refl 0, fun _ _ h => absurd h (Nat.not_lt_zero _),
  fun _ h => absurd h (Nat.succ_ne_zero _).symm⟩

/-- An occasion starts a new history. -/
theorem since_succ (h : q n) : Since q (n + 1) (n + 1) := by
  refine ⟨Nat.le_refl _, fun k hk hkn => by omega, fun k hk => ?_⟩
  obtain rfl : n = k := Nat.succ.inj hk
  exact h

/-- Anything else continues the old one. -/
theorem Since.succ (hs : Since q s n) (h : ¬ q n) : Since q s (n + 1) := by
  obtain ⟨hle, hnone, hlast⟩ := hs
  refine ⟨by omega, fun k hk hkn => ?_, hlast⟩
  rcases Nat.lt_succ_iff_lt_or_eq.mp hkn with hkn | rfl
  · exact hnone k hk hkn
  · exact h

theorem Since.unique (h : Since q s n) (h' : Since q t n) : s = t := by
  have hle : ∀ {s t : ℕ}, Since q s n → Since q t n → ¬ s < t := by
    rintro s t ⟨-, hnone, -⟩ ⟨htn, -, hlast⟩ hlt
    -- the occasion just before `t` comes after `s`
    obtain ⟨k, rfl⟩ : ∃ k, t = k + 1 := ⟨t - 1, by omega⟩
    exact hnone k (by omega) (by omega) (hlast k rfl)
  have hst := hle h h'
  have hts := hle h' h
  omega

/-- Where the history that reaches past `n` begins. -/
theorem Since.step (hs : Since q s n) : ∃ t, Since q t (n + 1) ∧ s ≤ t ∧ (¬ q n → t = s) := by
  have hle := hs.1
  by_cases h : q n
  · exact ⟨n + 1, since_succ h, by omega, fun hn => absurd h hn⟩
  · exact ⟨s, hs.succ h, Nat.le_refl _, fun _ => rfl⟩

theorem exists_since (q : ℕ → Prop) (n : ℕ) : ∃ s, Since q s n := by
  induction n with
  | zero => exact ⟨0, since_zero⟩
  | succ n ih =>
    obtain ⟨s, hs⟩ := ih
    obtain ⟨t, ht, -⟩ := hs.step
    exact ⟨t, ht⟩

end Loco2Mqtt.Occasions
