import Mathlib.Algebra.Group.Nat.Defs

/-! A free-running 32-bit millisecond counter, and what its readings say about the
unbounded real time behind them. Elapsed time is a modular difference and is exact
for any span below `2 ^ 32`; a due time is a modular sum, and comparing it with a
later reading is only exact while neither has crossed the wrap point alone. -/

namespace Loco2Mqtt.WrappingClock

/-- The reading of the counter after `t` milliseconds of real time. -/
def reading (t : ℕ) : UInt32 := UInt32.ofNat t

@[simp] theorem toNat_reading (t : ℕ) : (reading t).toNat = t % 2 ^ 32 := by
  simp [reading]

theorem toNat_reading_of_lt {t : ℕ} (h : t < 2 ^ 32) : (reading t).toNat = t := by
  rw [toNat_reading, Nat.mod_eq_of_lt h]

/-- Adding a delay to a reading gives the reading of the delayed instant. -/
theorem reading_add (t : ℕ) (d : UInt32) : reading t + d = reading (t + d.toNat) := by
  apply UInt32.toNat_inj.mp
  rw [UInt32.toNat_add, toNat_reading, toNat_reading, Nat.mod_add_mod]

/-- The modular difference of two readings is the elapsed time, wrapped or not. -/
theorem toNat_reading_sub {s t : ℕ} (hst : s ≤ t) (hspan : t - s < 2 ^ 32) :
    (reading t - reading s).toNat = t - s := by
  rw [UInt32.toNat_sub, toNat_reading, toNat_reading]
  omega

theorem reading_sub_lt_iff {s t : ℕ} (hst : s ≤ t) (hspan : t - s < 2 ^ 32) (d : UInt32) :
    reading t - reading s < d ↔ t - s < d.toNat := by
  rw [UInt32.lt_iff_toNat_lt, toNat_reading_sub hst hspan]

/-! ### Ages along a sequence of instants -/

/-- The instants are less than `2 ^ 31` milliseconds apart. -/
def Spaced (time : ℕ → ℕ) : Prop := ∀ k, time k ≤ time (k + 1) ∧ time (k + 1) < time k + 2 ^ 31

theorem Spaced.le {time : ℕ → ℕ} (h : Spaced time) {j k : ℕ} (hjk : j ≤ k) : time j ≤ time k := by
  induction hjk with
  | refl => exact Nat.le_refl _
  | @step m _ ih => exact Nat.le_trans ih (h m).1

/-- Up to the first instant at which the age `d` is reached, the readings tell it right. -/
theorem Spaced.age_iff {time : ℕ → ℕ} (h : Spaced time) {d : UInt32} (hd : d.toNat ≤ 2 ^ 31)
    {r k : ℕ} (hrk : r ≤ k) (hyoung : ∀ j, r ≤ j → j < k → time j < time r + d.toNat) :
    d ≤ reading (time k) - reading (time r) ↔ time r + d.toNat ≤ time k := by
  have hle := h.le hrk
  have hspan : time k - time r < 2 ^ 32 := by
    rcases Nat.eq_or_lt_of_le hrk with rfl | hlt
    · omega
    · obtain ⟨j, rfl⟩ : ∃ j, k = j + 1 := ⟨k - 1, by omega⟩
      have hlast := hyoung j (by omega) (by omega)
      have hgap := (h j).2
      omega
  rw [← UInt32.not_lt, reading_sub_lt_iff hle hspan]
  omega

/-! ### Due times across the wrap -/

/-- Which round of the counter an instant falls in. -/
def epoch (t : ℕ) : ℕ := t / 2 ^ 32

/-- Before the due instant `D`, and less than a whole round away from it, a reading
looks due exactly when the counter has yet to wrap into the epoch of `D`. -/
theorem due_early_iff {u D : ℕ} (hlt : u < D) (hspan : D - u < 2 ^ 32) :
    reading D ≤ reading u ↔ epoch u ≠ epoch D := by
  rw [UInt32.le_iff_toNat_le, toNat_reading, toNat_reading, epoch, epoch]
  omega

end Loco2Mqtt.WrappingClock
