import Mathlib.Data.List.Basic
import Mathlib.Data.Nat.ModEq

/-! Answers that carry no label, matched with a queue of expected ones. Labels are issued in
rounds of one period of a sequence, each label both to the queue of expectations and to the
requests under way. Requests get lost at the front of what is under way, and the queue is
not told; an answer claims the front of the queue. The answer and the claim agree exactly
when the number of requests lost is a multiple of the period. -/

namespace Loco2Mqtt.Correlation

variable {α : Type*} (f : ℕ → α)

/-- The `k` labels of the sequence from number `i` on. -/
def window (i k : ℕ) : List α := (List.range' i k).map f

@[simp] theorem length_window (i k : ℕ) : (window f i k).length = k := by simp [window]

theorem window_succ (i k : ℕ) : window f i (k + 1) = f i :: window f (i + 1) k := rfl

theorem window_add (i j k : ℕ) : window f i (j + k) = window f i j ++ window f (i + j) k := by
  rw [window, window, window, ← List.map_append, List.range'_append_1]

/-- Splitting a window splits it into windows. -/
theorem window_eq_append {i k : ℕ} {front back : List α} (h : window f i k = front ++ back) :
    front = window f i front.length ∧ back = window f (i + front.length) back.length ∧
      k = front.length + back.length := by
  have hlen : k = front.length + back.length := by
    have hl := congrArg List.length h
    rwa [length_window, List.length_append] at hl
  rw [hlen, window_add] at h
  obtain ⟨hfront, hback⟩ := List.append_inj h (length_window f _ _)
  exact ⟨hfront.symm, hback.symm, hlen⟩

theorem window_of_period {p : ℕ} (hf : ∀ i j, i % p = j % p → f i = f j) {i : ℕ} (hi : p ∣ i)
    (k : ℕ) : window f i k = window f 0 k := by
  have hmap : List.range' i k = (List.range' 0 k).map (i + ·) := by
    rw [List.map_add_range', Nat.add_zero]
  rw [window, window, hmap, List.map_map]
  apply List.map_congr_left
  intro j _
  apply hf
  rw [Nat.add_mod, Nat.mod_eq_zero_of_dvd hi, Nat.zero_add, Nat.mod_mod]

/-- The expected labels and those of the requests under way are windows of the sequence that
end together, at the end of a round; of the expected ones the first `lost` have no request. -/
def Matched (p : ℕ) (expected underway : List α) (lost : ℕ) : Prop :=
  ∃ claimed, expected = window f claimed (lost + underway.length) ∧
    underway = window f (claimed + lost) underway.length ∧ p ∣ claimed + lost + underway.length

variable {f} {p : ℕ} {expected underway : List α} {lost : ℕ}

theorem Matched.nil : Matched f p [] [] 0 := ⟨0, rfl, rfl, Nat.dvd_zero p⟩

/-- A whole round is issued to both. -/
theorem Matched.issue (hf : ∀ i j, i % p = j % p → f i = f j)
    (h : Matched f p expected underway lost) :
    Matched f p (expected ++ window f 0 p) (underway ++ window f 0 p) lost := by
  obtain ⟨claimed, hexpected, hunderway, hround⟩ := h
  have hnext := window_of_period f hf hround p
  refine ⟨claimed, ?_, ?_, ?_⟩
  · rw [List.length_append, length_window, ← Nat.add_assoc, window_add, ← hexpected,
      ← Nat.add_assoc, hnext]
  · rw [List.length_append, length_window, window_add, ← hunderway, hnext]
  · rw [List.length_append, length_window, ← Nat.add_assoc]
    exact Nat.dvd_add hround (Nat.dvd_refl p)

/-- The front of what is under way is lost. -/
theorem Matched.lose {front : List α} (h : Matched f p expected (front ++ underway) lost) :
    Matched f p expected underway (lost + front.length) := by
  obtain ⟨claimed, hexpected, hunderway, hround⟩ := h
  obtain ⟨-, hback, hlen⟩ := window_eq_append f hunderway.symm
  rw [hlen] at hexpected hround
  exact ⟨claimed, by rw [hexpected, Nat.add_assoc], by rw [← Nat.add_assoc]; exact hback,
    by rwa [← Nat.add_assoc, Nat.add_assoc _ front.length]⟩

/-- An answer to the front request claims the front of the queue. -/
theorem Matched.claim {answered : α} (hf : ∀ i j, f i = f j ↔ i % p = j % p)
    (h : Matched f p expected (answered :: underway) lost) :
    ∃ claim rest, expected = claim :: rest ∧ Matched f p rest underway lost ∧
      (claim = answered ↔ p ∣ lost) := by
  obtain ⟨claimed, hexpected, hunderway, hround⟩ := h
  rw [List.length_cons, ← Nat.add_assoc, window_succ] at hexpected
  rw [List.length_cons, window_succ] at hunderway
  obtain ⟨hanswered, hrest⟩ := List.cons_eq_cons.mp hunderway
  refine ⟨f claimed, _, hexpected, ⟨claimed + 1, rfl, ?_, ?_⟩, ?_⟩
  · rw [Nat.add_right_comm]
    exact hrest
  · rw [List.length_cons] at hround
    rwa [Nat.add_right_comm claimed, Nat.add_assoc, Nat.add_comm 1]
  · rw [hanswered, hf]
    constructor
    · intro hmod
      have hdvd := (Nat.modEq_iff_dvd' (Nat.le_add_right claimed lost)).mp hmod
      rwa [Nat.add_sub_cancel_left] at hdvd
    · intro hdvd
      exact (Nat.modEq_iff_dvd' (Nat.le_add_right claimed lost)).mpr
        (by rwa [Nat.add_sub_cancel_left])

end Loco2Mqtt.Correlation
