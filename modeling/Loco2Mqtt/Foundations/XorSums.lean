import Mathlib.Algebra.Ring.Parity
import Mathlib.Data.List.Basic

/-! The exclusive or of a list of bit vectors, which is a check sum. A bit of it is set when
an odd number of the vectors have it set. Two lists of one length have the same sum exactly
when their differences sum to zero; a change at one place always shows. -/

namespace Loco2Mqtt.XorSums

variable {w : ℕ}

def xorSum (vectors : List (BitVec w)) : BitVec w := vectors.foldr (· ^^^ ·) 0#w

@[simp] theorem xorSum_nil : xorSum ([] : List (BitVec w)) = 0#w := rfl

@[simp] theorem xorSum_cons (v : BitVec w) (rest : List (BitVec w)) :
    xorSum (v :: rest) = v ^^^ xorSum rest := rfl

/-- A bit of the sum is the parity of its column. -/
theorem getLsbD_xorSum (vectors : List (BitVec w)) (i : ℕ) :
    (xorSum vectors).getLsbD i = true ↔ Odd (vectors.countP (fun v => v.getLsbD i)) := by
  induction vectors with
  | nil => simp
  | cons v rest ih =>
    rw [xorSum_cons, BitVec.getLsbD_xor, List.countP_cons]
    by_cases hv : v.getLsbD i
    · simp [hv, ih, Nat.odd_add_one, ← Bool.not_eq_true]
    · simp [hv, ih]

/-- The differences of two lists sum to the difference of their sums. -/
theorem xorSum_zipWith {first second : List (BitVec w)} (h : first.length = second.length) :
    xorSum (List.zipWith (· ^^^ ·) first second) = xorSum first ^^^ xorSum second := by
  induction first generalizing second with
  | nil =>
    obtain rfl := List.eq_nil_of_length_eq_zero h.symm
    simp
  | cons v rest ih =>
    obtain _ | ⟨u, more⟩ := second
    · simp at h
    · have hrest := ih (Nat.succ.inj h)
      simp only [List.zipWith_cons_cons, xorSum_cons, hrest]
      ac_rfl

/-- Replacing one vector adds the difference to the sum. -/
theorem xorSum_set {vectors : List (BitVec w)} {i : ℕ} {old : BitVec w}
    (h : vectors[i]? = some old) (new : BitVec w) :
    xorSum (vectors.set i new) = xorSum vectors ^^^ (old ^^^ new) := by
  induction vectors generalizing i with
  | nil => simp at h
  | cons v rest ih =>
    cases i with
    | zero =>
      obtain rfl : v = old := Option.some.inj h
      rw [List.set_cons_zero, xorSum_cons, xorSum_cons]
      have hcancel : v ^^^ xorSum rest ^^^ (v ^^^ new) = (v ^^^ v) ^^^ (new ^^^ xorSum rest) := by
        ac_rfl
      rw [hcancel, BitVec.xor_self, BitVec.zero_xor]
    | succ i =>
      rw [List.set_cons_succ, xorSum_cons, xorSum_cons, ih h, BitVec.xor_assoc]

end Loco2Mqtt.XorSums
