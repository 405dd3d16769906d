import Mathlib.Data.Int.Notation
import Mathlib.Data.Nat.Notation
import Mathlib.Data.List.Basic

/-! Integers in plain decimal: printing them, and reading a list of ASCII digits back.
Reading inverts printing, so two integers print alike only if they are equal. -/

namespace Loco2Mqtt.Decimal

/-- The decimal digits of `n`, with a minus sign in front when it is negative. -/
def print : ℤ → List Char
  | .ofNat n => Nat.toDigits 10 n
  | .negSucc n => '-' :: Nat.toDigits 10 (n + 1)

/-- The value of a list of digits. -/
def value (digits : List Char) : ℕ := Nat.ofDigitChars 10 digits 0

@[simp] theorem value_print (n : ℕ) : value (print n) = n := Nat.ofDigitChars_ten_toDigits

theorem print_isDigit (n : ℕ) {c : Char} (hc : c ∈ print n) : c.isDigit :=
  Nat.isDigit_of_mem_toDigits (by decide) (by decide) hc

theorem print_ofNat_ne_negSucc (m n : ℕ) : print (.ofNat m) ≠ print (.negSucc n) := by
  intro h
  have hminus : '-' ∈ print (.ofNat m) := by rw [h]; exact List.mem_cons_self
  exact absurd (print_isDigit m hminus) (by decide)

theorem print_injective {m n : ℤ} (h : print m = print n) : m = n := by
  rcases m with m | m <;> rcases n with n | n
  · have hv := congrArg value h
    rw [show Int.ofNat m = (m : ℤ) from rfl, show Int.ofNat n = (n : ℤ) from rfl, value_print,
      value_print] at hv
    rw [hv]
  · exact absurd h (print_ofNat_ne_negSucc m n)
  · exact absurd h.symm (print_ofNat_ne_negSucc n m)
  · have hd : Nat.toDigits 10 (m + 1) = Nat.toDigits 10 (n + 1) := List.tail_eq_of_cons_eq h
    have hv := congrArg value hd
    simp only [value, Nat.ofDigitChars_ten_toDigits, Nat.add_right_cancel_iff] at hv
    rw [hv]

end Loco2Mqtt.Decimal
