import Mathlib.Algebra.Group.Nat.Defs
import Mathlib.Data.List.TakeWhile
import Loco2Mqtt.Foundations.Decimal

/-! Strings of the C++ library and the functions on them that can go wrong: `c_str`, which
ends at the first NUL, and `std::stoul`, which throws. -/

namespace Loco2Mqtt

/-- A `std::string`: its bytes, each written as the character of the same code. -/
abbrev Text := List Char

/-- The white space of the C locale. -/
def isSpace (c : Char) : Bool :=
  c = ' ' || c = '\t' || c = '\n' || c = '\x0b' || c = '\x0c' || c = '\r'

/-! ### NUL-terminated copies -/

/-- What a reader of `c_str()` sees: everything before the first NUL. -/
def cStr (text : Text) : Text := text.takeWhile (· ≠ '\x00')

theorem cStr_eq_self_iff {text : Text} : cStr text = text ↔ '\x00' ∉ text := by
  rw [cStr, List.takeWhile_eq_self_iff]
  constructor
  · intro h hmem
    simpa using h _ hmem
  · intro h c hc
    simp only [ne_eq, decide_not, Bool.not_eq_true', decide_eq_false_iff_not]
    rintro rfl
    exact h hc

theorem nul_not_mem_cStr (text : Text) : '\x00' ∉ cStr text := by
  intro h
  simpa using List.mem_takeWhile_imp h

@[simp] theorem cStr_cStr (text : Text) : cStr (cStr text) = cStr text :=
  cStr_eq_self_iff.mpr (nul_not_mem_cStr text)

theorem ne_nil_of_cStr_ne_nil {text : Text} (h : cStr text ≠ []) : text ≠ [] := by
  rintro rfl
  exact h rfl

/-! ### Reading a number -/

/-- What `std::stoul` throws. -/
inductive StdException where
  | invalidArgument
  | outOfRange
  deriving DecidableEq, Repr

/-- The largest `unsigned long` of the ESP32. -/
def unsignedLongMax : ℕ := 2 ^ 32 - 1

/-- The sign `strtoul` skips, and whether it was a minus. -/
def signOf : Text → Bool × Text
  | '-' :: rest => (true, rest)
  | '+' :: rest => (false, rest)
  | text => (false, text)

/-- `std::stoul` in base 10. Whatever follows the digits is ignored. -/
def stoul (text : Text) : Except StdException ℕ :=
  let (negative, body) := signOf (text.dropWhile isSpace)
  let digits := body.takeWhile Char.isDigit
  if digits = [] then .error .invalidArgument
  else
    let value := Decimal.value digits
    if value > unsignedLongMax then .error .outOfRange
    else .ok (if negative then (2 ^ 32 - value) % 2 ^ 32 else value)

theorem not_isSpace_of_isDigit {c : Char} (h : c.isDigit) : isSpace c = false := by
  simp only [Char.isDigit, Bool.and_eq_true, decide_eq_true_eq] at h
  have hlow : '0'.toNat ≤ c.toNat := h.1
  simp only [isSpace, Bool.or_eq_false_iff, decide_eq_false_iff_not]
  refine ⟨⟨⟨⟨⟨?_, ?_⟩, ?_⟩, ?_⟩, ?_⟩, ?_⟩ <;> rintro rfl <;> revert hlow <;> decide

theorem signOf_of_isDigit {c : Char} (h : c.isDigit) (rest : Text) :
    signOf (c :: rest) = (false, c :: rest) := by
  unfold signOf
  split
  · rename_i heq
    obtain ⟨rfl, -⟩ := List.cons_eq_cons.mp heq
    exact absurd h (by decide)
  · rename_i heq
    obtain ⟨rfl, -⟩ := List.cons_eq_cons.mp heq
    exact absurd h (by decide)
  · rfl

/-- On digits alone it is their value, unless that is too large. -/
theorem stoul_of_digits {text : Text} (hne : text ≠ []) (hdigits : ∀ c ∈ text, c.isDigit) :
    stoul text = if Decimal.value text > unsignedLongMax then .error .outOfRange
      else .ok (Decimal.value text) := by
  cases text with
  | nil => exact absurd rfl hne
  | cons c rest =>
    have hc := hdigits c List.mem_cons_self
    have hskip : (c :: rest).dropWhile isSpace = c :: rest :=
      List.dropWhile_cons_of_neg (by simp [not_isSpace_of_isDigit hc])
    have htake : (c :: rest).takeWhile Char.isDigit = c :: rest :=
      List.takeWhile_eq_self_iff.mpr hdigits
    unfold stoul
    rw [hskip, signOf_of_isDigit hc]
    simp [htake]

end Loco2Mqtt
