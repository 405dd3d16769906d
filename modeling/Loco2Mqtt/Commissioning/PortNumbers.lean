import Loco2Mqtt.Adapters.Commissioning

/-! Which texts are port numbers, and when reading one throws. The digit check bounds the
alphabet and not the length, and `stoul` is called before the range is tested, so a text of
digits whose value does not fit into an `unsigned long` ends in an exception at either front
door. Every other text is read as it should be. -/

namespace Loco2Mqtt.PortNumbers

/-- The text is the number `n` in ASCII digits, and `n` is a port. -/
def IsPort (text : Text) (n : ℕ) : Prop :=
  text ≠ [] ∧ (∀ c ∈ text, '0' ≤ c ∧ c ≤ '9') ∧ Decimal.value text = n ∧ 1 ≤ n ∧ n ≤ 65535

/-- The parser returns the ports, and `nullopt` for every other text. -/
def ReadAsPort (text : Text) : Prop :=
  ∃ result, parseNetworkPort text = .ok result ∧
    ∀ n, result.map UInt16.toNat = some n ↔ IsPort text n

/-- Digits alone, of a value past the largest `unsigned long`. -/
def Overflows (text : Text) : Prop := isAllDigits text ∧ unsignedLongMax < Decimal.value text

theorem isDigit_iff {c : Char} : c.isDigit ↔ '0' ≤ c ∧ c ≤ '9' := by
  simp only [Char.isDigit, Bool.and_eq_true, decide_eq_true_eq]
  exact Iff.rfl

theorem isPort_iff {text : Text} {n : ℕ} :
    IsPort text n ↔ isAllDigits text ∧ Decimal.value text = n ∧ 1 ≤ n ∧ n ≤ 65535 := by
  simp only [IsPort, isAllDigits_iff, isDigit_iff, and_assoc]

theorem parseNetworkPort_overflows {text : Text} (h : Overflows text) :
    parseNetworkPort text = .error .outOfRange := by
  rw [parseNetworkPort_of_digits h.1, if_pos h.2]

theorem readAsPort_of_not_overflows {text : Text} (h : ¬ Overflows text) : ReadAsPort text := by
  by_cases hdigits : isAllDigits text
  · have hfits : ¬ unsignedLongMax < Decimal.value text := fun hlarge => h ⟨hdigits, hlarge⟩
    refine ⟨_, by rw [parseNetworkPort_of_digits hdigits, if_neg hfits], fun n => ?_⟩
    rw [isPort_iff, and_iff_right hdigits]
    split_ifs with hrange
    · constructor
      · intro hnone
        cases hnone
      · rintro ⟨rfl, hlow, hhigh⟩
        omega
    · rw [Option.map_some, Option.some.injEq, UInt16.toNat_ofNat',
        Nat.mod_eq_of_lt (by omega)]
      constructor
      · rintro rfl
        exact ⟨rfl, by omega, by omega⟩
      · exact fun hn => hn.1
  · refine ⟨none, parseNetworkPort_of_not_digits hdigits, fun n => ?_⟩
    rw [isPort_iff]
    simp [hdigits]

theorem readAsPort_iff {text : Text} : ReadAsPort text ↔ ¬ Overflows text := by
  constructor
  · rintro ⟨result, hresult, -⟩ hover
    rw [parseNetworkPort_overflows hover] at hresult
    cases hresult
  · exact readAsPort_of_not_overflows

theorem parseNetworkPort_returns_iff {text : Text} :
    (∃ result, parseNetworkPort text = .ok result) ↔ ¬ Overflows text := by
  constructor
  · rintro ⟨result, hresult⟩ hover
    rw [parseNetworkPort_overflows hover] at hresult
    cases hresult
  · intro h
    obtain ⟨result, hresult, -⟩ := readAsPort_of_not_overflows h
    exact ⟨result, hresult⟩

/-- Only the port command can throw. -/
theorem parseCommandLine_returns_iff {line : Text} :
    (∃ command, parseCommandLine line = .ok command) ↔
      ¬ (verbOf line = "set-jmri-port".toList ∧ Overflows (argumentOf line)) := by
  rw [not_and, ← parseNetworkPort_returns_iff]
  by_cases hverb : verbOf line = "set-jmri-port".toList
  · have hparse : parseCommandLine line = (parseNetworkPort (argumentOf line)).map fun port =>
        if port.isSome then ⟨.setJmriPort, argumentOf line⟩ else ⟨.unknown, line⟩ := by
      simp [parseCommandLine, hverb]
    rw [hparse, forall_prop_of_true hverb]
    rcases parseNetworkPort (argumentOf line) with error | port <;> simp [Except.map]
  · refine iff_of_true ?_ (fun h => absurd h hverb)
    unfold parseCommandLine
    simp only [if_neg hverb]
    split_ifs <;> exact ⟨_, rfl⟩

theorem wouldAccept_returns_iff {ssid password jmriHost jmriPort : Text} :
    (∃ accepted, WebFormCommissioningAdapter.wouldAccept ssid password jmriHost jmriPort =
      .ok accepted) ↔ ¬ Overflows jmriPort := by
  rw [← parseNetworkPort_returns_iff, WebFormCommissioningAdapter.wouldAccept]
  rcases parseNetworkPort jmriPort with error | _ | port <;> simp [Except.map]

/-- A text is read as it should be, and a console line or a form without an exception, exactly
when the digits it brings as a port do not overflow. -/
theorem port_parsing_iff (text line ssid password jmriHost jmriPort : Text) :
    (ReadAsPort text ↔ ¬ Overflows text) ∧
      ((∃ command, parseCommandLine line = .ok command) ↔
        ¬ (verbOf line = "set-jmri-port".toList ∧ Overflows (argumentOf line))) ∧
      ((∃ accepted, WebFormCommissioningAdapter.wouldAccept ssid password jmriHost jmriPort =
        .ok accepted) ↔ ¬ Overflows jmriPort) :=
  ⟨readAsPort_iff, parseCommandLine_returns_iff, wouldAccept_returns_iff⟩

/-- One more than the largest `unsigned long`, at the parser and at both front doors. -/
theorem large_port_throws :
    ¬ ReadAsPort "4294967296".toList ∧
      parseNetworkPort "4294967296".toList = .error .outOfRange ∧
      "set-jmri-port 4294967296".toList.length ≤ SerialCommissioningAdapter.kMaxLineLength ∧
      parseCommandLine "set-jmri-port 4294967296".toList = .error .outOfRange ∧
      WebFormCommissioningAdapter.wouldAccept "home".toList "secret".toList "10.0.0.2".toList
        "4294967296".toList = .error .outOfRange := by
  have hover : Overflows "4294967296".toList := ⟨by decide, by decide⟩
  refine ⟨fun h => readAsPort_iff.mp h hover, parseNetworkPort_overflows hover, by decide, ?_, ?_⟩
  · decide
  · rw [WebFormCommissioningAdapter.wouldAccept, parseNetworkPort_overflows hover]
    rfl

end Loco2Mqtt.PortNumbers
