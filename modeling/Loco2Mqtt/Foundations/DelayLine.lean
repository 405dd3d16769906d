import Mathlib.Order.Lattice
import Mathlib.Data.List.Basic

/-! A delay line: a list of entries, each with a due time, from which a scan at time
`now` takes out every entry that is due and leaves the others where they are. Nothing
is lost or duplicated. If the due times are ascending along the list the scan takes a
prefix, so entries leave in the order in which they were put in. -/

namespace Loco2Mqtt.DelayLine

variable {ε τ : Type*} [LinearOrder τ] (due : ε → τ)

/-- The entries a scan at time `now` takes out. -/
def released (now : τ) (line : List ε) : List ε := line.filter (fun e => due e ≤ now)

/-- The entries a scan at time `now` leaves. -/
def kept (now : τ) (line : List ε) : List ε := line.filter (fun e => now < due e)

/-- Due times ascend along the line. -/
def Ascending (line : List ε) : Prop := line.Pairwise (fun a b => due a ≤ due b)

variable {due}

theorem kept_sublist (now : τ) (line : List ε) : (kept due now line).Sublist line :=
  List.filter_sublist

theorem mem_released {now : τ} {line : List ε} {e : ε} :
    e ∈ released due now line ↔ e ∈ line ∧ due e ≤ now := by
  simp [released]

theorem released_cons_of_due {now : τ} {e : ε} (line : List ε) (h : due e ≤ now) :
    released due now (e :: line) = e :: released due now line := by
  simp [released, h]

theorem kept_cons_of_due {now : τ} {e : ε} (line : List ε) (h : due e ≤ now) :
    kept due now (e :: line) = kept due now line := by
  simp [kept, h]

theorem kept_cons_of_not_due {now : τ} {e : ε} (line : List ε) (h : now < due e) :
    kept due now (e :: line) = e :: kept due now line := by
  simp [kept, h]

theorem released_cons_of_not_due {now : τ} {e : ε} (line : List ε) (h : now < due e) :
    released due now (e :: line) = released due now line := by
  simp [released, h]

/-- A scan loses and duplicates nothing. -/
theorem released_append_kept_perm (now : τ) (line : List ε) :
    (released due now line ++ kept due now line).Perm line := by
  have hkept : kept due now line = line.filter (fun e => !decide (due e ≤ now)) := by
    simp only [kept, ← not_le, decide_not]
  rw [hkept]
  exact List.filter_append_perm _ line

/-- Selecting a class of entries commutes with the scan. -/
theorem filter_released (p : ε → Bool) (now : τ) (line : List ε) :
    (released due now line).filter p = released due now (line.filter p) := by
  simp only [released, List.filter_filter, Bool.and_comm]

theorem filter_kept (p : ε → Bool) (now : τ) (line : List ε) :
    (kept due now line).filter p = kept due now (line.filter p) := by
  simp only [kept, List.filter_filter, Bool.and_comm]

namespace Ascending

variable {line : List ε}

theorem kept (h : Ascending due line) (now : τ) : Ascending due (kept due now line) :=
  List.Pairwise.sublist (kept_sublist now line) h

/-- Appending a line whose entries are all due later keeps the order. -/
theorem append {late : List ε} (h : Ascending due line) (hl : Ascending due late)
    (hle : ∀ e ∈ line, ∀ f ∈ late, due e ≤ due f) : Ascending due (line ++ late) :=
  List.pairwise_append.mpr ⟨h, hl, hle⟩

/-- With ascending due times the scan takes a prefix of the line. -/
theorem released_append_kept (h : Ascending due line) (now : τ) :
    released due now line ++ DelayLine.kept due now line = line := by
  induction line with
  | nil => rfl
  | cons e rest ih =>
    obtain ⟨he, hrest⟩ := List.pairwise_cons.mp h
    rcases le_or_gt (due e) now with hdue | hdue
    · rw [released_cons_of_due rest hdue, kept_cons_of_due rest hdue, List.cons_append, ih hrest]
    · -- the head is not due, so nothing behind it is
      have hnone : released due now rest = [] := by
        simp only [released, List.filter_eq_nil_iff, decide_eq_true_eq, not_le]
        exact fun f hf => lt_of_lt_of_le hdue (he f hf)
      have hall : DelayLine.kept due now rest = rest := by
        simp only [DelayLine.kept, List.filter_eq_self, decide_eq_true_eq]
        exact fun f hf => lt_of_lt_of_le hdue (he f hf)
      rw [released_cons_of_not_due rest hdue, kept_cons_of_not_due rest hdue, hnone, hall,
        List.nil_append]

end Ascending

end Loco2Mqtt.DelayLine
