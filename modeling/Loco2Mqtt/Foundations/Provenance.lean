import Mathlib.Data.List.Forall2

/-! Values read from the entries of a list by a partial function, and where they come from.
The values come in order from entries of their own, each related to its value, exactly when
every entry that gives a value is related to it. One entry that is not cannot be made good by
another, since no entry is left over. -/

namespace Loco2Mqtt.Provenance

variable {α β : Type*} {f : α → Option β} {R : β → α → Prop}

theorem length_le_of_sublistForall₂ (hR : ∀ b a, R b a → f a ≠ none) {values : List β}
    {entries : List α} (h : List.SublistForall₂ R values entries) :
    values.length ≤ (entries.filterMap f).length := by
  induction h with
  | nil => exact Nat.zero_le _
  | @cons b a values entries hba _ ih =>
    obtain ⟨c, hc⟩ := Option.ne_none_iff_exists'.mp (hR b a hba)
    rw [List.filterMap_cons_some hc, List.length_cons, List.length_cons]
    exact Nat.succ_le_succ ih
  | @cons_right a values entries _ ih =>
    refine Nat.le_trans ih (List.Sublist.length_le ?_)
    exact (List.sublist_cons_self a entries).filterMap f

theorem sublistForall₂_filterMap_iff (hR : ∀ b a, R b a → f a ≠ none) (entries : List α) :
    List.SublistForall₂ R (entries.filterMap f) entries ↔ ∀ a ∈ entries, ∀ b ∈ f a, R b a := by
  induction entries with
  | nil => exact iff_of_true List.SublistForall₂.nil (fun _ ha => absurd ha List.not_mem_nil)
  | cons a rest ih =>
    rw [List.forall_mem_cons, ← ih]
    cases hfa : f a with
    | none =>
      rw [List.filterMap_cons_none hfa]
      constructor
      · intro h
        refine ⟨fun b hb => absurd hb (Option.not_mem_none b), ?_⟩
        generalize rest.filterMap f = values at h ⊢
        cases h with
        | nil => exact .nil
        | cons hba _ => exact absurd hfa (hR _ _ hba)
        | cons_right h => exact h
      · exact fun h => h.2.cons_right
    | some b =>
      rw [List.filterMap_cons_some hfa]
      constructor
      · intro h
        cases h with
        | cons hba hrest => exact ⟨fun c hc => Option.some.inj hc ▸ hba, hrest⟩
        | cons_right h =>
          -- the entries left are one too few
          have hlen := length_le_of_sublistForall₂ hR h
          exact absurd hlen (Nat.not_succ_le_self _)
      · exact fun h => .cons (h.1 b rfl) h.2

theorem sublistForall₂_of_isPrefix {front values : List β} {entries : List α}
    (h : List.SublistForall₂ R values entries) (hfront : front.IsPrefix values) :
    List.SublistForall₂ R front entries := by
  obtain ⟨sources, hsources, hsub⟩ := List.sublistForall₂_iff.mp h
  rw [List.prefix_iff_eq_take.mp hfront]
  exact List.sublistForall₂_iff.mpr
    ⟨_, List.forall₂_take _ hsources, (List.take_sublist _ _).trans hsub⟩

end Loco2Mqtt.Provenance
