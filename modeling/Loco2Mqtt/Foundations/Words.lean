import Mathlib.Data.List.Basic

/-! The words of a text: its longest runs without separators. A splitter reads the text once;
the grammar says which texts spell a list of words, and the splitter finds exactly the words
that are spelled. -/

namespace Loco2Mqtt.Words

variable {α : Type*} (isSep : α → Bool)

/-- The words of a text, where `current` of the first word has already been read. -/
def wordsFrom (current : List α) : List α → List (List α)
  | [] => if current.isEmpty then [] else [current]
  | c :: rest =>
    if isSep c then
      if current.isEmpty then wordsFrom [] rest else current :: wordsFrom [] rest
    else wordsFrom (current ++ [c]) rest

def words (text : List α) : List (List α) := wordsFrom isSep [] text

variable {isSep}

theorem wordsFrom_append {word : List α} (h : ∀ c ∈ word, ¬ isSep c) (current rest : List α) :
    wordsFrom isSep current (word ++ rest) = wordsFrom isSep (current ++ word) rest := by
  induction word generalizing current with
  | nil => simp
  | cons c word ih =>
    rw [List.cons_append, wordsFrom, if_neg (h c List.mem_cons_self),
      ih (fun d hd => h d (List.mem_cons_of_mem _ hd)), List.append_assoc, List.singleton_append]

theorem words_singleton {word : List α} (h : ∀ c ∈ word, ¬ isSep c) (hne : word ≠ []) :
    words isSep word = [word] := by
  have hw := wordsFrom_append h [] []
  rw [List.append_nil, List.nil_append] at hw
  rw [words, hw, wordsFrom, if_neg (by simpa using hne)]

theorem words_append_sep {word : List α} (h : ∀ c ∈ word, ¬ isSep c) (hne : word ≠ []) {s : α}
    (hs : isSep s) (rest : List α) :
    words isSep (word ++ s :: rest) = word :: words isSep rest := by
  rw [words, wordsFrom_append h, List.nil_append, wordsFrom, if_pos hs, if_neg (by simpa using hne),
    words]

theorem words_cons_sep {s : α} (hs : isSep s) (rest : List α) :
    words isSep (s :: rest) = words isSep rest := by
  rw [words, wordsFrom, if_pos hs, if_pos List.isEmpty_nil, words]

theorem wordsFrom_concat_sep {s : α} (hs : isSep s) (current text : List α) :
    wordsFrom isSep current (text ++ [s]) = wordsFrom isSep current text := by
  induction text generalizing current with
  | nil => simp [wordsFrom, hs]
  | cons c rest ih => simp only [List.cons_append, wordsFrom, ih]

/-- A separator at the end changes nothing. -/
theorem words_concat_sep {s : α} (hs : isSep s) (text : List α) :
    words isSep (text ++ [s]) = words isSep text :=
  wordsFrom_concat_sep hs [] text

theorem words_append_gap {gap : List α} (h : ∀ c ∈ gap, isSep c) (rest : List α) :
    words isSep (gap ++ rest) = words isSep rest := by
  induction gap with
  | nil => rfl
  | cons c gap ih =>
    rw [List.cons_append, words_cons_sep (h c List.mem_cons_self),
      ih (fun d hd => h d (List.mem_cons_of_mem _ hd))]

/-! ### The grammar -/

variable (isSep) in
/-- A text spells a list of words: separators come in any number in front of the first word
and after the last, and at least one stands between two words. -/
inductive Spells : List α → List (List α) → Prop
  | blank {gap : List α} : (∀ c ∈ gap, isSep c) → Spells gap []
  | last {gap word : List α} : (∀ c ∈ gap, isSep c) → word ≠ [] → (∀ c ∈ word, ¬ isSep c) →
      Spells (gap ++ word) [word]
  | cons {gap word : List α} {s : α} {rest : List α} {ws : List (List α)} :
      (∀ c ∈ gap, isSep c) → word ≠ [] → (∀ c ∈ word, ¬ isSep c) → isSep s → Spells rest ws →
        Spells (gap ++ (word ++ s :: rest)) (word :: ws)

theorem Spells.words_eq {text : List α} {ws : List (List α)} (h : Spells isSep text ws) :
    words isSep text = ws := by
  induction h with
  | blank hgap =>
    have hwords := words_append_gap hgap []
    rwa [List.append_nil] at hwords
  | last hgap hne hword => rw [words_append_gap hgap, words_singleton hword hne]
  | cons hgap hne hword hs _ ih =>
    rw [words_append_gap hgap, words_append_sep hword hne hs, ih]

/-- One more separator in front. -/
theorem Spells.cons_sep {text : List α} {ws : List (List α)} (h : Spells isSep text ws) {s : α}
    (hs : isSep s) : Spells isSep (s :: text) ws := by
  have hcons : ∀ {gap : List α}, (∀ c ∈ gap, isSep c) → ∀ c ∈ s :: gap, isSep c := by
    intro gap hgap c hc
    rcases List.mem_cons.mp hc with rfl | hc
    · exact hs
    · exact hgap c hc
  cases h with
  | blank hgap => exact .blank (hcons hgap)
  | last hgap hne hword => exact .last (hcons hgap) hne hword
  | cons hgap hne hword hsep hrest => exact .cons (hcons hgap) hne hword hsep hrest

theorem spells_wordsFrom (text : List α) {current : List α} (h : ∀ c ∈ current, ¬ isSep c) :
    Spells isSep (current ++ text) (wordsFrom isSep current text) := by
  have hnone : ∀ c ∈ ([] : List α), isSep c := fun _ hc => absurd hc List.not_mem_nil
  induction text generalizing current with
  | nil =>
    rw [List.append_nil, wordsFrom]
    split_ifs with hempty
    · rw [List.isEmpty_iff] at hempty
      subst hempty
      exact .blank hnone
    · have hlast := Spells.last hnone (fun hnil => hempty (List.isEmpty_iff.mpr hnil)) h
      rwa [List.nil_append] at hlast
  | cons c rest ih =>
    rw [wordsFrom]
    by_cases hc : isSep c
    · -- the word read so far, if any, ends here
      have hrest := ih (fun _ hmem => absurd hmem List.not_mem_nil)
      rw [List.nil_append] at hrest
      rw [if_pos hc]
      split_ifs with hempty
      · rw [List.isEmpty_iff] at hempty
        subst hempty
        exact hrest.cons_sep hc
      · have hcons :=
          Spells.cons hnone (fun hnil => hempty (List.isEmpty_iff.mpr hnil)) h hc hrest
        rwa [List.nil_append] at hcons
    · rw [if_neg hc, ← List.singleton_append, ← List.append_assoc]
      apply ih
      intro d hd
      rcases List.mem_append.mp hd with hd | hd
      · exact h d hd
      · rwa [List.mem_singleton.mp hd]

/-- The splitter finds exactly the words that the text spells. -/
theorem spells_iff {text : List α} {ws : List (List α)} :
    Spells isSep text ws ↔ words isSep text = ws := by
  constructor
  · exact Spells.words_eq
  · rintro rfl
    exact spells_wordsFrom text (fun _ hc => absurd hc List.not_mem_nil)

variable (isSep) in
/-- Every character separates words or stands in one. -/
theorem isSep_or_mem_words {text : List α} {c : α} (hc : c ∈ text) :
    isSep c ∨ ∃ word ∈ words isSep text, c ∈ word := by
  have hspells : Spells isSep text (words isSep text) := spells_iff.mpr rfl
  generalize words isSep text = ws at hspells
  induction hspells with
  | blank hgap => exact Or.inl (hgap c hc)
  | last hgap _ _ =>
    rcases List.mem_append.mp hc with hc | hc
    · exact Or.inl (hgap c hc)
    · exact Or.inr ⟨_, List.mem_cons_self, hc⟩
  | cons hgap _ _ hs _ ih =>
    rcases List.mem_append.mp hc with hc | hc
    · exact Or.inl (hgap c hc)
    rcases List.mem_append.mp hc with hc | hc
    · exact Or.inr ⟨_, List.mem_cons_self, hc⟩
    rcases List.mem_cons.mp hc with rfl | hc
    · exact Or.inl hs
    rcases ih hc with hsep | ⟨word, hword, hmem⟩
    · exact Or.inl hsep
    · exact Or.inr ⟨word, List.mem_cons_of_mem _ hword, hmem⟩

end Loco2Mqtt.Words
