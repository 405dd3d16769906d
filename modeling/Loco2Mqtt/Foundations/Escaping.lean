import Mathlib.Data.List.Basic
import Mathlib.Data.List.Infix
import Mathlib.Data.Nat.Notation

/-! Escaping symbols by codes. Every code begins with an escape symbol, which has a code
itself and occurs nowhere else in a code, and no code is the beginning of another. Then the
escape symbol only occurs where a code begins, and one pass from left to right that replaces
every code by its symbol gives the text back. -/

namespace Loco2Mqtt.Escaping

variable {α : Type*} [DecidableEq α]

/-- What is written for a symbol: its code if it has one, and itself otherwise. -/
def codeOf (table : List (α × List α)) (c : α) : List α :=
  match table.find? (fun entry => entry.1 = c) with
  | some entry => entry.2
  | none => [c]

def encode (table : List (α × List α)) (text : List α) : List α := text.flatMap (codeOf table)

/-- The pass, where the next `skip` symbols belong to a code that has been replaced. -/
def decodeFrom (table : List (α × List α)) : ℕ → List α → List α
  | _, [] => []
  | skip + 1, _ :: rest => decodeFrom table skip rest
  | 0, c :: rest =>
    match table.find? (fun entry => entry.2.isPrefixOf (c :: rest)) with
    | some entry => entry.1 :: decodeFrom table (entry.2.length - 1) rest
    | none => c :: decodeFrom table 0 rest

def decode (table : List (α × List α)) (text : List α) : List α := decodeFrom table 0 text

structure Readable (escape : α) (table : List (α × List α)) : Prop where
  escaped : ∃ entry ∈ table, entry.1 = escape
  begins : ∀ entry ∈ table, ∃ tail, entry.2 = escape :: tail ∧ escape ∉ tail
  prefixFree : ∀ entry ∈ table, ∀ other ∈ table, entry.2.IsPrefix other.2 → entry = other

variable {escape : α} {table : List (α × List α)}

/-! ### What is written -/

theorem encode_cons (table : List (α × List α)) (c : α) (rest : List α) :
    encode table (c :: rest) = codeOf table c ++ encode table rest := List.flatMap_cons

theorem codeOf_cases (table : List (α × List α)) (c : α) :
    (∃ code, (c, code) ∈ table ∧ codeOf table c = code) ∨
      (∀ entry ∈ table, entry.1 ≠ c) ∧ codeOf table c = [c] := by
  rw [codeOf]
  cases hfind : table.find? (fun entry => entry.1 = c) with
  | none =>
    refine Or.inr ⟨fun entry hentry => ?_, rfl⟩
    simpa using List.find?_eq_none.mp hfind entry hentry
  | some entry =>
    obtain ⟨symbol, code⟩ := entry
    obtain rfl : symbol = c := by simpa using List.find?_some hfind
    exact Or.inl ⟨code, List.mem_of_find?_eq_some hfind, rfl⟩

/-- A symbol that has a code and occurs in none is not written. -/
theorem not_mem_encode {c : α} (hcoded : ∃ entry ∈ table, entry.1 = c)
    (hcodes : ∀ entry ∈ table, c ∉ entry.2) (text : List α) : c ∉ encode table text := by
  rw [encode, List.mem_flatMap]
  rintro ⟨d, -, hmem⟩
  rcases codeOf_cases table d with ⟨code, hcode, heq⟩ | ⟨hplain, heq⟩
  · exact hcodes _ hcode (heq ▸ hmem)
  · obtain ⟨entry, hentry, rfl⟩ := hcoded
    rw [heq, List.mem_singleton] at hmem
    exact hplain entry hentry hmem

theorem escape_in_codeOf (htable : Readable escape table) {c : α} {before after : List α}
    (h : codeOf table c = before ++ escape :: after) :
    ∃ entry ∈ table, entry.2 = escape :: after := by
  rcases codeOf_cases table c with ⟨code, hentry, hcode⟩ | ⟨hplain, hcode⟩
  · obtain ⟨tail, hbegins, htail⟩ := htable.begins _ hentry
    refine ⟨_, hentry, ?_⟩
    simp only at hbegins ⊢
    rw [hcode, hbegins] at h
    rw [hbegins]
    cases before with
    | nil => exact h
    | cons d before =>
      -- the tail of a code has no escape symbol
      rw [(List.cons_eq_cons.mp h).2] at htail
      exact absurd (List.mem_append_right _ List.mem_cons_self) htail
  · obtain ⟨entry, hentry, hsymbol⟩ := htable.escaped
    have hmem : escape ∈ [c] := by
      rw [← hcode, h]
      exact List.mem_append_right _ List.mem_cons_self
    exact absurd (hsymbol.trans (List.mem_singleton.mp hmem)) (hplain entry hentry)

/-- The escape symbol is only written where a code begins. -/
theorem code_of_escape (htable : Readable escape table) {text before after : List α}
    (h : encode table text = before ++ escape :: after) :
    ∃ entry ∈ table, entry.2.IsPrefix (escape :: after) := by
  induction text generalizing before with
  | nil => simp [encode] at h
  | cons c rest ih =>
    rw [encode_cons, List.append_eq_append_iff] at h
    rcases h with ⟨more, -, hrest⟩ | ⟨more, hcode, hafter⟩
    · exact ih hrest
    · cases more with
      | nil =>
        have hrest : encode table rest = [] ++ escape :: after := hafter.symm
        exact ih hrest
      | cons d more =>
        obtain ⟨rfl, rfl⟩ := List.cons_eq_cons.mp hafter
        obtain ⟨entry, hentry, heq⟩ := escape_in_codeOf htable hcode
        refine ⟨entry, hentry, ?_⟩
        rw [heq]
        exact List.prefix_append (escape :: more) _

/-! ### Reading it back -/

omit [DecidableEq α] in
theorem find?_eq_some_of_unique {p : α × List α → Bool} {entry : α × List α}
    (hmem : entry ∈ table) (hp : p entry) (hunique : ∀ other ∈ table, p other → other = entry) :
    table.find? p = some entry := by
  cases hfind : table.find? p with
  | none => exact absurd hp (List.find?_eq_none.mp hfind entry hmem)
  | some other =>
    rw [hunique other (List.mem_of_find?_eq_some hfind) (List.find?_some hfind)]

theorem decodeFrom_length (skipped rest : List α) :
    decodeFrom table skipped.length (skipped ++ rest) = decodeFrom table 0 rest := by
  induction skipped with
  | nil => rfl
  | cons c skipped ih => rw [List.length_cons, List.cons_append, decodeFrom, ih]

theorem decode_code (htable : Readable escape table) {entry : α × List α} (hentry : entry ∈ table)
    (rest : List α) : decode table (entry.2 ++ rest) = entry.1 :: decode table rest := by
  obtain ⟨tail, hcode, -⟩ := htable.begins entry hentry
  have hfind : table.find? (fun other => other.2.isPrefixOf (entry.2 ++ rest)) = some entry := by
    refine find?_eq_some_of_unique hentry (by simp) (fun other hother hprefix => ?_)
    rw [List.isPrefixOf_iff_prefix] at hprefix
    -- two codes that begin the same text begin one another
    rcases List.prefix_or_prefix_of_prefix hprefix (List.prefix_append _ _) with h | h
    · exact htable.prefixFree other hother entry hentry h
    · exact (htable.prefixFree entry hentry other hother h).symm
  rw [hcode] at hfind ⊢
  rw [List.cons_append] at hfind ⊢
  rw [decode, decodeFrom, hfind]
  simp only [hcode, List.length_cons, Nat.add_sub_cancel, decodeFrom_length, decode]

theorem decode_plain (htable : Readable escape table) {c : α} (hc : c ≠ escape)
    (rest : List α) : decode table (c :: rest) = c :: decode table rest := by
  have hfind : table.find? (fun entry => entry.2.isPrefixOf (c :: rest)) = none := by
    rw [List.find?_eq_none]
    intro entry hentry
    obtain ⟨tail, hcode, -⟩ := htable.begins entry hentry
    rw [hcode, List.isPrefixOf_iff_prefix, List.cons_prefix_cons]
    exact fun h => hc h.1.symm
  rw [decode, decodeFrom, hfind, decode]

/-- Every text is read back from what is written for it. -/
theorem decode_encode (htable : Readable escape table) (text : List α) :
    decode table (encode table text) = text := by
  induction text with
  | nil => rfl
  | cons c rest ih =>
    rw [encode_cons]
    rcases codeOf_cases table c with ⟨code, hentry, heq⟩ | ⟨hplain, heq⟩
    · rw [heq, decode_code htable hentry, ih]
    · have hc : c ≠ escape := by
        rintro rfl
        obtain ⟨entry, hentry, hsymbol⟩ := htable.escaped
        exact hplain entry hentry hsymbol
      rw [heq, List.singleton_append, decode_plain htable hc, ih]

end Loco2Mqtt.Escaping
