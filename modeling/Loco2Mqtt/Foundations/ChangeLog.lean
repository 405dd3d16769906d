import Mathlib.Data.List.Destutter

/-! Logs of reports about many keys: the values reported for one key, the latest of them,
and the reports that are changes, that is, differ from the latest value before them. The
changes of a key are its values with consecutive repeats removed, and they have the same
latest value. -/

namespace Loco2Mqtt.ChangeLog

/-- `P` holds of every entry of a log together with the entries before it. -/
def AtEachEntry {α : Type*} (P : List α → α → Prop) (log : List α) : Prop :=
  ∀ front x back, log = front ++ x :: back → P front x

theorem atEachEntry_nil {α : Type*} (P : List α → α → Prop) : AtEachEntry P [] :=
  fun front x back h => absurd h.symm (by simp)

theorem atEachEntry_concat {α : Type*} {P : List α → α → Prop} {log : List α} {x : α} :
    AtEachEntry P (log ++ [x]) ↔ AtEachEntry P log ∧ P log x := by
  constructor
  · intro h
    refine ⟨fun front y back heq => h front y (back ++ [x]) ?_, h log x [] rfl⟩
    rw [heq, List.append_assoc, List.cons_append]
  · rintro ⟨hlog, hx⟩ front y back heq
    -- the split is either at the last entry or before it
    rcases List.eq_nil_or_concat back with rfl | ⟨rest, z, rfl⟩
    · obtain ⟨rfl, hxy⟩ := List.append_inj' heq rfl
      rwa [← List.head_eq_of_cons_eq hxy]
    · have hlast : log ++ [x] = (front ++ y :: rest) ++ [z] := by simpa using heq
      exact hlog front y rest (List.append_inj' hlast rfl).1

variable {K V : Type*} [DecidableEq K]

/-- The values reported for `k`, oldest first. -/
def values (log : List (K × V)) (k : K) : List V :=
  log.filterMap (fun r => if r.1 = k then some r.2 else none)

/-- The latest value reported for `k`. -/
def latest (log : List (K × V)) (k : K) : Option V := (values log k).getLast?

@[simp] theorem values_nil (k : K) : values ([] : List (K × V)) k = [] := rfl

@[simp] theorem latest_nil (k : K) : latest ([] : List (K × V)) k = none := rfl

theorem values_append (log more : List (K × V)) (k : K) :
    values (log ++ more) k = values log k ++ values more k :=
  List.filterMap_append

@[simp] theorem values_singleton_self (k : K) (v : V) : values [(k, v)] k = [v] := by
  simp [values]

theorem values_singleton_of_ne {j k : K} (h : j ≠ k) (v : V) : values [(j, v)] k = [] := by
  simp [values, h]

theorem values_concat (log : List (K × V)) (j k : K) (v : V) :
    values (log ++ [(j, v)]) k = if j = k then values log k ++ [v] else values log k := by
  rw [values_append]
  by_cases h : j = k
  · subst h; simp
  · rw [values_singleton_of_ne h, if_neg h, List.append_nil]

theorem latest_append (log more : List (K × V)) (k : K) :
    latest (log ++ more) k = (latest more k).or (latest log k) := by
  rw [latest, values_append, List.getLast?_append]; rfl

theorem latest_concat (log : List (K × V)) (j k : K) (v : V) :
    latest (log ++ [(j, v)]) k = if j = k then some v else latest log k := by
  rw [latest, values_concat]
  split_ifs <;> simp [latest]

theorem mem_of_latest {log : List (K × V)} {k : K} {v : V} (h : latest log k = some v) :
    (k, v) ∈ log := by
  have hv : v ∈ values log k := List.mem_of_getLast? h
  obtain ⟨⟨j, w⟩, hr, hw⟩ := List.mem_filterMap.mp hv
  simp only [Option.ite_none_right_eq_some, Option.some.injEq] at hw
  obtain ⟨rfl, rfl⟩ := hw
  exact hr

theorem latest_eq_none_iff {log : List (K × V)} {k : K} :
    latest log k = none ↔ ∀ r ∈ log, r.1 ≠ k := by
  simp [latest, values]

/-- A key with a single value anywhere in the log has it as its latest. -/
theorem latest_eq_some_of_unique {log : List (K × V)} {k : K} {v : V} (hmem : (k, v) ∈ log)
    (huniq : ∀ w, (k, w) ∈ log → w = v) : latest log k = some v := by
  rcases h : latest log k with _ | w
  · exact absurd rfl (latest_eq_none_iff.mp h _ hmem)
  · rw [huniq w (mem_of_latest h)]

variable [DecidableEq V]

/-- The reports that differ from the latest value before them. -/
def changesFrom (seen : K → Option V) : List (K × V) → List (K × V)
  | [] => []
  | r :: rest =>
    if seen r.1 = some r.2 then changesFrom seen rest
    else r :: changesFrom (Function.update seen r.1 (some r.2)) rest

def changes (log : List (K × V)) : List (K × V) := changesFrom (fun _ => none) log

/-- What has been seen after a log, starting from `seen`. -/
def seenAfter (seen : K → Option V) (log : List (K × V)) (k : K) : Option V :=
  (latest log k).or (seen k)

omit [DecidableEq V] in
theorem seenAfter_cons (seen : K → Option V) (r : K × V) (rest : List (K × V)) :
    seenAfter (Function.update seen r.1 (some r.2)) rest = seenAfter seen (r :: rest) := by
  funext k
  have h : latest (r :: rest) k = (latest rest k).or (latest [r] k) := latest_append [r] rest k
  rw [seenAfter, seenAfter, h, Option.or_assoc]
  congr 1
  by_cases hk : r.1 = k
  · subst hk; simp [latest, values]
  · rw [Function.update_of_ne (Ne.symm hk)]; simp [latest, values, hk]

omit [DecidableEq V] in
theorem seenAfter_none (log : List (K × V)) : seenAfter (fun _ => none) log = latest log := by
  funext k
  exact Option.or_none

omit [DecidableEq V] in
theorem seenAfter_latest (log more : List (K × V)) :
    seenAfter (latest log) more = latest (log ++ more) := by
  funext k
  rw [latest_append, seenAfter]

omit [DecidableEq V] in
theorem seenAfter_ne_none {seen : K → Option V} {log : List (K × V)} {k : K} (h : seen k ≠ none) :
    seenAfter seen log k ≠ none := by
  rw [seenAfter]
  cases latest log k <;> simp [h]

theorem changesFrom_subset (seen : K → Option V) (log : List (K × V)) :
    changesFrom seen log ⊆ log := by
  induction log generalizing seen with
  | nil => exact List.Subset.refl _
  | cons r rest ih =>
    simp only [changesFrom]
    split_ifs
    · exact List.subset_cons_of_subset r (ih seen)
    · exact List.cons_subset_cons r (ih _)

/-- The changes leave the same values seen as the whole log. -/
theorem seenAfter_changesFrom (seen : K → Option V) (log : List (K × V)) :
    seenAfter seen (changesFrom seen log) = seenAfter seen log := by
  induction log generalizing seen with
  | nil => rfl
  | cons r rest ih =>
    rw [changesFrom, ← seenAfter_cons]
    split_ifs with h
    · have hu : Function.update seen r.1 (some r.2) = seen := by rw [← h, Function.update_eq_self]
      rw [hu, ih]
    · rw [← seenAfter_cons, ih]

theorem changesFrom_append (seen : K → Option V) (log more : List (K × V)) :
    changesFrom seen (log ++ more) =
      changesFrom seen log ++ changesFrom (seenAfter seen log) more := by
  induction log generalizing seen with
  | nil => rfl
  | cons r rest ih =>
    simp only [List.cons_append, changesFrom]
    split_ifs with h
    · have hu : Function.update seen r.1 (some r.2) = seen := by rw [← h, Function.update_eq_self]
      rw [ih, ← seenAfter_cons, hu]
    · rw [ih, seenAfter_cons, List.cons_append]

theorem changes_append (log more : List (K × V)) :
    changes (log ++ more) = changes log ++ changesFrom (latest log) more := by
  rw [changes, changesFrom_append, seenAfter_none, changes]

theorem changes_concat (log : List (K × V)) (k : K) (v : V) :
    changes (log ++ [(k, v)]) = changes log ++ if latest log k = some v then [] else [(k, v)] := by
  rw [changes_append]
  rfl

theorem changes_append_of_no_change (log : List (K × V)) {k : K} {v : V}
    (h : latest log k = some v) : changes (log ++ [(k, v)]) = changes log := by
  rw [changes_concat, if_pos h, List.append_nil]

theorem destutter'_concat (a v : V) (l : List V) :
    (l ++ [v]).destutter' (· ≠ ·) a =
      l.destutter' (· ≠ ·) a ++ if (a :: l).getLast? = some v then [] else [v] := by
  induction l generalizing a with
  | nil => by_cases h : a = v <;> simp [List.destutter', h]
  | cons b l ih =>
    by_cases h : a = b
    · subst h
      rw [List.cons_append, List.destutter'_cons_neg _ (by simp),
        List.destutter'_cons_neg _ (by simp),
        ih, List.getLast?_cons_cons]
    · rw [List.cons_append, List.destutter'_cons_pos _ h, List.destutter'_cons_pos _ h, ih,
        List.getLast?_cons_cons, List.cons_append]

theorem destutter_concat (l : List V) (v : V) :
    (l ++ [v]).destutter (· ≠ ·) =
      l.destutter (· ≠ ·) ++ if l.getLast? = some v then [] else [v] := by
  cases l with
  | nil => simp
  | cons a l => exact destutter'_concat a v l

/-- The changes of a key are its values with consecutive repeats removed. -/
theorem values_changes (log : List (K × V)) (k : K) :
    values (changes log) k = (values log k).destutter (· ≠ ·) := by
  induction log using List.reverseRecOn with
  | nil => rfl
  | append_singleton log r ih =>
    obtain ⟨j, v⟩ := r
    rw [changes_concat, values_append, ih, values_concat]
    by_cases hj : j = k
    · subst hj
      rw [if_pos rfl, destutter_concat, ← latest]
      split_ifs <;> simp
    · rw [if_neg hj]
      split_ifs
      · simp
      · rw [values_singleton_of_ne hj, List.append_nil]

/-- Dropping the repeats does not change the latest value of any key. -/
theorem latest_changes (log : List (K × V)) (k : K) : latest (changes log) k = latest log k := by
  rw [← seenAfter_none, ← seenAfter_none, changes, seenAfter_changesFrom]

end Loco2Mqtt.ChangeLog
