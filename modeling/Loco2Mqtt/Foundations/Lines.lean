import Mathlib.Data.List.Basic
import Mathlib.Data.Nat.Notation

/-! Cutting a stream at a terminator. A cut is continued from the unterminated rest of what
came before, so it does not depend on how the stream is split into chunks. -/

namespace Loco2Mqtt.Lines

variable {α : Type*} [DecidableEq α] (t : α)

/-- The terminated segments of a stream and its unterminated rest, where `current` has come
before the stream. -/
def segmentsFrom (current : List α) : List α → List (List α) × List α
  | [] => ([], current)
  | c :: rest =>
    if c = t then
      let (segments, last) := segmentsFrom [] rest
      (current :: segments, last)
    else segmentsFrom (current ++ [c]) rest

def segments (stream : List α) : List (List α) × List α := segmentsFrom t [] stream

variable {t}

theorem segmentsFrom_append (current first second : List α) :
    segmentsFrom t current (first ++ second) =
      ((segmentsFrom t current first).1 ++
          (segmentsFrom t (segmentsFrom t current first).2 second).1,
        (segmentsFrom t (segmentsFrom t current first).2 second).2) := by
  induction first generalizing current with
  | nil => simp [segmentsFrom]
  | cons c rest ih =>
    simp only [List.cons_append, segmentsFrom]
    split_ifs
    · rw [ih, List.cons_append]
    · exact ih _

theorem segments_append (first second : List α) :
    segments t (first ++ second) =
      ((segments t first).1 ++ (segmentsFrom t (segments t first).2 second).1,
        (segmentsFrom t (segments t first).2 second).2) :=
  segmentsFrom_append [] first second

theorem segmentsFrom_of_not_mem {stream : List α} (h : t ∉ stream) (current : List α) :
    segmentsFrom t current stream = ([], current ++ stream) := by
  induction stream generalizing current with
  | nil => simp [segmentsFrom]
  | cons c rest ih =>
    rw [List.mem_cons, not_or] at h
    rw [segmentsFrom, if_neg (Ne.symm h.1), ih h.2, List.append_assoc, List.singleton_append]

/-- A terminated line comes first. -/
theorem segments_line {body : List α} (h : t ∉ body) (rest : List α) :
    segments t (body ++ t :: rest) = (body :: (segments t rest).1, (segments t rest).2) := by
  rw [segments_append, segments, segmentsFrom_of_not_mem h]
  simp [segmentsFrom, segments]

theorem segments_bodies {bodies : List (List α)} (h : ∀ body ∈ bodies, t ∉ body) :
    segments t (bodies.flatMap (· ++ [t])) = (bodies, []) := by
  induction bodies with
  | nil => rfl
  | cons body rest ih =>
    rw [List.flatMap_cons, List.append_assoc, List.singleton_append,
      segments_line (h body List.mem_cons_self), ih (fun b hb => h b (List.mem_cons_of_mem _ hb))]

omit [DecidableEq α] in
/-- A stream of terminated lines is broken off in the first line or after it. -/
theorem prefix_or_line_prefix {body rest stream : List α}
    (h : stream.IsPrefix (body ++ [t] ++ rest)) :
    stream.IsPrefix body ∨ (body ++ [t]).IsPrefix stream := by
  rcases List.prefix_or_prefix_of_prefix h (List.prefix_append _ _) with hle | hle
  · rcases List.prefix_concat_iff.mp hle with rfl | hle
    · exact Or.inr List.prefix_rfl
    · exact Or.inl hle
  · exact Or.inr hle

theorem count_line_append {body : List α} (h : t ∉ body) (more : List α) :
    (body ++ [t] ++ more).count t = more.count t + 1 := by
  rw [List.count_append, List.count_append, List.count_eq_zero.mpr h]
  simp
  omega

/-- Where a stream of terminated lines is broken off, the lines before are its segments. -/
theorem segments_of_isPrefix {bodies : List (List α)} (h : ∀ body ∈ bodies, t ∉ body)
    {stream : List α} (hstream : stream.IsPrefix (bodies.flatMap (· ++ [t]))) :
    (segments t stream).1 = bodies.take (stream.count t) := by
  induction bodies generalizing stream with
  | nil =>
    rw [List.flatMap_nil, List.prefix_nil] at hstream
    subst hstream
    rfl
  | cons body rest ih =>
    have hbody := h body List.mem_cons_self
    rw [List.flatMap_cons] at hstream
    rcases prefix_or_line_prefix hstream with hshort | ⟨more, rfl⟩
    · have hnone : t ∉ stream := fun hmem => hbody (hshort.subset hmem)
      rw [segments, segmentsFrom_of_not_mem hnone, List.count_eq_zero.mpr hnone, List.take_zero]
    · have ih := ih (fun b hb => h b (List.mem_cons_of_mem _ hb))
        ((List.prefix_append_right_inj _).mp hstream)
      rw [count_line_append hbody, List.take_succ_cons, List.append_assoc, List.singleton_append,
        segments_line hbody, ih]

/-- What has come before a stream only stands in front of its first piece. -/
theorem segmentsFrom_append_left (before current stream : List α) :
    segmentsFrom t (before ++ current) stream =
      match segmentsFrom t current stream with
      | ([], last) => ([], before ++ last)
      | (first :: more, last) => ((before ++ first) :: more, last) := by
  induction stream generalizing current with
  | nil => rfl
  | cons c rest ih =>
    rw [segmentsFrom, segmentsFrom]
    split_ifs
    · rfl
    · rw [List.append_assoc, ih]

/-- Where a stream of terminated lines is broken off, it has begun the next of them. -/
theorem segments_rest_isPrefix {bodies : List (List α)} (h : ∀ body ∈ bodies, t ∉ body)
    {stream : List α} (hstream : stream.IsPrefix (bodies.flatMap (· ++ [t]))) :
    (segments t stream).2.IsPrefix (bodies.getD (stream.count t) []) := by
  induction bodies generalizing stream with
  | nil =>
    rw [List.flatMap_nil, List.prefix_nil] at hstream
    subst hstream
    exact List.prefix_rfl
  | cons body rest ih =>
    have hbody := h body List.mem_cons_self
    rw [List.flatMap_cons] at hstream
    rcases prefix_or_line_prefix hstream with hshort | ⟨more, rfl⟩
    · have hnone : t ∉ stream := fun hmem => hbody (hshort.subset hmem)
      rwa [segments, segmentsFrom_of_not_mem hnone, List.count_eq_zero.mpr hnone]
    · have ih := ih (fun b hb => h b (List.mem_cons_of_mem _ hb))
        ((List.prefix_append_right_inj _).mp hstream)
      rwa [count_line_append hbody, List.getD_cons_succ, List.append_assoc, List.singleton_append,
        segments_line hbody]

omit [DecidableEq α] in
theorem modifyHead_nil_append (segments : List (List α)) :
    segments.modifyHead ([] ++ ·) = segments := by
  cases segments <;> rfl

theorem segmentsFrom_concat (current stream : List α) :
    (segmentsFrom t current stream).1 ++ [(segmentsFrom t current stream).2] =
      (stream.splitOn t).modifyHead (current ++ ·) := by
  induction stream generalizing current with
  | nil => simp [segmentsFrom]
  | cons c rest ih =>
    rw [List.splitOn_cons_eq_if_modifyHead, segmentsFrom]
    by_cases hc : c = t
    · have hrest := ih []
      rw [modifyHead_nil_append] at hrest
      simp only [hc, if_true, beq_self_eq_true, List.modifyHead_cons, List.append_nil,
        List.cons_append, hrest]
    · simp [hc, ih, List.modifyHead_modifyHead, Function.comp_def]

/-- The standard split gives the segments and then the unterminated rest. -/
theorem splitOn_eq_segments (stream : List α) :
    stream.splitOn t = (segments t stream).1 ++ [(segments t stream).2] := by
  rw [segments, segmentsFrom_concat, modifyHead_nil_append]

end Loco2Mqtt.Lines
