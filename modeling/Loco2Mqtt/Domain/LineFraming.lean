import Loco2Mqtt.Domain.LineAssembler

/-! `LineAssembler` against its batch specification. A stream that is fed byte by byte gives
the lines that splitting it at the terminator and cutting each piece to the capacity would
give, each at the moment its terminator is fed. In between the buffer holds the beginning of
the piece under way. -/

namespace Loco2Mqtt.LineAssembler

open Lines

/-- As constructed. -/
def fresh (maxBufferedBytes : ℕ) (terminator : Char) : LineAssembler :=
  ⟨[], maxBufferedBytes, terminator⟩

/-- Feeds a stream byte by byte: what each call returns, and the assembler afterwards. -/
def feedAll (assembler : LineAssembler) : Text → List (Option Text) × LineAssembler
  | [] => ([], assembler)
  | c :: rest =>
    let (line, assembler) := assembler.feed c
    let (lines, assembler) := feedAll assembler rest
    (line :: lines, assembler)

theorem feedAll_during (cap : ℕ) (t : Char) (current stream : Text) :
    (feedAll (during cap t current) stream).1.flatMap Option.toList =
        (segmentsFrom t current stream).1.map (lineOf cap t) ∧
      (feedAll (during cap t current) stream).1.map Option.isSome = stream.map (· == t) ∧
      (feedAll (during cap t current) stream).2 =
        during cap t (segmentsFrom t current stream).2 := by
  induction stream generalizing current with
  | nil => exact ⟨rfl, rfl, rfl⟩
  | cons c rest ih =>
    by_cases hc : c = t
    · subst hc
      obtain ⟨hlines, hwhere, hafter⟩ := ih []
      simp [feedAll, feed_terminator, segmentsFrom, hlines, hwhere, hafter]
    · obtain ⟨hlines, hwhere, hafter⟩ := ih (current ++ [c])
      simp [feedAll, feed_other cap hc, segmentsFrom, hlines, hwhere, hafter, hc]

/-- The lines returned are the pieces of the stream that have ended, each cut to the capacity
and without a final carriage return, and they are returned at the terminators and nowhere
else. The buffer is the beginning of the last piece and stays within the capacity. -/
theorem framing_eq_batch (maxBufferedBytes : ℕ) (terminator : Char) (stream : Text) :
    let (answers, assembler) := feedAll (fresh maxBufferedBytes terminator) stream
    answers.flatMap Option.toList =
        (stream.splitOn terminator).dropLast.map (lineOf maxBufferedBytes terminator) ∧
      answers.map Option.isSome = stream.map (· == terminator) ∧
      some assembler.buffer =
        (stream.splitOn terminator).getLast?.map (List.take maxBufferedBytes) ∧
      assembler.buffer.length ≤ maxBufferedBytes := by
  have hfresh : fresh maxBufferedBytes terminator = during maxBufferedBytes terminator [] := by
    rw [during, List.take_nil, fresh]
  obtain ⟨hlines, hwhere, hafter⟩ := feedAll_during maxBufferedBytes terminator [] stream
  rw [hfresh, splitOn_eq_segments, List.dropLast_concat, List.getLast?_concat]
  refine ⟨hlines, hwhere, ?_, ?_⟩
  · rw [hafter]
    rfl
  · rw [hafter]
    exact List.length_take_le _ _

/-- The complete lines of a stream as they were written, whatever their length. -/
def linesOf (stream : Text) : List Text :=
  (stream.splitOn '\n').dropLast.map withoutCarriageReturn

theorem linesOf_eq_segments (stream : Text) :
    linesOf stream = (segments '\n' stream).1.map withoutCarriageReturn := by
  rw [linesOf, splitOn_eq_segments, List.dropLast_concat]

end Loco2Mqtt.LineAssembler
