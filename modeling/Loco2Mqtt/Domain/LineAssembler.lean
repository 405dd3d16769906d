import Loco2Mqtt.Domain.LocoNetMessage
import Loco2Mqtt.Foundations.Lines

/-! `LineAssembler`. A line is the segment before its terminator, cut to the capacity of the
buffer and without a final carriage return. -/

namespace Loco2Mqtt

structure LineAssembler where
  buffer : Text
  maxBufferedBytes : ℕ
  terminator : Char

namespace LineAssembler

open Lines

def finishLine (assembler : LineAssembler) : Text × LineAssembler :=
  let line := assembler.buffer
  (if assembler.terminator = '\n' ∧ line.getLast? = some '\r' then line.dropLast else line,
    { assembler with buffer := [] })

def feed (assembler : LineAssembler) (c : Char) : Option Text × LineAssembler :=
  if c = assembler.terminator then
    let (line, assembler) := assembler.finishLine
    (some line, assembler)
  else if assembler.buffer.length < assembler.maxBufferedBytes then
    (none, { assembler with buffer := assembler.buffer ++ [c] })
  else (none, assembler)

/-! ### What becomes of a segment -/

/-- The line that a terminated segment is returned as. -/
def lineOf (maxBufferedBytes : ℕ) (terminator : Char) (segment : Text) : Text :=
  let line := segment.take maxBufferedBytes
  if terminator = '\n' ∧ line.getLast? = some '\r' then line.dropLast else line

/-- The assembler in the middle of a segment. -/
def during (maxBufferedBytes : ℕ) (terminator : Char) (segment : Text) : LineAssembler :=
  ⟨segment.take maxBufferedBytes, maxBufferedBytes, terminator⟩

theorem feed_terminator (cap : ℕ) (t : Char) (segment : Text) :
    (during cap t segment).feed t = (some (lineOf cap t segment), during cap t []) := by
  simp only [feed, during, if_true, List.take_nil]
  rfl

theorem feed_other (cap : ℕ) {t c : Char} (h : c ≠ t) (segment : Text) :
    (during cap t segment).feed c = (none, during cap t (segment ++ [c])) := by
  simp only [feed, during, if_neg h, List.length_take]
  by_cases hlen : segment.length < cap
  · rw [if_pos (by omega), List.take_of_length_le (by omega),
      List.take_of_length_le (by simp; omega)]
  · rw [if_neg (by omega), List.take_append_of_le_length (by omega)]

/-- The text of a line, where a carriage return may precede the newline. -/
def withoutCarriageReturn (segment : Text) : Text :=
  if segment.getLast? = some '\r' then segment.dropLast else segment

theorem lineOf_newline (cap : ℕ) (segment : Text) :
    lineOf cap '\n' segment = withoutCarriageReturn (segment.take cap) := by
  simp only [lineOf, withoutCarriageReturn, true_and]

/-- A line that fits the buffer is returned without its carriage return. -/
theorem lineOf_fitting {cap : ℕ} {text : Text} (hfit : text.length ≤ cap) (hcr : '\r' ∉ text)
    (carriageReturn : Bool) :
    lineOf cap '\n' (text ++ if carriageReturn then ['\r'] else []) = text := by
  have hlast : text.getLast? ≠ some '\r' := fun h => hcr (List.mem_of_getLast? h)
  simp only [lineOf]
  rcases Nat.lt_or_eq_of_le hfit with hlt | heq
  · rw [List.take_of_length_le (by cases carriageReturn <;> simp <;> omega)]
    cases carriageReturn <;> simp [hlast]
  · -- a full buffer drops the carriage return by itself
    rw [List.take_append_of_le_length (by omega), List.take_of_length_le hfit]
    simp [hlast]

end LineAssembler
end Loco2Mqtt
