import Loco2Mqtt.Adapters.LineGrammar
import Loco2Mqtt.Bridge.InboundTransport
import Loco2Mqtt.Domain.LineFraming
import Loco2Mqtt.Foundations.Provenance

/-! Lines longer than the buffer. The assembler cuts them to its capacity and hands on the
beginning as if it were the line, so a `RECEIVE` line that is too long is taken for the frame
that its first 256 bytes carry, if they carry one. Otherwise every message returned is carried
by a whole line of the stream that fits the buffer. -/

namespace Loco2Mqtt.CutLines

open LocoNetOverTcpCodec LocoNetOverTcpPort WiFiClientLineStream LineAssembler Lines Words
  InboundTransport Provenance Runs

/-- The messages are carried, in order, by lines of their own that fit the buffer. -/
def FromWholeLines (lines : List Text) (messages : List LocoNetMessage) : Prop :=
  List.SublistForall₂
    (fun message line => line.length ≤ kMaxBufferedBytes ∧ Carries line message.bytes)
    messages lines

/-- The line is too long, and what the buffer holds of it carries a frame by itself. -/
def CutToAFrame (line : Text) : Prop :=
  kMaxBufferedBytes < line.length ∧ ∃ frame, Carries (line.take kMaxBufferedBytes) frame

/-! ### What is read of a line -/

theorem decodeLine_concat (text : Text) : decodeLine (text ++ ['\r']) = decodeLine text := by
  by_cases hfront : kReceivePrefix.IsPrefix text
  · obtain ⟨body, rfl⟩ := hfront
    have hbytes : parseHexBytes (body ++ ['\r']) = parseHexBytes body := by
      rw [parseHexBytes, words_concat_sep (by decide), parseHexBytes]
    have hfront : kReceivePrefix.isPrefixOf (kReceivePrefix ++ body ++ ['\r']) =
        kReceivePrefix.isPrefixOf (kReceivePrefix ++ body) := by
      rw [Bool.eq_iff_iff, List.isPrefixOf_iff_prefix, List.isPrefixOf_iff_prefix,
        receivePrefix_concat]
    rw [decodeLine, decodeLine, hfront, List.append_assoc, List.drop_left, List.drop_left, hbytes]
  · have hnone : decodeLine text = none := decodeLine_of_not_prefix hfront
    have hnone' : decodeLine (text ++ ['\r']) = none :=
      decodeLine_of_not_prefix (fun h => hfront (receivePrefix_concat.mp h))
    rw [hnone, hnone']

theorem decodeLine_withoutCarriageReturn (text : Text) :
    decodeLine (withoutCarriageReturn text) = decodeLine text := by
  rw [withoutCarriageReturn]
  split_ifs with hlast
  · obtain ⟨front, rfl⟩ := List.getLast?_eq_some_iff.mp hlast
    rw [List.dropLast_concat, decodeLine_concat]
  · rfl

/-- Whether the carriage return is dropped before or after the cut makes no difference. -/
theorem decodeLine_lineOf (segment : Text) :
    decodeLine (lineOf kMaxBufferedBytes '\n' segment) =
      decodeLine ((withoutCarriageReturn segment).take kMaxBufferedBytes) := by
  rw [lineOf_newline, decodeLine_withoutCarriageReturn, withoutCarriageReturn]
  split_ifs with hlast
  · obtain ⟨front, rfl⟩ := List.getLast?_eq_some_iff.mp hlast
    rw [List.dropLast_concat]
    rcases Nat.lt_or_ge front.length kMaxBufferedBytes with hfits | hlong
    · have hfits' : (front ++ ['\r']).length ≤ kMaxBufferedBytes := by
        rw [List.length_append]
        exact hfits
      rw [List.take_of_length_le hfits', decodeLine_concat,
        List.take_of_length_le (Nat.le_of_lt hfits)]
    · rw [List.take_append_of_le_length hlong]
  · rfl

theorem messagesIn_segments (bytes : Text) :
    messagesIn (segments '\n' bytes).1 =
      (linesOf bytes).filterMap (fun line => decodeLine (line.take kMaxBufferedBytes)) := by
  rw [linesOf_eq_segments, List.filterMap_map, messagesIn]
  exact List.filterMap_congr (fun segment _ => decodeLine_lineOf segment)

theorem read_whole_iff (line : Text) :
    (∀ message ∈ decodeLine (line.take kMaxBufferedBytes),
      line.length ≤ kMaxBufferedBytes ∧ Carries line message.bytes) ↔ ¬ CutToAFrame line := by
  rcases Nat.lt_or_ge kMaxBufferedBytes line.length with hlong | hfits
  · constructor
    · rintro h ⟨-, frame, hframe⟩
      have hread : decodeLine (line.take kMaxBufferedBytes) = some ⟨frame⟩ :=
        (decodeLine_iff_carries _ _).mpr hframe
      exact absurd (h _ hread).1 (Nat.not_le.mpr hlong)
    · intro h message hread
      exact absurd ⟨hlong, _, (decodeLine_iff_carries _ _).mp hread⟩ h
  · rw [List.take_of_length_le hfits]
    refine iff_of_true (fun message hread => ?_) (fun h => absurd h.1 (Nat.not_lt.mpr hfits))
    exact ⟨hfits, (decodeLine_iff_carries _ _).mp hread⟩

theorem fromWholeLines_iff (bytes : Text) :
    FromWholeLines (linesOf bytes) (messagesIn (segments '\n' bytes).1) ↔
      ∀ line ∈ linesOf bytes, ¬ CutToAFrame line := by
  rw [FromWholeLines, messagesIn_segments, sublistForall₂_filterMap_iff]
  · exact forall₂_congr (fun line _ => read_whole_iff line)
  · rintro message line ⟨hfits, hcarries⟩ hnone
    rw [List.take_of_length_le hfits, (decodeLine_iff_carries _ _).mpr hcarries] at hnone
    cases hnone

/-! ### What is returned of a stream -/

/-- The whole stream arrives and is read to its end. -/
def drained (bytes : Text) (n : ℕ) : List Event := .arrive bytes :: List.replicate n .receive

theorem arrived_drained (bytes : Text) (n : ℕ) : arrived (drained bytes n) = bytes := by
  have hnone : arrived (List.replicate n .receive) = [] := by
    rw [arrived, List.flatMap_eq_nil_iff]
    intro e he
    rw [List.eq_of_mem_replicate he]
  have hcons : arrived (drained bytes n) = bytes ++ arrived (List.replicate n .receive) := rfl
  rw [hcons, hnone, List.append_nil]

theorem returned_drained (bytes : Text) (n : ℕ) :
    (run step initial (drained bytes n)).returned =
      (messagesIn (segments '\n' bytes).1).take n := by
  induction n with
  | zero => rfl
  | succ n ih =>
    have hnext := (delivered_receive (delivered_run (drained bytes n))).2
    rw [arrived_drained, ih] at hnext
    have hsplit : drained bytes (n + 1) = drained bytes n ++ [.receive] := by
      rw [drained, drained, List.cons_append, List.replicate_succ']
    have hstep : (step (run step initial (drained bytes n)) .receive).returned =
        (run step initial (drained bytes n)).returned ++
          (receive (run step initial (drained bytes n)).stream).1.toList := rfl
    rw [hsplit, run_concat, hstep, hnext, ih, List.take_add_one, List.length_take]
    rcases Nat.le_total n (messagesIn (segments '\n' bytes).1).length with hle | hle
    · rw [Nat.min_eq_left hle]
    · -- there is no message left to read
      rw [Nat.min_eq_right hle, List.getElem?_eq_none hle, List.getElem?_eq_none le_rfl]

theorem returned_isPrefix (events : List Event) :
    (run step initial events).returned.IsPrefix
      (messagesIn (segments '\n' (arrived events)).1) := by
  obtain ⟨-, buffered, -, -, -, -, hreturned⟩ := delivered_run events
  rw [hreturned]
  exact List.prefix_append _ _

/-- However the stream arrives and is read, every message returned is carried by a whole line
of it that fits the buffer, exactly when no line that is too long begins like a frame. -/
theorem messages_from_whole_lines_iff (bytes : Text) :
    (∀ events, arrived events = bytes →
      FromWholeLines (linesOf bytes) (run step initial events).returned) ↔
        ∀ line ∈ linesOf bytes, ¬ CutToAFrame line := by
  rw [← fromWholeLines_iff]
  constructor
  · intro h
    have hall := h (drained bytes (messagesIn (segments '\n' bytes).1).length)
      (arrived_drained _ _)
    rwa [returned_drained, List.take_length] at hall
  · rintro h events rfl
    exact sublistForall₂_of_isPrefix h (returned_isPrefix events)

/-- A message of 84 bytes: a peer transfer whose count byte says so. -/
def longMessage : LocoNetMessage := ⟨[0xE5, 0x54, 0x4E] ++ List.replicate 81 0x00⟩

/-- The 83 of its bytes that the buffer holds, valid by themselves. -/
def cutMessage : LocoNetMessage := ⟨[0xE5, 0x54, 0x4E] ++ List.replicate 80 0x00⟩

def longLine : Text := kReceivePrefix ++ longMessage.describe

/-- The line of a valid message of 84 bytes yields a message of 83 bytes. -/
theorem cut_line_returns_forged_frame :
    arrived (drained (longLine ++ ['\r', '\n']) 1) = longLine ++ ['\r', '\n'] ∧
      (run step initial (drained (longLine ++ ['\r', '\n']) 1)).returned = [cutMessage] ∧
      decodeLine longLine = some longMessage ∧
      ¬ FromWholeLines (linesOf (longLine ++ ['\r', '\n']))
        (run step initial (drained (longLine ++ ['\r', '\n']) 1)).returned := by
  have hlines : linesOf (longLine ++ ['\r', '\n']) = [longLine] := by decide +kernel
  have hcut : messagesIn (segments '\n' (longLine ++ ['\r', '\n'])).1 = [cutMessage] := by
    rw [messagesIn_segments, hlines]
    decide +kernel
  have hwhole : decodeLine longLine = some longMessage := by decide +kernel
  have hreturned :
      (run step initial (drained (longLine ++ ['\r', '\n']) 1)).returned = [cutMessage] := by
    rw [returned_drained, hcut, List.take_one, List.head?_cons, Option.toList_some]
  refine ⟨arrived_drained _ _, hreturned, hwhole, ?_⟩
  rw [hreturned, hlines]
  rintro (_ | ⟨⟨hfits, -⟩, -⟩ | ⟨⟨⟩⟩)
  exact absurd hfits (by decide +kernel)

end Loco2Mqtt.CutLines
