import Mathlib.Data.List.Induction
import Loco2Mqtt.Adapters.LocoNetOverTcp
import Loco2Mqtt.Foundations.Runs

/-! What arrives through the transport. Whatever the bytes and however they are split into
chunks, the messages returned so far followed by those still buffered are the messages of the
complete lines that have arrived. On the lines a server sends these are its frames. -/

namespace Loco2Mqtt.InboundTransport

open LocoNetOverTcpCodec LocoNetOverTcpPort WiFiClientLineStream LineAssembler Lines Runs

/-! ### Arrivals and calls of `receive` -/

inductive Event where
  | arrive (chunk : Text)
  | receive
  deriving DecidableEq, Repr

structure State where
  stream : WiFiClientLineStream
  returned : List LocoNetMessage

def initial : State := ⟨WiFiClientLineStream.initial, []⟩

def step (s : State) : Event → State
  | .arrive chunk => { s with stream := { s.stream with available := s.stream.available ++ chunk } }
  | .receive =>
    let (message, stream) := receive s.stream
    ⟨stream, s.returned ++ message.toList⟩

/-- All bytes that arrive in the course of the events. -/
def arrived (events : List Event) : Text :=
  events.flatMap (fun e => match e with
    | .arrive chunk => chunk
    | .receive => [])

/-- The messages returned and those in the buffered lines are those of the complete segments
of `bytes`. -/
def Delivered (bytes : Text) (s : State) : Prop :=
  ∃ current buffered last, s.stream.assembler = during kMaxBufferedBytes '\n' current ∧
    segmentsFrom '\n' current s.stream.available = (buffered, last) ∧
    (segments '\n' bytes).2 = last ∧
    messagesIn (segments '\n' bytes).1 = s.returned ++ messagesIn buffered

theorem delivered_initial : Delivered [] initial := ⟨[], [], [], rfl, rfl, rfl, rfl⟩

theorem messagesIn_append (first second : List Text) :
    messagesIn (first ++ second) = messagesIn first ++ messagesIn second :=
  List.filterMap_append

theorem delivered_arrive {bytes : Text} {s : State} (h : Delivered bytes s) (chunk : Text) :
    Delivered (bytes ++ chunk) (step s (.arrive chunk)) := by
  obtain ⟨current, buffered, last, hassembler, hbuffered, hlast, hmessages⟩ := h
  refine ⟨current, buffered ++ (segmentsFrom '\n' last chunk).1, (segmentsFrom '\n' last chunk).2,
    hassembler, ?_, ?_, ?_⟩
  · simp only [step, segmentsFrom_append, hbuffered]
  · rw [segments_append, hlast]
  · rw [segments_append, hlast, messagesIn_append, hmessages,
      messagesIn_append, List.append_assoc]
    rfl

theorem delivered_receive {bytes : Text} {s : State} (h : Delivered bytes s) :
    Delivered bytes (step s .receive) ∧
      (receive s.stream).1 = (messagesIn (segments '\n' bytes).1)[s.returned.length]? := by
  obtain ⟨current, buffered, last, hassembler, hbuffered, hlast, hmessages⟩ := h
  obtain ⟨hfirst, current', rest, hassembler', hrest, htail⟩ := receive_spec hassembler hbuffered
  constructor
  · refine ⟨current', rest, last, hassembler', hrest, hlast, ?_⟩
    simp only [step, hfirst, htail, hmessages, List.append_assoc]
    rcases messagesIn buffered with _ | ⟨m, more⟩ <;> simp
  · rw [hfirst, hmessages, List.getElem?_append_right (Nat.le_refl _), Nat.sub_self,
      List.head?_eq_getElem?]

theorem delivered_run (events : List Event) :
    Delivered (arrived events) (run step initial events) := by
  induction events using List.reverseRecOn with
  | nil => exact delivered_initial
  | append_singleton events e ih =>
    rw [run_concat, arrived, List.flatMap_append, ← arrived]
    cases e with
    | arrive chunk => simpa using delivered_arrive ih chunk
    | receive => simpa using (delivered_receive ih).1

/-! ### The lines of the server -/

/-- A frame on a `RECEIVE` line, or any other line. -/
inductive Content where
  | data (frame : LocoNetMessage)
  | other (text : Text)

structure SentLine where
  content : Content
  carriageReturn : Bool

namespace SentLine

def text (line : SentLine) : Text :=
  match line.content with
  | .data frame => kReceivePrefix ++ frame.describe
  | .other text => text

/-- The line up to its newline. -/
def body (line : SentLine) : Text := line.text ++ if line.carriageReturn then ['\r'] else []

def frame? (line : SentLine) : Option LocoNetMessage :=
  match line.content with
  | .data frame => some frame
  | .other _ => none

/-- Frames of 2 to 83 bytes with a valid checksum, or lines without a newline that do not
begin like a `RECEIVE` line. -/
def Valid (line : SentLine) : Prop :=
  match line.content with
  | .data frame => hasValidChecksum frame.bytes ∧ frame.bytes.length ≤ 83
  | .other text => '\n' ∉ text ∧ ¬ kReceivePrefix.IsPrefix text

end SentLine

/-- The bytes of the lines, each ended by a newline. -/
def bytesOf (lines : List SentLine) : Text := lines.flatMap (fun line => line.body ++ ['\n'])

def framesOf (lines : List SentLine) : List LocoNetMessage := lines.filterMap SentLine.frame?

theorem lineOf_isPrefix (cap : ℕ) (t : Char) (segment : Text) :
    (lineOf cap t segment).IsPrefix segment := by
  simp only [lineOf]
  split_ifs
  · exact (List.dropLast_prefix _).trans (List.take_prefix _ _)
  · exact List.take_prefix _ _

theorem not_mem_describe {c : Char} (hspace : isSpace c) (hc : c ≠ ' ')
    (message : LocoNetMessage) : c ∉ message.describe := by
  have hfrom : ∀ (bytes : List UInt8) (i : ℕ), c ∉ LocoNetMessage.describeFrom i bytes := by
    intro bytes
    induction bytes with
    | nil => exact fun _ => List.not_mem_nil
    | cons byte rest ih =>
      intro i hmem
      rw [LocoNetMessage.describeFrom, List.mem_append, List.mem_append] at hmem
      rcases hmem with (hsep | hbyte) | hrest
      · split_ifs at hsep
        · exact hc (List.mem_singleton.mp hsep)
        · exact absurd hsep List.not_mem_nil
      · exact (byteToHex_read byte).2.2 c hbyte hspace
      · exact ih (i + 1) hrest
  exact hfrom message.bytes 0

theorem not_mem_text_data {c : Char} (hspace : isSpace c) (hc : c ∉ kReceivePrefix)
    (frame : LocoNetMessage) : c ∉ kReceivePrefix ++ frame.describe := by
  rw [List.mem_append, not_or]
  refine ⟨hc, not_mem_describe hspace ?_ frame⟩
  rintro rfl
  exact hc (by decide)

theorem decodeLine_of_not_prefix {line : Text} (h : ¬ kReceivePrefix.IsPrefix line) :
    decodeLine line = none := by
  have hfront : kReceivePrefix.isPrefixOf line = false := by
    rwa [← Bool.not_eq_true, List.isPrefixOf_iff_prefix]
  simp [decodeLine, hfront]

/-- A carriage return makes no line begin like a `RECEIVE` line. -/
theorem receivePrefix_concat {text : Text} :
    kReceivePrefix.IsPrefix (text ++ ['\r']) ↔ kReceivePrefix.IsPrefix text := by
  constructor
  · intro h
    rcases List.prefix_concat_iff.mp h with heq | h
    · -- the prefix ends in a space, not in a carriage return
      have hlast := congrArg List.getLast? heq
      rw [List.getLast?_concat] at hlast
      exact absurd hlast (by decide)
    · exact h
  · exact fun h => h.trans (List.prefix_append _ _)

theorem newline_not_mem_body {line : SentLine} (h : line.Valid) : '\n' ∉ line.body := by
  obtain ⟨content, carriageReturn⟩ := line
  have htext : '\n' ∉ SentLine.text ⟨content, carriageReturn⟩ := by
    cases content with
    | data frame => exact not_mem_text_data (by decide) (by decide) frame
    | other text => exact h.1
  rw [SentLine.body, List.mem_append, not_or]
  refine ⟨htext, ?_⟩
  cases carriageReturn <;> simp

/-- The line read from a server's line carries its frame. -/
theorem decodeLine_body {line : SentLine} (h : line.Valid) :
    decodeLine (lineOf kMaxBufferedBytes '\n' line.body) = line.frame? := by
  obtain ⟨content, carriageReturn⟩ := line
  cases content with
  | data frame =>
    obtain ⟨hvalid, hlong⟩ : hasValidChecksum frame.bytes ∧ frame.bytes.length ≤ 83 := h
    obtain ⟨hlen, hsum⟩ := (hasValidChecksum_iff frame.bytes).mp hvalid
    have hfit : (kReceivePrefix ++ frame.describe).length ≤ kMaxBufferedBytes := by
      rw [List.length_append, LocoNetMessage.length_describe]
      have hfront : kReceivePrefix.length = 8 := by decide
      simp only [kMaxBufferedBytes]
      omega
    simp only [SentLine.body, SentLine.text, SentLine.frame?]
    rw [lineOf_fitting hfit (not_mem_text_data (by decide) (by decide) frame),
      decodeLine_describe hlen hsum]
  | other text =>
    obtain ⟨-, hother⟩ : '\n' ∉ text ∧ ¬ kReceivePrefix.IsPrefix text := h
    apply decodeLine_of_not_prefix
    intro hprefixed
    have hbody := hprefixed.trans (lineOf_isPrefix _ _ _)
    simp only [SentLine.body, SentLine.text] at hbody
    cases carriageReturn with
    | false => exact hother (by simpa using hbody)
    | true => exact hother (receivePrefix_concat.mp hbody)

theorem messagesIn_bodies {lines : List SentLine} (h : ∀ line ∈ lines, line.Valid) :
    messagesIn (lines.map SentLine.body) = framesOf lines := by
  rw [messagesIn, framesOf, List.filterMap_map]
  exact List.filterMap_congr (fun line hline => decodeLine_body (h line hline))

theorem count_newline_bytesOf {lines : List SentLine} (h : ∀ line ∈ lines, line.Valid) :
    (bytesOf lines).count '\n' = lines.length := by
  induction lines with
  | nil => rfl
  | cons line rest ih =>
    have hbody := newline_not_mem_body (h line List.mem_cons_self)
    have ih := ih (fun l hl => h l (List.mem_cons_of_mem _ hl))
    have hcons : bytesOf (line :: rest) = line.body ++ ['\n'] ++ bytesOf rest := List.flatMap_cons
    rw [hcons, List.count_append, List.count_append, List.count_eq_zero.mpr hbody, ih]
    simp
    omega

/-- Of a stream of valid lines that is still arriving, in any chunks, the messages returned
are the first of the frames on the lines completed so far, and the next call returns the next
of these frames, or nothing if there is none. Once everything has arrived these are all the
frames sent. -/
theorem inbound_lossless (lines : List SentLine) (hvalid : ∀ line ∈ lines, line.Valid)
    (events : List Event) (harrived : (arrived events).IsPrefix (bytesOf lines)) :
    let s := run step initial events
    let completed := framesOf (lines.take ((arrived events).count '\n'))
    s.returned.IsPrefix completed ∧ (receive s.stream).1 = completed[s.returned.length]? ∧
      (arrived events = bytesOf lines → completed = framesOf lines) := by
  intro s completed
  have hdelivered : Delivered (arrived events) s := delivered_run events
  have hnewline : ∀ body ∈ lines.map SentLine.body, '\n' ∉ body := by
    intro body hbody
    obtain ⟨line, hline, rfl⟩ := List.mem_map.mp hbody
    exact newline_not_mem_body (hvalid line hline)
  have hsegments : (segments '\n' (arrived events)).1 =
      (lines.take ((arrived events).count '\n')).map SentLine.body := by
    rw [List.map_take]
    apply segments_of_isPrefix hnewline
    rwa [List.flatMap_map]
  have hmessages : messagesIn (segments '\n' (arrived events)).1 = completed := by
    rw [hsegments, messagesIn_bodies (fun line hline => hvalid line (List.mem_of_mem_take hline))]
  refine ⟨?_, ?_, fun hall => ?_⟩
  · obtain ⟨-, buffered, -, -, -, -, hreturned⟩ := hdelivered
    rw [← hmessages, hreturned]
    exact List.prefix_append _ _
  · rw [(delivered_receive hdelivered).2, hmessages]
  · have hcount : (arrived events).count '\n' = lines.length := by
      rw [hall]
      exact count_newline_bytesOf hvalid
    simp only [completed, hcount, List.take_length]

/-- A greeting and a switch report, which is cut in two. -/
def greetingAndReport : List SentLine :=
  [⟨.other "VERSION JMRI Server 5.2".toList, true⟩, ⟨.data ⟨[0xB1, 0x00, 0x10, 0x5E]⟩, true⟩]

def inTwoChunks : List Event :=
  [.arrive ((bytesOf greetingAndReport).take 30), .receive,
    .arrive ((bytesOf greetingAndReport).drop 30)]

theorem inbound_lossless_greetingAndReport :
    (run step initial inTwoChunks).returned = [] ∧
      (step (run step initial inTwoChunks) .receive).returned = [⟨[0xB1, 0x00, 0x10, 0x5E]⟩] := by
  have hvalid : ∀ line ∈ greetingAndReport, line.Valid := by
    intro line hline
    rcases List.mem_cons.mp hline with rfl | hline
    · exact ⟨by decide, by decide⟩
    · rw [List.mem_singleton.mp hline]
      exact ⟨by decide, by decide⟩
  have harrived : arrived inTwoChunks = bytesOf greetingAndReport := List.take_append_drop 30 _
  obtain ⟨-, hnext, hall⟩ := inbound_lossless greetingAndReport hvalid inTwoChunks
    (harrived ▸ List.prefix_refl _)
  have hnone : (run step initial inTwoChunks).returned = [] := by decide +kernel
  rw [hall harrived, hnone] at hnext
  refine ⟨hnone, ?_⟩
  simp only [step, hnone, hnext]
  rfl

end Loco2Mqtt.InboundTransport
