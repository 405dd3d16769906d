import Loco2Mqtt.Domain.LineAssembler
import Loco2Mqtt.Foundations.Words

/-! The transport: `LocoNetOverTcpCodec`, `WiFiClientLineStream` while its socket stays
connected, and `LocoNetOverTcpPort`. The codec reads back what `describe` prints, and
`receive` returns the message of the first complete line that carries one. -/

namespace Loco2Mqtt

open Words Lines

namespace LocoNetOverTcpCodec

def kReceivePrefix : Text := "RECEIVE ".toList

def isXDigit (c : Char) : Bool :=
  ('0' ≤ c && c ≤ '9') || ('a' ≤ c && c ≤ 'f') || ('A' ≤ c && c ≤ 'F')

def isHexByteToken : Text → Bool
  | [high, low] => isXDigit high && isXDigit low
  | _ => false

def xdigitValue (c : Char) : ℕ :=
  if c ≤ '9' then c.toNat - '0'.toNat
  else if c ≤ 'F' then c.toNat - 'A'.toNat + 10 else c.toNat - 'a'.toNat + 10

/-- `std::stoi` in base 16, which is only reached with two hexadecimal digits. -/
def stoi16 : Text → ℕ
  | [high, low] => 16 * xdigitValue high + xdigitValue low
  | _ => 0

/-- The loop over the tokens, which gives up at the first that is not a byte. -/
def parseTokens : List Text → Option (List UInt8)
  | [] => some []
  | token :: rest =>
    if !isHexByteToken token then none
    else (parseTokens rest).map (fun bytes => UInt8.ofNat (stoi16 token) :: bytes)

def parseHexBytes (body : Text) : Option (List UInt8) :=
  match parseTokens (words isSpace body) with
  | none => none
  | some bytes => if bytes.isEmpty then none else some bytes

def hasValidChecksum (bytes : List UInt8) : Bool :=
  if bytes.length < 2 then false
  else some (computeLocoNetChecksum bytes.dropLast) = bytes.getLast?

def encodeSend (message : LocoNetMessage) : Text := "SEND ".toList ++ message.describe

def decodeLine (line : Text) : Option LocoNetMessage :=
  if !kReceivePrefix.isPrefixOf line then none
  else
    match parseHexBytes (line.drop kReceivePrefix.length) with
    | none => none
    | some bytes => if hasValidChecksum bytes then some ⟨bytes⟩ else none

/-! ### Reading a printed frame back -/

theorem hexDigit_read : ∀ n : Fin 16,
    isXDigit (hexDigit n) ∧ xdigitValue (hexDigit n) = n ∧ isSpace (hexDigit n) = false := by
  decide

theorem byteToHex_read (value : UInt8) :
    isHexByteToken (byteToHex value) ∧ UInt8.ofNat (stoi16 (byteToHex value)) = value ∧
      ∀ c ∈ byteToHex value, ¬ isSpace c := by
  have hv := value.toNat_lt
  obtain ⟨hhigh, hhighv, hhighs⟩ := hexDigit_read ⟨value.toNat / 16, by omega⟩
  obtain ⟨hlow, hlowv, hlows⟩ := hexDigit_read ⟨value.toNat % 16, by omega⟩
  simp only at hhigh hhighv hhighs hlow hlowv hlows
  refine ⟨?_, ?_, ?_⟩
  · simp [byteToHex, isHexByteToken, hhigh, hlow]
  · have hsum : stoi16 (byteToHex value) = value.toNat := by
      simp only [byteToHex, stoi16, hhighv, hlowv]
      omega
    rw [hsum, UInt8.ofNat_toNat]
  · simp [byteToHex, hhighs, hlows]

/-- The tokens of a printed frame are its printed bytes. -/
theorem words_describeFrom_succ (i : ℕ) (bytes : List UInt8) :
    words isSpace (LocoNetMessage.describeFrom (i + 1) bytes) = bytes.map byteToHex := by
  induction bytes generalizing i with
  | nil => rfl
  | cons byte rest ih =>
    have hskip : words isSpace (LocoNetMessage.describeFrom (i + 1) (byte :: rest)) =
        words isSpace (byteToHex byte ++ LocoNetMessage.describeFrom (i + 2) rest) := by
      simp [LocoNetMessage.describeFrom, words, wordsFrom, isSpace]
    rw [hskip]
    have hne : byteToHex byte ≠ [] := by simp [byteToHex]
    have hchars := (byteToHex_read byte).2.2
    cases rest with
    | nil => rw [LocoNetMessage.describeFrom, List.append_nil, words_singleton hchars hne]; rfl
    | cons next rest =>
      have hspace : LocoNetMessage.describeFrom (i + 2) (next :: rest) =
          ' ' :: (byteToHex next ++ LocoNetMessage.describeFrom (i + 3) rest) := by
        simp [LocoNetMessage.describeFrom]
      have ih := ih (i + 1)
      rw [hspace] at ih ⊢
      rw [words_append_sep hchars hne rfl, List.map_cons, ← ih]
      simp [words, wordsFrom, isSpace]

theorem words_describe (message : LocoNetMessage) :
    words isSpace message.describe = message.bytes.map byteToHex := by
  obtain ⟨_ | ⟨byte, rest⟩⟩ := message
  · rfl
  · rw [← words_describeFrom_succ 0, LocoNetMessage.describe, LocoNetMessage.describeFrom,
      LocoNetMessage.describeFrom_succ_congr 0 1]
    simp [LocoNetMessage.describeFrom, words, wordsFrom, isSpace]

theorem parseTokens_map (bytes : List UInt8) :
    parseTokens (bytes.map byteToHex) = some bytes := by
  induction bytes with
  | nil => rfl
  | cons byte rest ih =>
    obtain ⟨htoken, hvalue, -⟩ := byteToHex_read byte
    simp [parseTokens, htoken, hvalue, ih]

theorem hasValidChecksum_iff (bytes : List UInt8) :
    hasValidChecksum bytes ↔ 2 ≤ bytes.length ∧ xorOf bytes = 0xFF := by
  unfold hasValidChecksum
  split_ifs with hlen
  · simp only [false_iff, not_and]
    omega
  · obtain ⟨front, last, rfl⟩ : ∃ front last, bytes = front ++ [last] := by
      rcases List.eq_nil_or_concat bytes with rfl | ⟨front, last, rfl⟩
      · simp at hlen
      · exact ⟨front, last, by simp⟩
    rw [List.dropLast_concat, List.getLast?_concat, decide_eq_true_eq, Option.some.injEq,
      computeLocoNetChecksum_eq_iff]
    exact ⟨fun h => ⟨by omega, h⟩, fun h => h.2⟩

theorem parseHexBytes_eq_some_iff {body : Text} {bytes : List UInt8} :
    parseHexBytes body = some bytes ↔
      parseTokens (words isSpace body) = some bytes ∧ bytes ≠ [] := by
  unfold parseHexBytes
  rcases parseTokens (words isSpace body) with _ | parsed
  · simp
  · rcases parsed with _ | ⟨byte, rest⟩
    · simp
    · simp only [List.isEmpty_cons, Bool.false_eq_true, if_false, Option.some.injEq]
      constructor
      · rintro rfl
        exact ⟨rfl, List.cons_ne_nil _ _⟩
      · exact fun h => h.1

/-- What a line must be for a message to be read from it. -/
theorem decodeLine_eq_some_iff {line : Text} {message : LocoNetMessage} :
    decodeLine line = some message ↔
      (∃ body, line = kReceivePrefix ++ body ∧
        parseTokens (words isSpace body) = some message.bytes) ∧
          2 ≤ message.bytes.length ∧ xorOf message.bytes = 0xFF := by
  rw [← hasValidChecksum_iff]
  unfold decodeLine
  constructor
  · intro h
    split_ifs at h with hfront
    obtain ⟨body, rfl⟩ : kReceivePrefix.IsPrefix line := by
      rw [← List.isPrefixOf_iff_prefix]
      simpa using hfront
    rw [List.drop_left] at h
    rcases hbytes : parseHexBytes body with _ | bytes
    · simp [hbytes] at h
    · simp only [hbytes] at h
      split_ifs at h with hvalid
      obtain rfl := Option.some.inj h
      exact ⟨⟨body, rfl, (parseHexBytes_eq_some_iff.mp hbytes).1⟩, hvalid⟩
  · rintro ⟨⟨body, rfl, hparse⟩, hvalid⟩
    have hfront : kReceivePrefix.isPrefixOf (kReceivePrefix ++ body) := by
      rw [List.isPrefixOf_iff_prefix]
      exact List.prefix_append _ _
    have hne : message.bytes ≠ [] := by
      intro hnil
      rw [hnil] at hvalid
      exact absurd hvalid (by decide)
    rw [List.drop_left, parseHexBytes_eq_some_iff.mpr ⟨hparse, hne⟩]
    simp [hfront, hvalid]

/-- A printed frame is read back if it is well summed. -/
theorem decodeLine_describe {message : LocoNetMessage} (hlen : 2 ≤ message.bytes.length)
    (hsum : xorOf message.bytes = 0xFF) :
    decodeLine (kReceivePrefix ++ message.describe) = some message := by
  refine decodeLine_eq_some_iff.mpr ⟨⟨message.describe, rfl, ?_⟩, hlen, hsum⟩
  rw [words_describe, parseTokens_map]

end LocoNetOverTcpCodec

/-! ### The stream and the port -/

/-- The stream while its socket is connected, where `reconnectIfDue` does nothing.
`available` are the bytes that have arrived and have not been read. -/
structure WiFiClientLineStream where
  available : Text
  assembler : LineAssembler

namespace WiFiClientLineStream

open LineAssembler

def kMaxBufferedBytes : ℕ := 256

def initial : WiFiClientLineStream := ⟨[], ⟨[], kMaxBufferedBytes, '\n'⟩⟩

/-- The loop of `readLine` over the available bytes. -/
def readLineFrom (assembler : LineAssembler) : Text → Option Text × WiFiClientLineStream
  | [] => (none, ⟨[], assembler⟩)
  | c :: rest =>
    match assembler.feed c with
    | (some line, assembler) => (some line, ⟨rest, assembler⟩)
    | (none, assembler) => readLineFrom assembler rest

def readLine (stream : WiFiClientLineStream) : Option Text × WiFiClientLineStream :=
  readLineFrom stream.assembler stream.available

theorem readLineFrom_shorter {assembler : LineAssembler} {bytes line : Text}
    {stream : WiFiClientLineStream} (h : readLineFrom assembler bytes = (some line, stream)) :
    stream.available.length < bytes.length := by
  induction bytes generalizing assembler with
  | nil => simp [readLineFrom] at h
  | cons c rest ih =>
    rw [readLineFrom] at h
    split at h
    · obtain ⟨-, rfl⟩ := Prod.mk.inj h
      exact Nat.lt_succ_self _
    · exact Nat.lt_succ_of_lt (ih h)

theorem readLineFrom_of_no_segment {cap : ℕ} {t : Char} {current bytes last : Text}
    (h : segmentsFrom t current bytes = ([], last)) :
    readLineFrom (during cap t current) bytes = (none, ⟨[], during cap t last⟩) := by
  induction bytes generalizing current with
  | nil =>
    obtain rfl : current = last := (Prod.mk.inj h).2
    rfl
  | cons c rest ih =>
    rw [segmentsFrom] at h
    split_ifs at h with hc
    · simp at h
    · rw [readLineFrom, feed_other cap hc]
      exact ih h

theorem readLineFrom_of_segment (cap : ℕ) {t : Char} {current bytes segment last : Text}
    {more : List Text} (h : segmentsFrom t current bytes = (segment :: more, last)) :
    ∃ rest, readLineFrom (during cap t current) bytes =
        (some (lineOf cap t segment), ⟨rest, during cap t []⟩) ∧
      segmentsFrom t [] rest = (more, last) := by
  induction bytes generalizing current with
  | nil => simp [segmentsFrom] at h
  | cons c rest ih =>
    rw [segmentsFrom] at h
    split_ifs at h with hc
    · obtain ⟨hsegments, hlast⟩ := Prod.mk.inj h
      obtain ⟨rfl, hmore⟩ := List.cons_eq_cons.mp hsegments
      subst hc
      refine ⟨rest, ?_, Prod.ext hmore hlast⟩
      rw [readLineFrom, feed_terminator]
    · obtain ⟨rest', hread, hrest⟩ := ih h
      refine ⟨rest', ?_, hrest⟩
      rw [readLineFrom, feed_other cap hc]
      exact hread

end WiFiClientLineStream

namespace LocoNetOverTcpPort

open LocoNetOverTcpCodec WiFiClientLineStream LineAssembler

/-- `receive` with `decodeNextMessage`, which calls it again on a line without a message. -/
def receive (stream : WiFiClientLineStream) : Option LocoNetMessage × WiFiClientLineStream :=
  match _hline : stream.readLine with
  | (none, stream) => (none, stream)
  | (some line, rest) =>
    match decodeLine line with
    | some message => (some message, rest)
    | none => receive rest
termination_by stream.available.length
decreasing_by exact readLineFrom_shorter (by assumption)

theorem receive_of_none {stream after : WiFiClientLineStream}
    (h : stream.readLine = (none, after)) : receive stream = (none, after) := by
  rw [receive]
  split
  · next heq => rw [heq] at h; rw [(Prod.mk.inj h).2]
  · next heq => rw [heq] at h; cases (Prod.mk.inj h).1

theorem receive_of_line {stream after : WiFiClientLineStream} {line : Text}
    (h : stream.readLine = (some line, after)) :
    receive stream =
      match decodeLine line with
      | some message => (some message, after)
      | none => receive after := by
  rw [receive]
  split
  · next heq => rw [heq] at h; cases (Prod.mk.inj h).1
  · next heq =>
    rw [heq] at h
    obtain ⟨hline, rfl⟩ := Prod.mk.inj h
    rw [Option.some.inj hline]

/-- The messages that complete segments of the stream carry. -/
def messagesIn (segments : List Text) : List LocoNetMessage :=
  segments.filterMap (fun segment => decodeLine (lineOf kMaxBufferedBytes '\n' segment))

/-- `receive` returns the first message among the complete segments and leaves the others. -/
theorem receive_spec {stream : WiFiClientLineStream} {current last : Text} {segments : List Text}
    (hassembler : stream.assembler = during kMaxBufferedBytes '\n' current)
    (hsegments : segmentsFrom '\n' current stream.available = (segments, last)) :
    (receive stream).1 = (messagesIn segments).head? ∧
      ∃ current' rest, (receive stream).2.assembler = during kMaxBufferedBytes '\n' current' ∧
        segmentsFrom '\n' current' (receive stream).2.available = (rest, last) ∧
          messagesIn rest = (messagesIn segments).tail := by
  induction segments generalizing stream current with
  | nil =>
    have hread : stream.readLine = (none, ⟨[], during kMaxBufferedBytes '\n' last⟩) := by
      rw [readLine, hassembler]
      exact readLineFrom_of_no_segment hsegments
    rw [receive_of_none hread]
    exact ⟨rfl, last, [], rfl, rfl, rfl⟩
  | cons segment more ih =>
    obtain ⟨rest, hread, hrest⟩ := readLineFrom_of_segment kMaxBufferedBytes hsegments
    rw [← hassembler] at hread
    rw [receive_of_line hread]
    rcases hdecode : decodeLine (lineOf kMaxBufferedBytes '\n' segment) with _ | message
    · -- a line without a message is skipped
      have hskip : messagesIn (segment :: more) = messagesIn more := by
        simp [messagesIn, hdecode]
      rw [hskip]
      exact ih rfl hrest
    · have hfirst : messagesIn (segment :: more) = message :: messagesIn more := by
        simp [messagesIn, hdecode]
      rw [hfirst]
      exact ⟨rfl, [], more, rfl, hrest, rfl⟩

end LocoNetOverTcpPort
end Loco2Mqtt
