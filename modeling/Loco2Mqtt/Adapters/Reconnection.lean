import Loco2Mqtt.Adapters.LocoNetOverTcp
import Loco2Mqtt.Foundations.RetryTimer

/-! `WiFiClientLineStream` with its socket, and `LocoNetOverTcpPort` over it. Every call looks
first whether the connection has to be made anew. That drops what the old connection had
delivered without being read, but the line that the assembler holds is kept. -/

namespace Loco2Mqtt

open LocoNetOverTcpCodec WrappingClock

namespace WiFiClientLineStream

open LineAssembler Lines

/-- What `readLine` takes from the available bytes: everything up to the end of the first
line, which it returns, or everything if no line ends. -/
theorem readLineFrom_split (cap : ℕ) (t : Char) (current bytes : Text) :
    let read := readLineFrom (during cap t current) bytes
    ∃ taken, bytes = taken ++ read.2.available ∧
      read.2.assembler = during cap t (segmentsFrom t current taken).2 ∧
      read.1.toList = (segmentsFrom t current taken).1.map (lineOf cap t) := by
  induction bytes generalizing current with
  | nil => exact ⟨[], rfl, rfl, rfl⟩
  | cons c rest ih =>
    by_cases hc : c = t
    · subst hc
      refine ⟨[c], ?_⟩
      simp [readLineFrom, feed_terminator, segmentsFrom]
    · obtain ⟨taken, hbytes, hassembler, hline⟩ := ih (current ++ [c])
      refine ⟨c :: taken, ?_⟩
      rw [readLineFrom, feed_other cap hc, segmentsFrom, if_neg hc]
      exact ⟨congrArg (c :: ·) hbytes, hassembler, hline⟩

theorem readLineFrom_exhausts {assembler : LineAssembler} {bytes : Text}
    (h : (readLineFrom assembler bytes).1 = none) :
    (readLineFrom assembler bytes).2.available = [] := by
  induction bytes generalizing assembler with
  | nil => rfl
  | cons c rest ih =>
    rw [readLineFrom] at h ⊢
    split at h
    · cases h
    · exact ih h

end WiFiClientLineStream

/-- `lines` is the part of the stream that reads. A connection is `opened` from a `connect`
that succeeds to the next `stop`. -/
structure ReconnectingStream where
  opened : Bool
  lines : WiFiClientLineStream
  lastConnectAttemptAtMillis : UInt32

namespace ReconnectingStream

def kReconnectIntervalMs : UInt32 := 5000

def initial : ReconnectingStream := ⟨false, WiFiClientLineStream.initial, 0⟩

/-- What the radio, the socket and the clock answer in one call: `alive` is the answer of
`connected` for a connection that is open, `checkedAt` and `stampedAt` are the instants at
which `millis` is read. -/
structure Answers where
  wifiConnected : Bool
  alive : Bool
  checkedAt : ℕ
  stampedAt : ℕ
  connects : Bool
  deriving DecidableEq, Repr

def isConnected (stream : ReconnectingStream) (alive : Bool) : Bool := stream.opened && alive

def isReconnectDue (stream : ReconnectingStream) (answers : Answers) : Bool :=
  answers.wifiConnected && !stream.isConnected answers.alive &&
    kReconnectIntervalMs ≤ reading answers.checkedAt - stream.lastConnectAttemptAtMillis

/-- `stop` drops the bytes that have not been read. -/
def reconnectIfDue (stream : ReconnectingStream) (answers : Answers) : ReconnectingStream :=
  if !stream.isReconnectDue answers then stream
  else ⟨answers.connects, { stream.lines with available := [] }, reading answers.stampedAt⟩

def readLine (stream : ReconnectingStream) (answers : Answers) :
    Option Text × ReconnectingStream :=
  let stream := stream.reconnectIfDue answers
  let (line, lines) := stream.lines.readLine
  (line, { stream with lines := lines })

/-- What is printed on the connection; `aliveThen` is the second answer of `connected`. -/
def writeLine (stream : ReconnectingStream) (answers : Answers) (aliveThen : Bool)
    (line : Text) : Text × ReconnectingStream :=
  let stream := stream.reconnectIfDue answers
  (if !stream.isConnected aliveThen then [] else cStr line ++ ['\r'], stream)

/-- The poll that the call makes of the retry timer. -/
def pollOf (stream : ReconnectingStream) (answers : Answers) : RetryTimer.Poll :=
  ⟨answers.wifiConnected && !stream.isConnected answers.alive, answers.checkedAt,
    answers.stampedAt⟩

theorem isReconnectDue_eq (stream : ReconnectingStream) (answers : Answers) :
    stream.isReconnectDue answers =
      RetryTimer.due kReconnectIntervalMs stream.lastConnectAttemptAtMillis
        (stream.pollOf answers) := rfl

theorem reconnectIfDue_of_due {stream : ReconnectingStream} {answers : Answers}
    (h : stream.isReconnectDue answers) : stream.reconnectIfDue answers =
      ⟨answers.connects, { stream.lines with available := [] }, reading answers.stampedAt⟩ := by
  rw [reconnectIfDue, h]
  rfl

theorem reconnectIfDue_of_not_due {stream : ReconnectingStream} {answers : Answers}
    (h : ¬ stream.isReconnectDue answers) : stream.reconnectIfDue answers = stream := by
  rw [Bool.not_eq_true] at h
  rw [reconnectIfDue, h]
  rfl

/-- The time of the last attempt is kept as the retry timer keeps it. -/
theorem reconnectIfDue_last (stream : ReconnectingStream) (answers : Answers) :
    (stream.reconnectIfDue answers).lastConnectAttemptAtMillis =
      RetryTimer.step kReconnectIntervalMs stream.lastConnectAttemptAtMillis
        (stream.pollOf answers) := by
  rw [RetryTimer.step, ← isReconnectDue_eq]
  by_cases hdue : stream.isReconnectDue answers
  · rw [reconnectIfDue_of_due hdue, if_pos hdue]
    rfl
  · rw [reconnectIfDue_of_not_due hdue, if_neg hdue]

theorem readLine_shorter {stream after : ReconnectingStream} {answers : Answers} {line : Text}
    (h : stream.readLine answers = (some line, after)) :
    after.lines.available.length < stream.lines.available.length := by
  have hread := congrArg Prod.fst h
  obtain rfl : (stream.readLine answers).2 = after := congrArg Prod.snd h
  have hshort : ∀ assembler bytes, (WiFiClientLineStream.readLineFrom assembler bytes).1 =
      some line →
      (WiFiClientLineStream.readLineFrom assembler bytes).2.available.length < bytes.length :=
    fun _ _ hline => WiFiClientLineStream.readLineFrom_shorter (Prod.ext hline rfl)
  have hless := hshort _ _ hread
  by_cases hdue : stream.isReconnectDue answers
  · rw [reconnectIfDue_of_due hdue] at hless
    exact absurd hless (Nat.not_lt_zero _)
  · rw [reconnectIfDue_of_not_due hdue] at hless
    rw [readLine, reconnectIfDue_of_not_due hdue]
    exact hless

end ReconnectingStream

namespace LocoNetOverTcpPort

open ReconnectingStream

/-- `receive` with `decodeNextMessage`, which calls it again on a line without a message;
`answers k` are the answers in its `k`-th call of `readLine`. -/
def receiveOver (answers : ℕ → Answers) (stream : ReconnectingStream) :
    Option LocoNetMessage × ReconnectingStream :=
  match _hline : stream.readLine (answers 0) with
  | (none, stream) => (none, stream)
  | (some line, rest) =>
    match decodeLine line with
    | some message => (some message, rest)
    | none => receiveOver (fun k => answers (k + 1)) rest
termination_by stream.lines.available.length
decreasing_by exact readLine_shorter (by assumption)

def sendOver (stream : ReconnectingStream) (answers : Answers) (aliveThen : Bool)
    (message : LocoNetMessage) : Text × ReconnectingStream :=
  stream.writeLine answers aliveThen (encodeSend message)

end LocoNetOverTcpPort
end Loco2Mqtt
