import Loco2Mqtt.Bridge.Sessions

/-! What goes out through the transport. A message that `send` finds a connection for is
printed on it as one `SEND` line, ended by a carriage return, and the others are dropped. So
whatever reads a connection up to its carriage returns finds the messages that were printed on
it, each on a line of its own, with no rest, and can read every byte of them back. -/

namespace Loco2Mqtt.OutboundTransport

open LocoNetOverTcpCodec LocoNetOverTcpPort Words Lines Runs Sessions ReconnectingStream

/-- What the tokens behind `SEND` say, read as the codec reads its own lines. -/
def bytesOfSend (line : Text) : Option (List UInt8) :=
  parseTokens (words isSpace (line.drop "SEND ".toList.length))

def deliveredBy (s : State) : Event → List LocoNetMessage
  | .send message answers aliveThen _ =>
    if (s.port.reconnectIfDue answers).isConnected aliveThen then [message] else []
  | _ => []

/-- The messages that `send` finds a connection for, in the course of the events. -/
def delivered : State → List Event → List LocoNetMessage
  | _, [] => []
  | s, e :: rest => deliveredBy s e ++ delivered (step s e) rest

/-! ### One line -/

/-- A printed frame consists of digits and single spaces. -/
theorem mem_describe {c : Char} {message : LocoNetMessage} (h : c ∈ message.describe) :
    c = ' ' ∨ isXDigit c := by
  have hbyte : ∀ value : UInt8, ∀ c ∈ byteToHex value, isXDigit c := by
    intro value c hc
    have htoken := (byteToHex_read value).1
    rw [byteToHex, isHexByteToken, Bool.and_eq_true] at htoken
    rcases List.mem_cons.mp hc with rfl | hc
    · exact htoken.1
    · rw [List.mem_singleton.mp hc]
      exact htoken.2
  have hfrom : ∀ (bytes : List UInt8) (i : ℕ), c ∈ LocoNetMessage.describeFrom i bytes →
      c = ' ' ∨ isXDigit c := by
    intro bytes
    induction bytes with
    | nil => exact fun _ hc => absurd hc List.not_mem_nil
    | cons byte rest ih =>
      intro i hc
      rw [LocoNetMessage.describeFrom, List.mem_append, List.mem_append] at hc
      rcases hc with (hsep | hdigit) | hrest
      · split_ifs at hsep
        · exact Or.inl (List.mem_singleton.mp hsep)
        · exact absurd hsep List.not_mem_nil
      · exact Or.inr (hbyte byte c hdigit)
      · exact ih (i + 1) hrest
  exact hfrom message.bytes 0 h

theorem not_mem_encodeSend {c : Char} (hword : c ∉ "SEND ".toList) (hdigit : ¬ isXDigit c)
    (message : LocoNetMessage) : c ∉ encodeSend message := by
  rw [encodeSend, List.mem_append, not_or]
  refine ⟨hword, fun hc => ?_⟩
  rcases mem_describe hc with rfl | hc
  · exact hword (by decide)
  · exact hdigit hc

theorem bytesOfSend_encodeSend (message : LocoNetMessage) :
    bytesOfSend (encodeSend message) = some message.bytes := by
  rw [bytesOfSend, encodeSend, List.drop_left, words_describe, parseTokens_map]

/-- Nothing of the line is lost as a C string. -/
theorem sendOver_fst (stream : ReconnectingStream) (answers : Answers) (aliveThen : Bool)
    (message : LocoNetMessage) : (sendOver stream answers aliveThen message).1 =
      if (stream.reconnectIfDue answers).isConnected aliveThen then encodeSend message ++ ['\r']
      else [] := by
  have hwhole : cStr (encodeSend message) = encodeSend message :=
    cStr_eq_self_iff.mpr (not_mem_encodeSend (by decide) (by decide) message)
  rw [sendOver, writeLine, hwhole]
  cases (stream.reconnectIfDue answers).isConnected aliveThen <;> rfl

/-! ### Runs -/

/-- The session printed the lines of its messages and nothing else. -/
def Whole (session : Session) : Prop :=
  session.printed = (session.sent.map encodeSend).flatMap (· ++ ['\r'])

/-- Read up to its carriage returns, such a session falls apart into its lines. -/
theorem Whole.segments_printed {session : Session} (h : Whole session) :
    segments '\r' session.printed = (session.sent.map encodeSend, []) := by
  rw [h]
  apply segments_bodies
  intro line hline
  obtain ⟨message, -, rfl⟩ := List.mem_map.mp hline
  exact not_mem_encodeSend (by decide) (by decide) message

def AllWhole (s : State) : Prop := (∀ session ∈ s.past, Whole session) ∧ Whole s.session

theorem AllWhole.whole {s : State} (h : AllWhole s) {session : Session}
    (hsession : session ∈ s.past ++ [s.session]) : Whole session := by
  rcases List.mem_append.mp hsession with hsession | hsession
  · exact h.1 session hsession
  · exact List.mem_singleton.mp hsession ▸ h.2

/-- All messages that were printed, over all sessions. -/
def sentSoFar (s : State) : List LocoNetMessage := (s.past ++ [s.session]).flatMap Session.sent

theorem allWhole_initial : AllWhole initial := ⟨fun _ h => absurd h List.not_mem_nil, rfl⟩

theorem allWhole_reconnected {s : State} (h : AllWhole s) (answers : Answers)
    (serving : List InboundTransport.SentLine) :
    AllWhole (reconnected s answers serving) ∧
      sentSoFar (reconnected s answers serving) = sentSoFar s := by
  by_cases hdue : s.port.isReconnectDue answers
  · rw [reconnected_of_due hdue]
    exact ⟨⟨fun session hsession => h.whole hsession, rfl⟩, by simp [sentSoFar, Session.starting]⟩
  · rw [reconnected_of_not_due hdue]
    exact ⟨h, rfl⟩

theorem allWhole_step {s : State} (h : AllWhole s) (e : Event) :
    AllWhole (step s e) ∧ sentSoFar (step s e) = sentSoFar s ++ deliveredBy s e := by
  cases e with
  | arrive count => exact ⟨h, by simp [sentSoFar, step, deliveredBy]⟩
  | readLine answers serving =>
    obtain ⟨hwhole, hsent⟩ := allWhole_reconnected h answers serving
    refine ⟨hwhole, ?_⟩
    rw [← hsent]
    simp [sentSoFar, step, deliveredBy]
  | send message answers aliveThen serving =>
    obtain ⟨⟨hpast, hlast⟩, hsent⟩ := allWhole_reconnected h answers serving
    rw [← hsent]
    simp only [step, deliveredBy, sendOver_fst, reconnected_port]
    refine ⟨⟨hpast, ?_⟩, by simp [sentSoFar]⟩
    rw [Whole] at hlast
    rw [Whole, hlast]
    cases (s.port.reconnectIfDue answers).isConnected aliveThen <;> simp

theorem allWhole_run {s : State} (h : AllWhole s) (events : List Event) :
    AllWhole (run step s events) ∧
      sentSoFar (run step s events) = sentSoFar s ++ delivered s events := by
  induction events generalizing s with
  | nil => exact ⟨h, (List.append_nil _).symm⟩
  | cons e rest ih =>
    obtain ⟨hwhole, hsent⟩ := allWhole_step h e
    obtain ⟨hwhole', hsent'⟩ := ih hwhole
    refine ⟨hwhole', ?_⟩
    rw [run_cons, hsent', hsent, delivered, List.append_assoc]

/-- Whatever happens to the connections, what is printed on each of them is a number of whole
`SEND` lines that can be read back, and put together these are the messages that were given to
`send` while there was a connection, each once and in order. -/
theorem outbound_lines (events : List Event) :
    let s := run step initial events
    (∀ session ∈ s.past ++ [s.session],
      segments '\r' session.printed = (session.sent.map encodeSend, []) ∧
        (segments '\r' session.printed).1.map bytesOfSend =
          session.sent.map (fun message => some message.bytes)) ∧
      sentSoFar s = delivered initial events := by
  intro s
  obtain ⟨hwhole, hsent⟩ := allWhole_run allWhole_initial events
  refine ⟨fun session hsession => ?_, hsent⟩
  have hlines := (hwhole.whole hsession).segments_printed
  refine ⟨hlines, ?_⟩
  rw [hlines, List.map_map]
  exact List.map_congr_left (fun message _ => bytesOfSend_encodeSend message)

end Loco2Mqtt.OutboundTransport
