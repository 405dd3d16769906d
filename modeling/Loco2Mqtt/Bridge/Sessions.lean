import Loco2Mqtt.Adapters.Reconnection
import Loco2Mqtt.Bridge.Seams

/-! The port over any number of connections. A call that finds the connection gone and the
time for an attempt come makes the next one, whatever has still to be read of the last. What
the port returns is made up, session by session, of the frames on the lines it has read to
their end, and what it prints on each connection is a whole number of `SEND` lines. -/

namespace Loco2Mqtt.Sessions

open LocoNetOverTcpCodec LocoNetOverTcpPort LineAssembler Lines InboundTransport Seams Runs
  ReconnectingStream
open WiFiClientLineStream (kMaxBufferedBytes readLineFrom_split)

/-! ### The port and its server -/

/-- From one attempt to connect to the next. A failed attempt makes a session that carries
nothing. `unsent` is the part of the server's lines that has not arrived, and `sent` are the
messages that the port was given while the connection stood. -/
structure Session where
  lines : List SentLine
  unsent : Text
  read : Text
  printed : Text
  sent : List LocoNetMessage

def Session.starting (lines : List SentLine) : Session := ⟨lines, bytesOf lines, [], [], []⟩

structure State where
  port : ReconnectingStream
  past : List Session
  session : Session
  returned : List LocoNetMessage

/-- `receive` makes one call of `readLine` or several. `serving` is what the server will send
on the connection, if the call makes one. -/
inductive Event where
  | arrive (count : ℕ)
  | readLine (answers : Answers) (serving : List SentLine)
  | send (message : LocoNetMessage) (answers : Answers) (aliveThen : Bool)
    (serving : List SentLine)

def initial : State := ⟨ReconnectingStream.initial, [], .starting [], []⟩

def reconnected (s : State) (answers : Answers) (serving : List SentLine) : State :=
  if s.port.isReconnectDue answers then
    { s with
      port := s.port.reconnectIfDue answers
      past := s.past ++ [s.session]
      session := .starting (if answers.connects then serving else []) }
  else s

def step (s : State) : Event → State
  | .arrive count =>
    let available := s.port.lines.available ++ s.session.unsent.take count
    { s with
      port := { s.port with lines := { s.port.lines with available := available } }
      session := { s.session with unsent := s.session.unsent.drop count } }
  | .readLine answers serving =>
    let (line, port) := s.port.readLine answers
    let s := reconnected s answers serving
    let taken := s.port.lines.available.length - port.lines.available.length
    { s with
      port := port
      session := { s.session with
        read := s.session.read ++ s.port.lines.available.take taken }
      returned := s.returned ++ (line.bind decodeLine).toList }
  | .send message answers aliveThen serving =>
    let (text, port) := sendOver s.port answers aliveThen message
    let s := reconnected s answers serving
    { s with
      port := port
      session := { s.session with
        printed := s.session.printed ++ text
        sent := s.session.sent ++ if s.port.isConnected aliveThen then [message] else [] } }

/-- Every connection is served from its greeting on. -/
def Greeted : Event → Prop
  | .arrive _ => True
  | .readLine answers serving => answers.connects → Served serving
  | .send _ answers _ serving => answers.connects → Served serving

/-- The frames on the lines of the session that have been read to their end. -/
def framesRead (session : Session) : List LocoNetMessage :=
  framesOf (session.lines.take (session.read.count '\n'))

/-! ### What is read is accounted for -/

/-- The bytes of the session are where they belong, and the messages returned are those of the
sessions before and those that the session's bytes give onto some leftover. -/
structure Accounted (s : State) : Prop where
  stream : bytesOf s.session.lines = s.session.read ++ s.port.lines.available ++ s.session.unsent
  past : ∀ session ∈ s.past, session.read.IsPrefix (bytesOf session.lines)
  served : s.session.lines = [] ∨ Served s.session.lines
  onto : ∃ leftover, Leftover leftover ∧
    s.port.lines.assembler =
      during kMaxBufferedBytes '\n' (segmentsFrom '\n' leftover s.session.read).2 ∧
    s.returned = s.past.flatMap framesRead ++
      messagesIn (segmentsFrom '\n' leftover s.session.read).1

theorem accounted_initial : Accounted initial where
  stream := rfl
  past := fun _ h => absurd h List.not_mem_nil
  served := Or.inl rfl
  onto := ⟨[], leftover_nil, rfl, rfl⟩

theorem Accounted.read_isPrefix {s : State} (h : Accounted s) :
    s.session.read.IsPrefix (bytesOf s.session.lines) := by
  rw [h.stream, List.append_assoc]
  exact List.prefix_append _ _

/-- Over whatever leftover, the session's bytes give its frames. -/
theorem Accounted.session_frames {s : State} (h : Accounted s) {leftover : Text}
    (hleftover : Leftover leftover) :
    messagesIn (segmentsFrom '\n' leftover s.session.read).1 = framesRead s.session ∧
      Leftover (segmentsFrom '\n' leftover s.session.read).2 := by
  have hread := h.read_isPrefix
  rcases h.served with hnone | hserved
  · rw [hnone, bytesOf, List.flatMap_nil, List.prefix_nil] at hread
    rw [framesRead, hread, hnone]
    exact ⟨rfl, by simpa [segmentsFrom] using hleftover⟩
  · exact messagesIn_session hleftover hserved hread

/-- What was returned are the frames of all sessions. -/
theorem Accounted.returned_eq {s : State} (h : Accounted s) :
    s.returned = (s.past ++ [s.session]).flatMap framesRead := by
  obtain ⟨leftover, hleftover, -, hreturned⟩ := h.onto
  rw [hreturned, (h.session_frames hleftover).1, List.flatMap_append, List.flatMap_singleton]

theorem reconnected_of_due {s : State} {answers : Answers} (h : s.port.isReconnectDue answers)
    (serving : List SentLine) : reconnected s answers serving =
      { s with
        port := s.port.reconnectIfDue answers
        past := s.past ++ [s.session]
        session := .starting (if answers.connects then serving else []) } := by
  rw [reconnected, if_pos h]

theorem reconnected_of_not_due {s : State} {answers : Answers}
    (h : ¬ s.port.isReconnectDue answers) (serving : List SentLine) :
    reconnected s answers serving = s := by
  rw [reconnected, if_neg h]

theorem reconnected_port (s : State) (answers : Answers) (serving : List SentLine) :
    (reconnected s answers serving).port = s.port.reconnectIfDue answers := by
  by_cases hdue : s.port.isReconnectDue answers
  · rw [reconnected_of_due hdue]
  · rw [reconnected_of_not_due hdue, ReconnectingStream.reconnectIfDue_of_not_due hdue]

/-- The line is read once the connection is settled. -/
def readOn (s : State) : State :=
  let (line, lines) := s.port.lines.readLine
  let taken := s.port.lines.available.length - lines.available.length
  { s with
    port := { s.port with lines := lines }
    session := { s.session with read := s.session.read ++ s.port.lines.available.take taken }
    returned := s.returned ++ (line.bind decodeLine).toList }

theorem step_readLine (s : State) (answers : Answers) (serving : List SentLine) :
    step s (.readLine answers serving) = readOn (reconnected s answers serving) := by
  simp only [step, readOn, ReconnectingStream.readLine, reconnected_port]

theorem returned_reconnected (s : State) (answers : Answers) (serving : List SentLine) :
    (reconnected s answers serving).returned = s.returned := by
  rw [reconnected]
  split_ifs <;> rfl

theorem accounted_reconnected {s : State} (h : Accounted s) {answers : Answers}
    {serving : List SentLine} (hserving : answers.connects → Served serving) :
    Accounted (reconnected s answers serving) := by
  by_cases hdue : s.port.isReconnectDue answers
  · obtain ⟨leftover, hleftover, hassembler, hreturned⟩ := h.onto
    obtain ⟨hframes, hlast⟩ := h.session_frames hleftover
    rw [reconnected_of_due hdue, ReconnectingStream.reconnectIfDue_of_due hdue]
    refine ⟨rfl, ?_, ?_, ⟨_, hlast, hassembler, ?_⟩⟩
    · intro session hsession
      rcases List.mem_append.mp hsession with hsession | hsession
      · exact h.past session hsession
      · rw [List.mem_singleton.mp hsession]
        exact h.read_isPrefix
    · simp only [Session.starting]
      split_ifs with hconnects
      · exact Or.inr (hserving hconnects)
      · exact Or.inl rfl
    · rw [hreturned, hframes, List.flatMap_append, List.flatMap_singleton]
      exact (List.append_nil _).symm
  · rwa [reconnected_of_not_due hdue]

theorem accounted_arrive {s : State} (h : Accounted s) (count : ℕ) :
    Accounted (step s (.arrive count)) where
  stream := by
    simp only [step]
    rw [h.stream, List.append_assoc, List.append_assoc, List.append_assoc, List.take_append_drop]
  past := h.past
  served := h.served
  onto := h.onto

/-- Reading takes a piece of the available bytes to the session, and returns the messages that
the piece completes. -/
theorem readOn_eq {s : State} {current : Text}
    (h : s.port.lines.assembler = during kMaxBufferedBytes '\n' current) :
    ∃ taken rest, s.port.lines.available = taken ++ rest ∧
      readOn s =
        { s with
          port := { s.port with
            lines := ⟨rest, during kMaxBufferedBytes '\n' (segmentsFrom '\n' current taken).2⟩ }
          session := { s.session with read := s.session.read ++ taken }
          returned := s.returned ++ messagesIn (segmentsFrom '\n' current taken).1 } := by
  obtain ⟨taken, hbytes, hafter, hline⟩ :=
    readLineFrom_split kMaxBufferedBytes '\n' current s.port.lines.available
  rw [← h] at hbytes hafter hline
  have hread : s.port.lines.readLine =
      WiFiClientLineStream.readLineFrom s.port.lines.assembler s.port.lines.available := rfl
  rw [← hread] at hbytes hafter hline
  refine ⟨taken, s.port.lines.readLine.2.available, hbytes, ?_⟩
  have htaken : s.port.lines.available.take (s.port.lines.available.length -
      s.port.lines.readLine.2.available.length) = taken := by
    have hlength := congrArg List.length hbytes
    rw [List.length_append] at hlength
    rw [hlength, Nat.add_sub_cancel, hbytes, List.take_left]
  have hmessages : (s.port.lines.readLine.1.bind decodeLine).toList =
      messagesIn (segmentsFrom '\n' current taken).1 := by
    rw [messagesIn, ← Function.comp_def, ← List.filterMap_map, ← hline]
    rcases s.port.lines.readLine.1 with _ | line
    · rfl
    · rcases hdecode : decodeLine line with _ | message <;> simp [hdecode]
  simp only [readOn, htaken, hmessages, ← hafter]

theorem accounted_readOn {s : State} (h : Accounted s) : Accounted (readOn s) := by
  obtain ⟨leftover, hleftover, hassembler, hreturned⟩ := h.onto
  obtain ⟨taken, rest, hbytes, hread⟩ := readOn_eq hassembler
  rw [hread]
  refine ⟨?_, h.past, h.served, ⟨leftover, hleftover, ?_, ?_⟩⟩
  · rw [h.stream, hbytes, List.append_assoc, List.append_assoc, List.append_assoc,
      List.append_assoc]
  · rw [segmentsFrom_append]
  · rw [segmentsFrom_append, messagesIn_append, hreturned, List.append_assoc]

theorem accounted_step {s : State} (h : Accounted s) {e : Event} (he : Greeted e) :
    Accounted (step s e) := by
  cases e with
  | arrive count => exact accounted_arrive h count
  | readLine answers serving =>
    rw [step_readLine]
    exact accounted_readOn (accounted_reconnected h he)
  | send message answers aliveThen serving =>
    -- printing has no part in what is read
    have hopened := accounted_reconnected h he
    have hport : (sendOver s.port answers aliveThen message).2 =
        (reconnected s answers serving).port := (reconnected_port s answers serving).symm
    simp only [step, hport]
    exact ⟨hopened.stream, hopened.past, hopened.served, hopened.onto⟩

theorem accounted_run {events : List Event} (h : ∀ e ∈ events, Greeted e) :
    Accounted (run step initial events) :=
  run_invariant (I := Accounted) (A := fun _ e => Greeted e) (fun _ _ hs he => accounted_step hs he)
    accounted_initial (atEachStep_of_forall (fun _ e he => h e he) _)

/-! ### The port's own calls -/

theorem receiveOver_of_none {answers : ℕ → Answers} {stream after : ReconnectingStream}
    (h : stream.readLine (answers 0) = (none, after)) :
    receiveOver answers stream = (none, after) := by
  rw [receiveOver]
  split
  · next heq => rw [heq] at h; rw [(Prod.mk.inj h).2]
  · next heq => rw [heq] at h; cases (Prod.mk.inj h).1

theorem receiveOver_of_line {answers : ℕ → Answers} {stream after : ReconnectingStream}
    {line : Text} (h : stream.readLine (answers 0) = (some line, after)) :
    receiveOver answers stream =
      match decodeLine line with
      | some message => (some message, after)
      | none => receiveOver (fun k => answers (k + 1)) after := by
  rw [receiveOver]
  split
  · next heq => rw [heq] at h; cases (Prod.mk.inj h).1
  · next heq =>
    rw [heq] at h
    obtain ⟨hline, rfl⟩ := Prod.mk.inj h
    obtain rfl := Option.some.inj hline
    rfl

/-- The first `count` calls of `readLine` that a `receive` makes. -/
def readLines (answers : ℕ → Answers) (servings : ℕ → List SentLine) (count : ℕ) : List Event :=
  (List.range count).map (fun k => .readLine (answers k) (servings k))

theorem readLines_succ (answers : ℕ → Answers) (servings : ℕ → List SentLine) (count : ℕ) :
    readLines answers servings (count + 1) = .readLine (answers 0) (servings 0) ::
      readLines (fun k => answers (k + 1)) (fun k => servings (k + 1)) count := by
  rw [readLines, List.range_succ_eq_map, List.map_cons, List.map_map]
  rfl

/-- A call of `receive` is a run of calls of `readLine`, which returns its message. One that
returns none has read everything that was there. -/
theorem receiveOver_eq_run (s : State) (answers : ℕ → Answers) (servings : ℕ → List SentLine) :
    ∃ count, let after := run step s (readLines answers servings count)
      after.port = (receiveOver answers s.port).2 ∧
        after.returned = s.returned ++ (receiveOver answers s.port).1.toList ∧
        ((receiveOver answers s.port).1 = none → after.port.lines.available = []) := by
  induction hlength : s.port.lines.available.length using Nat.strong_induction_on
    generalizing s answers servings with
  | _ length ih =>
  have hport : (step s (.readLine (answers 0) (servings 0))).port =
      (s.port.readLine (answers 0)).2 := rfl
  have hreturned : (step s (.readLine (answers 0) (servings 0))).returned =
      s.returned ++ ((s.port.readLine (answers 0)).1.bind decodeLine).toList := by
    simp only [step, returned_reconnected]
  rcases hread : s.port.readLine (answers 0) with ⟨_ | line, after⟩
  · refine ⟨1, ?_⟩
    rw [receiveOver_of_none hread, readLines_succ, run_cons]
    rw [hread] at hport hreturned
    refine ⟨hport, hreturned, fun _ => ?_⟩
    have hafter : (run step (step s (.readLine (answers 0) (servings 0)))
        (readLines (fun k => answers (k + 1)) (fun k => servings (k + 1)) 0)).port = after := hport
    rw [hafter]
    obtain rfl : (s.port.readLine (answers 0)).2 = after := congrArg Prod.snd hread
    exact WiFiClientLineStream.readLineFrom_exhausts (congrArg Prod.fst hread)
  · rw [hread] at hport hreturned
    rw [receiveOver_of_line hread]
    rcases hdecode : decodeLine line with _ | message
    · have hshorter := ReconnectingStream.readLine_shorter hread
      rw [hlength] at hshorter
      obtain ⟨count, hrest⟩ := ih _ hshorter (step s (.readLine (answers 0) (servings 0)))
        (fun k => answers (k + 1)) (fun k => servings (k + 1)) (by rw [hport])
      refine ⟨count + 1, ?_⟩
      rw [readLines_succ, run_cons]
      simp only [Option.bind_some, hdecode, Option.toList_none, List.append_nil] at hreturned
      rw [hport, hreturned] at hrest
      exact hrest
    · refine ⟨1, ?_⟩
      rw [readLines_succ, run_cons]
      simp only [Option.bind_some, hdecode] at hreturned
      exact ⟨hport, hreturned, fun h => absurd h (Option.some_ne_none _)⟩

/-- Over any number of connections, each broken off anywhere, the messages returned are the
frames on the lines that were read to their end, each once and in order. What was read of a
connection is the beginning of what the server sent on it. A call of `receive` that returns
nothing leaves no line of its connection unread. -/
theorem sessions_account (events : List Event) (hgreeted : ∀ e ∈ events, Greeted e) :
    let s := run step initial events
    s.returned = (s.past ++ [s.session]).flatMap framesRead ∧
      (∀ session ∈ s.past ++ [s.session], session.read.IsPrefix (bytesOf session.lines)) ∧
      bytesOf s.session.lines = s.session.read ++ s.port.lines.available ++ s.session.unsent ∧
      ∀ answers servings, ∃ count, let after := run step s (readLines answers servings count)
        after.port = (receiveOver answers s.port).2 ∧
          after.returned = s.returned ++ (receiveOver answers s.port).1.toList ∧
          ((receiveOver answers s.port).1 = none → after.port.lines.available = []) := by
  intro s
  have haccounted : Accounted s := accounted_run hgreeted
  refine ⟨haccounted.returned_eq, fun session hsession => ?_, haccounted.stream,
    receiveOver_eq_run s⟩
  rcases List.mem_append.mp hsession with hsession | hsession
  · exact haccounted.past session hsession
  · rw [List.mem_singleton.mp hsession]
    exact haccounted.read_isPrefix

/-- The server sends a greeting and two switch reports. -/
def reports : List SentLine :=
  [⟨.other "VERSION JMRI Server 5.2".toList, true⟩, ⟨.data ⟨[0xB1, 0x00, 0x10, 0x5E]⟩, true⟩,
    ⟨.data ⟨[0xB1, 0x01, 0x10, 0x5F]⟩, true⟩]

theorem served_reports : Served reports := by
  refine ⟨⟨_, rfl, by decide, by decide⟩, fun line hline => ?_⟩
  rcases List.mem_cons.mp hline with rfl | hline
  · refine ⟨⟨by decide, by decide⟩, fun frame hframe => ?_⟩
    obtain rfl := Option.some.inj hframe
    decide
  · rw [List.mem_singleton.mp hline]
    refine ⟨⟨by decide, by decide⟩, fun frame hframe => ?_⟩
    obtain rfl := Option.some.inj hframe
    decide

/-- The first connection breaks off in the second report, the next one begins again. -/
def brokenOff : List Event :=
  [.readLine ⟨true, false, 5000, 5000, true⟩ reports, .arrive 60,
    .readLine ⟨true, true, 6000, 6000, true⟩ reports,
    .readLine ⟨true, true, 7000, 7000, true⟩ reports,
    .readLine ⟨true, true, 7000, 7000, true⟩ reports,
    .readLine ⟨true, false, 10000, 10000, true⟩ reports, .arrive 50,
    .readLine ⟨true, true, 11000, 11000, true⟩ reports,
    .readLine ⟨true, true, 11000, 11000, true⟩ reports]

theorem brokenOff_greeted : ∀ e ∈ brokenOff, Greeted e := by
  intro e he
  simp only [brokenOff, List.mem_cons, List.not_mem_nil, or_false] at he
  rcases he with rfl | rfl | rfl | rfl | rfl | rfl | rfl | rfl | rfl <;>
    first | trivial | exact fun _ => served_reports

/-- The first report comes on both connections. The next call takes the bytes of the second that
have come, and returns nothing. -/
theorem sessions_account_brokenOff :
    let s := run step initial brokenOff
    let received := receiveOver (fun _ => ⟨true, true, 11000, 11000, true⟩) s.port
    s.returned = [⟨[0xB1, 0x00, 0x10, 0x5E]⟩, ⟨[0xB1, 0x00, 0x10, 0x5E]⟩] ∧
      (∀ session ∈ s.past ++ [s.session], session.read.IsPrefix (bytesOf session.lines)) ∧
      s.port.lines.available = "RECE".toList ∧ received.1 = none ∧
      received.2.lines.available = [] := by
  intro s received
  obtain ⟨hreturned, hread, -, hreceive⟩ := sessions_account brokenOff brokenOff_greeted
  obtain ⟨count, hport, -, hexhausts⟩ :=
    hreceive (fun _ => ⟨true, true, 11000, 11000, true⟩) (fun _ => reports)
  have hframes : (s.past ++ [s.session]).flatMap framesRead =
      [⟨[0xB1, 0x00, 0x10, 0x5E]⟩, ⟨[0xB1, 0x00, 0x10, 0x5E]⟩] := by decide +kernel
  have hnone : received.1 = none := by decide +kernel
  have hexhausted := hexhausts hnone
  rw [hport] at hexhausted
  exact ⟨hreturned.trans hframes, hread, by decide +kernel, hnone, hexhausted⟩

/-! ### How often a connection is attempted -/

def answersOf : Event → Option Answers
  | .arrive _ => none
  | .readLine answers _ => some answers
  | .send _ answers _ _ => some answers

/-- The polls that the calls make of the retry timer. -/
def polls : State → List Event → List RetryTimer.Poll
  | _, [] => []
  | s, e :: rest => ((answersOf e).map s.port.pollOf).toList ++ polls (step s e) rest

/-- The attempts among them. -/
def dials (events : List Event) : List RetryTimer.Poll :=
  RetryTimer.attempts kReconnectIntervalMs initial.port.lastConnectAttemptAtMillis
    (polls initial events)

theorem step_attempt (s : State) (e : Event) :
    (step s e).port.lastConnectAttemptAtMillis =
        ((answersOf e).map s.port.pollOf).toList.foldl (RetryTimer.step kReconnectIntervalMs)
          s.port.lastConnectAttemptAtMillis ∧
      (step s e).past.length = s.past.length +
        (RetryTimer.attempts kReconnectIntervalMs s.port.lastConnectAttemptAtMillis
          ((answersOf e).map s.port.pollOf).toList).length := by
  have hpast : ∀ answers serving, (reconnected s answers serving).past.length = s.past.length +
      (RetryTimer.attempts kReconnectIntervalMs s.port.lastConnectAttemptAtMillis
        [s.port.pollOf answers]).length := by
    intro answers serving
    rw [RetryTimer.attempts, RetryTimer.attempts, ← isReconnectDue_eq]
    by_cases hdue : s.port.isReconnectDue answers
    · simp [reconnected_of_due hdue, hdue]
    · simp [reconnected_of_not_due hdue, hdue]
  cases e with
  | arrive count => exact ⟨rfl, rfl⟩
  | readLine answers serving => exact ⟨reconnectIfDue_last _ _, hpast answers serving⟩
  | send message answers aliveThen serving =>
    exact ⟨reconnectIfDue_last _ _, hpast answers serving⟩

theorem past_length_run (s : State) (events : List Event) :
    (run step s events).past.length = s.past.length +
      (RetryTimer.attempts kReconnectIntervalMs s.port.lastConnectAttemptAtMillis
        (polls s events)).length := by
  induction events generalizing s with
  | nil => rfl
  | cons e rest ih =>
    obtain ⟨hlast, hpast⟩ := step_attempt s e
    rw [run_cons, ih, hpast, hlast, polls, RetryTimer.attempts_append, List.length_append,
      Nat.add_assoc]

/-- Each session but the first begins with an attempt, and the attempts are throttled: never
two within five seconds of real time, and never a need that goes without one. -/
theorem reconnects_throttled (events : List Event)
    (hordered : RetryTimer.Ordered 0 (polls initial events)) :
    (run step initial events).past.length = (dials events).length ∧
      RetryTimer.Throttled kReconnectIntervalMs 0 (polls initial events) (dials events) := by
  constructor
  · rw [past_length_run]
    exact Nat.zero_add _
  · exact RetryTimer.throttled_attempts hordered

theorem reconnects_throttled_brokenOff :
    (run step initial brokenOff).past.length = 2 ∧
      RetryTimer.Throttled kReconnectIntervalMs 0 (polls initial brokenOff) (dials brokenOff) := by
  obtain ⟨hlength, hthrottled⟩ := reconnects_throttled brokenOff (by decide +kernel)
  have hdials : (dials brokenOff).length = 2 := by decide +kernel
  exact ⟨hlength.trans hdials, hthrottled⟩

end Loco2Mqtt.Sessions
