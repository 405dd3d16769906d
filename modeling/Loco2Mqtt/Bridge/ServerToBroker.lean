import Loco2Mqtt.Bridge.Device
import Loco2Mqtt.Turnout.ReportHistory

/-! From the server's lines to the broker's topics. Whatever else the device does in between,
the router handles the frames on the lines that were read to their end, over all connections,
each once and in order, and flashes the indicator for each. What stands on the state topics is
the history of reports that these frames and the rounds of the query make. -/

namespace Loco2Mqtt.Device

open LocoNetMessageRouter Lines Runs Sessions ChangeLog TurnoutMqttEncoder TurnoutLocoNetDecoder
open JmriConnectionStatusPublisher (kTopic)
open InboundTransport (SentLine)
open ReportHistory (Decodable historyOf stateAfter)
open Seams (Served)
open TurnoutTableStartupQuery (turnoutAddresses)

/-- Every connection that the call may make is served from its greeting on. -/
def Sending.Greeted (sending : Sending) : Prop := sending.answers.connects → Served sending.serving

def Greeted : Event → Prop
  | .schedulerUpdate sendings => ∀ k, (sendings k).Greeted
  | .readLine answers serving => answers.connects → Served serving
  | .handleCommand sending _ => sending.Greeted
  | _ => True

/-- All frames that the server's lines brought, over all connections. -/
def received (s : State) : List LocoNetMessage :=
  (s.line.past ++ [s.line.session]).flatMap framesRead

def frame? : ReportHistory.Event → Option LocoNetMessage
  | .decode message => some message
  | .expect _ => none

def expected? : ReportHistory.Event → Option ℤ
  | .decode _ => none
  | .expect address => some address.value

/-- The messages published that are not about the connection. -/
def statesOf (published : List MqttMessage) : List MqttMessage :=
  published.filter (fun message => message.topic ≠ kTopic)

/-! ### Topics -/

theorem stateTopic_ne_kTopic (a : ℤ) : stateTopic a ≠ kTopic := by
  intro h
  have hfront : (stateTopic a).take 5 = "locon".toList := rfl
  rw [h] at hfront
  exact absurd hfront (by decide)

theorem statesOf_append_statuses (published : List MqttMessage) (statuses : List Bool) :
    statesOf (published ++ statuses.map statusMessage) = statesOf published := by
  have hnone :
      (statuses.map statusMessage).filter (fun message => message.topic ≠ kTopic) = [] := by
    rw [List.filter_eq_nil_iff]
    intro message hmessage
    obtain ⟨connected, -, rfl⟩ := List.mem_map.mp hmessage
    simp [statusMessage]
  rw [statesOf, List.filter_append, hnone, List.append_nil, statesOf]

theorem statesOf_append_states {published states : List MqttMessage}
    (h : ∀ message ∈ states, ∃ a, message.topic = stateTopic a) :
    statesOf (published ++ states) = statesOf published ++ states := by
  have hall : states.filter (fun message => message.topic ≠ kTopic) = states := by
    rw [List.filter_eq_self]
    intro message hmessage
    obtain ⟨a, ha⟩ := h message hmessage
    simpa [ha] using stateTopic_ne_kTopic a
  rw [statesOf, List.filter_append, hall, statesOf]

/-- On a state topic nothing else has been published. -/
theorem latest_statesOf (published : List MqttMessage) (a : ℤ) :
    latest (payloads (statesOf published)) (stateTopic a) =
      latest (payloads published) (stateTopic a) := by
  have hvalues : values (payloads (statesOf published)) (stateTopic a) =
      values (payloads published) (stateTopic a) := by
    induction published with
    | nil => rfl
    | cons message rest ih =>
      have hcons : payloads (message :: rest) =
          [(message.topic, message.payload)] ++ payloads rest := rfl
      rw [hcons, values_append, ← ih]
      by_cases hstatus : message.topic = kTopic
      · rw [hstatus, values_singleton_of_ne (stateTopic_ne_kTopic a).symm]
        simp [statesOf, hstatus]
      · have hstate : statesOf (message :: rest) = [message] ++ statesOf rest := by
          simp [statesOf, hstatus]
        rw [hstate, payloads_append, values_append]
        rfl
  rw [latest, hvalues, latest]

/-! ### The line -/

theorem greeted_sendEvents {sendings : ℕ → Sending} (h : ∀ k, (sendings k).Greeted)
    (messages : List LocoNetMessage) :
    ∀ e ∈ sendEvents messages sendings, Sessions.Greeted e := by
  induction messages generalizing sendings with
  | nil => exact fun _ he => absurd he List.not_mem_nil
  | cons message rest ih =>
    intro e he
    rcases List.mem_cons.mp he with rfl | he
    · exact h 0
    · exact ih (fun k => h (k + 1)) e he

theorem returned_sendEvents (line : Sessions.State) (messages : List LocoNetMessage)
    (sendings : ℕ → Sending) :
    (run Sessions.step line (sendEvents messages sendings)).returned = line.returned := by
  induction messages generalizing line sendings with
  | nil => rfl
  | cons message rest ih =>
    rw [sendEvents, run_cons, ih]
    simp only [Sessions.step, returned_reconnected]

theorem accounted_sendEvents {line : Sessions.State} (h : Accounted line)
    {sendings : ℕ → Sending} (hgreeted : ∀ k, (sendings k).Greeted)
    (messages : List LocoNetMessage) :
    Accounted (run Sessions.step line (sendEvents messages sendings)) :=
  run_invariant (I := Accounted) (A := fun _ e => Sessions.Greeted e)
    (fun _ _ hs he => accounted_step hs he) h
    (atEachStep_of_forall (fun _ => greeted_sendEvents hgreeted messages) _)

/-! ### The trace -/

theorem dispatched_iff {message : LocoNetMessage} : Dispatched message ↔ Decodable message := by
  rw [Dispatched, Decodable, Option.any_eq_true]
  rfl

theorem stateAfter_expects (trace : List ReportHistory.Event) (addresses : List ℤ) :
    stateAfter (trace ++ addresses.map (fun address => .expect ⟨address⟩)) =
      { stateAfter trace with
        acks := ⟨(stateAfter trace).acks.pendingAddresses ++ addresses⟩ } := by
  induction addresses using List.reverseRecOn with
  | nil => simp
  | append_singleton front address ih =>
    rw [List.map_append, ← List.append_assoc, stateAfter, run_append, ← stateAfter, ih]
    simp [ReportHistory.step, PendingTurnoutStateAcks.expect]

/-- The frames of the trace are those that were logged, the addresses that it expects are
those of so many rounds, and it leaves the decoder and the queue as they are. -/
structure Replays (router : LocoNetMessageRouter) (rounds : ℕ)
    (trace : List ReportHistory.Event) : Prop where
  decodable : ∀ event ∈ trace, event.Decodable
  frames : trace.filterMap frame? = router.messageLog.filter (fun message => Decodable message)
  expected : trace.filterMap expected? = (List.replicate rounds turnoutAddresses).flatten
  decoder : (stateAfter trace).decoder = router.decoder
  acks : (stateAfter trace).acks = router.pendingAcks

theorem replays_initial : Replays LocoNetMessageRouter.initial 0 [] where
  decodable := fun _ h => absurd h List.not_mem_nil
  frames := rfl
  expected := rfl
  decoder := rfl
  acks := rfl

variable {router : LocoNetMessageRouter} {rounds : ℕ} {trace : List ReportHistory.Event}

theorem replays_handleMessage (h : Replays router rounds trace) (message : LocoNetMessage) :
    ∃ trace, Replays (router.handleMessage message).1 rounds trace := by
  rw [handleMessage_eq]
  by_cases hmessage : Decodable message
  · have hdispatched := dispatched_iff.mpr hmessage
    have hafter : stateAfter (trace ++ [.decode message]) =
        ReportHistory.step (stateAfter trace) (.decode message) := run_concat _ _ _ _
    have hdecode := TurnoutLocoNetDecoder.decode_eq (stateAfter trace).decoder
      (stateAfter trace).acks message hmessage.three_le
    rw [ReportHistory.step, hdecode, h.decoder, h.acks] at hafter
    refine ⟨trace ++ [.decode message], fun event hevent => ?_, ?_, ?_, ?_, ?_⟩
    · rcases List.mem_append.mp hevent with hevent | hevent
      · exact h.decodable event hevent
      · rw [List.mem_singleton.mp hevent]
        exact hmessage
    · simp [List.filterMap_append, List.filter_append, h.frames, frame?, hmessage]
    · simp [List.filterMap_append, h.expected, expected?]
    · rw [hafter, LocoNetMessageRouter.reportOf, if_pos hdispatched]
    · rw [hafter, LocoNetMessageRouter.acksAfter, if_pos hdispatched]
  · -- a frame that is not dispatched leaves no trace
    have hdispatched : ¬ Dispatched message := fun hd => hmessage (dispatched_iff.mp hd)
    refine ⟨trace, h.decodable, ?_, h.expected, ?_, ?_⟩
    · simp [List.filter_append, h.frames, hmessage]
    · rw [h.decoder, LocoNetMessageRouter.reportOf, if_neg hdispatched]
      rfl
    · rw [h.acks, LocoNetMessageRouter.acksAfter, if_neg hdispatched]

theorem replays_round (h : Replays router rounds trace) :
    ∃ trace, Replays { router with
      pendingAcks := ⟨router.pendingAcks.pendingAddresses ++ turnoutAddresses⟩ } (rounds + 1)
      trace := by
  refine ⟨trace ++ turnoutAddresses.map (fun address => .expect ⟨address⟩),
    fun event hevent => ?_, ?_, ?_, ?_, ?_⟩
  · rcases List.mem_append.mp hevent with hevent | hevent
    · exact h.decodable event hevent
    · obtain ⟨address, -, rfl⟩ := List.mem_map.mp hevent
      trivial
  · rw [List.filterMap_append, h.frames, List.filterMap_map]
    simp [Function.comp_def, frame?]
  · have hround : (turnoutAddresses.map
        (fun address => ReportHistory.Event.expect ⟨address⟩)).filterMap expected? =
          turnoutAddresses := by
      rw [List.filterMap_map]
      exact List.filterMap_some
    rw [List.filterMap_append, h.expected, hround, List.replicate_succ', List.flatten_append,
      List.flatten_singleton]
  · rw [stateAfter_expects]
    exact h.decoder
  · rw [stateAfter_expects, h.acks]

/-! ### Runs -/

/-- What the line returned has been handled, and the state topics mirror what the decoder
recorded. -/
structure Conveyed (s : State) : Prop where
  logged : s.router.messageLog = s.line.returned
  flashed : s.led.written.count .high = s.router.messageLog.length
  replayed : ∃ rounds trace, Replays s.router rounds trace
  mirrors : Mirrors s.router.decoder.recorded (statesOf s.published)

theorem conveyed_initial (start : ℕ) : Conveyed (initial start) where
  logged := rfl
  flashed := rfl
  replayed := ⟨0, [], replays_initial⟩
  mirrors := by
    have hrecorded : (initial start).router.decoder.recorded = fun _ => none := by
      funext a
      exact Std.TreeMap.getElem?_emptyc
    rw [hrecorded]
    exact Mirrors.empty

/-- Sending has no part in it. -/
theorem conveyed_transmit {s : State} (h : Conveyed s)
    (result : PendingLocoNetSendScheduler × List LocoNetMessage) (sendings : ℕ → Sending) :
    Conveyed (transmit s result sendings) := by
  refine ⟨?_, h.flashed, h.replayed, h.mirrors⟩
  simp only [transmit, returned_sendEvents]
  exact h.logged

/-- More messages that keep the mirror are all about turnouts. -/
theorem mirrors_append {recorded : ℤ → Option TurnoutPosition} {published states : List MqttMessage}
    (h : Mirrors recorded (statesOf published ++ states)) :
    Mirrors recorded (statesOf (published ++ states)) := by
  rw [statesOf_append_states]
  · exact h
  · intro message hmessage
    obtain ⟨a, -, ha⟩ := h.only message (List.mem_append_right _ hmessage)
    exact ⟨a, ha⟩

/-- The line returns a message, and the router handles it. -/
theorem conveyed_message {s : State} (h : Conveyed s) {line : Sessions.State}
    {message : LocoNetMessage} (hreturned : line.returned = s.line.returned ++ [message]) :
    Conveyed (handleMessage { s with line } message) := by
  obtain ⟨rounds, trace, hreplays⟩ := h.replayed
  have hlogged : (handleMessage { s with line } message).router.messageLog =
      s.router.messageLog ++ [message] := by
    simp only [handleMessage, handleMessage_eq]
  refine ⟨?_, ?_, ⟨rounds, replays_handleMessage hreplays message⟩, ?_⟩
  · rw [hlogged, h.logged]
    exact hreturned.symm
  · rw [hlogged, List.length_append, ← h.flashed]
    simp [handleMessage, ActivityLed.flash]
  · have hdrain := h.mirrors.drain [message]
    simp only [LocoNetMessageRouter.drain, List.append_nil] at hdrain
    exact mirrors_append hdrain

theorem conveyed_republish {s : State} (h : Conveyed s) (elapsed : ℕ) :
    Conveyed (step s (.republish elapsed)) := by
  rcases step_republish s elapsed with hstep | hstep
  · rw [hstep]
    exact ⟨h.logged, h.flashed, h.replayed, h.mirrors⟩
  · obtain ⟨rounds, trace, hreplays⟩ := h.replayed
    rw [hstep]
    exact ⟨h.logged, h.flashed, ⟨rounds, trace, hreplays.decodable, hreplays.frames,
      hreplays.expected, hreplays.decoder, hreplays.acks⟩, mirrors_append h.mirrors.only.republish⟩

theorem conveyed_queryUpdate {s : State} (h : Conveyed s) (alive : Bool) (clock : ℕ → UInt32) :
    Conveyed (step s (.queryUpdate alive clock)) := by
  obtain ⟨query, hstep | ⟨clock', hstep⟩⟩ := step_queryUpdate s alive clock
  · rw [hstep]
    exact ⟨h.logged, h.flashed, h.replayed, h.mirrors⟩
  · obtain ⟨rounds, trace, hreplays⟩ := h.replayed
    rw [hstep]
    exact ⟨h.logged, h.flashed, ⟨rounds + 1, replays_round hreplays⟩, h.mirrors⟩

theorem conveyed_step (s : State) (e : Event) (h : Conveyed s) : Conveyed (step s e) := by
  cases e with
  | tick | arrive | command => exact ⟨h.logged, h.flashed, h.replayed, h.mirrors⟩
  | ledUpdate =>
    refine ⟨h.logged, ?_, h.replayed, h.mirrors⟩
    simp only [step, ActivityLed.update]
    split_ifs
    · simpa using h.flashed
    · exact h.flashed
  | schedulerUpdate sendings => exact conveyed_transmit h _ sendings
  | readLine answers serving =>
    rcases step_readLine s answers serving with ⟨hreturned, hstep⟩ | ⟨message, hreturned, hstep⟩
    · rw [hstep]
      exact ⟨h.logged.trans hreturned.symm, h.flashed, h.replayed, h.mirrors⟩
    · rw [hstep]
      exact conveyed_message h hreturned
  | republish elapsed => exact conveyed_republish h elapsed
  | publisherUpdate alive clock =>
    obtain ⟨publisher, statuses, hstep⟩ := step_publisherUpdate s alive clock
    rw [hstep]
    refine ⟨h.logged, h.flashed, h.replayed, ?_⟩
    rw [statesOf_append_statuses]
    exact h.mirrors
  | queryUpdate alive clock => exact conveyed_queryUpdate h alive clock
  | handleCommand sending elapsed =>
    rcases step_handleCommand s sending elapsed with ⟨-, hstep⟩ | ⟨command, -, -, hstep⟩
    · rw [hstep]
      exact ⟨h.logged, h.flashed, h.replayed, h.mirrors⟩
    · rw [hstep]
      apply conveyed_transmit
      exact ⟨h.logged, h.flashed, h.replayed, h.mirrors⟩

theorem conveyed_run (start : ℕ) (events : List Event) :
    Conveyed (run step (initial start) events) :=
  run_invariant_of_step conveyed_step (conveyed_initial start) events

theorem accounted_line_step {s : State} (h : Accounted s.line) {e : Event} (he : Greeted e) :
    Accounted (step s e).line := by
  cases e with
  | tick | command | ledUpdate | republish | publisherUpdate | queryUpdate => exact h
  | arrive count => exact accounted_arrive h count
  | schedulerUpdate sendings => exact accounted_sendEvents h he _
  | readLine answers serving =>
    rw [step_readLine_line]
    exact accounted_step h (e := .readLine answers serving) he
  | handleCommand sending elapsed =>
    rcases step_handleCommand s sending elapsed with ⟨-, hstep⟩ | ⟨command, -, -, hstep⟩
    · rw [hstep]
      exact h
    · rw [hstep]
      exact accounted_sendEvents h (fun _ => he) _

theorem accounted_line_run (start : ℕ) {events : List Event} (h : ∀ e ∈ events, Greeted e) :
    Accounted (run step (initial start) events).line :=
  run_invariant (I := fun s : State => Accounted s.line) (A := fun _ e => Greeted e)
    (fun _ _ hs he => accounted_line_step hs he) accounted_initial
    (atEachStep_of_forall (fun _ e he => h e he) _)

/-- Whatever the device does in between, the router handles the frames that the server's lines
brought, over all connections, each once and in order, and flashes for each. With the rounds of
the query they make a history of reports: the decoder knows the latest of each turnout, the
last payload on each state topic is that position, and no other topic is used but that of the
status. -/
theorem published_is_reported (start : ℕ) (events : List Event)
    (hgreeted : ∀ e ∈ events, Greeted e) :
    let s := run step (initial start) events
    s.router.messageLog = received s ∧ s.led.written.count .high = (received s).length ∧
      ∃ rounds trace,
        trace.filterMap frame? = (received s).filter (fun message => Decodable message) ∧
        trace.filterMap expected? = (List.replicate rounds turnoutAddresses).flatten ∧
        (∀ a, s.router.decoder.recorded a = latest (historyOf trace).reports a ∧
          latest (payloads s.published) (stateTopic a) =
            (latest (historyOf trace).reports a).map payloadOf) ∧
        ∀ message ∈ s.published, message.topic = kTopic ∨
          ∃ a, latest (historyOf trace).reports a ≠ none ∧ message.topic = stateTopic a := by
  intro s
  have hconveyed : Conveyed s := conveyed_run start events
  have hlog : s.router.messageLog = received s :=
    hconveyed.logged.trans (accounted_line_run start hgreeted).returned_eq
  obtain ⟨rounds, trace, hreplays⟩ := hconveyed.replayed
  have hrecorded : s.router.decoder.recorded = latest (historyOf trace).reports := by
    rw [← hreplays.decoder]
    exact (ReportHistory.agrees_after trace hreplays.decodable).recorded
  refine ⟨hlog, hlog ▸ hconveyed.flashed, rounds, trace, hlog ▸ hreplays.frames,
    hreplays.expected, fun a => ⟨congrFun hrecorded a, ?_⟩, fun message hmessage => ?_⟩
  · rw [← latest_statesOf, hconveyed.mirrors.latest_eq, hrecorded]
  · by_cases hstatus : message.topic = kTopic
    · exact Or.inl hstatus
    · right
      rw [← hrecorded]
      exact hconveyed.mirrors.only message (List.mem_filter.mpr ⟨hmessage, by simpa using hstatus⟩)

/-- The server reports two turnouts as thrown, and the second report is still to come when the
router repeats what it knows. -/
def firstReport : List Event :=
  [.readLine ⟨true, false, 5000, 5000, true⟩ Sessions.reports, .arrive 50, .tick 40000,
    .readLine ⟨true, true, 45000, 45000, true⟩ Sessions.reports,
    .readLine ⟨true, true, 45000, 45000, true⟩ Sessions.reports, .republish 0]

theorem published_is_reported_firstReport :
    (run step (initial 0) firstReport).router.messageLog =
      received (run step (initial 0) firstReport) := by
  refine (published_is_reported 0 firstReport (fun e he => ?_)).1
  simp only [firstReport, List.mem_cons, List.not_mem_nil, or_false] at he
  rcases he with rfl | rfl | rfl | rfl | rfl | rfl <;>
    first | trivial | exact fun _ => served_reports

end Loco2Mqtt.Device
