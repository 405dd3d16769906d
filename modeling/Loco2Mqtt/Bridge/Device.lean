import Loco2Mqtt.Application.ActivityLed
import Loco2Mqtt.Application.JmriConnectionStatusPublisher
import Loco2Mqtt.Application.StartupQuery
import Loco2Mqtt.Bridge.CommandLoop
import Loco2Mqtt.Bridge.CommandQueue
import Loco2Mqtt.Bridge.OutboundTransport

/-! The device in normal operation: everything that `loop` drives, wired as the composition
root wires it, with the JMRI server at the far end of the stream. Events are the steps of the
components, in any order and with any answers from outside. Whatever comes in, the device
says only its own vocabulary: requests for turnouts of the table, pulses for turnouts in
range, states of turnouts in range and the status of the connection. -/

namespace Loco2Mqtt.Device

open LocoNetOverTcpCodec Lines Runs WrappingClock PendingLocoNetSendScheduler Sessions
  OutboundTransport
open CommandLoop (commanded)
open InboundTransport (SentLine)
open TurnoutLocoNetEncoder (buildSwReq kOffPulseDelayMs)
open TurnoutTableStartupQuery (turnoutAddresses requestsOf)

/-! ### The parts and their steps -/

def kActivityFlashDurationMs : UInt32 := 40

/-- What a call of `send` meets with on the stream. -/
structure Sending where
  answers : ReconnectingStream.Answers
  aliveThen : Bool
  serving : List SentLine

/-- `line` is the stream with its server. `handed` is everything handed to `LocoNetPort::send`,
`published` everything handed to `MqttPort::publish`, and `commands` the commands accepted. -/
structure State where
  now : ℕ
  line : Sessions.State
  mqtt : PicoMqttPort
  scheduler : PendingLocoNetSendScheduler
  router : LocoNetMessageRouter
  led : ActivityLed
  publisher : JmriConnectionStatusPublisher
  query : TurnoutTableStartupQuery
  handed : List LocoNetMessage
  published : List MqttMessage
  commands : List (ℤ × TurnoutPosition)

/-- `readLine` is a call by the drain of the message router, `republish` the end of the
router's update, and `handleCommand` one round of the loop of `MqttCommandRouter::update`,
which takes `elapsed` milliseconds until it schedules. -/
inductive Event where
  | tick (milliseconds : ℕ)
  | arrive (count : ℕ)
  | command (message : IncomingMqttMessage)
  | ledUpdate
  | schedulerUpdate (sendings : ℕ → Sending)
  | readLine (answers : ReconnectingStream.Answers) (serving : List SentLine)
  | republish (elapsed : ℕ)
  | publisherUpdate (alive : ℕ → Bool) (clock : ℕ → UInt32)
  | queryUpdate (alive : Bool) (clock : ℕ → UInt32)
  | handleCommand (sending : Sending) (elapsed : ℕ)

def initial (start : ℕ) : State :=
  { now := start
    line := Sessions.initial
    mqtt := PicoMqttPort.initial
    scheduler := ⟨[]⟩
    router := LocoNetMessageRouter.initial
    led := ActivityLed.initial
    publisher := JmriConnectionStatusPublisher.initial
    query := TurnoutTableStartupQuery.initial
    handed := []
    published := []
    commands := [] }

/-- One call of `send` after another. -/
def sendEvents : List LocoNetMessage → (ℕ → Sending) → List Sessions.Event
  | [], _ => []
  | message :: rest, sendings =>
    .send message (sendings 0).answers (sendings 0).aliveThen (sendings 0).serving ::
      sendEvents rest (fun k => sendings (k + 1))

def transmit (s : State) (result : PendingLocoNetSendScheduler × List LocoNetMessage)
    (sendings : ℕ → Sending) : State :=
  { s with
    line := run Sessions.step s.line (sendEvents result.2 sendings)
    scheduler := result.1
    handed := s.handed ++ result.2 }

/-- `FlashingMessageLog::record` and the rest of `handleMessage`. -/
def handleMessage (s : State) (message : LocoNetMessage) : State :=
  let (router, published) := s.router.handleMessage message
  { s with
    led := s.led.flash (reading s.now)
    router := router
    published := s.published ++ published }

def step (s : State) : Event → State
  | .tick milliseconds => { s with now := s.now + milliseconds }
  | .arrive count => { s with line := Sessions.step s.line (.arrive count) }
  | .command message => { s with mqtt := s.mqtt.onCommand message.topic message.payload }
  | .ledUpdate => { s with led := s.led.update kActivityFlashDurationMs (reading s.now) }
  | .schedulerUpdate sendings => transmit s (s.scheduler.update (reading s.now)) sendings
  | .readLine answers serving =>
    let message := (s.line.port.readLine answers).1.bind decodeLine
    let s := { s with line := Sessions.step s.line (.readLine answers serving) }
    (message.map (handleMessage s)).getD s
  | .republish elapsed =>
    let (router, published) := s.router.republishAllKnownStatesIfDue (reading s.now)
      (reading (s.now + elapsed))
    { s with now := s.now + elapsed, router := router, published := s.published ++ published }
  | .publisherUpdate alive clock =>
    let (publisher, published) :=
      s.publisher.update (fun k => s.line.port.isConnected (alive k)) clock
    { s with publisher := publisher, published := s.published ++ published }
  | .queryUpdate alive clock =>
    let (query, pendingAcks, scheduler) :=
      s.query.update (s.line.port.isConnected alive) clock s.router.pendingAcks s.scheduler
    { s with query, scheduler, router := { s.router with pendingAcks } }
  | .handleCommand sending elapsed =>
    let (message, mqtt) := s.mqtt.receiveCommand
    let s := { s with now := s.now + elapsed, mqtt := mqtt }
    match message with
    | none => s
    | some message =>
      transmit { s with commands := s.commands ++ (commanded message).toList }
        (s.scheduler.performAll (reading s.now) (MqttCommandRouter.handleMessage message))
        (fun _ => sending)

/-! ### What a step can do -/

/-- One round of the command router: it takes a message and drops it, or it sends one pulse
and schedules another. -/
theorem step_handleCommand (s : State) (sending : Sending) (elapsed : ℕ) :
    let message := s.mqtt.receiveCommand.1
    let s' := { s with now := s.now + elapsed, mqtt := s.mqtt.receiveCommand.2 }
    message.bind commanded = none ∧ step s (.handleCommand sending elapsed) = s' ∨
      ∃ command : DomainCommand, InRange command.address.value ∧
        message.bind commanded = some (command.address.value, command.position) ∧
        step s (.handleCommand sending elapsed) =
          transmit { s' with commands := s.commands ++ [(command.address.value, command.position)] }
            (s.scheduler.sendAfter (reading (s.now + elapsed)) (buildSwReq command false)
                kOffPulseDelayMs,
              [buildSwReq command true])
            (fun _ => sending) := by
  intro message s'
  rcases hmessage : s.mqtt.receiveCommand with ⟨_ | received, mqtt⟩
  · left
    simp [step, message, s', hmessage]
  · rcases hcommand : MqttCommandRouter.commandOf received with _ | command
    · left
      have hcommanded : commanded received = none := by rw [commanded, hcommand]; rfl
      simp [step, message, s', hmessage, hcommanded, MqttCommandRouter.handleMessage, hcommand,
        performAll, transmit, sendEvents]
    · right
      have hcommanded : commanded received = some (command.address.value, command.position) := by
        rw [commanded, hcommand]; rfl
      refine ⟨command, MqttCommandRouter.commandOf_address_range hcommand, ?_, ?_⟩
      · simp [message, hmessage, hcommanded]
      · simp [step, s', hmessage, hcommanded, MqttCommandRouter.handleMessage, hcommand,
          performAll_encode]

/-- A call of `readLine` returns no message, or one that the router handles. -/
theorem step_readLine (s : State) (answers : ReconnectingStream.Answers)
    (serving : List SentLine) :
    let line := Sessions.step s.line (.readLine answers serving)
    line.returned = s.line.returned ∧ step s (.readLine answers serving) = { s with line } ∨
      ∃ message, line.returned = s.line.returned ++ [message] ∧
        step s (.readLine answers serving) = handleMessage { s with line } message := by
  intro line
  have hreturned : line.returned =
      s.line.returned ++ ((s.line.port.readLine answers).1.bind decodeLine).toList := by
    simp only [line, Sessions.step, returned_reconnected]
  rcases hmessage : (s.line.port.readLine answers).1.bind decodeLine with _ | message
  · left
    rw [hreturned, hmessage]
    simp [step, hmessage, line]
  · right
    refine ⟨message, ?_, ?_⟩
    · rw [hreturned, hmessage]
      rfl
    · simp [step, hmessage, line]

theorem step_readLine_line (s : State) (answers : ReconnectingStream.Answers)
    (serving : List SentLine) : (step s (.readLine answers serving)).line =
      Sessions.step s.line (.readLine answers serving) := by
  rcases step_readLine s answers serving with ⟨-, hstep⟩ | ⟨message, -, hstep⟩ <;> rw [hstep]
  rfl

/-- The router publishes everything it knows, or nothing. -/
theorem step_republish (s : State) (elapsed : ℕ) :
    let s' := { s with now := s.now + elapsed }
    step s (.republish elapsed) = s' ∨
      step s (.republish elapsed) =
        { s' with
          router := { s.router with
            lastRepublishAtMilliseconds := reading (s.now + elapsed) }
          published := s.published ++
            s.router.decoder.allKnownStates.map TurnoutMqttEncoder.encode } := by
  intro s'
  simp only [step, LocoNetMessageRouter.republishAllKnownStatesIfDue]
  split_ifs
  · left
    simp [s']
  · right
    rfl

def statusMessage (connected : Bool) : MqttMessage :=
  ⟨JmriConnectionStatusPublisher.kTopic, JmriConnectionStatusPublisher.payloadOf connected, true⟩

/-- An update of the publisher publishes nothing but the status. -/
theorem update_publishes (publisher : JmriConnectionStatusPublisher) (answers : ℕ → Bool)
    (clock : ℕ → UInt32) :
    ∃ statuses : List Bool, (publisher.update answers clock).2 = statuses.map statusMessage := by
  have hrepublish : ∀ (publisher : JmriConnectionStatusPublisher) (answers : ℕ → Bool)
      (clock : ℕ → UInt32), ∃ statuses : List Bool,
        (publisher.republishIfDue answers clock).2 = statuses.map statusMessage := by
    intro publisher answers clock
    rw [JmriConnectionStatusPublisher.republishIfDue]
    split_ifs
    · exact ⟨[], rfl⟩
    · exact ⟨[answers 0], rfl⟩
  simp only [JmriConnectionStatusPublisher.update, JmriConnectionStatusPublisher.publishIfChanged]
  split_ifs
  · exact hrepublish _ _ _
  · obtain ⟨statuses, hstatuses⟩ := hrepublish ⟨some (answers 0), clock 0⟩
      (fun k => answers (2 + k)) (fun k => clock (1 + k))
    exact ⟨answers 1 :: statuses, congrArg (statusMessage (answers 1) :: ·) hstatuses⟩

theorem step_publisherUpdate (s : State) (alive : ℕ → Bool) (clock : ℕ → UInt32) :
    ∃ publisher, ∃ statuses : List Bool, step s (.publisherUpdate alive clock) =
      { s with publisher, published := s.published ++ statuses.map statusMessage } := by
  obtain ⟨statuses, hstatuses⟩ := update_publishes s.publisher
    (fun k => s.line.port.isConnected (alive k)) clock
  refine ⟨(s.publisher.update (fun k => s.line.port.isConnected (alive k)) clock).1, statuses, ?_⟩
  simp only [step, hstatuses]

/-- An update of the query leaves the queue and the scheduler alone, or adds a round to both. -/
theorem step_queryUpdate (s : State) (alive : Bool) (clock : ℕ → UInt32) :
    ∃ query, step s (.queryUpdate alive clock) = { s with query } ∨
      ∃ clock', step s (.queryUpdate alive clock) =
        { s with
          query
          scheduler := ⟨s.scheduler.pending ++ requestsOf clock' turnoutAddresses 0⟩
          router := { s.router with
            pendingAcks := ⟨s.router.pendingAcks.pendingAddresses ++ turnoutAddresses⟩ } } := by
  rcases hconnected : s.line.port.isConnected alive with _ | _
  · refine ⟨s.query.resetForNextConnection, Or.inl ?_⟩
    simp only [step, hconnected, TurnoutTableStartupQuery.update, Bool.not_false, if_true]
  · obtain ⟨since, used, -, hsame | ⟨-, -, -, hround⟩⟩ := s.query.update_connected clock
      s.router.pendingAcks s.scheduler
    · refine ⟨⟨some since, s.query.queriedThisConnection⟩, Or.inl ?_⟩
      simp only [step, hconnected, hsame]
    · refine ⟨⟨some since, true⟩, Or.inr ⟨fun k => clock (used + 1 + k), ?_⟩⟩
      simp only [step, hconnected, hround]

end Loco2Mqtt.Device
