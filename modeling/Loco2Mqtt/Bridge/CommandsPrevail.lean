import Loco2Mqtt.Bridge.AckAttribution
import Loco2Mqtt.Bridge.ServerToBroker

/-! The device as a command loop. Its requests for states aside, what it sends and keeps
pending is what the abstract loop of commands and pulses sends and keeps pending, whatever
happens to the connection and to the query in between. So as long as no due time wraps, the
frames that have been handed to the port, followed by those still to come, end for each turnout
with the last command for it; and once the server has echoed them all, the topics say the
same. -/

namespace Loco2Mqtt.Device

open LocoNetMessageRouter PendingLocoNetSendScheduler TurnoutLocoNetDecoder TurnoutMqttEncoder
  ChangeLog Runs WrappingClock
open AckAttribution (requestedAddress isSome_requestedAddress)
open CommandLoop (Settling settling_initial settling_step outgoing reported reports reports_append
  commanded PulseUnwrapped)
open DelayLine (kept released)
open OutboundTransport (sentSoFar)
open TurnoutTableStartupQuery (turnoutAddresses requestsOf)

def isRequest (frame : LocoNetMessage) : Bool := (requestedAddress frame).isSome

/-- The loop of commands and pulses, seen in the device. Nothing of it has been echoed. -/
def asLoop (s : State) : CommandLoop.State :=
  { scheduler := ⟨s.scheduler.pending.filter (fun entry => !isRequest entry.message)⟩
    router := LocoNetMessageRouter.initial
    now := s.now
    wire := s.handed.filter (fun frame => !isRequest frame)
    received := 0
    handled := []
    published := []
    commands := s.commands }

/-- What an event of the device is to the loop. -/
def loopEvents (s : State) : Event → List CommandLoop.Event
  | .tick milliseconds => [.tick milliseconds]
  | .schedulerUpdate _ => [.schedulerUpdate]
  | .republish elapsed => [.tick elapsed]
  | .handleCommand _ elapsed =>
    .tick elapsed :: (s.mqtt.receiveCommand.1.map CommandLoop.Event.command).toList
  | _ => []

/-- The counter does not wrap. -/
def ClockUnwrapped (s : State) (e : Event) : Prop := (step s e).now < 2 ^ 32

instance (s : State) (e : Event) : Decidable (ClockUnwrapped s e) := Nat.decLt _ _

/-- The due time of an off-pulse does not wrap. -/
def DueTimesUnwrapped (s : State) : Event → Prop
  | .handleCommand _ elapsed =>
    ∀ message ∈ s.mqtt.receiveCommand.1, PulseUnwrapped (s.now + elapsed) message
  | _ => True

instance (s : State) : ∀ e, Decidable (DueTimesUnwrapped s e)
  | .handleCommand _ elapsed => inferInstanceAs
    (Decidable (∀ message ∈ s.mqtt.receiveCommand.1, PulseUnwrapped (s.now + elapsed) message))
  | .tick _ | .arrive _ | .command _ | .ledUpdate | .schedulerUpdate _ | .readLine _ _
  | .republish _ | .publisherUpdate _ _ | .queryUpdate _ _ => isTrue trivial

/-! ### The simulation -/

theorem requests_filtered (clock : ℕ → UInt32) :
    (requestsOf clock turnoutAddresses 0).filter (fun entry => !isRequest entry.message) = [] := by
  rw [List.filter_eq_nil_iff]
  intro entry hentry
  rw [isRequest, isSome_requestedAddress hentry]
  exact Bool.false_ne_true

theorem isRequest_buildSwReq (command : DomainCommand) (outputOn : Bool) :
    isRequest (TurnoutLocoNetEncoder.buildSwReq command outputOn) = false := rfl

theorem asLoop_handleCommand (s : State) (sending : Sending) (elapsed : ℕ) :
    asLoop (step s (.handleCommand sending elapsed)) =
      run CommandLoop.step (asLoop s) (loopEvents s (.handleCommand sending elapsed)) := by
  rcases hmessage : s.mqtt.receiveCommand with ⟨_ | message, mqtt⟩
  · simp [step, loopEvents, hmessage, CommandLoop.step, asLoop]
  · rcases hcommand : MqttCommandRouter.commandOf message with _ | command
    · simp [step, loopEvents, hmessage, CommandLoop.step, asLoop,
        MqttCommandRouter.handleMessage, hcommand, performAll, transmit]
    · simp [step, loopEvents, hmessage, CommandLoop.step, asLoop,
        MqttCommandRouter.handleMessage, hcommand, performAll_encode, transmit, sendAfter,
        isRequest_buildSwReq]

/-- Each event of the device is a run of the loop. -/
theorem asLoop_step (s : State) (e : Event) :
    asLoop (step s e) = run CommandLoop.step (asLoop s) (loopEvents s e) := by
  cases e with
  | tick | arrive | command | ledUpdate | republish | publisherUpdate => rfl
  | schedulerUpdate sendings =>
    have hkept : (kept dueNat (reading s.now).toNat s.scheduler.pending).filter
        (fun entry => !isRequest entry.message) = kept dueNat (reading s.now).toNat
          (s.scheduler.pending.filter (fun entry => !isRequest entry.message)) :=
      DelayLine.filter_kept _ _ _
    have hreleased : ((released dueNat (reading s.now).toNat s.scheduler.pending).map
        PendingLocoNetSend.message).filter (fun frame => !isRequest frame) =
          (released dueNat (reading s.now).toNat (s.scheduler.pending.filter
            (fun entry => !isRequest entry.message))).map PendingLocoNetSend.message := by
      rw [List.filter_map]
      exact congrArg (List.map _) (DelayLine.filter_released _ _ _)
    simp only [step, transmit, update_eq, asLoop, loopEvents, run_cons, run_nil, CommandLoop.step,
      List.filter_append, hkept, hreleased]
  | readLine answers serving =>
    rcases step_readLine s answers serving with ⟨-, hstep⟩ | ⟨message, -, hstep⟩ <;> rw [hstep] <;>
      rfl
  | queryUpdate alive clock =>
    obtain ⟨query, hstep | ⟨clock', hstep⟩⟩ := step_queryUpdate s alive clock
    · rw [hstep]
      rfl
    · rw [hstep]
      simp only [asLoop, loopEvents, run_nil, List.filter_append, requests_filtered,
        List.append_nil]
  | handleCommand sending elapsed => exact asLoop_handleCommand s sending elapsed

/-- A due time that does not wrap in the device does not wrap in the loop. -/
theorem dueTimesUnwrapped_loopEvents {s : State} {e : Event} (hdue : DueTimesUnwrapped s e) :
    AtEachStep CommandLoop.step CommandLoop.DueTimesUnwrapped (asLoop s) (loopEvents s e) := by
  cases e with
  | tick | schedulerUpdate | republish => exact ⟨trivial, trivial⟩
  | arrive | command | ledUpdate | readLine | publisherUpdate | queryUpdate => exact trivial
  | handleCommand sending elapsed =>
    simp only [loopEvents]
    rcases hmessage : s.mqtt.receiveCommand.1 with _ | message
    · exact ⟨trivial, trivial⟩
    · exact ⟨trivial, hdue message hmessage, trivial⟩

theorem settling_asLoop_step {s : State} {e : Event} (h : Settling (asLoop s))
    (hclock : ClockUnwrapped s e) (hdue : DueTimesUnwrapped s e) :
    Settling (asLoop (step s e)) := by
  have hend : (run CommandLoop.step (asLoop s) (loopEvents s e)).now < 2 ^ 32 := by
    rw [← asLoop_step]
    exact hclock
  rw [asLoop_step]
  exact run_invariant settling_step h (atEachStep_and.mpr
    ⟨atEachStep_lt_of_run CommandLoop.now_step hend, dueTimesUnwrapped_loopEvents hdue⟩)

/-! ### What the frames report -/

theorem reported_of_isRequest {frame : LocoNetMessage} (h : isRequest frame) :
    reported frame = none := by
  obtain ⟨bytes⟩ := frame
  rcases bytes with _ | ⟨opcode, _ | ⟨sw1, _ | ⟨sw2, rest⟩⟩⟩
  iterate 3 simp [isRequest, requestedAddress] at h
  have hopcode : opcode = TurnoutStateRequestEncoder.kOpcSwState := by
    by_contra hne
    simp [isRequest, requestedAddress, hne] at h
  subst hopcode
  have hdispatched : ¬ Dispatched
      ⟨TurnoutStateRequestEncoder.kOpcSwState :: sw1 :: sw2 :: rest⟩ := by
    rintro ⟨-, opcode, hhead, hdecodes⟩
    rw [← Option.some.inj hhead] at hdecodes
    exact absurd hdecodes (by decide)
  rw [reported, LocoNetMessageRouter.reportOf, if_neg hdispatched]

/-- Leaving the requests out leaves no report out. -/
theorem reports_filter (frames : List LocoNetMessage) :
    reports (frames.filter (fun frame => !isRequest frame)) = reports frames := by
  rw [reports, List.filterMap_filter, reports]
  apply List.filterMap_congr
  intro frame _
  rcases hrequest : isRequest frame with _ | _
  · rfl
  · exact (reported_of_isRequest hrequest).symm

theorem reports_outgoing (s : State) : reports (outgoing (asLoop s)) =
    reports (s.handed ++ s.scheduler.pending.map PendingLocoNetSend.message) := by
  have hpending : (s.scheduler.pending.filter (fun entry => !isRequest entry.message)).map
      PendingLocoNetSend.message =
        (s.scheduler.pending.map PendingLocoNetSend.message).filter
          (fun frame => !isRequest frame) := by
    rw [List.filter_map]
    rfl
  rw [outgoing]
  simp only [asLoop]
  rw [hpending, ← List.filter_append, reports_filter]

/-- Without acks, the decoder knows the latest report of each turnout. -/
def KnowsLatest (s : State) : Prop :=
  (∀ message ∈ s.router.messageLog, ¬ IsStateAck message) →
    s.router.decoder.recorded = latest (reports s.router.messageLog)

theorem knowsLatest_handleMessage {s : State} (h : KnowsLatest s) (message : LocoNetMessage) :
    KnowsLatest (handleMessage s message) := by
  simp only [KnowsLatest, handleMessage, handleMessage_eq]
  intro hquiet
  have hreport : LocoNetMessageRouter.reportOf s.router.pendingAcks message = reported message :=
    LocoNetMessageRouter.reportOf_of_not_isStateAck (hquiet message List.mem_concat_self) _ _
  have hrecorded := h (fun m hm => hquiet m (List.mem_append_left _ hm))
  have hreports : reports (s.router.messageLog ++ [message]) =
      reports s.router.messageLog ++ (reported message).toList := by
    rw [reports_append, reports, reports]
    cases hm : reported message <;> simp [hm]
  rw [hreport, (s.router.decoder.absorb_changes _).1, hrecorded, seenAfter_latest, hreports]

theorem knowsLatest_step (s : State) (e : Event) (h : KnowsLatest s) : KnowsLatest (step s e) := by
  cases e with
  | tick | arrive | command | ledUpdate | schedulerUpdate | publisherUpdate => exact h
  | readLine answers serving =>
    rcases step_readLine s answers serving with ⟨-, hstep⟩ | ⟨message, -, hstep⟩
    · rw [hstep]
      exact h
    · rw [hstep]
      exact knowsLatest_handleMessage h message
  | republish elapsed =>
    rcases step_republish s elapsed with hstep | hstep <;> rw [hstep] <;> exact h
  | queryUpdate alive clock =>
    obtain ⟨query, hstep | ⟨clock', hstep⟩⟩ := step_queryUpdate s alive clock <;> rw [hstep] <;>
      exact h
  | handleCommand sending elapsed =>
    rcases step_handleCommand s sending elapsed with ⟨-, hstep⟩ | ⟨command, -, -, hstep⟩ <;>
      rw [hstep] <;> exact h

/-! ### At rest -/

/-- Every frame has found a connection, no pulse is pending, and the server has echoed what it
was sent, without answering a query. -/
structure AtRest (s : State) : Prop where
  connected : sentSoFar s.line = s.handed
  idle : reports (s.scheduler.pending.map PendingLocoNetSend.message) = []
  echoed : ∀ a, latest (reports s.line.returned) a = latest (reports (sentSoFar s.line)) a
  quiet : ∀ message ∈ s.line.returned, ¬ IsStateAck message

/-- Whatever happens to the connection and to the query, as long as neither the counter nor the
due time of an off-pulse wraps, the frames handed to the port and those still pending end for
each turnout with the last command for it. At rest the device knows each turnout in the position
of the last command, and the topics say so. -/
theorem commands_prevail (start : ℕ) (events : List Event)
    (hclock : AtEachStep step ClockUnwrapped (initial start) events)
    (hdue : AtEachStep step DueTimesUnwrapped (initial start) events) :
    let s := run step (initial start) events
    (∀ a, latest (reports (s.handed ++ s.scheduler.pending.map PendingLocoNetSend.message)) a =
        latest s.commands a) ∧
      (AtRest s → ∀ a, s.router.decoder.recorded a = latest s.commands a ∧
        latest (payloads s.published) (stateTopic a) = (latest s.commands a).map payloadOf) := by
  intro s
  have hsettling : Settling (asLoop s) :=
    run_invariant (I := fun s => Settling (asLoop s))
      (fun _ _ hs he => settling_asLoop_step hs he.1 he.2) (settling_initial start)
      (atEachStep_and.mpr ⟨hclock, hdue⟩)
  have hheading : ∀ a, latest (reports (s.handed ++ s.scheduler.pending.map
      PendingLocoNetSend.message)) a = latest s.commands a := by
    intro a
    rw [← reports_outgoing]
    exact hsettling.heading a
  have hconveyed : Conveyed s := conveyed_run start events
  have hknows : KnowsLatest s := by
    apply run_invariant_of_step knowsLatest_step
    intro _
    funext a
    exact Std.TreeMap.getElem?_emptyc
  refine ⟨hheading, fun hrest a => ?_⟩
  have hrecorded : s.router.decoder.recorded a = latest s.commands a := by
    rw [hknows (hconveyed.logged ▸ hrest.quiet), hconveyed.logged, hrest.echoed, hrest.connected,
      ← hheading a, reports_append, hrest.idle, List.append_nil]
  refine ⟨hrecorded, ?_⟩
  rw [← latest_statesOf, hconveyed.mirrors.latest_eq, hrecorded]

/-- The server greets and echoes both pulses of a command for turnout 5. -/
def echoes : List InboundTransport.SentLine :=
  [⟨.other "VERSION JMRI Server 5.2".toList, true⟩, ⟨.data ⟨[0xB0, 0x04, 0x10, 0x5B]⟩, true⟩,
    ⟨.data ⟨[0xB0, 0x04, 0x00, 0x4B]⟩, true⟩]

def standing : ReconnectingStream.Answers := ⟨true, true, 5000, 5000, true⟩

def echoed : List Event :=
  [.readLine ⟨true, false, 5000, 5000, true⟩ echoes,
    .command ⟨"loconet/turnout/5/set".toList, "THROWN".toList⟩,
    .handleCommand ⟨standing, true, []⟩ 0, .tick 250,
    .schedulerUpdate (fun _ => ⟨standing, true, []⟩), .arrive 80, .readLine standing [],
    .readLine standing [], .readLine standing []]

theorem echoed_atRest : AtRest (run step (initial 5000) echoed) := by
  have hreports : reports (run step (initial 5000) echoed).line.returned =
      reports (sentSoFar (run step (initial 5000) echoed).line) := by decide +kernel
  refine ⟨by decide +kernel, by decide +kernel, fun a => by rw [hreports], by decide +kernel⟩

theorem commands_prevail_echoed :
    latest (payloads (run step (initial 5000) echoed).published) (stateTopic 5) =
      some "THROWN".toList := by
  have hclock : AtEachStep step ClockUnwrapped (initial 5000) echoed := by decide +kernel
  have hdue : AtEachStep step DueTimesUnwrapped (initial 5000) echoed := by decide +kernel
  have hcommands : latest (run step (initial 5000) echoed).commands 5 = some .thrown := by
    decide +kernel
  rw [((commands_prevail 5000 echoed hclock hdue).2 echoed_atRest 5).2, hcommands]
  rfl

end Loco2Mqtt.Device
