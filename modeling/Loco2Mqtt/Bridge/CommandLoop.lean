import Loco2Mqtt.Application.CommandRouter
import Loco2Mqtt.Application.MessageRouter
import Loco2Mqtt.Application.SendScheduler
import Loco2Mqtt.Foundations.Runs

/-! The loop from an accepted command through the bus and back. Commands put an on-pulse on
the wire at once and an off-pulse into the scheduler; every frame on the wire is echoed once
to the message router, in order and at any later time. Followed by the frames still pending,
the wire ends, for each turnout, with the last command given for it. When nothing is pending
and no echo is outstanding, that is what the router has recorded and published. An off-pulse
whose due time wraps is the exception, since it may go out before one that comes first. -/

namespace Loco2Mqtt.CommandLoop

open LocoNetMessageRouter PendingLocoNetSendScheduler TurnoutLocoNetEncoder TurnoutLocoNetDecoder
  TurnoutMqttEncoder ChangeLog DelayLine WrappingClock Runs

/-! ### Pulses -/

/-- The frames the command encoder makes. -/
def IsPulse (message : LocoNetMessage) : Prop :=
  ∃ (command : DomainCommand) (outputOn : Bool),
    InRange command.address.value ∧ message = buildSwReq command outputOn

/-- An `OPC_SW_REQ` with the output bit clear. -/
def isOffPulse (message : LocoNetMessage) : Bool :=
  message.bytes[0]? = some kOpcSwReq && message.bytes[2]?.any (fun sw2 => sw2 &&& kOutputOnBit = 0)

/-- The position a frame reports when no ack is pending. -/
def reported (message : LocoNetMessage) : Option (ℤ × TurnoutPosition) :=
  LocoNetMessageRouter.reportOf ⟨[]⟩ message

theorem buildSwReq_of_inRange {command : DomainCommand} (h : InRange command.address.value)
    (outputOn : Bool) :
    ∃ z : ℕ, z < 2048 ∧ command.address.value = z + 1 ∧
      buildSwReq command outputOn = checksummed kOpcSwReq (UInt8.ofNat (z % 128))
        (sw2Of (z / 128) command.position outputOn) := by
  obtain ⟨⟨value⟩, position⟩ := command
  obtain ⟨hlow, hhigh⟩ : 1 ≤ value ∧ value ≤ 2048 := h
  obtain ⟨z, hz⟩ : ∃ z : ℕ, value = z + 1 := ⟨(value - 1).toNat, by omega⟩
  have hlt : z < 2048 := by omega
  refine ⟨z, hlt, hz, ?_⟩
  rw [← buildSwReq_eq hlt position outputOn, hz]

/-- Either pulse of a command reports its position, whatever acks are pending. -/
theorem reportOf_buildSwReq {command : DomainCommand} (h : InRange command.address.value)
    (outputOn : Bool) (acks : PendingTurnoutStateAcks) :
    LocoNetMessageRouter.reportOf acks (buildSwReq command outputOn) =
        some (command.address.value, command.position) ∧
      LocoNetMessageRouter.acksAfter acks (buildSwReq command outputOn) = acks ∧
      isOffPulse (buildSwReq command outputOn) = !outputOn := by
  obtain ⟨z, hz, hvalue, hframe⟩ := buildSwReq_of_inRange h outputOn
  obtain ⟨-, hposition, -, houtput⟩ :=
    sw2Of_fields ⟨z / 128, by omega⟩ command.position outputOn
  have haddress := addressOf_packed hz command.position outputOn
  have hdispatched : Dispatched (buildSwReq command outputOn) := by
    rw [hframe]
    exact ⟨le_refl _, kOpcSwReq, rfl, by decide⟩
  have hop : kOpcSwReq ≠ kOpcLongAck := by decide
  have hrep : kOpcSwReq ≠ kOpcSwRep := by decide
  refine ⟨?_, ?_, ?_⟩
  · rw [LocoNetMessageRouter.reportOf, if_pos hdispatched, hframe]
    simp only at hposition
    simp [TurnoutLocoNetDecoder.reportOf, checksummed, hop, hrep, hposition, haddress, hvalue]
  · rw [LocoNetMessageRouter.acksAfter, if_pos hdispatched, hframe]
    simp [TurnoutLocoNetDecoder.acksAfter, IsStateAck, checksummed, hop]
  · rw [hframe]
    simp only at houtput
    simp only [isOffPulse, checksummed, List.getElem?_cons_zero, List.getElem?_cons_succ,
      decide_true, Bool.true_and, Option.any_some]
    cases outputOn <;> simp_all

theorem IsPulse.reportOf {message : LocoNetMessage} (h : IsPulse message)
    (acks : PendingTurnoutStateAcks) :
    LocoNetMessageRouter.reportOf acks message = reported message ∧
      LocoNetMessageRouter.acksAfter acks message = acks := by
  obtain ⟨command, outputOn, hrange, rfl⟩ := h
  obtain ⟨hreport, hacks, -⟩ := reportOf_buildSwReq hrange outputOn acks
  exact ⟨hreport.trans (reportOf_buildSwReq hrange outputOn ⟨[]⟩).1.symm, hacks⟩

theorem reported_buildSwReq {command : DomainCommand} (h : InRange command.address.value)
    (outputOn : Bool) :
    reported (buildSwReq command outputOn) = some (command.address.value, command.position) :=
  (reportOf_buildSwReq h outputOn ⟨[]⟩).1

/-- The positions a list of frames reports. -/
def reports (frames : List LocoNetMessage) : List (ℤ × TurnoutPosition) :=
  frames.filterMap reported

theorem reports_append (frames more : List LocoNetMessage) :
    reports (frames ++ more) = reports frames ++ reports more :=
  List.filterMap_append

theorem reportsOf_pulses {frames : List LocoNetMessage} (h : ∀ m ∈ frames, IsPulse m)
    (acks : PendingTurnoutStateAcks) : reportsOf acks frames = reports frames := by
  induction frames with
  | nil => rfl
  | cons message rest ih =>
    obtain ⟨hreport, hacks⟩ := (h message List.mem_cons_self).reportOf acks
    have hrest := ih (fun m hm => h m (List.mem_cons_of_mem _ hm))
    rw [reportsOf, hreport, hacks, hrest, reports, reports, List.filterMap_cons]
    cases reported message <;> rfl

/-! ### The loop -/

/-- A `routerUpdate` receives at most `echoes` of the frames sent and not yet echoed, and
takes `elapsed` milliseconds between its two clock readings. -/
inductive Event where
  | tick (milliseconds : ℕ)
  | command (message : IncomingMqttMessage)
  | schedulerUpdate
  | routerUpdate (echoes elapsed : ℕ)
  deriving DecidableEq, Repr

/-- `wire` is every frame sent so far, of which the first `received` have been echoed.
`handled` pairs each of these with what the router published on it, `published` has the
periodic republishes as well, and `commands` are the commands accepted. -/
structure State where
  scheduler : PendingLocoNetSendScheduler
  router : LocoNetMessageRouter
  now : ℕ
  wire : List LocoNetMessage
  received : ℕ
  handled : List (LocoNetMessage × List MqttMessage)
  published : List MqttMessage
  commands : List (ℤ × TurnoutPosition)

/-- The clock may start at any instant. -/
def initial (start : ℕ) : State := ⟨⟨[]⟩, LocoNetMessageRouter.initial, start, [], 0, [], [], []⟩

/-- The messages of a drain, each with what is published on it. -/
def trace (router : LocoNetMessageRouter) :
    List LocoNetMessage → List (LocoNetMessage × List MqttMessage)
  | [] => []
  | message :: rest =>
    let (router, published) := router.handleMessage message
    (message, published) :: trace router rest

/-- The command a message is accepted as, as a report. -/
def commanded (message : IncomingMqttMessage) : Option (ℤ × TurnoutPosition) :=
  (MqttCommandRouter.commandOf message).map
    (fun command => (command.address.value, command.position))

def step (s : State) : Event → State
  | .tick milliseconds => { s with now := s.now + milliseconds }
  | .command message =>
    let (scheduler, sent) :=
      s.scheduler.performAll (reading s.now) (MqttCommandRouter.handleMessage message)
    { s with
      scheduler
      wire := s.wire ++ sent
      commands := s.commands ++ (commanded message).toList }
  | .schedulerUpdate =>
    let (scheduler, sent) := s.scheduler.update (reading s.now)
    { s with scheduler, wire := s.wire ++ sent }
  | .routerUpdate echoes elapsed =>
    let echoed := (s.wire.drop s.received).take echoes
    let (router, published) := s.router.update echoed (reading s.now) (reading (s.now + elapsed))
    { s with
      router
      now := s.now + elapsed
      received := s.received + echoed.length
      handled := s.handled ++ trace s.router echoed
      published := s.published ++ published }

/-- The counter does not wrap. -/
def ClockUnwrapped (s : State) (e : Event) : Prop := (step s e).now < 2 ^ 32

instance (s : State) (e : Event) : Decidable (ClockUnwrapped s e) := Nat.decLt _ _

/-- The off-pulse of the message, if it is accepted, falls due before the wrap. -/
def PulseUnwrapped (now : ℕ) (message : IncomingMqttMessage) : Prop :=
  (commanded message).isSome → DueUnwrapped now kOffPulseDelayMs.toNat

instance (now : ℕ) (message : IncomingMqttMessage) : Decidable (PulseUnwrapped now message) :=
  inferInstanceAs (Decidable (_ → _))

/-- The due time of an off-pulse does not wrap. -/
def DueTimesUnwrapped (s : State) : Event → Prop
  | .command message => PulseUnwrapped s.now message
  | _ => True

instance (s : State) : ∀ e, Decidable (DueTimesUnwrapped s e)
  | .command message => inferInstanceAs (Decidable (PulseUnwrapped s.now message))
  | .tick _ | .schedulerUpdate | .routerUpdate _ _ => isTrue trivial

/-- Nothing is pending and every frame has been echoed. -/
def Drained (s : State) : Prop := s.scheduler.pending = [] ∧ s.received = s.wire.length

instance (s : State) : Decidable (Drained s) := inferInstanceAs (Decidable (_ ∧ _))

/-- The recorded positions and the published state are the last command for each turnout, and
nothing else. -/
structure Converged (s : State) : Prop where
  recorded : ∀ a, s.router.decoder.recorded a = latest s.commands a
  published : ∀ a,
    latest (payloads s.published) (stateTopic a) = (latest s.commands a).map payloadOf
  only : ∀ message ∈ s.published, ∃ a, latest s.commands a ≠ none ∧ message.topic = stateTopic a

theorem now_step (s : State) (e : Event) : s.now ≤ (step s e).now := by
  cases e with
  | command | schedulerUpdate => exact le_refl _
  | tick | routerUpdate => exact Nat.le_add_right _ _

/-- What a command does: nothing, or one pulse sent and one scheduled. -/
theorem step_command (s : State) (message : IncomingMqttMessage) :
    step s (.command message) = s ∧ commanded message = none ∨
      ∃ command : DomainCommand, InRange command.address.value ∧
        commanded message = some (command.address.value, command.position) ∧
        step s (.command message) =
          { s with
            scheduler := s.scheduler.sendAfter (reading s.now) (buildSwReq command false)
              kOffPulseDelayMs
            wire := s.wire ++ [buildSwReq command true]
            commands := s.commands ++ [(command.address.value, command.position)] } := by
  rcases hcommand : MqttCommandRouter.commandOf message with _ | command
  · left
    have hcommanded : commanded message = none := by rw [commanded, hcommand]; rfl
    refine ⟨?_, hcommanded⟩
    simp [step, MqttCommandRouter.handleMessage, hcommand, hcommanded, performAll]
  · right
    have hcommanded : commanded message = some (command.address.value, command.position) := by
      rw [commanded, hcommand]; rfl
    refine ⟨command, MqttCommandRouter.commandOf_address_range hcommand, hcommanded, ?_⟩
    simp [step, MqttCommandRouter.handleMessage, hcommand, hcommanded, performAll_encode]

/-! ### What holds in every state -/

/-- The frames on the wire and those still to be sent, in order. -/
def outgoing (s : State) : List LocoNetMessage :=
  s.wire ++ s.scheduler.pending.map PendingLocoNetSend.message

/-- The frames the router has handled. -/
def handledFrames (s : State) : List LocoNetMessage := s.handled.map Prod.fst

structure Wired (s : State) : Prop where
  pulses : ∀ m ∈ outgoing s, IsPulse m
  bounded : s.received ≤ s.wire.length
  echoed : handledFrames s = s.wire.take s.received
  recorded : s.router.decoder.recorded = latest (reports (handledFrames s))
  mirrors : Mirrors s.router.decoder.recorded s.published

theorem map_fst_trace (router : LocoNetMessageRouter) (messages : List LocoNetMessage) :
    (trace router messages).map Prod.fst = messages := by
  induction messages generalizing router with
  | nil => rfl
  | cons message rest ih => simp only [trace, List.map_cons, ih]

theorem take_received {wire : List LocoNetMessage} (received echoes : ℕ) :
    wire.take (received + ((wire.drop received).take echoes).length) =
      wire.take received ++ (wire.drop received).take echoes := by
  rw [List.take_add, List.length_take, ← List.take_eq_take_min]

theorem wired_initial (start : ℕ) : Wired (initial start) := by
  have hrecorded : (initial start).router.decoder.recorded = fun _ => none := by
    funext a
    simp [initial, LocoNetMessageRouter.initial, TurnoutLocoNetDecoder.recorded]
  refine ⟨fun m hm => absurd hm List.not_mem_nil, le_refl _, rfl, hrecorded, ?_⟩
  rw [hrecorded]
  exact Mirrors.empty

/-- Sending pulses and keeping others pending. -/
theorem Wired.of_sent {s : State} (h : Wired s) {scheduler : PendingLocoNetSendScheduler}
    {sent : List LocoNetMessage} (commands : List (ℤ × TurnoutPosition))
    (hsent : ∀ m ∈ sent, IsPulse m)
    (hpending : ∀ entry ∈ scheduler.pending, IsPulse entry.message) :
    Wired { s with scheduler, wire := s.wire ++ sent, commands } := by
  refine ⟨fun m hm => ?_, ?_, ?_, h.recorded, h.mirrors⟩
  · simp only [outgoing, List.mem_append, List.mem_map] at hm
    rcases hm with (hm | hm) | ⟨entry, hentry, rfl⟩
    · exact h.pulses m (List.mem_append_left _ hm)
    · exact hsent m hm
    · exact hpending entry hentry
  · have hbound := h.bounded
    simp only [List.length_append]
    omega
  · rw [List.take_append_of_le_length h.bounded]
    exact h.echoed

theorem Wired.pending {s : State} (h : Wired s) :
    ∀ entry ∈ s.scheduler.pending, IsPulse entry.message := fun entry hentry =>
  h.pulses entry.message (List.mem_append_right _ (List.mem_map_of_mem hentry))

/-- The router reads the next frames of the wire. -/
theorem wired_routerUpdate {s : State} (h : Wired s) (echoes elapsed : ℕ) :
    Wired (step s (.routerUpdate echoes elapsed)) := by
  have hframes : handledFrames (step s (.routerUpdate echoes elapsed)) =
      handledFrames s ++ (s.wire.drop s.received).take echoes := by
    simp only [step, handledFrames, List.map_append, map_fst_trace]
  have hpulses : ∀ m ∈ (s.wire.drop s.received).take echoes, IsPulse m := fun m hm =>
    h.pulses m (List.mem_append_left _ (List.mem_of_mem_drop (List.mem_of_mem_take hm)))
  refine ⟨h.pulses, ?_, ?_, ?_, h.mirrors.update _ _ _⟩
  · simp only [step, List.length_take, List.length_drop]
    have hbound := h.bounded
    omega
  · rw [hframes, h.echoed]
    exact (take_received s.received echoes).symm
  · rw [hframes, reports_append]
    simp only [step, update_decoder]
    rw [(s.router.drain_changes _).1, reportsOf_pulses hpulses, h.recorded, seenAfter_latest]

theorem wired_step (s : State) (e : Event) (h : Wired s) : Wired (step s e) := by
  cases e with
  | tick milliseconds => exact ⟨h.pulses, h.bounded, h.echoed, h.recorded, h.mirrors⟩
  | command message =>
    rcases step_command s message with ⟨hsame, -⟩ | ⟨command, hrange, -, hstep⟩
    · rw [hsame]
      exact h
    · rw [hstep]
      apply h.of_sent
      · intro m hm
        rw [List.mem_singleton.mp hm]
        exact ⟨command, true, hrange, rfl⟩
      · intro entry hentry
        rcases List.mem_append.mp hentry with hold | hnew
        · exact h.pending entry hold
        · rw [List.mem_singleton.mp hnew]
          exact ⟨command, false, hrange, rfl⟩
  | schedulerUpdate =>
    simp only [step, update_eq]
    apply h.of_sent
    · intro m hm
      obtain ⟨entry, hentry, rfl⟩ := List.mem_map.mp hm
      exact h.pending entry (mem_released.mp hentry).1
    · exact fun entry hentry => h.pending entry ((kept_sublist _ _).subset hentry)
  | routerUpdate echoes elapsed => exact wired_routerUpdate h echoes elapsed

/-! ### Where the wire is heading -/

/-- Off-pulses are pending in the order in which they fall due, and once they are all on the
wire its last report for each turnout is the last command for it. -/
structure Settling (s : State) : Prop where
  ascending : Ascending dueNat s.scheduler.pending
  soon : ∀ entry ∈ s.scheduler.pending, dueNat entry ≤ s.now + kOffPulseDelayMs.toNat
  heading : ∀ a, latest (reports (outgoing s)) a = latest s.commands a

theorem settling_initial (start : ℕ) : Settling (initial start) :=
  ⟨List.Pairwise.nil, fun _ h => absurd h List.not_mem_nil, fun _ => rfl⟩

/-- The two pulses of a command among the reports: one ahead of what is pending, one behind. -/
theorem latest_outgoing_command (s : State) {command : DomainCommand}
    (hrange : InRange command.address.value) (a : ℤ) :
    latest (reports (s.wire ++ [buildSwReq command true] ++
        (s.scheduler.sendAfter (reading s.now) (buildSwReq command false)
          kOffPulseDelayMs).pending.map PendingLocoNetSend.message)) a =
      if command.address.value = a then some command.position
      else latest (reports (outgoing s)) a := by
  have hreports : reports (s.wire ++ [buildSwReq command true] ++
      (s.scheduler.sendAfter (reading s.now) (buildSwReq command false)
        kOffPulseDelayMs).pending.map PendingLocoNetSend.message) =
      reports s.wire ++ [(command.address.value, command.position)] ++
        reports (s.scheduler.pending.map PendingLocoNetSend.message) ++
          [(command.address.value, command.position)] := by
    simp [reports, sendAfter, reported_buildSwReq hrange]
  rw [hreports, latest_concat, latest_append, latest_concat, outgoing, reports_append,
    latest_append]
  -- the off-pulse comes last, so it decides for its turnout
  split_ifs <;> rfl

/-- A command's off-pulse falls due after all that are pending. -/
theorem settling_command {s : State} (h : Settling s) (message : IncomingMqttMessage)
    (hunwrapped : PulseUnwrapped s.now message) : Settling (step s (.command message)) := by
  rcases step_command s message with ⟨hsame, -⟩ | ⟨command, hrange, hcommanded, hstep⟩
  · rw [hsame]
    exact h
  · have hdue : dueNat ⟨buildSwReq command false, reading s.now + kOffPulseDelayMs⟩ =
        s.now + kOffPulseDelayMs.toNat :=
      dueNat_of_unwrapped (hunwrapped (by rw [hcommanded]; rfl)) _
    rw [hstep]
    refine ⟨?_, ?_, fun a => ?_⟩
    · apply h.ascending.append (List.pairwise_singleton _ _)
      intro entry hentry late hlate
      rw [List.mem_singleton.mp hlate, hdue]
      exact h.soon entry hentry
    · intro entry hentry
      rcases List.mem_append.mp hentry with hold | hnew
      · exact h.soon entry hold
      · rw [List.mem_singleton.mp hnew, hdue]
    · simp only [outgoing]
      rw [latest_outgoing_command s hrange, latest_concat, h.heading a]

theorem settling_step (s : State) (e : Event) (h : Settling s)
    (hwrap : ClockUnwrapped s e ∧ DueTimesUnwrapped s e) : Settling (step s e) := by
  cases e with
  | tick milliseconds =>
    refine ⟨h.ascending, fun entry hentry => ?_, h.heading⟩
    have hsoon := h.soon entry hentry
    simp only [step]
    omega
  | command message => exact settling_command h message hwrap.2
  | schedulerUpdate =>
    have hnow : (reading s.now).toNat = s.now := toNat_reading_of_lt hwrap.1
    have hfront := h.ascending.released_append_kept s.now
    simp only [step, update_eq, hnow]
    refine ⟨h.ascending.kept _, fun entry hentry => h.soon entry ((kept_sublist _ _).subset hentry),
      fun a => ?_⟩
    rw [← h.heading a]
    simp only [outgoing, List.append_assoc, ← List.map_append, hfront]
  | routerUpdate echoes elapsed =>
    refine ⟨h.ascending, fun entry hentry => ?_, h.heading⟩
    have hsoon := h.soon entry hentry
    simp only [step]
    omega

/-- In every run in which no off-pulse's due time wraps, once nothing is pending and every frame
has been echoed, the recorded positions and the published state are those of the last command
for each turnout. -/
theorem command_loop_converges (start : ℕ) (events : List Event)
    (hclock : AtEachStep step ClockUnwrapped (initial start) events)
    (hdue : AtEachStep step DueTimesUnwrapped (initial start) events)
    (hdrained : Drained (run step (initial start) events)) :
    Converged (run step (initial start) events) := by
  have hwired : Wired (run step (initial start) events) :=
    run_invariant_of_step wired_step (wired_initial start) events
  have hsettling : Settling (run step (initial start) events) :=
    run_invariant settling_step (settling_initial start) (atEachStep_and.mpr ⟨hclock, hdue⟩)
  generalize run step (initial start) events = s at hdrained hwired hsettling ⊢
  obtain ⟨hpending, hreceived⟩ := hdrained
  have hrecorded : ∀ a, s.router.decoder.recorded a = latest s.commands a := by
    intro a
    have hall : handledFrames s = outgoing s := by
      rw [hwired.echoed, outgoing, hpending, hreceived, List.take_length, List.map_nil,
        List.append_nil]
    rw [hwired.recorded, hall]
    exact hsettling.heading a
  refine ⟨hrecorded, fun a => ?_, fun message hmem => ?_⟩
  · rw [hwired.mirrors.latest_eq, hrecorded]
  · obtain ⟨a, hknown, htopic⟩ := hwired.mirrors.only message hmem
    rw [hrecorded] at hknown
    exact ⟨a, hknown, htopic⟩

/-- Two opposite commands for turnout 5 within 100 milliseconds, and the time for both
off-pulses to leave and come back. -/
def opposing : List Event :=
  [.command ⟨"loconet/turnout/5/set".toList, "THROWN".toList⟩, .tick 100,
    .command ⟨"loconet/turnout/5/set".toList, "CLOSED".toList⟩, .tick 300, .schedulerUpdate,
    .routerUpdate 4 0]

theorem command_loop_converges_opposing :
    (run step (initial 0) opposing).router.decoder.recorded 5 = some .closed ∧
      latest (payloads (run step (initial 0) opposing).published) (stateTopic 5) =
        some "CLOSED".toList := by
  have hloop := command_loop_converges 0 opposing (by decide) (by decide) (by decide)
  have hcommands : latest (run step (initial 0) opposing).commands 5 = some .closed := by decide
  rw [hloop.recorded, hloop.published, hcommands]
  exact ⟨rfl, rfl⟩

/-- Opposite commands 300 and 200 milliseconds before the counter wraps. -/
def opposingBeforeWrap : List Event :=
  [.command ⟨"loconet/turnout/5/set".toList, "THROWN".toList⟩, .tick 100,
    .command ⟨"loconet/turnout/5/set".toList, "CLOSED".toList⟩, .tick 10, .schedulerUpdate,
    .tick 150, .schedulerUpdate, .routerUpdate 4 0]

/-- The off-pulse of the last command, whose due time has wrapped, goes out before that of the
first, and the turnout is recorded as the first command has it. -/
theorem command_loop_diverges_before_wrap :
    AtEachStep step ClockUnwrapped (initial (2 ^ 32 - 300)) opposingBeforeWrap ∧
      Drained (run step (initial (2 ^ 32 - 300)) opposingBeforeWrap) ∧
      latest (run step (initial (2 ^ 32 - 300)) opposingBeforeWrap).commands 5 = some .closed ∧
      (run step (initial (2 ^ 32 - 300)) opposingBeforeWrap).router.decoder.recorded 5 =
        some .thrown ∧
      ¬ Converged (run step (initial (2 ^ 32 - 300)) opposingBeforeWrap) := by
  have hlast : latest (run step (initial (2 ^ 32 - 300)) opposingBeforeWrap).commands 5 =
      some .closed := by decide
  have hrecorded : (run step (initial (2 ^ 32 - 300))
      opposingBeforeWrap).router.decoder.recorded 5 = some .thrown := by decide
  refine ⟨by decide, by decide, hlast, hrecorded, fun h => ?_⟩
  have hsame := h.recorded 5
  rw [hrecorded, hlast] at hsame
  cases hsame

end Loco2Mqtt.CommandLoop
