import Loco2Mqtt.Bridge.ServerToBroker

/-! `loop` in normal operation, pass after pass. Each pass lets every component do its work
once: the router reads until there is nothing to read, and the commands are handled until none
is waiting. So nothing that had come in when its turn came is left for the next pass, and the
pulses that throw the turnouts leave in the order of the commands. -/

namespace Loco2Mqtt.Device

open LocoNetOverTcpCodec Runs Sessions PendingLocoNetSendScheduler PicoMqttPort
open CommandLoop (commanded isOffPulse reportOf_buildSwReq)
open InboundTransport (SentLine bytesOf)
open Seams (Served)
open TurnoutLocoNetEncoder (buildSwReq)
open TurnoutTableStartupQuery (turnoutAddresses requestsOf requestsOf_messages)

/-! ### One pass -/

/-- What a call of `readLine` meets with; `arrived` bytes have come since the one before. -/
structure Read where
  arrived : ℕ
  answers : ReconnectingStream.Answers
  serving : List SentLine

/-- What one pass meets with. It waits before each of its calls, and `callbacks` are the
messages that the broker has for the subscription. -/
structure Pass where
  waits : ℕ → ℕ
  callbacks : List IncomingMqttMessage
  sendings : ℕ → Sending
  reads : ℕ → Read
  republishing : ℕ
  statusAlive : ℕ → Bool
  statusClock : ℕ → UInt32
  queryAlive : Bool
  queryClock : ℕ → UInt32
  handlings : ℕ → Sending × ℕ

/-- The bytes of the connection that have not been read. -/
def toRead (s : State) : ℕ := s.line.port.lines.available.length + s.line.session.unsent.length

theorem toRead_arrive (s : State) (count : ℕ) : toRead (step s (.arrive count)) = toRead s := by
  simp only [toRead, step, Sessions.step, List.length_append, List.length_take, List.length_drop]
  omega

/-- A call that returns a line has not connected anew, and leaves less to read. -/
theorem toRead_readLine {s : State} {answers : ReconnectingStream.Answers} {line : Text}
    (h : (s.line.port.readLine answers).1 = some line) (serving : List SentLine) :
    toRead (step s (.readLine answers serving)) < toRead s := by
  have hshorter := ReconnectingStream.readLine_shorter (Prod.ext h rfl)
  have hdue : ¬ s.line.port.isReconnectDue answers := by
    intro hdue
    rw [ReconnectingStream.readLine, ReconnectingStream.reconnectIfDue_of_due hdue] at h
    cases h
  rw [toRead, step_readLine_line]
  simp only [Sessions.step, reconnected_of_not_due hdue]
  exact Nat.add_lt_add_right hshorter _

/-- `LocoNetMessageRouter::update` until `receive` yields none, one call of `readLine` after
another. -/
def drain (reads : ℕ → Read) (s : State) : State :=
  let s' := step s (.arrive (reads 0).arrived)
  let after := step s' (.readLine (reads 0).answers (reads 0).serving)
  match _hline : (s'.line.port.readLine (reads 0).answers).1 with
  | none => after
  | some _ => drain (fun k => reads (k + 1)) after
termination_by toRead s
decreasing_by exact lt_of_lt_of_eq (toRead_readLine (by assumption) _) (toRead_arrive s _)

section Drain

variable {reads : ℕ → Read} {s : State}

/-- The call of `readLine` finds nothing, and the loop ends. -/
theorem drain_of_none (h : ((step s (.arrive (reads 0).arrived)).line.port.readLine
      (reads 0).answers).1 = none) :
    drain reads s = step (step s (.arrive (reads 0).arrived))
      (.readLine (reads 0).answers (reads 0).serving) := by
  rw [drain]
  split
  · rfl
  · next hsome => rw [h] at hsome; cases hsome

theorem drain_of_some {line : Text} (h : ((step s (.arrive (reads 0).arrived)).line.port.readLine
      (reads 0).answers).1 = some line) :
    drain reads s = drain (fun k => reads (k + 1)) (step (step s (.arrive (reads 0).arrived))
      (.readLine (reads 0).answers (reads 0).serving)) := by
  rw [drain]
  split
  · next hnone => rw [h] at hnone; cases hnone
  · rfl

end Drain

theorem step_handleCommand_mqtt (s : State) (sending : Sending) (elapsed : ℕ) :
    (step s (.handleCommand sending elapsed)).mqtt = s.mqtt.receiveCommand.2 := by
  rcases step_handleCommand s sending elapsed with ⟨-, hstep⟩ | ⟨command, -, -, hstep⟩ <;>
    rw [hstep]
  rfl

/-- `MqttCommandRouter::update`. -/
def handleCommands (handlings : ℕ → Sending × ℕ) (s : State) : State :=
  let after := step s (.handleCommand (handlings 0).1 (handlings 0).2)
  match _hmessage : s.mqtt.receiveCommand.1 with
  | none => after
  | some _ => handleCommands (fun k => handlings (k + 1)) after
termination_by s.mqtt.pendingCommands.length
decreasing_by
  rw [step_handleCommand_mqtt]
  exact receiveCommand_shorter (Prod.ext (by assumption) rfl)

section HandleCommands

variable {handlings : ℕ → Sending × ℕ} {s : State}

/-- No command is waiting, and the loop ends. -/
theorem handleCommands_of_none (h : s.mqtt.receiveCommand.1 = none) :
    handleCommands handlings s = step s (.handleCommand (handlings 0).1 (handlings 0).2) := by
  rw [handleCommands]
  split
  · rfl
  · next hsome => rw [h] at hsome; cases hsome

theorem handleCommands_of_some {message : IncomingMqttMessage}
    (h : s.mqtt.receiveCommand.1 = some message) :
    handleCommands handlings s = handleCommands (fun k => handlings (k + 1))
      (step s (.handleCommand (handlings 0).1 (handlings 0).2)) := by
  rw [handleCommands]
  split
  · next hnone => rw [h] at hnone; cases hnone
  · rfl

end HandleCommands

def pass (s : State) (p : Pass) : State :=
  let s := run step s [.tick (p.waits 0), .ledUpdate, .tick (p.waits 1)]
  let s := run step s (p.callbacks.map .command)
  let s := run step s [.tick (p.waits 2), .schedulerUpdate p.sendings, .tick (p.waits 3)]
  let s := drain p.reads s
  let s := run step s [.tick (p.waits 4), .republish p.republishing, .tick (p.waits 5),
    .publisherUpdate p.statusAlive p.statusClock, .tick (p.waits 6),
    .queryUpdate p.queryAlive p.queryClock, .tick (p.waits 7)]
  handleCommands p.handlings s

/-! ### A pass as a run -/

def Pass.Greeted (p : Pass) : Prop :=
  (∀ k, (p.sendings k).Greeted) ∧
    (∀ k, (p.reads k).answers.connects → Served (p.reads k).serving) ∧
    ∀ k, (p.handlings k).1.Greeted

/-- Some events, with every connection served from its greeting on, lead there. -/
def Reaches (s s' : State) : Prop := ∃ events, (∀ e ∈ events, Greeted e) ∧ s' = run step s events

theorem reaches_run {s : State} {events : List Event} (h : ∀ e ∈ events, Greeted e) :
    Reaches s (run step s events) := ⟨events, h, rfl⟩

theorem Reaches.append {s s' s'' : State} (h : Reaches s s') (h' : Reaches s' s'') :
    Reaches s s'' := by
  obtain ⟨first, hfirst, rfl⟩ := h
  obtain ⟨second, hsecond, rfl⟩ := h'
  refine ⟨first ++ second, fun e he => ?_, (run_append _ _ _ _).symm⟩
  rcases List.mem_append.mp he with he | he
  · exact hfirst e he
  · exact hsecond e he

theorem reaches_step (s : State) {e : Event} (h : Greeted e) : Reaches s (step s e) :=
  ⟨[e], fun _ he => List.mem_singleton.mp he ▸ h, rfl⟩

theorem step_readLine_commands (s : State) (answers : ReconnectingStream.Answers)
    (serving : List SentLine) : (step s (.readLine answers serving)).mqtt = s.mqtt ∧
      (step s (.readLine answers serving)).commands = s.commands := by
  rcases step_readLine s answers serving with ⟨-, hstep⟩ | ⟨message, -, hstep⟩ <;> rw [hstep] <;>
    exact ⟨rfl, rfl⟩

theorem reaches_read {read : Read} (h : read.answers.connects → Served read.serving) (s : State) :
    Reaches s (step (step s (.arrive read.arrived)) (.readLine read.answers read.serving)) := by
  refine ⟨[.arrive read.arrived, .readLine read.answers read.serving], fun e he => ?_, rfl⟩
  rcases List.mem_cons.mp he with rfl | he
  · trivial
  · rw [List.mem_singleton.mp he]
    exact h

/-- The loop of the router is a run that leaves nothing to read, and the commands as they are. -/
theorem drain_spec {reads : ℕ → Read}
    (hreads : ∀ k, (reads k).answers.connects → Served (reads k).serving) (s : State) :
    Reaches s (drain reads s) ∧ (drain reads s).line.port.lines.available = [] ∧
      (drain reads s).mqtt = s.mqtt ∧ (drain reads s).commands = s.commands := by
  induction reads, s using drain.induct with
  | case1 reads s s' hnone =>
    obtain ⟨hmqtt, hcommands⟩ := step_readLine_commands s' (reads 0).answers (reads 0).serving
    have hafter : Reaches s (step s' (.readLine (reads 0).answers (reads 0).serving)) :=
      reaches_read (hreads 0) s
    rw [drain_of_none hnone]
    refine ⟨hafter, ?_, hmqtt, hcommands⟩
    rw [step_readLine_line]
    exact WiFiClientLineStream.readLineFrom_exhausts hnone
  | case2 reads s s' after line hsome ih =>
    obtain ⟨hreaches, havailable, hmqtt, hcommands⟩ := ih (fun k => hreads (k + 1))
    obtain ⟨hmqtt', hcommands'⟩ := step_readLine_commands s' (reads 0).answers (reads 0).serving
    have hafter : Reaches s (step s' (.readLine (reads 0).answers (reads 0).serving)) :=
      reaches_read (hreads 0) s
    rw [drain_of_some hsome]
    exact ⟨hafter.append hreaches, havailable, hmqtt.trans hmqtt', hcommands.trans hcommands'⟩

theorem available_sendEvents {line : Sessions.State} (h : line.port.lines.available = [])
    (messages : List LocoNetMessage) (sendings : ℕ → Sending) :
    (run Sessions.step line (sendEvents messages sendings)).port.lines.available = [] := by
  induction messages generalizing line sendings with
  | nil => exact h
  | cons message rest ih =>
    rw [sendEvents, run_cons]
    apply ih
    have hport : ∀ answers, (line.port.reconnectIfDue answers).lines.available = [] := by
      intro answers
      by_cases hdue : line.port.isReconnectDue answers
      · rw [ReconnectingStream.reconnectIfDue_of_due hdue]
      · rw [ReconnectingStream.reconnectIfDue_of_not_due hdue]
        exact h
    exact hport _

theorem receiveCommand_eq_none {port : PicoMqttPort} (h : port.receiveCommand.1 = none) :
    port.pendingCommands = [] := by
  rcases hpending : port.pendingCommands with _ | ⟨first, rest⟩
  · rfl
  · rw [receiveCommand, hpending] at h
    cases h

/-- The message received is the first that was waiting. -/
theorem receiveCommand_eq_some {port : PicoMqttPort} {message : IncomingMqttMessage}
    (h : port.receiveCommand.1 = some message) :
    port.pendingCommands = message :: port.receiveCommand.2.pendingCommands := by
  rcases hpending : port.pendingCommands with _ | ⟨first, rest⟩ <;>
    rw [receiveCommand, hpending] at h
  · cases h
  · rw [← Option.some.inj h, receiveCommand, hpending]

/-- One round of the loop of the command router. -/
theorem step_handleCommand_spec (s : State) (sending : Sending) (elapsed : ℕ) :
    let after := step s (.handleCommand sending elapsed)
    after.commands = s.commands ++ (s.mqtt.receiveCommand.1.bind commanded).toList ∧
      (s.line.port.lines.available = [] → after.line.port.lines.available = []) := by
  intro after
  rcases step_handleCommand s sending elapsed with
    ⟨hnone, hstep⟩ | ⟨command, -, hcommanded, hstep⟩
  · rw [hnone, Option.toList_none, List.append_nil]
    simp only [after, hstep]
    exact ⟨trivial, id⟩
  · rw [hcommanded]
    simp only [after, hstep]
    exact ⟨rfl, fun h => available_sendEvents h _ _⟩

/-- The loop of the command router is a run that handles all commands, in order. -/
theorem handleCommands_spec {handlings : ℕ → Sending × ℕ} (h : ∀ k, (handlings k).1.Greeted)
    {s : State} (hread : s.line.port.lines.available = []) :
    Reaches s (handleCommands handlings s) ∧
      (handleCommands handlings s).line.port.lines.available = [] ∧
      (handleCommands handlings s).mqtt.pendingCommands = [] ∧
      (handleCommands handlings s).commands =
        s.commands ++ s.mqtt.pendingCommands.filterMap commanded := by
  induction handlings, s using handleCommands.induct with
  | case1 handlings s hnone =>
    obtain ⟨hcommands, havailable⟩ :=
      step_handleCommand_spec s (handlings 0).1 (handlings 0).2
    have hempty := receiveCommand_eq_none hnone
    rw [hnone] at hcommands
    rw [handleCommands_of_none hnone, hempty]
    refine ⟨reaches_step s (e := .handleCommand _ _) (h 0), havailable hread, ?_, hcommands⟩
    rw [step_handleCommand_mqtt, receiveCommand, hempty]
    exact hempty
  | case2 handlings s after message hsome ih =>
    obtain ⟨hcommands, havailable⟩ :=
      step_handleCommand_spec s (handlings 0).1 (handlings 0).2
    obtain ⟨hreaches, havailable', hempty, hrest⟩ := ih (fun k => h (k + 1)) (havailable hread)
    have hpending : s.mqtt.pendingCommands = message :: after.mqtt.pendingCommands := by
      rw [show after.mqtt = s.mqtt.receiveCommand.2 from step_handleCommand_mqtt s _ _]
      exact receiveCommand_eq_some hsome
    rw [hsome] at hcommands
    rw [handleCommands_of_some hsome]
    refine ⟨(reaches_step s (e := .handleCommand _ _) (h 0)).append hreaches, havailable', hempty,
      ?_⟩
    rw [hrest, hpending, hcommands, List.append_assoc, List.filterMap_cons]
    simp only [Option.bind_some]
    cases commanded message <;> rfl

/-- The broker calls back for one message after another; the last 32 wait. -/
theorem run_callbacks {s : State} (h : s.mqtt.pendingCommands.length ≤ kMaxPendingCommands)
    (callbacks : List IncomingMqttMessage) :
    run step s (callbacks.map .command) =
      { s with mqtt := ⟨(s.mqtt.pendingCommands ++ callbacks).rtake kMaxPendingCommands⟩ } := by
  induction callbacks using List.reverseRecOn with
  | nil =>
    rw [List.append_nil, List.rtake, Nat.sub_eq_zero_of_le h]
    rfl
  | append_singleton callbacks message ih =>
    have hlength : ((s.mqtt.pendingCommands ++ callbacks).rtake kMaxPendingCommands).length ≤
        kMaxPendingCommands := by
      rw [List.rtake, List.length_drop]
      omega
    have hpush : (PicoMqttPort.mk ((s.mqtt.pendingCommands ++ callbacks).rtake
        kMaxPendingCommands)).onCommand message.topic message.payload =
          ⟨(s.mqtt.pendingCommands ++ (callbacks ++ [message])).rtake kMaxPendingCommands⟩ := by
      rw [← List.append_assoc]
      exact congrArg PicoMqttPort.mk ((BoundedQueue.push_eq_rtake (by decide) hlength message).trans
        (BoundedQueue.rtake_rtake_append _ _ _))
    rw [List.map_append, List.map_singleton, run_concat, ih]
    simp only [step, hpush]

/-- A pass is a run that handles the last 32 callbacks, and leaves nothing for the next. -/
theorem pass_spec {s : State} (hempty : s.mqtt.pendingCommands = []) {p : Pass} (h : p.Greeted) :
    Reaches s (pass s p) ∧ (pass s p).line.port.lines.available = [] ∧
      (pass s p).mqtt.pendingCommands = [] ∧
      (pass s p).commands =
        s.commands ++ (p.callbacks.rtake kMaxPendingCommands).filterMap commanded := by
  obtain ⟨hsendings, hreads, hhandlings⟩ := h
  let s₁ := run step s [.tick (p.waits 0), .ledUpdate, .tick (p.waits 1)]
  let s₂ := run step s₁ (p.callbacks.map .command)
  let s₃ := run step s₂ [.tick (p.waits 2), .schedulerUpdate p.sendings, .tick (p.waits 3)]
  let s₄ := drain p.reads s₃
  let s₅ := run step s₄ [.tick (p.waits 4), .republish p.republishing, .tick (p.waits 5),
    .publisherUpdate p.statusAlive p.statusClock, .tick (p.waits 6),
    .queryUpdate p.queryAlive p.queryClock, .tick (p.waits 7)]
  have hpass : pass s p = handleCommands p.handlings s₅ := rfl
  have hcallbacks : s₂ = { s₁ with mqtt := ⟨p.callbacks.rtake kMaxPendingCommands⟩ } := by
    have hnone : s₁.mqtt.pendingCommands = [] := hempty
    have hrun := run_callbacks (s := s₁) (by rw [hnone]; exact Nat.zero_le _) p.callbacks
    rwa [hnone, List.nil_append] at hrun
  obtain ⟨hdrain, hread, hmqtt, hcommands⟩ := drain_spec hreads s₃
  obtain ⟨hhandle, havailable, hdone, hhandled⟩ := handleCommands_spec hhandlings (s := s₅) hread
  have hwaiting : s₅.mqtt.pendingCommands = p.callbacks.rtake kMaxPendingCommands := by
    have hsame : s₅.mqtt = s₂.mqtt := hmqtt
    rw [hsame, hcallbacks]
  have hbefore : s₅.commands = s.commands := by
    have hsame : s₅.commands = s₂.commands := hcommands
    rw [hsame, hcallbacks]
    rfl
  rw [hwaiting, hbefore] at hhandled
  rw [hpass]
  refine ⟨?_, havailable, hdone, hhandled⟩
  have h₁ : Reaches s s₁ := reaches_run (by simp [Greeted])
  have h₂ : Reaches s₁ s₂ := reaches_run (by simp [Greeted])
  have h₃ : Reaches s₂ s₃ := reaches_run (by simpa [Greeted] using hsendings)
  have h₅ : Reaches s₄ s₅ := reaches_run (by simp [Greeted])
  exact h₁.append (h₂.append (h₃.append (hdrain.append (h₅.append hhandle))))

/-! ### The pulses of the commands -/

/-- An `OPC_SW_REQ` with the output bit set. -/
def isOnPulse (frame : LocoNetMessage) : Bool :=
  frame.bytes[0]? = some kOpcSwReq && !isOffPulse frame

def onPulse (command : ℤ × TurnoutPosition) : LocoNetMessage :=
  buildSwReq ⟨⟨command.1⟩, command.2⟩ true

theorem isOnPulse_buildSwReq {command : DomainCommand} (h : InRange command.address.value)
    (outputOn : Bool) : isOnPulse (buildSwReq command outputOn) = outputOn := by
  rw [isOnPulse, (reportOf_buildSwReq h outputOn ⟨[]⟩).2.2, Bool.not_not]
  exact Bool.true_and _

theorem isOnPulse_request {clock : ℕ → UInt32} {entry : PendingLocoNetSend}
    (h : entry ∈ requestsOf clock turnoutAddresses 0) : isOnPulse entry.message = false := by
  have hframe : entry.message ∈ turnoutAddresses.map
      (fun address => TurnoutStateRequestEncoder.encode ⟨address⟩) := by
    rw [← requestsOf_messages clock turnoutAddresses 0]
    exact List.mem_map_of_mem h
  obtain ⟨address, -, hrequest⟩ := List.mem_map.mp hframe
  rw [← hrequest]
  rfl

theorem released_onPulses {pending : List PendingLocoNetSend}
    (h : ∀ entry ∈ pending, isOnPulse entry.message = false) (now : ℕ) :
    ((DelayLine.released dueNat now pending).map PendingLocoNetSend.message).filter isOnPulse =
      [] := by
  rw [List.filter_eq_nil_iff]
  intro frame hframe
  obtain ⟨entry, hentry, rfl⟩ := List.mem_map.mp hframe
  rw [h entry (DelayLine.mem_released.mp hentry).1]
  exact Bool.false_ne_true

/-- The on-pulses have left in the order of the commands, and none is pending. -/
structure Prompt (s : State) : Prop where
  pending : ∀ entry ∈ s.scheduler.pending, isOnPulse entry.message = false
  sent : s.handed.filter isOnPulse = s.commands.map onPulse

theorem prompt_step (s : State) (e : Event) (h : Prompt s) : Prompt (step s e) := by
  cases e with
  | tick | arrive | command | ledUpdate | republish | publisherUpdate => exact ⟨h.pending, h.sent⟩
  | schedulerUpdate sendings =>
    simp only [step, transmit, update_eq]
    refine ⟨fun entry hentry => h.pending entry ((DelayLine.kept_sublist _ _).subset hentry), ?_⟩
    rw [List.filter_append, released_onPulses h.pending, List.append_nil]
    exact h.sent
  | readLine answers serving =>
    rcases step_readLine s answers serving with ⟨-, hstep⟩ | ⟨message, -, hstep⟩ <;> rw [hstep] <;>
      exact ⟨h.pending, h.sent⟩
  | queryUpdate alive clock =>
    obtain ⟨query, hstep | ⟨clock', hstep⟩⟩ := step_queryUpdate s alive clock
    · rw [hstep]
      exact ⟨h.pending, h.sent⟩
    · rw [hstep]
      refine ⟨fun entry hentry => ?_, h.sent⟩
      rcases List.mem_append.mp hentry with hentry | hentry
      · exact h.pending entry hentry
      · exact isOnPulse_request hentry
  | handleCommand sending elapsed =>
    rcases step_handleCommand s sending elapsed with ⟨-, hstep⟩ | ⟨command, hrange, -, hstep⟩
    · rw [hstep]
      exact ⟨h.pending, h.sent⟩
    · rw [hstep]
      refine ⟨fun entry hentry => ?_, ?_⟩
      · rcases List.mem_append.mp hentry with hentry | hentry
        · exact h.pending entry hentry
        · rw [List.mem_singleton.mp hentry]
          exact isOnPulse_buildSwReq hrange false
      · simp only [transmit, List.filter_append, h.sent, List.map_append]
        rw [List.filter_cons_of_pos (isOnPulse_buildSwReq hrange true)]
        rfl

/-! ### Passes -/

theorem passes_spec (start : ℕ) {passes : List Pass} (h : ∀ p ∈ passes, p.Greeted) :
    let s := run pass (initial start) passes
    Reaches (initial start) s ∧ s.line.port.lines.available = [] ∧
      s.mqtt.pendingCommands = [] ∧
      s.commands = (passes.flatMap (fun p => p.callbacks.rtake 32)).filterMap commanded := by
  induction passes using List.reverseRecOn with
  | nil => exact ⟨⟨[], fun _ he => absurd he List.not_mem_nil, rfl⟩, rfl, rfl, rfl⟩
  | append_singleton passes p ih =>
    obtain ⟨hreaches, -, hempty, hcommands⟩ := ih (fun q hq => h q (List.mem_append_left _ hq))
    obtain ⟨hpass, hread, hdone, hhandled⟩ := pass_spec hempty (h p List.mem_concat_self)
    simp only [run_concat]
    refine ⟨hreaches.append hpass, hread, hdone, ?_⟩
    rw [hhandled, hcommands, List.flatMap_append, List.flatMap_singleton, List.filterMap_append]
    rfl

/-- After every pass no command is waiting, and what had come over the connection when the router
read last has been read, so that it has handled every frame whose line has come to its end. The
commands
carried out are those among the last 32 callbacks of each pass, and their on-pulses have left in
this order. A sequence of passes is a run of the device. -/
theorem loop_keeps_up (start : ℕ) (passes : List Pass) (hgreeted : ∀ p ∈ passes, p.Greeted) :
    let s := run pass (initial start) passes
    (∃ events, (∀ e ∈ events, Greeted e) ∧ s = run step (initial start) events) ∧
      s.mqtt.pendingCommands = [] ∧
      bytesOf s.line.session.lines = s.line.session.read ++ s.line.session.unsent ∧
      s.router.messageLog = received s ∧
      s.commands = (passes.flatMap (fun p => p.callbacks.rtake 32)).filterMap commanded ∧
      s.handed.filter isOnPulse = s.commands.map onPulse := by
  intro s
  obtain ⟨⟨events, hevents, hrun⟩, hread, hempty, hcommands⟩ := passes_spec start hgreeted
  have hrun : s = run step (initial start) events := hrun
  have haccounted : Accounted s.line := hrun ▸ accounted_line_run start hevents
  have hconveyed : Conveyed s := hrun ▸ conveyed_run start events
  have hprompt : Prompt s := hrun ▸
    run_invariant_of_step prompt_step ⟨fun _ h => absurd h List.not_mem_nil, rfl⟩ events
  have hread : s.line.port.lines.available = [] := hread
  refine ⟨⟨events, hevents, hrun⟩, hempty, ?_,
    hconveyed.logged.trans haccounted.returned_eq, hcommands, hprompt.sent⟩
  rw [haccounted.stream, hread, List.append_nil]

/-- A pass that gets these answers from the socket, with some bytes before its first read. -/
def servedPass (answers : ReconnectingStream.Answers) (arrived : ℕ)
    (callbacks : List IncomingMqttMessage) : Pass where
  waits := fun _ => 1
  callbacks := callbacks
  sendings := fun _ => ⟨answers, true, reports⟩
  reads := fun k => ⟨if k = 0 then arrived else 0, answers, reports⟩
  republishing := 0
  statusAlive := fun _ => true
  statusClock := fun _ => 5000
  queryAlive := true
  queryClock := fun _ => 5000
  handlings := fun _ => (⟨⟨true, true, 6000, 6000, true⟩, true, reports⟩, 0)

theorem servedPass_greeted (answers : ReconnectingStream.Answers) (arrived : ℕ)
    (callbacks : List IncomingMqttMessage) : (servedPass answers arrived callbacks).Greeted :=
  ⟨fun _ _ => served_reports, fun _ _ => served_reports, fun _ _ => served_reports⟩

/-- The first pass connects. By the second the greeting, a report and a part of the next have
come. The broker calls back three times, once for no turnout. -/
def servedPasses : List Pass :=
  [servedPass ⟨true, false, 5000, 5000, true⟩ 0
      [⟨"loconet/turnout/5/set".toList, "THROWN".toList⟩],
    servedPass ⟨true, true, 6000, 6000, true⟩ 60
      [⟨"loconet/turnout/0/set".toList, "CLOSED".toList⟩,
        ⟨"loconet/turnout/6/set".toList, "CLOSED".toList⟩]]

theorem loop_keeps_up_served :
    let s := run pass (initial 0) servedPasses
    s.mqtt.pendingCommands = [] ∧ bytesOf reports = s.line.session.read ++ s.line.session.unsent ∧
      s.line.session.unsent.length = 7 ∧ s.router.messageLog = [⟨[0xB1, 0x00, 0x10, 0x5E]⟩] ∧
      s.commands = [(5, .thrown), (6, .closed)] ∧
      s.handed.filter isOnPulse = [onPulse (5, .thrown), onPulse (6, .closed)] := by
  intro s
  have hgreeted : ∀ p ∈ servedPasses, p.Greeted := by
    intro p hp
    simp only [servedPasses, List.mem_cons, List.not_mem_nil, or_false] at hp
    rcases hp with rfl | rfl <;> exact servedPass_greeted _ _ _
  obtain ⟨-, hidle, hread, hlog, hcommands, hpulses⟩ := loop_keeps_up 0 servedPasses hgreeted
  have hlines : bytesOf s.line.session.lines = bytesOf reports := by decide +kernel
  have hreceived : received s = [⟨[0xB1, 0x00, 0x10, 0x5E]⟩] := by decide +kernel
  have hcarried : s.commands = [(5, .thrown), (6, .closed)] := hcommands.trans (by decide)
  refine ⟨hidle, hlines.symm.trans hread, by decide +kernel, hlog.trans hreceived, hcarried, ?_⟩
  rw [hpulses, hcarried]
  rfl

end Loco2Mqtt.Device
