import Loco2Mqtt.Application.CommandRouter
import Loco2Mqtt.Foundations.BoundedQueue

/-! The commands that wait in `PicoMqttPort`. The queue is a bounded one of 32, so a command is
lost only to 32 later ones that come before its turn, and the last command of a burst is the
last that `MqttCommandRouter` handles. -/

namespace Loco2Mqtt

structure PicoMqttPort where
  pendingCommands : List IncomingMqttMessage

namespace PicoMqttPort

def kMaxPendingCommands : ℕ := 32

def initial : PicoMqttPort := ⟨[]⟩

/-- The callback of the subscription. -/
def onCommand (port : PicoMqttPort) (topic payload : Text) : PicoMqttPort :=
  let pendingCommands :=
    if port.pendingCommands.length ≥ kMaxPendingCommands then port.pendingCommands.tail
    else port.pendingCommands
  ⟨pendingCommands ++ [⟨topic, payload⟩]⟩

def receiveCommand (port : PicoMqttPort) : Option IncomingMqttMessage × PicoMqttPort :=
  match port.pendingCommands with
  | [] => (none, port)
  | message :: rest => (some message, ⟨rest⟩)

/-- What the broker is given to publish. It takes C strings and no retained flag. -/
def publish (message : MqttMessage) : Text × Text := (cStr message.topic, cStr message.payload)

theorem receiveCommand_shorter {port after : PicoMqttPort} {message : IncomingMqttMessage}
    (h : port.receiveCommand = (some message, after)) :
    after.pendingCommands.length < port.pendingCommands.length := by
  obtain ⟨pendingCommands⟩ := port
  cases pendingCommands with
  | nil => cases h
  | cons first rest =>
    obtain ⟨-, rfl⟩ := Prod.mk.inj h
    exact Nat.lt_succ_self _

end PicoMqttPort

/-- `update` on the port: the calls of the scheduler, and the port afterwards. -/
def MqttCommandRouter.updateFrom (port : PicoMqttPort) :
    List LocoNetSendScheduler.Call × PicoMqttPort :=
  match _hmessage : port.receiveCommand with
  | (none, port) => ([], port)
  | (some message, port) =>
    let (calls, port) := updateFrom port
    (handleMessage message ++ calls, port)
termination_by port.pendingCommands.length
decreasing_by exact PicoMqttPort.receiveCommand_shorter (by assumption)

namespace CommandQueue

open PicoMqttPort BoundedQueue Runs

inductive Event where
  | arrive (message : IncomingMqttMessage)
  | receiveCommand
  deriving DecidableEq

structure State where
  port : PicoMqttPort
  returned : List IncomingMqttMessage

def initial : State := ⟨PicoMqttPort.initial, []⟩

def step (s : State) : Event → State
  | .arrive message => { s with port := s.port.onCommand message.topic message.payload }
  | .receiveCommand =>
    let (message, port) := s.port.receiveCommand
    ⟨port, s.returned ++ message.toList⟩

/-! ### The queue of the port as a bounded one -/

def queueEvent : Event → BoundedQueue.Event IncomingMqttMessage
  | .arrive message => .push message
  | .receiveCommand => .pop

def contents (s : State) : BoundedQueue.State IncomingMqttMessage :=
  ⟨s.port.pendingCommands, s.returned⟩

theorem contents_step (s : State) (e : Event) :
    contents (step s e) = BoundedQueue.step kMaxPendingCommands (contents s) (queueEvent e) := by
  obtain ⟨⟨pendingCommands⟩, returned⟩ := s
  cases e with
  | arrive message => rfl
  | receiveCommand =>
    cases pendingCommands with
    | nil => rfl
    | cons message rest => rfl

theorem contents_run (s : State) (events : List Event) :
    contents (run step s events) =
      run (BoundedQueue.step kMaxPendingCommands) (contents s) (events.map queueEvent) := by
  induction events generalizing s with
  | nil => rfl
  | cons e rest ih => rw [run_cons, ih, contents_step, List.map_cons, run_cons]

/-- The events with every command numbered as it arrives. -/
def numbered (events : List Event) : List (BoundedQueue.Event (ℕ × IncomingMqttMessage)) :=
  numberedFrom 0 (events.map queueEvent)

/-- What the queue would hold, and would have returned, if it kept the numbers. -/
def ledger (events : List Event) : BoundedQueue.State (ℕ × IncomingMqttMessage) :=
  run (BoundedQueue.step kMaxPendingCommands) BoundedQueue.initial (numbered events)

theorem contents_eq_ledger (events : List Event) :
    contents (run step initial events) = (ledger events).map Prod.snd := by
  rw [contents_run, ledger, ← run_map, numbered, map_numberedFrom]
  rfl

theorem updateFrom_eq (pendingCommands : List IncomingMqttMessage) :
    MqttCommandRouter.updateFrom ⟨pendingCommands⟩ =
      (MqttCommandRouter.update pendingCommands, PicoMqttPort.initial) := by
  induction pendingCommands with
  | nil =>
    rw [MqttCommandRouter.updateFrom]
    rfl
  | cons message rest ih =>
    rw [MqttCommandRouter.updateFrom]
    simp only [receiveCommand, ih]
    rfl

/-- However commands arrive and are received, at most 32 wait. Those received come in the order
of arrival, none twice. One is lost exactly if 32 others arrive behind it before its turn, so
of the last 32 those wait that have not been received, and a burst leaves the last 32 of what
was waiting and what came. The router's next update then ends with the latest command. -/
theorem queue_drops_oldest (events : List Event) :
    let s := run step initial events
    let arrivals := pushed (numbered events)
    let waiting := (ledger events).queue
    let received := (ledger events).taken
    s.port.pendingCommands = waiting.map Prod.snd ∧ s.returned = received.map Prod.snd ∧
      s.port.pendingCommands.length ≤ 32 ∧ received.Sublist arrivals ∧ received.Nodup ∧
      (∀ arrival ∈ arrivals, arrival ∉ received ∧ arrival ∉ waiting ↔
        Overtaken 32 (numbered events) arrival) ∧
      waiting = (arrivals.rtake 32).filter (fun arrival => arrival ∉ received) ∧
      (∀ burst : List IncomingMqttMessage,
        (run step s (burst.map Event.arrive)).port.pendingCommands =
          (s.port.pendingCommands ++ burst).rtake 32) ∧
      ∀ message, ∃ earlier, MqttCommandRouter.updateFrom (step s (.arrive message)).port =
        (MqttCommandRouter.update (earlier ++ [message]), PicoMqttPort.initial) := by
  intro s arrivals waiting received
  have hcapacity : 0 < kMaxPendingCommands := by decide
  have hnodup : arrivals.Nodup := nodup_pushed_numberedFrom 0 _
  have hcontents : contents s = (ledger events).map Prod.snd := contents_eq_ledger events
  have hlength : (contents s).queue.length ≤ kMaxPendingCommands := by
    rw [hcontents, State.map, List.length_map]
    exact length_run hcapacity _
  have hsublist : received.Sublist arrivals :=
    (List.sublist_append_left _ _).trans (ordered_run kMaxPendingCommands _).inOrder
  refine ⟨congrArg BoundedQueue.State.queue hcontents,
    congrArg BoundedQueue.State.taken hcontents, hlength, hsublist, hsublist.nodup hnodup,
    fun arrival harrival => lost_iff_overtaken hcapacity hnodup harrival,
    queue_eq_filter hcapacity hnodup, fun burst => ?_, fun message => ?_⟩
  · have hburst := congrArg BoundedQueue.State.queue
      (contents_run s (burst.map Event.arrive))
    rw [List.map_map] at hburst
    exact hburst.trans (queue_burst hcapacity _ hlength burst)
  · exact ⟨_, updateFrom_eq _⟩

end CommandQueue
end Loco2Mqtt
