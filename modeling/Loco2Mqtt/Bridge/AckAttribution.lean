import Loco2Mqtt.Application.CommandRouter
import Loco2Mqtt.Application.MessageRouter
import Loco2Mqtt.Application.StartupQuery
import Loco2Mqtt.Foundations.Correlation
import Loco2Mqtt.Foundations.Runs

/-! Which turnout an ack is taken for. Requests go out through the scheduler over a stream
that may be down, the command station answers those that reach it in order, and whatever is
in flight when the stream goes down is lost. The queue of expected addresses is never told.
So if no due time wraps, which would upset the order of the requests, an ack is taken for the
turnout it answers exactly when the requests lost so far make whole rounds of the table. -/

namespace Loco2Mqtt.AckAttribution

open LocoNetMessageRouter PendingLocoNetSendScheduler TurnoutLocoNetDecoder DelayLine WrappingClock
  Correlation Runs

/-! ### Frames on the stream -/

/-- The address a frame asks the state of. -/
def requestedAddress (frame : LocoNetMessage) : Option ℤ :=
  match frame.bytes with
  | opcode :: sw1 :: sw2 :: _ =>
    if opcode = TurnoutStateRequestEncoder.kOpcSwState then some (addressOf sw1 sw2) else none
  | _ => none

def requests (frames : List LocoNetMessage) : List ℤ := frames.filterMap requestedAddress

/-- The `OPC_LONG_ACK` that answers a request with the second data byte `d2`. -/
def stateAck (d2 : UInt8) : LocoNetMessage := checksummed kOpcLongAck kSwitchStateAckCode d2

/-- A frame on its way to the device. Of an ack the address it answers is kept beside it. -/
inductive Inbound where
  | ack (address : ℤ) (d2 : UInt8)
  | other (frame : LocoNetMessage)
  deriving DecidableEq, Repr

def Inbound.frame : Inbound → LocoNetMessage
  | .ack _ d2 => stateAck d2
  | .other frame => frame

def Inbound.answered : Inbound → Option ℤ
  | .ack address _ => some address
  | .other _ => none

/-! ### The system -/

/-- `queryUpdate` takes its clock readings after the delays in `drift`, one after another;
`station` is the command station taking the next frame, `receive` the router handling the
next one that came back. -/
inductive Event where
  | tick (milliseconds : ℕ)
  | connect
  | disconnect
  | queryUpdate (drift : List ℕ)
  | schedulerUpdate
  | command (message : IncomingMqttMessage)
  | station (d2 : UInt8)
  | other (frame : LocoNetMessage)
  | receive
  deriving DecidableEq, Repr

/-- `lost` counts the requests discarded on a stream that is down, and those that were in
flight, or whose acks were, when it went down. -/
structure State where
  now : ℕ
  connected : Bool
  query : TurnoutTableStartupQuery
  scheduler : PendingLocoNetSendScheduler
  router : LocoNetMessageRouter
  outbound : List LocoNetMessage
  inbound : List Inbound
  lost : ℕ

def initial (start : ℕ) : State :=
  ⟨start, false, TurnoutTableStartupQuery.initial, ⟨[]⟩, LocoNetMessageRouter.initial, [], [], 0⟩

/-- Frames handed to the stream, with the scheduler afterwards. -/
def transmit (s : State) (result : PendingLocoNetSendScheduler × List LocoNetMessage) : State :=
  { s with
    scheduler := result.1
    outbound := if s.connected then s.outbound ++ result.2 else s.outbound
    lost := if s.connected then s.lost else s.lost + (requests result.2).length }

/-- The instant of the `k`-th clock reading of a query update. -/
def readingTime (s : State) (drift : List ℕ) (k : ℕ) : ℕ := s.now + (drift.take (k + 1)).sum

def step (s : State) : Event → State
  | .tick milliseconds => { s with now := s.now + milliseconds }
  | .connect => { s with connected := true }
  | .disconnect =>
    { s with
      connected := false
      outbound := []
      inbound := []
      lost := s.lost + ((s.inbound.filterMap Inbound.answered).length +
        (requests s.outbound).length) }
  | .queryUpdate drift =>
    let (query, pendingAcks, scheduler) :=
      s.query.update s.connected (fun k => reading (readingTime s drift k)) s.router.pendingAcks
        s.scheduler
    { s with now := s.now + drift.sum, query, scheduler, router := { s.router with pendingAcks } }
  | .schedulerUpdate => transmit s (s.scheduler.update (reading s.now))
  | .command message =>
    transmit s (s.scheduler.performAll (reading s.now) (MqttCommandRouter.handleMessage message))
  | .station d2 =>
    { s with
      outbound := s.outbound.tail
      inbound := s.inbound ++
        ((s.outbound.head?.bind requestedAddress).map (fun address => .ack address d2)).toList }
  | .other frame =>
    { s with inbound := if s.connected then s.inbound ++ [.other frame] else s.inbound }
  | .receive =>
    { s with
      router := (s.inbound.head?.map (fun x => (s.router.handleMessage x.frame).1)).getD s.router
      inbound := s.inbound.tail }

/-- The counter does not wrap. -/
def ClockUnwrapped (s : State) (e : Event) : Prop := (step s e).now < 2 ^ 32

instance (s : State) (e : Event) : Decidable (ClockUnwrapped s e) := Nat.decLt _ _

/-- No other client asks for switch states, and the counter does not wrap. -/
def Allowed (s : State) (e : Event) : Prop :=
  (∀ frame, e = .other frame → ¬ IsStateAck frame) ∧ ClockUnwrapped s e

/-- No request of a round whose readings begin with the `used`-th falls due past the wrap. -/
def DueBeforeWrap (s : State) (drift : List ℕ) (used : ℕ) : Prop :=
  ∀ k < 48, DueUnwrapped (readingTime s drift (used + k)) (20 * k)

/-- Of the round that the update schedules, if it schedules one, no request falls due past the
wrap. -/
def RoundBeforeWrap (s : State) (drift : List ℕ) : Prop :=
  let ready := s.query.readyToQuery (fun k => reading (readingTime s drift k))
  s.connected = true → ready.1 = true → DueBeforeWrap s drift ready.2.2

instance (s : State) (drift : List ℕ) (used : ℕ) : Decidable (DueBeforeWrap s drift used) :=
  inferInstanceAs (Decidable (∀ k < 48, DueUnwrapped (readingTime s drift (used + k)) (20 * k)))

instance (s : State) (drift : List ℕ) : Decidable (RoundBeforeWrap s drift) :=
  inferInstanceAs (Decidable (s.connected = true → _ = true → DueBeforeWrap s drift _))

/-- The due time of a request does not wrap. -/
def DueTimesUnwrapped (s : State) : Event → Prop
  | .queryUpdate drift => RoundBeforeWrap s drift
  | _ => True

instance (s : State) : ∀ e, Decidable (DueTimesUnwrapped s e)
  | .queryUpdate drift => inferInstanceAs (Decidable (RoundBeforeWrap s drift))
  | .tick _ | .connect | .disconnect | .schedulerUpdate | .command _ | .station _ | .other _
  | .receive => isTrue trivial

/-- The ack handled next, if it is one, is taken for the address it answers, and no other
recorded position changes. -/
def Attributed (s : State) (e : Event) : Prop :=
  ∀ address d2, e = .receive → s.inbound.head? = some (.ack address d2) →
    s.router.pendingAcks.claimNext.1 = some ⟨address⟩ ∧
      (step s e).router.decoder.recorded =
        Function.update s.router.decoder.recorded address (some (positionOf d2))

/-- If the frame handled next is an ack, the requests lost so far make whole rounds. -/
def WholeRoundsLost (s : State) (e : Event) : Prop :=
  ∀ address d2, e = .receive → s.inbound.head? = some (.ack address d2) → 48 ∣ s.lost

/-! ### Requests among the frames -/

theorem requestedAddress_encode : ∀ address ∈ TurnoutTableStartupQuery.turnoutAddresses,
    requestedAddress (TurnoutStateRequestEncoder.encode ⟨address⟩) = some address := by
  decide

theorem isSome_requestedAddress {clock : ℕ → UInt32} {entry : PendingLocoNetSend}
    (h : entry ∈ TurnoutTableStartupQuery.requestsOf clock
      TurnoutTableStartupQuery.turnoutAddresses 0) : (requestedAddress entry.message).isSome := by
  have hframe : entry.message ∈ TurnoutTableStartupQuery.turnoutAddresses.map
      (fun address => TurnoutStateRequestEncoder.encode ⟨address⟩) := by
    rw [← TurnoutTableStartupQuery.requestsOf_messages clock _ 0]
    exact List.mem_map_of_mem h
  obtain ⟨address, haddress, hrequest⟩ := List.mem_map.mp hframe
  rw [← hrequest, requestedAddress_encode address haddress]
  rfl

theorem requestedAddress_buildSwReq (command : DomainCommand) (outputOn : Bool) :
    requestedAddress (TurnoutLocoNetEncoder.buildSwReq command outputOn) = none := rfl

theorem requests_append (frames more : List LocoNetMessage) :
    requests (frames ++ more) = requests frames ++ requests more :=
  List.filterMap_append

/-- The pending entries that are requests. -/
def requestEntries (pending : List PendingLocoNetSend) : List PendingLocoNetSend :=
  pending.filter (fun entry => (requestedAddress entry.message).isSome)

theorem requestEntries_sublist (pending : List PendingLocoNetSend) :
    (requestEntries pending).Sublist pending :=
  List.filter_sublist

theorem requestEntries_append (pending more : List PendingLocoNetSend) :
    requestEntries (pending ++ more) = requestEntries pending ++ requestEntries more :=
  List.filter_append _ _

def requestsIn (pending : List PendingLocoNetSend) : List ℤ :=
  requests (pending.map PendingLocoNetSend.message)

theorem requestsIn_requestEntries (pending : List PendingLocoNetSend) :
    requestsIn (requestEntries pending) = requestsIn pending := by
  induction pending with
  | nil => rfl
  | cons entry rest ih =>
    simp only [requestsIn, requests, requestEntries, List.filter_cons, List.map_cons,
      List.filterMap_cons] at ih ⊢
    cases h : requestedAddress entry.message <;> simp [h, ih]

/-- A scan takes out the requests from the front, if these are due in order. -/
theorem requestsIn_released_kept {pending : List PendingLocoNetSend}
    (h : Ascending dueNat (requestEntries pending)) (now : ℕ) :
    requestsIn (released dueNat now pending) ++ requestsIn (kept dueNat now pending) =
      requestsIn pending := by
  have hreleased : requestEntries (released dueNat now pending) =
      released dueNat now (requestEntries pending) := filter_released _ now pending
  have hkept : requestEntries (kept dueNat now pending) =
      kept dueNat now (requestEntries pending) := filter_kept _ now pending
  rw [← requestsIn_requestEntries (released dueNat now pending),
    ← requestsIn_requestEntries (kept dueNat now pending), hreleased, hkept, requestsIn, requestsIn,
    ← requests_append, ← List.map_append, h.released_append_kept, ← requestsIn,
    requestsIn_requestEntries]

/-! ### When requests fall due -/

/-- Pending requests fall due in order and within a round's stagger, counted from the start
of the connection if its query is still to come. -/
structure Timely (s : State) : Prop where
  ascending : Ascending dueNat (requestEntries s.scheduler.pending)
  soon : ∀ entry ∈ requestEntries s.scheduler.pending, dueNat entry ≤ s.now + 940
  settled : ∀ since ∈ s.query.connectedSinceMilliseconds, s.query.queriedThisConnection = false →
    ∃ t ≤ s.now, reading t = since ∧
      ∀ entry ∈ requestEntries s.scheduler.pending, dueNat entry ≤ t + 940

theorem timely_initial (start : ℕ) : Timely (initial start) :=
  ⟨List.Pairwise.nil, fun _ h => absurd h List.not_mem_nil, fun _ h => absurd h (by simp [initial,
    TurnoutTableStartupQuery.initial])⟩

/-- Dropping pending entries keeps the order and the bounds. -/
theorem Timely.of_sublist {s s' : State} (h : Timely s) (hnow : s.now ≤ s'.now)
    (hquery : s'.query = s.query)
    (hsub : (requestEntries s'.scheduler.pending).Sublist (requestEntries s.scheduler.pending)) :
    Timely s' := by
  refine ⟨List.Pairwise.sublist hsub h.ascending, fun entry hentry => ?_, fun since hsince hq => ?_⟩
  · have hsoon := h.soon entry (hsub.subset hentry)
    omega
  · rw [hquery] at hsince hq
    obtain ⟨t, ht, hreading, hdue⟩ := h.settled since hsince hq
    exact ⟨t, by omega, hreading, fun entry hentry => hdue entry (hsub.subset hentry)⟩

theorem requestEntries_command (s : State) (message : IncomingMqttMessage) :
    requestEntries (step s (.command message)).scheduler.pending =
      requestEntries s.scheduler.pending := by
  simp only [step, transmit, MqttCommandRouter.handleMessage]
  rcases MqttCommandRouter.commandOf message with _ | command
  · rfl
  · simp [performAll_encode, sendAfter, requestEntries, List.filter_append,
      requestedAddress_buildSwReq]

theorem sum_le_of_isPrefix {front l : List ℕ} (h : front.IsPrefix l) : front.sum ≤ l.sum := by
  obtain ⟨back, rfl⟩ := h
  rw [List.sum_append]
  omega

theorem readingTime_mono (s : State) (drift : List ℕ) {j k : ℕ} (h : j ≤ k) :
    readingTime s drift j ≤ readingTime s drift k :=
  Nat.add_le_add_left (sum_le_of_isPrefix (List.take_prefix_take_left (Nat.succ_le_succ h))) s.now

theorem readingTime_le (s : State) (drift : List ℕ) (k : ℕ) :
    s.now ≤ readingTime s drift k ∧ readingTime s drift k ≤ s.now + drift.sum :=
  ⟨Nat.le_add_right _ _, Nat.add_le_add_left (sum_le_of_isPrefix (List.take_prefix _ _)) s.now⟩

/-- The requests of one round, in front of which everything pending is due. -/
theorem round_due {s : State} {drift : List ℕ} {used : ℕ} (hdue : DueBeforeWrap s drift used) :
    let round := TurnoutTableStartupQuery.requestsOf
      (fun k => reading (readingTime s drift (used + k)))
      TurnoutTableStartupQuery.turnoutAddresses 0
    Ascending dueNat round ∧ ∀ entry ∈ round,
      readingTime s drift used ≤ dueNat entry ∧ dueNat entry ≤ s.now + drift.sum + 940 := by
  intro round
  have hlen := TurnoutTableStartupQuery.length_turnoutAddresses
  obtain ⟨hasc, hbounds⟩ := TurnoutTableStartupQuery.requestsOf_due
    (fun k => readingTime s drift (used + k)) (fun j k hjk => readingTime_mono s drift (by omega))
    TurnoutTableStartupQuery.turnoutAddresses 0 (by rw [hlen]; decide) (fun k hk => by
      rw [show (0 : UInt32).toNat = 0 from rfl, Nat.zero_add]
      exact hdue k hk)
  refine ⟨hasc, fun entry hentry => ?_⟩
  have hentry := hbounds entry hentry
  have hlast := (readingTime_le s drift (used + 48)).2
  have hzero : (0 : UInt32).toNat = 0 := rfl
  rw [hlen] at hentry
  simp only [Nat.add_zero] at hentry
  omega

theorem requestsIn_round (clock : ℕ → UInt32) :
    requestsIn (TurnoutTableStartupQuery.requestsOf clock
        TurnoutTableStartupQuery.turnoutAddresses 0) =
      TurnoutTableStartupQuery.turnoutAddresses := by
  rw [requestsIn, TurnoutTableStartupQuery.requestsOf_messages, requests, List.filterMap_map]
  have hall : TurnoutTableStartupQuery.turnoutAddresses.filterMap
      (requestedAddress ∘ fun address => TurnoutStateRequestEncoder.encode ⟨address⟩) =
        TurnoutTableStartupQuery.turnoutAddresses.filterMap some :=
    List.filterMap_congr requestedAddress_encode
  rw [hall, List.filterMap_some]

/-- The instant that a connected query counts from. Until it has queried, nothing pending
falls due later than a round's stagger after that. -/
theorem Timely.counted_from {s : State} (h : Timely s) (drift : List ℕ) {since : UInt32}
    (hqueried : s.query.queriedThisConnection = false)
    (hsince : s.query.connectedSinceMilliseconds = some since ∨
      s.query.connectedSinceMilliseconds = none ∧ since = reading (readingTime s drift 0)) :
    ∃ t ≤ readingTime s drift 0, reading t = since ∧
      ∀ entry ∈ requestEntries s.scheduler.pending, dueNat entry ≤ t + 940 := by
  have htime := readingTime_le s drift 0
  rcases hsince with hsince | ⟨-, rfl⟩
  · obtain ⟨t, ht, hreading, hdue⟩ := h.settled since hsince hqueried
    exact ⟨t, le_trans ht htime.1, hreading, hdue⟩
  · refine ⟨readingTime s drift 0, le_refl _, rfl, fun entry hentry => ?_⟩
    have hsoon := h.soon entry hentry
    omega

/-- Scheduling a round two stable seconds after the query began to count. -/
theorem Timely.append_round {s : State} (h : Timely s) {drift : List ℕ} {used : ℕ}
    {since : UInt32} (hclock : s.now + drift.sum < 2 ^ 32)
    (hround : DueBeforeWrap s drift (used + 1)) (hqueried : s.query.queriedThisConnection = false)
    (hsince : s.query.connectedSinceMilliseconds = some since ∨
      s.query.connectedSinceMilliseconds = none ∧ since = reading (readingTime s drift 0))
    (hready : TurnoutTableStartupQuery.kStableConnectionMs ≤
      reading (readingTime s drift used) - since) :
    let pending := s.scheduler.pending ++ TurnoutTableStartupQuery.requestsOf
      (fun k => reading (readingTime s drift (used + 1 + k)))
        TurnoutTableStartupQuery.turnoutAddresses 0
    Ascending dueNat (requestEntries pending) ∧
      ∀ entry ∈ requestEntries pending, dueNat entry ≤ s.now + drift.sum + 940 := by
  intro pending
  obtain ⟨t, ht, rfl, hold⟩ := h.counted_from drift hqueried hsince
  have ht' : t ≤ readingTime s drift used := le_trans ht (readingTime_mono s drift (Nat.zero_le _))
  have hlt := (readingTime_le s drift used).2
  -- the connection is older than the stagger of the last round
  have hstable : t + 2000 ≤ readingTime s drift used := by
    have hspan := (reading_sub_lt_iff ht' (by omega)
      TurnoutTableStartupQuery.kStableConnectionMs).not.mp (UInt32.not_lt.mpr hready)
    have hms : TurnoutTableStartupQuery.kStableConnectionMs.toNat = 2000 := rfl
    omega
  have hlater := readingTime_mono s drift (Nat.le_add_right used 1)
  obtain ⟨hasc, hround⟩ := round_due hround
  have hsub := requestEntries_sublist (TurnoutTableStartupQuery.requestsOf
    (fun k => reading (readingTime s drift (used + 1 + k)))
      TurnoutTableStartupQuery.turnoutAddresses 0)
  rw [show requestEntries pending = _ from requestEntries_append _ _]
  constructor
  · apply h.ascending.append (List.Pairwise.sublist hsub hasc)
    intro entry hentry late hlate
    have hearly := hold entry hentry
    have hlate := (hround late (hsub.subset hlate)).1
    omega
  · intro entry hentry
    rcases List.mem_append.mp hentry with hentry | hentry
    · have hsoon := h.soon entry hentry
      omega
    · exact (hround entry (hsub.subset hentry)).2

/-- An update of the query that schedules nothing, or a round whose requests fall due after
all that are pending. -/
theorem queryUpdate_cases {s : State} (h : Timely s) (drift : List ℕ)
    (hclock : s.now + drift.sum < 2 ^ 32) (hround : RoundBeforeWrap s drift) :
    let s' := step s (.queryUpdate drift)
    Timely s' ∧
      (s'.router = s.router ∧ s'.scheduler = s.scheduler ∨
        ∃ round, s'.scheduler.pending = s.scheduler.pending ++ round ∧
          requestsIn round = TurnoutTableStartupQuery.turnoutAddresses ∧
          s'.router = { s.router with pendingAcks := ⟨s.router.pendingAcks.pendingAddresses ++
            TurnoutTableStartupQuery.turnoutAddresses⟩ }) := by
  have hsoon : ∀ entry ∈ requestEntries s.scheduler.pending,
      dueNat entry ≤ s.now + drift.sum + 940 := by
    intro entry hentry
    have hsoon := h.soon entry hentry
    omega
  by_cases hconnected : s.connected = true
  · obtain ⟨since, used, hsince, hresult | ⟨hqueried, hstable, hready, hresult⟩⟩ :=
      s.query.update_connected (fun k => reading (readingTime s drift k)) s.router.pendingAcks
        s.scheduler
    · -- nothing is scheduled, and `since` is an instant of the past
      simp only [step, hconnected, hresult]
      refine ⟨⟨h.ascending, hsoon, fun since' hmem hqueried => ?_⟩, Or.inl ⟨trivial, trivial⟩⟩
      obtain rfl : since = since' := Option.some.inj hmem
      obtain ⟨t, ht, hreading, hdue⟩ := h.counted_from drift hqueried hsince
      exact ⟨t, le_trans ht (readingTime_le s drift 0).2, hreading, hdue⟩
    · simp only [RoundBeforeWrap, hready] at hround
      obtain ⟨hascending, hround⟩ :=
        h.append_round hclock (hround hconnected trivial) hqueried hsince hstable
      simp only [step, hconnected, hresult]
      exact ⟨⟨hascending, hround, fun _ _ hq => absurd hq (by simp)⟩,
        Or.inr ⟨_, rfl, requestsIn_round _, trivial⟩⟩
  · -- the stream is down: the query starts over
    have hdown : s.connected = false := Bool.eq_false_iff.mpr hconnected
    simp only [step, hdown, TurnoutTableStartupQuery.update, Bool.not_false, if_true]
    exact ⟨⟨h.ascending, hsoon, fun since hsince => absurd hsince (by
      simp [TurnoutTableStartupQuery.resetForNextConnection])⟩, Or.inl ⟨trivial, trivial⟩⟩

theorem timely_step (s : State) (e : Event) (h : Timely s) (hclock : ClockUnwrapped s e)
    (hdue : DueTimesUnwrapped s e) : Timely (step s e) := by
  cases e with
  | tick milliseconds =>
    exact h.of_sublist (Nat.le_add_right _ _) rfl (List.Sublist.refl _)
  | connect => exact h.of_sublist (le_refl _) rfl (List.Sublist.refl _)
  | disconnect => exact h.of_sublist (le_refl _) rfl (List.Sublist.refl _)
  | station d2 => exact h.of_sublist (le_refl _) rfl (List.Sublist.refl _)
  | other frame => exact h.of_sublist (le_refl _) rfl (List.Sublist.refl _)
  | receive => exact h.of_sublist (le_refl _) rfl (List.Sublist.refl _)
  | command message =>
    refine Timely.of_sublist h (le_refl _) rfl ?_
    rw [requestEntries_command]
  | schedulerUpdate =>
    refine Timely.of_sublist h (le_refl _) rfl ?_
    simp only [step, transmit, update_eq]
    exact List.Sublist.filter _ (kept_sublist _ _)
  | queryUpdate drift => exact (queryUpdate_cases h drift hclock hdue).1

/-! ### The queue and what is under way -/

/-- The table, round after round. -/
def addressAt (i : ℕ) : ℤ := i % 48 + 1

theorem addressAt_inj (i j : ℕ) : addressAt i = addressAt j ↔ i % 48 = j % 48 := by
  unfold addressAt
  omega

theorem window_addressAt : window addressAt 0 48 = TurnoutTableStartupQuery.turnoutAddresses := by
  decide

def acked (inbound : List Inbound) : List ℤ := inbound.filterMap Inbound.answered

/-- The addresses whose acks are still to come, nearest first. -/
def underway (s : State) : List ℤ :=
  acked s.inbound ++ requests s.outbound ++ requestsIn s.scheduler.pending

structure Aligned (s : State) : Prop where
  matched : Matched addressAt 48 s.router.pendingAcks.pendingAddresses (underway s) s.lost
  down : s.connected = false → s.inbound = [] ∧ s.outbound = []
  quiet : ∀ frame, .other frame ∈ s.inbound → ¬ IsStateAck frame

theorem aligned_initial (start : ℕ) : Aligned (initial start) :=
  ⟨Matched.nil, fun _ => ⟨rfl, rfl⟩, fun _ h => absurd h List.not_mem_nil⟩

/-- Handing frames to the stream moves their requests on, or loses them. -/
theorem aligned_transmit {s : State} (h : Aligned s) (scheduler : PendingLocoNetSendScheduler)
    (sent : List LocoNetMessage)
    (hsplit : requests sent ++ requestsIn scheduler.pending = requestsIn s.scheduler.pending) :
    Aligned (transmit s (scheduler, sent)) := by
  have hmatched := h.matched
  rw [underway, ← hsplit] at hmatched
  by_cases hconnected : s.connected = true
  · refine ⟨?_, fun hdown => ?_, h.quiet⟩
    · simpa [transmit, hconnected, underway, requests_append] using hmatched
    · simp [transmit, hconnected] at hdown
  · have hdown : s.connected = false := Bool.eq_false_iff.mpr hconnected
    obtain ⟨hinbound, houtbound⟩ := h.down hdown
    refine ⟨?_, fun _ => ⟨hinbound, ?_⟩, h.quiet⟩
    · rw [hinbound, houtbound] at hmatched
      have hlost : Matched addressAt 48 s.router.pendingAcks.pendingAddresses
          (requests sent ++ requestsIn scheduler.pending) s.lost := hmatched
      have hunderway : underway (transmit s (scheduler, sent)) = requestsIn scheduler.pending := by
        simp [transmit, underway, hdown, hinbound, houtbound, acked, requests]
      rw [hunderway]
      simpa [transmit, hdown] using hlost.lose
    · simp [transmit, hdown, houtbound]

theorem stateAck_handled {router : LocoNetMessageRouter} {address : ℤ} {rest : List ℤ}
    (h : router.pendingAcks.pendingAddresses = address :: rest) (d2 : UInt8) :
    (router.handleMessage (stateAck d2)).1.pendingAcks.pendingAddresses = rest ∧
      (router.handleMessage (stateAck d2)).1.decoder.recorded =
        Function.update router.decoder.recorded address (some (positionOf d2)) := by
  have hdispatched : Dispatched (stateAck d2) := ⟨le_refl _, kOpcLongAck, rfl, by decide⟩
  have hack : IsStateAck (stateAck d2) := ⟨rfl, rfl⟩
  have hreport : LocoNetMessageRouter.reportOf router.pendingAcks (stateAck d2) =
      some (address, positionOf d2) := by
    rw [LocoNetMessageRouter.reportOf, if_pos hdispatched]
    simp [TurnoutLocoNetDecoder.reportOf, stateAck, checksummed, h]
  simp only [handleMessage_eq, hreport, absorb, recorded_emitIfChanged]
  refine ⟨?_, trivial⟩
  rw [LocoNetMessageRouter.acksAfter, if_pos hdispatched, TurnoutLocoNetDecoder.acksAfter,
    if_pos hack, h, List.tail_cons]

/-- A frame that is no ack leaves the queue alone. -/
theorem other_handled (router : LocoNetMessageRouter) {frame : LocoNetMessage}
    (h : ¬ IsStateAck frame) :
    (router.handleMessage frame).1.pendingAcks = router.pendingAcks := by
  simp only [handleMessage_eq, LocoNetMessageRouter.acksAfter, TurnoutLocoNetDecoder.acksAfter,
    if_neg h, ite_self]

theorem underway_ack {s : State} {address : ℤ} {d2 : UInt8} {rest : List Inbound}
    (h : s.inbound = .ack address d2 :: rest) :
    underway s =
      address :: (acked rest ++ requests s.outbound ++ requestsIn s.scheduler.pending) := by
  simp [underway, h, acked, Inbound.answered]

theorem aligned_receive {s : State} (h : Aligned s) : Aligned (step s .receive) := by
  rcases hinbound : s.inbound with _ | ⟨x, rest⟩
  · have hsame : step s .receive = s := by
      obtain ⟨now, connected, query, scheduler, router, outbound, inbound, lost⟩ := s
      simp only at hinbound
      simp [step, hinbound]
    rw [hsame]
    exact h
  · have hquiet : ∀ frame, .other frame ∈ rest → ¬ IsStateAck frame := fun frame hmem =>
      h.quiet frame (by rw [hinbound]; exact List.mem_cons_of_mem _ hmem)
    have hdown : s.connected = false → rest = [] ∧ s.outbound = [] := fun hd => by
      have hempty := (h.down hd).1
      rw [hinbound] at hempty
      cases hempty
    have hmatched := h.matched
    cases x with
    | ack address d2 =>
      rw [underway_ack hinbound] at hmatched
      obtain ⟨claim, acks, hacks, hnext, -⟩ := hmatched.claim addressAt_inj
      refine ⟨?_, by simpa [step, hinbound] using hdown, by simpa [step, hinbound] using hquiet⟩
      simp only [step, hinbound, List.head?_cons, List.tail_cons, Option.map_some, Option.getD_some,
        Inbound.frame, (stateAck_handled hacks d2).1]
      exact hnext
    | other frame =>
      have hframe : ¬ IsStateAck frame := h.quiet frame (by rw [hinbound]; exact List.mem_cons_self)
      refine ⟨?_, by simpa [step, hinbound] using hdown, by simpa [step, hinbound] using hquiet⟩
      have hsame : underway (step s .receive) = underway s := by
        simp [underway, step, hinbound, acked, List.filterMap_cons, Inbound.answered]
      rw [hsame]
      simp only [step, hinbound, List.head?_cons, Option.map_some, Option.getD_some, Inbound.frame,
        other_handled s.router hframe]
      exact hmatched

/-- The command station turns the next request into its ack. -/
theorem underway_station (s : State) (d2 : UInt8) :
    underway (step s (.station d2)) = underway s := by
  rcases houtbound : s.outbound with _ | ⟨frame, rest⟩
  · simp [underway, step, houtbound]
  · cases hrequest : requestedAddress frame <;>
      simp [underway, step, houtbound, requests, hrequest, acked, Inbound.answered]

theorem underway_other (s : State) (frame : LocoNetMessage) :
    underway (step s (.other frame)) = underway s := by
  simp only [underway, step]
  split_ifs <;> simp [acked, Inbound.answered]

/-- A round joins the end of the queue and of what is under way. -/
theorem aligned_queryUpdate {s : State} (h : Aligned s) (htimely : Timely s) {drift : List ℕ}
    (hclock : ClockUnwrapped s (.queryUpdate drift)) (hround : RoundBeforeWrap s drift) :
    Aligned (step s (.queryUpdate drift)) := by
  obtain ⟨-, ⟨hrouter, hscheduler⟩ | ⟨round, hpending, hround, hrouter⟩⟩ :=
    queryUpdate_cases htimely drift hclock hround
  · refine ⟨?_, h.down, h.quiet⟩
    rw [hrouter, underway, hscheduler]
    exact h.matched
  · refine ⟨?_, h.down, h.quiet⟩
    have hnext := h.matched.issue (fun i j hij => (addressAt_inj i j).mpr hij)
    rw [window_addressAt] at hnext
    have hunderway : underway (step s (.queryUpdate drift)) =
        underway s ++ TurnoutTableStartupQuery.turnoutAddresses := by
      rw [underway, hpending, requestsIn, List.map_append, requests_append, ← requestsIn,
        ← requestsIn, hround, ← List.append_assoc]
      rfl
    rw [hrouter, hunderway]
    exact hnext

theorem aligned_disconnect {s : State} (h : Aligned s) : Aligned (step s .disconnect) := by
  refine ⟨?_, fun _ => ⟨rfl, rfl⟩, fun _ hmem => absurd hmem List.not_mem_nil⟩
  have hmatched := h.matched
  rw [underway] at hmatched
  have hlost := hmatched.lose
  rw [List.length_append] at hlost
  exact hlost

theorem aligned_command {s : State} (h : Aligned s) (message : IncomingMqttMessage) :
    Aligned (step s (.command message)) := by
  simp only [step, MqttCommandRouter.handleMessage]
  rcases MqttCommandRouter.commandOf message with _ | command
  · exact aligned_transmit h _ _ rfl
  · rw [performAll_encode]
    apply aligned_transmit h
    simp [requests, requestsIn, sendAfter, List.filterMap_cons, requestedAddress_buildSwReq]

/-- The answer of the station takes the place of the request it answers. -/
theorem aligned_station {s : State} (h : Aligned s) (d2 : UInt8) :
    Aligned (step s (.station d2)) := by
  refine ⟨?_, fun hd => ?_, fun frame hmem => h.quiet frame ?_⟩
  · rw [underway_station]
    exact h.matched
  · obtain ⟨hinbound, houtbound⟩ := h.down hd
    simp [step, hinbound, houtbound]
  · rcases List.mem_append.mp hmem with hold | hnew
    · exact hold
    · obtain ⟨address, -, hack⟩ := Option.map_eq_some_iff.mp (Option.mem_toList.mp hnew)
      cases hack

theorem aligned_other {s : State} (h : Aligned s) {frame : LocoNetMessage}
    (hallowed : Allowed s (.other frame)) : Aligned (step s (.other frame)) := by
  refine ⟨?_, fun hd => ?_, fun other hmem => ?_⟩
  · rw [underway_other]
    exact h.matched
  · have hd' : s.connected = false := hd
    simpa [step, hd'] using h.down hd'
  · simp only [step] at hmem
    split_ifs at hmem
    · rcases List.mem_append.mp hmem with hold | hnew
      · exact h.quiet other hold
      · rw [List.mem_singleton] at hnew
        cases hnew
        exact hallowed.1 frame rfl
    · exact h.quiet other hmem

theorem aligned_step (s : State) (e : Event) (h : Aligned s) (htimely : Timely s)
    (hallowed : Allowed s e) (hdue : DueTimesUnwrapped s e) : Aligned (step s e) := by
  cases e with
  | tick milliseconds => exact ⟨h.matched, h.down, h.quiet⟩
  | connect => exact ⟨h.matched, fun hd => absurd hd (by simp [step]), h.quiet⟩
  | disconnect => exact aligned_disconnect h
  | schedulerUpdate =>
    simp only [step, update_eq]
    exact aligned_transmit h _ _ (requestsIn_released_kept htimely.ascending _)
  | command message => exact aligned_command h message
  | station d2 => exact aligned_station h d2
  | other frame => exact aligned_other h hallowed
  | queryUpdate drift => exact aligned_queryUpdate h htimely hallowed.2 hdue
  | receive => exact aligned_receive h

/-! ### Attribution -/

/-- An ack is taken for the address it answers exactly when whole rounds have been lost. -/
theorem attributed_iff (s : State) (e : Event) (h : Aligned s) :
    Attributed s e ↔ WholeRoundsLost s e := by
  unfold Attributed WholeRoundsLost
  refine forall_congr' fun address => forall_congr' fun d2 => imp_congr_right fun he =>
    imp_congr_right fun hhead => ?_
  subst he
  obtain ⟨rest, hinbound⟩ := List.head?_eq_some_iff.mp hhead
  have hmatched := h.matched
  rw [underway_ack hinbound] at hmatched
  obtain ⟨claim, acks, hacks, -, hiff⟩ := hmatched.claim addressAt_inj
  have hclaimed : s.router.pendingAcks.claimNext.1 = some ⟨claim⟩ := by
    simp [PendingTurnoutStateAcks.claimNext, hacks]
  rw [← hiff]
  constructor
  · rintro ⟨hclaim, -⟩
    rw [hclaimed] at hclaim
    exact congrArg TurnoutAddress.value (Option.some.inj hclaim)
  · rintro rfl
    refine ⟨hclaimed, ?_⟩
    simp only [step, hinbound, List.head?_cons, Option.map_some, Option.getD_some, Inbound.frame,
      (stateAck_handled hacks d2).2]

/-- In every run in which no request's due time wraps, every ack is taken for the address it
answers exactly when, whenever an ack is handled, the requests lost so far are a multiple of
the 48 of a round. -/
theorem acks_attributed_iff_whole_rounds_lost (start : ℕ) (events : List Event)
    (hallowed : AtEachStep step Allowed (initial start) events)
    (hdue : AtEachStep step DueTimesUnwrapped (initial start) events) :
    AtEachStep step Attributed (initial start) events ↔
      AtEachStep step WholeRoundsLost (initial start) events :=
  atEachStep_iff (I := fun s => Timely s ∧ Aligned s)
    (A := fun s e => Allowed s e ∧ DueTimesUnwrapped s e)
    (fun s e h ha => ⟨timely_step s e h.1 ha.1.2 ha.2, aligned_step s e h.2 h.1 ha.1 ha.2⟩)
    (fun s e h _ => attributed_iff s e h.2) ⟨timely_initial start, aligned_initial start⟩
    (atEachStep_and.mpr ⟨hallowed, hdue⟩)

/-- The stream is down for a moment just after a query: the request for turnout 1 is
discarded, the one for turnout 2 is answered. -/
def briefDrop : List Event :=
  [.connect, .queryUpdate [], .tick 2000, .queryUpdate [], .disconnect, .schedulerUpdate, .connect,
    .tick 20, .schedulerUpdate, .station 0x30]

theorem allowed_of_quiet {s : State} {events : List Event}
    (hquiet : ∀ frame, .other frame ∉ events) (hclock : AtEachStep step ClockUnwrapped s events) :
    AtEachStep step Allowed s events := by
  refine atEachStep_and.mpr ⟨atEachStep_of_forall (fun _ e he frame hother => ?_) s, hclock⟩
  subst hother
  exact absurd he (hquiet frame)

theorem briefDrop_allowed :
    AtEachStep step Allowed (initial 0) (briefDrop ++ [.receive]) :=
  allowed_of_quiet (by simp [briefDrop]) (by decide)

theorem acks_attributed_iff_briefDrop :
    AtEachStep step Attributed (initial 0) (briefDrop ++ [.receive]) ↔
      AtEachStep step WholeRoundsLost (initial 0) (briefDrop ++ [.receive]) :=
  acks_attributed_iff_whole_rounds_lost 0 _ briefDrop_allowed (by decide)

/-- The answer for turnout 2 is recorded for turnout 1. -/
theorem ack_after_drop_misattributed :
    AtEachStep step Allowed (initial 0) (briefDrop ++ [.receive]) ∧
      ¬ AtEachStep step Attributed (initial 0) (briefDrop ++ [.receive]) ∧
      (run step (initial 0) briefDrop).inbound = [.ack 2 0x30] ∧
      (run step (initial 0) (briefDrop ++ [.receive])).router.decoder.recorded 1 =
        some .closed := by
  have hinbound : (run step (initial 0) briefDrop).inbound = [.ack 2 0x30] := by decide
  refine ⟨briefDrop_allowed, fun h => ?_, hinbound, by decide⟩
  obtain ⟨-, hlast, -⟩ := atEachStep_append.mp h
  have hclaim := (hlast 2 0x30 rfl (by rw [hinbound]; rfl)).1
  exact absurd hclaim (by decide)

-- the query fires 600 milliseconds before the wrap: nothing is lost, but the requests of
-- turnouts 31 to 48 go out right after the first, and the ack for 31 would be taken for 2
example :
    let events : List Event := [.connect, .queryUpdate [], .tick 2000, .queryUpdate [], .tick 10,
      .schedulerUpdate, .station 0x30, .station 0x30, .receive]
    let s := run step (initial (2 ^ 32 - 2600)) events
    AtEachStep step ClockUnwrapped (initial (2 ^ 32 - 2600)) events ∧ s.lost = 0 ∧
      s.inbound = [.ack 31 0x30] ∧ s.router.pendingAcks.claimNext.1 = some ⟨2⟩ := by
  decide

end Loco2Mqtt.AckAttribution
