import Loco2Mqtt.Domain.LocoNetMessage
import Loco2Mqtt.Foundations.BoundedQueue

/-! `LocoNetEsp32Port`, the port of the electrical bus. The vendor library hands over what its
receiver has framed, with flags for what went wrong. Flagged frames are dropped at the door,
so they never push a good one out of the queue, and neither a frame nor a packet is longer than
the library's buffers. The library's header is not part of the repository, so its flags are
arbitrary here. -/

namespace Loco2Mqtt.LocoNetEsp32Port

open BoundedQueue Runs

/-- The bits of `errorFlags` that mark a frame as invalid, one byte each. -/
structure IoTTCommDef where
  errorCollision : UInt8
  errorFrame : UInt8
  errorTimeout : UInt8
  errorCarrierLoss : UInt8
  msgIncomplete : UInt8
  msgXORCheck : UInt8
  msgStrayData : UInt8

variable (vendor : IoTTCommDef)

def kMaxPendingMessages : ℕ := 32

/-- The size of the buffers of the library. -/
def lnMaxMsgSize : ℕ := 48

/-- `lnData` has `lnMaxMsgSize` bytes, of which the library claims `lnMsgSize`. -/
structure lnReceiveBuffer where
  lnData : List UInt8
  lnMsgSize : UInt8
  errorFlags : UInt8
  deriving DecidableEq, Repr

structure lnTransmitMsg where
  lnData : List UInt8
  lnMsgSize : UInt8
  deriving DecidableEq, Repr

def kInvalidFrameFlags : UInt8 :=
  vendor.errorCollision ||| vendor.errorFrame ||| vendor.errorTimeout |||
    vendor.errorCarrierLoss ||| vendor.msgIncomplete ||| vendor.msgXORCheck |||
    vendor.msgStrayData

def onLocoNetMessageReceived (pendingMessages : List LocoNetMessage) (buffer : lnReceiveBuffer) :
    List LocoNetMessage :=
  if buffer.errorFlags &&& kInvalidFrameFlags vendor ≠ 0 then pendingMessages
  else
    let size := min buffer.lnMsgSize.toNat lnMaxMsgSize
    let pendingMessages :=
      if pendingMessages.length ≥ kMaxPendingMessages then pendingMessages.tail
      else pendingMessages
    pendingMessages ++ [⟨buffer.lnData.take size⟩]

def receive (pendingMessages : List LocoNetMessage) :
    Option LocoNetMessage × List LocoNetMessage :=
  match pendingMessages with
  | [] => (none, [])
  | message :: rest => (some message, rest)

/-- The packet that is handed to the library. -/
def send (message : LocoNetMessage) : lnTransmitMsg :=
  let size := min message.bytes.length lnMaxMsgSize
  ⟨message.bytes.take size, UInt8.ofNat size⟩

/-! ### Callbacks and calls of the port -/

inductive Event where
  | callback (buffer : lnReceiveBuffer)
  | receive
  | send (message : LocoNetMessage)
  deriving DecidableEq, Repr

/-- `written` are the packets handed to `lnWriteMsg`. -/
structure State where
  pendingMessages : List LocoNetMessage
  returned : List LocoNetMessage
  written : List lnTransmitMsg

def initial : State := ⟨[], [], []⟩

def step (s : State) : Event → State
  | .callback buffer =>
    { s with pendingMessages := onLocoNetMessageReceived vendor s.pendingMessages buffer }
  | .receive =>
    let (message, pendingMessages) := LocoNetEsp32Port.receive s.pendingMessages
    { s with pendingMessages := pendingMessages, returned := s.returned ++ message.toList }
  | .send message => { s with written := s.written ++ [LocoNetEsp32Port.send message] }

/-- No flag is set that marks a frame as invalid. -/
def Valid (buffer : lnReceiveBuffer) : Prop :=
  ∀ flag ∈ [vendor.errorCollision, vendor.errorFrame, vendor.errorTimeout,
    vendor.errorCarrierLoss, vendor.msgIncomplete, vendor.msgXORCheck, vendor.msgStrayData],
    buffer.errorFlags &&& flag = 0

instance (buffer : lnReceiveBuffer) : Decidable (Valid vendor buffer) :=
  inferInstanceAs (Decidable (∀ flag ∈ _, _))

/-- The frame in a buffer. -/
def frameOf (buffer : lnReceiveBuffer) : LocoNetMessage :=
  ⟨buffer.lnData.take (min buffer.lnMsgSize.toNat lnMaxMsgSize)⟩

/-- An invalid frame is no event for the queue, nor is a message that is sent. -/
def queueEvent : Event → Option (BoundedQueue.Event LocoNetMessage)
  | .callback buffer => if Valid vendor buffer then some (.push (frameOf buffer)) else none
  | .receive => some .pop
  | .send _ => none

def Event.sent? : Event → Option LocoNetMessage
  | .send message => some message
  | .callback _ | .receive => none

def contents (s : State) : BoundedQueue.State LocoNetMessage := ⟨s.pendingMessages, s.returned⟩

variable {vendor}

theorem and_or_eq_zero_iff (flags a b : UInt8) :
    flags &&& (a ||| b) = 0 ↔ flags &&& a = 0 ∧ flags &&& b = 0 := by
  have hsplit : flags &&& (a ||| b) = (flags &&& a) ||| (flags &&& b) := by
    apply UInt8.toBitVec_inj.mp
    simp only [UInt8.toBitVec_and, UInt8.toBitVec_or, BitVec.and_or_distrib_left]
  rw [hsplit, UInt8.or_eq_zero_iff]

theorem valid_iff (buffer : lnReceiveBuffer) :
    Valid vendor buffer ↔ buffer.errorFlags &&& kInvalidFrameFlags vendor = 0 := by
  simp only [Valid, kInvalidFrameFlags, List.mem_cons, List.not_mem_nil, or_false, forall_eq_or_imp,
    forall_eq, and_or_eq_zero_iff, and_assoc]

/-- A callback pushes the frame of a valid buffer and ignores any other. -/
theorem onLocoNetMessageReceived_eq (pendingMessages : List LocoNetMessage)
    (buffer : lnReceiveBuffer) :
    onLocoNetMessageReceived vendor pendingMessages buffer =
      if Valid vendor buffer then push kMaxPendingMessages pendingMessages (frameOf buffer)
      else pendingMessages := by
  rw [onLocoNetMessageReceived, frameOf, push]
  by_cases hvalid : Valid vendor buffer
  · rw [if_pos hvalid, if_neg (not_not.mpr ((valid_iff buffer).mp hvalid))]
  · rw [if_neg hvalid, if_pos (fun h => hvalid ((valid_iff buffer).mpr h))]

theorem contents_step (s : State) (e : Event) :
    contents (step vendor s e) =
      run (BoundedQueue.step kMaxPendingMessages) (contents s) (queueEvent vendor e).toList := by
  obtain ⟨pendingMessages, returned, written⟩ := s
  cases e with
  | callback buffer =>
    simp only [step, onLocoNetMessageReceived_eq, queueEvent]
    split_ifs <;> rfl
  | receive => cases pendingMessages <;> rfl
  | send message => rfl

theorem contents_run (s : State) (events : List Event) :
    contents (run (step vendor) s events) =
      run (BoundedQueue.step kMaxPendingMessages) (contents s)
        (events.filterMap (queueEvent vendor)) := by
  induction events generalizing s with
  | nil => rfl
  | cons e rest ih =>
    rw [run_cons, ih, contents_step]
    rcases hevent : queueEvent vendor e with _ | event
    · rw [List.filterMap_cons_none hevent]
      rfl
    · rw [List.filterMap_cons_some hevent]
      rfl

theorem pushed_queueEvent {events : List Event} {message : LocoNetMessage}
    (h : message ∈ pushed (events.filterMap (queueEvent vendor))) :
    ∃ buffer, .callback buffer ∈ events ∧ Valid vendor buffer ∧ message = frameOf buffer := by
  obtain ⟨pushing, hpushing, hmessage⟩ := List.mem_flatMap.mp h
  obtain ⟨e, he, hqueue⟩ := List.mem_filterMap.mp hpushing
  cases e with
  | receive =>
    obtain rfl := Option.some.inj hqueue
    exact absurd hmessage List.not_mem_nil
  | send message => cases hqueue
  | callback buffer =>
    rw [queueEvent, Option.ite_none_right_eq_some] at hqueue
    obtain ⟨hvalid, hpush⟩ := hqueue
    obtain rfl := Option.some.inj hpush
    exact ⟨buffer, he, hvalid, List.mem_singleton.mp hmessage⟩

/-- A packet holds as much of the message as the buffer of the library can. -/
theorem send_clamped (message : LocoNetMessage) :
    (send message).lnData = message.bytes.take lnMaxMsgSize ∧
      (send message).lnMsgSize.toNat = (send message).lnData.length := by
  have hmax : lnMaxMsgSize = 48 := rfl
  rw [send]
  constructor
  · rcases Nat.le_total message.bytes.length lnMaxMsgSize with hfits | hlong
    · rw [Nat.min_eq_left hfits, List.take_length, List.take_of_length_le hfits]
    · rw [Nat.min_eq_right hlong]
  · rw [UInt8.toNat_ofNat', List.length_take]
    omega

/-- Each message sent is written as one packet. -/
theorem written_run (s : State) (events : List Event) :
    (run (step vendor) s events).written =
      s.written ++ (events.filterMap Event.sent?).map LocoNetEsp32Port.send := by
  induction events generalizing s with
  | nil => exact (List.append_nil _).symm
  | cons e rest ih =>
    rw [run_cons, ih]
    cases e with
    | callback | receive => rfl
    | send message => exact List.append_assoc _ _ _

/-- Whatever the receiver frames and whenever the frames are taken, invalid ones play no part:
the port is the bounded queue of 32 over the valid ones alone. Each message that is waiting
or was returned is the frame of a valid buffer, clamped to the 48 bytes of the buffer. Each
message that is sent is written in its turn, clamped in the same way. -/
theorem bus_queue_of_valid_frames (vendor : IoTTCommDef) (events : List Event) :
    let s := run (step vendor) initial events
    let valid := events.filterMap (queueEvent vendor)
    contents s = run (BoundedQueue.step 32) BoundedQueue.initial valid ∧ DropsOldest 32 valid ∧
      (∀ message ∈ s.returned ++ s.pendingMessages, message.bytes.length ≤ 48 ∧
        ∃ buffer, .callback buffer ∈ events ∧ Valid vendor buffer ∧ message = frameOf buffer) ∧
      s.written.map lnTransmitMsg.lnData =
        (events.filterMap Event.sent?).map (fun message => message.bytes.take 48) ∧
      ∀ packet ∈ s.written, packet.lnMsgSize.toNat = packet.lnData.length := by
  intro s valid
  have hcontents : contents s = run (BoundedQueue.step 32) BoundedQueue.initial valid :=
    contents_run initial events
  have hwritten : s.written = (events.filterMap Event.sent?).map LocoNetEsp32Port.send :=
    written_run initial events
  refine ⟨hcontents, dropsOldest (by decide) valid, fun message hmessage => ?_, ?_,
    fun packet hpacket => ?_⟩
  · have hpushed : message ∈ pushed valid := by
      have horder := (ordered_run 32 valid).inOrder
      rw [← hcontents] at horder
      exact horder.subset hmessage
    obtain ⟨buffer, hbuffer, hvalid, rfl⟩ := pushed_queueEvent hpushed
    refine ⟨?_, buffer, hbuffer, hvalid, rfl⟩
    rw [frameOf, List.length_take]
    have hmax : lnMaxMsgSize = 48 := rfl
    omega
  · rw [hwritten, List.map_map]
    exact List.map_congr_left (fun message _ => (send_clamped message).1)
  · rw [hwritten] at hpacket
    obtain ⟨message, -, rfl⟩ := List.mem_map.mp hpacket
    exact (send_clamped message).2

end Loco2Mqtt.LocoNetEsp32Port
