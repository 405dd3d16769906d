import Mathlib.Data.Int.Bitwise
import Loco2Mqtt.Domain.Turnout
import Loco2Mqtt.Foundations.ChangeLog

/-! `PendingTurnoutStateAcks` and `TurnoutLocoNetDecoder`. The decoder takes three message
families as position reports and emits an event for each report that changes the recorded
position of its address. A `OPC_LONG_ACK` carries no address and takes the oldest pending
one. Every read of a message byte returns `none` past its end; on four bytes or more none
does. -/

namespace Loco2Mqtt

/-- A FIFO of addresses whose state has been asked for, oldest first. -/
structure PendingTurnoutStateAcks where
  pendingAddresses : List ℤ
  deriving DecidableEq, Repr

namespace PendingTurnoutStateAcks

def expect (acks : PendingTurnoutStateAcks) (address : TurnoutAddress) : PendingTurnoutStateAcks :=
  ⟨acks.pendingAddresses ++ [address.value]⟩

def claimNext (acks : PendingTurnoutStateAcks) :
    Option TurnoutAddress × PendingTurnoutStateAcks :=
  match acks.pendingAddresses with
  | [] => (none, acks)
  | address :: rest => (some ⟨address⟩, ⟨rest⟩)

end PendingTurnoutStateAcks

def kOpcSwReq : UInt8 := 0xB0
def kOpcSwRep : UInt8 := 0xB1
def kOpcLongAck : UInt8 := 0xB4
def kSwRepInputs : UInt8 := 0x40
def kClosedBit : UInt8 := 0x20
def kSwitchStateAckCode : UInt8 := 0x3C

def addressFrom (message : LocoNetMessage) : Option ℤ := do
  let sw2 ← message.bytes[2]?
  let sw1 ← message.bytes[1]?
  return (((sw2 &&& 0x0F).toNat <<< 7) ||| (sw1 &&& 0x7F).toNat : ℕ) + 1

def positionFrom (message : LocoNetMessage) : Option TurnoutPosition := do
  let sw2 ← message.bytes[2]?
  return if sw2 &&& kClosedBit ≠ 0 then .closed else .thrown

def isSensorReport (message : LocoNetMessage) : Option Bool := do
  let opcode ← message.bytes[0]?
  if opcode ≠ kOpcSwRep then return false
  let sw2 ← message.bytes[2]?
  return sw2 &&& kSwRepInputs ≠ 0

/-- The decoder's own state; the queue of pending acks is shared and passed alongside. -/
structure TurnoutLocoNetDecoder where
  lastKnownPosition : Std.TreeMap ℤ TurnoutPosition

namespace TurnoutLocoNetDecoder

def canDecode (opcode : UInt8) : Bool :=
  opcode = kOpcSwReq || opcode = kOpcSwRep || opcode = kOpcLongAck

def shouldEmitPositionChange (decoder : TurnoutLocoNetDecoder) (address : ℤ)
    (position : TurnoutPosition) : Bool × TurnoutLocoNetDecoder :=
  if decoder.lastKnownPosition[address]? = some position then (false, decoder)
  else (true, ⟨decoder.lastKnownPosition.insert address position⟩)

def emitIfChanged (decoder : TurnoutLocoNetDecoder) (address : ℤ) (position : TurnoutPosition) :
    Option DomainEvent × TurnoutLocoNetDecoder :=
  let (emit, decoder) := decoder.shouldEmitPositionChange address position
  (if emit then some ⟨⟨address⟩, position⟩ else none, decoder)

def decodeSwitchMessage (decoder : TurnoutLocoNetDecoder) (acks : PendingTurnoutStateAcks)
    (message : LocoNetMessage) :
    Option (Option DomainEvent × TurnoutLocoNetDecoder × PendingTurnoutStateAcks) := do
  if ← isSensorReport message then return (none, decoder, acks)
  let (event, decoder) := decoder.emitIfChanged (← addressFrom message) (← positionFrom message)
  return (event, decoder, acks)

def decodeStateAck (decoder : TurnoutLocoNetDecoder) (acks : PendingTurnoutStateAcks)
    (message : LocoNetMessage) :
    Option (Option DomainEvent × TurnoutLocoNetDecoder × PendingTurnoutStateAcks) := do
  let d1 ← message.bytes[1]?
  if d1 ≠ kSwitchStateAckCode then return (none, decoder, acks)
  match acks.claimNext with
  | (none, acks) => return (none, decoder, acks)
  | (some address, acks) =>
    let (event, decoder) := decoder.emitIfChanged address.value (← positionFrom message)
    return (event, decoder, acks)

/-- The event, and the decoder and queue afterwards; `none` is a read past the end of the
message. -/
def decode (decoder : TurnoutLocoNetDecoder) (acks : PendingTurnoutStateAcks)
    (message : LocoNetMessage) :
    Option (Option DomainEvent × TurnoutLocoNetDecoder × PendingTurnoutStateAcks) := do
  let opcode ← message.bytes[0]?
  if opcode = kOpcLongAck then decoder.decodeStateAck acks message
  else decoder.decodeSwitchMessage acks message

def allKnownStates (decoder : TurnoutLocoNetDecoder) : List DomainEvent :=
  decoder.lastKnownPosition.toList.map (fun entry => ⟨⟨entry.1⟩, entry.2⟩)

/-! ### What a frame reports

The specification of `decode`: a frame makes at most one report of a position, taken from
its bytes and the queue alone, and the decoder records it. -/

/-- The recorded position of an address. -/
def recorded (decoder : TurnoutLocoNetDecoder) (address : ℤ) : Option TurnoutPosition :=
  decoder.lastKnownPosition[address]?

def addressOf (sw1 sw2 : UInt8) : ℤ :=
  (((sw2 &&& 0x0F).toNat <<< 7) ||| (sw1 &&& 0x7F).toNat : ℕ) + 1

def positionOf (sw2 : UInt8) : TurnoutPosition :=
  if sw2 &&& kClosedBit ≠ 0 then .closed else .thrown

/-- A switch-state ack, the one kind of frame that takes a pending address. -/
def IsStateAck (message : LocoNetMessage) : Prop :=
  message.bytes[0]? = some kOpcLongAck ∧ message.bytes[1]? = some kSwitchStateAckCode

instance (message : LocoNetMessage) : Decidable (IsStateAck message) :=
  inferInstanceAs (Decidable (_ ∧ _))

/-- The position a frame reports, and for which address. -/
def reportOf (acks : PendingTurnoutStateAcks) (message : LocoNetMessage) :
    Option (ℤ × TurnoutPosition) :=
  match message.bytes with
  | opcode :: b1 :: b2 :: _ =>
    if opcode = kOpcLongAck then
      if b1 = kSwitchStateAckCode then acks.pendingAddresses.head?.map (·, positionOf b2) else none
    else if opcode = kOpcSwRep ∧ b2 &&& kSwRepInputs ≠ 0 then none
    else some (addressOf b1 b2, positionOf b2)
  | _ => none

def acksAfter (acks : PendingTurnoutStateAcks) (message : LocoNetMessage) :
    PendingTurnoutStateAcks :=
  if IsStateAck message then ⟨acks.pendingAddresses.tail⟩ else acks

/-- Record a report, if there is one. -/
def absorb (decoder : TurnoutLocoNetDecoder) :
    Option (ℤ × TurnoutPosition) → Option DomainEvent × TurnoutLocoNetDecoder
  | none => (none, decoder)
  | some (address, position) => decoder.emitIfChanged address position

/-- `decode` reads no byte past the third, and records the report of the frame. -/
theorem decode_eq (decoder : TurnoutLocoNetDecoder) (acks : PendingTurnoutStateAcks)
    (message : LocoNetMessage) (h : 3 ≤ message.bytes.length) :
    decoder.decode acks message =
      some ((decoder.absorb (reportOf acks message)).1, (decoder.absorb (reportOf acks message)).2,
        acksAfter acks message) := by
  obtain ⟨_ | ⟨opcode, _ | ⟨b1, _ | ⟨b2, rest⟩⟩⟩⟩ := message
  iterate 3 simp at h
  by_cases hack : opcode = kOpcLongAck
  · subst hack
    by_cases hcode : b1 = kSwitchStateAckCode
    · subst hcode
      rcases acks with ⟨_ | ⟨address, pending⟩⟩ <;>
        simp [decode, decodeStateAck, reportOf, acksAfter, IsStateAck, absorb, positionFrom,
          positionOf, PendingTurnoutStateAcks.claimNext]
    · simp [decode, decodeStateAck, reportOf, acksAfter, IsStateAck, absorb, hcode]
  · by_cases hrep : opcode = kOpcSwRep
    · subst hrep
      by_cases hsensor : b2 &&& kSwRepInputs = 0 <;>
        simp [decode, decodeSwitchMessage, isSensorReport, reportOf, acksAfter, IsStateAck, absorb,
          addressFrom, addressOf, positionFrom, positionOf, hack, hsensor]
    · simp [decode, decodeSwitchMessage, isSensorReport, reportOf, acksAfter, IsStateAck, absorb,
        addressFrom, addressOf, positionFrom, positionOf, hack, hrep]

/-- An ack that takes an address reports a position for it. -/
theorem acksAfter_of_no_report {acks : PendingTurnoutStateAcks} {message : LocoNetMessage}
    (h : 3 ≤ message.bytes.length) (hnone : reportOf acks message = none) :
    acksAfter acks message = acks := by
  obtain ⟨_ | ⟨opcode, _ | ⟨b1, _ | ⟨b2, rest⟩⟩⟩⟩ := message
  iterate 3 simp at h
  rw [acksAfter]
  split_ifs with hack
  · obtain ⟨hopcode, hcode⟩ := hack
    obtain rfl : opcode = kOpcLongAck := Option.some.inj hopcode
    obtain rfl : b1 = kSwitchStateAckCode := Option.some.inj hcode
    simp only [reportOf, reduceIte, Option.map_eq_none_iff, List.head?_eq_none_iff] at hnone
    rw [hnone, List.tail_nil, ← hnone]
  · rfl

theorem recorded_emitIfChanged (decoder : TurnoutLocoNetDecoder) (address : ℤ)
    (position : TurnoutPosition) :
    (decoder.emitIfChanged address position).2.recorded =
      Function.update decoder.recorded address (some position) := by
  unfold emitIfChanged shouldEmitPositionChange
  split_ifs with h
  · exact (Function.update_eq_self_iff.mpr h.symm).symm
  · funext a
    by_cases ha : a = address
    · subst ha; simp [recorded]
    · rw [Function.update_of_ne ha]
      simp [recorded, Std.TreeMap.getElem?_insert, Ne.symm ha]

theorem emitIfChanged_event (decoder : TurnoutLocoNetDecoder) (address : ℤ)
    (position : TurnoutPosition) :
    (decoder.emitIfChanged address position).1 =
      if decoder.recorded address = some position then none else some ⟨⟨address⟩, position⟩ := by
  unfold emitIfChanged shouldEmitPositionChange recorded
  split_ifs <;> rfl

/-- An event as a report of its position for its address. -/
def asReport (event : DomainEvent) : ℤ × TurnoutPosition := (event.address.value, event.position)

/-- Absorbing a report records it, and emits it if it is a change. -/
theorem absorb_changes (decoder : TurnoutLocoNetDecoder) (report : Option (ℤ × TurnoutPosition)) :
    (decoder.absorb report).2.recorded = ChangeLog.seenAfter decoder.recorded report.toList ∧
      (decoder.absorb report).1.toList.map asReport =
        ChangeLog.changesFrom decoder.recorded report.toList := by
  rcases report with _ | ⟨a, p⟩
  · exact ⟨rfl, rfl⟩
  · constructor
    · rw [absorb, recorded_emitIfChanged]
      exact ChangeLog.seenAfter_cons decoder.recorded (a, p) []
    · rw [absorb, emitIfChanged_event]
      by_cases h : decoder.recorded a = some p <;> simp [ChangeLog.changesFrom, h, asReport]

theorem mem_allKnownStates {decoder : TurnoutLocoNetDecoder} {event : DomainEvent} :
    event ∈ decoder.allKnownStates ↔
      decoder.recorded event.address.value = some event.position := by
  simp only [allKnownStates, List.mem_map, Prod.exists, recorded]
  constructor
  · rintro ⟨a, p, hmem, rfl⟩
    exact Std.TreeMap.mem_toList_iff_getElem?_eq_some.mp hmem
  · intro h
    exact ⟨_, _, Std.TreeMap.mem_toList_iff_getElem?_eq_some.mpr h, rfl⟩

/-- The map lists its entries by address. -/
theorem allKnownStates_ascending (decoder : TurnoutLocoNetDecoder) :
    (decoder.allKnownStates.map (fun event => event.address.value)).Pairwise (· < ·) := by
  rw [allKnownStates, List.map_map, List.pairwise_map]
  refine List.Pairwise.imp ?_ Std.TreeMap.ordered_keys_toList
  intro first second hlt
  exact Int.compare_eq_lt.mp hlt

theorem toNat_and_lowNibble (byte : UInt8) : (byte &&& 0x0F).toNat = byte.toNat % 16 := by
  rw [UInt8.toNat_and]
  exact Nat.and_two_pow_sub_one_eq_mod byte.toNat 4

/-- The two fields of an address side by side. -/
theorem addressOf_eq (sw1 sw2 : UInt8) :
    addressOf sw1 sw2 = 128 * (sw2.toNat % 16) + sw1.toNat % 128 + 1 := by
  have hlow : (sw1 &&& 0x7F).toNat = sw1.toNat % 128 := by
    rw [UInt8.toNat_and]
    exact Nat.and_two_pow_sub_one_eq_mod sw1.toNat 7
  have hpack : ((sw2.toNat % 16) <<< 7 ||| sw1.toNat % 128) =
      128 * (sw2.toNat % 16) + sw1.toNat % 128 := by
    rw [← Nat.shiftLeft_add_eq_or_of_lt (Nat.mod_lt _ (by decide)), Nat.shiftLeft_eq]
    omega
  rw [addressOf, toNat_and_lowNibble, hlow, hpack]
  push_cast
  rfl

end TurnoutLocoNetDecoder
end Loco2Mqtt
