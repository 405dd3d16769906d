import Loco2Mqtt.Adapters.LocoNetOverTcp
import Loco2Mqtt.Application.CommandRouter

/-! The command path and back. A `set` message is accepted exactly within its grammar; then
one frame goes out at once and one later, and either of them, printed, read from a `RECEIVE`
line and decoded, records the commanded position of the commanded turnout. -/

namespace Loco2Mqtt.CommandPath

open LocoNetOverTcpCodec TurnoutLocoNetDecoder TurnoutMqttEncoder
open TurnoutLocoNetEncoder (buildSwReq)

/-- A message on `loconet/<deviceType>/<address>/set`. -/
def setMessage (deviceType address payload : Text) : IncomingMqttMessage :=
  ⟨"loconet/".toList ++ deviceType ++ '/' :: (address ++ "/set".toList), payload⟩

theorem setMessage_topic (deviceType address payload : Text) :
    (setMessage deviceType address payload).topic =
      "loconet/".toList ++ deviceType ++ '/' :: (address ++ "/set".toList) := rfl

theorem setMessage_payload (deviceType address payload : Text) :
    (setMessage deviceType address payload).payload = payload := rfl

/-- The messages that command a turnout, and what they command. -/
structure Commands (deviceType address payload : Text) (n : ℕ) (position : TurnoutPosition) :
    Prop where
  deviceType_eq : deviceType = "turnout".toList
  nonempty : address ≠ []
  short : address.length ≤ 4
  digits : ∀ c ∈ address, c.isDigit
  value_eq : Decimal.value address = n
  low : 1 ≤ n
  high : n ≤ 2048
  payload_eq : position = .closed ∧ payload = "CLOSED".toList ∨
    position = .thrown ∧ payload = "THROWN".toList

/-- Four bytes, the top bit set on the first only, summing to `0xFF`. -/
def WellFormed (frame : LocoNetMessage) : Prop :=
  ∃ opcode d1 d2 checksum, frame.bytes = [opcode, d1, d2, checksum] ∧
    0x80 ≤ opcode ∧ d1 < 0x80 ∧ d2 < 0x80 ∧ checksum < 0x80 ∧ xorOf frame.bytes = 0xFF

/-- In any state of the decoder the frame, read from a line, records the position for `n` and
no other, and an event for it has the state topic of `n` and the payload. -/
def RoundTrips (frame : LocoNetMessage) (n : ℕ) (position : TurnoutPosition) (payload : Text) :
    Prop :=
  ∀ (decoder : TurnoutLocoNetDecoder) (acks : PendingTurnoutStateAcks),
    ∃ message event decoder', decodeLine (kReceivePrefix ++ frame.describe) = some message ∧
      decoder.decode acks message = some (event, decoder', acks) ∧
      decoder'.recorded = Function.update decoder.recorded n (some position) ∧
      ∀ e ∈ event, encode e =
        ⟨"loconet/turnout/".toList ++ Decimal.print n ++ "/state".toList, payload, true⟩

/-! ### The grammar -/

theorem payload_iff (payload : Text) (position : TurnoutPosition) :
    (position = .closed ∧ payload = "CLOSED".toList ∨
      position = .thrown ∧ payload = "THROWN".toList) ↔ payload = payloadOf position := by
  unfold payloadOf
  cases position <;> simp

theorem commandOf_setMessage {deviceType address : Text} (hd : '/' ∉ deviceType)
    (ha : '/' ∉ address) (payload : Text) (command : DomainCommand) :
    MqttCommandRouter.commandOf (setMessage deviceType address payload) = some command ↔
      ∃ n : ℕ, command.address.value = n ∧
        Commands deviceType address payload n command.position := by
  have hparse : MqttCommandRouter.parseDeviceTypeAndAddress
      (setMessage deviceType address payload).topic = some (deviceType, address) := by
    rw [setMessage_topic]
    exact MqttCommandRouter.parseDeviceTypeAndAddress_set hd ha
  rw [MqttCommandRouter.commandOf_of_segments hparse, setMessage_payload,
    Option.ite_none_right_eq_some, TurnoutMqttCommandDecoder.decode_eq_some_iff,
    TurnoutMqttCommandDecoder.parseAddress_eq_some_iff,
    TurnoutMqttCommandDecoder.parsePosition_eq_some_iff]
  constructor
  · rintro ⟨hdevice, ⟨hne, hshort, hdigits, hvalue, hlow, hhigh⟩, hpos⟩
    exact ⟨Decimal.value address, hvalue.symm, hdevice, hne, hshort, hdigits, rfl, by omega,
      by omega, (payload_iff _ _).mpr hpos⟩
  · rintro ⟨n, hn, h⟩
    refine ⟨h.deviceType_eq, ⟨h.nonempty, h.short, h.digits, ?_, ?_, ?_⟩,
      (payload_iff _ _).mp h.payload_eq⟩
    · rw [hn, h.value_eq]
    · have hlow := h.low; omega
    · have hhigh := h.high; omega

/-! ### The frames -/

theorem sw2Of_lt : ∀ h : Fin 16, ∀ position outputOn, sw2Of h position outputOn < 0x80 := by
  intro h position outputOn
  revert h
  cases position <;> cases outputOn <;> decide

/-- The checksum of an opcode and two data bytes is a data byte. -/
theorem checksum_lt {opcode d1 d2 : UInt8} (hop : 0x80 ≤ opcode) (h1 : d1 < 0x80)
    (h2 : d2 < 0x80) : computeLocoNetChecksum [opcode, d1, d2] < 0x80 := by
  have hmsb : ∀ b : UInt8, b.toBitVec.msb = decide (0x80 ≤ b) := by
    intro b
    rw [BitVec.msb_eq_decide, decide_eq_decide, UInt8.le_iff_toNat_le]
    rfl
  have hchecksum : computeLocoNetChecksum [opcode, d1, d2] = opcode ^^^ d1 ^^^ d2 ^^^ 0xFF := by
    simp [computeLocoNetChecksum]
  have hbit := hmsb (opcode ^^^ d1 ^^^ d2 ^^^ 0xFF)
  rw [UInt8.toBitVec_xor, UInt8.toBitVec_xor, UInt8.toBitVec_xor, BitVec.msb_xor, BitVec.msb_xor,
    BitVec.msb_xor, hmsb, hmsb, hmsb, hmsb] at hbit
  rw [hchecksum, ← UInt8.not_le, ← decide_eq_false_iff_not, ← hbit]
  simp [hop, UInt8.not_le.mpr h1, UInt8.not_le.mpr h2]

theorem wellFormed_buildSwReq {z : ℕ} (hz : z < 2048) (position : TurnoutPosition)
    (outputOn : Bool) : WellFormed (buildSwReq ⟨⟨z + 1⟩, position⟩ outputOn) := by
  rw [buildSwReq_eq hz]
  have h1 : UInt8.ofNat (z % 128) < 0x80 := by
    rw [UInt8.lt_iff_toNat_lt, UInt8.toNat_ofNat']
    exact lt_of_le_of_lt (Nat.mod_le _ _) (Nat.mod_lt z (by decide))
  have h2 := sw2Of_lt ⟨z / 128, by omega⟩ position outputOn
  exact ⟨_, _, _, _, rfl, by decide, h1, h2, checksum_lt (by decide) h1 h2, xorOf_checksummed _ _ _⟩

theorem roundTrips_buildSwReq {z : ℕ} (hz : z < 2048) (position : TurnoutPosition)
    (outputOn : Bool) :
    RoundTrips (buildSwReq ⟨⟨z + 1⟩, position⟩ outputOn) (z + 1) position (payloadOf position) := by
  intro decoder acks
  have hframe := buildSwReq_eq hz position outputOn
  have hread : decodeLine (kReceivePrefix ++
      (buildSwReq ⟨⟨z + 1⟩, position⟩ outputOn).describe) =
        some (buildSwReq ⟨⟨z + 1⟩, position⟩ outputOn) := by
    rw [hframe]
    exact decodeLine_describe (by simp [checksummed]) (xorOf_checksummed _ _ _)
  have hreport : reportOf acks (buildSwReq ⟨⟨z + 1⟩, position⟩ outputOn) =
      some ((z : ℤ) + 1, position) := by
    have hop : kOpcSwReq ≠ kOpcLongAck := by decide
    have hrep : kOpcSwReq ≠ kOpcSwRep := by decide
    have hposition := (sw2Of_fields ⟨z / 128, by omega⟩ position outputOn).2.1
    simp only at hposition
    rw [hframe]
    simp [reportOf, checksummed, hop, hrep, hposition, addressOf_packed hz]
  have hacks : acksAfter acks (buildSwReq ⟨⟨z + 1⟩, position⟩ outputOn) = acks := by
    rw [hframe]
    simp [acksAfter, IsStateAck, checksummed, show kOpcSwReq ≠ kOpcLongAck by decide]
  have hdecode := decoder.decode_eq acks (buildSwReq ⟨⟨z + 1⟩, position⟩ outputOn) (by
    rw [hframe]
    simp [checksummed])
  rw [hreport, hacks] at hdecode
  refine ⟨_, _, _, hread, hdecode, ?_, fun e he => ?_⟩
  · rw [absorb, recorded_emitIfChanged]
    simp
  · rw [absorb, emitIfChanged_event] at he
    split_ifs at he
    · cases he
    · obtain rfl := Option.some.inj he
      exact encode_eq _ _

/-- A `set` message is acted upon exactly within its grammar; then one frame is sent at once
and one 250 milliseconds later, each well formed and carrying the command back unchanged. -/
theorem command_path_round_trips {deviceType address : Text} (hd : '/' ∉ deviceType)
    (ha : '/' ∉ address) (payload : Text) :
    (MqttCommandRouter.handleMessage (setMessage deviceType address payload) = [] ↔
        ¬ ∃ n position, Commands deviceType address payload n position) ∧
      ∀ n position, Commands deviceType address payload n position →
        ∃ first second, MqttCommandRouter.handleMessage (setMessage deviceType address payload) =
            [.sendNow first, .sendAfter second 250] ∧
          ∀ frame ∈ [first, second], WellFormed frame ∧ RoundTrips frame n position payload := by
  have hcommand := commandOf_setMessage hd ha payload
  have haccept : ∀ n position, Commands deviceType address payload n position →
      MqttCommandRouter.handleMessage (setMessage deviceType address payload) =
        TurnoutLocoNetEncoder.encode ⟨⟨n⟩, position⟩ := by
    intro n position h
    simp only [MqttCommandRouter.handleMessage, (hcommand ⟨⟨n⟩, position⟩).mpr ⟨n, rfl, h⟩]
  constructor
  · constructor
    · rintro hempty ⟨n, position, h⟩
      rw [haccept n position h] at hempty
      cases hempty
    · intro hnone
      rcases hc : MqttCommandRouter.commandOf (setMessage deviceType address payload) with
        _ | command
      · simp only [MqttCommandRouter.handleMessage, hc]
      · obtain ⟨n, -, h⟩ := (hcommand command).mp hc
        exact absurd ⟨n, _, h⟩ hnone
  · intro n position h
    refine ⟨_, _, haccept n position h, fun frame hframe => ?_⟩
    obtain ⟨z, rfl⟩ : ∃ z, n = z + 1 := ⟨n - 1, by have hlow := h.low; omega⟩
    have hz : z < 2048 := h.high
    have hpayload : payloadOf position = payload := ((payload_iff _ _).mp h.payload_eq).symm
    obtain ⟨outputOn, rfl⟩ : ∃ outputOn, frame = buildSwReq ⟨⟨z + 1⟩, position⟩ outputOn := by
      rcases List.mem_cons.mp hframe with rfl | hframe
      · exact ⟨true, rfl⟩
      · exact ⟨false, List.mem_singleton.mp hframe⟩
    refine ⟨wellFormed_buildSwReq hz position outputOn, ?_⟩
    rw [← hpayload]
    exact roundTrips_buildSwReq hz position outputOn

/-- Turnout 0042 is turnout 42. -/
theorem command_path_round_trips_42 :
    ∃ first second, MqttCommandRouter.handleMessage
        (setMessage "turnout".toList "0042".toList "THROWN".toList) =
          [.sendNow first, .sendAfter second 250] ∧
      ∀ frame ∈ [first, second],
        WellFormed frame ∧ RoundTrips frame 42 .thrown "THROWN".toList := by
  refine (command_path_round_trips (by decide) (by decide) "THROWN".toList).2 42 .thrown ?_
  exact ⟨rfl, by decide, by decide, List.all_eq_true.mp (by decide), by decide, by decide,
    by decide, Or.inr ⟨rfl, rfl⟩⟩

end Loco2Mqtt.CommandPath
