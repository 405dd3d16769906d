import Loco2Mqtt.Turnout.LocoNetDecoder

/-! The two encoders of turnout frames, `TurnoutLocoNetEncoder` for commands and
`TurnoutStateRequestEncoder` for queries, and the round trip of a command frame through
the decoder's reading of addresses and positions. The calls a `LocoNetSendScheduler`
receives are data here; the scheduler performs them. -/

namespace Loco2Mqtt

open TurnoutLocoNetDecoder

/-- A call of the `LocoNetSendScheduler` port. -/
inductive LocoNetSendScheduler.Call where
  | sendNow (message : LocoNetMessage)
  | sendAfter (message : LocoNetMessage) (delayMilliseconds : UInt32)
  deriving DecidableEq, Repr

namespace TurnoutLocoNetEncoder

def kOutputOnBit : UInt8 := 0x10
def kOffPulseDelayMs : UInt32 := 250

def buildSwReq (command : SetTurnoutPosition) (outputOn : Bool) : LocoNetMessage :=
  let zeroBasedAddress := command.address.value - 1
  let sw1 := UInt8.ofNat (zeroBasedAddress.land 0x7F).toNat
  let sw2 := UInt8.ofNat ((zeroBasedAddress >>> 7).land 0x0F).toNat
  let sw2 := sw2 ||| (if command.position = .closed then kClosedBit else 0x00)
  let sw2 := sw2 ||| (if outputOn then kOutputOnBit else 0x00)
  checksummed kOpcSwReq sw1 sw2

def encode (command : DomainCommand) : List LocoNetSendScheduler.Call :=
  [.sendNow (buildSwReq command true), .sendAfter (buildSwReq command false) kOffPulseDelayMs]

end TurnoutLocoNetEncoder

namespace TurnoutStateRequestEncoder

def kOpcSwState : UInt8 := 0xBC

def encode (address : TurnoutAddress) : LocoNetMessage :=
  let zeroBasedAddress := address.value - 1
  let sw1 := UInt8.ofNat (zeroBasedAddress.land 0x7F).toNat
  let sw2 := UInt8.ofNat ((zeroBasedAddress >>> 7).land 0x0F).toNat
  checksummed kOpcSwState sw1 sw2

end TurnoutStateRequestEncoder

/-! ### Packing and unpacking an address -/

/-- The addresses a command may name: `zeroBasedAddress` fits eleven bits. -/
def InRange (address : ℤ) : Prop := 1 ≤ address ∧ address ≤ 2048

/-- The second data byte of a command frame for high address bits `h`. -/
def sw2Of (h : ℕ) (position : TurnoutPosition) (outputOn : Bool) : UInt8 :=
  UInt8.ofNat h ||| (if position = .closed then kClosedBit else 0x00) |||
    (if outputOn then TurnoutLocoNetEncoder.kOutputOnBit else 0x00)

theorem low_bits (z : ℕ) : ((z : ℤ).land 0x7F).toNat = z % 128 :=
  Nat.and_two_pow_sub_one_eq_mod z 7

theorem high_bits {z : ℕ} (h : z < 2048) : (((z : ℤ) >>> 7).land 0x0F).toNat = z / 128 := by
  have hmask : (((z : ℤ) >>> 7).land 0x0F).toNat = (z >>> 7) % 16 :=
    Nat.and_two_pow_sub_one_eq_mod (z >>> 7) 4
  rw [hmask, Nat.shiftRight_eq_div_pow, Nat.mod_eq_of_lt (by omega)]

theorem buildSwReq_eq {z : ℕ} (h : z < 2048) (position : TurnoutPosition) (outputOn : Bool) :
    TurnoutLocoNetEncoder.buildSwReq ⟨⟨z + 1⟩, position⟩ outputOn =
      checksummed kOpcSwReq (UInt8.ofNat (z % 128)) (sw2Of (z / 128) position outputOn) := by
  have hz : (z : ℤ) + 1 - 1 = z := by omega
  simp only [TurnoutLocoNetEncoder.buildSwReq, hz, low_bits, high_bits h, sw2Of]

/-- The flags of the second data byte do not disturb the address bits, nor they the flags. -/
theorem sw2Of_fields : ∀ h : Fin 16, ∀ position outputOn,
    sw2Of h position outputOn &&& 0x0F = UInt8.ofNat h ∧
      positionOf (sw2Of h position outputOn) = position ∧
      sw2Of h position outputOn &&& kSwRepInputs = 0 ∧
      (sw2Of h position outputOn &&& TurnoutLocoNetEncoder.kOutputOnBit ≠ 0 ↔ outputOn) := by
  intro h position outputOn
  revert h
  cases position <;> cases outputOn <;> decide

theorem addressOf_packed {z : ℕ} (h : z < 2048) (position : TurnoutPosition) (outputOn : Bool) :
    addressOf (UInt8.ofNat (z % 128)) (sw2Of (z / 128) position outputOn) = z + 1 := by
  have hfields := (sw2Of_fields ⟨z / 128, by omega⟩ position outputOn).1
  have hhigh : (sw2Of (z / 128) position outputOn).toNat % 16 = z / 128 := by
    rw [← toNat_and_lowNibble, hfields]
    exact Nat.mod_eq_of_lt (by omega)
  have hlow : (UInt8.ofNat (z % 128)).toNat = z % 128 := Nat.mod_eq_of_lt (by omega)
  rw [addressOf_eq, hlow]
  omega

end Loco2Mqtt
