import Loco2Mqtt.Domain.Turnout
import Loco2Mqtt.Foundations.Decimal

/-! The MQTT side of the turnouts: `TurnoutMqttEncoder` writes state topics, one for each
address, and `TurnoutMqttCommandDecoder` reads the address segment and the payload of a
`set` message. -/

namespace Loco2Mqtt

/-! ### Publishing a state -/

namespace TurnoutMqttEncoder

def stateTopic (address : ℤ) : Text :=
  "loconet/turnout/".toList ++ Decimal.print address ++ "/state".toList

def payloadOf (position : TurnoutPosition) : Text :=
  if position = .closed then "CLOSED".toList else "THROWN".toList

def encode (event : DomainEvent) : MqttMessage :=
  ⟨stateTopic event.address.value, payloadOf event.position, true⟩

theorem encode_eq (address : ℤ) (position : TurnoutPosition) :
    encode ⟨⟨address⟩, position⟩ =
      ⟨"loconet/turnout/".toList ++ Decimal.print address ++ "/state".toList, payloadOf position,
        true⟩ := rfl

theorem stateTopic_injective {a b : ℤ} (h : stateTopic a = stateTopic b) : a = b :=
  Decimal.print_injective (List.append_cancel_left (List.append_cancel_right h))

end TurnoutMqttEncoder

/-! ### Reading a command -/

namespace TurnoutMqttCommandDecoder

def canDecode (deviceTypeSegment : Text) : Bool := deviceTypeSegment = "turnout".toList

def isValidAddressShape (address : Text) : Bool :=
  !address.isEmpty && address.length ≤ 4 && address.all Char.isDigit

/-- `std::stoi` is only reached with one to four digits, where it is their value. -/
def parseAddress (address : Text) : Option ℤ :=
  if !isValidAddressShape address then none
  else
    let value := Decimal.value address
    if value ≥ 1 ∧ value ≤ 2048 then some value else none

def parsePosition (payload : Text) : Option TurnoutPosition :=
  if payload = "CLOSED".toList then some .closed
  else if payload = "THROWN".toList then some .thrown else none

def decode (address payload : Text) : Option DomainCommand :=
  match parseAddress address, parsePosition payload with
  | some parsedAddress, some parsedPosition => some ⟨⟨parsedAddress⟩, parsedPosition⟩
  | _, _ => none

theorem isValidAddressShape_iff {address : Text} :
    isValidAddressShape address ↔
      address ≠ [] ∧ address.length ≤ 4 ∧ ∀ c ∈ address, c.isDigit := by
  simp [isValidAddressShape, and_assoc]

theorem parseAddress_eq_some_iff {address : Text} {n : ℤ} :
    parseAddress address = some n ↔
      address ≠ [] ∧ address.length ≤ 4 ∧ (∀ c ∈ address, c.isDigit) ∧
        (Decimal.value address : ℤ) = n ∧ 1 ≤ n ∧ n ≤ 2048 := by
  by_cases hshape : isValidAddressShape address
  · obtain ⟨hne, hlen, hdigits⟩ := isValidAddressShape_iff.mp hshape
    simp only [parseAddress, hshape, Bool.not_true, Bool.false_eq_true, if_false,
      Option.ite_none_right_eq_some, Option.some.injEq]
    constructor
    · rintro ⟨hrange, rfl⟩
      exact ⟨hne, hlen, hdigits, rfl, by omega, by omega⟩
    · rintro ⟨-, -, -, rfl, hlow, hhigh⟩
      exact ⟨by omega, rfl⟩
  · have hnone : parseAddress address = none := by simp [parseAddress, hshape]
    rw [hnone]
    constructor
    · intro h; cases h
    · rintro ⟨hne, hlen, hdigits, -⟩
      exact absurd (isValidAddressShape_iff.mpr ⟨hne, hlen, hdigits⟩) hshape

theorem parsePosition_eq_some_iff {payload : Text} {position : TurnoutPosition} :
    parsePosition payload = some position ↔ payload = TurnoutMqttEncoder.payloadOf position := by
  unfold parsePosition TurnoutMqttEncoder.payloadOf
  split_ifs with h1 h2 h3 h3 <;> cases position <;> simp_all

theorem decode_eq_some_iff {address payload : Text} {command : DomainCommand} :
    decode address payload = some command ↔
      parseAddress address = some command.address.value ∧
        parsePosition payload = some command.position := by
  unfold decode
  rcases command with ⟨⟨n⟩, p⟩
  rcases parseAddress address with _ | m <;> rcases parsePosition payload with _ | q <;> simp

/-- Every command that is accepted names an address that fits the frame. -/
theorem decode_address_range {address payload : Text} {command : DomainCommand}
    (h : decode address payload = some command) :
    1 ≤ command.address.value ∧ command.address.value ≤ 2048 :=
  (parseAddress_eq_some_iff.mp (decode_eq_some_iff.mp h).1).2.2.2.2

end TurnoutMqttCommandDecoder
end Loco2Mqtt
