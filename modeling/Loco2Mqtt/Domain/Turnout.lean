import Mathlib.Data.Int.Notation
import Loco2Mqtt.Domain.LocoNetMessage

/-! The value objects that cross the bridge: turnout addresses and positions, the event
and the command about them, and the MQTT messages of either direction. `DomainEvent` and
`DomainCommand` are variants with one alternative each, so they are that alternative. -/

namespace Loco2Mqtt

inductive TurnoutPosition where
  | closed | thrown
  deriving DecidableEq, Repr

/-- An `int`, without a range check of its own. -/
structure TurnoutAddress where
  value : ℤ
  deriving DecidableEq, Repr

structure TurnoutStateChanged where
  address : TurnoutAddress
  position : TurnoutPosition
  deriving DecidableEq, Repr

structure SetTurnoutPosition where
  address : TurnoutAddress
  position : TurnoutPosition
  deriving DecidableEq, Repr

abbrev DomainEvent := TurnoutStateChanged

abbrev DomainCommand := SetTurnoutPosition

structure MqttMessage where
  topic : Text
  payload : Text
  retained : Bool
  deriving DecidableEq, Repr

structure IncomingMqttMessage where
  topic : Text
  payload : Text
  deriving DecidableEq, Repr

end Loco2Mqtt
