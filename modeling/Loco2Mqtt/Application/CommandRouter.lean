import Loco2Mqtt.Turnout.LocoNetEncoder
import Loco2Mqtt.Turnout.Mqtt

/-! `MqttCommandRouter`, with the one pair of decoder and encoder that the firmware
registers. It takes the second and third segment of the topic, and turns an accepted
message into calls of the send scheduler. -/

namespace Loco2Mqtt.MqttCommandRouter

/-- The text before and after the first slash, if `find('/')` finds one. -/
def cutAtSlash : Text → Option (Text × Text)
  | [] => none
  | c :: rest =>
    if c = '/' then some ([], rest)
    else (cutAtSlash rest).map (fun cut => (c :: cut.1, cut.2))

def parseDeviceTypeAndAddress (topic : Text) : Option (Text × Text) := do
  let (_, afterFirst) ← cutAtSlash topic
  let (deviceType, afterSecond) ← cutAtSlash afterFirst
  let (address, _) ← cutAtSlash afterSecond
  return (deviceType, address)

/-- The command a message is accepted as. -/
def commandOf (message : IncomingMqttMessage) : Option DomainCommand :=
  match parseDeviceTypeAndAddress message.topic with
  | none => none
  | some (deviceType, address) =>
    if !TurnoutMqttCommandDecoder.canDecode deviceType then none
    else TurnoutMqttCommandDecoder.decode address message.payload

def handleMessage (message : IncomingMqttMessage) : List LocoNetSendScheduler.Call :=
  match commandOf message with
  | none => []
  | some command => TurnoutLocoNetEncoder.encode command

/-- `update` drains the queue of received commands. -/
def update (received : List IncomingMqttMessage) : List LocoNetSendScheduler.Call :=
  received.flatMap handleMessage

theorem cutAtSlash_append {front : Text} (h : '/' ∉ front) (back : Text) :
    cutAtSlash (front ++ '/' :: back) = some (front, back) := by
  induction front with
  | nil => simp [cutAtSlash]
  | cons c front ih =>
    rw [List.mem_cons, not_or] at h
    simp [cutAtSlash, Ne.symm h.1, ih h.2]

/-- The segments of a topic admitted by the broker subscription. -/
theorem parseDeviceTypeAndAddress_set {deviceType address : Text} (hd : '/' ∉ deviceType)
    (ha : '/' ∉ address) :
    parseDeviceTypeAndAddress
        ("loconet/".toList ++ deviceType ++ '/' :: (address ++ "/set".toList)) =
      some (deviceType, address) := by
  have hfront : "loconet/".toList = "loconet".toList ++ '/' :: [] := by decide
  have hback : "/set".toList = '/' :: "set".toList := by decide
  have hfirst : cutAtSlash ("loconet/".toList ++ deviceType ++ '/' :: (address ++ "/set".toList)) =
      some ("loconet".toList, deviceType ++ '/' :: (address ++ "/set".toList)) := by
    rw [hfront]
    simp only [List.append_assoc, List.cons_append, List.nil_append]
    exact cutAtSlash_append (by decide) _
  simp only [parseDeviceTypeAndAddress, hfirst, Option.bind_eq_bind, Option.bind_some,
    cutAtSlash_append hd]
  rw [hback]
  simp [cutAtSlash_append ha]

theorem commandOf_of_segments {message : IncomingMqttMessage} {deviceType address : Text}
    (h : parseDeviceTypeAndAddress message.topic = some (deviceType, address)) :
    commandOf message =
      if deviceType = "turnout".toList then
        TurnoutMqttCommandDecoder.decode address message.payload
      else none := by
  unfold commandOf
  rw [h]
  by_cases hd : deviceType = "turnout".toList
  · have hdecodes : TurnoutMqttCommandDecoder.canDecode deviceType = true := decide_eq_true hd
    rw [if_pos hd]
    simp only [hdecodes, Bool.not_true, Bool.false_eq_true, if_false]
  · have hdecodes : TurnoutMqttCommandDecoder.canDecode deviceType = false := decide_eq_false hd
    rw [if_neg hd]
    simp only [hdecodes, Bool.not_false, if_true]

theorem commandOf_address_range {message : IncomingMqttMessage} {command : DomainCommand}
    (h : commandOf message = some command) :
    1 ≤ command.address.value ∧ command.address.value ≤ 2048 := by
  unfold commandOf at h
  split at h
  · cases h
  · split_ifs at h
    exact TurnoutMqttCommandDecoder.decode_address_range h

end Loco2Mqtt.MqttCommandRouter
