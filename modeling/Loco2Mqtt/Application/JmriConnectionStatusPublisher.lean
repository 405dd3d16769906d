import Loco2Mqtt.Domain.Turnout

/-! `JmriConnectionStatusPublisher`. An update decides on one answer of `isConnected` whether
the status has changed, and every publication asks again, so the status published last is the
last answer that the update gets, and the status remembered is the first. -/

namespace Loco2Mqtt

structure JmriConnectionStatusPublisher where
  lastKnownConnected : Option Bool
  lastPublishedAtMs : UInt32
  deriving DecidableEq, Repr

namespace JmriConnectionStatusPublisher

def kTopic : Text := "loco2mqtt/jmri/status".toList

def kRepublishIntervalMs : UInt32 := 30000

def initial : JmriConnectionStatusPublisher := ⟨none, 0⟩

def payloadOf (connected : Bool) : Text :=
  if connected then "connected".toList else "disconnected".toList

/-- `connected` is what `isConnected` answers to this call, and `now` the clock reading. -/
def publish (publisher : JmriConnectionStatusPublisher) (connected : Bool) (now : UInt32) :
    JmriConnectionStatusPublisher × MqttMessage :=
  ({ publisher with lastPublishedAtMs := now }, ⟨kTopic, payloadOf connected, true⟩)

/-- `answers k` is the answer to the `k`-th call of `isConnected` and `clock k` the `k`-th
reading; the last two components count both. -/
def publishIfChanged (publisher : JmriConnectionStatusPublisher) (answers : ℕ → Bool)
    (clock : ℕ → UInt32) : JmriConnectionStatusPublisher × List MqttMessage × ℕ × ℕ :=
  let connected := answers 0
  if publisher.lastKnownConnected = some connected then (publisher, [], 1, 0)
  else
    let (publisher, message) :=
      { publisher with lastKnownConnected := some connected }.publish (answers 1) (clock 0)
    (publisher, [message], 2, 1)

def republishIfDue (publisher : JmriConnectionStatusPublisher) (answers : ℕ → Bool)
    (clock : ℕ → UInt32) : JmriConnectionStatusPublisher × List MqttMessage :=
  if clock 0 - publisher.lastPublishedAtMs < kRepublishIntervalMs then (publisher, [])
  else
    let (publisher, message) := publisher.publish (answers 0) (clock 1)
    (publisher, [message])

def update (publisher : JmriConnectionStatusPublisher) (answers : ℕ → Bool) (clock : ℕ → UInt32) :
    JmriConnectionStatusPublisher × List MqttMessage :=
  let (publisher, changed, answered, read) := publisher.publishIfChanged answers clock
  let (publisher, repeated) := publisher.republishIfDue (fun k => answers (answered + k))
    (fun k => clock (read + k))
  (publisher, changed ++ repeated)

/-! ### What an update publishes last -/

/-- Which answer is the last that an update gets. -/
def lastAnswer (publisher : JmriConnectionStatusPublisher) (answers : ℕ → Bool)
    (clock : ℕ → UInt32) : ℕ :=
  if publisher.lastKnownConnected = some (answers 0) then
    if clock 0 - publisher.lastPublishedAtMs < kRepublishIntervalMs then 0 else 1
  else if clock 1 - clock 0 < kRepublishIntervalMs then 1 else 2

theorem payloadOf_eq_connected_iff (connected : Bool) :
    payloadOf connected = "connected".toList ↔ connected = true := by
  cases connected <;> decide

/-- An update remembers its first answer. It publishes its last one, or nothing if the first
is the one remembered before. -/
theorem update_spec (publisher : JmriConnectionStatusPublisher) (answers : ℕ → Bool)
    (clock : ℕ → UInt32) :
    let last := publisher.lastAnswer answers clock
    (publisher.update answers clock).1.lastKnownConnected = some (answers 0) ∧
      ((publisher.update answers clock).2 = [] ∧ last = 0 ∧
          publisher.lastKnownConnected = some (answers 0) ∨
        (publisher.update answers clock).2.getLast?.map MqttMessage.payload =
          some (payloadOf (answers last))) := by
  intro last
  by_cases hknown : publisher.lastKnownConnected = some (answers 0)
  · by_cases hfresh : clock 0 - publisher.lastPublishedAtMs < kRepublishIntervalMs
    · simp [last, lastAnswer, update, publishIfChanged, republishIfDue, hknown, hfresh]
    · simp [last, lastAnswer, update, publishIfChanged, republishIfDue, publish, hknown, hfresh]
  · by_cases hfresh : clock 1 - clock 0 < kRepublishIntervalMs
    · simp [last, lastAnswer, update, publishIfChanged, republishIfDue, publish, hknown, hfresh]
    · simp [last, lastAnswer, update, publishIfChanged, republishIfDue, publish, hknown, hfresh]

end JmriConnectionStatusPublisher
end Loco2Mqtt
