import Loco2Mqtt.Application.JmriConnectionStatusPublisher
import Loco2Mqtt.Foundations.Runs

/-! The published status of the JMRI connection against the one that is remembered. The live
status may change between any two questions. The two agree after every update exactly as long
as each update gets the answer it began with once more when it asks for the last time. -/

namespace Loco2Mqtt.JmriStatus

open JmriConnectionStatusPublisher Runs

/-- What the stream and the clock give to one update, question after question. -/
structure Readings where
  answers : ℕ → Bool
  clock : ℕ → UInt32

structure State where
  publisher : JmriConnectionStatusPublisher
  published : List MqttMessage

def initial : State := ⟨JmriConnectionStatusPublisher.initial, []⟩

def step (s : State) (r : Readings) : State :=
  let (publisher, messages) := s.publisher.update r.answers r.clock
  ⟨publisher, s.published ++ messages⟩

def lastPayload (s : State) : Option Text := s.published.getLast?.map MqttMessage.payload

/-- After the update the last payload is `connected` iff the remembered status is, and if the
last payload before the update disagreed with its first answer, it has been corrected. -/
def TracksStatus (s : State) (r : Readings) : Prop :=
  (lastPayload (step s r) = some "connected".toList ↔
      (step s r).publisher.lastKnownConnected = some true) ∧
    ∀ payload, lastPayload s = some payload → payload ≠ payloadOf (r.answers 0) →
      lastPayload (step s r) = some (payloadOf (r.answers 0))

/-- The last answer that the update gets is the first. -/
def Steady (s : State) (r : Readings) : Prop :=
  r.answers (s.publisher.lastAnswer r.answers r.clock) = r.answers 0

/-- What is remembered has been published last. -/
def InStep (s : State) : Prop := lastPayload s = s.publisher.lastKnownConnected.map payloadOf

theorem inStep_initial : InStep initial := rfl

theorem lastKnownConnected_step (s : State) (r : Readings) :
    (step s r).publisher.lastKnownConnected = some (r.answers 0) :=
  (s.publisher.update_spec r.answers r.clock).1

theorem lastPayload_step {s : State} (h : InStep s) (r : Readings) :
    lastPayload (step s r) =
      some (payloadOf (r.answers (s.publisher.lastAnswer r.answers r.clock))) := by
  obtain ⟨-, ⟨hnone, hlast, hknown⟩ | hpublished⟩ := s.publisher.update_spec r.answers r.clock
  · rw [InStep, hknown] at h
    rw [hlast]
    simp only [lastPayload, step, hnone, List.append_nil]
    exact h
  · obtain ⟨message, hmessage, hpayload⟩ := Option.map_eq_some_iff.mp hpublished
    simp only [lastPayload, step, List.getLast?_append, hmessage, Option.some_or, Option.map_some,
      hpayload]

theorem tracksStatus_iff (s : State) (r : Readings) (h : InStep s) :
    TracksStatus s r ↔ Steady s r := by
  rw [TracksStatus, Steady, lastPayload_step h, lastKnownConnected_step, Option.some.injEq,
    Option.some.injEq, payloadOf_eq_connected_iff, ← Bool.eq_iff_iff]
  constructor
  · exact fun htracks => htracks.1
  · intro hsteady
    refine ⟨hsteady, fun _ _ _ => ?_⟩
    rw [hsteady]

theorem inStep_step (s : State) (r : Readings) (h : InStep s) (htracks : TracksStatus s r) :
    InStep (step s r) := by
  have hsteady : Steady s r := (tracksStatus_iff s r h).mp htracks
  rw [InStep, lastPayload_step h, lastKnownConnected_step, hsteady, Option.map_some]

/-- Over any updates, the published status follows the remembered one after each of them if and
only if each update ends with the answer it began with. -/
theorem status_tracked_iff (updates : List Readings) :
    AtEachStep step TracksStatus initial updates ↔ AtEachStep step Steady initial updates :=
  atEachStep_iff_of_kept inStep_step tracksStatus_iff inStep_initial updates

/-- The stream is up when the first update asks for the first time, down for a moment, and up
from then on. -/
def flap : List Readings := [⟨fun k => k = 0, fun _ => 0⟩, ⟨fun _ => true, fun _ => 1⟩]

/-- `disconnected` is published while `connected` is remembered, and the next update, which
finds the stream up, publishes nothing. -/
theorem flap_not_corrected :
    ¬ AtEachStep step TracksStatus initial flap ∧
      lastPayload (run step initial (flap.take 1)) = some "disconnected".toList ∧
      (run step initial (flap.take 1)).publisher.lastKnownConnected = some true ∧
      lastPayload (run step initial flap) = some "disconnected".toList := by
  refine ⟨fun h => ?_, by decide, by decide, by decide⟩
  exact absurd (h.1.1.mpr rfl) (by decide)

end Loco2Mqtt.JmriStatus
