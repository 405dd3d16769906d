import Loco2Mqtt.Bridge.AckAttribution

/-! The order of the state requests on the wire. The scheduler hands over whatever is due,
wherever it stands in the list, so requests keep the order in which their addresses were
expected because they fall due in that order: a round is scheduled only when the connection
is older than the stagger of the round before it. A due time past the wrap of the counter is
the exception, since it looks long due. -/

namespace Loco2Mqtt.WireOrder

open AckAttribution PendingLocoNetSendScheduler DelayLine WrappingClock Correlation Runs

/-- The frames that a step hands to `LocoNetPort::send`, in order. -/
def handedBy (s : State) : Event → List LocoNetMessage
  | .schedulerUpdate => (s.scheduler.update (reading s.now)).2
  | .command message =>
    (s.scheduler.performAll (reading s.now) (MqttCommandRouter.handleMessage message)).2
  | _ => []

/-- The addresses that a step pushes by `expect`: what a query update leaves at the end of the
queue. -/
def expectedBy (s : State) : Event → List ℤ
  | .queryUpdate drift =>
    (AckAttribution.step s (.queryUpdate drift)).router.pendingAcks.pendingAddresses.drop
      s.router.pendingAcks.pendingAddresses.length
  | _ => []

/-- The bridge with everything handed over and everything expected since the start. -/
structure Log where
  state : State
  handed : List LocoNetMessage
  expected : List ℤ

def initial (start : ℕ) : Log := ⟨AckAttribution.initial start, [], []⟩

def step (l : Log) (e : Event) : Log :=
  ⟨AckAttribution.step l.state e, l.handed ++ handedBy l.state e,
    l.expected ++ expectedBy l.state e⟩

/-- The counter does not wrap. -/
def ClockUnwrapped (l : Log) (e : Event) : Prop := AckAttribution.ClockUnwrapped l.state e

instance (l : Log) (e : Event) : Decidable (ClockUnwrapped l e) :=
  inferInstanceAs (Decidable (AckAttribution.ClockUnwrapped l.state e))

/-- Neither does the due time of a request. -/
def DueTimesUnwrapped (l : Log) (e : Event) : Prop := AckAttribution.DueTimesUnwrapped l.state e

instance (l : Log) (e : Event) : Decidable (DueTimesUnwrapped l e) :=
  inferInstanceAs (Decidable (AckAttribution.DueTimesUnwrapped l.state e))

/-- What has been handed over and what is pending make up what was expected, in order. -/
structure Ordered (l : Log) : Prop where
  timely : Timely l.state
  split : requests l.handed ++ requestsIn l.state.scheduler.pending = l.expected

theorem ordered_initial (start : ℕ) : Ordered (initial start) := ⟨timely_initial start, rfl⟩

/-- A step that expects nothing moves requests from the pending ones to those handed over. -/
theorem Ordered.split_of_moved {l : Log} (h : Ordered l) {e : Event}
    (hexpected : expectedBy l.state e = [])
    (hmoved : requests (handedBy l.state e) ++ requestsIn (step l e).state.scheduler.pending =
      requestsIn l.state.scheduler.pending) :
    requests (step l e).handed ++ requestsIn (step l e).state.scheduler.pending =
      (step l e).expected := by
  have hsplit := h.split
  simp only [step] at hmoved ⊢
  rw [hexpected, List.append_nil, requests_append, List.append_assoc, hmoved, hsplit]

theorem split_step (l : Log) (e : Event) (h : Ordered l) (hclock : ClockUnwrapped l e)
    (hdue : DueTimesUnwrapped l e) :
    requests (step l e).handed ++ requestsIn (step l e).state.scheduler.pending =
      (step l e).expected := by
  cases e with
  | tick milliseconds => exact h.split_of_moved rfl rfl
  | connect => exact h.split_of_moved rfl rfl
  | disconnect => exact h.split_of_moved rfl rfl
  | station d2 => exact h.split_of_moved rfl rfl
  | other frame => exact h.split_of_moved rfl rfl
  | receive => exact h.split_of_moved rfl rfl
  | schedulerUpdate =>
    refine h.split_of_moved rfl ?_
    simp only [handedBy, step, AckAttribution.step, transmit, update_eq]
    exact requestsIn_released_kept h.timely.ascending _
  | command message =>
    refine h.split_of_moved rfl ?_
    -- an on-pulse goes out and an off-pulse is scheduled, neither of them a request
    simp only [handedBy, step, AckAttribution.step, transmit, MqttCommandRouter.handleMessage]
    rcases MqttCommandRouter.commandOf message with _ | command
    · rfl
    · simp [performAll_encode, requests, requestsIn, sendAfter, List.filterMap_cons,
        requestedAddress_buildSwReq]
  | queryUpdate drift =>
    obtain ⟨-, ⟨hrouter, hscheduler⟩ | ⟨round, hpending, hround, hrouter⟩⟩ :=
      queryUpdate_cases h.timely drift hclock hdue
    · refine h.split_of_moved ?_ ?_
      · rw [expectedBy, hrouter, List.drop_length]
      · simp only [handedBy, step, hscheduler]
        rfl
    · have hsplit := h.split
      simp only [step, handedBy, expectedBy, List.append_nil, hrouter, List.drop_left]
      rw [hpending, requestsIn, List.map_append, requests_append, ← requestsIn, ← requestsIn,
        hround, ← List.append_assoc, hsplit]

theorem ordered_step (l : Log) (e : Event) (h : Ordered l)
    (hwrap : ClockUnwrapped l e ∧ DueTimesUnwrapped l e) : Ordered (step l e) :=
  ⟨timely_step l.state e h.timely hwrap.1 hwrap.2, split_step l e h hwrap.1 hwrap.2⟩

/-- As long as neither the counter nor the due time of a request wraps, the addresses of the
requests handed over so far are the first of those expected so far. -/
theorem requests_in_order (start : ℕ) (events : List Event)
    (hclock : AtEachStep step ClockUnwrapped (initial start) events)
    (hdue : AtEachStep step DueTimesUnwrapped (initial start) events) :
    requests (run step (initial start) events).handed <+:
      (run step (initial start) events).expected := by
  have hordered : Ordered (run step (initial start) events) :=
    run_invariant (A := fun l e => ClockUnwrapped l e ∧ DueTimesUnwrapped l e) ordered_step
      (ordered_initial start) (atEachStep_and.mpr ⟨hclock, hdue⟩)
  rw [← hordered.split]
  exact List.prefix_append _ _

/-- Two rounds in the pending list at once, and a command between them. -/
def flapping : List Event :=
  [.connect, .queryUpdate [], .tick 2000, .queryUpdate [], .disconnect, .queryUpdate [], .connect,
    .queryUpdate [], .tick 2000, .queryUpdate [],
    .command ⟨"track/turnout/5/set".toList, "CLOSED".toList⟩, .tick 500, .schedulerUpdate]

theorem requests_in_order_flapping :
    requests (run step (initial 0) flapping).handed <+: (run step (initial 0) flapping).expected :=
  requests_in_order 0 flapping (by decide) (by decide)

/-- The query fires 600 milliseconds before the counter wraps. -/
def firedBeforeWrap : List Event :=
  [.connect, .queryUpdate [], .tick 2000, .queryUpdate [], .tick 10, .schedulerUpdate]

/-- The requests whose due times have wrapped go out at once, before those that come first. -/
theorem requests_overtake_before_wrap :
    AtEachStep step ClockUnwrapped (initial (2 ^ 32 - 2600)) firedBeforeWrap ∧
      requests (run step (initial (2 ^ 32 - 2600)) firedBeforeWrap).handed =
        1 :: window addressAt 30 18 ∧
      (run step (initial (2 ^ 32 - 2600)) firedBeforeWrap).expected = window addressAt 0 48 ∧
      ¬ requests (run step (initial (2 ^ 32 - 2600)) firedBeforeWrap).handed <+:
        (run step (initial (2 ^ 32 - 2600)) firedBeforeWrap).expected := by
  have hhanded : requests (run step (initial (2 ^ 32 - 2600)) firedBeforeWrap).handed =
      1 :: window addressAt 30 18 := by decide
  have hexpected : (run step (initial (2 ^ 32 - 2600)) firedBeforeWrap).expected =
      window addressAt 0 48 := by decide
  refine ⟨by decide, hhanded, hexpected, ?_⟩
  rw [hhanded, hexpected]
  decide

end Loco2Mqtt.WireOrder
