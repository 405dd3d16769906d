import Loco2Mqtt.Bridge.AckAttribution

/-! What the startup query is for. As long as nothing is lost and no due time wraps, the device
believes what it is told: each recorded position is the latest that a frame reported, where an
ack counts for the turnout whose request it answers. And once a round has been scheduled and
nothing of it is under way any more, every turnout of the table has a recorded position. -/

namespace Loco2Mqtt.AckAttribution

open TurnoutLocoNetDecoder ChangeLog Correlation Runs WrappingClock
open TurnoutTableStartupQuery (turnoutAddresses)

/-- The frame that an event has the router handle. -/
def handledBy (s : State) : Event → Option Inbound
  | .receive => s.inbound.head?
  | _ => none

def handled : State → List Event → List Inbound
  | _, [] => []
  | s, e :: rest => (handledBy s e).toList ++ handled (step s e) rest

/-- What a frame tells, an ack of the turnout that it answers. -/
def tidings : Inbound → Option (ℤ × TurnoutPosition)
  | .ack address d2 => some (address, positionOf d2)
  | .other frame => LocoNetMessageRouter.reportOf ⟨[]⟩ frame

/-- All that has been told is recorded; and what has been answered, followed by what is still
expected, makes whole rounds, at least one if the query has been made. -/
structure Learning (s : State) (log : List Inbound) : Prop where
  timely : Timely s
  aligned : Aligned s
  recorded : s.lost = 0 → s.router.decoder.recorded = latest (log.filterMap tidings)
  rounds : s.lost = 0 → ∃ rounds, acked log ++ s.router.pendingAcks.pendingAddresses =
      window addressAt 0 (48 * rounds) ∧ (s.query.queriedThisConnection = true → 0 < rounds)

theorem learning_initial (start : ℕ) : Learning (initial start) [] where
  timely := timely_initial start
  aligned := aligned_initial start
  recorded _ := funext fun _ => Std.TreeMap.getElem?_emptyc
  rounds _ := ⟨0, rfl, fun h => absurd h Bool.false_ne_true⟩

theorem lost_step (s : State) (e : Event) : s.lost ≤ (step s e).lost := by
  cases e with
  | tick | connect | queryUpdate | station | other | receive => exact le_refl _
  | disconnect => exact Nat.le_add_right _ _
  | schedulerUpdate | command =>
    simp only [step, transmit]
    split_ifs
    · exact le_refl _
    · exact Nat.le_add_right _ _

/-- A frame that is handled is recorded as it was meant. -/
theorem recorded_receive {s : State} (h : Aligned s) (hlost : s.lost = 0) {x : Inbound}
    {rest : List Inbound} (hinbound : s.inbound = x :: rest) :
    (step s .receive).router.decoder.recorded =
        seenAfter s.router.decoder.recorded (tidings x).toList ∧
      acked [x] ++ (step s .receive).router.pendingAcks.pendingAddresses =
        s.router.pendingAcks.pendingAddresses := by
  cases x with
  | ack address d2 =>
    have hmatched := h.matched
    rw [underway_ack hinbound] at hmatched
    obtain ⟨claim, acks, hacks, -, hiff⟩ := hmatched.claim addressAt_inj
    obtain rfl : claim = address := hiff.mpr (hlost ▸ Nat.dvd_zero 48)
    obtain ⟨hnext, hrecorded⟩ := stateAck_handled hacks d2
    simp only [step, hinbound, List.head?_cons, Option.map_some, Option.getD_some, Inbound.frame]
    refine ⟨?_, ?_⟩
    · rw [hrecorded]
      exact seenAfter_cons _ (claim, positionOf d2) []
    · rw [hnext, hacks]
      rfl
  | other frame =>
    have hframe : ¬ IsStateAck frame := h.quiet frame (by rw [hinbound]; exact List.mem_cons_self)
    simp only [step, hinbound, List.head?_cons, Option.map_some, Option.getD_some, Inbound.frame]
    refine ⟨?_, ?_⟩
    · rw [LocoNetMessageRouter.handleMessage_eq, tidings,
        ← LocoNetMessageRouter.reportOf_of_not_isStateAck hframe s.router.pendingAcks ⟨[]⟩]
      exact (absorb_changes _ _).1
    · rw [other_handled s.router hframe]
      rfl

/-- An update of the query makes no round without noting it. -/
theorem queryUpdate_rounds {s : State} (drift : List ℕ) :
    ((step s (.queryUpdate drift)).router = s.router ∧
        ((step s (.queryUpdate drift)).query.queriedThisConnection = true →
          s.query.queriedThisConnection = true)) ∨
      (step s (.queryUpdate drift)).router = { s.router with
        pendingAcks := ⟨s.router.pendingAcks.pendingAddresses ++ turnoutAddresses⟩ } := by
  by_cases hconnected : s.connected = true
  · obtain ⟨since, used, -, hresult | ⟨-, -, -, hresult⟩⟩ :=
      s.query.update_connected (fun k => reading (readingTime s drift k)) s.router.pendingAcks
        s.scheduler
    · left
      simp only [step, hconnected, hresult]
      exact ⟨trivial, id⟩
    · right
      simp only [step, hconnected, hresult]
  · have hdown : s.connected = false := Bool.eq_false_iff.mpr hconnected
    left
    simp only [step, hdown, TurnoutTableStartupQuery.update, Bool.not_false, if_true]
    exact ⟨trivial, fun h => absurd h Bool.false_ne_true⟩

theorem learning_receive {s : State} {log : List Inbound} (h : Learning s log)
    (htimely : Timely (step s .receive)) (haligned : Aligned (step s .receive)) :
    Learning (step s .receive) (log ++ (handledBy s .receive).toList) := by
  rcases hinbound : s.inbound with _ | ⟨x, rest⟩
  · have hnone : handledBy s .receive = none := by rw [handledBy, hinbound, List.head?_nil]
    have hrouter : (step s .receive).router = s.router := by
      simp only [step, hinbound, List.head?_nil, Option.map_none, Option.getD_none]
    rw [hnone, Option.toList_none, List.append_nil]
    refine ⟨htimely, haligned, fun hlost => ?_, fun hlost => ?_⟩ <;> rw [hrouter]
    · exact h.recorded hlost
    · exact h.rounds hlost
  · have hsome : handledBy s .receive = some x := by rw [handledBy, hinbound, List.head?_cons]
    rw [hsome, Option.toList_some]
    refine ⟨htimely, haligned, fun hlost => ?_, fun hlost => ?_⟩
    · have hlast : [x].filterMap tidings = (tidings x).toList := by
        cases htold : tidings x <;> simp [htold]
      rw [(recorded_receive h.aligned hlost hinbound).1, h.recorded hlost, seenAfter_latest,
        List.filterMap_append, hlast]
    · obtain ⟨rounds, hrounds, hqueried⟩ := h.rounds hlost
      refine ⟨rounds, ?_, hqueried⟩
      rw [acked, List.filterMap_append, ← acked, ← acked, List.append_assoc,
        (recorded_receive h.aligned hlost hinbound).2, hrounds]

theorem learning_queryUpdate {s : State} {log : List Inbound} (h : Learning s log)
    {drift : List ℕ} (htimely : Timely (step s (.queryUpdate drift)))
    (haligned : Aligned (step s (.queryUpdate drift))) :
    Learning (step s (.queryUpdate drift)) log := by
  rcases queryUpdate_rounds (s := s) drift with ⟨hrouter, hquery⟩ | hrouter
  · refine ⟨htimely, haligned, fun hlost => ?_, fun hlost => ?_⟩ <;> rw [hrouter]
    · exact h.recorded hlost
    · obtain ⟨rounds, hrounds, hqueried⟩ := h.rounds hlost
      exact ⟨rounds, hrounds, fun hq => hqueried (hquery hq)⟩
  · refine ⟨htimely, haligned, fun hlost => ?_, fun hlost => ?_⟩ <;> rw [hrouter]
    · exact h.recorded hlost
    · obtain ⟨rounds, hrounds, -⟩ := h.rounds hlost
      refine ⟨rounds + 1, ?_, fun _ => Nat.succ_pos rounds⟩
      have hround : window addressAt (0 + 48 * rounds) 48 = turnoutAddresses := by
        rw [window_of_period addressAt (fun i j hij => (addressAt_inj i j).mpr hij) ⟨rounds,
          Nat.zero_add _⟩, window_addressAt]
      rw [← List.append_assoc, hrounds, Nat.mul_succ, window_add, hround]

theorem learning_step {s : State} {e : Event} {log : List Inbound} (h : Learning s log)
    (hallowed : Allowed s e) (hdue : DueTimesUnwrapped s e) :
    Learning (step s e) (log ++ (handledBy s e).toList) := by
  have htimely := timely_step s e h.timely hallowed.2 hdue
  have haligned := aligned_step s e h.aligned h.timely hallowed hdue
  have hlost : (step s e).lost = 0 → s.lost = 0 := fun hzero =>
    Nat.le_zero.mp (hzero ▸ lost_step s e)
  cases e with
  | receive => exact learning_receive h htimely haligned
  | queryUpdate drift =>
    change Learning _ (log ++ [])
    rw [List.append_nil]
    exact learning_queryUpdate h htimely haligned
  | tick | connect | disconnect | station | other | schedulerUpdate | command =>
    change Learning _ (log ++ [])
    rw [List.append_nil]
    exact ⟨htimely, haligned, fun hzero => h.recorded (hlost hzero),
      fun hzero => h.rounds (hlost hzero)⟩

theorem learning_run {s : State} {log : List Inbound} (h : Learning s log) {events : List Event}
    (hallowed : AtEachStep step Allowed s events)
    (hdue : AtEachStep step DueTimesUnwrapped s events) :
    Learning (run step s events) (log ++ handled s events) := by
  induction events generalizing s log with
  | nil =>
    rw [handled, List.append_nil]
    exact h
  | cons e rest ih =>
    rw [run_cons, handled, ← List.append_assoc]
    exact ih (learning_step h hallowed.1 hdue.1) hallowed.2 hdue.2

/-- With nothing under way, nothing is expected any more. -/
theorem nothing_expected {s : State} (h : Aligned s) (hlost : s.lost = 0)
    (hunderway : underway s = []) : s.router.pendingAcks.pendingAddresses = [] := by
  obtain ⟨claimed, hexpected, -, -⟩ := h.matched
  rw [hexpected, hlost, hunderway]
  rfl

/-- In a run that has lost no request, and in which no request's due time wraps, the recorded
positions are the latest that have been told, and once the query has been made on a connection
and nothing is under way, each turnout of the table has one. -/
theorem table_is_learnt (start : ℕ) (events : List Event)
    (hallowed : AtEachStep step Allowed (initial start) events)
    (hdue : AtEachStep step DueTimesUnwrapped (initial start) events)
    (hlost : (run step (initial start) events).lost = 0) :
    let s := run step (initial start) events
    s.router.decoder.recorded = latest ((handled (initial start) events).filterMap tidings) ∧
      (s.query.queriedThisConnection = true → underway s = [] →
        ∀ address ∈ turnoutAddresses,
          (∃ d2, .ack address d2 ∈ handled (initial start) events) ∧
            (s.router.decoder.recorded address).isSome) := by
  intro s
  have h := learning_run (learning_initial start) hallowed hdue
  rw [List.nil_append] at h
  refine ⟨h.recorded hlost, fun hqueried hunderway address haddress => ?_⟩
  obtain ⟨rounds, hrounds, hpositive⟩ := h.rounds hlost
  rw [nothing_expected h.aligned hlost hunderway, List.append_nil] at hrounds
  obtain ⟨more, hmore⟩ : ∃ more, 48 * rounds = 48 + more :=
    ⟨48 * rounds - 48, by have := hpositive hqueried; omega⟩
  have hacked : address ∈ acked (handled (initial start) events) := by
    rw [hrounds, hmore, window_add, window_addressAt]
    exact List.mem_append_left _ haddress
  obtain ⟨x, hx, hanswered⟩ := List.mem_filterMap.mp hacked
  cases x with
  | other frame => cases hanswered
  | ack address' d2 =>
    obtain rfl : address' = address := Option.some.inj hanswered
    refine ⟨⟨d2, hx⟩, ?_⟩
    rw [h.recorded hlost, Option.isSome_iff_ne_none]
    intro hnone
    exact latest_eq_none_iff.mp hnone _ (List.mem_filterMap.mpr ⟨_, hx, rfl⟩) rfl

/-- A connection on which the whole table is asked for and answered. -/
def wholeRound : List Event :=
  [.connect, .queryUpdate [], .tick 2000, .queryUpdate [], .tick 940, .schedulerUpdate] ++
    List.replicate 48 (.station 0x30) ++ List.replicate 48 .receive

theorem wholeRound_allowed : AtEachStep step Allowed (initial 0) wholeRound :=
  allowed_of_quiet (by simp [wholeRound]) (by decide +kernel)

theorem table_is_learnt_wholeRound :
    (run step (initial 0) wholeRound).query.queriedThisConnection = true ∧
      underway (run step (initial 0) wholeRound) = [] ∧
      ∀ address ∈ turnoutAddresses,
        (∃ d2, .ack address d2 ∈ handled (initial 0) wholeRound) ∧
          ((run step (initial 0) wholeRound).router.decoder.recorded address).isSome := by
  have hqueried : (run step (initial 0) wholeRound).query.queriedThisConnection = true := by
    decide +kernel
  have hunderway : underway (run step (initial 0) wholeRound) = [] := by decide +kernel
  exact ⟨hqueried, hunderway, (table_is_learnt 0 wholeRound wholeRound_allowed
    (by decide +kernel) (by decide +kernel)).2 hqueried hunderway⟩

end Loco2Mqtt.AckAttribution
