import Loco2Mqtt.Bridge.AckAttribution
import Loco2Mqtt.Bridge.CommandLoop

/-! How much the scheduler keeps. As long as no due time wraps, the pulses pending after an update
are exactly those of the commands accepted in the last 250 milliseconds, and of the requests no
more than one round is left, since a round has fallen due before the next can begin. -/

namespace Loco2Mqtt.PendingBound

open AckAttribution PendingLocoNetSendScheduler DelayLine WrappingClock Runs
open CommandLoop (commanded PulseUnwrapped)
open TurnoutLocoNetEncoder (buildSwReq kOffPulseDelayMs)
open TurnoutTableStartupQuery (turnoutAddresses requestsOf requestsOf_messages)

/-- A command and the time at which it was accepted. -/
def acceptedBy (s : State) : Event → Option ((ℤ × TurnoutPosition) × ℕ)
  | .command message => (commanded message).map (fun command => (command, s.now))
  | _ => none

def accepted : State → List Event → List ((ℤ × TurnoutPosition) × ℕ)
  | _, [] => []
  | s, e :: rest => (acceptedBy s e).toList ++ accepted (step s e) rest

/-- The off-pulse of a command, and when it falls due. -/
def offPulse (command : (ℤ × TurnoutPosition) × ℕ) : LocoNetMessage × ℕ :=
  (buildSwReq ⟨⟨command.1.1⟩, command.1.2⟩ false, command.2 + kOffPulseDelayMs.toNat)

/-- The pending entries that are no requests. -/
def pulseEntries (pending : List PendingLocoNetSend) : List PendingLocoNetSend :=
  pending.filter (fun entry => !(requestedAddress entry.message).isSome)

def dated (pending : List PendingLocoNetSend) : List (LocoNetMessage × ℕ) :=
  (pulseEntries pending).map (fun entry => (entry.message, dueNat entry))

/-- The due time of an off-pulse does not wrap. -/
def PulsesUnwrapped (s : State) : Event → Prop
  | .command message => PulseUnwrapped s.now message
  | _ => True

instance (s : State) : ∀ e, Decidable (PulsesUnwrapped s e)
  | .command message => inferInstanceAs (Decidable (PulseUnwrapped s.now message))
  | .tick _ | .connect | .disconnect | .queryUpdate _ | .schedulerUpdate | .station _ | .other _
  | .receive => isTrue trivial

/-! ### What falls due later -/

/-- Of the pulses, those that fall due after `now` are those of the log, and of the requests no
more than a round is. -/
structure Outstanding (s : State) (log : List ((ℤ × TurnoutPosition) × ℕ)) : Prop where
  timely : Timely s
  pulses : (dated s.scheduler.pending).filter (fun entry => s.now < entry.2) =
    (log.map offPulse).filter (fun entry => s.now < entry.2)
  requests :
    ((requestEntries s.scheduler.pending).filter (fun entry => s.now < dueNat entry)).length ≤ 48

theorem outstanding_initial (start : ℕ) : Outstanding (initial start) [] :=
  ⟨timely_initial start, rfl, Nat.zero_le _⟩

/-- What falls due after a later time is among what falls due after `now`. -/
theorem filter_later {α : Type*} (due : α → ℕ) {now later : ℕ} (h : now ≤ later)
    (entries : List α) :
    entries.filter (fun entry => later < due entry) =
      (entries.filter (fun entry => now < due entry)).filter (fun entry => later < due entry) := by
  rw [List.filter_filter]
  apply List.filter_congr
  intro entry _
  by_cases hlater : later < due entry
  · simp [hlater, lt_of_le_of_lt h hlater]
  · simp [hlater]

/-- Time goes by, and perhaps entries that are due are taken out. -/
theorem Outstanding.later {s s' : State} {log : List ((ℤ × TurnoutPosition) × ℕ)}
    (h : Outstanding s log) (htimely : Timely s') (hnow : s.now ≤ s'.now)
    (hpulses : (dated s'.scheduler.pending).filter (fun entry => s'.now < entry.2) =
      (dated s.scheduler.pending).filter (fun entry => s'.now < entry.2))
    (hrequests : ((requestEntries s'.scheduler.pending).filter
        (fun entry => s'.now < dueNat entry)).length ≤
      ((requestEntries s.scheduler.pending).filter (fun entry => s'.now < dueNat entry)).length) :
    Outstanding s' log := by
  refine ⟨htimely, ?_, ?_⟩
  · rw [hpulses, filter_later Prod.snd hnow, h.pulses, ← filter_later Prod.snd hnow]
  · refine le_trans hrequests (le_trans ?_ h.requests)
    rw [filter_later dueNat hnow]
    exact List.length_filter_le _ _

/-- By the time a round is scheduled, the requests of the rounds before have fallen due. -/
theorem queryUpdate_pending {s : State} (h : Timely s) (drift : List ℕ)
    (hclock : s.now + drift.sum < 2 ^ 32) :
    (step s (.queryUpdate drift)).scheduler = s.scheduler ∨
      ∃ clock, (step s (.queryUpdate drift)).scheduler.pending =
          s.scheduler.pending ++ requestsOf clock turnoutAddresses 0 ∧
        ∀ entry ∈ requestEntries s.scheduler.pending, dueNat entry ≤ s.now + drift.sum := by
  by_cases hconnected : s.connected = true
  · obtain ⟨since, used, hsince, hresult | ⟨hqueried, hstable, -, hresult⟩⟩ :=
      s.query.update_connected (fun k => reading (readingTime s drift k)) s.router.pendingAcks
        s.scheduler
    · left
      simp only [step, hconnected, hresult]
    · right
      refine ⟨_, by simp only [step, hconnected, hresult]; rfl, fun entry hentry => ?_⟩
      obtain ⟨t, ht, rfl, hold⟩ := h.counted_from drift hqueried hsince
      have hle : t ≤ readingTime s drift used :=
        le_trans ht (readingTime_mono s drift (Nat.zero_le _))
      have hlt := (readingTime_le s drift used).2
      -- the connection is older than the stagger of the last round
      have hspan := (reading_sub_lt_iff hle (by omega)
        TurnoutTableStartupQuery.kStableConnectionMs).not.mp (UInt32.not_lt.mpr hstable)
      have hms : TurnoutTableStartupQuery.kStableConnectionMs.toNat = 2000 := rfl
      have hdue := hold entry hentry
      omega
  · have hdown : s.connected = false := Bool.eq_false_iff.mpr hconnected
    left
    simp only [step, hdown, TurnoutTableStartupQuery.update, Bool.not_false, if_true]

theorem pulseEntries_round (clock : ℕ → UInt32) :
    pulseEntries (requestsOf clock turnoutAddresses 0) = [] := by
  rw [pulseEntries, List.filter_eq_nil_iff]
  intro entry hentry
  rw [isSome_requestedAddress hentry]
  exact Bool.false_ne_true

theorem length_round (clock : ℕ → UInt32) :
    (requestEntries (requestsOf clock turnoutAddresses 0)).length ≤ 48 := by
  have hlength := congrArg List.length (requestsOf_messages clock turnoutAddresses 0)
  rw [List.length_map, List.length_map, TurnoutTableStartupQuery.length_turnoutAddresses] at hlength
  exact le_trans (List.length_filter_le _ _) (le_of_eq hlength)

theorem outstanding_queryUpdate {s : State} {log : List ((ℤ × TurnoutPosition) × ℕ)}
    (h : Outstanding s log) (drift : List ℕ) (hclock : ClockUnwrapped s (.queryUpdate drift))
    (htimely : Timely (step s (.queryUpdate drift))) :
    Outstanding (step s (.queryUpdate drift)) log := by
  have hnow : (step s (.queryUpdate drift)).now = s.now + drift.sum := rfl
  rcases queryUpdate_pending h.timely drift hclock with hsame | ⟨clock, hround, hstale⟩
  · apply h.later htimely (by omega) <;> rw [hsame]
  · have hpulses : dated (step s (.queryUpdate drift)).scheduler.pending =
        dated s.scheduler.pending := by
      rw [hround, dated, pulseEntries, List.filter_append, ← pulseEntries, ← pulseEntries,
        pulseEntries_round, List.append_nil, dated]
    have hnone : (requestEntries s.scheduler.pending).filter
        (fun entry => s.now + drift.sum < dueNat entry) = [] := by
      rw [List.filter_eq_nil_iff]
      intro entry hentry
      simpa using hstale entry hentry
    refine ⟨htimely, ?_, ?_⟩
    · rw [hpulses, hnow, filter_later Prod.snd (Nat.le_add_right _ _), h.pulses,
        ← filter_later Prod.snd (Nat.le_add_right _ _)]
    · rw [hround, requestEntries_append, List.filter_append, hnow, hnone, List.nil_append]
      exact le_trans (List.length_filter_le _ _) (length_round clock)

/-- What an update of the scheduler leaves. -/
theorem schedulerUpdate_pending {s : State} (hnow : s.now < 2 ^ 32) :
    dated (step s .schedulerUpdate).scheduler.pending =
        (dated s.scheduler.pending).filter (fun entry => s.now < entry.2) ∧
      requestEntries (step s .schedulerUpdate).scheduler.pending =
        (requestEntries s.scheduler.pending).filter (fun entry => s.now < dueNat entry) := by
  have hpending : (step s .schedulerUpdate).scheduler.pending =
      kept dueNat s.now s.scheduler.pending := by
    simp only [step, transmit, update_eq, toNat_reading_of_lt hnow]
  rw [hpending]
  constructor
  · have hkept : pulseEntries (kept dueNat s.now s.scheduler.pending) =
        kept dueNat s.now (pulseEntries s.scheduler.pending) := filter_kept _ _ _
    rw [dated, hkept, dated, List.filter_map]
    rfl
  · exact filter_kept _ _ _

theorem outstanding_schedulerUpdate {s : State} {log : List ((ℤ × TurnoutPosition) × ℕ)}
    (h : Outstanding s log) (hclock : ClockUnwrapped s .schedulerUpdate)
    (htimely : Timely (step s .schedulerUpdate)) : Outstanding (step s .schedulerUpdate) log := by
  obtain ⟨hdated, hrequests⟩ := schedulerUpdate_pending (s := s) hclock
  have hnow : (step s .schedulerUpdate).now = s.now := rfl
  apply h.later htimely (le_refl _)
  · rw [hdated, hnow, ← filter_later Prod.snd (le_refl s.now)]
  · rw [hrequests, hnow, ← filter_later dueNat (le_refl s.now)]

/-- The off-pulse of an accepted command falls due 250 milliseconds later. -/
theorem dated_command {s : State} {message : IncomingMqttMessage} {command : DomainCommand}
    (hcommand : MqttCommandRouter.commandOf message = some command)
    (hdue : PulseUnwrapped s.now message) :
    dated (step s (.command message)).scheduler.pending = dated s.scheduler.pending ++
      [offPulse ((command.address.value, command.position), s.now)] := by
  have hpending : (step s (.command message)).scheduler.pending = s.scheduler.pending ++
      [⟨buildSwReq command false, reading s.now + kOffPulseDelayMs⟩] := by
    simp only [step, transmit, MqttCommandRouter.handleMessage, hcommand, performAll_encode,
      sendAfter]
  have haccepted : (commanded message).isSome := by rw [commanded, hcommand]; rfl
  have hdue : dueNat ⟨buildSwReq command false, reading s.now + kOffPulseDelayMs⟩ =
      s.now + kOffPulseDelayMs.toNat := dueNat_of_unwrapped (hdue haccepted) _
  rw [hpending, dated, pulseEntries, List.filter_append, List.map_append, ← pulseEntries, ← dated,
    offPulse, ← hdue]
  rfl

/-- A command adds its off-pulse to the pending entries and to the log. -/
theorem outstanding_command {s : State} {log : List ((ℤ × TurnoutPosition) × ℕ)}
    (h : Outstanding s log) (message : IncomingMqttMessage) (hdue : PulseUnwrapped s.now message)
    (htimely : Timely (step s (.command message))) :
    Outstanding (step s (.command message)) (log ++ (acceptedBy s (.command message)).toList) := by
  have hrequests : ((requestEntries (step s (.command message)).scheduler.pending).filter
      (fun entry => s.now < dueNat entry)).length ≤ 48 := by
    rw [requestEntries_command]
    exact h.requests
  refine ⟨htimely, ?_, hrequests⟩
  rcases hcommand : MqttCommandRouter.commandOf message with _ | command
  · have hsame : (step s (.command message)).scheduler = s.scheduler := by
      simp only [step, transmit, MqttCommandRouter.handleMessage, hcommand, performAll]
    have hnone : acceptedBy s (.command message) = none := by
      simp only [acceptedBy, commanded, hcommand, Option.map_none]
    rw [hsame, hnone, Option.toList_none, List.append_nil]
    exact h.pulses
  · have haccepted : acceptedBy s (.command message) =
        some ((command.address.value, command.position), s.now) := by
      simp only [acceptedBy, commanded, hcommand, Option.map_some]
    have hnow : (step s (.command message)).now = s.now := rfl
    rw [dated_command hcommand hdue, haccepted, Option.toList_some, List.map_append,
      List.filter_append, List.filter_append, hnow, h.pulses, List.map_singleton]

/-- An event that is no accepted command leaves the log alone. -/
theorem Outstanding.of_quiet {s s' : State} {e : Event} {log : List ((ℤ × TurnoutPosition) × ℕ)}
    (h : Outstanding s' log) (hquiet : acceptedBy s e = none) :
    Outstanding s' (log ++ (acceptedBy s e).toList) := by
  rw [hquiet, Option.toList_none, List.append_nil]
  exact h

theorem outstanding_step {s : State} {e : Event} {log : List ((ℤ × TurnoutPosition) × ℕ)}
    (h : Outstanding s log) (hclock : ClockUnwrapped s e) (hrequests : DueTimesUnwrapped s e)
    (hpulses : PulsesUnwrapped s e) :
    Outstanding (step s e) (log ++ (acceptedBy s e).toList) := by
  have htimely := timely_step s e h.timely hclock hrequests
  cases e with
  | command message => exact outstanding_command h message hpulses htimely
  | tick | connect | disconnect | station | other | receive =>
    exact (h.later htimely (by simp [step]) rfl (le_refl _)).of_quiet rfl
  | queryUpdate drift => exact (outstanding_queryUpdate h drift hclock htimely).of_quiet rfl
  | schedulerUpdate => exact (outstanding_schedulerUpdate h hclock htimely).of_quiet rfl

theorem outstanding_run {s : State} {log : List ((ℤ × TurnoutPosition) × ℕ)}
    (h : Outstanding s log) {events : List Event} (hclock : AtEachStep step ClockUnwrapped s events)
    (hrequests : AtEachStep step DueTimesUnwrapped s events)
    (hpulses : AtEachStep step PulsesUnwrapped s events) :
    Outstanding (run step s events) (log ++ accepted s events) := by
  induction events generalizing s log with
  | nil =>
    rw [accepted, List.append_nil]
    exact h
  | cons e rest ih =>
    rw [run_cons, accepted, ← List.append_assoc]
    exact ih (outstanding_step h hclock.1 hrequests.1 hpulses.1) hclock.2 hrequests.2 hpulses.2

/-! ### After an update -/

/-- As long as neither the counter nor a due time wraps, the pulses that an update of the
scheduler leaves are the off-pulses of the commands accepted in the last 250 milliseconds, in
order, and the requests that it leaves are no more than the 48 of one round. -/
theorem pending_bounded (start : ℕ) (events : List Event)
    (hclock : AtEachStep step ClockUnwrapped (initial start) (events ++ [.schedulerUpdate]))
    (hrequests : AtEachStep step DueTimesUnwrapped (initial start) events)
    (hpulses : AtEachStep step PulsesUnwrapped (initial start) events) :
    let s := run step (initial start) (events ++ [.schedulerUpdate])
    let recent := (accepted (initial start) events).filter (fun command => s.now < command.2 + 250)
    dated s.scheduler.pending = recent.map offPulse ∧
      (requestEntries s.scheduler.pending).length ≤ 48 ∧
      s.scheduler.pending.length ≤ recent.length + 48 := by
  intro s recent
  obtain ⟨hbefore, hlast, -⟩ := atEachStep_append.mp hclock
  have houtstanding := outstanding_run (outstanding_initial start) hbefore hrequests hpulses
  rw [List.nil_append] at houtstanding
  have hs : s = step (run step (initial start) events) .schedulerUpdate := run_concat _ _ _ _
  have hnow : s.now = (run step (initial start) events).now := by rw [hs]; rfl
  obtain ⟨hdated, hkept⟩ :=
    schedulerUpdate_pending (s := run step (initial start) events) hlast
  have hpulses : dated s.scheduler.pending = recent.map offPulse := by
    rw [hs, hdated, houtstanding.pulses, List.filter_map, ← hnow]
    rfl
  have hround : (requestEntries s.scheduler.pending).length ≤ 48 := by
    rw [hs, hkept]
    exact houtstanding.requests
  refine ⟨hpulses, hround, ?_⟩
  have hlength := congrArg List.length hpulses
  rw [dated, List.length_map, List.length_map] at hlength
  have hsplit := List.length_eq_length_filter_add
    (fun entry => (requestedAddress entry.message).isSome) (l := s.scheduler.pending)
  rw [← requestEntries, ← pulseEntries] at hsplit
  omega

/-- A round, a command 100 milliseconds before the update and one 260 before. -/
def midRound : List Event :=
  [.connect, .queryUpdate [], .tick 2000, .queryUpdate [0],
    .command ⟨"loconet/turnout/5/set".toList, "THROWN".toList⟩, .tick 160,
    .command ⟨"loconet/turnout/6/set".toList, "CLOSED".toList⟩, .tick 100]

theorem pending_bounded_midRound :
    dated (run step (initial 0) (midRound ++ [.schedulerUpdate])).scheduler.pending =
      [(buildSwReq ⟨⟨6⟩, .closed⟩ false, 2410)] := by
  have hclock : AtEachStep step ClockUnwrapped (initial 0) (midRound ++ [.schedulerUpdate]) := by
    decide +kernel
  rw [(pending_bounded 0 midRound hclock (by decide +kernel) (by decide +kernel)).1]
  decide +kernel

end Loco2Mqtt.PendingBound
