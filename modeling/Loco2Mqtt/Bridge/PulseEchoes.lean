import Loco2Mqtt.Bridge.CommandLoop

/-! The echoes of off-pulses. The decoder does not look at the output bit, so an off-pulse
counts as a report of its command's position. It goes unnoticed exactly if the latest command
for the same turnout that went over the wire before it has its position; as long as this is so,
the published changes of a turnout are its commanded positions without repeats. -/

namespace Loco2Mqtt.CommandLoop

open LocoNetMessageRouter PendingLocoNetSendScheduler TurnoutLocoNetEncoder TurnoutMqttEncoder
  ChangeLog DelayLine WrappingClock Runs

/-- The commands whose on-pulses are among the frames. -/
def commandsOn (frames : List LocoNetMessage) : List (ℤ × TurnoutPosition) :=
  reports (frames.filter (fun m => !isOffPulse m))

/-- No off-pulse is an event, the changes published for an address are its commanded
positions seen so far without repeats, and its state topic shows the last of them. -/
structure EchoesSilent (s : State) : Prop where
  silent : ∀ entry ∈ s.handled, isOffPulse entry.1 → entry.2 = []
  changes : ∀ a, values (payloads (s.handled.flatMap Prod.snd)) (stateTopic a) =
    ((values (commandsOn (handledFrames s)) a).destutter (· ≠ ·)).map payloadOf
  current : ∀ a, latest (payloads s.published) (stateTopic a) =
    (latest (commandsOn (handledFrames s)) a).map payloadOf

/-- At every off-pulse the latest command before it for its turnout has its position. -/
def OffPulsesAgree (frames : List LocoNetMessage) : Prop :=
  AtEachEntry (fun front off => isOffPulse off → ∀ report ∈ reported off,
    latest (commandsOn front) report.1 = some report.2) frames

/-! ### What is published on each frame -/

/-- On each frame the router publishes the change it makes to what was reported before. -/
def Annotated (handled : List (LocoNetMessage × List MqttMessage)) : Prop :=
  AtEachEntry (fun front entry => entry.2 =
    (changesFrom (latest (reports (front.map Prod.fst))) (reported entry.1).toList).map announce)
      handled

theorem annotated_trace {router : LocoNetMessageRouter} {messages : List LocoNetMessage}
    (hpulses : ∀ m ∈ messages, IsPulse m) {handled : List (LocoNetMessage × List MqttMessage)}
    (hrecorded : router.decoder.recorded = latest (reports (handled.map Prod.fst)))
    (h : Annotated handled) : Annotated (handled ++ trace router messages) := by
  induction messages generalizing router handled with
  | nil => rwa [trace, List.append_nil]
  | cons message rest ih =>
    obtain ⟨hreport, -⟩ := (hpulses message List.mem_cons_self).reportOf router.pendingAcks
    have hafter :=
      (router.decoder.absorb_changes (LocoNetMessageRouter.reportOf router.pendingAcks message)).1
    have hpublished := absorb_announces router.decoder
      (LocoNetMessageRouter.reportOf router.pendingAcks message)
    rw [hreport] at hafter hpublished
    have hsplit : handled ++ trace router (message :: rest) =
        handled ++ [(message, (router.handleMessage message).2)] ++
          trace (router.handleMessage message).1 rest := by
      simp [trace]
    rw [hsplit]
    apply ih (fun m hm => hpulses m (List.mem_cons_of_mem _ hm))
    · simp only [handleMessage_eq, hreport, hafter, List.map_append, List.map_cons, List.map_nil,
        reports_append, hrecorded, seenAfter_latest]
      cases hm : reported message <;> simp [reports, hm]
    · refine atEachEntry_concat.mpr ⟨h, ?_⟩
      simp only [handleMessage_eq, hreport, hpublished, hrecorded]

theorem annotated_step (s : State) (e : Event) (hwired : Wired s) (h : Annotated s.handled) :
    Annotated (step s e).handled := by
  cases e with
  | tick milliseconds => exact h
  | command message => exact h
  | schedulerUpdate => exact h
  | routerUpdate echoes elapsed =>
    apply annotated_trace _ hwired.recorded h
    exact fun m hm =>
      hwired.pulses m (List.mem_append_left _ (List.mem_of_mem_drop (List.mem_of_mem_take hm)))

theorem annotated_run (start : ℕ) (events : List Event) :
    Annotated (run step (initial start) events).handled :=
  (run_invariant_of_step (I := fun s => Wired s ∧ Annotated s.handled)
    (fun s e h => ⟨wired_step s e h.1, annotated_step s e h.1 h.2⟩)
    ⟨wired_initial start, atEachEntry_nil _⟩ events).2

/-- All changes published are the changes of what was reported. -/
theorem flatMap_snd_of_annotated {handled : List (LocoNetMessage × List MqttMessage)}
    (h : Annotated handled) :
    handled.flatMap Prod.snd = (changes (reports (handled.map Prod.fst))).map announce := by
  induction handled using List.reverseRecOn with
  | nil => rfl
  | append_singleton handled entry ih =>
    obtain ⟨hhandled, hentry⟩ := atEachEntry_concat.mp h
    have hframes : reports ((handled ++ [entry]).map Prod.fst) =
        reports (handled.map Prod.fst) ++ (reported entry.1).toList := by
      rw [List.map_append, reports_append]
      cases hm : reported entry.1 <;> simp [reports, hm]
    have hseen : seenAfter (fun _ => none) (reports (handled.map Prod.fst)) =
        latest (reports (handled.map Prod.fst)) := by
      funext a
      rw [seenAfter, Option.or_none]
    rw [List.flatMap_append, ih hhandled, hframes, changes, changes, changesFrom_append,
      List.map_append, hseen, ← hentry]
    simp

/-! ### Off-pulses among the reports -/

theorem reports_concat {frames : List LocoNetMessage} {m : LocoNetMessage}
    {r : ℤ × TurnoutPosition} (h : reported m = some r) :
    reports (frames ++ [m]) = reports frames ++ [r] := by
  simp [reports, h]

theorem commandsOn_concat_off {frames : List LocoNetMessage} {m : LocoNetMessage}
    (h : isOffPulse m) : commandsOn (frames ++ [m]) = commandsOn frames := by
  simp [commandsOn, List.filter_append, h]

theorem commandsOn_concat_on {frames : List LocoNetMessage} {m : LocoNetMessage}
    {r : ℤ × TurnoutPosition} (h : ¬ isOffPulse m) (hr : reported m = some r) :
    commandsOn (frames ++ [m]) = commandsOn frames ++ [r] := by
  have hkeep : [m].filter (fun m => !isOffPulse m) = [m] := by simp [h]
  rw [commandsOn, List.filter_append, hkeep, reports_concat hr, ← commandsOn]

theorem IsPulse.reported_isSome {m : LocoNetMessage} (h : IsPulse m) :
    ∃ r, reported m = some r := by
  obtain ⟨command, outputOn, hrange, rfl⟩ := h
  exact ⟨_, reported_buildSwReq hrange outputOn⟩

/-- If every off-pulse agrees with the command before it, only commands are changes. -/
theorem changes_of_agree {frames : List LocoNetMessage} (hpulses : ∀ m ∈ frames, IsPulse m)
    (h : OffPulsesAgree frames) : changes (reports frames) = changes (commandsOn frames) := by
  induction frames using List.reverseRecOn with
  | nil => rfl
  | append_singleton frames m ih =>
    obtain ⟨hframes, hm⟩ := atEachEntry_concat.mp h
    have ih := ih (fun x hx => hpulses x (List.mem_append_left _ hx)) hframes
    have hlatest : ∀ a, latest (reports frames) a = latest (commandsOn frames) a := by
      intro a
      rw [← latest_changes, ih, latest_changes]
    obtain ⟨r, hr⟩ := (hpulses m (by simp)).reported_isSome
    rw [reports_concat hr]
    by_cases hoff : isOffPulse m
    · rw [commandsOn_concat_off hoff, ← ih]
      exact changes_append_of_no_change _ ((hlatest r.1).trans (hm hoff r hr))
    · rw [commandsOn_concat_on hoff hr, changes_concat, changes_concat, ih, hlatest]

theorem offPulsesAgree_concat {frames : List LocoNetMessage} {m : LocoNetMessage}
    {r : ℤ × TurnoutPosition} (hr : reported m = some r) :
    OffPulsesAgree (frames ++ [m]) ↔ OffPulsesAgree frames ∧
      (isOffPulse m → latest (commandsOn frames) r.1 = some r.2) := by
  refine atEachEntry_concat.trans (and_congr_right fun _ => ?_)
  simp [hr]

theorem silent_iff_agree {handled : List (LocoNetMessage × List MqttMessage)}
    (hpulses : ∀ m ∈ handled.map Prod.fst, IsPulse m) (h : Annotated handled) :
    (∀ entry ∈ handled, isOffPulse entry.1 → entry.2 = []) ↔
      OffPulsesAgree (handled.map Prod.fst) := by
  induction handled using List.reverseRecOn with
  | nil => exact ⟨fun _ => atEachEntry_nil _, fun _ _ hmem => absurd hmem List.not_mem_nil⟩
  | append_singleton handled entry ih =>
    obtain ⟨hhandled, hentry⟩ := atEachEntry_concat.mp h
    have hfront : ∀ m ∈ handled.map Prod.fst, IsPulse m := fun m hm =>
      hpulses m (by rw [List.map_append]; exact List.mem_append_left _ hm)
    have ih := ih hfront hhandled
    obtain ⟨r, hr⟩ := (hpulses entry.1 (by simp)).reported_isSome
    -- the frame is silent exactly when its report is no change
    have hempty : entry.2 = [] ↔ latest (reports (handled.map Prod.fst)) r.1 = some r.2 := by
      rw [hentry, hr]
      simp [changesFrom]
    have hsplit : (∀ x ∈ handled ++ [entry], isOffPulse x.1 → x.2 = []) ↔
        (∀ x ∈ handled, isOffPulse x.1 → x.2 = []) ∧ (isOffPulse entry.1 → entry.2 = []) := by
      simp only [List.forall_mem_append, List.forall_mem_singleton]
    rw [hsplit, ih, hempty, List.map_append, List.map_cons, List.map_nil, offPulsesAgree_concat hr]
    refine and_congr_right fun hagree => imp_congr_right fun _ => ?_
    have hlatest : latest (reports (handled.map Prod.fst)) r.1 =
        latest (commandsOn (handled.map Prod.fst)) r.1 := by
      rw [← latest_changes, changes_of_agree hfront hagree, latest_changes]
    rw [hlatest]

/-! ### The commands on the wire -/

/-- The wire carries the on-pulses of all commands in order; what is pending are off-pulses. -/
structure Carried (s : State) : Prop where
  pending_off : ∀ entry ∈ s.scheduler.pending, isOffPulse entry.message
  commands_eq : commandsOn s.wire = s.commands

theorem carried_step (s : State) (e : Event) (h : Carried s) : Carried (step s e) := by
  cases e with
  | tick milliseconds => exact ⟨h.pending_off, h.commands_eq⟩
  | routerUpdate echoes elapsed => exact ⟨h.pending_off, h.commands_eq⟩
  | command message =>
    rcases step_command s message with ⟨hsame, -⟩ | ⟨command, hrange, -, hstep⟩
    · rw [hsame]
      exact h
    · rw [hstep]
      refine ⟨fun entry hentry => ?_, ?_⟩
      · rcases List.mem_append.mp hentry with hold | hnew
        · exact h.pending_off entry hold
        · rw [List.mem_singleton.mp hnew, (reportOf_buildSwReq hrange false ⟨[]⟩).2.2]
          rfl
      · have hon : ¬ isOffPulse (buildSwReq command true) := by
          rw [(reportOf_buildSwReq hrange true ⟨[]⟩).2.2]
          decide
        rw [commandsOn_concat_on hon (reported_buildSwReq hrange true), h.commands_eq]
  | schedulerUpdate =>
    simp only [step, update_eq]
    refine ⟨fun entry hentry => h.pending_off entry ((kept_sublist _ _).subset hentry), ?_⟩
    have hnone : ((released dueNat (reading s.now).toNat s.scheduler.pending).map
        PendingLocoNetSend.message).filter (fun m => !isOffPulse m) = [] := by
      rw [List.filter_eq_nil_iff]
      intro m hm
      obtain ⟨entry, hentry, rfl⟩ := List.mem_map.mp hm
      simp [h.pending_off entry (mem_released.mp hentry).1]
    rw [commandsOn, List.filter_append, hnone, List.append_nil]
    exact h.commands_eq

/-- The echoes of off-pulses are silent, and the changes of a turnout are its commanded
positions, exactly when every off-pulse agrees with the latest command for its turnout that
came over the wire before it. The commands on the wire are the commands accepted, in order,
and the frames handled are the first ones of the wire. -/
theorem off_pulse_echoes_silent_iff (start : ℕ) (events : List Event) :
    let s := run step (initial start) events
    commandsOn s.wire = s.commands ∧ handledFrames s = s.wire.take s.received ∧
      (EchoesSilent s ↔ OffPulsesAgree (handledFrames s)) := by
  intro s
  have hwired : Wired s := run_invariant_of_step wired_step (wired_initial start) events
  have hcarried : Carried s :=
    run_invariant_of_step carried_step ⟨fun _ h => absurd h List.not_mem_nil, rfl⟩ events
  have hannotated : Annotated s.handled := annotated_run start events
  have hpulses : ∀ m ∈ handledFrames s, IsPulse m := by
    intro m hm
    rw [hwired.echoed] at hm
    exact hwired.pulses m (List.mem_append_left _ (List.mem_of_mem_take hm))
  refine ⟨hcarried.commands_eq, hwired.echoed, ?_⟩
  constructor
  · exact fun h => (silent_iff_agree hpulses hannotated).mp h.silent
  · intro hagree
    have hchanges := changes_of_agree hpulses hagree
    refine ⟨(silent_iff_agree hpulses hannotated).mpr hagree, fun a => ?_, fun a => ?_⟩
    · rw [flatMap_snd_of_annotated hannotated, ← handledFrames, hchanges, values_payloads_announce,
        values_changes]
    · rw [hwired.mirrors.latest_eq, hwired.recorded, ← latest_changes, hchanges, latest_changes]

/-- The off-pulse of the first of two opposite commands announces the position that the
second has just replaced. -/
theorem opposing_off_pulse_announced :
    (⟨stateTopic 5, payloadOf .thrown, true⟩ : MqttMessage) ∈
        (((run step (initial 0) opposing).handled.filter (fun entry => isOffPulse entry.1)).flatMap
          Prod.snd) ∧
      ¬ EchoesSilent (run step (initial 0) opposing) := by
  have hannounced : (⟨stateTopic 5, payloadOf .thrown, true⟩ : MqttMessage) ∈
      (((run step (initial 0) opposing).handled.filter (fun entry => isOffPulse entry.1)).flatMap
        Prod.snd) := by decide
  refine ⟨hannounced, fun h => ?_⟩
  obtain ⟨entry, hentry, hmem⟩ := List.mem_flatMap.mp hannounced
  obtain ⟨hhandled, hoff⟩ := List.mem_filter.mp hentry
  rw [h.silent entry hhandled hoff] at hmem
  exact absurd hmem List.not_mem_nil

end Loco2Mqtt.CommandLoop
