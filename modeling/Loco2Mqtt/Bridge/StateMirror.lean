import Loco2Mqtt.Application.MessageRouter
import Loco2Mqtt.Foundations.Runs
import Loco2Mqtt.Foundations.WrappingClock

/-! What an MQTT client sees. Over any run of the router the topics ever used are those of
the known addresses and the last payload on each is the recorded position. A client that
starts listening later hears a full republish within 30 seconds, from which on the same is
true of what it has heard. -/

namespace Loco2Mqtt.StateMirror

open LocoNetMessageRouter TurnoutMqttEncoder ChangeLog WrappingClock Runs

/-- `check` and `stamp` are the instants of the two clock readings of an update. The queue
of pending acks also grows between updates. -/
inductive Event where
  | expect (address : TurnoutAddress)
  | update (received : List LocoNetMessage) (check stamp : ℕ)

/-- `published` is everything handed to `publish` so far, `lastCheck` the time of the latest
update and `now` the latest instant at which the clock was read. -/
structure State where
  router : LocoNetMessageRouter
  published : List MqttMessage
  lastCheck : Option ℕ
  now : ℕ

def initial : State := ⟨LocoNetMessageRouter.initial, [], none, 0⟩

def step (s : State) : Event → State
  | .expect address =>
    { s with router := { s.router with pendingAcks := s.router.pendingAcks.expect address } }
  | .update received check stamp =>
    let (router, published) := s.router.update received (reading check) (reading stamp)
    ⟨router, s.published ++ published, some check, stamp⟩

/-- Updates do not overlap and are less than `2 ^ 31` milliseconds apart. -/
def Paced (s : State) : Event → Prop
  | .expect _ => True
  | .update _ check stamp =>
    s.now ≤ check ∧ check ≤ stamp ∧ ∀ previous ∈ s.lastCheck, check < previous + 2 ^ 31

/-! ### The mirror over a run -/

/-- The mirror holds of everything published so far. -/
def Mirrored (s : State) : Prop := Mirrors s.router.decoder.recorded s.published

theorem initial_recorded : initial.router.decoder.recorded = fun _ => none := by
  funext a
  simp [initial, LocoNetMessageRouter.initial, TurnoutLocoNetDecoder.recorded]

theorem initial_mirrored : Mirrored initial := by
  unfold Mirrored
  rw [initial_recorded]
  exact Mirrors.empty

theorem mirrored_step (s : State) (e : Event) (h : Mirrored s) : Mirrored (step s e) := by
  cases e with
  | expect address => exact h
  | update received check stamp => exact h.update received (reading check) (reading stamp)

/-- Whatever the clock does. -/
theorem mirrored_run (events : List Event) : Mirrored (run step initial events) :=
  run_invariant_of_step mirrored_step initial_mirrored events

/-! ### The interval between republishes -/

/-- The stamp of the router stands for the instant `last` of real time, and the latest update
found less than the interval elapsed since then. -/
structure Elapsed (s : State) (last : ℕ) : Prop where
  stamp : reading last = s.router.lastRepublishAtMilliseconds
  past : last ≤ s.now
  recent : ∃ check ∈ s.lastCheck, check < last + 30000

/-- What an update can do, if the stamp stands for an instant not a whole round ago. -/
theorem update_cases {s : State} (received : List LocoNetMessage) {last check stamp : ℕ}
    (hlast : reading last = s.router.lastRepublishAtMilliseconds) (hpast : last ≤ check)
    (hspan : check < last + 2 ^ 32) (hstamp : check ≤ stamp) :
    let s' := step s (.update received check stamp)
    let drained := s.router.drain received
    s'.router.decoder = drained.1.decoder ∧
      (check < last + 30000 ∧ Elapsed s' last ∧ s'.published = s.published ++ drained.2 ∨
        last + 30000 ≤ check ∧ Elapsed s' stamp ∧ s'.published =
          s.published ++ (drained.2 ++ drained.1.decoder.allKnownStates.map encode)) := by
  have hdue := reading_sub_lt_iff hpast (by omega) kStateRepublishIntervalMs
  rw [hlast] at hdue
  by_cases h : check < last + 30000
  · have hnot := hdue.mpr (show check - last < 30000 by omega)
    simp only [step, update_of_not_due hnot]
    refine ⟨trivial, Or.inl ⟨h, ⟨?_, by simp only; omega, check, rfl, h⟩, trivial⟩⟩
    exact hlast.trans (s.router.drain_lastRepublish received).symm
  · have hyes : ¬ reading check - s.router.lastRepublishAtMilliseconds <
        kStateRepublishIntervalMs := fun hlt => absurd (hdue.mp hlt) (show ¬ _ < 30000 by omega)
    simp only [step, update_of_due hyes]
    exact ⟨trivial, Or.inr ⟨by omega, ⟨rfl, le_refl _, check, rfl, by omega⟩, trivial⟩⟩

/-- Either there has been no update, and nothing has been published, or the stamp is known. -/
def Timed (s : State) : Prop :=
  (s.lastCheck = none ∧ s.published = [] ∧ s.router.lastRepublishAtMilliseconds = 0) ∨
    ∃ last, Elapsed s last

theorem Elapsed.span {s : State} {last : ℕ} (h : Elapsed s last) {received : List LocoNetMessage}
    {check stamp : ℕ} (hpaced : Paced s (.update received check stamp)) :
    last ≤ check ∧ check < last + 2 ^ 32 := by
  obtain ⟨hnow, -, hgap⟩ := hpaced
  obtain ⟨previous, hprevious, hrecent⟩ := h.recent
  have hlt := hgap previous hprevious
  have hpast := h.past
  omega

theorem timed_step (s : State) (e : Event) (h : Timed s) (hpaced : Paced s e) :
    Timed (step s e) := by
  cases e with
  | expect address =>
    rcases h with hnone | ⟨last, hlast⟩
    · exact Or.inl hnone
    · exact Or.inr ⟨last, hlast.stamp, hlast.past, hlast.recent⟩
  | update received check stamp =>
    -- the stamp stands for some instant of the round before `check`
    obtain ⟨last, hstamp, hpast, hspan⟩ :
        ∃ last, reading last = s.router.lastRepublishAtMilliseconds ∧ last ≤ check ∧
          check < last + 2 ^ 32 := by
      rcases h with ⟨-, -, hzero⟩ | ⟨last, hlast⟩
      · refine ⟨2 ^ 32 * (check / 2 ^ 32), ?_, by omega, by omega⟩
        rw [hzero]
        apply UInt32.toNat_inj.mp
        rw [toNat_reading]
        exact Nat.mul_mod_right _ _
      · exact ⟨last, hlast.stamp, hlast.span hpaced⟩
    rcases (update_cases received hstamp hpast hspan hpaced.2.1).2 with
      ⟨-, helapsed, -⟩ | ⟨-, helapsed, -⟩
    · exact Or.inr ⟨last, helapsed⟩
    · exact Or.inr ⟨stamp, helapsed⟩

/-! ### A client that joins at `t` -/

/-- What has been published since `old` mirrors the recorded positions, or it may not yet
but the next republish is due 30 seconds after `t` at the latest. -/
def Heard (old : List MqttMessage) (t : ℕ) (s : State) : Prop :=
  ∃ heard, s.published = old ++ heard ∧ OnlyKnown s.router.decoder.recorded heard ∧
    (Mirrors s.router.decoder.recorded heard ∨ ∃ last ≤ t, Elapsed s last)

theorem heard_join {s : State} (hmirror : Mirrored s) (htimed : Timed s) {t : ℕ}
    (ht : s.now ≤ t) : Heard s.published t s := by
  refine ⟨[], (List.append_nil _).symm, fun _ h => absurd h List.not_mem_nil, ?_⟩
  rcases htimed with ⟨-, hempty, -⟩ | ⟨last, hlast⟩
  · left
    rw [← hempty]
    exact hmirror
  · exact Or.inr ⟨last, le_trans hlast.past ht, hlast⟩

theorem heard_step {old : List MqttMessage} {t : ℕ} (s : State) (e : Event) (h : Heard old t s)
    (hpaced : Paced s e) : Heard old t (step s e) := by
  obtain ⟨heard, hpub, honly, hstate⟩ := h
  cases e with
  | expect address =>
    refine ⟨heard, hpub, honly, hstate.imp_right ?_⟩
    rintro ⟨last, hle, hlast⟩
    exact ⟨last, hle, hlast.stamp, hlast.past, hlast.recent⟩
  | update received check stamp =>
    rcases hstate with hmirror | ⟨last, hle, hlast⟩
    · have hnext := hmirror.update received (reading check) (reading stamp)
      refine ⟨_, ?_, hnext.only, Or.inl hnext⟩
      simp only [step, hpub, List.append_assoc]
    · obtain ⟨hpast, hspan⟩ := hlast.span hpaced
      obtain ⟨hdecoder, ⟨-, helapsed, hmore⟩ | ⟨-, helapsed, hmore⟩⟩ :=
        update_cases received hlast.stamp hpast hspan hpaced.2.1
      · refine ⟨heard ++ (s.router.drain received).2, ?_, ?_, Or.inr ⟨last, hle, helapsed⟩⟩
        · rw [hmore, hpub, List.append_assoc]
        · rw [hdecoder]
          exact honly.drain received
      · have hnext := (honly.drain received).republish
        rw [← hdecoder] at hnext
        refine ⟨_, ?_, hnext.only, Or.inl hnext⟩
        rw [hmore, hpub, hdecoder]
        simp only [List.append_assoc]

/-- An update at or after `t + 30000` completes the mirror. -/
theorem heard_complete {old : List MqttMessage} {t : ℕ} {s : State} (h : Heard old t s)
    {received : List LocoNetMessage} {check stamp : ℕ}
    (hpaced : Paced s (.update received check stamp)) (hcheck : t + 30000 ≤ check) :
    ∃ heard, (step s (.update received check stamp)).published = old ++ heard ∧
      Mirrors (step s (.update received check stamp)).router.decoder.recorded heard := by
  obtain ⟨heard, hpub, honly, hmirror | ⟨last, hle, hlast⟩⟩ := heard_step s _ h hpaced
  · exact ⟨heard, hpub, hmirror⟩
  · -- no republish since `t` would have left the stamp less than 30 seconds behind `check`
    obtain ⟨latest, hlatest, hrecent⟩ := hlast.recent
    have hsame : check = latest := Option.some.inj hlatest
    omega

theorem late_subscriber {past later : List Event} {t : ℕ} {received : List LocoNetMessage}
    {check stamp : ℕ}
    (hpaced : AtEachStep step Paced initial (past ++ later ++ [.update received check stamp]))
    (hjoin : (run step initial past).now ≤ t) (hcheck : t + 30000 ≤ check) :
    let final := run step initial (past ++ later ++ [.update received check stamp])
    ∃ heard, final.published = (run step initial past).published ++ heard ∧
      Mirrors final.router.decoder.recorded heard := by
  intro final
  rw [List.append_assoc] at hpaced
  obtain ⟨hpast, hafter⟩ := atEachStep_append.mp hpaced
  obtain ⟨hlater, hlast, -⟩ := atEachStep_append.mp hafter
  have htimed : Timed (run step initial past) :=
    run_invariant timed_step (Or.inl ⟨rfl, rfl, rfl⟩) hpast
  have hheard := run_invariant heard_step (heard_join (mirrored_run past) htimed hjoin) hlater
  have hfinal : final = step (run step (run step initial past) later)
      (.update received check stamp) := by
    simp only [final, run_append, run_cons, run_nil]
  rw [hfinal]
  exact heard_complete hheard hlast hcheck

/-- The topics in use are always the state topics of the known addresses, with the recorded
position last on each; and for whoever joins at `t` the same is true of the messages since
then, by the end of an update at or after `t + 30000`. -/
theorem mirror_for_late_subscribers :
    (∀ events : List Event,
      let s := run step initial events
      (∀ topic, (∃ message ∈ s.published, message.topic = topic) ↔
          ∃ a, s.router.decoder.recorded a ≠ none ∧ topic = stateTopic a) ∧
        ∀ a, latest (payloads s.published) (stateTopic a) =
          (s.router.decoder.recorded a).map payloadOf) ∧
      ∀ (past later : List Event) (t : ℕ) (received : List LocoNetMessage) (check stamp : ℕ),
        AtEachStep step Paced initial (past ++ later ++ [.update received check stamp]) →
        (run step initial past).now ≤ t → t + 30000 ≤ check →
        let s := run step initial (past ++ later ++ [.update received check stamp])
        ∃ heard, s.published = (run step initial past).published ++ heard ∧
          ∀ a, latest (payloads heard) (stateTopic a) =
            (s.router.decoder.recorded a).map payloadOf := by
  constructor
  · intro events s
    have hmirror : Mirrored s := mirrored_run events
    exact ⟨hmirror.topic_iff, hmirror.latest_eq⟩
  · intro past later t received check stamp hpaced hjoin hcheck s
    obtain ⟨heard, hpub, hmirror⟩ := late_subscriber hpaced hjoin hcheck
    exact ⟨heard, hpub, hmirror.latest_eq⟩

/-- A change of turnout 1 at start-up, and a client that joins a minute later. -/
theorem mirror_for_late_subscribers_example :
    let past := [Event.update [checksummed kOpcSwReq 0x00 0x30] 5 5]
    let final := Event.update [] 90000 90001
    ∃ heard, (run step initial (past ++ [] ++ [final])).published =
        (run step initial past).published ++ heard ∧
      ∀ a, latest (payloads heard) (stateTopic a) =
        ((run step initial (past ++ [] ++ [final])).router.decoder.recorded a).map payloadOf := by
  refine mirror_for_late_subscribers.2 _ [] 60000 [] 90000 90001 ?_ ?_ (by omega)
  · refine ⟨⟨Nat.zero_le _, le_refl _, fun _ h => absurd h (by simp [initial])⟩,
      ⟨?_, by omega, fun previous h => ?_⟩, trivial⟩
    · simp only [step]
      omega
    · have hprevious : 5 = previous := Option.some.inj h
      omega
  · simp [step]

end Loco2Mqtt.StateMirror
