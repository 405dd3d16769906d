import Loco2Mqtt.Adapters.Commissioning
import Loco2Mqtt.Foundations.Runs

/-! The device over its boots. The serial path may save an incomplete configuration, but it
is only open when a boot found the stored one incomplete, and once it has saved a complete
one its pending fields never become empty again. The web path saves complete configurations
only. So a commissioned device stays commissioned. -/

namespace Loco2Mqtt.Lifecycle

open CommissioningSession Runs

inductive Event where
  | boot
  | serialLine (line : Text)
  | webSubmission (ssid password jmriHost jmriPort : Text)
  | buttonTrigger
  | crash

/-- `mode` is the mode of the latest boot, and `none` while the device is down. Since that
boot, `requested` tells whether `request()` was called and `submitted` whether a web
submission was accepted. -/
structure State where
  preferences : Preferences
  mode : Option BootMode
  session : CommissioningSession
  requested : Bool
  submitted : Bool

/-- A device that is down. A request that is still pending counts as made. -/
def start (preferences : Preferences) : State :=
  ⟨preferences, none, CommissioningSession.initial, preferences.setup_req, false⟩

def setup (s : State) : State :=
  let config := NvsConfigStore.load s.preferences
  let (setupModeRequested, preferences) :=
    NvsSetupModeRequestStore.consumeIfRequested s.preferences
  ⟨preferences, some (selectBootMode config setupModeRequested), CommissioningSession.initial,
    false, false⟩

/-- Each mode handles its own events. An exception brings the device down. -/
def step (s : State) : Event → State
  | .boot => setup s
  | .serialLine line =>
    if s.mode = some .needsCommissioning then
      match SerialCommissioningAdapter.update NvsConfigStore s.preferences s.session line with
      | .error _ => { s with mode := none }
      | .ok (_, session, preferences) => { s with session, preferences }
    else s
  | .webSubmission ssid password jmriHost jmriPort =>
    if s.mode = some .wirelessSetup then
      match CaptivePortalServer.handleSubmit NvsConfigStore s.preferences ssid password jmriHost
        jmriPort with
      | .error _ => { s with mode := none }
      | .ok (_, preferences, true) => { s with preferences, mode := none, submitted := true }
      | .ok (_, preferences, false) => { s with preferences }
    else s
  | .buttonTrigger =>
    if s.mode = some .normal ∨ s.mode = some .needsCommissioning then
      { s with
        preferences := NvsSetupModeRequestStore.request s.preferences
        mode := none
        requested := true }
    else s
  | .crash => { s with mode := none }

def Commissioned (s : State) : Prop := (NvsConfigStore.load s.preferences).isComplete

/-- The mode that a boot now would select. -/
def bootMode (s : State) : Option BootMode := (step s .boot).mode

theorem bootMode_eq (s : State) :
    bootMode s =
      some (selectBootMode (NvsConfigStore.load s.preferences) s.preferences.setup_req) := rfl

/-! ### What the events can do -/

/-- What can become of a state. An event that is not for the mode, or is refused, changes
nothing; an exception and a crash leave the device down. -/
inductive Effect (s : State) : Event → State → Prop
  | unchanged (e : Event) : Effect s e s
  | down (e : Event) : Effect s e { s with mode := none }
  | boot : Effect s .boot (setup s)
  | command {line : Text} {command : ParsedCommand} (hmode : s.mode = some .needsCommissioning)
      (hparse : SerialCommissioningAdapter.parseLine line = .ok command) :
      Effect s (.serialLine line) { s with
        session := ⟨accept s.session.pending command⟩
        preferences := if command.type = .save then
          NvsConfigStore.save s.preferences s.session.pending else s.preferences }
  | submission {ssid password jmriHost jmriPort : Text} {config : LocoNetAdapterConfig}
      (hmode : s.mode = some .wirelessSetup) (hcomplete : config.isComplete)
      (hnul : config.NulFree) :
      Effect s (.webSubmission ssid password jmriHost jmriPort) { s with
        preferences := NvsConfigStore.save s.preferences config
        mode := none
        submitted := true }
  | request (hmode : s.mode.isSome) :
      Effect s .buttonTrigger { s with
        preferences := NvsSetupModeRequestStore.request s.preferences
        mode := none
        requested := true }

theorem step_serialLine (s : State) (line : Text) :
    Effect s (.serialLine line) (step s (.serialLine line)) := by
  simp only [step]
  split_ifs with hmode
  · rcases SerialCommissioningAdapter.update_cases NvsConfigStore s.preferences s.session line with
      ⟨error, -, hupdate⟩ | ⟨command, reply, hparse, hupdate⟩
    · rw [hupdate]
      exact .down _
    · rw [hupdate]
      exact .command hmode hparse
  · exact .unchanged _

theorem step_webSubmission (s : State) (ssid password jmriHost jmriPort : Text) :
    Effect s (.webSubmission ssid password jmriHost jmriPort)
      (step s (.webSubmission ssid password jmriHost jmriPort)) := by
  simp only [step]
  split_ifs with hmode
  · rcases CaptivePortalServer.handleSubmit_cases NvsConfigStore s.preferences ssid password
      jmriHost jmriPort with ⟨error, h⟩ | ⟨page, h⟩ | ⟨page, config, hcomplete, hnul, h⟩
    · rw [h]
      exact .down _
    · rw [h]
      exact .unchanged _
    · rw [h]
      exact .submission hmode hcomplete hnul
  · exact .unchanged _

theorem step_effect (s : State) (e : Event) : Effect s e (step s e) := by
  cases e with
  | boot => exact .boot
  | serialLine line => exact step_serialLine s line
  | webSubmission ssid password jmriHost jmriPort =>
    exact step_webSubmission s ssid password jmriHost jmriPort
  | buttonTrigger =>
    simp only [step]
    split_ifs with hmode
    · apply Effect.request
      rcases hmode with hmode | hmode <;> rw [hmode] <;> rfl
    · exact .unchanged _
  | crash => exact .down _

/-! ### The invariant -/

/-- While the console is open, the stored configuration is complete only if the pending one
is. The flag in the flash is the request, which is never pending while the device is up or
after an accepted submission. -/
structure Sound (s : State) : Prop where
  pending : s.mode = some .needsCommissioning → Commissioned s → s.session.pending.isComplete
  flag : s.preferences.setup_req = s.requested
  consumed : s.mode.isSome → s.requested = false
  submitted : s.submitted → s.mode = none ∧ s.requested = false ∧ Commissioned s

theorem sound_start (preferences : Preferences) : Sound (start preferences) where
  pending := fun h => nomatch h
  flag := rfl
  consumed := fun h => nomatch h
  submitted := fun h => nomatch h

theorem sound_setup (s : State) : Sound (setup s) where
  pending := by
    intro hmode hcommissioned
    have hselected := selectBootMode_eq_needsCommissioning_iff.mp (Option.some.inj hmode)
    exact absurd hcommissioned hselected.2
  flag := rfl
  consumed := fun _ => rfl
  submitted := fun h => nomatch h

/-- What is loaded after a save is complete only if what was saved is. -/
theorem isComplete_of_load_save {preferences : Preferences} {config : LocoNetAdapterConfig}
    (h : (NvsConfigStore.load (NvsConfigStore.save preferences config)).isComplete) :
    config.isComplete := by
  rw [NvsConfigStore.load_save, LocoNetAdapterConfig.isComplete_iff] at h
  obtain ⟨hssid, hpassword, hhost, hport⟩ := h
  exact LocoNetAdapterConfig.isComplete_iff.mpr ⟨ne_nil_of_cStr_ne_nil hssid,
    ne_nil_of_cStr_ne_nil hpassword, ne_nil_of_cStr_ne_nil hhost, hport⟩

theorem Sound.of_effect {s s' : State} {e : Event} (h : Sound s) (heffect : Effect s e s') :
    Sound s' := by
  cases heffect with
  | unchanged => exact h
  | down => exact ⟨fun hmode => (nomatch hmode), h.flag, fun hmode => (nomatch hmode),
      fun hsubmitted => ⟨rfl, (h.submitted hsubmitted).2⟩⟩
  | boot => exact sound_setup s
  | @command line command hmode hparse =>
    have hacceptable := (SerialCommissioningAdapter.parseLine_spec hparse).1
    refine ⟨fun _ hcommissioned => accept_isComplete hacceptable ?_, ?_, h.consumed,
      fun hsubmitted => ?_⟩
    · -- the pending configuration was just saved, or nothing was
      unfold Commissioned at hcommissioned
      split_ifs at hcommissioned
      · exact isComplete_of_load_save hcommissioned
      · exact h.pending hmode hcommissioned
    · rw [← h.flag]
      split_ifs <;> rfl
    · rw [(h.submitted hsubmitted).1] at hmode
      cases hmode
  | submission hmode hcomplete hnul =>
    have hup : s.mode.isSome := by rw [hmode]; rfl
    refine ⟨fun hdown => (nomatch hdown), h.flag, fun hdown => (nomatch hdown), fun _ => ?_⟩
    refine ⟨rfl, h.consumed hup, ?_⟩
    simp only [Commissioned, NvsConfigStore.load_save_of_nulFree _ hnul, hcomplete]
  | request hmode =>
    refine ⟨fun hdown => (nomatch hdown), rfl, fun hdown => (nomatch hdown), fun hsubmitted => ?_⟩
    rw [(h.submitted hsubmitted).1] at hmode
    cases hmode

theorem sound_step (s : State) (e : Event) (h : Sound s) : Sound (step s e) :=
  h.of_effect (step_effect s e)

/-! ### Commissioned for good -/

/-- No NUL is typed at the console, where `save` would cut the value. -/
def NulFree : Event → Prop
  | .serialLine line => '\x00' ∉ line
  | _ => True

instance : DecidablePred NulFree
  | .serialLine line => inferInstanceAs (Decidable ('\x00' ∉ line))
  | .boot | .webSubmission .. | .buttonTrigger | .crash => isTrue trivial

/-- Nor is there one among the values collected. -/
def Clean (s : State) : Prop := s.session.pending.NulFree

theorem clean_initial : CommissioningSession.initial.pending.NulFree :=
  ⟨List.not_mem_nil, List.not_mem_nil, List.not_mem_nil⟩

theorem Clean.of_effect {s s' : State} {e : Event} (h : Clean s) (hnul : NulFree e)
    (heffect : Effect s e s') : Clean s' := by
  cases heffect with
  | boot => exact clean_initial
  | command hmode hparse =>
    have hvalue := (SerialCommissioningAdapter.parseLine_spec hparse).2
    exact accept_nulFree (fun hmem => hnul (hvalue _ hmem)) h
  | unchanged | down | submission | request => exact h

theorem clean_step (s : State) (e : Event) (h : Clean s) (hnul : NulFree e) :
    Clean (step s e) :=
  h.of_effect hnul (step_effect s e)

theorem Commissioned.of_effect {s s' : State} {e : Event} (h : Commissioned s) (hsound : Sound s)
    (hclean : Clean s) (heffect : Effect s e s') : Commissioned s' := by
  cases heffect with
  | command hmode hparse =>
    unfold Commissioned
    split_ifs
    · rw [NvsConfigStore.load_save_of_nulFree _ hclean]
      exact hsound.pending hmode h
    · exact h
  | submission hmode hcomplete hnul =>
    simp only [Commissioned, NvsConfigStore.load_save_of_nulFree _ hnul, hcomplete]
  | unchanged | down | boot | request => exact h

/-- What the next boot selects. -/
theorem bootMode_spec {s : State} (h : Sound s) :
    (bootMode s = some .wirelessSetup ↔ s.requested) ∧
      (Commissioned s → bootMode s ≠ some .needsCommissioning) ∧
      (s.submitted → bootMode s = some .normal) := by
  rw [bootMode_eq, h.flag]
  refine ⟨?_, ?_, ?_⟩
  · rw [Option.some.injEq]
    exact selectBootMode_eq_wirelessSetup_iff
  · intro hcommissioned hneeds
    exact (selectBootMode_eq_needsCommissioning_iff.mp (Option.some.inj hneeds)).2 hcommissioned
  · intro hsubmitted
    obtain ⟨-, hrequested, hcommissioned⟩ := h.submitted hsubmitted
    unfold Commissioned at hcommissioned
    simp [selectBootMode, hrequested, hcommissioned]

/-- Once the stored configuration is complete it is so after every further event, and no
boot needs commissioning. A boot sets up wirelessly if and only if that was requested since
the previous one, and boots normally after an accepted submission. -/
theorem stays_commissioned (preferences : Preferences) (earlier later : List Event)
    (hnul : ∀ e ∈ earlier ++ later, NulFree e) :
    let s := run step (start preferences) earlier
    let s' := run step (start preferences) (earlier ++ later)
    (Commissioned s → Commissioned s' ∧ bootMode s' ≠ some .needsCommissioning) ∧
      (bootMode s' = some .wirelessSetup ↔ s'.requested) ∧
      (s'.submitted → bootMode s' = some .normal) := by
  intro s s'
  have hsound : Sound s' := run_invariant_of_step sound_step (sound_start preferences) _
  obtain ⟨hwireless, hneeds, hnormal⟩ := bootMode_spec hsound
  refine ⟨fun hs => ?_, hwireless, hnormal⟩
  have hnul' : AtEachStep step (fun _ e => NulFree e) (start preferences) (earlier ++ later) :=
    atEachStep_of_forall (fun _ => hnul) _
  obtain ⟨hearlier, hlater⟩ := atEachStep_append.mp hnul'
  have hsound_s : Sound s := run_invariant_of_step sound_step (sound_start preferences) _
  have hclean_s : Clean s := run_invariant clean_step clean_initial hearlier
  have hkept : Sound s' ∧ Clean s' ∧ Commissioned s' := by
    rw [show s' = run step s later from run_append step _ _ _]
    refine run_invariant (I := fun s => Sound s ∧ Clean s ∧ Commissioned s)
      (fun s e h he => ?_) ⟨hsound_s, hclean_s, hs⟩ hlater
    exact ⟨sound_step s e h.1, clean_step s e h.2.1 he, h.2.2.of_effect h.1 h.2.1 (step_effect s e)⟩
  exact ⟨hkept.2.2, hneeds hkept.2.2⟩

/-- A board is commissioned at the bench, asked for wireless setup, and sent a form. -/
def atTheBench : List Event :=
  [.boot, .serialLine "set-ssid home".toList, .serialLine "set-password secret".toList,
    .serialLine "set-jmri-host 192.168.1.13".toList, .serialLine "set-jmri-port 1234".toList,
    .serialLine "save".toList]

def onTheLayout : List Event :=
  [.boot, .buttonTrigger, .boot,
    .webSubmission "shed".toList "secret".toList "192.168.1.14".toList "1234".toList]

theorem stays_commissioned_onTheLayout :
    Commissioned (run step (start {}) (atTheBench ++ onTheLayout)) ∧
      bootMode (run step (start {}) (atTheBench ++ onTheLayout)) = some .normal := by
  have hnul : ∀ e ∈ atTheBench ++ onTheLayout, NulFree e := by
    decide
  obtain ⟨hkept, -, hnormal⟩ := stays_commissioned {} atTheBench onTheLayout hnul
  exact ⟨(hkept (by unfold Commissioned; decide)).1, hnormal (by decide)⟩

end Loco2Mqtt.Lifecycle
