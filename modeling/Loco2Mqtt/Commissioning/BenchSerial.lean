import Loco2Mqtt.Adapters.Commissioning
import Loco2Mqtt.Foundations.Runs

/-! Settings and the bench console. The session starts from an empty configuration instead
of the stored one, so a save writes the default over every field that no command of this
session has set. Stored settings survive exactly when there was nothing in those fields. -/

namespace Loco2Mqtt.BenchSerial

open CommissioningSession SerialCommissioningAdapter Runs

/-- `handled` are the commands carried out since the boot. An exception ends the session. -/
structure State where
  session : CommissioningSession
  preferences : Preferences
  handled : List ParsedCommand
  crashed : Bool
  deriving DecidableEq

def boot (preferences : Preferences) : State :=
  ⟨CommissioningSession.initial, preferences, [], false⟩

/-- The console handles a line. -/
def step (s : State) (line : Text) : State :=
  if s.crashed then s
  else
    match update NvsConfigStore s.preferences s.session line with
    | .error _ => { s with crashed := true }
    | .ok (_, session, preferences) =>
      ⟨session, preferences, s.handled ++ (parseLine line).toOption.toList, false⟩

/-- The line is a save command that is applied. -/
def Saves (s : State) (line : Text) : Prop :=
  s.crashed = false ∧ ∃ command, parseLine line = .ok command ∧ command.type = .save

/-! ### The settings that are due -/

/-- The last value that a set command of this type brought. -/
def lastAccepted (type : CommandType) (handled : List ParsedCommand) : Option Text :=
  (handled.filter (fun command => command.type = type)).getLast?.map ParsedCommand.value

/-- Each field's last accepted value if there is one, and its stored value otherwise. -/
def expected (stored : LocoNetAdapterConfig) (handled : List ParsedCommand) :
    LocoNetAdapterConfig where
  wifiSsid := (lastAccepted .setSsid handled).getD stored.wifiSsid
  wifiPassword := (lastAccepted .setPassword handled).getD stored.wifiPassword
  jmriHost := (lastAccepted .setJmriHost handled).getD stored.jmriHost
  jmriPort := ((lastAccepted .setJmriPort handled).map
    (fun value => UInt16.ofNat (Decimal.value value))).getD stored.jmriPort

/-- A save leaves the settings that are due in the store. -/
def KeepsSettings (stored : LocoNetAdapterConfig) (s : State) (line : Text) : Prop :=
  Saves s line → NvsConfigStore.load (step s line).preferences = expected stored s.handled

/-- A value was accepted, without NUL, or nothing was stored. -/
def Covered (accepted : Option Text) (stored : Text) : Prop :=
  match accepted with
  | some value => '\x00' ∉ value
  | none => stored = []

/-- A save finds every field covered. -/
def NothingToLose (stored : LocoNetAdapterConfig) (s : State) (line : Text) : Prop :=
  Saves s line →
    Covered (lastAccepted .setSsid s.handled) stored.wifiSsid ∧
      Covered (lastAccepted .setPassword s.handled) stored.wifiPassword ∧
      Covered (lastAccepted .setJmriHost s.handled) stored.jmriHost ∧
      (lastAccepted .setJmriPort s.handled = none → stored.jmriPort = 0)

theorem lastAccepted_concat (type : CommandType) (handled : List ParsedCommand)
    (command : ParsedCommand) :
    lastAccepted type (handled ++ [command]) =
      if command.type = type then some command.value else lastAccepted type handled := by
  unfold lastAccepted
  rw [List.filter_append]
  by_cases h : command.type = type
  · simp [h]
  · simp [h]

/-- A command changes what is due as it changes the pending configuration. -/
theorem expected_concat (stored : LocoNetAdapterConfig) (handled : List ParsedCommand)
    (command : ParsedCommand) :
    expected stored (handled ++ [command]) = accept (expected stored handled) command := by
  rcases command with ⟨type, value⟩
  simp only [expected, lastAccepted_concat]
  cases type <;> rfl

/-! ### What a save writes -/

/-- A line changes nothing that counts, or its command is carried out. -/
theorem step_cases (s : State) (line : Text) :
    ((s.crashed = true ∨ ∃ error, parseLine line = .error error) ∧
      step s line = { s with crashed := true }) ∨
    ∃ command, s.crashed = false ∧ parseLine line = .ok command ∧ step s line =
      ⟨⟨accept s.session.pending command⟩,
        if command.type = .save then NvsConfigStore.save s.preferences s.session.pending
          else s.preferences, s.handled ++ [command], false⟩ := by
  unfold step
  rcases hcrashed : s.crashed with _ | _
  · rcases update_cases NvsConfigStore s.preferences s.session line with
      ⟨error, hparse, hupdate⟩ | ⟨command, reply, hparse, hupdate⟩
    · refine Or.inl ⟨Or.inr ⟨error, hparse⟩, ?_⟩
      simp [hupdate]
    · refine Or.inr ⟨command, rfl, hparse, ?_⟩
      simp [hupdate, hparse, Except.toOption]
  · refine Or.inl ⟨Or.inl rfl, ?_⟩
    rw [if_pos rfl, ← hcrashed]

/-- The session has collected exactly the accepted values. -/
def Collected (s : State) : Prop := s.session.pending = expected {} s.handled

theorem collected_boot (preferences : Preferences) : Collected (boot preferences) := rfl

theorem collected_step (s : State) (line : Text) (h : Collected s) : Collected (step s line) := by
  rcases step_cases s line with ⟨-, hstep⟩ | ⟨command, -, -, hstep⟩
  · rw [hstep]
    exact h
  · rw [hstep]
    unfold Collected at h ⊢
    rw [expected_concat, ← h]

/-- What is in the store after a save. -/
theorem load_after_save {s : State} {line : Text} (h : Collected s) (hsaves : Saves s line) :
    let due := expected {} s.handled
    NvsConfigStore.load (step s line).preferences =
      ⟨cStr due.wifiSsid, cStr due.wifiPassword, cStr due.jmriHost, due.jmriPort⟩ := by
  obtain ⟨hrunning, save, hparse, hsave⟩ := hsaves
  rcases step_cases s line with ⟨hcrashed | ⟨error, herror⟩, -⟩ | ⟨command, -, hok, hstep⟩
  · rw [hrunning] at hcrashed
    cases hcrashed
  · rw [hparse] at herror
    cases herror
  · obtain rfl := Except.ok.inj (hparse.symm.trans hok)
    unfold Collected at h
    simp only [hstep, if_pos hsave, NvsConfigStore.load_save, h]

theorem cStr_getD_eq_iff (accepted : Option Text) (stored : Text) :
    cStr (accepted.getD []) = accepted.getD stored ↔ Covered accepted stored := by
  cases accepted with
  | none => exact eq_comm
  | some value => exact cStr_eq_self_iff

theorem port_getD_eq_iff (accepted : Option Text) (port : Text → UInt16) (stored : UInt16) :
    (accepted.map port).getD 0 = (accepted.map port).getD stored ↔
      (accepted = none → stored = 0) := by
  cases accepted with
  | none => simp [eq_comm]
  | some value => simp

theorem keepsSettings_iff (stored : LocoNetAdapterConfig) {s : State} {line : Text}
    (h : Collected s) : KeepsSettings stored s line ↔ NothingToLose stored s line := by
  unfold KeepsSettings NothingToLose
  refine forall_congr' fun hsaves => ?_
  rw [load_after_save h hsaves, expected, expected, LocoNetAdapterConfig.mk.injEq,
    cStr_getD_eq_iff, cStr_getD_eq_iff, cStr_getD_eq_iff, port_getD_eq_iff]

/-- In a run of the console from any store, every save keeps the settings if and only if
every save finds each field covered. -/
theorem saves_keep_settings_iff (preferences : Preferences) (lines : List Text) :
    let stored := NvsConfigStore.load preferences
    AtEachStep step (KeepsSettings stored) (boot preferences) lines ↔
      AtEachStep step (NothingToLose stored) (boot preferences) lines :=
  atEachStep_iff_of_step collected_step (fun _ _ h => keepsSettings_iff _ h)
    (collected_boot preferences) lines

/-! ### A board from before the JMRI fields -/

def wifiOnly : Preferences := { ssid := "home".toList, password := "secret".toList }

def addJmriFields : List Text :=
  ["set-jmri-host 192.168.1.13".toList, "set-jmri-port 1234".toList, "save".toList]

/-- Its WiFi credentials are gone after the save that adds them. -/
theorem wifi_credentials_lost :
    ¬ AtEachStep step (KeepsSettings (NvsConfigStore.load wifiOnly)) (boot wifiOnly)
      addJmriFields := by
  rintro ⟨-, -, hkeeps, -⟩
  have hsaved := hkeeps ⟨by decide, ⟨.save, []⟩, by decide, rfl⟩
  exact absurd (congrArg LocoNetAdapterConfig.wifiSsid hsaved) (by decide)

end Loco2Mqtt.BenchSerial
