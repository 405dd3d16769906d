import Loco2Mqtt.Commissioning.FrontDoors

/-! Nothing that either front door shows depends on the password. Two console sessions whose
lines differ only in the passwords they set get the same replies, since the sessions they keep
are alike in everything that a reply is made from, and the setup page is the same for two
stored configurations that differ only in the password. -/

namespace Loco2Mqtt.PasswordSecrecy

open SerialCommissioningAdapter CommissioningSession FrontDoors Transcripts

universe u

variable {σ : Type u} (store : ConfigStore σ)

/-- The configurations differ in the password at most, and both have one or neither has. -/
structure Alike (config other : LocoNetAdapterConfig) : Prop where
  wifiSsid : config.wifiSsid = other.wifiSsid
  passwordSet : config.wifiPassword = [] ↔ other.wifiPassword = []
  jmriHost : config.jmriHost = other.jmriHost
  jmriPort : config.jmriPort = other.jmriPort

/-- The lines are the same, or both set a password and fit the console's limit. -/
def SameButPassword (line other : Text) : Prop :=
  line = other ∨ ∃ password password', password ≠ [] ∧ password' ≠ [] ∧
    line = setLine "set-password" password ∧ other = setLine "set-password" password' ∧
      line.length ≤ kMaxLineLength ∧ other.length ≤ kMaxLineLength

/-- The states of two sessions, with whatever their stores hold. -/
def Indistinguishable (s t : CommissioningSession × σ) : Prop := Alike s.1.pending t.1.pending

theorem applyShow_alike {session other : CommissioningSession}
    (h : Alike session.pending other.pending) : session.applyShow = other.applyShow := by
  unfold applyShow
  rw [h.wifiSsid, h.jmriHost, h.jmriPort]
  by_cases hunset : session.pending.wifiPassword = []
  · rw [if_pos hunset, if_pos (h.passwordSet.mp hunset)]
  · rw [if_neg hunset, if_neg (fun h' => hunset (h.passwordSet.mpr h'))]

/-- One command, whatever it is, is answered alike. -/
theorem apply_lockstep (command : ParsedCommand) {s t : CommissioningSession × σ}
    (h : Indistinguishable s t) :
    Lockstep Indistinguishable (apply store s.2 s.1 command) (apply store t.2 t.1 command) := by
  obtain ⟨type, value⟩ := command
  cases type with
  | setSsid => exact ⟨rfl, rfl, h.passwordSet, h.jmriHost, h.jmriPort⟩
  | setPassword => exact ⟨rfl, h.wifiSsid, Iff.rfl, h.jmriHost, h.jmriPort⟩
  | setJmriHost => exact ⟨rfl, h.wifiSsid, h.passwordSet, rfl, h.jmriPort⟩
  | setJmriPort =>
    simp only [apply, applySetJmriPort]
    cases stoul value with
    | error error => exact rfl
    | ok port => exact ⟨rfl, h.wifiSsid, h.passwordSet, h.jmriHost, rfl⟩
  | «show» => exact ⟨applyShow_alike h, h⟩
  | save => exact ⟨rfl, h⟩
  | unknown => exact ⟨rfl, h⟩

/-- Two lines that differ in a password at most are answered alike. -/
theorem update_lockstep {s t : CommissioningSession × σ} {line other : Text}
    (h : Indistinguishable s t) (hlines : SameButPassword line other) :
    Lockstep Indistinguishable (update store s.2 s.1 line) (update store t.2 t.1 other) := by
  rcases hlines with rfl | ⟨password, password', hne, hne', rfl, rfl, hfit, hfit'⟩
  · unfold update
    cases parseLine line with
    | error error => exact rfl
    | ok command => exact apply_lockstep store command h
  · simp only [update, parseLine_setPassword hne hfit, parseLine_setPassword hne' hfit']
    exact ⟨rfl, h.wifiSsid, iff_of_false hne hne', h.jmriHost, h.jmriPort⟩

/-- The replies to two sequences of lines that differ only in the passwords set are the same,
whatever the stores hold, and so are the setup pages for two stored configurations that differ
only in the password. -/
theorem password_never_shown (lines others : List Text)
    (hlines : List.Forall₂ SameButPassword lines others) (stored other : σ) :
    (serve store stored CommissioningSession.initial lines).1 =
        (serve store other CommissioningSession.initial others).1 ∧
      ((store.load stored).withWifiPassword [] = (store.load other).withWifiPassword [] →
        WebFormCommissioningAdapter.renderPage store stored =
          WebFormCommissioningAdapter.renderPage store other) := by
  constructor
  · refine answers_eq_of_lockstep (Q := SameButPassword)
      (fun s t line other hst hline => update_lockstep store hst hline) ?_ hlines
    exact ⟨rfl, Iff.rfl, rfl, rfl⟩
  · intro hpassword
    obtain ⟨hssid, -, hhost, hport⟩ := LocoNetAdapterConfig.mk.inj hpassword
    unfold WebFormCommissioningAdapter.renderPage SetupFormRenderer.renderSetupForm
      SetupFormRenderer.jmriPortFieldValue
    rw [hssid, hhost, hport]

theorem password_never_shown_hunter2 :
    (serve NvsConfigStore {} CommissioningSession.initial
        ["help".toList, setLine "set-password" "hunter2".toList, "show".toList]).1 =
      (serve NvsConfigStore {} CommissioningSession.initial
        ["help".toList, setLine "set-password" "correct horse".toList, "show".toList]).1 ∧
      WebFormCommissioningAdapter.renderPage NvsConfigStore
          { ssid := "home".toList, password := "hunter2".toList } =
        WebFormCommissioningAdapter.renderPage NvsConfigStore { ssid := "home".toList } := by
  have hlines : List.Forall₂ SameButPassword
      ["help".toList, setLine "set-password" "hunter2".toList, "show".toList]
      ["help".toList, setLine "set-password" "correct horse".toList, "show".toList] :=
    .cons (Or.inl rfl) (.cons (Or.inr ⟨_, _, by decide, by decide, rfl, rfl, by decide, by decide⟩)
      (.cons (Or.inl rfl) .nil))
  exact ⟨(password_never_shown NvsConfigStore _ _ hlines {} {}).1,
    (password_never_shown NvsConfigStore _ _ hlines
      { ssid := "home".toList, password := "hunter2".toList } { ssid := "home".toList }).2 rfl⟩

end Loco2Mqtt.PasswordSecrecy
