import Loco2Mqtt.Adapters.Commissioning

/-! The two front doors side by side. The same four values are entered at the console of a
board that has just started and in its setup form. Both end with the same configuration, or the
form refuses what the console leaves incomplete. Neither reads the store first, so it may be
empty or not. -/

namespace Loco2Mqtt.FrontDoors

open SerialCommissioningAdapter WebFormCommissioningAdapter

/-! ### The console session -/

/-- A set command as it is typed. -/
def setLine (verb : String) (argument : Text) : Text := verb.toList ++ ' ' :: argument

def setLines (ssid password jmriHost jmriPort : Text) : List Text :=
  [setLine "set-ssid" ssid, setLine "set-password" password, setLine "set-jmri-host" jmriHost,
    setLine "set-jmri-port" jmriPort]

/-- The bytes of the whole session. -/
def consoleInput (ssid password jmriHost jmriPort : Text) : Text :=
  (setLines ssid password jmriHost jmriPort ++ ["save".toList]).flatMap (· ++ ['\n'])

/-- Neither a line end nor a NUL is in the text. -/
def Plain (text : Text) : Prop := '\n' ∉ text ∧ '\r' ∉ text ∧ '\x00' ∉ text

instance (text : Text) : Decidable (Plain text) :=
  inferInstanceAs (Decidable ('\n' ∉ text ∧ '\r' ∉ text ∧ '\x00' ∉ text))

/-- The form saves a configuration and the device reboots. -/
def SavesAndReboots (preferences : Preferences) (ssid password jmriHost jmriPort : Text) : Prop :=
  ∃ config, handleSubmission NvsConfigStore preferences ssid password jmriHost jmriPort =
    .ok (NvsConfigStore.save preferences config, true)

theorem readLines_consoleInput {ssid password jmriHost jmriPort : Text} (hssid : Plain ssid)
    (hpassword : Plain password) (hhost : Plain jmriHost) (hport : Plain jmriPort)
    (hfit : ∀ line ∈ setLines ssid password jmriHost jmriPort, line.length ≤ kMaxLineLength) :
    EspUartPort.readLines EspUartPort.initial (consoleInput ssid password jmriHost jmriPort) =
      setLines ssid password jmriHost jmriPort ++ ["save".toList] := by
  have hset : ∀ {verb : String} {argument : Text}, '\n' ∉ verb.toList ∧ '\r' ∉ verb.toList →
      Plain argument → '\n' ∉ setLine verb argument ∧ '\r' ∉ setLine verb argument := by
    intro verb argument hverb hargument
    simp only [setLine, List.mem_append, List.mem_cons, not_or]
    exact ⟨⟨hverb.1, by decide, hargument.1⟩, ⟨hverb.2, by decide, hargument.2.1⟩⟩
  apply EspUartPort.readLines_bodies
  · intro body hbody
    simp only [setLines, List.cons_append, List.nil_append, List.mem_cons, List.not_mem_nil,
      or_false] at hbody
    rcases hbody with rfl | rfl | rfl | rfl | rfl
    · exact hset (by decide) hssid
    · exact hset (by decide) hpassword
    · exact hset (by decide) hhost
    · exact hset (by decide) hport
    · decide
  · intro body hbody
    rcases List.mem_append.mp hbody with hbody | hbody
    · exact le_trans (hfit body hbody) (by decide)
    · rw [List.mem_singleton.mp hbody]
      decide

/-! ### What the console does -/

section Console

variable {argument : Text}

theorem parseLine_setLine {verb : String} (hverb : ' ' ∉ verb.toList)
    (hfit : (setLine verb argument).length ≤ kMaxLineLength) :
    parseLine (setLine verb argument) =
      if verb.toList = "set-ssid".toList ∧ argument ≠ [] then .ok ⟨.setSsid, argument⟩
      else if verb.toList = "set-password".toList ∧ argument ≠ [] then .ok ⟨.setPassword, argument⟩
      else if verb.toList = "set-jmri-host".toList ∧ argument ≠ [] then .ok ⟨.setJmriHost, argument⟩
      else if verb.toList = "set-jmri-port".toList then
        (parseNetworkPort argument).map fun port =>
          if port.isSome then ⟨.setJmriPort, argument⟩ else ⟨.unknown, setLine verb argument⟩
      else if verb.toList = "show".toList ∧ argument = [] then .ok ⟨.show, []⟩
      else if verb.toList = "save".toList ∧ argument = [] then .ok ⟨.save, []⟩
      else .ok ⟨.unknown, setLine verb argument⟩ := by
  have hparse : parseLine (setLine verb argument) = parseCommandLine (setLine verb argument) :=
    if_neg (Nat.not_lt.mpr hfit)
  rw [hparse, parseCommandLine, setLine, verbOf_append hverb, argumentOf_append hverb]

theorem parseLine_setSsid (hne : argument ≠ [])
    (hfit : (setLine "set-ssid" argument).length ≤ kMaxLineLength) :
    parseLine (setLine "set-ssid" argument) = .ok ⟨.setSsid, argument⟩ := by
  rw [parseLine_setLine (by decide) hfit, if_pos ⟨rfl, hne⟩]

theorem parseLine_setPassword (hne : argument ≠ [])
    (hfit : (setLine "set-password" argument).length ≤ kMaxLineLength) :
    parseLine (setLine "set-password" argument) = .ok ⟨.setPassword, argument⟩ := by
  rw [parseLine_setLine (by decide) hfit, if_neg (fun h => absurd h.1 (by decide)),
    if_pos ⟨rfl, hne⟩]

theorem parseLine_setJmriHost (hne : argument ≠ [])
    (hfit : (setLine "set-jmri-host" argument).length ≤ kMaxLineLength) :
    parseLine (setLine "set-jmri-host" argument) = .ok ⟨.setJmriHost, argument⟩ := by
  rw [parseLine_setLine (by decide) hfit, if_neg (fun h => absurd h.1 (by decide)),
    if_neg (fun h => absurd h.1 (by decide)), if_pos ⟨rfl, hne⟩]

theorem parseLine_setJmriPort {port : Option UInt16} (hport : parseNetworkPort argument = .ok port)
    (hfit : (setLine "set-jmri-port" argument).length ≤ kMaxLineLength) :
    parseLine (setLine "set-jmri-port" argument) =
      .ok (if port.isSome then ⟨.setJmriPort, argument⟩
        else ⟨.unknown, setLine "set-jmri-port" argument⟩) := by
  rw [parseLine_setLine (by decide) hfit, if_neg (fun h => absurd h.1 (by decide)),
    if_neg (fun h => absurd h.1 (by decide)), if_neg (fun h => absurd h.1 (by decide)), if_pos rfl,
    hport]
  rfl

end Console

/-- The session leaves the four values in the store, with a zero for a port that is refused. -/
theorem serve_setLines (preferences : Preferences) {ssid password jmriHost jmriPort : Text}
    (hssid : ssid ≠ []) (hpassword : password ≠ []) (hhost : jmriHost ≠ []) {port : Option UInt16}
    (hport : parseNetworkPort jmriPort = .ok port)
    (hfit : ∀ line ∈ setLines ssid password jmriHost jmriPort, line.length ≤ kMaxLineLength) :
    let config : LocoNetAdapterConfig := ⟨ssid, password, jmriHost, port.getD 0⟩
    serve NvsConfigStore preferences CommissioningSession.initial
        (setLines ssid password jmriHost jmriPort ++ ["save".toList]) =
      (["OK".toList, "OK".toList, "OK".toList,
          if port.isSome then "OK".toList else "ERR unknown command".toList, "SAVED".toList],
        .ok (⟨config⟩, NvsConfigStore.save preferences config)) := by
  intro config
  simp only [setLines, List.forall_mem_cons] at hfit
  obtain ⟨hfit1, hfit2, hfit3, hfit4, -⟩ := hfit
  have hsave : parseLine "save".toList = .ok ⟨.save, []⟩ := by decide
  simp only [setLines, List.cons_append, List.nil_append, serve, Transcripts.transcript, update,
    parseLine_setSsid hssid hfit1, parseLine_setPassword hpassword hfit2,
    parseLine_setJmriHost hhost hfit3, parseLine_setJmriPort hport hfit4, hsave, Except.bind]
  cases port with
  | none => rfl
  | some port =>
    -- the port is converted a second time, by `stoul` and a narrowing cast
    obtain ⟨hstoul, rfl, -⟩ := parseNetworkPort_eq_some hport
    simp only [Option.isSome_some, if_true, CommissioningSession.apply,
      CommissioningSession.applySetJmriPort, hstoul, Except.map]
    rfl

/-! ### What the form does -/

theorem handleSubmission_of_port (preferences : Preferences)
    {ssid password jmriHost jmriPort : Text} (hssid : ssid ≠ []) (hpassword : password ≠ [])
    (hhost : jmriHost ≠ []) {port : Option UInt16}
    (hport : parseNetworkPort jmriPort = .ok port) :
    handleSubmission NvsConfigStore preferences ssid password jmriHost jmriPort =
      .ok (if port.isSome then
          (NvsConfigStore.save preferences ⟨ssid, password, jmriHost, port.getD 0⟩, true)
        else (preferences, false)) := by
  rw [handleSubmission]
  cases port with
  | none =>
    rw [wouldAccept, hport]
    rfl
  | some port =>
    have hcomplete : (LocoNetAdapterConfig.mk ssid password jmriHost port).isComplete :=
      LocoNetAdapterConfig.isComplete_iff.mpr
        ⟨hssid, hpassword, hhost, (parseNetworkPort_eq_some hport).2.2⟩
    rw [wouldAccept_eq_true_iff.mpr ⟨port, hport, hcomplete⟩, hport]
    rfl

/-- The same values through either front door, whatever the store holds: the console leaves a
complete configuration exactly when the form saves and reboots, and then both leave the same
one. A port that is refused is answered as an unknown command and stays zero. -/
theorem front_doors_agree (preferences : Preferences) (ssid password jmriHost jmriPort : Text)
    (hssid : ssid ≠ [] ∧ Plain ssid) (hpassword : password ≠ [] ∧ Plain password)
    (hhost : jmriHost ≠ [] ∧ Plain jmriHost) (hplain : Plain jmriPort)
    (hfit : ∀ line ∈ setLines ssid password jmriHost jmriPort, line.length ≤ kMaxLineLength)
    (hvalue : isAllDigits jmriPort → Decimal.value jmriPort ≤ unsignedLongMax) :
    ∃ replies session stored,
      serve NvsConfigStore preferences CommissioningSession.initial
          (EspUartPort.readLines EspUartPort.initial
            (consoleInput ssid password jmriHost jmriPort)) = (replies, .ok (session, stored)) ∧
        ((NvsConfigStore.load stored).isComplete ↔
          SavesAndReboots preferences ssid password jmriHost jmriPort) ∧
        (∀ saved, handleSubmission NvsConfigStore preferences ssid password jmriHost jmriPort =
          .ok (saved, true) → NvsConfigStore.load stored = NvsConfigStore.load saved) ∧
        (parseNetworkPort jmriPort = .ok none →
          replies[3]? = some "ERR unknown command".toList ∧
            (NvsConfigStore.load stored).jmriPort = 0 ∧
              handleSubmission NvsConfigStore preferences ssid password jmriHost jmriPort =
                .ok (preferences, false)) := by
  obtain ⟨port, hport⟩ : ∃ port, parseNetworkPort jmriPort = .ok port := by
    by_cases hdigits : isAllDigits jmriPort
    · rw [parseNetworkPort_of_digits hdigits, if_neg (Nat.not_lt.mpr (hvalue hdigits))]
      exact ⟨_, rfl⟩
    · exact ⟨none, parseNetworkPort_of_not_digits hdigits⟩
  have hread := readLines_consoleInput hssid.2 hpassword.2 hhost.2 hplain hfit
  have hserve := serve_setLines preferences hssid.1 hpassword.1 hhost.1 hport hfit
  have hsubmit := handleSubmission_of_port preferences hssid.1 hpassword.1 hhost.1 hport
  have hstored := NvsConfigStore.load_save_of_nulFree preferences
    (show (LocoNetAdapterConfig.mk ssid password jmriHost (port.getD 0)).NulFree from
      ⟨hssid.2.2.2, hpassword.2.2.2, hhost.2.2.2⟩)
  rw [hread]
  refine ⟨_, _, _, hserve, ?_⟩
  cases port with
  | none =>
    have hrefused : ∀ saved, handleSubmission NvsConfigStore preferences ssid password jmriHost
        jmriPort ≠ .ok (saved, true) := by
      intro saved h
      rw [hsubmit] at h
      cases h
    refine ⟨iff_of_false ?_ ?_, fun saved h => absurd h (hrefused saved), fun _ => ⟨rfl, ?_, ?_⟩⟩
    · rw [hstored, LocoNetAdapterConfig.isComplete_iff]
      exact fun h => h.2.2.2 rfl
    · exact fun ⟨config, h⟩ => hrefused _ h
    · rw [hstored]
      rfl
    · exact hsubmit
  | some port =>
    refine ⟨iff_of_true ?_ ⟨_, hsubmit⟩, fun saved h => ?_, fun h => ?_⟩
    · rw [hstored, LocoNetAdapterConfig.isComplete_iff]
      exact ⟨hssid.1, hpassword.1, hhost.1, (parseNetworkPort_eq_some hport).2.2⟩
    · rw [hsubmit] at h
      obtain ⟨rfl, -⟩ := Prod.mk.inj (Except.ok.inj h)
      rfl
    · rw [hport] at h
      cases h

/-- Values with inner and trailing spaces, and a port with leading zeros. -/
theorem front_doors_agree_spaces :
    ∃ replies session stored,
      serve NvsConfigStore {} CommissioningSession.initial
          (EspUartPort.readLines EspUartPort.initial
            (consoleInput " my home".toList "pass word ".toList "10.0.0.2".toList
              "01234".toList)) = (replies, .ok (session, stored)) ∧
        ((NvsConfigStore.load stored).isComplete ↔
          SavesAndReboots {} " my home".toList "pass word ".toList "10.0.0.2".toList
            "01234".toList) ∧
        (∀ saved, handleSubmission NvsConfigStore {} " my home".toList "pass word ".toList
          "10.0.0.2".toList "01234".toList = .ok (saved, true) →
            NvsConfigStore.load stored = NvsConfigStore.load saved) ∧
        (parseNetworkPort "01234".toList = .ok none →
          replies[3]? = some "ERR unknown command".toList ∧
            (NvsConfigStore.load stored).jmriPort = 0 ∧
              handleSubmission NvsConfigStore {} " my home".toList "pass word ".toList
                "10.0.0.2".toList "01234".toList = .ok ({}, false)) :=
  front_doors_agree {} _ _ _ _ (by decide) (by decide) (by decide) (by decide) (by decide)
    (by decide)

end Loco2Mqtt.FrontDoors
