import Loco2Mqtt.Commissioning.Firmware
import Loco2Mqtt.Commissioning.PasswordSecrecy

/-! What leaves the device does not depend on a password. Two devices are run side by side, with
passwords that differ in the flash, on the console and in the form; both have one, or neither
has. Through any boots, lines, saves, submissions and restarts they stay alike, print the same
and send the same pages. -/

namespace Loco2Mqtt.Firmware

open LocoNetAdapterConfig PasswordSecrecy Runs Simulations Transcripts
open CaptivePortalServer (Request)
open ConsoleLines (answer)
open LineAssembler (linesOf linesOf_eq_segments withoutCarriageReturn)

/-! ### Alike configurations -/

theorem isComplete_alike {config other : LocoNetAdapterConfig} (h : Alike config other) :
    config.isComplete = other.isComplete := by
  rw [Bool.eq_iff_iff, isComplete_iff, isComplete_iff, h.wifiSsid, h.jmriHost, h.jmriPort]
  simp only [ne_eq, h.passwordSet]

theorem selectBootMode_alike {config other : LocoNetAdapterConfig} (h : Alike config other)
    {requested requested' : Bool} (hrequested : requested = requested') :
    selectBootMode config requested = selectBootMode other requested' := by
  rw [selectBootMode, selectBootMode, isComplete_alike h, hrequested]

theorem renderSetupForm_alike {config other : LocoNetAdapterConfig} (h : Alike config other) :
    SetupFormRenderer.renderSetupForm config = SetupFormRenderer.renderSetupForm other := by
  unfold SetupFormRenderer.renderSetupForm SetupFormRenderer.jmriPortFieldValue
  rw [h.wifiSsid, h.jmriHost, h.jmriPort]

/-- The two flashes differ in the password at most. -/
def SameFlash (stored other : Preferences) : Prop :=
  Alike (NvsConfigStore.load stored) (NvsConfigStore.load other) ∧
    stored.setup_req = other.setup_req

theorem sameFlash_save {stored other : Preferences} {config config' : LocoNetAdapterConfig}
    (h : SameFlash stored other) (hconfig : Alike config config') (hnul : config.NulFree)
    (hnul' : config'.NulFree) :
    SameFlash (NvsConfigStore.save stored config) (NvsConfigStore.save other config') := by
  refine ⟨?_, h.2⟩
  rwa [NvsConfigStore.load_save_of_nulFree _ hnul, NvsConfigStore.load_save_of_nulFree _ hnul']

/-! ### The form -/

/-- The requests differ in the password at most, and both bring one or neither does. -/
structure SameRequest (request other : Request) : Prop where
  method : request.method = other.method
  uri : request.uri = other.uri
  ssid : request.arg "ssid" = other.arg "ssid"
  password : cStr (request.arg "password") = [] ↔ cStr (other.arg "password") = []
  jmriHost : request.arg "jmri_host" = other.arg "jmri_host"
  jmriPort : request.arg "jmri_port" = other.arg "jmri_port"

def SameOutcome (outcome other : Preferences × Bool) : Prop :=
  SameFlash outcome.1 other.1 ∧ outcome.2 = other.2

theorem handleSubmit_lockstep {stored other : Preferences} (h : SameFlash stored other)
    {request request' : Request} (hrequest : SameRequest request request') :
    Lockstep SameOutcome
      (CaptivePortalServer.handleSubmit NvsConfigStore stored (request.arg "ssid")
        (request.arg "password") (request.arg "jmri_host") (request.arg "jmri_port"))
      (CaptivePortalServer.handleSubmit NvsConfigStore other (request'.arg "ssid")
        (request'.arg "password") (request'.arg "jmri_host") (request'.arg "jmri_port")) := by
  rw [hrequest.ssid, hrequest.jmriHost, hrequest.jmriPort]
  unfold CaptivePortalServer.handleSubmit WebFormCommissioningAdapter.handleSubmission
    WebFormCommissioningAdapter.wouldAccept
  rcases parseNetworkPort (cStr (request'.arg "jmri_port")) with error | _ | port
  · exact rfl
  · exact ⟨rfl, h, rfl⟩
  have halike : Alike
      ⟨cStr (request'.arg "ssid"), cStr (request.arg "password"), cStr (request'.arg "jmri_host"),
        port⟩
      ⟨cStr (request'.arg "ssid"), cStr (request'.arg "password"), cStr (request'.arg "jmri_host"),
        port⟩ :=
    ⟨rfl, hrequest.password, rfl, rfl⟩
  simp only [Except.map, Except.bind, isComplete_alike halike]
  by_cases hcomplete : (LocoNetAdapterConfig.mk (cStr (request'.arg "ssid"))
      (cStr (request'.arg "password")) (cStr (request'.arg "jmri_host")) port).isComplete = true
  · simp only [hcomplete, Bool.not_true, Bool.false_eq_true, if_false]
    exact ⟨rfl, sameFlash_save h halike
      ⟨nul_not_mem_cStr _, nul_not_mem_cStr _, nul_not_mem_cStr _⟩
      ⟨nul_not_mem_cStr _, nul_not_mem_cStr _, nul_not_mem_cStr _⟩, rfl⟩
  · simp only [hcomplete, Bool.not_false, if_true]
    exact ⟨rfl, h, rfl⟩

theorem handleClient_lockstep {stored other : Preferences} (h : SameFlash stored other)
    {request request' : Request} (hrequest : SameRequest request request') :
    Lockstep SameOutcome (CaptivePortalServer.handleClient NvsConfigStore stored request)
      (CaptivePortalServer.handleClient NvsConfigStore other request') := by
  have hroot : CaptivePortalServer.handleRoot NvsConfigStore stored =
      CaptivePortalServer.handleRoot NvsConfigStore other :=
    congrArg cStr (renderSetupForm_alike h.1)
  unfold CaptivePortalServer.handleClient
  rw [hrequest.uri, hrequest.method]
  split_ifs
  · exact ⟨hroot, h, rfl⟩
  · exact handleSubmit_lockstep h hrequest
  · exact ⟨hroot, h, rfl⟩

/-! ### The console -/

/-- The sessions and the flashes differ in passwords at most. -/
def SameSession (s t : CommissioningSession × Preferences) : Prop :=
  Alike s.1.pending t.1.pending ∧ SameFlash s.2 t.2

/-- Lines that differ in a password at most are the same command but for it. -/
theorem type_eq_of_sameButPassword {line other : Text} (h : SameButPassword line other)
    {command command' : ParsedCommand}
    (hcommand : SerialCommissioningAdapter.parseLine line = .ok command)
    (hcommand' : SerialCommissioningAdapter.parseLine other = .ok command') :
    command.type = command'.type := by
  rcases h with rfl | ⟨password, password', hne, hne', rfl, rfl, hfit, hfit'⟩
  · rw [Except.ok.inj (hcommand.symm.trans hcommand')]
  · rw [FrontDoors.parseLine_setPassword hne hfit] at hcommand
    rw [FrontDoors.parseLine_setPassword hne' hfit'] at hcommand'
    rw [← Except.ok.inj hcommand, ← Except.ok.inj hcommand']

theorem update_lockstep_saving {s t : CommissioningSession × Preferences} (h : SameSession s t)
    (hs : s.1.pending.NulFree) (ht : t.1.pending.NulFree) {line other : Text}
    (hlines : SameButPassword line other) :
    Lockstep SameSession (SerialCommissioningAdapter.update NvsConfigStore s.2 s.1 line)
      (SerialCommissioningAdapter.update NvsConfigStore t.2 t.1 other) := by
  have hlockstep := update_lockstep NvsConfigStore h.1 hlines
  rcases SerialCommissioningAdapter.update_cases NvsConfigStore s.2 s.1 line with
    ⟨error, -, hupdate⟩ | ⟨command, reply, hparse, hupdate⟩ <;>
  rcases SerialCommissioningAdapter.update_cases NvsConfigStore t.2 t.1 other with
    ⟨error', -, hupdate'⟩ | ⟨command', reply', hparse', hupdate'⟩ <;>
  rw [hupdate, hupdate'] at hlockstep ⊢
  · exact hlockstep
  · exact hlockstep
  · exact hlockstep
  · obtain ⟨hreply, halike⟩ := hlockstep
    refine ⟨hreply, halike, ?_⟩
    simp only [type_eq_of_sameButPassword hlines hparse hparse']
    split_ifs
    · exact sameFlash_save h.2 h.1 hs ht
    · exact h.2

/-! ### Two devices -/

/-- Nothing but passwords tells the two apart. -/
structure Concealed (s t : State) : Prop where
  now : s.now = t.now
  mode : s.mode = t.mode
  trigger : s.trigger = t.trigger
  printed : s.printed = t.printed
  pages : s.pages = t.pages
  session : SameSession (s.console.session, s.console.stored) (t.console.session, t.console.stored)
  replies : s.console.replies.length = t.console.replies.length
  lines : List.Forall₂ SameButPassword (linesOf s.typed) (linesOf t.typed)

/-- The same happens to both, but for the passwords on the lines and in the requests. No NUL is
typed. -/
def SameInput : State × State → Event × Event → Prop
  | _, (.powerUp, .powerUp) | _, (.crash, .crash) => True
  | _, (.tick milliseconds, .tick milliseconds') => milliseconds = milliseconds'
  | (s, t), (.typed chunk, .typed chunk') => '\x00' ∉ chunk ∧ '\x00' ∉ chunk' ∧
    List.Forall₂ SameButPassword (linesOf (s.typed ++ chunk)) (linesOf (t.typed ++ chunk'))
  | _, (.loop active received request, .loop active' received' request') =>
    active = active' ∧ received = received' ∧ Option.Rel SameRequest request request'
  | _, _ => False

theorem Sane.clean {s : State} (h : Sane s) : s.console.session.pending.NulFree := by
  obtain ⟨l, hmirrors, hclean⟩ := h.mirrors
  rwa [Lifecycle.Clean, hmirrors.session] at hclean

theorem Sane.recorded {s : State} (h : Sane s) {active : Bool}
    (htriggered : (poll s active).2 = false) (received : List LocoNetMessage) :
    Sane (record (poll s active).1 received) := by
  obtain ⟨l, hmirrors, hclean⟩ := h.mirrors
  exact ⟨⟨l, hmirrors.recorded htriggered received, hclean⟩, h.heard.poll active, h.nulFree⟩

theorem answer_eq_update (stored : Preferences) (session : CommissioningSession) (line : Text) :
    answer NvsConfigStore stored session line =
      SerialCommissioningAdapter.update NvsConfigStore stored session line := by
  unfold answer SerialCommissioningAdapter.update SerialCommissioningAdapter.parseLine
  split_ifs <;> rfl

/-- The next line that is read is the first typed that has no reply, or stands for it. -/
theorem Sane.next_line {s : State} (h : Sane s) (hup : s.mode.isSome) :
    (nextLine s = none ∧ (linesOf s.typed)[s.console.replies.length]? = none) ∨
      ∃ line typed, nextLine s = some line ∧
        (linesOf s.typed)[s.console.replies.length]? = some typed ∧
        ∀ stored session, SerialCommissioningAdapter.update NvsConfigStore stored session line =
          SerialCommissioningAdapter.update NvsConfigStore stored session typed := by
  obtain ⟨current, answered, waiting, last, hassembler, hwaiting, hlines, hcount⟩ :=
    h.heard (h.running hup)
  obtain ⟨rest, current', hread, -⟩ := ConsoleLines.readLine_spec hassembler hwaiting
  have hnext : (linesOf s.typed)[s.console.replies.length]? =
      waiting.head?.map withoutCarriageReturn := by
    rw [linesOf_eq_segments, hlines, List.getElem?_map, ← hcount,
      List.getElem?_append_right le_rfl, Nat.sub_self, List.head?_eq_getElem?]
  rw [nextLine, hread, hnext]
  cases waiting with
  | nil => exact Or.inl ⟨rfl, rfl⟩
  | cons segment more =>
    refine Or.inr ⟨_, _, rfl, rfl, fun stored session => ?_⟩
    rw [ConsoleLines.update_lineOf, answer_eq_update]

theorem getElem?_related {α β : Type*} {R : α → β → Prop} {first : List α} {second : List β}
    (h : List.Forall₂ R first second) (k : ℕ) : Option.Rel R first[k]? second[k]? := by
  induction h generalizing k with
  | nil => exact .none
  | cons hab _ ih =>
    cases k with
    | zero => exact .some hab
    | succ k => exact ih k

theorem updateConsole_concealed {s t : State} (h : Concealed s t) (hs : Sane s) (ht : Sane t)
    (hup : s.mode.isSome) : Concealed (updateConsole s) (updateConsole t) := by
  have hup' : t.mode.isSome := h.mode ▸ hup
  have hrunning := hs.running hup
  have hrunning' := ht.running hup'
  have hlines := getElem?_related h.lines s.console.replies.length
  rcases hs.next_line hup with ⟨hnone, htyped⟩ | ⟨line, typed, hline, htyped, hsame⟩ <;>
    rcases ht.next_line hup' with ⟨hnone', htyped'⟩ | ⟨line', typed', hline', htyped', hsame'⟩ <;>
    rw [htyped, h.replies, htyped'] at hlines
  · rw [updateConsole_of_none hrunning hnone, updateConsole_of_none hrunning' hnone']
    exact ⟨h.now, h.mode, h.trigger, h.printed, h.pages, h.session, h.replies, h.lines⟩
  · cases hlines
  · cases hlines
  · cases hlines with
    | some hlines =>
      have hlockstep := update_lockstep_saving h.session hs.clean ht.clean hlines
      simp only [← hsame, ← hsame'] at hlockstep
      rcases hupdate : SerialCommissioningAdapter.update NvsConfigStore s.console.stored
          s.console.session line with error | ⟨reply, session, stored⟩ <;>
        rcases hupdate' : SerialCommissioningAdapter.update NvsConfigStore t.console.stored
          t.console.session line' with error' | ⟨reply', session', stored'⟩ <;>
        rw [hupdate, hupdate'] at hlockstep
      · rw [updateConsole_of_error hrunning hline hupdate,
          updateConsole_of_error hrunning' hline' hupdate']
        exact ⟨h.now, rfl, h.trigger, h.printed, h.pages, h.session, h.replies, h.lines⟩
      · exact absurd hlockstep id
      · exact absurd hlockstep id
      · obtain ⟨rfl, hsession⟩ := hlockstep
        rw [updateConsole_of_ok hrunning hline hupdate,
          updateConsole_of_ok hrunning' hline' hupdate']
        refine ⟨h.now, h.mode, h.trigger, ?_, h.pages, hsession, ?_, h.lines⟩
        · simp only [h.printed]
        · simp only [List.length_append, h.replies]

/-! ### Side by side -/

theorem sameFlash_request {stored other : Preferences} (h : SameFlash stored other) :
    SameFlash (NvsSetupModeRequestStore.request stored) (NvsSetupModeRequestStore.request other) :=
  ⟨h.1, rfl⟩

theorem poll_concealed {s t : State} (h : Concealed s t) (active : Bool) :
    Concealed (poll s active).1 (poll t active).1 ∧ (poll s active).2 = (poll t active).2 := by
  obtain ⟨htrigger, htriggered⟩ := ButtonSetupModeTrigger.update_eq_update_id
    NvsSetupModeRequestStore.request s.trigger (WrappingClock.reading s.now) s.console.stored active
  obtain ⟨htrigger', htriggered'⟩ := ButtonSetupModeTrigger.update_eq_update_id
    NvsSetupModeRequestStore.request t.trigger (WrappingClock.reading t.now) t.console.stored active
  have hupdate : s.trigger.update id active (WrappingClock.reading s.now) () =
      t.trigger.update id active (WrappingClock.reading t.now) () := by rw [h.trigger, h.now]
  have hnext : (poll s active).1.trigger = (poll t active).1.trigger :=
    htrigger.trans ((congrArg Prod.fst hupdate).trans htrigger'.symm)
  have hsame : (poll s active).2 = (poll t active).2 :=
    htriggered.trans ((congrArg (fun result => result.2.2) hupdate).trans htriggered'.symm)
  refine ⟨⟨h.now, h.mode, hnext, h.printed, h.pages, ?_, ?_, h.lines⟩, hsame⟩
  · rw [poll_console, poll_console, hsame]
    refine ⟨h.session.1, ?_⟩
    rcases (poll t active).2 with _ | _
    · exact h.session.2
    · exact sameFlash_request h.session.2
  · rw [poll_console, poll_console]
    exact h.replies

theorem record_concealed {s t : State} (h : Concealed s t) (received : List LocoNetMessage) :
    Concealed (record s received) (record t received) := by
  refine ⟨h.now, h.mode, h.trigger, ?_, h.pages, h.session, h.replies, h.lines⟩
  rw [record, record, h.printed]

theorem servePortal_concealed {s t : State} (h : Concealed s t) {request request' : Request}
    (hrequest : SameRequest request request') :
    Concealed (servePortal s request) (servePortal t request') := by
  have hlockstep : Lockstep SameOutcome
      (CaptivePortalServer.handleClient NvsConfigStore s.console.stored request)
      (CaptivePortalServer.handleClient NvsConfigStore t.console.stored request') :=
    handleClient_lockstep h.session.2 hrequest
  unfold servePortal
  rcases hserved : CaptivePortalServer.handleClient NvsConfigStore s.console.stored request with
      error | ⟨page, stored, reboots⟩ <;>
    rcases hserved' : CaptivePortalServer.handleClient NvsConfigStore t.console.stored request'
      with error' | ⟨page', stored', reboots'⟩ <;>
    rw [hserved, hserved'] at hlockstep
  · exact ⟨h.now, rfl, h.trigger, h.printed, h.pages, h.session, h.replies, h.lines⟩
  · exact absurd hlockstep id
  · exact absurd hlockstep id
  · obtain ⟨rfl, hflash, hreboots⟩ := hlockstep
    refine ⟨h.now, ?_, h.trigger, h.printed, ?_, ⟨h.session.1, hflash⟩, h.replies, h.lines⟩
    · simp only at hreboots
      simp only [h.mode, hreboots]
    · simp only [h.pages]

theorem loop_concealed {s t : State} (h : Concealed s t) (hs : Sane s) (ht : Sane t)
    (active : Bool) (received : List LocoNetMessage) {request request' : Option Request}
    (hrequest : Option.Rel SameRequest request request') :
    Concealed (loop s active received request) (loop t active received request') := by
  obtain ⟨hpolled, hsame⟩ := poll_concealed h active
  have hdown : Concealed { (poll s active).1 with mode := none }
      { (poll t active).1 with mode := none } :=
    ⟨hpolled.now, rfl, hpolled.trigger, hpolled.printed, hpolled.pages, hpolled.session,
      hpolled.replies, hpolled.lines⟩
  have hrecorded := record_concealed hpolled received
  unfold loop
  rw [← h.mode]
  rcases hmode : s.mode with _ | mode
  · exact h
  cases mode with
  | wirelessSetup =>
    cases hrequest with
    | none => exact h
    | some hrequest => exact servePortal_concealed h hrequest
  | normal =>
    simp only [← hsame, reduceCtorEq, if_false]
    split_ifs
    · exact hdown
    · exact hrecorded
  | needsCommissioning =>
    simp only [← hsame, if_true]
    split_ifs with htriggered
    · exact hdown
    · rw [Bool.not_eq_true] at htriggered
      exact updateConsole_concealed hrecorded (hs.recorded htriggered received)
        (ht.recorded (hsame ▸ htriggered) received) (hmode ▸ rfl)

/-- What the induction over the two runs carries. -/
structure Alongside (s t : State) : Prop where
  concealed : Concealed s t
  sane : Sane s
  sane' : Sane t

theorem alongside_start {preferences other : Preferences} (h : SameFlash preferences other) :
    Alongside (start preferences) (start other) :=
  ⟨⟨rfl, rfl, rfl, rfl, rfl, ⟨⟨rfl, Iff.rfl, rfl, rfl⟩, h⟩, rfl, .nil⟩, sane_start _, sane_start _⟩

theorem nulFree_of_sameInput {s t : State} {e f : Event} (h : SameInput (s, t) (e, f)) :
    NulFree e ∧ NulFree f := by
  cases e <;> cases f <;> first | exact ⟨trivial, trivial⟩ | exact ⟨h.1, h.2.1⟩ | exact absurd h id

theorem concealed_step {s t : State} {e f : Event} (h : Alongside s t)
    (hinput : SameInput (s, t) (e, f)) : Concealed (step s e) (step t f) := by
  obtain ⟨hconcealed, hs, ht⟩ := h
  obtain ⟨hnow, hmode, htrigger, hprinted, hpages, hsession, hreplies, hlines⟩ := hconcealed
  cases e with
  | powerUp =>
    cases f with
    | powerUp =>
      have hflash := hsession.2
      refine ⟨rfl, ?_, rfl, ?_, hpages, ⟨⟨rfl, Iff.rfl, rfl, rfl⟩, hflash.1, rfl⟩, rfl, .nil⟩
      · exact congrArg some (selectBootMode_alike hflash.1 hflash.2)
      · simp only [step, setup, hprinted]
    | tick | typed | loop | crash => exact absurd hinput id
  | tick milliseconds =>
    cases f with
    | tick milliseconds' =>
      obtain rfl : milliseconds = milliseconds' := hinput
      exact ⟨congrArg (· + milliseconds) hnow, hmode, htrigger, hprinted, hpages, hsession,
        hreplies, hlines⟩
    | powerUp | typed | loop | crash => exact absurd hinput id
  | typed chunk =>
    cases f with
    | typed chunk' =>
      simp only [step, ← hmode]
      split_ifs
      · exact ⟨hnow, rfl, htrigger, hprinted, hpages, hsession, hreplies, hinput.2.2⟩
      · exact ⟨hnow, hmode, htrigger, hprinted, hpages, hsession, hreplies, hlines⟩
    | powerUp | tick | loop | crash => exact absurd hinput id
  | loop active received request =>
    cases f with
    | loop active' received' request' =>
      obtain ⟨rfl, rfl, hrequest⟩ := hinput
      exact loop_concealed
        ⟨hnow, hmode, htrigger, hprinted, hpages, hsession, hreplies, hlines⟩ hs ht active received
        hrequest
    | powerUp | tick | typed | crash => exact absurd hinput id
  | crash =>
    cases f with
    | crash => exact ⟨hnow, rfl, htrigger, hprinted, hpages, hsession, hreplies, hlines⟩
    | powerUp | tick | typed | loop => exact absurd hinput id

/-- Two devices that differ in the passwords they keep, are told and are sent print the same on
the serial port, send the same pages and are in the same mode, and their flashes still differ
in the password at most. -/
theorem password_stays_inside {preferences other : Preferences}
    (hflash : SameFlash preferences other) {pairs : List (Event × Event)}
    (hinput : AtEachStep (pairStep step step) SameInput (start preferences, start other) pairs) :
    let s := run step (start preferences) (pairs.map Prod.fst)
    let t := run step (start other) (pairs.map Prod.snd)
    s.printed = t.printed ∧ s.pages = t.pages ∧ s.mode = t.mode ∧
      SameFlash s.console.stored t.console.stored := by
  intro s t
  have hrun : Alongside s t := runs_related (fun s t e f h hinput =>
    ⟨concealed_step h hinput, sane_step s e h.sane (nulFree_of_sameInput hinput).1,
      sane_step t f h.sane' (nulFree_of_sameInput hinput).2⟩) (alongside_start hflash) hinput
  exact ⟨hrun.concealed.printed, hrun.concealed.pages, hrun.concealed.mode,
    hrun.concealed.session.2⟩

/-- A new password is set on one console and another on the other, and both are asked to show. -/
def setAndShow : List (Event × Event) :=
  [(.powerUp, .powerUp),
    (.typed (FrontDoors.setLine "set-password" "tiger".toList ++ "\nshow\n".toList),
      .typed (FrontDoors.setLine "set-password" "correct horse".toList ++ "\nshow\n".toList)),
    (.loop false [] none, .loop false [] none), (.loop false [] none, .loop false [] none)]

theorem password_stays_inside_setAndShow :
    (run step (start { ssid := "home".toList, password := "hunter2".toList })
        (setAndShow.map Prod.fst)).printed =
      (run step (start { ssid := "home".toList, password := "secret".toList })
        (setAndShow.map Prod.snd)).printed := by
  have hflash : SameFlash { ssid := "home".toList, password := "hunter2".toList }
      { ssid := "home".toList, password := "secret".toList } :=
    ⟨⟨rfl, by decide, rfl, rfl⟩, rfl⟩
  have hlines : linesOf (FrontDoors.setLine "set-password" "tiger".toList ++ "\nshow\n".toList) =
      [FrontDoors.setLine "set-password" "tiger".toList, "show".toList] := by decide +kernel
  have hlines' : linesOf
      (FrontDoors.setLine "set-password" "correct horse".toList ++ "\nshow\n".toList) =
      [FrontDoors.setLine "set-password" "correct horse".toList, "show".toList] := by
    decide +kernel
  have hsame : List.Forall₂ SameButPassword
      (linesOf (FrontDoors.setLine "set-password" "tiger".toList ++ "\nshow\n".toList))
      (linesOf (FrontDoors.setLine "set-password" "correct horse".toList ++
        "\nshow\n".toList)) := by
    rw [hlines, hlines']
    exact .cons (Or.inr ⟨_, _, by decide, by decide, rfl, rfl, by decide, by decide⟩)
      (.cons (Or.inl rfl) .nil)
  have hinput : AtEachStep (pairStep step step) SameInput
      (start { ssid := "home".toList, password := "hunter2".toList },
        start { ssid := "home".toList, password := "secret".toList }) setAndShow :=
    ⟨trivial, ⟨by decide, by decide, hsame⟩, ⟨rfl, rfl, .none⟩, ⟨rfl, rfl, .none⟩, trivial⟩
  exact (password_stays_inside hflash hinput).1

end Loco2Mqtt.Firmware
