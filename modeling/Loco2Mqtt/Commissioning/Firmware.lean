import Loco2Mqtt.Commissioning.ConsoleLines
import Loco2Mqtt.Commissioning.Lifecycle
import Loco2Mqtt.Commissioning.SetupButton
import Loco2Mqtt.Foundations.Simulations

/-! `setup` and `loop`, but for the bridge. A boot reads the flash and selects the mode; every
pass of the loop then polls the button and handles a line of the console, or serves the setup
page. The bytes, polls and requests of any run amount to the boots, lines, submissions and
triggers of the lifecycle, so a device that has been commissioned is commissioned for good. -/

namespace Loco2Mqtt

/-- `LocoNetMessageLogger::update` into a `SerialMessageLog`: `received` are the messages that
`receive` returns before it returns none. -/
def LocoNetMessageLogger.update (printed : List Text) : List LocoNetMessage → List Text
  | [] => printed
  | message :: rest => update (printed ++ [cStr message.describe]) rest

namespace Firmware

open Runs Simulations WrappingClock
open CaptivePortalServer (Request)
open SetupButton (Poll)

/-- The flash is what the console stores to, and `mode` is `none` while the device is down.
`now` counts from the boot, and so do the replies of the console, `typed` and `polls`. What is
`printed` on the serial port and the `pages` sent are kept over all boots. -/
structure State where
  now : ℕ
  mode : Option BootMode
  console : ConsoleLines.State Preferences
  trigger : ButtonSetupModeTrigger
  printed : List Text
  pages : List Text
  typed : Text
  polls : List Poll

/-- In a pass of the loop the button is `active` or not, `received` are the messages that come
over LocoNet, and there may be a `request` to the web server. -/
inductive Event where
  | powerUp
  | tick (milliseconds : ℕ)
  | typed (chunk : Text)
  | loop (active : Bool) (received : List LocoNetMessage) (request : Option Request)
  | crash
  deriving DecidableEq

def start (preferences : Preferences) : State where
  now := 0
  mode := none
  console := ConsoleLines.start preferences CommissioningSession.initial
  trigger := ButtonSetupModeTrigger.initial
  printed := []
  pages := []
  typed := []
  polls := []

def setup (s : State) : State :=
  let config := NvsConfigStore.load s.console.stored
  let (setupModeRequested, stored) := NvsSetupModeRequestStore.consumeIfRequested s.console.stored
  { now := 0
    mode := some (selectBootMode config setupModeRequested)
    console := ConsoleLines.start stored CommissioningSession.initial
    trigger := ButtonSetupModeTrigger.initial
    printed := s.printed ++ ["Loco2MQTT v".toList ++ kFirmwareVersion]
    pages := s.pages
    typed := []
    polls := [] }

/-- `setupModeTrigger->update()`. -/
def poll (s : State) (active : Bool) : State × Bool :=
  let (trigger, stored, triggered) :=
    s.trigger.update NvsSetupModeRequestStore.request active (reading s.now) s.console.stored
  ({ s with
    trigger := trigger
    console := { s.console with stored := stored }
    polls := s.polls ++ [⟨active, s.now⟩] }, triggered)

/-- `serialCommissioning->update()`. -/
def updateConsole (s : State) : State :=
  let console := ConsoleLines.step NvsConfigStore s.console .update
  { s with
    console := console
    mode := if console.crashed then none else s.mode
    printed := s.printed ++ (console.replies.drop s.console.replies.length).map cStr }

/-- `captivePortal->update()`. -/
def servePortal (s : State) (request : Request) : State :=
  match CaptivePortalServer.handleClient NvsConfigStore s.console.stored request with
  | .error _ => { s with mode := none }
  | .ok (page, stored, reboots) =>
    { s with
      console := { s.console with stored := stored }
      mode := if reboots then none else s.mode
      pages := s.pages ++ [page] }

/-- What `logger->update()` does at the bench, and the router in normal operation. -/
def record (s : State) (received : List LocoNetMessage) : State :=
  { s with printed := LocoNetMessageLogger.update s.printed received }

def loop (s : State) (active : Bool) (received : List LocoNetMessage) (request : Option Request) :
    State :=
  match s.mode with
  | none => s
  | some .wirelessSetup =>
    match request with
    | none => s
    | some request => servePortal s request
  | some mode =>
    let (s, triggered) := poll s active
    if triggered then { s with mode := none }
    else
      let s := record s received
      if mode = .needsCommissioning then updateConsole s else s

/-- Nobody listens to what is typed while the device is down. -/
def step (s : State) : Event → State
  | .powerUp => setup s
  | .tick milliseconds => { s with now := s.now + milliseconds }
  | .typed chunk =>
    if s.mode.isSome then
      { s with
        console := ConsoleLines.step NvsConfigStore s.console (.arrive chunk)
        typed := s.typed ++ chunk }
    else s
  | .loop active received request => loop s active received request
  | .crash => { s with mode := none }

/-! ### What a pass can do -/

/-- The cases of a pass. The button is polled in normal operation and at the bench. -/
inductive Pass (s : State) (active : Bool) (received : List LocoNetMessage) :
    Option Request → State → Prop
  | down {request : Option Request} (hmode : s.mode = none) : Pass s active received request s
  | idle (hmode : s.mode = some .wirelessSetup) : Pass s active received none s
  | served (hmode : s.mode = some .wirelessSetup) (request : Request) :
      Pass s active received (some request) (servePortal s request)
  | triggered {request : Option Request}
      (hmode : s.mode = some .normal ∨ s.mode = some .needsCommissioning)
      (htriggered : (poll s active).2 = true) :
      Pass s active received request { (poll s active).1 with mode := none }
  | operated {request : Option Request} (hmode : s.mode = some .normal)
      (htriggered : (poll s active).2 = false) :
      Pass s active received request (record (poll s active).1 received)
  | commissioned {request : Option Request} (hmode : s.mode = some .needsCommissioning)
      (htriggered : (poll s active).2 = false) :
      Pass s active received request (updateConsole (record (poll s active).1 received))

theorem pass_loop (s : State) (active : Bool) (received : List LocoNetMessage)
    (request : Option Request) :
    Pass s active received request (loop s active received request) := by
  unfold loop
  rcases hmode : s.mode with _ | mode
  · exact .down hmode
  cases mode with
  | wirelessSetup =>
    cases request with
    | none => exact .idle hmode
    | some request => exact .served hmode request
  | normal =>
    rcases htriggered : (poll s active).2 with _ | _
    · simpa only [htriggered] using .operated hmode htriggered
    · simpa only [htriggered] using .triggered (Or.inl hmode) htriggered
  | needsCommissioning =>
    rcases htriggered : (poll s active).2 with _ | _
    · simpa only [htriggered] using .commissioned hmode htriggered
    · simpa only [htriggered] using .triggered (Or.inr hmode) htriggered

/-- A poll triggers exactly if it makes the request. -/
theorem poll_console (s : State) (active : Bool) :
    (poll s active).1.console = { s.console with
      stored := if (poll s active).2 then NvsSetupModeRequestStore.request s.console.stored
        else s.console.stored } := by
  have hrequests := s.trigger.update_requests NvsSetupModeRequestStore.request (reading s.now)
    s.console.stored active
  simp only [poll, hrequests]

theorem poll_console_of_quiet {s : State} {active : Bool} (h : (poll s active).2 = false) :
    (poll s active).1.console = s.console := by
  rw [poll_console, h]
  rfl

/-! ### What a pass amounts to -/

/-- The line that the next update of the console reads. -/
def nextLine (s : State) : Option Text :=
  (EspUartPort.readLine s.console.assembler s.console.available).1

/-- A request that submits the form. -/
def submissionOf (request : Request) : Option Lifecycle.Event :=
  if request.uri = "/".toList ∧ request.method = .post then
    some (.webSubmission (request.arg "ssid") (request.arg "password") (request.arg "jmri_host")
      (request.arg "jmri_port"))
  else none

def lifecycleEvents (s : State) : Event → List Lifecycle.Event
  | .powerUp => [.boot]
  | .tick _ | .typed _ => []
  | .loop active _ request =>
    match s.mode with
    | none => []
    | some .wirelessSetup => (request.bind submissionOf).toList
    | some mode =>
      if (poll s active).2 then [.buttonTrigger]
      else if mode = .needsCommissioning then ((nextLine s).map Lifecycle.Event.serialLine).toList
      else []
  | .crash => [.crash]

/-- The two agree on the flash, the mode and the session, and the console works while the
device is up. -/
structure Mirrors (s : State) (l : Lifecycle.State) : Prop where
  preferences : l.preferences = s.console.stored
  mode : l.mode = s.mode
  session : l.session = s.console.session
  running : s.mode.isSome → s.console.crashed = false

theorem mirrors_start (preferences : Preferences) :
    Mirrors (start preferences) (Lifecycle.start preferences) :=
  ⟨rfl, rfl, rfl, fun hup => absurd hup Bool.false_ne_true⟩

/-! ### The console and the portal -/

/-- The console once it has read its next line, if there is one. -/
def afterLine (s : State) : ConsoleLines.State Preferences :=
  let (_, available, assembler) := EspUartPort.readLine s.console.assembler s.console.available
  { s.console with available := available, assembler := assembler }

section Console

variable {s : State} (hrunning : s.console.crashed = false)
include hrunning

theorem updateConsole_of_none (hline : nextLine s = none) :
    updateConsole s = { s with console := afterLine s } := by
  rw [nextLine] at hline
  simp [updateConsole, ConsoleLines.step, afterLine, hrunning, hline]

variable {line : Text} (hline : nextLine s = some line)
include hline

theorem updateConsole_of_error {error : StdException}
    (hupdate : SerialCommissioningAdapter.update NvsConfigStore s.console.stored
      s.console.session line = .error error) :
    updateConsole s = { s with mode := none, console := { afterLine s with crashed := true } } := by
  rw [nextLine] at hline
  simp [updateConsole, ConsoleLines.step, ConsoleLines.conclude, afterLine, hrunning, hline,
    hupdate]

theorem updateConsole_of_ok {reply : Text} {session : CommissioningSession} {stored : Preferences}
    (hupdate : SerialCommissioningAdapter.update NvsConfigStore s.console.stored
      s.console.session line = .ok (reply, session, stored)) :
    updateConsole s = { s with
      printed := s.printed ++ [cStr reply]
      console := { afterLine s with
        session := session, stored := stored, replies := s.console.replies ++ [reply] } } := by
  rw [nextLine] at hline
  simp [updateConsole, ConsoleLines.step, ConsoleLines.conclude, afterLine, hrunning, hline,
    hupdate]

end Console

theorem updateConsole_mirrors {s : State} {l : Lifecycle.State} (h : Mirrors s l)
    (hmode : s.mode = some .needsCommissioning) :
    Mirrors (updateConsole s)
      (run Lifecycle.step l ((nextLine s).map Lifecycle.Event.serialLine).toList) := by
  have hl : l.mode = some .needsCommissioning := h.mode.trans hmode
  have hrunning := h.running (by rw [hmode]; rfl)
  rcases hline : nextLine s with _ | line
  · rw [updateConsole_of_none hrunning hline]
    exact ⟨h.preferences, h.mode, h.session, h.running⟩
  simp only [Option.map_some, Option.toList_some, run_cons, run_nil, Lifecycle.step, hl, if_true,
    h.preferences, h.session]
  rcases hupdate : SerialCommissioningAdapter.update NvsConfigStore s.console.stored
    s.console.session line with error | ⟨reply, session, stored⟩
  · rw [updateConsole_of_error hrunning hline hupdate]
    exact ⟨rfl, rfl, rfl, fun hup => absurd hup Bool.false_ne_true⟩
  · rw [updateConsole_of_ok hrunning hline hupdate]
    exact ⟨rfl, hmode.symm, rfl, fun _ => hrunning⟩

theorem servePortal_mirrors {s : State} {l : Lifecycle.State} (h : Mirrors s l)
    (hmode : s.mode = some .wirelessSetup) (request : Request) :
    Mirrors (servePortal s request) (run Lifecycle.step l (submissionOf request).toList) := by
  have hrunning := h.running (by rw [hmode]; rfl)
  have hl : l.mode = some .wirelessSetup := h.mode.trans hmode
  have hroot : Mirrors { s with pages := s.pages ++
      [CaptivePortalServer.handleRoot NvsConfigStore s.console.stored] } l :=
    ⟨h.preferences, h.mode, h.session, h.running⟩
  rw [servePortal, CaptivePortalServer.handleClient, submissionOf]
  by_cases hget : request.uri = "/".toList ∧ request.method = .get
  · rw [if_pos hget, if_neg (fun hpost => by rw [hget.2] at hpost; cases hpost.2)]
    exact hroot
  rw [if_neg hget]
  by_cases hpost : request.uri = "/".toList ∧ request.method = .post
  · rw [if_pos hpost, if_pos hpost]
    simp only [Option.toList_some, run_cons, run_nil, Lifecycle.step, hl, if_true, h.preferences]
    rcases CaptivePortalServer.handleSubmit NvsConfigStore s.console.stored (request.arg "ssid")
      (request.arg "password") (request.arg "jmri_host") (request.arg "jmri_port")
      with error | ⟨page, stored, reboots⟩
    · exact ⟨rfl, rfl, h.session, fun hup => absurd hup Bool.false_ne_true⟩
    · cases reboots with
      | true => exact ⟨rfl, rfl, h.session, fun hup => absurd hup Bool.false_ne_true⟩
      | false => exact ⟨rfl, hmode.symm, h.session, fun _ => hrunning⟩
  · rw [if_neg hpost, if_neg hpost]
    exact hroot

theorem Mirrors.recorded {s : State} {l : Lifecycle.State} (h : Mirrors s l) {active : Bool}
    (htriggered : (poll s active).2 = false) (received : List LocoNetMessage) :
    Mirrors (record (poll s active).1 received) l := by
  have hconsole := poll_console_of_quiet htriggered
  refine ⟨?_, h.mode, ?_, fun hup => ?_⟩ <;> rw [record, hconsole]
  · exact h.preferences
  · exact h.session
  · exact h.running hup

theorem loop_mirrors {s : State} {l : Lifecycle.State} (h : Mirrors s l) {active : Bool}
    {received : List LocoNetMessage} {request : Option Request} {after : State}
    (hpass : Pass s active received request after) :
    Mirrors after
      (run Lifecycle.step l (lifecycleEvents s (.loop active received request))) := by
  cases hpass with
  | down hmode =>
    simp only [lifecycleEvents, hmode]
    exact h
  | idle hmode =>
    simp only [lifecycleEvents, hmode]
    exact h
  | served hmode request =>
    simp only [lifecycleEvents, hmode]
    exact servePortal_mirrors h hmode request
  | triggered hmode htriggered =>
    -- the request is in the flash before the restart
    have hconsole := poll_console s active
    rw [htriggered, if_pos rfl] at hconsole
    have hevents : lifecycleEvents s (.loop active received request) = [.buttonTrigger] := by
      rcases hmode with hmode | hmode <;> simp only [lifecycleEvents, hmode, htriggered, if_true]
    rw [← h.mode] at hmode
    rw [hevents, run_cons, run_nil, Lifecycle.step, if_pos hmode]
    refine ⟨?_, rfl, ?_, fun hup => absurd hup Bool.false_ne_true⟩
    · simp only [hconsole, h.preferences]
    · simp only [hconsole, h.session]
  | operated hmode htriggered =>
    have hevents : lifecycleEvents s (.loop active received request) = [] := by
      simp [lifecycleEvents, hmode, htriggered]
    rw [hevents]
    exact h.recorded htriggered received
  | commissioned hmode htriggered =>
    have hline : nextLine (record (poll s active).1 received) = nextLine s := by
      rw [nextLine, nextLine, record, poll_console_of_quiet htriggered]
    have hevents : lifecycleEvents s (.loop active received request) =
        ((nextLine s).map Lifecycle.Event.serialLine).toList := by
      simp [lifecycleEvents, hmode, htriggered]
    rw [hevents, ← hline]
    exact updateConsole_mirrors (h.recorded htriggered received) hmode

theorem mirrors_step (s : State) (l : Lifecycle.State) (e : Event) (h : Mirrors s l) :
    Mirrors (step s e) (run Lifecycle.step l (lifecycleEvents s e)) := by
  cases e with
  | powerUp =>
    refine ⟨?_, ?_, rfl, fun _ => rfl⟩
    · simp only [lifecycleEvents, run_cons, run_nil, Lifecycle.step, Lifecycle.setup,
        h.preferences]
      rfl
    · simp only [lifecycleEvents, run_cons, run_nil, Lifecycle.step, Lifecycle.setup,
        h.preferences]
      rfl
  | tick => exact ⟨h.preferences, h.mode, h.session, h.running⟩
  | typed chunk =>
    simp only [step]
    split_ifs
    · exact ⟨h.preferences, h.mode, h.session, h.running⟩
    · exact h
  | loop active received request => exact loop_mirrors h (pass_loop s active received request)
  | crash => exact ⟨h.preferences, rfl, h.session, fun hup => absurd hup Bool.false_ne_true⟩

/-! ### What is typed -/

/-- The console has the bytes that have been typed since the boot. -/
def Heard (s : State) : Prop :=
  s.console.crashed = false → ConsoleLines.Answered s.typed s.console

theorem heard_start (preferences : Preferences) : Heard (start preferences) :=
  fun _ => ConsoleLines.answered_start _ _

theorem Heard.poll {s : State} (h : Heard s) (active : Bool) : Heard (poll s active).1 := h

theorem Heard.updateConsole {s : State} (h : Heard s) : Heard (updateConsole s) := by
  intro hafter
  rcases hrunning : s.console.crashed with _ | _
  · obtain ⟨available, assembler, -, hkept⟩ :=
      ConsoleLines.update_answered NvsConfigStore (h hrunning) hrunning
    exact hkept hafter
  · simp [Firmware.updateConsole, ConsoleLines.step, hrunning] at hafter

theorem heard_step (s : State) (e : Event) (h : Heard s) : Heard (step s e) := by
  cases e with
  | powerUp => exact fun _ => ConsoleLines.answered_start _ _
  | tick | crash => exact h
  | typed chunk =>
    simp only [step]
    split_ifs
    · exact fun hrunning => ConsoleLines.answered_arrive NvsConfigStore (h hrunning) chunk
    · exact h
  | loop active received request =>
    simp only [step]
    have hpass := pass_loop s active received request
    generalize loop s active received request = after at hpass ⊢
    cases hpass with
    | down | idle => exact h
    | served hmode request =>
      unfold servePortal
      split <;> exact h
    | triggered | operated => exact h.poll active
    | commissioned => exact Heard.updateConsole (h.poll active)

/-- The characters of a segment come from the stream. -/
theorem mem_of_mem_segments {current stream segment : Text}
    (h : segment ∈ (Lines.segmentsFrom '\n' current stream).1) {c : Char} (hc : c ∈ segment) :
    c ∈ current ++ stream := by
  induction stream generalizing current with
  | nil => exact absurd h List.not_mem_nil
  | cons d rest ih =>
    rw [Lines.segmentsFrom] at h
    split_ifs at h
    · rcases List.mem_cons.mp h with rfl | h
      · exact List.mem_append_left _ hc
      · exact List.mem_append_right _ (List.mem_cons_of_mem _ (ih h))
    · simpa using ih h

theorem mem_of_mem_lineOf {cap : ℕ} {segment : Text} {c : Char}
    (h : c ∈ LineAssembler.lineOf cap '\n' segment) : c ∈ segment := by
  rw [LineAssembler.lineOf_newline, LineAssembler.withoutCarriageReturn] at h
  split_ifs at h
  · exact List.mem_of_mem_take ((List.dropLast_sublist _).mem h)
  · exact List.mem_of_mem_take h

theorem Heard.mem_typed {s : State} (h : Heard s) (hrunning : s.console.crashed = false)
    {line : Text} (hline : nextLine s = some line) {c : Char} (hc : c ∈ line) : c ∈ s.typed := by
  obtain ⟨current, answered, waiting, last, hassembler, hwaiting, hlines, -⟩ := h hrunning
  obtain ⟨rest, current', hread, -⟩ := ConsoleLines.readLine_spec hassembler hwaiting
  rw [nextLine, hread] at hline
  cases waiting with
  | nil => cases hline
  | cons segment more =>
    obtain rfl := Option.some.inj hline
    have hsegment : segment ∈ (Lines.segments '\n' s.typed).1 := by
      rw [hlines]
      exact List.mem_append_right _ List.mem_cons_self
    exact mem_of_mem_segments hsegment (mem_of_mem_lineOf hc)

/-- No NUL is typed. -/
def NulFree : Event → Prop
  | .typed chunk => '\x00' ∉ chunk
  | _ => True

instance : DecidablePred NulFree
  | .typed chunk => inferInstanceAs (Decidable ('\x00' ∉ chunk))
  | .powerUp | .tick _ | .loop .. | .crash => isTrue trivial

theorem typed_step {s : State} {e : Event} (h : '\x00' ∉ s.typed) (hnul : NulFree e) :
    '\x00' ∉ (step s e).typed := by
  cases e with
  | powerUp => exact List.not_mem_nil
  | tick | crash => exact h
  | typed chunk =>
    simp only [step]
    split_ifs
    · exact fun hmem => (List.mem_append.mp hmem).elim h hnul
    · exact h
  | loop active received request =>
    simp only [step]
    have hpass := pass_loop s active received request
    generalize loop s active received request = after at hpass ⊢
    cases hpass with
    | served hmode request =>
      unfold servePortal
      split <;> exact h
    | down | idle | triggered | operated | commissioned => exact h

/-! ### Commissioned for good -/

/-- What the induction over a run carries. -/
structure Sane (s : State) : Prop where
  mirrors : ∃ l, Mirrors s l ∧ Lifecycle.Clean l
  heard : Heard s
  nulFree : '\x00' ∉ s.typed

theorem Sane.running {s : State} (h : Sane s) (hup : s.mode.isSome) :
    s.console.crashed = false := by
  obtain ⟨l, hmirrors, -⟩ := h.mirrors
  exact hmirrors.running hup

theorem sane_start (preferences : Preferences) : Sane (start preferences) :=
  ⟨⟨_, mirrors_start preferences, Lifecycle.clean_initial⟩, heard_start preferences,
    List.not_mem_nil⟩

/-- The lines that the console reads have no NUL in them. -/
theorem nulFree_lifecycleEvents (s : State) (e : Event) (h : Sane s) :
    ∀ f ∈ lifecycleEvents s e, Lifecycle.NulFree f := by
  intro f hf
  cases f with
  | boot | webSubmission | buttonTrigger | crash => trivial
  | serialLine line =>
    cases e with
    | powerUp | tick | typed | crash => simp [lifecycleEvents] at hf
    | loop active received request =>
      simp only [lifecycleEvents] at hf
      split at hf
      · exact absurd hf List.not_mem_nil
      · -- a request is not a line
        simp only [Option.mem_toList, Option.bind_eq_some_iff, submissionOf] at hf
        obtain ⟨request, -, hrequest⟩ := hf
        split_ifs at hrequest
        cases hrequest
      · next mode _ hmode =>
        split_ifs at hf
        · simp at hf
        · simp only [Option.mem_toList, Option.map_eq_some_iff,
            Lifecycle.Event.serialLine.injEq] at hf
          obtain ⟨line, hline, rfl⟩ := hf
          have hrunning := h.running (by rw [hmode]; rfl)
          exact fun hmem => h.nulFree (h.heard.mem_typed hrunning hline hmem)
        · exact absurd hf List.not_mem_nil

theorem sane_step (s : State) (e : Event) (h : Sane s) (hnul : NulFree e) : Sane (step s e) := by
  obtain ⟨l, hmirrors, hclean⟩ := h.mirrors
  have himage := nulFree_lifecycleEvents s e h
  refine ⟨⟨_, mirrors_step s l e hmirrors, ?_⟩, heard_step s e h.heard, typed_step h.nulFree hnul⟩
  exact run_invariant Lifecycle.clean_step hclean (atEachStep_of_forall (fun _ => himage) l)

theorem mirrors_run (preferences : Preferences) {events : List Event}
    (hnul : ∀ e ∈ events, NulFree e) :
    let image := runImage step lifecycleEvents (start preferences) events
    (∀ e ∈ image, Lifecycle.NulFree e) ∧ Mirrors (run step (start preferences) events)
      (run Lifecycle.step (Lifecycle.start preferences) image) := by
  intro image
  refine ⟨?_, run_related mirrors_step (mirrors_start preferences) events⟩
  exact forall_mem_runImage sane_step (fun s e h _ => nulFree_lifecycleEvents s e h)
    (sane_start preferences) (atEachStep_of_forall (fun _ => hnul) _)

/-- Without NUL the lifecycle keeps a complete configuration. -/
theorem lifecycle_keeps {l : Lifecycle.State} (hsound : Lifecycle.Sound l)
    (hclean : Lifecycle.Clean l) (hcommissioned : Lifecycle.Commissioned l)
    {events : List Lifecycle.Event} (hnul : ∀ e ∈ events, Lifecycle.NulFree e) :
    Lifecycle.Commissioned (run Lifecycle.step l events) := by
  have hkept := run_invariant
    (I := fun l => Lifecycle.Sound l ∧ Lifecycle.Clean l ∧ Lifecycle.Commissioned l)
    (A := fun _ e => Lifecycle.NulFree e)
    (fun l e h he => ⟨Lifecycle.sound_step l e h.1, Lifecycle.clean_step l e h.2.1 he,
      h.2.2.of_effect h.1 h.2.1 (Lifecycle.step_effect l e)⟩)
    ⟨hsound, hclean, hcommissioned⟩ (atEachStep_of_forall (fun _ => hnul) l)
  exact hkept.2.2

/-- Whatever is done, by bytes without NUL, button levels and requests, amounts to a run of the
lifecycle. Once the stored configuration is complete it is so after all that follows, and no
boot needs commissioning. -/
theorem commissioned_for_good (preferences : Preferences) (earlier later : List Event)
    (hnul : ∀ e ∈ earlier ++ later, NulFree e) :
    let s := run step (start preferences) earlier
    let s' := run step s later
    (∃ image, (∀ e ∈ image, Lifecycle.NulFree e) ∧
        Mirrors s' (run Lifecycle.step (Lifecycle.start preferences) image)) ∧
      ((NvsConfigStore.load s.console.stored).isComplete →
        (NvsConfigStore.load s'.console.stored).isComplete ∧
          (step s' .powerUp).mode ≠ some .needsCommissioning) := by
  intro s s'
  have hs' : s' = run step (start preferences) (earlier ++ later) := (run_append _ _ _ _).symm
  obtain ⟨himage, hmirrors'⟩ := mirrors_run preferences hnul
  obtain ⟨hbefore, hmirrors⟩ := mirrors_run preferences
    (fun e he => hnul e (List.mem_append_left later he))
  rw [← hs'] at hmirrors'
  refine ⟨⟨_, himage, hmirrors'⟩, fun hcomplete => ?_⟩
  rw [runImage_append] at himage hmirrors'
  rw [run_append] at hmirrors'
  have hsound := run_invariant_of_step Lifecycle.sound_step (Lifecycle.sound_start preferences)
    (runImage step lifecycleEvents (start preferences) earlier)
  have hclean := run_invariant Lifecycle.clean_step (s := Lifecycle.start preferences)
    Lifecycle.clean_initial (atEachStep_of_forall (fun _ => hbefore) _)
  have hcommissioned := lifecycle_keeps hsound hclean
    (by rwa [Lifecycle.Commissioned, hmirrors.preferences])
    (fun e he => himage e (List.mem_append_right _ he))
  rw [Lifecycle.Commissioned, hmirrors'.preferences] at hcommissioned
  refine ⟨hcommissioned, fun hneeds => ?_⟩
  have hselected := selectBootMode_eq_needsCommissioning_iff.mp (Option.some.inj hneeds)
  exact hselected.2 hcommissioned

/-- A board is commissioned by bytes that come in pieces, the last of them with the line end. -/
def atTheBench : List Event :=
  [.powerUp, .typed "set-ssid home\r\nset-pass".toList, .loop false [] none,
    .typed "word secret\nset-jmri-host 192.168.1.13\n".toList, .loop false [] none,
    .loop false [] none, .typed "set-jmri-port 1234\nsave".toList, .loop false [] none,
    .loop false [] none, .typed "\n".toList, .loop false [] none]

def onTheLayout : List Event :=
  [.crash, .powerUp, .loop true [] none, .tick 4000, .loop false [] none, .tick 60,
    .loop false [] none, .powerUp, .loop false [] (some ⟨.post, "/".toList, []⟩)]

theorem commissioned_for_good_onTheLayout :
    (NvsConfigStore.load (run step (run step (start {}) atTheBench)
      onTheLayout).console.stored).isComplete := by
  have hnul : ∀ e ∈ atTheBench ++ onTheLayout, NulFree e := by decide
  exact ((commissioned_for_good {} atTheBench onTheLayout hnul).2 (by decide +kernel)).1

end Firmware
end Loco2Mqtt
