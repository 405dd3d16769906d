import Loco2Mqtt.Commissioning.LongPress
import Loco2Mqtt.Commissioning.PortNumbers

/-! What brings a device down. Of all that the button, the console, the bus and the setup page
can bring, a pass of the loop ends in a restart for three reasons only: the settled release of a
press that the counter's readings tell to be long, a form that is complete, and a port of digits
that no `unsigned long` holds. -/

namespace Loco2Mqtt.Firmware

open PortNumbers Runs Simulations
open CaptivePortalServer (Request)
open ConsoleLines (answer conclude)
open LineAssembler (linesOf)
open SetupButton (LooksFiring)

/-! ### The console -/

/-- The line that the console answers next, of all those typed since the boot. -/
def lineToAnswer (s : State) : Option Text := (linesOf s.typed)[s.console.replies.length]?

/-- The adapter lets the line through to the port command, and its argument overflows. -/
def ThrowsAtPort (line : Text) : Prop :=
  line.length ≤ SerialCommissioningAdapter.kMaxLineLength ∧
    verbOf line = "set-jmri-port".toList ∧ Overflows (argumentOf line)

theorem answer_throws_iff (stored : Preferences) (session : CommissioningSession) (line : Text) :
    (∃ error, answer NvsConfigStore stored session line = .error error) ↔ ThrowsAtPort line := by
  rw [ThrowsAtPort, answer]
  split_ifs with hlong
  · refine iff_of_false ?_ (fun h => absurd h.1 (Nat.not_le.mpr hlong))
    rintro ⟨_, ⟨⟩⟩
  rw [and_iff_right (Nat.not_lt.mp hlong), ← not_iff_not (b := _ ∧ _),
    ← parseCommandLine_returns_iff]
  rcases hparse : parseCommandLine line with error | command
  · refine iff_of_false (fun h => h ⟨error, rfl⟩) ?_
    rintro ⟨_, ⟨⟩⟩
  · obtain ⟨reply, happly⟩ := CommissioningSession.apply_of_acceptable NvsConfigStore stored session
      (parseCommandLine_spec hparse).1
    refine iff_of_true ?_ ⟨command, rfl⟩
    rw [Except.bind, happly]
    rintro ⟨_, ⟨⟩⟩

theorem crashed_conclude_iff {s : ConsoleLines.State Preferences} (hrunning : s.crashed = false)
    (result : Except StdException (Text × CommissioningSession × Preferences)) :
    (conclude s result).crashed = true ↔ ∃ error, result = .error error := by
  rcases result with error | ⟨reply, session, stored⟩
  · exact iff_of_true rfl ⟨error, rfl⟩
  · exact iff_of_false (by simp [conclude, hrunning]) (by simp)

theorem updateConsole_down_iff {s : State} (hheard : Heard s) (hrunning : s.console.crashed = false)
    (hup : s.mode.isSome) :
    (updateConsole s).mode = none ↔ ∃ line ∈ lineToAnswer s, ThrowsAtPort line := by
  obtain ⟨available, assembler, hstep, -⟩ :=
    ConsoleLines.update_answered NvsConfigStore (hheard hrunning) hrunning
  have hmode : (updateConsole s).mode = none ↔
      (ConsoleLines.step NvsConfigStore s.console .update).crashed = true := by
    simp only [updateConsole]
    split_ifs with hcrashed
    · exact iff_of_true rfl hcrashed
    · exact iff_of_false (Option.isSome_iff_ne_none.mp hup) hcrashed
  rw [hmode, hstep]
  rcases hline : lineToAnswer s with _ | line <;> rw [lineToAnswer] at hline <;> rw [hline]
  · exact iff_of_false (by simp [hrunning]) (by simp)
  · simp only [Option.mem_some_iff, exists_eq_left']
    rw [crashed_conclude_iff (by exact hrunning)]
    exact answer_throws_iff s.console.stored s.console.session line

/-! ### The form -/

theorem wouldAccept_iff_isPort {ssid password jmriHost jmriPort : Text} :
    WebFormCommissioningAdapter.wouldAccept ssid password jmriHost jmriPort = .ok true ↔
      ssid ≠ [] ∧ password ≠ [] ∧ jmriHost ≠ [] ∧ ∃ n, IsPort jmriPort n := by
  rw [WebFormCommissioningAdapter.wouldAccept_eq_true_iff]
  constructor
  · rintro ⟨port, hport, hcomplete⟩
    obtain ⟨hssid, hpassword, hhost, -⟩ := LocoNetAdapterConfig.isComplete_iff.mp hcomplete
    obtain ⟨result, hresult, hiff⟩ :=
      readAsPort_of_not_overflows (parseNetworkPort_returns_iff.mp ⟨_, hport⟩)
    obtain rfl := Except.ok.inj (hport.symm.trans hresult)
    exact ⟨hssid, hpassword, hhost, port.toNat, (hiff _).mp rfl⟩
  · rintro ⟨hssid, hpassword, hhost, n, hn⟩
    have hfits : ¬ Overflows jmriPort := by
      rintro ⟨-, hlarge⟩
      obtain ⟨-, -, rfl, -, hhigh⟩ := hn
      have hmax : 65535 ≤ unsignedLongMax := by decide
      omega
    obtain ⟨result, hresult, hiff⟩ := readAsPort_of_not_overflows hfits
    obtain ⟨port, rfl, -⟩ := Option.map_eq_some_iff.mp ((hiff n).mpr hn)
    have hnonzero := (parseNetworkPort_eq_some hresult).2.2
    exact ⟨port, hresult, LocoNetAdapterConfig.isComplete_iff.mpr
      ⟨hssid, hpassword, hhost, hnonzero⟩⟩

/-- The request submits a form that is complete, or whose port overflows. -/
def Restarts (request : Request) : Prop :=
  let port := cStr (request.arg "jmri_port")
  request.uri = "/".toList ∧ request.method = .post ∧
    (Overflows port ∨ cStr (request.arg "ssid") ≠ [] ∧ cStr (request.arg "password") ≠ [] ∧
      cStr (request.arg "jmri_host") ≠ [] ∧ ∃ n, IsPort port n)

theorem handleSubmit_restarts_iff (stored : Preferences) (ssid password jmriHost jmriPort : Text) :
    ((∃ error, CaptivePortalServer.handleSubmit NvsConfigStore stored ssid password jmriHost
        jmriPort = .error error) ∨
      ∃ page stored', CaptivePortalServer.handleSubmit NvsConfigStore stored ssid password jmriHost
        jmriPort = .ok (page, stored', true)) ↔
      Overflows (cStr jmriPort) ∨
        WebFormCommissioningAdapter.wouldAccept (cStr ssid) (cStr password) (cStr jmriHost)
          (cStr jmriPort) = .ok true := by
  have hreturns : (∃ accepted, WebFormCommissioningAdapter.wouldAccept (cStr ssid) (cStr password)
      (cStr jmriHost) (cStr jmriPort) = .ok accepted) ↔ ¬ Overflows (cStr jmriPort) :=
    wouldAccept_returns_iff
  unfold CaptivePortalServer.handleSubmit
  rcases haccept : WebFormCommissioningAdapter.wouldAccept (cStr ssid) (cStr password)
    (cStr jmriHost) (cStr jmriPort) with error | _ | _ <;> rw [haccept] at hreturns
  · refine iff_of_true (Or.inl ⟨error, rfl⟩) (Or.inl ?_)
    exact not_not.mp (fun h => by obtain ⟨_, hok⟩ := hreturns.mpr h; cases hok)
  · have hfits := hreturns.mp ⟨false, rfl⟩
    exact iff_of_false (by simp [Except.bind]) (by simp [hfits])
  · obtain ⟨port, hport, -⟩ := WebFormCommissioningAdapter.wouldAccept_eq_true_iff.mp haccept
    refine iff_of_true (Or.inr ?_) (Or.inr rfl)
    simp [Except.bind, Except.map, WebFormCommissioningAdapter.handleSubmission, haccept, hport]

theorem servePortal_down_iff {s : State} (hup : s.mode.isSome) (request : Request) :
    (servePortal s request).mode = none ↔ Restarts request := by
  have hmode : (servePortal s request).mode = none ↔
      ((∃ error, CaptivePortalServer.handleClient NvsConfigStore s.console.stored request =
          .error error) ∨
        ∃ page stored, CaptivePortalServer.handleClient NvsConfigStore s.console.stored request =
          .ok (page, stored, true)) := by
    unfold servePortal
    rcases CaptivePortalServer.handleClient NvsConfigStore s.console.stored request with
      error | ⟨page, stored, _ | _⟩
    · simp
    · simpa using Option.isSome_iff_ne_none.mp hup
    · simp
  rw [hmode, Restarts, ← wouldAccept_iff_isPort, CaptivePortalServer.handleClient]
  by_cases hget : request.uri = "/".toList ∧ request.method = .get
  · simp [hget.2]
  by_cases hpost : request.uri = "/".toList ∧ request.method = .post
  · rw [if_neg hget, if_pos hpost, handleSubmit_restarts_iff, ← and_assoc, and_iff_right hpost]
  · rw [if_neg hget, if_neg hpost, ← and_assoc]
    exact iff_of_false (by simp) (fun h => hpost h.1)

/-! ### Going down -/

/-- What brings down a device that is up: apart from a crash, in any mode but wireless setup the
release of a press that is long by the readings of the counter, at the bench a port on the
console, and in wireless setup a form. -/
def BringsDown (s : State) : Event → Prop
  | .powerUp | .tick _ | .typed _ => False
  | .loop active _ request =>
    (s.mode ≠ some .wirelessSetup ∧
        LooksFiring (pollAt (s.polls ++ [⟨active, s.now⟩])) s.polls.length) ∨
      (s.mode = some .needsCommissioning ∧ ∃ line ∈ lineToAnswer s, ThrowsAtPort line) ∨
      (s.mode = some .wirelessSetup ∧ ∃ r ∈ request, Restarts r)
  | .crash => True

/-- A poll triggers as the polls since the boot say. -/
theorem poll_looksFiring_iff {s : State} (h : Follows s) (active : Bool) :
    (poll s active).2 = true ↔
      LooksFiring (pollAt (s.polls ++ [⟨active, s.now⟩])) s.polls.length :=
  (h.poll active).2.trans (SetupButton.returns_iff_looksFiring id () _ _)

theorem loop_down_iff {s : State} (hfollows : Follows s) (hheard : Heard s)
    (hrunning : s.mode.isSome → s.console.crashed = false) (hup : s.mode.isSome) {active : Bool}
    {received : List LocoNetMessage} {request : Option Request} {after : State}
    (hpass : Pass s active received request after) :
    after.mode = none ↔ BringsDown s (.loop active received request) := by
  cases hpass with
  | down hmode =>
    rw [hmode] at hup
    cases hup
  | idle hmode => simp [BringsDown, hmode]
  | served hmode request =>
    rw [servePortal_down_iff hup]
    simp [BringsDown, hmode]
  | triggered hmode htriggered =>
    have hfires := (poll_looksFiring_iff hfollows active).mp htriggered
    refine iff_of_true rfl (Or.inl ⟨?_, hfires⟩)
    rcases hmode with hmode | hmode <;> rw [hmode] <;> decide
  | operated hmode htriggered =>
    have hquiet := mt (poll_looksFiring_iff hfollows active).mpr (Bool.eq_false_iff.mp htriggered)
    simp [BringsDown, hmode, hquiet, record, poll]
  | commissioned hmode htriggered =>
    have hquiet := mt (poll_looksFiring_iff hfollows active).mpr (Bool.eq_false_iff.mp htriggered)
    have hconsole := poll_console_of_quiet htriggered
    have hline : lineToAnswer (record (poll s active).1 received) = lineToAnswer s := by
      rw [lineToAnswer, record, hconsole]
      rfl
    have hbusy : (record (poll s active).1 received).console.crashed = false := by
      rw [record, hconsole]
      exact hrunning hup
    have hlistened : Heard (record (poll s active).1 received) := hheard.poll active
    rw [updateConsole_down_iff hlistened hbusy hup, hline]
    simp [BringsDown, hmode, hquiet]

/-- Whatever the flash held at first and whatever has happened since, an event brings down a
device that is up exactly if it is a crash, or a pass that finds one of the three reasons. Nothing
else that is typed, pressed, requested or received does. -/
theorem goes_down_iff (preferences : Preferences) (events : List Event) (e : Event) :
    let s := run step (start preferences) events
    s.mode.isSome → ((step s e).mode = none ↔ BringsDown s e) := by
  intro s hup
  have hfollows : Follows s := run_invariant_of_step follows_step (follows_of_no_polls rfl rfl)
    events
  have hheard : Heard s := run_invariant_of_step heard_step (heard_start preferences) events
  have hmirrors := run_related mirrors_step (mirrors_start preferences) events
  have hsome := Option.isSome_iff_ne_none.mp hup
  cases e with
  | powerUp => exact iff_of_false (by simp [step, setup]) id
  | tick => exact iff_of_false hsome id
  | typed chunk =>
    refine iff_of_false ?_ id
    rw [step, if_pos hup]
    exact hsome
  | loop active received request =>
    exact loop_down_iff hfollows hheard hmirrors.running hup (pass_loop s active received request)
  | crash => exact iff_of_true rfl trivial

/-- A port that no `unsigned long` holds has been typed. -/
def largePort : List Event :=
  [.powerUp, .typed "set-jmri-port 42949".toList, .loop false [] none, .typed "67296\r\n".toList]

theorem goes_down_iff_largePort :
    (step (run step (start {}) largePort) (.loop false [] none)).mode = none := by
  have hline : lineToAnswer (run step (start {}) largePort) =
      some "set-jmri-port 4294967296".toList := by decide +kernel
  exact (goes_down_iff {} largePort (.loop false [] none) (by decide +kernel)).mpr
    (Or.inr (Or.inl ⟨by decide +kernel, _, hline, by decide, by decide, by decide, by decide⟩))

end Loco2Mqtt.Firmware
