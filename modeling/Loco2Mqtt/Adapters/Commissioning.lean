import Loco2Mqtt.Application.CommissioningSession
import Loco2Mqtt.Domain.LineAssembler
import Loco2Mqtt.Domain.SetupForm
import Loco2Mqtt.Foundations.Transcripts

/-! The two front doors, `SerialCommissioningAdapter` behind `EspUartPort` and
`WebFormCommissioningAdapter` behind `CaptivePortalServer`, and what they write to: the
namespace `loco2mqtt` of `Preferences`, which holds the configuration and the request for
wireless setup. -/

namespace Loco2Mqtt

universe u

variable {σ : Type u} (store : ConfigStore σ)

/-! ### The console -/

namespace EspUartPort

open LineAssembler Lines

def kMaxBufferedBytes : ℕ := 256

def initial : LineAssembler := ⟨[], kMaxBufferedBytes, '\n'⟩

/-- The lines that `readLine` returns, one call after another, until the bytes are used up. -/
def readLines (assembler : LineAssembler) : Text → List Text
  | [] => []
  | c :: rest =>
    match assembler.feed c with
    | (some line, assembler) => line :: readLines assembler rest
    | (none, assembler) => readLines assembler rest

theorem readLines_during (cap : ℕ) (t : Char) (current bytes : Text) :
    readLines (during cap t current) bytes =
      (segmentsFrom t current bytes).1.map (lineOf cap t) := by
  induction bytes generalizing current with
  | nil => rfl
  | cons c rest ih =>
    rw [readLines, segmentsFrom]
    by_cases hc : c = t
    · subst hc
      simp only [feed_terminator, if_true, ih, List.map_cons]
    · simp only [feed_other cap hc, if_neg hc, ih]

/-- Lines that fit the buffer and have no carriage return are read as they were sent. -/
theorem readLines_bodies {bodies : List Text} (hline : ∀ body ∈ bodies, '\n' ∉ body ∧ '\r' ∉ body)
    (hfit : ∀ body ∈ bodies, body.length ≤ kMaxBufferedBytes) :
    readLines initial (bodies.flatMap (· ++ ['\n'])) = bodies := by
  have hread := readLines_during kMaxBufferedBytes '\n' [] (bodies.flatMap (· ++ ['\n']))
  rw [← segments, segments_bodies (fun body hbody => (hline body hbody).1)] at hread
  have hkept : bodies.map (lineOf kMaxBufferedBytes '\n') = bodies.map id := by
    refine List.map_congr_left (fun body hbody => ?_)
    have hwhole := lineOf_fitting (hfit body hbody) (hline body hbody).2 false
    rwa [if_neg Bool.false_ne_true, List.append_nil] at hwhole
  rw [hkept, List.map_id] at hread
  exact hread

end EspUartPort

namespace SerialCommissioningAdapter

def kMaxLineLength : ℕ := 128

def parseLine (line : Text) : Except StdException ParsedCommand :=
  if line.length > kMaxLineLength then .ok ⟨.unknown, line⟩ else parseCommandLine line

/-- `update` when the console has a line: the reply, the session and the store after it. -/
def update (stored : σ) (session : CommissioningSession) (line : Text) :
    Except StdException (Text × CommissioningSession × σ) :=
  (parseLine line).bind (CommissioningSession.apply store stored session)

theorem parseLine_spec {line : Text} {command : ParsedCommand}
    (h : parseLine line = .ok command) :
    command.Acceptable ∧ ∀ c ∈ command.value, c ∈ line := by
  unfold parseLine at h
  split_ifs at h
  · obtain rfl := Except.ok.inj h
    exact ⟨trivial, fun c hc => hc⟩
  · exact parseCommandLine_spec h

/-- `update` for one line after another: the replies written, and how it ends, which is with
the session and the store or with an exception. -/
def serve (stored : σ) (session : CommissioningSession) (lines : List Text) :
    List Text × Except StdException (CommissioningSession × σ) :=
  Transcripts.transcript (fun (session, stored) line => update store stored session line)
    (session, stored) lines

/-- A line either throws in the parser or has its command carried out. -/
theorem update_cases (stored : σ) (session : CommissioningSession) (line : Text) :
    (∃ error, parseLine line = .error error ∧ update store stored session line = .error error) ∨
    ∃ command reply, parseLine line = .ok command ∧ update store stored session line =
      .ok (reply, ⟨CommissioningSession.accept session.pending command⟩,
        if command.type = .save then store.save stored session.pending else stored) := by
  unfold update
  rcases hparse : parseLine line with error | command
  · exact Or.inl ⟨error, rfl, rfl⟩
  · obtain ⟨reply, happly⟩ :=
      CommissioningSession.apply_of_acceptable store stored session (parseLine_spec hparse).1
    exact Or.inr ⟨command, reply, rfl, happly⟩

end SerialCommissioningAdapter

/-! ### The setup form -/

namespace WebFormCommissioningAdapter

def renderPage (stored : σ) : Text := SetupFormRenderer.renderSetupForm (store.load stored)

def wouldAccept (ssid password jmriHost jmriPort : Text) : Except StdException Bool :=
  (parseNetworkPort jmriPort).map fun
    | none => false
    | some port => (LocoNetAdapterConfig.mk ssid password jmriHost port).isComplete

/-- The store after a submission, and whether the device reboots. -/
def handleSubmission (stored : σ) (ssid password jmriHost jmriPort : Text) :
    Except StdException (σ × Bool) :=
  (wouldAccept ssid password jmriHost jmriPort).bind fun accepted =>
    if !accepted then .ok (stored, false)
    else (parseNetworkPort jmriPort).map fun port =>
      (store.save stored ⟨ssid, password, jmriHost, port.getD 0⟩, true)

theorem wouldAccept_eq_true_iff {ssid password jmriHost jmriPort : Text} :
    wouldAccept ssid password jmriHost jmriPort = .ok true ↔
      ∃ port, parseNetworkPort jmriPort = .ok (some port) ∧
        (LocoNetAdapterConfig.mk ssid password jmriHost port).isComplete := by
  unfold wouldAccept
  rcases parseNetworkPort jmriPort with error | _ | port <;> simp [Except.map]

/-- A submission throws, is refused, or saves a complete configuration and reboots. -/
theorem handleSubmission_cases (stored : σ) (ssid password jmriHost jmriPort : Text) :
    (∃ error, handleSubmission store stored ssid password jmriHost jmriPort = .error error) ∨
    handleSubmission store stored ssid password jmriHost jmriPort = .ok (stored, false) ∨
    ∃ port, (LocoNetAdapterConfig.mk ssid password jmriHost port).isComplete ∧
      handleSubmission store stored ssid password jmriHost jmriPort =
        .ok (store.save stored ⟨ssid, password, jmriHost, port⟩, true) := by
  unfold handleSubmission
  rcases haccept : wouldAccept ssid password jmriHost jmriPort with error | accepted
  · exact Or.inl ⟨error, rfl⟩
  · cases accepted with
    | false => exact Or.inr (Or.inl rfl)
    | true =>
      obtain ⟨port, hport, hcomplete⟩ := wouldAccept_eq_true_iff.mp haccept
      refine Or.inr (Or.inr ⟨port, hcomplete, ?_⟩)
      rw [hport]
      rfl

end WebFormCommissioningAdapter

namespace CaptivePortalServer

/-- `handleSubmit` on the form arguments: the page sent, the store, and whether the device
reboots. -/
def handleSubmit (stored : σ) (ssid password jmriHost jmriPort : Text) :
    Except StdException (Text × σ × Bool) :=
  (WebFormCommissioningAdapter.wouldAccept (cStr ssid) (cStr password) (cStr jmriHost)
    (cStr jmriPort)).bind fun accepted =>
      if !accepted then .ok ("Missing or invalid fields - not saved.".toList, stored, false)
      else (WebFormCommissioningAdapter.handleSubmission store stored (cStr ssid) (cStr password)
        (cStr jmriHost) (cStr jmriPort)).map fun outcome =>
          ("Saved. Rebooting...".toList, outcome)

/-- What reaches the store is complete and has no NUL in it. -/
theorem handleSubmit_cases (stored : σ) (ssid password jmriHost jmriPort : Text) :
    (∃ error, handleSubmit store stored ssid password jmriHost jmriPort = .error error) ∨
    (∃ page, handleSubmit store stored ssid password jmriHost jmriPort =
      .ok (page, stored, false)) ∨
    ∃ page config, config.isComplete ∧ config.NulFree ∧
      handleSubmit store stored ssid password jmriHost jmriPort =
        .ok (page, store.save stored config, true) := by
  unfold handleSubmit
  rcases haccept : WebFormCommissioningAdapter.wouldAccept (cStr ssid) (cStr password)
    (cStr jmriHost) (cStr jmriPort) with error | accepted
  · exact Or.inl ⟨error, rfl⟩
  cases accepted with
  | false => exact Or.inr (Or.inl ⟨_, rfl⟩)
  | true =>
    rcases WebFormCommissioningAdapter.handleSubmission_cases store stored (cStr ssid)
      (cStr password) (cStr jmriHost) (cStr jmriPort) with
        ⟨error, herror⟩ | hrefused | ⟨port, hcomplete, hsaved⟩
    · refine Or.inl ⟨error, ?_⟩
      rw [herror]
      rfl
    · refine Or.inr (Or.inl ⟨"Saved. Rebooting...".toList, ?_⟩)
      rw [hrefused]
      rfl
    · refine Or.inr (Or.inr ⟨"Saved. Rebooting...".toList, _, hcomplete, ?_, ?_⟩)
      · exact ⟨nul_not_mem_cStr _, nul_not_mem_cStr _, nul_not_mem_cStr _⟩
      · rw [hsaved]
        rfl

inductive HttpMethod where
  | get
  | post
  | other
  deriving DecidableEq, Repr

/-- A request as the web server has parsed it. -/
structure Request where
  method : HttpMethod
  uri : Text
  arguments : List (Text × Text)
  deriving DecidableEq, Repr

/-- The value of the first argument of that name. -/
def Request.arg (request : Request) (name : String) : Text :=
  (request.arguments.lookup name.toList).getD []

/-- The page sent. -/
def handleRoot (stored : σ) : Text := cStr (WebFormCommissioningAdapter.renderPage store stored)

/-- The routes that `begin` registers: the page, the store, and whether the device reboots. -/
def handleClient (stored : σ) (request : Request) : Except StdException (Text × σ × Bool) :=
  if request.uri = "/".toList ∧ request.method = .get then
    .ok (handleRoot store stored, stored, false)
  else if request.uri = "/".toList ∧ request.method = .post then
    handleSubmit store stored (request.arg "ssid") (request.arg "password")
      (request.arg "jmri_host") (request.arg "jmri_port")
  else .ok (handleRoot store stored, stored, false)

end CaptivePortalServer

/-! ### The flash -/

/-- The namespace `loco2mqtt`. A key that was never written reads as its default. -/
structure Preferences where
  ssid : Text := []
  password : Text := []
  jmri_host : Text := []
  jmri_port : UInt16 := 0
  setup_req : Bool := false
  deriving DecidableEq, Repr

/-- Strings go in and come out through `c_str()`. -/
def NvsConfigStore : ConfigStore Preferences where
  load preferences := ⟨cStr preferences.ssid, cStr preferences.password,
    cStr preferences.jmri_host, preferences.jmri_port⟩
  save preferences config := { preferences with
    ssid := cStr config.wifiSsid
    password := cStr config.wifiPassword
    jmri_host := cStr config.jmriHost
    jmri_port := config.jmriPort }

namespace NvsConfigStore

theorem load_save (preferences : Preferences) (config : LocoNetAdapterConfig) :
    NvsConfigStore.load (NvsConfigStore.save preferences config) =
      ⟨cStr config.wifiSsid, cStr config.wifiPassword, cStr config.jmriHost, config.jmriPort⟩ := by
  simp [NvsConfigStore]

/-- A configuration without NUL is kept as it is. -/
theorem load_save_of_nulFree (preferences : Preferences) {config : LocoNetAdapterConfig}
    (h : config.NulFree) :
    NvsConfigStore.load (NvsConfigStore.save preferences config) = config := by
  obtain ⟨hssid, hpassword, hhost⟩ := h
  rw [load_save, cStr_eq_self_iff.mpr hssid, cStr_eq_self_iff.mpr hpassword,
    cStr_eq_self_iff.mpr hhost]

end NvsConfigStore

namespace NvsSetupModeRequestStore

def request (preferences : Preferences) : Preferences := { preferences with setup_req := true }

def consumeIfRequested (preferences : Preferences) : Bool × Preferences :=
  (preferences.setup_req, { preferences with setup_req := false })

end NvsSetupModeRequestStore
end Loco2Mqtt
