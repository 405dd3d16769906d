import Loco2Mqtt.Domain.Commissioning

/-! `CommissioningSession` over any `ConfigStore`. The commands of the console collect a
configuration that starts empty, and only `save` hands it to the store. A command that
comes from the parser is always carried out, and never makes a complete one incomplete. -/

namespace Loco2Mqtt

universe u

/-- The port: what is loaded from, and saved into, whatever the store keeps. -/
structure ConfigStore (σ : Type u) where
  load : σ → LocoNetAdapterConfig
  save : σ → LocoNetAdapterConfig → σ

structure CommissioningSession where
  pending : LocoNetAdapterConfig
  deriving DecidableEq, Repr

namespace CommissioningSession

variable {σ : Type u} (store : ConfigStore σ)

/-- The constructor leaves `pending_` at its default, whatever the store holds. -/
def initial : CommissioningSession := ⟨{}⟩

def applySetSsid (session : CommissioningSession) (value : Text) : Text × CommissioningSession :=
  ("OK".toList, ⟨session.pending.withWifiSsid value⟩)

def applySetPassword (session : CommissioningSession) (value : Text) :
    Text × CommissioningSession :=
  ("OK".toList, ⟨session.pending.withWifiPassword value⟩)

def applySetJmriHost (session : CommissioningSession) (value : Text) :
    Text × CommissioningSession :=
  ("OK".toList, ⟨session.pending.withJmriHost value⟩)

def applySetJmriPort (session : CommissioningSession) (value : Text) :
    Except StdException (Text × CommissioningSession) :=
  (stoul value).map fun port =>
    ("OK".toList, ⟨session.pending.withJmriPort (UInt16.ofNat port)⟩)

def applyShow (session : CommissioningSession) : Text :=
  let passwordState := if session.pending.wifiPassword = [] then "unset".toList else "set".toList
  let portState := if session.pending.jmriPort = 0 then "unset".toList
    else Decimal.print session.pending.jmriPort.toNat
  "ssid=".toList ++ session.pending.wifiSsid ++ " password=".toList ++ passwordState ++
    " jmri_host=".toList ++ session.pending.jmriHost ++ " jmri_port=".toList ++ portState

def applySave (stored : σ) (session : CommissioningSession) : Text × σ :=
  ("SAVED".toList, store.save stored session.pending)

/-- The reply, the session and the store after a command. -/
def apply (stored : σ) (session : CommissioningSession) (command : ParsedCommand) :
    Except StdException (Text × CommissioningSession × σ) :=
  match command.type with
  | .setSsid =>
    let (reply, session) := session.applySetSsid command.value
    .ok (reply, session, stored)
  | .setPassword =>
    let (reply, session) := session.applySetPassword command.value
    .ok (reply, session, stored)
  | .setJmriHost =>
    let (reply, session) := session.applySetJmriHost command.value
    .ok (reply, session, stored)
  | .setJmriPort =>
    (session.applySetJmriPort command.value).map fun (reply, session) => (reply, session, stored)
  | .show => .ok (session.applyShow, session, stored)
  | .save =>
    let (reply, stored) := applySave store stored session
    .ok (reply, session, stored)
  | .unknown => .ok ("ERR unknown command".toList, session, stored)

/-! ### What a parsed command does -/

/-- The pending configuration after a command whose value is acceptable. -/
def accept (pending : LocoNetAdapterConfig) (command : ParsedCommand) : LocoNetAdapterConfig :=
  match command.type with
  | .setSsid => pending.withWifiSsid command.value
  | .setPassword => pending.withWifiPassword command.value
  | .setJmriHost => pending.withJmriHost command.value
  | .setJmriPort => pending.withJmriPort (UInt16.ofNat (Decimal.value command.value))
  | .show | .save | .unknown => pending

theorem apply_of_acceptable (stored : σ) (session : CommissioningSession)
    {command : ParsedCommand} (hcommand : command.Acceptable) :
    ∃ reply, apply store stored session command =
      .ok (reply, ⟨accept session.pending command⟩,
        if command.type = .save then store.save stored session.pending else stored) := by
  rcases command with ⟨type, value⟩
  cases type with
  | setJmriPort =>
    obtain ⟨port, hport⟩ := hcommand
    have hstoul := (parseNetworkPort_eq_some hport).1
    refine ⟨"OK".toList, ?_⟩
    simp only at hstoul
    simp only [apply, applySetJmriPort, hstoul]
    rfl
  | _ => exact ⟨_, rfl⟩

/-- A complete configuration stays complete. -/
theorem accept_isComplete {pending : LocoNetAdapterConfig} {command : ParsedCommand}
    (hcommand : command.Acceptable) (h : pending.isComplete) :
    (accept pending command).isComplete := by
  obtain ⟨hssid, hpassword, hhost, hport⟩ := LocoNetAdapterConfig.isComplete_iff.mp h
  rw [LocoNetAdapterConfig.isComplete_iff]
  rcases command with ⟨type, value⟩
  cases type with
  | setSsid => exact ⟨hcommand, hpassword, hhost, hport⟩
  | setPassword => exact ⟨hssid, hcommand, hhost, hport⟩
  | setJmriHost => exact ⟨hssid, hpassword, hcommand, hport⟩
  | setJmriPort =>
    obtain ⟨port, hparse⟩ := hcommand
    obtain ⟨-, rfl, hne⟩ := parseNetworkPort_eq_some hparse
    exact ⟨hssid, hpassword, hhost, hne⟩
  | «show» | save | unknown => exact ⟨hssid, hpassword, hhost, hport⟩

theorem accept_nulFree {pending : LocoNetAdapterConfig} {command : ParsedCommand}
    (hcommand : '\x00' ∉ command.value) (h : pending.NulFree) :
    (accept pending command).NulFree := by
  obtain ⟨hssid, hpassword, hhost⟩ := h
  rcases command with ⟨type, value⟩
  cases type with
  | setSsid => exact ⟨hcommand, hpassword, hhost⟩
  | setPassword => exact ⟨hssid, hcommand, hhost⟩
  | setJmriHost => exact ⟨hssid, hpassword, hcommand⟩
  | setJmriPort | «show» | save | unknown => exact ⟨hssid, hpassword, hhost⟩

end CommissioningSession
end Loco2Mqtt
