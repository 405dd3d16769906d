import Loco2Mqtt.Foundations.StdString

/-! What commissioning is about: `LocoNetAdapterConfig`, the commands of the bench console
with their parser, the port numbers both front doors accept, and the mode a boot selects.
A command that is parsed carries a value that can be part of a complete configuration. -/

namespace Loco2Mqtt

structure LocoNetAdapterConfig where
  wifiSsid : Text := []
  wifiPassword : Text := []
  jmriHost : Text := []
  jmriPort : UInt16 := 0
  deriving DecidableEq, Repr

namespace LocoNetAdapterConfig

def isComplete (config : LocoNetAdapterConfig) : Bool :=
  !config.wifiSsid.isEmpty && !config.wifiPassword.isEmpty && !config.jmriHost.isEmpty &&
    config.jmriPort ≠ 0

def withWifiSsid (config : LocoNetAdapterConfig) (value : Text) : LocoNetAdapterConfig :=
  ⟨value, config.wifiPassword, config.jmriHost, config.jmriPort⟩

def withWifiPassword (config : LocoNetAdapterConfig) (value : Text) : LocoNetAdapterConfig :=
  ⟨config.wifiSsid, value, config.jmriHost, config.jmriPort⟩

def withJmriHost (config : LocoNetAdapterConfig) (value : Text) : LocoNetAdapterConfig :=
  ⟨config.wifiSsid, config.wifiPassword, value, config.jmriPort⟩

def withJmriPort (config : LocoNetAdapterConfig) (value : UInt16) : LocoNetAdapterConfig :=
  ⟨config.wifiSsid, config.wifiPassword, config.jmriHost, value⟩

/-- None of the strings has a NUL in it. -/
def NulFree (config : LocoNetAdapterConfig) : Prop :=
  '\x00' ∉ config.wifiSsid ∧ '\x00' ∉ config.wifiPassword ∧ '\x00' ∉ config.jmriHost

theorem isComplete_iff {config : LocoNetAdapterConfig} :
    config.isComplete ↔ config.wifiSsid ≠ [] ∧ config.wifiPassword ≠ [] ∧
      config.jmriHost ≠ [] ∧ config.jmriPort ≠ 0 := by
  simp [isComplete, and_assoc]

end LocoNetAdapterConfig

/-! ### The mode of a boot -/

inductive BootMode where
  | normal
  | needsCommissioning
  | wirelessSetup
  deriving DecidableEq, Repr

def selectBootMode (config : LocoNetAdapterConfig) (setupModeRequested : Bool) : BootMode :=
  if setupModeRequested then .wirelessSetup
  else if !config.isComplete then .needsCommissioning
  else .normal

theorem selectBootMode_eq_wirelessSetup_iff {config : LocoNetAdapterConfig}
    {setupModeRequested : Bool} :
    selectBootMode config setupModeRequested = .wirelessSetup ↔ setupModeRequested := by
  unfold selectBootMode
  split_ifs <;> simp_all

theorem selectBootMode_eq_needsCommissioning_iff {config : LocoNetAdapterConfig}
    {setupModeRequested : Bool} :
    selectBootMode config setupModeRequested = .needsCommissioning ↔
      ¬ setupModeRequested ∧ ¬ config.isComplete := by
  unfold selectBootMode
  split_ifs <;> simp_all

/-! ### Port numbers -/

def isAllDigits (text : Text) : Bool := !text.isEmpty && text.all Char.isDigit

def parseNetworkPort (text : Text) : Except StdException (Option UInt16) :=
  if !isAllDigits text then .ok none
  else (stoul text).map fun value =>
    if value < 1 ∨ value > 65535 then none else some (UInt16.ofNat value)

theorem isAllDigits_iff {text : Text} :
    isAllDigits text ↔ text ≠ [] ∧ ∀ c ∈ text, c.isDigit := by
  simp [isAllDigits]

/-- The range is tested only once `stoul` has returned. -/
theorem parseNetworkPort_of_digits {text : Text} (h : isAllDigits text) :
    parseNetworkPort text =
      if unsignedLongMax < Decimal.value text then .error .outOfRange
      else .ok (if Decimal.value text < 1 ∨ Decimal.value text > 65535 then none
        else some (UInt16.ofNat (Decimal.value text))) := by
  obtain ⟨hne, hdigits⟩ := isAllDigits_iff.mp h
  rw [parseNetworkPort, h, Bool.not_true, if_neg Bool.false_ne_true, stoul_of_digits hne hdigits]
  split_ifs <;> simp_all [Except.map]

theorem parseNetworkPort_of_not_digits {text : Text} (h : ¬ isAllDigits text) :
    parseNetworkPort text = .ok none := by
  simp [parseNetworkPort, h]

/-- What an accepted port is, and that reading it again cannot throw. -/
theorem parseNetworkPort_eq_some {text : Text} {port : UInt16}
    (h : parseNetworkPort text = .ok (some port)) :
    stoul text = .ok (Decimal.value text) ∧ port = UInt16.ofNat (Decimal.value text) ∧
      port ≠ 0 := by
  by_cases hshape : isAllDigits text
  · obtain ⟨hne, hdigits⟩ := isAllDigits_iff.mp hshape
    rw [parseNetworkPort_of_digits hshape] at h
    split_ifs at h with hlarge hrange
    · cases h
    · obtain rfl := Option.some.inj (Except.ok.inj h)
      refine ⟨by rw [stoul_of_digits hne hdigits, if_neg hlarge], rfl, fun hzero => ?_⟩
      have hvalue := congrArg UInt16.toNat hzero
      simp only [UInt16.toNat_ofNat', UInt16.toNat_zero] at hvalue
      omega
  · rw [parseNetworkPort_of_not_digits hshape] at h
    cases h

/-! ### Commands -/

inductive CommandType where
  | setSsid
  | setPassword
  | setJmriHost
  | setJmriPort
  | «show»
  | save
  | unknown
  deriving DecidableEq, Repr

structure ParsedCommand where
  type : CommandType
  value : Text
  deriving DecidableEq, Repr

def verbOf (line : Text) : Text := line.takeWhile (· ≠ ' ')

/-- What follows the first space. -/
def argumentOf (line : Text) : Text := (line.dropWhile (· ≠ ' ')).tail

def parseCommandLine (line : Text) : Except StdException ParsedCommand :=
  let verb := verbOf line
  let argument := argumentOf line
  if verb = "set-ssid".toList ∧ argument ≠ [] then .ok ⟨.setSsid, argument⟩
  else if verb = "set-password".toList ∧ argument ≠ [] then .ok ⟨.setPassword, argument⟩
  else if verb = "set-jmri-host".toList ∧ argument ≠ [] then .ok ⟨.setJmriHost, argument⟩
  else if verb = "set-jmri-port".toList then
    (parseNetworkPort argument).map fun port =>
      if port.isSome then ⟨.setJmriPort, argument⟩ else ⟨.unknown, line⟩
  else if verb = "show".toList ∧ argument = [] then .ok ⟨.show, []⟩
  else if verb = "save".toList ∧ argument = [] then .ok ⟨.save, []⟩
  else .ok ⟨.unknown, line⟩

/-- The value of a set command is not empty, and a port is a port. -/
def ParsedCommand.Acceptable (command : ParsedCommand) : Prop :=
  match command.type with
  | .setSsid | .setPassword | .setJmriHost => command.value ≠ []
  | .setJmriPort => ∃ port, parseNetworkPort command.value = .ok (some port)
  | .show | .save | .unknown => True

theorem mem_of_mem_argumentOf {line : Text} {c : Char} (h : c ∈ argumentOf line) : c ∈ line :=
  (List.dropWhile_sublist _).mem (List.mem_of_mem_tail h)

theorem verbOf_append {verb : Text} (h : ' ' ∉ verb) (argument : Text) :
    verbOf (verb ++ ' ' :: argument) = verb := by
  have hpass : ∀ c ∈ verb, decide (c ≠ ' ') = true := fun c hc =>
    decide_eq_true (fun heq => h (heq ▸ hc))
  rw [verbOf, List.takeWhile_append_of_pos hpass, List.takeWhile_cons_of_neg (by decide),
    List.append_nil]

/-- The first space ends the verb, whatever the argument holds. -/
theorem argumentOf_append {verb : Text} (h : ' ' ∉ verb) (argument : Text) :
    argumentOf (verb ++ ' ' :: argument) = argument := by
  have hpass : ∀ c ∈ verb, decide (c ≠ ' ') = true := fun c hc =>
    decide_eq_true (fun heq => h (heq ▸ hc))
  rw [argumentOf, List.dropWhile_append_of_pos hpass, List.dropWhile_cons_of_neg (by decide),
    List.tail_cons]

/-- What parsing a line can give. -/
theorem parseCommandLine_spec {line : Text} {command : ParsedCommand}
    (h : parseCommandLine line = .ok command) :
    command.Acceptable ∧ ∀ c ∈ command.value, c ∈ line := by
  have hargument : ∀ c ∈ argumentOf line, c ∈ line := fun c hc => mem_of_mem_argumentOf hc
  unfold parseCommandLine at h
  simp only at h
  split_ifs at h with hssid hpassword hhost hport hshow hsave
  · obtain rfl := Except.ok.inj h
    exact ⟨hssid.2, hargument⟩
  · obtain rfl := Except.ok.inj h
    exact ⟨hpassword.2, hargument⟩
  · obtain rfl := Except.ok.inj h
    exact ⟨hhost.2, hargument⟩
  · rcases hparse : parseNetworkPort (argumentOf line) with error | port
    · rw [hparse] at h
      cases h
    · rw [hparse] at h
      obtain rfl := Except.ok.inj h
      cases port with
      | none => exact ⟨trivial, fun c hc => hc⟩
      | some port => exact ⟨⟨port, hparse⟩, hargument⟩
  · obtain rfl := Except.ok.inj h
    exact ⟨trivial, fun c hc => absurd hc List.not_mem_nil⟩
  · obtain rfl := Except.ok.inj h
    exact ⟨trivial, fun c hc => absurd hc List.not_mem_nil⟩
  · obtain rfl := Except.ok.inj h
    exact ⟨trivial, fun c hc => hc⟩

end Loco2Mqtt
