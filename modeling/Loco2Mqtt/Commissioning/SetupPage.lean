import Loco2Mqtt.Adapters.Commissioning
import Loco2Mqtt.Foundations.Escaping

/-! The setup form as a browser reads it. The quotes of the page stand where the renderer put
them, whatever is stored, so each field shows the value that was escaped for it, and undoing
the entities gives the stored text back. Submitting what is shown saves what was stored. -/

namespace Loco2Mqtt.SetupPage

open SetupFormRenderer WebFormCommissioningAdapter Escaping

universe u

/-- The characters that are escaped, and their entities. -/
def entities : List (Char × Text) :=
  [('&', "&amp;".toList), ('"', "&quot;".toList), ('<', "&lt;".toList), ('>', "&gt;".toList)]

/-- Nothing in the value ends the attribute or begins a tag, and an ampersand only begins one
of the entities. -/
def Harmless (value : Text) : Prop :=
  '"' ∉ value ∧ '<' ∉ value ∧ '>' ∉ value ∧
    ∀ before after, value = before ++ '&' :: after →
      ∃ entity ∈ entities, entity.2.IsPrefix ('&' :: after)

/-- The quoted strings of a page that is split at its quotes, each behind what precedes it. -/
def quotations : List Text → List (Text × Text)
  | before :: quoted :: rest => (before, quoted) :: quotations rest
  | _ => []

/-- The attribute `value` of the input called `name`. -/
def fieldValue (name page : Text) : Option Text :=
  let field := (quotations (page.splitOn '"')).dropWhile
    (fun (before, quoted) => !("name=".toList.isSuffixOf before && quoted = name))
  (field.find? (fun (before, _) => before = " value=".toList)).map Prod.snd

/-! ### The entities -/

theorem escaped_eq_codeOf (c : Char) : escaped c = codeOf entities c := by
  simp only [escaped, codeOf, entities, List.find?_cons, List.find?_nil, eq_comm (b := c)]
  split_ifs with hamp hquot hlt hgt
  · simp [hamp]
  · simp [hquot]
  · simp [hlt]
  · simp [hgt]
  · simp [hamp, hquot, hlt, hgt]

theorem escapeHtmlAttribute_eq_encode (value : Text) :
    escapeHtmlAttribute value = encode entities value := by
  rw [escapeHtmlAttribute, encode, funext escaped_eq_codeOf]

theorem entities_readable : Readable '&' entities where
  escaped := by decide
  begins := by
    simp only [entities, List.forall_mem_cons]
    exact ⟨⟨_, rfl, by decide⟩, ⟨_, rfl, by decide⟩, ⟨_, rfl, by decide⟩, ⟨_, rfl, by decide⟩,
      fun _ hnone => absurd hnone List.not_mem_nil⟩
  prefixFree := by decide

theorem harmless_escapeHtmlAttribute (value : Text) : Harmless (escapeHtmlAttribute value) := by
  rw [escapeHtmlAttribute_eq_encode]
  refine ⟨?_, ?_, ?_, fun before after h => code_of_escape entities_readable h⟩
  · exact not_mem_encode (by decide) (by decide) value
  · exact not_mem_encode (by decide) (by decide) value
  · exact not_mem_encode (by decide) (by decide) value

theorem decode_escapeHtmlAttribute (value : Text) :
    decode entities (escapeHtmlAttribute value) = value := by
  rw [escapeHtmlAttribute_eq_encode, decode_encode entities_readable]

/-! ### The page between its quotes -/

def beforeSsid : List Text :=
  ["<html><body>".toList ++ ("<p>Loco2MQTT v".toList ++ (kFirmwareVersion ++ ("</p>".toList ++
    "<form method=".toList))), "POST".toList, " action=".toList, "/".toList,
    ">".toList ++ "SSID: <input name=".toList, "ssid".toList, " value=".toList]

def beforeJmriHost : List Text :=
  ["><br>".toList ++ "Password: <input name=".toList, "password".toList, " type=".toList,
    "password".toList, " value=".toList, [], "><br>".toList ++ "JMRI Host: <input name=".toList,
    "jmri_host".toList, " value=".toList]

def beforeJmriPort : List Text :=
  ["><br>".toList ++ "JMRI Port: <input name=".toList, "jmri_port".toList, " type=".toList,
    "number".toList, " min=".toList, "1".toList, " max=".toList, "65535".toList,
    " ".toList ++ "value=".toList]

def afterJmriPort : List Text :=
  ["><br>".toList ++ "<input type=".toList, "submit".toList, " value=".toList, "Save".toList,
    ">".toList ++ "</form></body></html>".toList]

def piecesOf (ssid jmriHost jmriPort : Text) : List Text :=
  beforeSsid ++ ssid :: (beforeJmriHost ++ jmriHost :: (beforeJmriPort ++ jmriPort ::
    afterJmriPort))

theorem renderSetupForm_eq_pieces (config : LocoNetAdapterConfig) :
    renderSetupForm config = ['"'].intercalate (piecesOf (escapeHtmlAttribute config.wifiSsid)
      (escapeHtmlAttribute config.jmriHost) (jmriPortFieldValue config)) := by
  have hform : "<form method=\"POST\" action=\"/\">".toList = ['"'].intercalate
      ["<form method=".toList, "POST".toList, " action=".toList, "/".toList, ">".toList] := by
    decide +kernel
  have hssid : "SSID: <input name=\"ssid\" value=\"".toList = ['"'].intercalate
      ["SSID: <input name=".toList, "ssid".toList, " value=".toList, []] := by decide +kernel
  have hclose : "\"><br>".toList = ['"'].intercalate [[], "><br>".toList] := by decide +kernel
  have hpassword : "Password: <input name=\"password\" type=\"password\" value=\"\"><br>".toList =
      ['"'].intercalate ["Password: <input name=".toList, "password".toList, " type=".toList,
        "password".toList, " value=".toList, [], "><br>".toList] := by decide +kernel
  have hhost : "JMRI Host: <input name=\"jmri_host\" value=\"".toList = ['"'].intercalate
      ["JMRI Host: <input name=".toList, "jmri_host".toList, " value=".toList, []] := by
    decide +kernel
  have hport :
      "JMRI Port: <input name=\"jmri_port\" type=\"number\" min=\"1\" max=\"65535\" ".toList =
      ['"'].intercalate ["JMRI Port: <input name=".toList, "jmri_port".toList, " type=".toList,
        "number".toList, " min=".toList, "1".toList, " max=".toList, "65535".toList,
        " ".toList] := by decide +kernel
  have hvalue : "value=\"".toList = ['"'].intercalate ["value=".toList, []] := by decide +kernel
  have hsubmit : "<input type=\"submit\" value=\"Save\">".toList = ['"'].intercalate
      ["<input type=".toList, "submit".toList, " value=".toList, "Save".toList, ">".toList] := by
    decide +kernel
  unfold renderSetupForm
  rw [hform, hssid, hclose, hpassword, hhost, hport, hvalue, hsubmit]
  simp only [piecesOf, beforeSsid, beforeJmriHost, beforeJmriPort, afterJmriPort,
    List.intercalate_cons_cons, List.intercalate_singleton, List.append_assoc, List.cons_append,
    List.nil_append, List.append_nil]

theorem splitOn_renderSetupForm (config : LocoNetAdapterConfig) :
    (renderSetupForm config).splitOn '"' = piecesOf (escapeHtmlAttribute config.wifiSsid)
      (escapeHtmlAttribute config.jmriHost) (jmriPortFieldValue config) := by
  rw [renderSetupForm_eq_pieces]
  refine List.splitOn_intercalate '"' ?_ (by simp [piecesOf, beforeSsid])
  simp only [piecesOf, List.forall_mem_append, List.forall_mem_cons]
  refine ⟨by decide +kernel, (harmless_escapeHtmlAttribute _).1, by decide +kernel,
    (harmless_escapeHtmlAttribute _).1, by decide +kernel, ?_, by decide +kernel⟩
  intro hmem
  rw [jmriPortFieldValue] at hmem
  split_ifs at hmem
  · cases hmem
  · exact absurd (Decimal.print_isDigit _ hmem) (by decide)

theorem fieldValue_ssid (config : LocoNetAdapterConfig) :
    fieldValue "ssid".toList (renderSetupForm config) =
      some (escapeHtmlAttribute config.wifiSsid) := by
  rw [fieldValue, splitOn_renderSetupForm]
  rfl

theorem fieldValue_jmriHost (config : LocoNetAdapterConfig) :
    fieldValue "jmri_host".toList (renderSetupForm config) =
      some (escapeHtmlAttribute config.jmriHost) := by
  rw [fieldValue, splitOn_renderSetupForm]
  rfl

theorem fieldValue_jmriPort (config : LocoNetAdapterConfig) :
    fieldValue "jmri_port".toList (renderSetupForm config) = some (jmriPortFieldValue config) := by
  rw [fieldValue, splitOn_renderSetupForm]
  rfl

/-! ### Submitting it -/

theorem parseNetworkPort_jmriPortFieldValue {config : LocoNetAdapterConfig}
    (h : config.jmriPort ≠ 0) :
    parseNetworkPort (jmriPortFieldValue config) = .ok (some config.jmriPort) := by
  have hpositive : 0 < config.jmriPort.toNat := by
    rw [Nat.pos_iff_ne_zero]
    exact fun hzero => h (UInt16.toNat_inj.mp hzero)
  have hsmall := config.jmriPort.toNat_lt
  have hdigits : isAllDigits (Decimal.print config.jmriPort.toNat) := by
    refine isAllDigits_iff.mpr ⟨fun hnil => ?_, fun c hc => Decimal.print_isDigit _ hc⟩
    have hvalue := Decimal.value_print config.jmriPort.toNat
    rw [hnil] at hvalue
    exact absurd hvalue.symm hpositive.ne'
  rw [jmriPortFieldValue, if_neg h, parseNetworkPort_of_digits hdigits, Decimal.value_print,
    if_neg (by simp only [unsignedLongMax]; omega), if_neg (by omega), UInt16.ofNat_toNat]

theorem handleSubmission_of_complete {σ : Type u} (store : ConfigStore σ) (stored : σ)
    {config : LocoNetAdapterConfig} (h : config.isComplete) :
    handleSubmission store stored config.wifiSsid config.wifiPassword config.jmriHost
      (jmriPortFieldValue config) = .ok (store.save stored config, true) := by
  have hport := parseNetworkPort_jmriPortFieldValue
    (LocoNetAdapterConfig.isComplete_iff.mp h).2.2.2
  have haccept := wouldAccept_eq_true_iff.mpr ⟨_, hport, h⟩
  rw [handleSubmission, haccept, hport]
  rfl

/-- Whatever a complete configuration holds, the form shows the SSID and the host as values
that cannot break out of the page and that read as what is stored, and submitting what it
shows, with the stored password, saves the stored configuration and reboots. -/
theorem form_resubmits {σ : Type u} (store : ConfigStore σ) (stored : σ)
    (hcomplete : (store.load stored).isComplete) :
    let config := store.load stored
    let page := renderPage store stored
    ∃ ssid jmriHost jmriPort, fieldValue "ssid".toList page = some ssid ∧
      fieldValue "jmri_host".toList page = some jmriHost ∧
      fieldValue "jmri_port".toList page = some jmriPort ∧
      Harmless ssid ∧ decode entities ssid = config.wifiSsid ∧
      Harmless jmriHost ∧ decode entities jmriHost = config.jmriHost ∧
      handleSubmission store stored (decode entities ssid) config.wifiPassword
        (decode entities jmriHost) jmriPort = .ok (store.save stored config, true) := by
  intro config page
  refine ⟨_, _, _, fieldValue_ssid config, fieldValue_jmriHost config, fieldValue_jmriPort config,
    harmless_escapeHtmlAttribute _, decode_escapeHtmlAttribute _, harmless_escapeHtmlAttribute _,
    decode_escapeHtmlAttribute _, ?_⟩
  rw [decode_escapeHtmlAttribute, decode_escapeHtmlAttribute]
  exact handleSubmission_of_complete store stored hcomplete

/-- A network whose name looks like an entity, with a host that would close its attribute. -/
theorem form_resubmits_entityText :
    let stored : Preferences :=
      ⟨"&amp;quot;".toList, "secret".toList, "a\"><b>".toList, 1234, false⟩
    ∃ ssid, fieldValue "ssid".toList (renderPage NvsConfigStore stored) = some ssid ∧
      Harmless ssid ∧ decode entities ssid = "&amp;quot;".toList := by
  intro stored
  obtain ⟨ssid, -, -, hssid, -, -, hharmless, hdecode, -⟩ :=
    form_resubmits NvsConfigStore stored (by decide +kernel)
  exact ⟨ssid, hssid, hharmless, hdecode⟩

end Loco2Mqtt.SetupPage
