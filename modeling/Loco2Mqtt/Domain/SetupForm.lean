import Loco2Mqtt.Domain.Commissioning

/-! `SetupFormRenderer`: the page with the setup form. -/

namespace Loco2Mqtt

def kFirmwareVersion : Text := "0.2.0".toList

namespace SetupFormRenderer

/-- What `appendEscaped` appends for a character. -/
def escaped (c : Char) : Text :=
  if c = '&' then "&amp;".toList
  else if c = '"' then "&quot;".toList
  else if c = '<' then "&lt;".toList
  else if c = '>' then "&gt;".toList
  else [c]

def escapeHtmlAttribute (value : Text) : Text := value.flatMap escaped

def jmriPortFieldValue (config : LocoNetAdapterConfig) : Text :=
  if config.jmriPort = 0 then [] else Decimal.print config.jmriPort.toNat

def renderSetupForm (config : LocoNetAdapterConfig) : Text :=
  "<html><body>".toList ++
    "<p>Loco2MQTT v".toList ++ kFirmwareVersion ++ "</p>".toList ++
    "<form method=\"POST\" action=\"/\">".toList ++
    "SSID: <input name=\"ssid\" value=\"".toList ++ escapeHtmlAttribute config.wifiSsid ++
      "\"><br>".toList ++
    "Password: <input name=\"password\" type=\"password\" value=\"\"><br>".toList ++
    "JMRI Host: <input name=\"jmri_host\" value=\"".toList ++
      escapeHtmlAttribute config.jmriHost ++ "\"><br>".toList ++
    "JMRI Port: <input name=\"jmri_port\" type=\"number\" min=\"1\" max=\"65535\" ".toList ++
      "value=\"".toList ++ jmriPortFieldValue config ++ "\"><br>".toList ++
    "<input type=\"submit\" value=\"Save\">".toList ++
    "</form></body></html>".toList

end SetupFormRenderer
end Loco2Mqtt
