import Loco2Mqtt.Domain.Commissioning
import Loco2Mqtt.Foundations.RetryTimer
import Loco2Mqtt.Foundations.Runs

/-! Joining the network: `EspWifiPort`, `EspMdnsPort` and the two latches of `loop`. The radio
is tried again every five seconds as long as it is not connected, the broker is started once,
when the radio first reports a connection, and the mDNS responder is tried every five
seconds until it has started, and never again. -/

namespace Loco2Mqtt

open WrappingClock

structure EspWifiPort where
  ssid : Text
  password : Text
  lastAttemptAtMillis : UInt32
  deriving DecidableEq, Repr

namespace EspWifiPort

def kRetryIntervalMs : UInt32 := 5000

/-- `connected` is whether the radio reports a connection. Also returns the arguments of
`WiFi.begin`, if it is called. -/
def update (port : EspWifiPort) (connected : Bool) (now : UInt32) :
    EspWifiPort × Option (Text × Text) :=
  if connected then (port, none)
  else if now - port.lastAttemptAtMillis < kRetryIntervalMs then (port, none)
  else ({ port with lastAttemptAtMillis := now }, some (cStr port.ssid, cStr port.password))

end EspWifiPort

structure EspMdnsPort where
  lastAttemptAtMillis : UInt32
  deriving DecidableEq, Repr

namespace EspMdnsPort

def kRetryIntervalMs : UInt32 := 5000

/-- `succeeds` is what `MDNS.begin` answers. Also returns its argument, if it is called. -/
def begin (port : EspMdnsPort) (hostname : Text) (succeeds : Bool) (now : UInt32) :
    EspMdnsPort × Option Text × Bool :=
  if now - port.lastAttemptAtMillis < kRetryIntervalMs then (port, none, false)
  else (⟨now⟩, some (cStr hostname), succeeds)

end EspMdnsPort

namespace Connectivity

open RetryTimer Runs

def kMdnsHostname : Text := "loco2mqtt".toList

/-- What the radio and the clock answer in one pass of `loop`. The radio is asked up to three
times, and may answer differently each time. -/
structure Tick where
  connectedAtUpdate : Bool
  wifiAt : ℕ
  connectedForMqtt : Bool
  connectedForMdns : Bool
  mdnsAt : ℕ
  mdnsSucceeds : Bool
  deriving DecidableEq, Repr

inductive Call where
  | wifiBegin (ssid password : Text)
  | mqttBegin
  | mdnsBegin (hostname : Text) (succeeded : Bool)
  deriving DecidableEq, Repr

structure State where
  wifi : EspWifiPort
  mdns : EspMdnsPort
  mqttBegun : Bool
  mdnsBegun : Bool
  deriving DecidableEq, Repr

def initial (ssid password : Text) : State := ⟨⟨ssid, password, 0⟩, ⟨0⟩, false, false⟩

def updateWifi (s : State) (tick : Tick) : State × List Call :=
  let (wifi, call) := s.wifi.update tick.connectedAtUpdate (reading tick.wifiAt)
  ({ s with wifi }, (call.map (fun (ssid, password) => .wifiBegin ssid password)).toList)

def beginMqtt (s : State) (tick : Tick) : State × List Call :=
  if !s.mqttBegun && tick.connectedForMqtt then ({ s with mqttBegun := true }, [.mqttBegin])
  else (s, [])

/-- A responder that has not started is tried again in a later pass. -/
def beginMdns (s : State) (tick : Tick) : State × List Call :=
  if !s.mdnsBegun && tick.connectedForMdns then
    let (mdns, call, mdnsBegun) :=
      s.mdns.begin kMdnsHostname tick.mdnsSucceeds (reading tick.mdnsAt)
    ({ s with mdns, mdnsBegun }, (call.map (fun name => .mdnsBegin name mdnsBegun)).toList)
  else (s, [])

/-- The part of `loop` that joins the network, with the calls that it makes in order. -/
def pass (s : State) (tick : Tick) : State × List Call :=
  let (s, wifiCalls) := updateWifi s tick
  let (s, mqttCalls) := beginMqtt s tick
  let (s, mdnsCalls) := beginMdns s tick
  (s, wifiCalls ++ mqttCalls ++ mdnsCalls)

def step (s : State) (tick : Tick) : State := (pass s tick).1

/-- The calls of a run, each with the pass that makes it. -/
def calls : State → List Tick → List (Tick × Call)
  | _, [] => []
  | s, tick :: rest => (pass s tick).2.map (tick, ·) ++ calls (step s tick) rest

/-! ### The calls of each kind -/

def wifiCall : Tick × Call → Option (Tick × Text × Text)
  | (tick, .wifiBegin ssid password) => some (tick, ssid, password)
  | _ => none

def mqttCall : Tick × Call → Option Tick
  | (tick, .mqttBegin) => some tick
  | _ => none

def mdnsCall : Tick × Call → Option (Tick × Text × Bool)
  | (tick, .mdnsBegin hostname succeeded) => some (tick, hostname, succeeded)
  | _ => none

/-- What the timers of the two ports are polled for. -/
def wifiPoll (tick : Tick) : Poll := ⟨!tick.connectedAtUpdate, tick.wifiAt, tick.wifiAt⟩

def mdnsPoll (begun : Bool) (tick : Tick) : Poll :=
  ⟨!begun && tick.connectedForMdns, tick.mdnsAt, tick.mdnsAt⟩

def wifiDue (s : State) (tick : Tick) : Bool :=
  due EspWifiPort.kRetryIntervalMs s.wifi.lastAttemptAtMillis (wifiPoll tick)

def mdnsDue (s : State) (tick : Tick) : Bool :=
  due EspMdnsPort.kRetryIntervalMs s.mdns.lastAttemptAtMillis (mdnsPoll s.mdnsBegun tick)

theorem updateWifi_eq (s : State) (tick : Tick) :
    updateWifi s tick =
      if wifiDue s tick then
        ({ s with wifi := { s.wifi with lastAttemptAtMillis := reading tick.wifiAt } },
          [.wifiBegin (cStr s.wifi.ssid) (cStr s.wifi.password)])
      else (s, []) := by
  rw [updateWifi, EspWifiPort.update, wifiDue, due, wifiPoll]
  cases tick.connectedAtUpdate with
  | true => rfl
  | false =>
    by_cases hold :
        EspWifiPort.kRetryIntervalMs ≤ reading tick.wifiAt - s.wifi.lastAttemptAtMillis
    · simp [hold, UInt32.not_lt.mpr hold]
    · simp [hold, UInt32.not_le.mp hold]

theorem beginMdns_eq (s : State) (tick : Tick) :
    beginMdns s tick =
      if mdnsDue s tick then
        ({ s with mdns := ⟨reading tick.mdnsAt⟩, mdnsBegun := tick.mdnsSucceeds },
          [.mdnsBegin (cStr kMdnsHostname) tick.mdnsSucceeds])
      else (s, []) := by
  obtain ⟨wifi, mdns, mqttBegun, mdnsBegun⟩ := s
  rw [beginMdns, EspMdnsPort.begin, mdnsDue, due, mdnsPoll]
  cases mdnsBegun with
  | true => rfl
  | false =>
    cases tick.connectedForMdns with
    | false => rfl
    | true =>
      by_cases hold :
          EspMdnsPort.kRetryIntervalMs ≤ reading tick.mdnsAt - mdns.lastAttemptAtMillis
      · simp [hold, UInt32.not_lt.mpr hold]
      · simp [hold, UInt32.not_le.mp hold]

theorem beginMqtt_eq (s : State) (tick : Tick) :
    beginMqtt s tick = ({ s with mqttBegun := s.mqttBegun || tick.connectedForMqtt },
      if !s.mqttBegun && tick.connectedForMqtt then [.mqttBegin] else []) := by
  obtain ⟨wifi, mdns, mqttBegun, mdnsBegun⟩ := s
  cases mqttBegun <;> cases hconnected : tick.connectedForMqtt <;> simp [beginMqtt, hconnected]

/-- One pass, kind by kind. -/
theorem pass_eq (s : State) (tick : Tick) :
    pass s tick =
      ({ wifi :=
          if wifiDue s tick then { s.wifi with lastAttemptAtMillis := reading tick.wifiAt }
          else s.wifi
         mdns := if mdnsDue s tick then ⟨reading tick.mdnsAt⟩ else s.mdns
         mqttBegun := s.mqttBegun || tick.connectedForMqtt
         mdnsBegun := if mdnsDue s tick then tick.mdnsSucceeds else s.mdnsBegun },
        (if wifiDue s tick then [.wifiBegin (cStr s.wifi.ssid) (cStr s.wifi.password)] else []) ++
          (if !s.mqttBegun && tick.connectedForMqtt then [.mqttBegin] else []) ++
          if mdnsDue s tick then [.mdnsBegin (cStr kMdnsHostname) tick.mdnsSucceeds] else []) := by
  have hmdns : ∀ wifi mqttBegun, mdnsDue { s with wifi, mqttBegun } tick = mdnsDue s tick :=
    fun _ _ => rfl
  rw [pass, updateWifi_eq]
  by_cases hwifi : wifiDue s tick <;> by_cases hdue : mdnsDue s tick <;>
    simp [hwifi, beginMqtt_eq, beginMdns_eq, hmdns, hdue]

theorem pass_calls (s : State) (tick : Tick) :
    ((pass s tick).2.map (tick, ·)).filterMap wifiCall =
        (if wifiDue s tick then [(tick, cStr s.wifi.ssid, cStr s.wifi.password)] else []) ∧
      ((pass s tick).2.map (tick, ·)).filterMap mqttCall =
        (if !s.mqttBegun && tick.connectedForMqtt then [tick] else []) ∧
      ((pass s tick).2.map (tick, ·)).filterMap mdnsCall =
        (if mdnsDue s tick then [(tick, cStr kMdnsHostname, tick.mdnsSucceeds)] else []) := by
  rw [pass_eq]
  by_cases hwifi : wifiDue s tick <;>
    by_cases hmqtt : (!s.mqttBegun && tick.connectedForMqtt) = true <;>
      by_cases hmdns : mdnsDue s tick <;>
        simp [hwifi, hmqtt, hmdns, List.filterMap_cons, wifiCall, mqttCall, mdnsCall]

/-! ### Runs -/

def mdnsPolls : State → List Tick → List Poll
  | _, [] => []
  | s, tick :: rest => mdnsPoll s.mdnsBegun tick :: mdnsPolls (step s tick) rest

/-- The radio is tried when its timer says so, with the stored credentials. -/
theorem wifi_calls (s : State) (ticks : List Tick) :
    ((calls s ticks).filterMap wifiCall).map (fun call => wifiPoll call.1) =
        attempts EspWifiPort.kRetryIntervalMs s.wifi.lastAttemptAtMillis (ticks.map wifiPoll) ∧
      ∀ call ∈ (calls s ticks).filterMap wifiCall,
        call.2 = (cStr s.wifi.ssid, cStr s.wifi.password) := by
  induction ticks generalizing s with
  | nil => exact ⟨rfl, fun call h => absurd h List.not_mem_nil⟩
  | cons tick rest ih =>
    obtain ⟨hpolls, harguments⟩ := ih (step s tick)
    rw [calls, List.filterMap_append, (pass_calls s tick).1, List.map_cons, attempts, ← wifiDue,
      RetryTimer.step, ← wifiDue]
    have hstep : (step s tick).wifi =
        if wifiDue s tick then { s.wifi with lastAttemptAtMillis := reading tick.wifiAt }
        else s.wifi := by rw [step, pass_eq]
    by_cases hdue : wifiDue s tick
    · simp only [hstep, hdue, if_true] at hpolls harguments ⊢
      refine ⟨congrArg (wifiPoll tick :: ·) hpolls, fun call hcall => ?_⟩
      rcases List.mem_append.mp hcall with hcall | hcall
      · rw [List.mem_singleton.mp hcall]
      · exact harguments call hcall
    · simp only [hstep, hdue] at hpolls harguments ⊢
      exact ⟨hpolls, harguments⟩

theorem mqtt_calls (s : State) (ticks : List Tick) :
    (calls s ticks).filterMap mqttCall =
      if s.mqttBegun then [] else (ticks.find? Tick.connectedForMqtt).toList := by
  induction ticks generalizing s with
  | nil => cases s.mqttBegun <;> rfl
  | cons tick rest ih =>
    have hstep : (step s tick).mqttBegun = (s.mqttBegun || tick.connectedForMqtt) := by
      rw [step, pass_eq]
    rw [calls, List.filterMap_append, (pass_calls s tick).2.1, ih, hstep]
    cases s.mqttBegun <;> cases hconnected : tick.connectedForMqtt <;>
      simp [hconnected]

theorem not_begun_of_mdnsDue {s : State} {tick : Tick} (h : mdnsDue s tick) :
    s.mdnsBegun = false := by
  simp only [mdnsDue, due, mdnsPoll, Bool.and_eq_true, Bool.not_eq_true'] at h
  exact h.1.1

/-- A responder that has started is left alone. -/
theorem mdns_latched {s : State} (h : s.mdnsBegun = true) (ticks : List Tick) :
    (calls s ticks).filterMap mdnsCall = [] ∧ (run step s ticks).mdnsBegun = true := by
  induction ticks generalizing s with
  | nil => exact ⟨rfl, h⟩
  | cons tick rest ih =>
    have hdue : ¬ mdnsDue s tick := fun hdue => by
      rw [not_begun_of_mdnsDue hdue] at h
      cases h
    have hbegun : (step s tick).mdnsBegun = true := by
      rw [step, pass_eq]
      exact (if_neg hdue).trans h
    obtain ⟨hnone, hlatched⟩ := ih hbegun
    rw [calls, List.filterMap_append, (pass_calls s tick).2.2, if_neg hdue]
    exact ⟨hnone, hlatched⟩

/-- The responder is tried when its timer says so, and all attempts fail but perhaps the
last. -/
theorem mdns_calls (s : State) (ticks : List Tick) :
    ((calls s ticks).filterMap mdnsCall).map (fun call => mdnsPoll false call.1) =
        attempts EspMdnsPort.kRetryIntervalMs s.mdns.lastAttemptAtMillis (mdnsPolls s ticks) ∧
      ∃ failed, ((calls s ticks).filterMap mdnsCall).map (fun call => call.2.2) =
        List.replicate failed false ++
          if !s.mdnsBegun && (run step s ticks).mdnsBegun then [true] else [] := by
  induction ticks generalizing s with
  | nil => exact ⟨rfl, 0, by simp [calls]⟩
  | cons tick rest ih =>
    obtain ⟨hpolls, failed, hresults⟩ := ih (step s tick)
    have hmdns : (step s tick).mdns =
        if mdnsDue s tick then ⟨reading tick.mdnsAt⟩ else s.mdns := by rw [step, pass_eq]
    have hbegun : (step s tick).mdnsBegun =
        if mdnsDue s tick then tick.mdnsSucceeds else s.mdnsBegun := by rw [step, pass_eq]
    rw [calls, List.filterMap_append, (pass_calls s tick).2.2, mdnsPolls, attempts, ← mdnsDue,
      RetryTimer.step, ← mdnsDue, run_cons]
    by_cases hdue : mdnsDue s tick
    · have hfirst := not_begun_of_mdnsDue hdue
      simp only [hmdns, hbegun, hdue, if_true] at hpolls hresults ⊢
      refine ⟨by rw [hfirst]; exact congrArg (mdnsPoll false tick :: ·) hpolls, ?_⟩
      rw [hfirst]
      rcases hsucceeds : tick.mdnsSucceeds with _ | _
      · refine ⟨failed + 1, ?_⟩
        rw [hsucceeds] at hresults
        exact congrArg (false :: ·) hresults
      · rw [hsucceeds] at hbegun
        obtain ⟨hnone, hlatched⟩ := mdns_latched (hbegun.trans (if_pos hdue)) rest
        exact ⟨0, by simp [hnone, hlatched]⟩
    · simp only [hmdns, hbegun, hdue] at hpolls hresults ⊢
      exact ⟨hpolls, failed, hresults⟩

/-- Whatever the radio reports, and however often the counter wraps, the calls of each kind
are throttled, the broker is started in the first pass that finds a connection and not again,
and the responder is left alone once it has started. -/
theorem joins_network (ssid password : Text) (ticks : List Tick)
    (hwifi : Ordered 0 (ticks.map wifiPoll))
    (hmdns : Ordered 0 (mdnsPolls (initial ssid password) ticks)) :
    let made := calls (initial ssid password) ticks
    let mdnsMade := made.filterMap mdnsCall
    Throttled 5000 0 (ticks.map wifiPoll)
        ((made.filterMap wifiCall).map (fun call => wifiPoll call.1)) ∧
      (∀ call ∈ made.filterMap wifiCall, call.2 = (cStr ssid, cStr password)) ∧
      made.filterMap mqttCall = (ticks.find? Tick.connectedForMqtt).toList ∧
      Throttled 5000 0 (mdnsPolls (initial ssid password) ticks)
        (mdnsMade.map (fun call => mdnsPoll false call.1)) ∧
      ∃ failed, mdnsMade.map (fun call => call.2.2) = List.replicate failed false ++
        if (run step (initial ssid password) ticks).mdnsBegun then [true] else [] := by
  intro made mdnsMade
  obtain ⟨hwifiPolls, harguments⟩ := wifi_calls (initial ssid password) ticks
  obtain ⟨hmdnsPolls, hresults⟩ := mdns_calls (initial ssid password) ticks
  refine ⟨?_, harguments, mqtt_calls _ ticks, ?_, hresults⟩
  · rw [hwifiPolls]
    exact throttled_attempts hwifi
  · rw [hmdnsPolls]
    exact throttled_attempts hmdns

/-- The radio connects after its second attempt, and the responder starts at its second. -/
def startup : List Tick :=
  [⟨false, 100, false, false, 100, false⟩, ⟨false, 5000, false, false, 5000, false⟩,
    ⟨false, 10001, false, true, 10001, false⟩, ⟨true, 15001, true, true, 15001, true⟩,
    ⟨true, 20002, true, true, 20002, true⟩]

theorem joins_network_startup :
    (calls (initial "layout".toList "trains".toList) startup).filterMap mqttCall =
      [⟨true, 15001, true, true, 15001, true⟩] :=
  (joins_network "layout".toList "trains".toList startup (by decide) (by decide)).2.2.1

end Connectivity
end Loco2Mqtt
