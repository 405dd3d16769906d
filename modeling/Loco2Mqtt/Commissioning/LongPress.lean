import Loco2Mqtt.Commissioning.Firmware

/-! Which boots set up wirelessly. A poll that triggers puts the request into the flash and
restarts, so it is the last poll before the next boot, and that boot takes the request out
again. In between nothing else touches it: neither what the console saves nor what the form
does. -/

namespace Loco2Mqtt

namespace SetupButton

open WrappingClock

universe u

variable {σ : Type u} {request : σ → σ} {stored : σ} {polls polls' : ℕ → Poll} {n : ℕ}

/-- The trigger knows the polls there have been, and no others. -/
theorem before_congr (h : ∀ k < n, polls k = polls' k) :
    before request stored polls n = before request stored polls' n := by
  induction n with
  | zero => rfl
  | succ n ih =>
    rw [before, before, ih (fun k hk => h k (by omega)), h n (Nat.lt_succ_self n)]

theorem returns_congr (h : ∀ k ≤ n, polls k = polls' k) :
    returns request stored polls n = returns request stored polls' n := by
  rw [returns, returns, before_congr (fun k hk => h k (by omega)), h n (Nat.le_refl n)]

end SetupButton

namespace Firmware

open Runs WrappingClock
open CaptivePortalServer (Request)
open SetupButton (Poll before returns Fires HoldsBelowWrap)

/-! ### The polls since the boot -/

/-- The polls as a sequence, which goes on with the last of them. -/
def pollAt (polls : List Poll) (n : ℕ) : Poll := polls.getD n (polls.getLastD ⟨false, 0⟩)

theorem pollAt_concat_of_lt {polls : List Poll} {n : ℕ} (h : n < polls.length) (last : Poll) :
    pollAt (polls ++ [last]) n = pollAt polls n := by
  rw [pollAt, pollAt, List.getD_eq_getElem?_getD, List.getD_eq_getElem?_getD,
    List.getElem?_append_left h, List.getElem?_eq_getElem h, Option.getD_some, Option.getD_some]

theorem pollAt_concat_length (polls : List Poll) (last : Poll) :
    pollAt (polls ++ [last]) polls.length = last := by
  simp [pollAt]

/-- Poll number `n` triggers. -/
def Triggers (polls : List Poll) (n : ℕ) : Prop := returns id () (pollAt polls) n = true

theorem triggers_concat_of_lt {polls : List Poll} {n : ℕ} (h : n < polls.length) (last : Poll) :
    Triggers (polls ++ [last]) n ↔ Triggers polls n := by
  rw [Triggers, Triggers, SetupButton.returns_congr
    (fun k hk => pollAt_concat_of_lt (Nat.lt_of_le_of_lt hk h) last)]

theorem poll_polls (s : State) (active : Bool) :
    (poll s active).1.polls = s.polls ++ [⟨active, s.now⟩] := rfl

theorem length_poll_polls (s : State) (active : Bool) :
    (poll s active).1.polls.length = s.polls.length + 1 := by
  rw [poll_polls, List.length_append, List.length_singleton]

/-! ### The trigger -/

/-- The trigger has followed the polls. -/
def Follows (s : State) : Prop := s.trigger = (before id () (pollAt s.polls) s.polls.length).1

theorem follows_of_no_polls {s : State} (htrigger : s.trigger = ButtonSetupModeTrigger.initial)
    (hpolls : s.polls = []) : Follows s := by
  rw [Follows, htrigger, hpolls]
  rfl

theorem Follows.of_same {s s' : State} (h : Follows s) (htrigger : s'.trigger = s.trigger)
    (hpolls : s'.polls = s.polls) : Follows s' := by
  rw [Follows, htrigger, hpolls, h]

/-- A poll triggers as the history says. -/
theorem Follows.poll {s : State} (h : Follows s) (active : Bool) :
    Follows (poll s active).1 ∧
      ((poll s active).2 = true ↔ Triggers (poll s active).1.polls s.polls.length) := by
  have hbefore : before id () (pollAt (Firmware.poll s active).1.polls) s.polls.length =
      (s.trigger, ()) :=
    (SetupButton.before_congr (fun k hk => pollAt_concat_of_lt hk _)).trans (Prod.ext h.symm rfl)
  have hlast : pollAt (Firmware.poll s active).1.polls s.polls.length = ⟨active, s.now⟩ :=
    pollAt_concat_length _ _
  obtain ⟨hnext, hreturns⟩ := ButtonSetupModeTrigger.update_eq_update_id
    NvsSetupModeRequestStore.request s.trigger (reading s.now) s.console.stored active
  rw [Follows, length_poll_polls, before, Triggers, returns, hlast, hbefore]
  exact ⟨hnext, Bool.eq_iff_iff.mp hreturns⟩

theorem follows_servePortal {s : State} (h : Follows s) (request : Request) :
    Follows (servePortal s request) := by
  unfold servePortal
  split
  · exact h.of_same rfl rfl
  · exact h.of_same rfl rfl

theorem follows_step (s : State) (e : Event) (h : Follows s) : Follows (step s e) := by
  cases e with
  | powerUp => exact follows_of_no_polls rfl rfl
  | tick | crash => exact h.of_same rfl rfl
  | typed chunk =>
    simp only [step]
    split_ifs
    · exact h.of_same rfl rfl
    · exact h
  | loop active received request =>
    have hpolled : Follows (poll s active).1 := (h.poll active).1
    simp only [step]
    have hpass := pass_loop s active received request
    generalize loop s active received request = after at hpass ⊢
    cases hpass with
    | down | idle => exact h
    | served hmode request => exact follows_servePortal h request
    | triggered | operated | commissioned => exact hpolled.of_same rfl rfl

/-! ### The request -/

/-- Only the last poll can have triggered, and it has exactly if the request is in the flash,
where it never is while the device is up. -/
structure Remembers (s : State) : Prop where
  quiet : ∀ n, n + 1 < s.polls.length → ¬ Triggers s.polls n
  flag : s.console.stored.setup_req = true ↔ ∃ n, s.polls.length = n + 1 ∧ Triggers s.polls n
  up : s.mode.isSome → s.console.stored.setup_req = false

theorem remembers_of_no_polls {s : State} (hpolls : s.polls = [])
    (hflag : s.console.stored.setup_req = false) : Remembers s where
  quiet n hn := by rw [hpolls] at hn; cases hn
  flag := by simp [hpolls, hflag]
  up _ := hflag

/-- Whatever else changes, the flag in the flash is as it was. -/
theorem Remembers.of_same {s s' : State} (h : Remembers s) (hpolls : s'.polls = s.polls)
    (hflag : s'.console.stored.setup_req = s.console.stored.setup_req)
    (hmode : s'.mode.isSome → s.mode.isSome) : Remembers s' where
  quiet := by rw [hpolls]; exact h.quiet
  flag := by rw [hpolls, hflag]; exact h.flag
  up hup := by rw [hflag]; exact h.up (hmode hup)

theorem Remembers.poll {s : State} (h : Remembers s) (hfollows : Follows s) (hup : s.mode.isSome)
    (active : Bool) :
    Remembers { (poll s active).1 with
      mode := if (Firmware.poll s active).2 then none else s.mode } := by
  have htriggers := (hfollows.poll active).2
  have hlength := length_poll_polls s active
  have hflag :
      (Firmware.poll s active).1.console.stored.setup_req = (Firmware.poll s active).2 := by
    rw [poll_console]
    rcases (Firmware.poll s active).2 with _ | _
    · exact h.up hup
    · rfl
  have hnone := h.up hup
  refine ⟨fun n hn => ?_, ?_, fun hup' => ?_⟩
  · rw [hlength] at hn
    rw [poll_polls, triggers_concat_of_lt (by omega)]
    rcases Nat.lt_or_eq_of_le (Nat.lt_succ_iff.mp hn) with hn | hn
    · exact h.quiet n hn
    · -- had the poll before triggered, the device would be down
      intro htriggered
      rw [h.flag.mpr ⟨n, hn.symm, htriggered⟩] at hnone
      cases hnone
  · simp only [hflag, htriggers, hlength]
    constructor
    · exact fun htriggered => ⟨_, rfl, htriggered⟩
    · rintro ⟨n, hn, htriggered⟩
      obtain rfl : s.polls.length = n := Nat.succ.inj hn
      exact htriggered
  · simp only [hflag]
    rcases htriggered : (Firmware.poll s active).2 with _ | _
    · rfl
    · rw [htriggered] at hup'
      cases hup'

/-- What the console saves is not the request. -/
theorem setup_req_update {stored stored' : Preferences} {session session' : CommissioningSession}
    {line reply : Text} (h : SerialCommissioningAdapter.update NvsConfigStore stored session line =
      .ok (reply, session', stored')) : stored'.setup_req = stored.setup_req := by
  rcases SerialCommissioningAdapter.update_cases NvsConfigStore stored session line with
    ⟨error, -, herror⟩ | ⟨command, reply', -, hok⟩
  · rw [herror] at h
    cases h
  · rw [hok] at h
    cases h
    split_ifs <;> rfl

/-- Nor is what the form saves. -/
theorem setup_req_handleClient {stored stored' : Preferences} {request : Request} {page : Text}
    {reboots : Bool} (h : CaptivePortalServer.handleClient NvsConfigStore stored request =
      .ok (page, stored', reboots)) : stored'.setup_req = stored.setup_req := by
  unfold CaptivePortalServer.handleClient at h
  split_ifs at h
  · cases h
    rfl
  · rcases CaptivePortalServer.handleSubmit_cases NvsConfigStore stored (request.arg "ssid")
      (request.arg "password") (request.arg "jmri_host") (request.arg "jmri_port") with
      ⟨error, hsubmit⟩ | ⟨page', hsubmit⟩ | ⟨page', config, -, -, hsubmit⟩ <;>
      rw [hsubmit] at h <;> cases h <;> rfl
  · cases h
    rfl

theorem Remembers.servePortal {s : State} (h : Remembers s) (hup : s.mode.isSome)
    (request : Request) : Remembers (servePortal s request) := by
  unfold Firmware.servePortal
  split
  · exact h.of_same rfl rfl (fun _ => hup)
  · next page stored reboots hserved =>
    exact h.of_same rfl (setup_req_handleClient hserved) (fun _ => hup)

theorem Remembers.updateConsole {s : State} (h : Remembers s) (hup : s.mode.isSome)
    (hrunning : s.console.crashed = false) : Remembers (updateConsole s) := by
  rcases hline : nextLine s with _ | line
  · rw [updateConsole_of_none hrunning hline]
    exact h.of_same rfl rfl (fun _ => hup)
  rcases hupdate : SerialCommissioningAdapter.update NvsConfigStore s.console.stored
    s.console.session line with error | ⟨reply, session, stored⟩
  · rw [updateConsole_of_error hrunning hline hupdate]
    exact h.of_same rfl rfl (fun _ => hup)
  · rw [updateConsole_of_ok hrunning hline hupdate]
    exact h.of_same rfl (setup_req_update hupdate) (fun _ => hup)

theorem remembers_step {s : State} {l : Lifecycle.State} (hmirrors : Mirrors s l)
    (hfollows : Follows s) (h : Remembers s) (e : Event) : Remembers (step s e) := by
  cases e with
  | powerUp => exact remembers_of_no_polls rfl rfl
  | tick => exact h.of_same rfl rfl id
  | crash => exact h.of_same rfl rfl (fun hup => absurd hup Bool.false_ne_true)
  | typed chunk =>
    simp only [step]
    split_ifs
    · exact h.of_same rfl rfl id
    · exact h
  | loop active received request =>
    simp only [step]
    have hpass := pass_loop s active received request
    generalize loop s active received request = after at hpass ⊢
    cases hpass with
    | down | idle => exact h
    | served hmode request => exact h.servePortal (by rw [hmode]; rfl) request
    | triggered hmode htriggered =>
      have hup : s.mode.isSome := by rcases hmode with hmode | hmode <;> rw [hmode] <;> rfl
      have hpolled := h.poll hfollows hup active
      rwa [htriggered, if_pos rfl] at hpolled
    | operated hmode htriggered =>
      have hpolled := h.poll hfollows (by rw [hmode]; rfl) active
      rw [htriggered, if_neg Bool.false_ne_true] at hpolled
      exact hpolled.of_same rfl rfl id
    | commissioned hmode htriggered =>
      have hup : s.mode.isSome := by rw [hmode]; rfl
      have hpolled := h.poll hfollows hup active
      rw [htriggered, if_neg Bool.false_ne_true] at hpolled
      have hrecorded : Remembers (record (poll s active).1 received) :=
        hpolled.of_same rfl rfl id
      exact hrecorded.updateConsole hup ((hmirrors.recorded htriggered received).running hup)

theorem remembers_run {preferences : Preferences} (hfresh : preferences.setup_req = false)
    (events : List Event) : Remembers (run step (start preferences) events) := by
  have hrun := run_invariant_of_step
    (I := fun s => (∃ l, Mirrors s l) ∧ Follows s ∧ Remembers s)
    (fun s e ⟨⟨l, hmirrors⟩, hfollows, h⟩ => ⟨⟨_, mirrors_step s l e hmirrors⟩,
      follows_step s e hfollows, remembers_step hmirrors hfollows h e⟩)
    ⟨⟨_, mirrors_start preferences⟩, follows_of_no_polls rfl rfl,
      remembers_of_no_polls rfl hfresh⟩ events
  exact hrun.2.2

/-! ### Real time -/

theorem triggers_iff {polls : List Poll} (hspaced : Spaced (fun k => (pollAt polls k).time))
    (hholds : HoldsBelowWrap (pollAt polls)) (n : ℕ) :
    Triggers polls n ↔ Fires (pollAt polls) n :=
  (SetupButton.returns_iff_looksFiring id () _ n).trans
    (SetupButton.looksFiring_iff hspaced hholds n)

/-- A boot sets up wirelessly exactly if the last thing the device did with its button, since
the boot before, was to find the settled release of a long press. As long as the device is up
it has found none. -/
theorem wireless_setup_by_long_press {preferences : Preferences}
    (hfresh : preferences.setup_req = false) (events : List Event) :
    let s := run step (start preferences) events
    Spaced (fun k => (pollAt s.polls k).time) → HoldsBelowWrap (pollAt s.polls) →
      ((step s .powerUp).mode = some .wirelessSetup ↔
        ∃ n, s.polls.length = n + 1 ∧ Fires (pollAt s.polls) n) ∧
      (∀ n, n + 1 < s.polls.length → ¬ Fires (pollAt s.polls) n) ∧
      (s.mode.isSome → ∀ n < s.polls.length, ¬ Fires (pollAt s.polls) n) := by
  intro s hspaced hholds
  have h : Remembers s := remembers_run hfresh events
  have hquiet : ∀ n, n + 1 < s.polls.length → ¬ Fires (pollAt s.polls) n := fun n hn hfires =>
    h.quiet n hn ((triggers_iff hspaced hholds n).mpr hfires)
  refine ⟨?_, hquiet, fun hup n hn hfires => ?_⟩
  · have hmode : (step s .powerUp).mode = some (selectBootMode
        (NvsConfigStore.load s.console.stored) s.console.stored.setup_req) := rfl
    rw [hmode, Option.some.injEq, selectBootMode_eq_wirelessSetup_iff, h.flag]
    exact exists_congr (fun n => and_congr_right (fun _ => triggers_iff hspaced hholds n))
  · rcases Nat.lt_or_eq_of_le (Nat.succ_le_of_lt hn) with hn | hn
    · exact hquiet n hn hfires
    · have hflag := h.flag.mpr ⟨n, hn.symm, (triggers_iff hspaced hholds n).mpr hfires⟩
      rw [h.up hup] at hflag
      cases hflag

/-- A complete configuration, and a press of four seconds. -/
def layout : Preferences :=
  ⟨"home".toList, "secret".toList, "192.168.1.13".toList, 1234, false⟩

def pressed : List Event :=
  [.powerUp, .loop true [] none, .tick 4000, .loop false [] none, .tick 60, .loop false [] none]

theorem wireless_setup_by_long_press_pressed :
    Fires (pollAt (run step (start layout) pressed).polls) 2 := by
  have hpolls : (run step (start layout) pressed).polls =
      [⟨true, 0⟩, ⟨false, 4000⟩, ⟨false, 4060⟩] := by rfl
  have hrest : ∀ n, pollAt (run step (start layout) pressed).polls (n + 3) = ⟨false, 4060⟩ :=
    fun n => by rw [hpolls]; rfl
  have hspaced : Spaced (fun k => (pollAt (run step (start layout) pressed).polls k).time) := by
    rintro (_ | _ | _ | n)
    · rw [hpolls]; decide
    · rw [hpolls]; decide
    · rw [hpolls]; decide
    · simp only [hrest n, hrest (n + 1)]
      omega
  have hholds : HoldsBelowWrap (pollAt (run step (start layout) pressed).polls) := by
    rintro h (_ | _ | _ | r) n - -
    · rw [hpolls]; exact Nat.lt_of_lt_of_le (by decide) (Nat.le_add_left _ _)
    · rw [hpolls]; exact Nat.lt_of_lt_of_le (by decide) (Nat.le_add_left _ _)
    · rw [hpolls]; exact Nat.lt_of_lt_of_le (by decide) (Nat.le_add_left _ _)
    · rw [hrest r]; exact Nat.lt_of_lt_of_le (by decide) (Nat.le_add_left _ _)
  obtain ⟨n, hn, hfires⟩ := (wireless_setup_by_long_press (show layout.setup_req = false from rfl)
    pressed hspaced hholds).1.mp (by decide +kernel)
  obtain rfl : 2 = n := Nat.succ.inj (Eq.trans (by rw [hpolls]; rfl) hn)
  exact hfires

end Firmware
end Loco2Mqtt
