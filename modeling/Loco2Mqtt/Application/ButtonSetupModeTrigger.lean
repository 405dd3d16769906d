import Mathlib.Data.Nat.Notation

/-! `ButtonSetupModeTrigger`. A press is timed from its first active poll to the first poll of
its release, and it counts only once the release has settled. -/

namespace Loco2Mqtt

universe u

structure ButtonSetupModeTrigger where
  holding : Bool
  holdStartMs : UInt32
  releasing : Bool
  releaseStartMs : UInt32
  deriving DecidableEq, Repr

namespace ButtonSetupModeTrigger

def kHoldDurationMs : UInt32 := 3000
def kReleaseSettleMs : UInt32 := 50

def initial : ButtonSetupModeTrigger := ⟨false, 0, false, 0⟩

variable {σ : Type u} (request : σ → σ)

def handleActive (trigger : ButtonSetupModeTrigger) (now : UInt32) (stored : σ) :
    ButtonSetupModeTrigger × σ × Bool :=
  let trigger :=
    if !trigger.holding then { trigger with holding := true, holdStartMs := now } else trigger
  ({ trigger with releasing := false }, stored, false)

/-- `request` is `SetupModeRequestStore::request`, on whatever the store keeps. -/
def triggerRequest (stored : σ) : σ × Bool := (request stored, true)

def finishReleaseIfSettled (trigger : ButtonSetupModeTrigger) (now : UInt32) (stored : σ) :
    ButtonSetupModeTrigger × σ × Bool :=
  if now - trigger.releaseStartMs < kReleaseSettleMs then (trigger, stored, false)
  else
    let heldFor := trigger.releaseStartMs - trigger.holdStartMs
    let trigger := { trigger with holding := false, releasing := false }
    if heldFor ≥ kHoldDurationMs then (trigger, triggerRequest request stored)
    else (trigger, stored, false)

def handleInactive (trigger : ButtonSetupModeTrigger) (now : UInt32) (stored : σ) :
    ButtonSetupModeTrigger × σ × Bool :=
  if !trigger.holding then (trigger, stored, false)
  else if !trigger.releasing then
    ({ trigger with releasing := true, releaseStartMs := now }, stored, false)
  else trigger.finishReleaseIfSettled request now stored

/-- The trigger and the store after an update, and what it returns. -/
def update (trigger : ButtonSetupModeTrigger) (isActive : Bool) (now : UInt32) (stored : σ) :
    ButtonSetupModeTrigger × σ × Bool :=
  if isActive then trigger.handleActive now stored else trigger.handleInactive request now stored

/-! ### The cases of an update -/

variable (trigger : ButtonSetupModeTrigger) (now : UInt32) (stored : σ)

/-- The button is down: a press begins, or goes on as if it had not been released. -/
theorem update_active :
    trigger.update request true now stored =
      (⟨true, if trigger.holding then trigger.holdStartMs else now, false,
        trigger.releaseStartMs⟩, stored, false) := by
  cases hholding : trigger.holding <;> simp [update, handleActive, hholding]

theorem update_idle (h : trigger.holding = false) :
    trigger.update request false now stored = (trigger, stored, false) := by
  simp [update, handleInactive, h]

theorem update_released (hholding : trigger.holding = true)
    (hreleasing : trigger.releasing = false) :
    trigger.update request false now stored =
      ({ trigger with releasing := true, releaseStartMs := now }, stored, false) := by
  simp [update, handleInactive, hholding, hreleasing]

theorem update_settling (hholding : trigger.holding = true) (hreleasing : trigger.releasing = true)
    (h : ¬ kReleaseSettleMs ≤ now - trigger.releaseStartMs) :
    trigger.update request false now stored = (trigger, stored, false) := by
  rw [UInt32.not_le] at h
  simp [update, handleInactive, finishReleaseIfSettled, hholding, hreleasing, h]

/-- The release has settled: the press is over, and counts if it was long. -/
theorem update_settled (hholding : trigger.holding = true) (hreleasing : trigger.releasing = true)
    (h : kReleaseSettleMs ≤ now - trigger.releaseStartMs) :
    let long := kHoldDurationMs ≤ trigger.releaseStartMs - trigger.holdStartMs
    trigger.update request false now stored =
      ({ trigger with holding := false, releasing := false },
        if long then request stored else stored, decide long) := by
  intro long
  rw [← UInt32.not_lt] at h
  by_cases hlong : long
  · simp [update, handleInactive, finishReleaseIfSettled, triggerRequest, hholding, hreleasing, h,
      hlong, long]
  · simp [update, handleInactive, finishReleaseIfSettled, hholding, hreleasing, h, hlong, long]

/-- The request is made once by an update that returns true, and by no other. -/
theorem update_requests (isActive : Bool) :
    (trigger.update request isActive now stored).2.1 =
      if (trigger.update request isActive now stored).2.2 then request stored else stored := by
  cases isActive with
  | true => rw [update_active]; rfl
  | false =>
    rcases hholding : trigger.holding with _ | _
    · rw [update_idle request trigger now stored hholding]
      rfl
    rcases hreleasing : trigger.releasing with _ | _
    · rw [update_released request trigger now stored hholding hreleasing]
      rfl
    by_cases hsettled : kReleaseSettleMs ≤ now - trigger.releaseStartMs
    · simp only [update_settled request trigger now stored hholding hreleasing hsettled,
        decide_eq_true_eq]
    · rw [update_settling request trigger now stored hholding hreleasing hsettled]
      rfl

/-- What the trigger does next and returns does not depend on the store. -/
theorem update_eq_update_id (isActive : Bool) :
    (trigger.update request isActive now stored).1 = (trigger.update id isActive now ()).1 ∧
      (trigger.update request isActive now stored).2.2 =
        (trigger.update id isActive now ()).2.2 := by
  cases isActive with
  | true => simp only [update_active, and_self]
  | false =>
    rcases hholding : trigger.holding with _ | _
    · simp only [update_idle _ trigger now _ hholding, and_self]
    rcases hreleasing : trigger.releasing with _ | _
    · simp only [update_released _ trigger now _ hholding hreleasing, and_self]
    by_cases hsettled : kReleaseSettleMs ≤ now - trigger.releaseStartMs
    · simp only [update_settled _ trigger now _ hholding hreleasing hsettled, and_self]
    · simp only [update_settling _ trigger now _ hholding hreleasing hsettled, and_self]

end ButtonSetupModeTrigger
end Loco2Mqtt
