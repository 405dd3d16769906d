import Mathlib.Data.List.Forall2

/-! What a machine answers to a sequence of inputs, until it fails. Two runs give the same
answers if their steps go in lockstep: related states answer related inputs alike and stay
related, or both fail. -/

namespace Loco2Mqtt.Transcripts

variable {S T E F O ε : Type*}

/-- The answers, and the last state or the failure that ended the run. -/
def transcript (step : S → E → Except ε (O × S)) : S → List E → List O × Except ε S
  | s, [] => ([], .ok s)
  | s, e :: rest =>
    match step s e with
    | .error error => ([], .error error)
    | .ok (answer, s) =>
      let (answers, outcome) := transcript step s rest
      (answer :: answers, outcome)

/-- Both steps fail alike, or both give the same answer and leave related states. -/
def Lockstep (R : S → T → Prop) : Except ε (O × S) → Except ε (O × T) → Prop
  | .error error, .error error' => error = error'
  | .ok (answer, s), .ok (answer', t) => answer = answer' ∧ R s t
  | .error _, .ok _ => False
  | .ok _, .error _ => False

variable {step : S → E → Except ε (O × S)} {step' : T → F → Except ε (O × T)}

/-- If related inputs keep related states in lockstep, the answers are the same throughout. -/
theorem answers_eq_of_lockstep {R : S → T → Prop} {Q : E → F → Prop}
    (hstep : ∀ s t e f, R s t → Q e f → Lockstep R (step s e) (step' t f)) {s : S} {t : T}
    {inputs : List E} {inputs' : List F} (h : R s t) (hinputs : List.Forall₂ Q inputs inputs') :
    (transcript step s inputs).1 = (transcript step' t inputs').1 := by
  induction hinputs generalizing s t with
  | nil => rfl
  | @cons e f rest rest' hef _ ih =>
    have hnext := hstep s t e f h hef
    rw [transcript, transcript]
    cases hs : step s e with
    | error error =>
      cases ht : step' t f with
      | error error' => rfl
      | ok result =>
        rw [hs, ht] at hnext
        exact absurd hnext id
    | ok result =>
      cases ht : step' t f with
      | error error' =>
        rw [hs, ht] at hnext
        exact absurd hnext id
      | ok result' =>
        rw [hs, ht] at hnext
        obtain ⟨hanswer, hrelated⟩ := hnext
        simp only
        rw [hanswer, ih hrelated]

end Loco2Mqtt.Transcripts
