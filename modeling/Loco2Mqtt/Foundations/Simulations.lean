import Loco2Mqtt.Foundations.Runs

/-! Two machines side by side. One simulates the other if a relation between their states is
kept when a step of the first is answered by the events of the second that it amounts to. And
two machines that are stepped together are one machine over pairs, so what relates them along
two runs is an invariant of one. -/

namespace Loco2Mqtt.Simulations

open Runs

universe u v

variable {S T : Type u} {E F : Type v} {step : S → E → S} {step' : T → F → T}

/-! ### Simulation -/

/-- What the events of a run amount to, where `image s e` is what `e` amounts to in `s`. -/
def runImage (step : S → E → S) (image : S → E → List F) : S → List E → List F
  | _, [] => []
  | s, e :: rest => image s e ++ runImage step image (step s e) rest

variable {image : S → E → List F}

/-- A relation that every step keeps is kept by the whole run. -/
theorem run_related {R : S → T → Prop}
    (hstep : ∀ s t e, R s t → R (step s e) (run step' t (image s e))) {s : S} {t : T}
    (h : R s t) (events : List E) :
    R (run step s events) (run step' t (runImage step image s events)) := by
  induction events generalizing s t with
  | nil => exact h
  | cons e rest ih =>
    rw [run_cons, runImage, run_append]
    exact ih (hstep s t e h)

theorem runImage_append (s : S) (first second : List E) :
    runImage step image s (first ++ second) =
      runImage step image s first ++ runImage step image (run step s first) second := by
  induction first generalizing s with
  | nil => rfl
  | cons e rest ih =>
    rw [List.cons_append, runImage, runImage, ih, List.append_assoc, run_cons]

/-- What holds of the image of every step holds of the image of the run. -/
theorem forall_mem_runImage {P : F → Prop} {I : S → Prop} {A : S → E → Prop}
    (hstep : ∀ s e, I s → A s e → I (step s e)) (hP : ∀ s e, I s → A s e → ∀ f ∈ image s e, P f)
    {s : S} (hs : I s) {events : List E} (hA : AtEachStep step A s events) :
    ∀ f ∈ runImage step image s events, P f := by
  induction events generalizing s with
  | nil => exact fun f hf => absurd hf List.not_mem_nil
  | cons e rest ih =>
    intro f hf
    rcases List.mem_append.mp hf with hf | hf
    · exact hP s e hs hA.1 f hf
    · exact ih (hstep s e hs hA.1) hA.2 f hf

/-! ### Stepping together -/

def pairStep (step : S → E → S) (step' : T → F → T) (states : S × T) (events : E × F) : S × T :=
  (step states.1 events.1, step' states.2 events.2)

theorem run_pairStep (s : S) (t : T) (events : List (E × F)) :
    run (pairStep step step') (s, t) events =
      (run step s (events.map Prod.fst), run step' t (events.map Prod.snd)) := by
  induction events generalizing s t with
  | nil => rfl
  | cons e rest ih =>
    rw [run_cons, pairStep, ih]
    rfl

/-- A relation that every pair of steps keeps, under what is assumed of them, is kept along the
two runs. -/
theorem runs_related {R : S → T → Prop} {A : S × T → E × F → Prop}
    (hstep : ∀ s t e f, R s t → A (s, t) (e, f) → R (step s e) (step' t f)) {s : S} {t : T}
    (h : R s t) {events : List (E × F)} (hA : AtEachStep (pairStep step step') A (s, t) events) :
    R (run step s (events.map Prod.fst)) (run step' t (events.map Prod.snd)) := by
  have hrun := run_invariant (I := fun states : S × T => R states.1 states.2)
    (fun states e hR he => hstep states.1 states.2 e.1 e.2 hR he) h hA
  rwa [run_pairStep] at hrun

end Loco2Mqtt.Simulations
