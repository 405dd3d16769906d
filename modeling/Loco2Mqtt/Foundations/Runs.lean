import Mathlib.Data.Nat.Notation

/-! Runs of a deterministic machine over a list of events, and the two inductions every
result about them uses: an invariant holds along the whole run, and two conditions that
agree wherever the invariant holds agree along the whole run. -/

namespace Loco2Mqtt.Runs

universe u v

variable {State : Type u} {Event : Type v} (step : State → Event → State)

/-- The state after the events, in order. -/
def run (s : State) (events : List Event) : State := events.foldl step s

@[simp] theorem run_nil (s : State) : run step s [] = s := rfl

@[simp] theorem run_cons (s : State) (e : Event) (rest : List Event) :
    run step s (e :: rest) = run step (step s e) rest := rfl

theorem run_append (s : State) (first second : List Event) :
    run step s (first ++ second) = run step (run step s first) second :=
  List.foldl_append

theorem run_concat (s : State) (first : List Event) (e : Event) :
    run step s (first ++ [e]) = step (run step s first) e := by
  rw [run_append, run_cons, run_nil]

/-- `P` holds of every event of the run and the state it finds. -/
def AtEachStep (P : State → Event → Prop) : State → List Event → Prop
  | _, [] => True
  | s, e :: rest => P s e ∧ AtEachStep P (step s e) rest

instance instDecidableAtEachStep {P : State → Event → Prop} [∀ s e, Decidable (P s e)] :
    ∀ s events, Decidable (AtEachStep step P s events)
  | _, [] => isTrue trivial
  | s, e :: rest =>
    have : Decidable (AtEachStep step P (step s e) rest) := instDecidableAtEachStep _ rest
    inferInstanceAs (Decidable (P s e ∧ AtEachStep step P (step s e) rest))

variable {step}

theorem atEachStep_append {P : State → Event → Prop} {s : State} {first second : List Event} :
    AtEachStep step P s (first ++ second) ↔
      AtEachStep step P s first ∧ AtEachStep step P (run step s first) second := by
  induction first generalizing s with
  | nil => simp [AtEachStep]
  | cons e rest ih => simp only [List.cons_append, AtEachStep, ih, run_cons, and_assoc]

theorem atEachStep_and {P Q : State → Event → Prop} {s : State} {events : List Event} :
    AtEachStep step (fun s e => P s e ∧ Q s e) s events ↔
      AtEachStep step P s events ∧ AtEachStep step Q s events := by
  induction events generalizing s with
  | nil => simp [AtEachStep]
  | cons e rest ih =>
    simp only [AtEachStep, ih]
    exact and_and_and_comm

/-- What one step preserves under the run's own assumption holds after the whole run. -/
theorem run_invariant {I : State → Prop} {A : State → Event → Prop}
    (hstep : ∀ s e, I s → A s e → I (step s e)) {s : State} {events : List Event}
    (hs : I s) (hA : AtEachStep step A s events) : I (run step s events) := by
  induction events generalizing s with
  | nil => exact hs
  | cons e rest ih => exact ih (hstep s e hs hA.1) hA.2

theorem run_invariant_of_step {I : State → Prop} (hstep : ∀ s e, I s → I (step s e)) {s : State}
    (hs : I s) (events : List Event) : I (run step s events) := by
  induction events generalizing s with
  | nil => exact hs
  | cons e rest ih => exact ih (hstep s e hs)

/-- A quantity that no step lowers stays below every bound that it ends below. -/
theorem atEachStep_lt_of_run {f : State → ℕ} (hmono : ∀ s e, f s ≤ f (step s e)) {bound : ℕ}
    {s : State} {events : List Event} (h : f (run step s events) < bound) :
    AtEachStep step (fun s e => f (step s e) < bound) s events := by
  induction events generalizing s with
  | nil => trivial
  | cons e rest ih =>
    have hrest : f (step s e) ≤ f (run step (step s e) rest) :=
      run_invariant_of_step (I := fun s' => f (step s e) ≤ f s')
        (fun s' e' hs' => Nat.le_trans hs' (hmono s' e')) (Nat.le_refl _) rest
    exact ⟨Nat.lt_of_le_of_lt hrest h, ih h⟩

/-- Two conditions that agree at every state satisfying the invariant agree on every run. -/
theorem atEachStep_iff {I : State → Prop} {A P Q : State → Event → Prop}
    (hstep : ∀ s e, I s → A s e → I (step s e)) (hPQ : ∀ s e, I s → A s e → (P s e ↔ Q s e))
    {s : State} {events : List Event} (hs : I s) (hA : AtEachStep step A s events) :
    AtEachStep step P s events ↔ AtEachStep step Q s events := by
  induction events generalizing s with
  | nil => exact Iff.rfl
  | cons e rest ih => exact and_congr (hPQ s e hs hA.1) (ih (hstep s e hs hA.1) hA.2)

theorem atEachStep_of_forall {P : State → Event → Prop} {events : List Event}
    (h : ∀ s, ∀ e ∈ events, P s e) (s : State) : AtEachStep step P s events := by
  induction events generalizing s with
  | nil => trivial
  | cons e rest ih =>
    exact ⟨h s e List.mem_cons_self, ih (fun s e he => h s e (List.mem_cons_of_mem _ he)) _⟩

theorem atEachStep_iff_of_step {I : State → Prop} {P Q : State → Event → Prop}
    (hstep : ∀ s e, I s → I (step s e)) (hPQ : ∀ s e, I s → (P s e ↔ Q s e)) {s : State}
    (hs : I s) (events : List Event) :
    AtEachStep step P s events ↔ AtEachStep step Q s events :=
  atEachStep_iff (A := fun _ _ => True) (fun s e h _ => hstep s e h) (fun s e h _ => hPQ s e h) hs
    (atEachStep_of_forall (fun _ _ _ => trivial) s)

/-- The same, where it is `P` itself that keeps the invariant: both fail first at one step. -/
theorem atEachStep_iff_of_kept {I : State → Prop} {P Q : State → Event → Prop}
    (hkept : ∀ s e, I s → P s e → I (step s e)) (hPQ : ∀ s e, I s → (P s e ↔ Q s e)) {s : State}
    (hs : I s) (events : List Event) :
    AtEachStep step P s events ↔ AtEachStep step Q s events := by
  induction events generalizing s with
  | nil => exact Iff.rfl
  | cons e rest ih =>
    rw [AtEachStep, AtEachStep, ← hPQ s e hs]
    exact and_congr_right (fun h => ih (hkept s e hs h))

end Loco2Mqtt.Runs
