import Mathlib.Data.List.Pairwise

/-! Runs of a deterministic machine that reads one input and emits a list of
outputs at every step. Every choice of the environment is an input. -/
namespace Run

variable {State Input Output : Type} (step : State → Input → State × List Output)

/-- The state after a whole list of inputs. -/
def after : State → List Input → State
  | state, [] => state
  | state, input :: rest => after (step state input).1 rest

/-- Everything emitted along the run, oldest first. -/
def outputs : State → List Input → List Output
  | _, [] => []
  | state, input :: rest => (step state input).2 ++ outputs (step state input).1 rest

/-- `holds` is true of every input in the state that reads it. -/
def Along (holds : State → Input → Prop) : State → List Input → Prop
  | _, [] => True
  | state, input :: rest => holds state input ∧ Along holds (step state input).1 rest

instance decidableAlong {holds : State → Input → Prop}
    [∀ state input, Decidable (holds state input)] :
    ∀ state inputs, Decidable (Along step holds state inputs)
  | _, [] => inferInstanceAs (Decidable True)
  | state, input :: rest =>
      have : Decidable (Along step holds (step state input).1 rest) := decidableAlong _ rest
      inferInstanceAs (Decidable (holds state input ∧ Along step holds (step state input).1 rest))

variable {step}

/-- What is always true is true along every run. -/
theorem along_of_forall {holds : State → Input → Prop} (h : ∀ state input, holds state input)
    (state : State) (inputs : List Input) : Along step holds state inputs := by
  induction inputs generalizing state with
  | nil => trivial
  | cons input rest ih => exact ⟨h state input, ih _⟩

theorem along_congr {holds other : State → Input → Prop}
    (h : ∀ state input, holds state input ↔ other state input) (state : State)
    (inputs : List Input) : Along step holds state inputs ↔ Along step other state inputs := by
  induction inputs generalizing state with
  | nil => exact Iff.rfl
  | cons input rest ih => exact and_congr (h state input) (ih _)

theorem after_append (state : State) (first second : List Input) :
    after step state (first ++ second) = after step (after step state first) second := by
  induction first generalizing state with
  | nil => rfl
  | cons input rest ih => exact ih _

/-- An invariant kept by every step that meets the condition holds after the
whole run. -/
theorem after_invariant {holds : State → Input → Prop} {inv : State → Prop}
    (hStep : ∀ state input, inv state → holds state input → inv (step state input).1)
    {inputs : List Input} {state : State} (hStart : inv state)
    (hAlong : Along step holds state inputs) : inv (after step state inputs) := by
  induction inputs generalizing state with
  | nil => exact hStart
  | cons input rest ih => exact ih (hStep _ _ hStart hAlong.1) hAlong.2

private theorem history_invariant_from {holds : State → Input → Prop}
    {inv : List Output → State → Prop}
    (hStep : ∀ log state input, inv log state → holds state input →
      inv (log ++ (step state input).2) (step state input).1)
    {inputs : List Input} {log : List Output} {state : State} (hStart : inv log state)
    (hAlong : Along step holds state inputs) :
    inv (log ++ outputs step state inputs) (after step state inputs) := by
  induction inputs generalizing log state with
  | nil => simpa [outputs, after] using hStart
  | cons input rest ih =>
      have hNext := ih (hStep log state input hStart hAlong.1) hAlong.2
      simpa [outputs, after, List.append_assoc] using hNext

/-- The same for an invariant that relates the state to everything emitted so
far. -/
theorem history_invariant (step : State → Input → State × List Output)
    {holds : State → Input → Prop} (inv : List Output → State → Prop)
    (hStep : ∀ log state input, inv log state → holds state input →
      inv (log ++ (step state input).2) (step state input).1)
    {inputs : List Input} {state : State} (hStart : inv [] state)
    (hAlong : Along step holds state inputs) :
    inv (outputs step state inputs) (after step state inputs) := by
  simpa using history_invariant_from hStep hStart hAlong

end Run
