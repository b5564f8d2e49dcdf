/-!
# Runs of a system

A run takes a list of events one after the other. What an invariant guarantees of each step it
guarantees of every step of a run.
-/

namespace TypePython.Lib

section Runs

variable {σ ε : Type} (next : σ → ε → σ)

/-- Every step of the run from a state has a property in the state it is taken in. -/
def EveryStep (property : σ → ε → Prop) : σ → List ε → Prop
  | _, [] => True
  | s, event :: events => property s event ∧ EveryStep property (next s event) events

variable {next}

/-- The rule of invariants: a condition on the steps that keeps the invariant, and that
guarantees a property under it, guarantees it along every run. -/
theorem EveryStep.of_invariant {inv : σ → Prop} {condition property : σ → ε → Prop}
    (hstep : ∀ s event, inv s → condition s event → property s event ∧ inv (next s event))
    {s : σ} {events : List ε} (hinv : inv s) (h : EveryStep next condition s events) :
    EveryStep next property s events := by
  induction events generalizing s with
  | nil => exact trivial
  | cons event rest ih =>
    rcases h with ⟨hcondition, hrest⟩
    rcases hstep s event hinv hcondition with ⟨hproperty, hnext⟩
    exact ⟨hproperty, ih hnext hrest⟩

end Runs

end TypePython.Lib
