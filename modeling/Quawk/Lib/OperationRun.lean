import Mathlib.Order.Basic

namespace OperationRun

variable {S O : Type} (apply : S → O → S)

/-- The state a list of operations leads to. -/
def run (state : S) (operations : List O) : S := operations.foldl apply state

/-- The law holds of every operation at the state it is applied in. -/
def Every (law : S → O → Prop) : S → List O → Prop
  | _, [] => True
  | state, operation :: operations => law state operation ∧ Every law (apply state operation) operations

variable {apply}

/-- An invariant that lawful operations keep holds where a lawful run ends. -/
theorem Every.run {law : S → O → Prop} {inv : S → Prop} {state : S} {operations : List O}
    (h : Every apply law state operations) (hstart : inv state)
    (hstep : ∀ state operation, inv state → law state operation → inv (apply state operation)) :
    inv (run apply state operations) := by
  induction operations generalizing state with
  | nil => exact hstart
  | cons operation operations ih => exact ih h.2 (hstep state operation hstart h.1)

theorem Every.mono {law law' : S → O → Prop} {inv : S → Prop} {state : S} {operations : List O}
    (h : Every apply law state operations) (hstart : inv state)
    (hstep : ∀ state operation, inv state → law state operation → inv (apply state operation))
    (hlaw : ∀ state operation, inv state → law state operation → law' state operation) :
    Every apply law' state operations := by
  induction operations generalizing state with
  | nil => trivial
  | cons operation operations ih =>
    exact ⟨hlaw state operation hstart h.1, ih h.2 (hstep state operation hstart h.1)⟩

/-- Two laws hold of the same runs if, where the invariant holds, they hold of the same operations, and these
keep the invariant. -/
theorem every_iff {law law' : S → O → Prop} {inv : S → Prop} {state : S} (hstart : inv state)
    (hlaw : ∀ state operation, inv state → (law state operation ↔ law' state operation))
    (hstep : ∀ state operation, inv state → law state operation → inv (apply state operation))
    (operations : List O) : Every apply law state operations ↔ Every apply law' state operations := by
  constructor
  · intro h
    exact h.mono hstart hstep fun state operation hinv => (hlaw state operation hinv).mp
  · intro h
    refine h.mono hstart (fun state operation hinv hlaw' => ?_) fun state operation hinv => (hlaw state operation hinv).mpr
    exact hstep state operation hinv ((hlaw state operation hinv).mpr hlaw')

end OperationRun
