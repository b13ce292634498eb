namespace StatefulRun

/-- How a run ends. It runs out of time when a loop or a chain of calls is longer than the run is
followed. -/
inductive Result (α : Type) where
  | value (value : α)
  | timeout
  | raised (message : String)
  | crashed

/-- Runs that change a state `S`. -/
def Run (S α : Type) : Type := S → Result α × S

namespace Run

variable {S α β σ : Type}

def pure (value : α) : Run S α := fun state => (.value value, state)

def bind (first : Run S α) (next : α → Run S β) : Run S β := fun state =>
  match first state with
  | (.value value, state) => next value state
  | (.timeout, state) => (.timeout, state)
  | (.raised message, state) => (.raised message, state)
  | (.crashed, state) => (.crashed, state)

instance : Monad (Run S) where
  pure := pure
  bind := bind

def timeout : Run S α := fun state => (.timeout, state)

def raise (message : String) : Run S α := fun state => (.raised message, state)

def crash : Run S α := fun state => (.crashed, state)

/-- Run `handler` where `first` raises; what `first` did before stays done. -/
def attempt (first : Run S α) (handler : String → Run S α) : Run S α := fun state =>
  match first state with
  | (.raised message, state) => handler message state
  | result => result

/-- Repeat a step until it ends, for at most the given number of times. -/
def iterate (step : σ → Run S (σ ⊕ β)) : Nat → σ → Run S β
  | 0, _ => timeout
  | fuel + 1, position => do
    match ← step position with
    | .inl position => iterate step fuel position
    | .inr result => pure result

/-- From a state with `pre`, the code ends in one with `post`, or stops without a value in one
with `stopped`. -/
def Triple (pre : S → Prop) (code : Run S α) (post : α → S → Prop) (stopped : S → Prop) : Prop :=
  ∀ state, pre state →
    match code state with
    | (.value value, after) => post value after
    | (_, after) => stopped after

section Rules

variable {pre : S → Prop} {post : α → S → Prop} {post' : β → S → Prop} {stopped : S → Prop}

theorem Triple.intro {code : Run S α}
    (hvalue : ∀ state value, pre state → (code state).1 = .value value → post value (code state).2)
    (hstopped : ∀ state, pre state → (∀ value, (code state).1 ≠ .value value) → stopped (code state).2) :
    Triple pre code post stopped := by
  intro state hpre
  have hvalue := hvalue state
  have hstopped := hstopped state hpre
  cases hresult : code state with
  | mk result after =>
    rw [hresult] at hvalue hstopped
    cases result with
    | value value => exact hvalue value hpre rfl
    | timeout | raised _ | crashed => exact hstopped fun _ heq => by cases heq

theorem Triple.pure {value : α} (h : ∀ state, pre state → post value state) :
    Triple pre (Pure.pure value : Run S α) post stopped := h

theorem Triple.bind {first : Run S α} {next : α → Run S β} (h1 : Triple pre first post stopped)
    (h2 : ∀ value, Triple (post value) (next value) post' stopped) :
    Triple pre (first >>= next) post' stopped := by
  intro state hpre
  have hfirst := h1 state hpre
  change match Run.bind first next state with
    | (.value value, after) => post' value after
    | (_, after) => stopped after
  unfold Run.bind
  cases hresult : first state with
  | mk result after =>
    rw [hresult] at hfirst
    cases result with
    | value value => exact h2 value after hfirst
    | timeout | raised _ | crashed => exact hfirst

theorem Triple.mono {pre' : S → Prop} {post'' : α → S → Prop} {stopped' : S → Prop} {code : Run S α}
    (h : Triple pre code post stopped) (hpre : ∀ state, pre' state → pre state)
    (hpost : ∀ value state, post value state → post'' value state)
    (hstopped : ∀ state, stopped state → stopped' state) : Triple pre' code post'' stopped' := by
  intro state hstate
  have hcode := h state (hpre state hstate)
  cases hresult : code state with
  | mk result after =>
    rw [hresult] at hcode
    cases result with
    | value value => exact hpost value after hcode
    | timeout | raised _ | crashed => exact hstopped after hcode

/-- A step that keeps `inv` while it goes on. -/
theorem Triple.iterate {inv : σ → S → Prop} {step : σ → Run S (σ ⊕ α)}
    (hstep : ∀ position, Triple (inv position) (step position)
      (fun result => result.elim inv post) stopped)
    (hstopped : ∀ position state, inv position state → stopped state) (fuel : Nat) (position : σ) :
    Triple (inv position) (iterate step fuel position) post stopped := by
  induction fuel generalizing position with
  | zero => exact hstopped position
  | succ fuel ih =>
    refine (hstep position).bind fun result => ?_
    cases result with
    | inl position => exact ih position
    | inr value => exact .pure fun _ hpost => hpost

end Rules

end Run

end StatefulRun
