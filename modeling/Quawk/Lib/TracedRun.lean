import Mathlib.Data.List.Basic
import Quawk.Lib.StatefulRun

namespace TracedRun

open StatefulRun (Result)

/-- What a run leaves: how it ends, its last state and its events. -/
structure Outcome (S E α : Type) where
  result : Result α
  state : S
  events : List E

/-- Runs that change a state `S` and leave events `E`. -/
def Traced (S E α : Type) : Type := S → Outcome S E α

variable {S E F α β γ : Type}

/-- Go on where there is a value. -/
def Outcome.and_then (first : Outcome S E α) (next : α → Traced S E β) : Outcome S E β :=
  match first.result with
  | .value value => ⟨(next value first.state).result, (next value first.state).state,
      first.events ++ (next value first.state).events⟩
  | .timeout => ⟨.timeout, first.state, first.events⟩
  | .raised message => ⟨.raised message, first.state, first.events⟩
  | .crashed => ⟨.crashed, first.state, first.events⟩

/-- An outcome without a value is not gone on from. -/
theorem Outcome.and_then_of_stop {first : Outcome S E α} (h : ∀ value, first.result ≠ .value value)
    (next : α → Traced S E β) (middle : α → Traced S E γ) (last : γ → Traced S E β) :
    (∀ value, (first.and_then middle).result ≠ .value value) ∧
      first.and_then next = (first.and_then middle).and_then last := by
  unfold Outcome.and_then
  cases hresult : first.result with
  | value value => exact absurd hresult (h value)
  | timeout | raised _ | crashed => exact ⟨fun _ hvalue => (by cases hvalue), rfl⟩

/-- The events of an outcome come before those of what goes on from it. -/
theorem Outcome.and_then_events (first : Outcome S E α) (next : α → Traced S E β) :
    ∃ more, (first.and_then next).events = first.events ++ more := by
  unfold Outcome.and_then
  cases first.result with
  | value value => exact ⟨_, rfl⟩
  | timeout | raised _ | crashed => exact ⟨[], (List.append_nil _).symm⟩

namespace Traced

def pure (value : α) : Traced S E α := fun state => ⟨.value value, state, []⟩

def bind (first : Traced S E α) (next : α → Traced S E β) : Traced S E β := fun state =>
  (first state).and_then next

instance : Monad (Traced S E) where
  pure := pure
  bind := bind

def stop (result : Result α) : Traced S E α := fun state => ⟨result, state, []⟩

/-- Run `handler` where `first` raises; what `first` did before stays done. -/
def attempt (first : Traced S E α) (handler : String → Traced S E α) : Traced S E α := fun state =>
  match (first state).result with
  | .raised message =>
    ⟨(handler message (first state).state).result, (handler message (first state).state).state,
      (first state).events ++ (handler message (first state).state).events⟩
  | _ => first state

theorem bind_of_value {first : Traced S E α} {next : α → Traced S E β} {state : S} {value : α}
    (h : (first state).result = .value value) : (first >>= next) state =
      ⟨(next value (first state).state).result, (next value (first state).state).state,
        (first state).events ++ (next value (first state).state).events⟩ := by
  change (first state).and_then next = _
  rw [Outcome.and_then, h]

/-- A run without a value ends what it is part of. -/
theorem bind_of_stop {first : Traced S E α} {next : α → Traced S E α} {state : S}
    (h : ∀ value, (first state).result ≠ .value value) : (first >>= next) state = first state := by
  change (first state).and_then next = first state
  unfold Outcome.and_then
  generalize first state = outcome at h ⊢
  obtain ⟨result, after, events⟩ := outcome
  cases result with
  | value value => exact absurd rfl (h value)
  | timeout | raised _ | crashed => rfl

/-- The events of a run stay in what it is part of. -/
theorem mem_events_bind {first : Traced S E α} {next : α → Traced S E β} {state : S} {event : E}
    (h : event ∈ (first state).events) : event ∈ ((first >>= next) state).events := by
  obtain ⟨more, hmore⟩ := (first state).and_then_events next
  change event ∈ ((first state).and_then next).events
  rw [hmore]
  exact List.mem_append_left _ h

theorem bind_pure (run : Traced S E α) : run >>= Pure.pure = run := by
  funext state
  change (run state).and_then pure = run state
  unfold Outcome.and_then
  obtain ⟨result, after, events⟩ := run state
  cases result with
  | value value => exact congrArg _ (List.append_nil events)
  | timeout | raised _ | crashed => rfl

theorem bind_assoc (first : Traced S E α) (next : α → Traced S E β) (last : β → Traced S E γ) :
    first >>= next >>= last = first >>= fun value => next value >>= last := by
  funext state
  change ((first state).and_then next).and_then last = (first state).and_then fun value => next value >>= last
  obtain ⟨result, after, events⟩ := first state
  cases result with
  | value value =>
    change Outcome.and_then ⟨(next value after).result, (next value after).state,
      events ++ (next value after).events⟩ last = ⟨((next value after).and_then last).result,
        ((next value after).and_then last).state, events ++ ((next value after).and_then last).events⟩
    unfold Outcome.and_then
    cases (next value after).result with
    | value other => exact congrArg _ (List.append_assoc ..)
    | timeout | raised _ | crashed => rfl
  | timeout | raised _ | crashed => rfl

/-- The run with its events written down in another way, which may depend on whether it ends with a value. -/
def relabel (label : Bool → List E → List F) (run : Traced S E α) : Traced S F α := fun state =>
  match (run state).result with
  | .value value => ⟨.value value, (run state).state, label true (run state).events⟩
  | result => ⟨result, (run state).state, label false (run state).events⟩

/-- The run with each event spelled out. -/
def spelled (spell : F → List E) (run : Traced S F α) : Traced S E α := fun state =>
  ⟨(run state).result, (run state).state, (run state).events.flatMap spell⟩

theorem relabel_result (label : Bool → List E → List F) (run : Traced S E α) (state : S) :
    (relabel label run state).result = (run state).result := by
  unfold relabel
  cases h : (run state).result <;> rfl

theorem relabel_state (label : Bool → List E → List F) (run : Traced S E α) (state : S) :
    (relabel label run state).state = (run state).state := by
  unfold relabel
  cases h : (run state).result <;> rfl

theorem spelled_pure (spell : F → List E) (value : α) :
    spelled spell (Pure.pure value : Traced S F α) = Pure.pure value := rfl

theorem spelled_bind (spell : F → List E) (first : Traced S F α) (next : α → Traced S F β) :
    spelled spell (first >>= next) = spelled spell first >>= fun value => spelled spell (next value) := by
  funext state
  change (⟨((first state).and_then next).result, ((first state).and_then next).state,
    ((first state).and_then next).events.flatMap spell⟩ : Outcome S E β) = _
  change _ = (spelled spell first state).and_then fun value => spelled spell (next value)
  unfold Outcome.and_then
  cases h : (first state).result with
  | value value =>
    simp only [spelled, h]
    exact congrArg _ List.flatMap_append
  | timeout | raised _ | crashed => simp only [spelled, h]

theorem spelled_relabel {spell : F → List E} {label : Bool → List E → List F}
    (h : ∀ ended events, (label ended events).flatMap spell = events) (run : Traced S E α) :
    spelled spell (relabel label run) = run := by
  funext state
  unfold spelled relabel
  obtain ⟨result, after, events⟩ := run state
  cases result <;> simp only [h]

variable {P : Type}

/-- The marks of a part of the code: its events, and where it stops without a value. -/
def part_marks (part : P) (ended : Bool) (events : List E) : List (P × Option E) :=
  events.map (fun event => (part, some event)) ++ if ended then [] else [(part, none)]

/-- The run with every event marked as one of this part of the code. -/
def mark (part : P) (run : Traced S E α) : Traced S (P × Option E) α := run.relabel (part_marks part)

theorem mark_result (part : P) (run : Traced S E α) (state : S) : (run.mark part state).result = (run state).result :=
  relabel_result ..

theorem mark_state (part : P) (run : Traced S E α) (state : S) : (run.mark part state).state = (run state).state :=
  relabel_state ..

/-- The run as a step of its own, which is marked also where it has no events. -/
def announce (part : P) (run : Traced S E α) : Traced S (P × Option E) α :=
  run.relabel fun _ events => (part, none) :: events.map fun event => (part, some event)

theorem announce_result (part : P) (run : Traced S E α) (state : S) :
    (run.announce part state).result = (run state).result :=
  relabel_result ..

theorem announce_state (part : P) (run : Traced S E α) (state : S) :
    (run.announce part state).state = (run state).state :=
  relabel_state ..

theorem announce_events (part : P) (run : Traced S E α) (state : S) :
    (run.announce part state).events = (part, none) :: (run state).events.map fun event => (part, some event) := by
  unfold announce relabel
  cases (run state).result <;> rfl

/-- The event of a mark. -/
def unmarked (mark : P × Option E) : List E := mark.2.toList

theorem unmarked_part_marks (part : P) (ended : Bool) (events : List E) :
    (part_marks part ended events).flatMap unmarked = events := by
  unfold part_marks
  rw [List.flatMap_append, List.flatMap_map]
  have hevents : events.flatMap (fun event => unmarked (part, some event)) = events := List.flatMap_singleton' events
  rw [hevents]
  cases ended <;> exact List.append_nil events

theorem part_of_mem_part_marks {part : P} {ended : Bool} {events : List E} {found : P × Option E}
    (h : found ∈ part_marks part ended events) : found.1 = part := by
  unfold part_marks at h
  obtain hevent | hstop := List.mem_append.mp h
  · obtain ⟨_, _, rfl⟩ := List.mem_map.mp hevent
    rfl
  · cases ended with
    | true => cases hstop
    | false =>
      rw [List.mem_singleton.mp hstop]

theorem spelled_mark (part : P) (run : Traced S E α) : spelled unmarked (run.mark part) = run :=
  spelled_relabel (unmarked_part_marks part) run

theorem spelled_announce (part : P) (run : Traced S E α) : spelled unmarked (run.announce part) = run := by
  refine spelled_relabel (fun _ events => ?_) run
  rw [List.flatMap_cons, List.flatMap_map]
  exact List.flatMap_singleton' events

theorem part_of_mem_mark {part : P} {run : Traced S E α} {state : S} {found : P × Option E}
    (h : found ∈ (run.mark part state).events) : found.1 = part := by
  unfold mark relabel at h
  split at h <;> exact part_of_mem_part_marks h

/-- The run ends with a value and without events. -/
def Effectless (run : Traced S E α) (state : S) : Prop :=
  (∃ value, (run state).result = .value value) ∧ (run state).events = []

theorem mark_events_eq_nil {part : P} {run : Traced S E α} {state : S} :
    (run.mark part state).events = [] ↔ run.Effectless state := by
  unfold mark relabel Effectless part_marks
  cases (run state).result <;> simp

/-- A run without events in front of another. -/
theorem bind_of_effectless {first : Traced S E α} {next : α → Traced S E β} {state : S} {value : α}
    (h : (first state).result = .value value) (hevents : (first state).events = []) :
    (first >>= next) state = next value (first state).state := by
  rw [bind_of_value h, hevents]
  rfl

/-- Without events a run leads from a state to one like it. -/
def Quiet (same : S → S → Prop) (run : Traced S E α) : Prop :=
  ∀ state, (run state).events = [] → same state (run state).state

section Quiet

variable {same : S → S → Prop}

theorem Quiet.pure (hsame : Equivalence same) (value : α) : Quiet same (Pure.pure value : Traced S E α) :=
  fun state _ => hsame.refl state

theorem Quiet.bind (hsame : Equivalence same) {first : Traced S E α} {next : α → Traced S E β} (h : Quiet same first)
    (hnext : ∀ value, Quiet same (next value)) :
    Quiet same (first >>= next) := by
  intro state hevents
  change ((first state).and_then next).events = [] at hevents
  change same state ((first state).and_then next).state
  unfold Outcome.and_then at hevents ⊢
  cases hresult : (first state).result with
  | value value =>
    rw [hresult] at hevents
    obtain ⟨hfirst, hrest⟩ := List.append_eq_nil_iff.mp hevents
    exact hsame.trans (h state hfirst) (hnext value _ hrest)
  | timeout | raised _ | crashed =>
    rw [hresult] at hevents
    exact h state hevents

theorem Quiet.attempt (hsame : Equivalence same) {first : Traced S E α} {handler : String → Traced S E α} (h : Quiet same first)
    (hhandler : ∀ message, Quiet same (handler message)) : Quiet same (first.attempt handler) := by
  intro state hevents
  unfold Traced.attempt at hevents ⊢
  cases hresult : (first state).result with
  | raised message =>
    rw [hresult] at hevents
    obtain ⟨hfirst, hrest⟩ := List.append_eq_nil_iff.mp hevents
    exact hsame.trans (h state hfirst) (hhandler message _ hrest)
  | value _ | timeout | crashed =>
    rw [hresult] at hevents
    exact h state hevents

end Quiet

end Traced

/-- Runs with the outcomes that are allowed of them. -/
def Allowed (S E α : Type) : Type := S → Outcome S E α → Prop

namespace Allowed

def pure (value : α) : Allowed S E α := fun state outcome => outcome = ⟨.value value, state, []⟩

def bind (first : Allowed S E α) (next : α → Allowed S E β) : Allowed S E β := fun state outcome =>
  ∃ (start : Outcome S E α) (rest : α → Traced S E β), first state start ∧
    (∀ value, start.result = .value value → next value start.state (rest value start.state)) ∧
    outcome = start.and_then rest

instance : Monad (Allowed S E) where
  pure := pure
  bind := bind

/-- The outcome of a run. -/
def exactly (run : Traced S E α) : Allowed S E α := fun state outcome => outcome = run state

/-- The outcomes of a run up to states that are alike. -/
def loosely (same : S → S → Prop) (run : Traced S E α) : Allowed S E α := fun state outcome =>
  ∃ start, same state start ∧ outcome.result = (run start).result ∧ outcome.events = (run start).events ∧
    same (run start).state outcome.state

/-- What goes on with the outcome of a run. -/
theorem exactly_bind_iff {run : Traced S E α} {next : α → Allowed S E β} {rest : α → Traced S E β} {state : S} :
    (exactly run >>= next) state ((run >>= rest) state) ↔
      ∀ value, (run state).result = .value value → next value (run state).state (rest value (run state).state) := by
  constructor
  · rintro ⟨_, other, rfl, hnext, houtcome⟩ value hvalue
    change (run state).and_then rest = (run state).and_then other at houtcome
    rw [Outcome.and_then, Outcome.and_then, hvalue] at houtcome
    obtain ⟨hresult, hstate, hevents⟩ := Outcome.mk.inj houtcome
    have hsame : rest value (run state).state = other value (run state).state := by
      cases hrest : rest value (run state).state
      cases hother : other value (run state).state
      rw [hrest, hother] at hresult hstate hevents
      rw [Outcome.mk.injEq]
      exact ⟨hresult, hstate, List.append_cancel_left hevents⟩
    rw [hsame]
    exact hnext value hvalue
  · exact fun h => ⟨run state, rest, rfl, h, rfl⟩

/-- Runs in order are allowed where each of them is. -/
theorem bind_intro {allowed : Allowed S E α} {next : α → Allowed S E β} {run : Traced S E α}
    {rest : α → Traced S E β} {state : S} (h : allowed state (run state))
    (hrest : ∀ value, (run state).result = .value value → next value (run state).state (rest value (run state).state)) :
    (allowed >>= next) state ((run >>= rest) state) :=
  ⟨run state, rest, h, hrest, rfl⟩

/-- A result that is only changed keeps the events. -/
theorem of_bind_pure {allowed : Allowed S E α} {f : α → β} {state : S} {outcome : Outcome S E β}
    (h : (allowed >>= fun value => Pure.pure (f value)) state outcome) :
    ∃ first, allowed state first ∧ outcome.events = first.events ∧
      ∀ value, first.result = .value value → outcome.result = .value (f value) := by
  obtain ⟨first, rest, hfirst, hrest, rfl⟩ := h
  refine ⟨first, hfirst, ?_⟩
  unfold Outcome.and_then
  cases hresult : first.result with
  | value value =>
    have hpure : rest value first.state = ⟨.value (f value), first.state, []⟩ := hrest value hresult
    simp [hpure]
  | timeout | raised _ | crashed => exact ⟨rfl, fun value h => by cases h⟩

/-- What is allowed loosely is allowed from every state that is alike. -/
theorem loosely_bind_of_same {same : S → S → Prop} {run : Traced S E α} {next : α → Allowed S E β} {state start : S}
    {outcome : Outcome S E β} (hsame : Equivalence same) (hstart : same state start)
    (h : (loosely same run >>= next) start outcome) : (loosely same run >>= next) state outcome := by
  obtain ⟨first, rest, ⟨other, hother, hresult, hevents, hstate⟩, hrest, houtcome⟩ := h
  exact ⟨first, rest, ⟨other, hsame.trans hstart hother, hresult, hevents, hstate⟩, hrest, houtcome⟩

theorem loosely_of_same {same : S → S → Prop} {run : Traced S E α} {state : S} {outcome : Outcome S E α}
    (hsame : Equivalence same) (hresult : outcome.result = (run state).result)
    (hevents : outcome.events = (run state).events) (hstate : same (run state).state outcome.state) :
    loosely same run state outcome := ⟨state, hsame.refl state, hresult, hevents, hstate⟩

end Allowed

end TracedRun
