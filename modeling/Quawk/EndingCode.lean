import Mathlib.Data.List.Basic
import Quawk.Execution

namespace quawk

open StatefulRun (Result Run)

variable {R : Runtime} {α β σ : Type}

/-- The status last requested of the runtime. -/
def last_request (log : List TraceEvent) : Option Int :=
  log.foldl (fun request event =>
    match event with
    | .exit _ status => some (status.getD 0)
    | _ => request) none

/-- The value of the last exit that had an expression. -/
def last_status (log : List TraceEvent) : Int :=
  log.foldl (fun last event =>
    match event with
    | .exit _ (some status) => status
    | _ => last) 0

/-- The exit state of the runtime is the one the log tells. -/
structure Agrees (machine : Machine R) : Prop where
  requested : machine.exit_requested = (last_request machine.log).isSome
  status : ∀ status, last_request machine.log = some status → machine.exit_status = status

/-- What happens in a phase before it ends: instructions, and exits of user functions. -/
def TraceEvent.IsQuiet : TraceEvent → Prop
  | .op _ _ _ => True
  | .exit in_function _ => in_function = true
  | _ => False

def Quiet (events : List TraceEvent) : Prop := ∀ event ∈ events, event.IsQuiet

theorem Quiet.nil : Quiet [] := fun _ hmem => by cases hmem

theorem Quiet.append {front back : List TraceEvent} (h1 : Quiet front) (h2 : Quiet back) :
    Quiet (front ++ back) := by
  intro event hmem
  exact (List.mem_append.mp hmem).elim (h1 event) (h2 event)

theorem Quiet.op {types : List Ty} {type : Ty} {f : Op types type} : Quiet [.op types type f] := by
  rintro _ hmem
  obtain rfl := List.mem_singleton.mp hmem
  trivial

theorem Quiet.singleton {event : TraceEvent} (h : event.IsQuiet) : Quiet [event] := by
  rintro _ hmem
  rwa [List.mem_singleton.mp hmem]

/-- The code only adds to the log, and an exit of the phase is the last it adds: its result then
is one that `ends` the phase. -/
def EndsAt (ends : α → Prop) (code : Exec R α) : Prop :=
  ∀ machine, ∃ events, (code machine).2.log = machine.log ++ events ∧
    (Agrees machine → Agrees (code machine).2) ∧
    (Quiet events ∨ ∃ front status value, events = front ++ [.exit false status] ∧ Quiet front ∧
      (code machine).1 = .value value ∧ ends value)

/-- Code without an exit of the phase. -/
def NeverEnds (code : Exec R α) : Prop := EndsAt (fun _ => False) code

section Rules

variable {ends : α → Prop} {ends' : β → Prop}

theorem EndsAt.of_quiet {code : Exec R α}
    (h : ∀ machine, ∃ events, (code machine).2.log = machine.log ++ events ∧
      (Agrees machine → Agrees (code machine).2) ∧ Quiet events) : EndsAt ends code := by
  intro machine
  obtain ⟨events, hlog, hagrees, hquiet⟩ := h machine
  exact ⟨events, hlog, hagrees, Or.inl hquiet⟩

theorem NeverEnds.quiet {code : Exec R α} (h : NeverEnds code) (machine : Machine R) :
    ∃ events, (code machine).2.log = machine.log ++ events ∧
      (Agrees machine → Agrees (code machine).2) ∧ Quiet events := by
  obtain ⟨events, hlog, hagrees, hquiet | ⟨_, _, _, _, _, _, hfalse⟩⟩ := h machine
  · exact ⟨events, hlog, hagrees, hquiet⟩
  · exact hfalse.elim

theorem EndsAt.silent {code : Exec R α} (h : ∀ machine, (code machine).2 = machine) : EndsAt ends code :=
  .of_quiet fun machine => ⟨[], by rw [h, List.append_nil], by rw [h]; exact id, Quiet.nil⟩

theorem EndsAt.pure (value : α) : EndsAt ends (Pure.pure value : Exec R α) := .silent fun _ => rfl

/-- What comes after a result that ends the phase must be nothing. -/
theorem EndsAt.bind {first : Exec R α} {next : α → Exec R β} (h1 : EndsAt ends first)
    (h2 : ∀ value, EndsAt ends' (next value))
    (hends : ∀ value, ends value → ∃ result, next value = Pure.pure result ∧ ends' result) :
    EndsAt ends' (first >>= next) := by
  intro machine
  obtain ⟨events, hlog, hagrees, hevents⟩ := h1 machine
  have hbind : (first >>= next) machine = Run.bind first next machine := rfl
  unfold Run.bind at hbind
  cases hresult : first machine with
  | mk result after =>
    rw [hresult] at hbind hlog hagrees hevents
    cases result with
    | value value =>
      simp only at hbind
      obtain ⟨events', hlog', hagrees', hevents'⟩ := h2 value after
      obtain hquiet | ⟨front, status, _, rfl, hfront, hvalue, hend⟩ := hevents
      · refine ⟨events ++ events', ?_, ?_, ?_⟩
        · rw [hbind, hlog', hlog, List.append_assoc]
        · rw [hbind]
          exact hagrees' ∘ hagrees
        · obtain hquiet' | ⟨front, status, value', rfl, hfront, hvalue', hend⟩ := hevents'
          · exact Or.inl (hquiet.append hquiet')
          · refine Or.inr ⟨events ++ front, status, value', ?_, hquiet.append hfront, ?_, hend⟩
            · rw [List.append_assoc]
            · rw [hbind, hvalue']
      · obtain rfl := Result.value.inj hvalue
        obtain ⟨result, hnext, hend'⟩ := hends value hend
        rw [hnext] at hbind
        refine ⟨front ++ [.exit false status], by rw [hbind]; exact hlog, by rw [hbind]; exact hagrees,
          Or.inr ⟨front, status, result, rfl, hfront, by rw [hbind]; rfl, hend'⟩⟩
    | timeout | raised _ | crashed =>
      simp only at hbind
      obtain hquiet | ⟨_, _, _, _, _, hvalue, _⟩ := hevents
      · exact ⟨events, by rw [hbind]; exact hlog, by rw [hbind]; exact hagrees, Or.inl hquiet⟩
      · cases hvalue

theorem NeverEnds.bind {first : Exec R α} {next : α → Exec R β} (h1 : NeverEnds first)
    (h2 : ∀ value, EndsAt ends' (next value)) : EndsAt ends' (first >>= next) :=
  EndsAt.bind h1 h2 fun _ => False.elim

theorem EndsAt.attempt {first : Exec R α} {handler : String → Exec R α} (h1 : NeverEnds first)
    (h2 : ∀ message, EndsAt ends (handler message)) : EndsAt ends (Run.attempt first handler) := by
  intro machine
  obtain ⟨events, hlog, hagrees, hquiet⟩ := h1.quiet machine
  unfold Run.attempt
  cases hresult : first machine with
  | mk result after =>
    rw [hresult] at hlog hagrees
    cases result with
    | raised message =>
      obtain ⟨events', hlog', hagrees', hevents'⟩ := h2 message after
      refine ⟨events ++ events', by rw [hlog', hlog, List.append_assoc], hagrees' ∘ hagrees, ?_⟩
      obtain hquiet' | ⟨front, status, value, rfl, hfront, hvalue, hend⟩ := hevents'
      · exact Or.inl (hquiet.append hquiet')
      · exact Or.inr ⟨events ++ front, status, value, by rw [List.append_assoc], hquiet.append hfront,
          hvalue, hend⟩
    | value _ | timeout | crashed => exact ⟨events, hlog, hagrees, Or.inl hquiet⟩

theorem EndsAt.iterate {step : σ → Exec R (σ ⊕ β)}
    (h : ∀ position, EndsAt (fun result => ∃ value, result = .inr value ∧ ends' value) (step position))
    (fuel : Nat) (position : σ) : EndsAt ends' (Run.iterate step fuel position) := by
  induction fuel generalizing position with
  | zero => exact .silent fun _ => rfl
  | succ fuel ih =>
    refine (h position).bind (fun result => ?_) ?_
    · cases result with
      | inl position => exact ih position
      | inr value => exact .pure value
    · rintro _ ⟨value, rfl, hend⟩
      exact ⟨value, rfl, hend⟩

end Rules

theorem Machine.perform_exit {types : List Ty} {type : Ty} (machine : Machine R) (f : Op types type)
    (operands : StructuredCode.Operands (Value R.Number) types) :
    (machine.perform f operands).2.log = machine.log ∧
      (machine.perform f operands).2.exit_requested = machine.exit_requested ∧
      (machine.perform f operands).2.exit_status = machine.exit_status := by
  unfold Machine.perform
  split <;> try exact ⟨rfl, rfl, rfl⟩
  rename_i value address _
  cases address <;> exact ⟨rfl, rfl, rfl⟩

theorem Agrees.of_eq {machine after : Machine R} (h : Agrees machine) (hlog : after.log = machine.log)
    (hrequested : after.exit_requested = machine.exit_requested)
    (hstatus : after.exit_status = machine.exit_status) : Agrees after :=
  ⟨by rw [hrequested, hlog, h.requested], fun status => by rw [hstatus, hlog]; exact h.status status⟩

@[simp]
theorem Machine.note_log (machine : Machine R) (event : TraceEvent) :
    (machine.note event).log = machine.log ++ [event] := rfl

/-- Events other than exits leave the exit state as it is. -/
theorem Agrees.note {event : TraceEvent} {machine : Machine R} (h : Agrees machine)
    (hevent : ∀ f s, event ≠ .exit f s) : Agrees (machine.note event) := by
  have hlast : last_request (machine.log ++ [event]) = last_request machine.log := by
    cases event with
    | exit f s => exact absurd rfl (hevent f s)
    | op _ _ _ | next_record _ | enter _ | leave _ => simp [last_request]
  exact ⟨by rw [Machine.note_log, hlast]; exact h.requested,
    fun status => by rw [Machine.note_log, hlast]; exact h.status status⟩

theorem request_exit_agrees (in_function : Bool) (status : Option Int) (machine : Machine R) :
    Agrees (request_exit in_function status machine).2 := by
  have hlast : last_request (machine.log ++ [.exit in_function status]) = some (status.getD 0) := by
    simp [last_request]
  constructor
  · change true = (last_request (machine.log ++ [.exit in_function status])).isSome
    rw [hlast]
    rfl
  · intro requested hrequested
    change last_request (machine.log ++ [.exit in_function status]) = some requested at hrequested
    rw [hlast] at hrequested
    exact Option.some.inj hrequested

theorem EndsAt.in_frame {ends : α → Prop} {body : Exec R α} (h : EndsAt ends body)
    (params : Nat → Option Text) : EndsAt ends (quawk.in_frame params body) := by
  intro machine
  let frame := { machine with locals := fun _ => R.zero, params := params }
  obtain ⟨events, hlog, hagrees, hevents⟩ := h frame
  have hstart (h : Agrees machine) : Agrees frame := h.of_eq rfl rfl rfl
  have hend (h : Agrees (body frame).2) : Agrees (quawk.in_frame params body machine).2 := h.of_eq rfl rfl rfl
  exact ⟨events, hlog, hend ∘ hagrees ∘ hstart, hevents⟩

/-- The exits of a function do not end the phase of its caller. -/
theorem EndsAt.neverEnds {code : Exec R α} {ends : α → Prop} (h : EndsAt ends code)
    (hends : ∀ value, ¬ ends value) : NeverEnds code := by
  intro machine
  obtain ⟨events, hlog, hagrees, hquiet | ⟨_, _, value, _, _, _, hend⟩⟩ := h machine
  · exact ⟨events, hlog, hagrees, Or.inl hquiet⟩
  · exact (hends value hend).elim

end quawk
