import Quawk.NumericViews

namespace quawk

open StructuredCode (Operands)
open StructuredCode.Code (emit)
open StatefulRun (Result Run)
open StatefulRun.Run (Alike Coupled)

section Names

variable {state : LoweringState} {name : Name} {address : Address}

/-- A number is neither a parameter nor a string nor a count of the runtime. -/
structure NumberName (state : LoweringState) (name : Name) : Prop where
  slot : runtime_name_uses_numeric_slot_state state name = true
  not_param : state.is_function_param_string name = false
  not_counter : name ∉ ["NR", "FNR", "NF", "FILENAME"]

theorem number_name_of_address (h : number_address state name = some address) : NumberName state name := by
  have hslot := (number_address_cases h).1
  refine ⟨hslot, ?_, ?_⟩ <;>
    simp only [runtime_name_uses_numeric_slot_state, runtime_name_uses_scalar_runtime, Bool.and_eq_true,
      Bool.not_eq_true'] at hslot
  · exact hslot.1.1.1.2
  · simpa using hslot.1.1.1.1.1

theorem NumberName.not_only_scalar (h : NumberName state name) :
    runtime_name_uses_only_scalar_runtime state name = false := by
  simp [runtime_name_uses_only_scalar_runtime, h.slot]

variable (state) in
/-- The counts are read from the runtime. -/
theorem counter_eq_some {f : Op [] .double} (h : counter name = some f) :
    lower_runtime_numeric_name (V := V) state name = emit f () ∧ runtime_name_uses_only_scalar_runtime state name = false ∧
      ∀ {R : Runtime} (calls : Calls R), PerformedByRuntime calls f () := by
  unfold counter at h
  split at h
  case h_4 => cases h
  all_goals
    cases h
    exact ⟨by simp [lower_runtime_numeric_name], by simp [runtime_name_uses_only_scalar_runtime,
      runtime_name_uses_scalar_runtime], fun _ _ => rfl⟩

end Names

section Variables

variable {R : Runtime} (arithmetic : NumberArithmetic R) {state : LoweringState} {calls : Calls R} {name : Name}
  {address : Address}

variable (calls) in
theorem eval_variable_address (h : number_address state name = some address) (machine : Machine R) :
    ∃ after, eval calls (variable_address state name) machine = (.value address, after) ∧
      reading state after = reading state machine := by
  unfold variable_address
  obtain ⟨_, ⟨hlocal, rfl⟩ | ⟨hlocal, index, hindex, rfl⟩⟩ := number_address_cases h
  · rw [if_pos hlocal]
    exact ⟨_, rfl, rfl⟩
  · rw [if_neg (Bool.eq_false_iff.mp hlocal), hindex]
    exact ⟨_, rfl, rfl⟩

variable (calls) in
theorem eval_load (h : number_address state name = some address) (machine : Machine R) :
    ∃ after, eval calls (emit .load_double (address, ())) machine =
        (.value ((reading state machine).numbers name), after) ∧ reading state after = reading state machine := by
  rw [reading_numbers h]
  exact ⟨_, rfl, rfl⟩

variable (calls) in
theorem store_follows (h : number_address state name = some address) (value : R.Number) :
    Implements state (write_number name value) (eval calls (emit_void .store_double (value, address, ()))) := by
  intro numeric machine hmirrors
  cases hmirrors
  exact .value (reading_store h value)

/-- A run that begins with the address of a variable and its number. -/
theorem Implements.load {α : Type} {meaning : Meaning R α} {following : Address → R.Number → Exec R α}
    (h : number_address state name = some address)
    (hnext : ∀ current, Coupled (fun numeric machine => Mirrors state numeric machine ∧ numeric.numbers name = current)
      meaning (following address current) (fun _ => Mirrors state) (Mirrors state)) :
    Implements state meaning (eval calls (variable_address state name) >>= fun slot =>
      eval calls (emit .load_double (slot, ())) >>= following slot) := by
  intro numeric machine hmirrors
  obtain ⟨middle, haddress, hmiddle⟩ := eval_variable_address calls h machine
  obtain ⟨after, hload, hafter⟩ := eval_load calls h middle
  rw [Run.bind_of_ends haddress, Run.bind_of_ends hload, hmiddle, show reading state machine = numeric from hmirrors]
  exact hnext _ numeric after ⟨hafter.trans (hmiddle.trans hmirrors), rfl⟩

theorem read_number_follows (h : number_address state name = some address) :
    Implements state (read_number name) (do
      let slot ← eval calls (variable_address state name)
      eval calls (emit Op.load_double (slot, ()))) := by
  have hload : Implements state (read_number name) (eval calls (variable_address state name) >>= fun slot =>
      eval calls (emit .load_double (slot, ())) >>= fun current => pure current) :=
    .load h fun current numeric machine hstart => hstart.2 ▸ .value hstart.1
  simpa only [Run.bind_pure] using hload

theorem increment_follows (h : number_address state name = some address) (expression : Expr) (delta : Increment)
    (return_old : Bool) :
    Implements state (increment_number arithmetic (some name) delta return_old)
      (eval calls (lower_runtime_increment_expression state expression (some (.name name)) delta return_old)) := by
  have hname := number_name_of_address h
  simp only [lower_runtime_increment_expression, hname.not_param, hname.slot, Bool.false_eq_true, ↓reduceIte, or_true,
    eval_bind]
  refine .load h fun old numeric machine hstart => ?_
  obtain ⟨hmirrors, hold⟩ := hstart
  have hrun := (incremented_follows arithmetic state calls delta old).bind fun new =>
    (store_follows calls h new).bind fun _ => Implements.pure (if return_old then old else new)
  cases hold
  exact hrun numeric machine hmirrors

variable {op : AssignOp} {value : Meaning R R.Number} {lowered : Lowered (Value R.Number)}

variable (calls op) in
/-- The value is stored; a plain assignment does not use the number that was there. -/
theorem assigned_follows {α : Type} (h : number_address state name = some address) (current update : R.Number)
    (result : R.Number → α) :
    Coupled (fun numeric machine => Mirrors state numeric machine ∧ (op = .plain ∨ numeric.numbers name = current))
      (assign_number arithmetic name op update >>= fun new => pure (result new))
      (do
        let new ← eval calls (combine_numeric_assignment op current update)
        eval calls (emit_void .store_double (new, address, ()))
        pure (result new))
      (fun _ => Mirrors state) (Mirrors state) := by
  intro numeric machine hstart
  obtain ⟨hmirrors, hcurrent⟩ := hstart
  have hcombine : arithmetic.combine op (numeric.numbers name) update = arithmetic.combine op current update := by
    obtain rfl | hcurrent := hcurrent
    · rfl
    · rw [hcurrent]
  have hrun := (combine_follows arithmetic state calls op current update).bind fun new =>
    (store_follows calls h new).bind fun _ => Implements.pure (result new)
  have hstored := hrun numeric machine hmirrors
  rw [← hcombine] at hstored
  exact hstored

/-- An assignment as an expression: the number that is there is read before the value. -/
theorem assignment_expression_follows (h : number_address state name = some address) (expression : Expr)
    (hvalue : Implements state value (eval calls lowered.numeric)) (hkeeps : op = .plain ∨ KeepsNumber name value) :
    Implements state (value >>= assign_number arithmetic name op)
      (eval calls (lower_runtime_assignment_expression state expression (.name name) op lowered)) := by
  have hname := number_name_of_address h
  simp only [lower_runtime_assignment_expression, lower_runtime_state_assignment_expression, hname.not_param, hname.slot,
    Bool.false_eq_true, ↓reduceIte, or_true, eval_bind]
  refine .load h fun current => ?_
  have hupdate : Coupled (fun numeric machine => Mirrors state numeric machine ∧ numeric.numbers name = current) value
      (eval calls lowered.numeric) (fun _ numeric machine =>
        Mirrors state numeric machine ∧ (op = .plain ∨ numeric.numbers name = current)) (Mirrors state) := by
    obtain hplain | hkeeps := hkeeps
    · exact hvalue.mono (fun _ _ hstart => hstart.1) (fun _ _ _ hafter => ⟨hafter, .inl hplain⟩)
        fun _ _ hstopped => hstopped
    · exact (hvalue.beside hkeeps current).mono (fun _ _ hstart => hstart)
        (fun _ _ _ hafter => ⟨hafter.1, .inr hafter.2⟩) fun _ _ hstopped => hstopped
  refine hupdate.bind fun update => ?_
  · have hassigned := assigned_follows arithmetic calls op h current update id
    rwa [show (fun new => pure (id new)) = (Pure.pure : R.Number → Meaning R R.Number) from rfl, Run.bind_pure] at hassigned

variable (calls op) in
/-- An assignment as a statement: the number that is there is read after the value. -/
theorem assignment_statement_follows (h : number_address state name = some address)
    (hvalue : Implements state value (eval calls lowered.numeric)) :
    Implements state (value >>= fun update => assign_number arithmetic name op update >>= fun _ => pure ())
      (eval calls (lower_runtime_assignment_statement state (.name name) op lowered)) := by
  have hname := number_name_of_address h
  simp only [lower_runtime_assignment_statement, lower_runtime_state_assignment_statement, hname.not_param, hname.slot,
    Bool.false_eq_true, ↓reduceIte, or_true, eval_bind]
  intro numeric machine hmirrors
  obtain ⟨middle, haddress, hmiddle⟩ := eval_variable_address calls h machine
  rw [Run.bind_of_ends haddress]
  refine hvalue.bind (fun update => ?_) numeric middle (hmiddle.trans hmirrors)
  split
  · next hplain =>
    subst hplain
    exact (store_follows calls h update).mono (fun _ _ hstart => hstart) (fun _ _ _ hafter => hafter) fun _ _ hstopped => hstopped
  · simp only [eval_bind]
    intro numeric machine hmirrors
    obtain ⟨after, hload, hafter⟩ := eval_load calls h machine
    rw [Run.bind_of_ends hload]
    have hassigned := assigned_follows arithmetic calls op h ((reading state machine).numbers name) update
      (fun _ => ()) numeric after ⟨hafter.trans hmirrors, .inr (congrArg (NumericState.numbers · name) hmirrors.symm)⟩
    exact hassigned

end Variables

end quawk
