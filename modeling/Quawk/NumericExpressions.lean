import Quawk.NumericLowering

namespace quawk

open StructuredCode (Operands)
open StructuredCode.Code (emit)
open StatefulRun (Result Run)
open StatefulRun.Run (Alike Coupled)

section Implements

variable {R : Runtime} (state : LoweringState) {α β : Type}

/-- The machine holds this state. -/
def Mirrors (numeric : NumericState R) (machine : Machine R) : Prop := reading state machine = numeric

/-- From a machine that holds a state, the run does what the meaning does to the state. -/
def Implements (meaning : Meaning R α) (run : Exec R α) : Prop :=
  Coupled (Mirrors state) meaning run (fun _ => Mirrors state) (Mirrors state)

/-- An instruction that gives `value` and leaves what the machine holds. -/
def Computes {types : List Ty} {type : Ty} (calls : Calls R) (f : Op types type)
    (operands : Operands (Value R.Number) types) (value : Value R.Number type) : Prop :=
  ∀ machine, ∃ after, perform_op calls f operands machine = (.value value, after) ∧
    reading state after = reading state machine

variable {state}

theorem Implements.pure (value : α) : Implements (R := R) state (Pure.pure value) (Pure.pure value) :=
  Coupled.pure fun _ _ h => h

theorem Implements.bind {meaning : Meaning R α} {run : Exec R α} {next : α → Meaning R β} {following : α → Exec R β}
    (h : Implements state meaning run) (hnext : ∀ value, Implements state (next value) (following value)) :
    Implements state (meaning >>= next) (run >>= following) := Coupled.bind h hnext

theorem Implements.branch {condition : Prop} [Decidable condition] {first other : Meaning R α}
    {second another : Exec R α} (htrue : Implements state first second) (hfalse : Implements state other another) :
    Implements state (if condition then first else other) (if condition then second else another) :=
  Coupled.branch (fun _ => htrue) fun _ => hfalse

variable {calls : Calls R} {types : List Ty} {type : Ty} {f : Op types type} {operands : Operands (Value R.Number) types}
  {value : Value R.Number type}

/-- A run that begins with a computed value. -/
theorem Implements.step {meaning : Meaning R α} {following : Value R.Number type → Exec R α}
    (h : Computes state calls f operands value) (hnext : Implements state meaning (following value)) :
    Implements state meaning (eval calls (emit f operands) >>= following) := by
  intro numeric machine hmirrors
  obtain ⟨after, hperform, hreading⟩ := h machine
  rw [eval_emit, Run.bind_of_ends hperform]
  exact hnext numeric after (hreading.trans hmirrors)

theorem Implements.computed (h : Computes state calls f operands value) :
    Implements state (Pure.pure value) (eval calls (emit f operands)) := by
  have hstep : Implements state (Pure.pure value) (eval calls (emit f operands) >>= Pure.pure) := .step h (.pure value)
  rwa [Run.bind_pure] at hstep

/-- The runtime performs the instruction. -/
def PerformedByRuntime (calls : Calls R) (f : Op types type) (operands : Operands (Value R.Number) types) : Prop :=
  ∀ machine, perform_op calls f operands machine =
    (.value (R.perform f operands machine.world).1,
      { machine.note (.op types type f) with world := (R.perform f operands machine.world).2 })

theorem Computes.of_law (hperform : PerformedByRuntime calls f operands)
    (hlaw : ∀ world, R.perform f operands world = (value, world)) : Computes state calls f operands value := by
  intro machine
  rw [hperform machine, hlaw machine.world]
  exact ⟨_, rfl, rfl⟩

theorem Implements.call (hperform : PerformedByRuntime calls f operands) :
    Implements state (runtime_call f operands) (eval calls (emit f operands)) := by
  intro numeric machine hmirrors
  rw [eval_emit, hperform machine]
  cases hmirrors
  exact .value rfl

end Implements

section Observing

variable {R : Runtime} {α β : Type}

/-- A meaning that only looks at the state. -/
def Observes (meaning : Meaning R α) (value : NumericState R → α) : Prop :=
  ∀ numeric, meaning numeric = (.value (value numeric), numeric)

theorem Observes.pure (value : α) : Observes (R := R) (Pure.pure value) fun _ => value := fun _ => rfl

theorem Observes.bind {meaning : Meaning R α} {value : NumericState R → α} {next : α → Meaning R β}
    {result : α → NumericState R → β} (h : Observes meaning value) (hnext : ∀ value, Observes (next value) (result value)) :
    Observes (meaning >>= next) fun numeric => result (value numeric) numeric :=
  fun numeric => (Run.bind_of_ends (h numeric)).trans (hnext _ numeric)

theorem Observes.branch {condition : Prop} [Decidable condition] {first other : Meaning R α}
    {value another : NumericState R → α} (htrue : Observes first value) (hfalse : Observes other another) :
    Observes (if condition then first else other) fun numeric => if condition then value numeric else another numeric := by
  intro numeric
  split
  · exact htrue numeric
  · exact hfalse numeric

variable (arithmetic : NumberArithmetic R)

theorem Observes.truth_of {meaning : Meaning R R.Number} {value : NumericState R → R.Number} (h : Observes meaning value) :
    Observes (truth_of arithmetic meaning) fun numeric => arithmetic.truth (value numeric) :=
  h.bind fun _ => .pure _

theorem operation_observes {op : BinaryOp} {left right : Meaning R R.Number} {first second : NumericState R → R.Number}
    (hop : (op == .logical_and || op == .logical_or || operator_of_numbers op) = true) (hleft : Observes left first)
    (hright : Observes right second) : ∃ value, Observes (operation arithmetic op left right) value := by
  have hlogical (decided : Bool) : ∃ value, Observes (logical arithmetic decided left right) value :=
    ⟨_, (hleft.truth_of arithmetic).bind fun _ => .branch (.pure _) ((hright.truth_of arithmetic).bind fun _ => .pure _)⟩
  have hboth : ∃ value, Observes (do let left ← left; let right ← right; Pure.pure (arithmetic.binary op left right)) value :=
    ⟨_, hleft.bind fun _ => hright.bind fun _ => .pure _⟩
  cases op <;> first
    | exact hlogical _
    | exact hboth
    | cases hop

theorem number_of_observes : (expression : Expr) → is_effect_free expression = true →
    ∃ value, Observes (number_of arithmetic expression) value
  | .numeric_literal _, _ => ⟨_, .pure _⟩
  | .name name, h => by
    simp only [is_effect_free, Option.isNone_iff_eq_none] at h
    refine ⟨fun numeric => numeric.numbers name, fun numeric => ?_⟩
    rw [number_of, h]
    rfl
  | .binary left op right, h => by
    simp only [is_effect_free, Bool.and_eq_true] at h
    obtain ⟨first, hleft⟩ := number_of_observes left h.1.2
    obtain ⟨second, hright⟩ := number_of_observes right h.2
    exact operation_observes arithmetic h.1.1 hleft hright
  | .conditional test if_true if_false, h => by
    simp only [is_effect_free, Bool.and_eq_true] at h
    obtain ⟨condition, htest⟩ := number_of_observes test h.1.1
    obtain ⟨first, htrue⟩ := number_of_observes if_true h.1.2
    obtain ⟨second, hfalse⟩ := number_of_observes if_false h.2
    exact ⟨_, (htest.truth_of arithmetic).bind fun _ => .branch htrue hfalse⟩
  | .unary op operand, h => by
    cases op with
    | pre_inc | pre_dec => cases h
    | uplus => exact number_of_observes operand h
    | uminus =>
      obtain ⟨value, hvalue⟩ := number_of_observes operand h
      exact ⟨_, hvalue.bind fun _ => .pure _⟩
    | not =>
      obtain ⟨value, hvalue⟩ := number_of_observes operand h
      exact ⟨_, (hvalue.truth_of arithmetic).bind fun _ => .pure _⟩
  | .string_literal _, h | .regex_literal _, h | .field_at _, h | .field _, h | .call _ _, h | .array_index _ _ _, h
  | .getline _ _, h | .assign _ _ _, h | .postfix_op _ _, h => by cases h

theorem condition_of_observes {expression : Expr} (h : is_effect_free expression = true) :
    ∃ value, Observes (condition_of arithmetic expression) value := by
  obtain ⟨value, hvalue⟩ := number_of_observes arithmetic expression h
  exact ⟨_, hvalue.truth_of arithmetic⟩

/-- A run that follows a meaning without effects leaves what the machine holds. -/
theorem Implements.of_observes {state : LoweringState} {meaning : Meaning R α} {run : Exec R α} {value : NumericState R → α}
    (h : Implements state meaning run) (hvalue : Observes meaning value) {numeric : NumericState R} {machine : Machine R}
    (hmirrors : Mirrors state numeric machine) :
    ∃ after, run machine = (.value (value numeric), after) ∧ Mirrors state numeric after := by
  have hrun := h numeric machine hmirrors
  rw [hvalue numeric] at hrun
  cases hresult : run machine with
  | mk result after =>
    rw [hresult] at hrun
    cases hrun with
    | value hafter => exact ⟨after, rfl, hafter⟩

end Observing

section Keeping

variable {R : Runtime} {α β : Type} {name : Name}

/-- The meaning leaves the variable as it is. -/
def KeepsNumber (name : Name) (meaning : Meaning R α) : Prop :=
  ∀ numeric, (meaning numeric).2.numbers name = numeric.numbers name

theorem KeepsNumber.pure (value : α) : KeepsNumber (R := R) name (Pure.pure value) := fun _ => rfl

theorem KeepsNumber.crash : KeepsNumber (R := R) (α := α) name Run.crash := fun _ => rfl

theorem KeepsNumber.bind {meaning : Meaning R α} {next : α → Meaning R β} (h : KeepsNumber name meaning)
    (hnext : ∀ value, KeepsNumber name (next value)) : KeepsNumber name (meaning >>= next) := by
  intro numeric
  have hfirst := h numeric
  change (Run.bind meaning next numeric).2.numbers name = _
  unfold Run.bind
  cases hresult : meaning numeric with
  | mk result after =>
    rw [hresult] at hfirst
    cases result with
    | value value => exact (hnext value after).trans hfirst
    | timeout | raised _ | crashed => exact hfirst

theorem KeepsNumber.branch {condition : Prop} [Decidable condition] {first other : Meaning R α} (htrue : KeepsNumber name first)
    (hfalse : KeepsNumber name other) : KeepsNumber name (if condition then first else other) := by
  split
  · exact htrue
  · exact hfalse

theorem KeepsNumber.call {types : List Ty} {type : Ty} (f : Op types type) (operands : Operands (Value R.Number) types) :
    KeepsNumber name (runtime_call f operands) := fun _ => rfl

theorem KeepsNumber.read (other : Name) : KeepsNumber (R := R) name (read_number other) := fun _ => rfl

theorem KeepsNumber.write {other : Name} (h : name ≠ other) (value : R.Number) : KeepsNumber name (write_number other value) :=
  fun _ => Function.update_of_ne h _ _

variable (arithmetic : NumberArithmetic R)

theorem KeepsNumber.truth_of {meaning : Meaning R R.Number} (h : KeepsNumber name meaning) :
    KeepsNumber name (truth_of arithmetic meaning) :=
  h.bind fun _ => .pure _

theorem operation_keeps (op : BinaryOp) {left right : Meaning R R.Number} (hleft : KeepsNumber name left)
    (hright : KeepsNumber name right) : KeepsNumber name (operation arithmetic op left right) := by
  have hlogical (decided : Bool) : KeepsNumber name (logical arithmetic decided left right) :=
    (hleft.truth_of arithmetic).bind fun _ => .branch (.pure _) ((hright.truth_of arithmetic).bind fun _ => .pure _)
  have hboth : KeepsNumber name (if operator_of_numbers op then do
      let left ← left; let right ← right; Pure.pure (arithmetic.binary op left right) else Run.crash) :=
    .branch (hleft.bind fun _ => hright.bind fun _ => .pure _) .crash
  cases op <;> first
    | exact hlogical _
    | exact hboth

theorem field_number_keeps (index : Int) : KeepsNumber (R := R) name (field_number index) :=
  (KeepsNumber.call _ _).bind fun _ => (KeepsNumber.call _ _).bind fun _ => .call _ _

theorem assign_number_keeps {other : Name} (h : name ≠ other) (op : AssignOp) (update : R.Number) :
    KeepsNumber name (assign_number arithmetic other op update) :=
  (KeepsNumber.read other).bind fun _ => (KeepsNumber.write h _).bind fun _ => .pure _

theorem increment_number_keeps {target : Option Name} (h : name ∉ target.toList) (delta : Increment) (return_old : Bool) :
    KeepsNumber name (increment_number arithmetic target delta return_old) := by
  cases target with
  | none => exact .crash
  | some other =>
    have hne : name ≠ other := fun heq => h (List.mem_singleton.mpr heq)
    exact (KeepsNumber.read other).bind fun _ => (KeepsNumber.write hne _).bind fun _ => .pure _

theorem number_of_keeps : (expression : Expr) → name ∉ assigned_numbers expression →
    KeepsNumber name (number_of arithmetic expression)
  | .numeric_literal _, _ => .pure _
  | .name other, _ => by
    rw [number_of]
    cases counter other with
    | some f => exact .call f ()
    | none => exact .read other
  | .field_at index, _ => field_number_keeps index
  | .field index, h =>
    (number_of_keeps index h).bind fun _ => (KeepsNumber.call _ _).bind fun _ => field_number_keeps _
  | .call function [argument], h => by
    rw [number_of]
    cases numeric_function function with
    | some f => exact (number_of_keeps argument h).bind fun _ => .call f _
    | none => exact .crash
  | .binary left op right, h => by
    rw [assigned_numbers, List.mem_append, not_or] at h
    exact operation_keeps arithmetic op (number_of_keeps left h.1) (number_of_keeps right h.2)
  | .conditional test if_true if_false, h => by
    rw [assigned_numbers, List.mem_append, List.mem_append, not_or, not_or] at h
    exact ((number_of_keeps test h.1.1).truth_of arithmetic).bind fun _ =>
      .branch (number_of_keeps if_true h.1.2) (number_of_keeps if_false h.2)
  | .assign (.name other) op value, h => by
    rw [assigned_numbers, List.mem_cons, not_or] at h
    exact (number_of_keeps value h.2).bind fun _ => assign_number_keeps arithmetic h.1 op _
  | .unary op operand, h => by
    cases op with
    | uplus => exact number_of_keeps operand h
    | uminus => exact (number_of_keeps operand h).bind fun _ => .pure _
    | not => exact ((number_of_keeps operand h).truth_of arithmetic).bind fun _ => .pure _
    | pre_inc | pre_dec => exact increment_number_keeps arithmetic h _ _
  | .postfix_op operand op, h => by
    cases op <;> exact increment_number_keeps arithmetic h _ _
  | .string_literal _, _ | .regex_literal _, _ | .array_index _ _ _, _ | .getline _ _, _ | .call _ [], _
  | .call _ (_ :: _ :: _), _ | .assign (.array _ _) _ _, _ | .assign (.field _) _ _, _ => .crash

/-- A run that follows a meaning, beside a variable the meaning keeps. -/
theorem Implements.beside {state : LoweringState} {meaning : Meaning R α} {run : Exec R α} (h : Implements state meaning run)
    (hkeeps : KeepsNumber name meaning) (current : R.Number) :
    Coupled (fun numeric machine => Mirrors state numeric machine ∧ numeric.numbers name = current) meaning run
      (fun _ numeric machine => Mirrors state numeric machine ∧ numeric.numbers name = current) (Mirrors state) := by
  intro numeric machine hstart
  obtain ⟨hmirrors, hcurrent⟩ := hstart
  have hrun := h numeric machine hmirrors
  have hafter := hkeeps numeric
  cases hmeaning : meaning numeric with
  | mk result after =>
    rw [hmeaning] at hrun hafter
    generalize run machine = other at hrun
    cases hrun with
    | value hpost => exact .value ⟨hpost, hafter.trans hcurrent⟩
    | timeout hstopped => exact .timeout hstopped
    | crashed hstopped => exact .crashed hstopped

end Keeping

end quawk
