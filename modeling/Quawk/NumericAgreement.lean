import Quawk.NumericRuns

namespace quawk

open StructuredCode (Operands)
open StatefulRun (Result Run)
open StatefulRun.Run (Alike Coupled)

section Ending

variable {R : Runtime} {α β : Type}

/-- From every state, the meaning gives a value. -/
def HasValue (meaning : Meaning R α) : Prop := ∀ numeric, ∃ value after, meaning numeric = (.value value, after)

theorem HasValue.pure (value : α) : HasValue (R := R) (Pure.pure value) := fun numeric => ⟨value, numeric, rfl⟩

theorem HasValue.bind {meaning : Meaning R α} {next : α → Meaning R β} (h : HasValue meaning) (hnext : ∀ value, HasValue (next value)) :
    HasValue (meaning >>= next) := by
  intro numeric
  obtain ⟨value, after, hvalue⟩ := h numeric
  rw [Run.bind_of_ends hvalue]
  exact hnext value after

theorem HasValue.branch {condition : Prop} [Decidable condition] {first other : Meaning R α} (htrue : HasValue first)
    (hfalse : HasValue other) : HasValue (if condition then first else other) := by
  split
  · exact htrue
  · exact hfalse

theorem HasValue.call {types : List Ty} {type : Ty} (f : Op types type) (operands : Operands (Value R.Number) types) :
    HasValue (runtime_call f operands) := fun _ => ⟨_, _, rfl⟩

variable (arithmetic : NumberArithmetic R) {state : LoweringState}

theorem HasValue.truth_of {meaning : Meaning R R.Number} (h : HasValue meaning) : HasValue (truth_of arithmetic meaning) :=
  h.bind fun _ => .pure _

theorem operation_gives {op : BinaryOp} (hop : (op == .logical_and || op == .logical_or || operator_of_numbers op) = true)
    {left right : Meaning R R.Number} (hleft : HasValue left) (hright : HasValue right) :
    HasValue (operation arithmetic op left right) := by
  have hlogical (decided : Bool) : HasValue (logical arithmetic decided left right) :=
    (hleft.truth_of arithmetic).bind fun _ => .branch (.pure _) ((hright.truth_of arithmetic).bind fun _ => .pure _)
  have hboth : HasValue (do let left ← left; let right ← right; Pure.pure (arithmetic.binary op left right)) :=
    hleft.bind fun _ => hright.bind fun _ => .pure _
  cases op <;> first
    | exact hlogical _
    | exact hboth
    | cases hop

theorem field_number_gives (index : Int) : HasValue (R := R) (field_number index) :=
  (HasValue.call _ _).bind fun _ => (HasValue.call _ _).bind fun _ => .call _ _

theorem increment_number_gives {operand : Expr} (delta : Increment) (return_old : Bool)
    (h : (scalar_name operand).any (is_number_name state) = true) :
    HasValue (increment_number arithmetic (scalar_name operand) delta return_old) := by
  cases operand with
  | name name => exact fun numeric => ⟨_, _, rfl⟩
  | _ => cases h

theorem binary_operands {as_condition : Bool} {left right : Expr} {op : BinaryOp}
    (h : is_numeric state as_condition (.binary left op right) = true) :
    (op == .logical_and || op == .logical_or || operator_of_numbers op) = true ∧
      ∃ condition, is_numeric state condition left = true ∧ is_numeric state condition right = true := by
  by_cases hop : operator_of_numbers op = true
  · obtain ⟨hleft, hright, _⟩ := binary_numeric hop h
    exact ⟨by simp [hop], false, hleft, hright⟩
  · cases op <;> first
      | exact absurd rfl hop
      | exact ⟨rfl, true, Bool.and_eq_true_iff.mp h⟩
      | cases h

theorem number_of_gives : (expression : Expr) → (as_condition : Bool) → is_numeric state as_condition expression = true →
    HasValue (number_of arithmetic expression)
  | .numeric_literal _, _, _ => .pure _
  | .name name, _, _ => by
    rw [number_of]
    cases counter name with
    | some f => exact .call f ()
    | none => exact fun numeric => ⟨_, _, rfl⟩
  | .field_at index, _, _ => field_number_gives index
  | .field index, _, h => by
    rw [is_numeric, Bool.and_eq_true] at h
    exact (number_of_gives index false h.2).bind fun _ => (HasValue.call _ _).bind fun _ => field_number_gives _
  | .call function [argument], _, h => by
    simp only [is_numeric, Bool.and_eq_true] at h
    obtain ⟨f, hfunction⟩ := Option.isSome_iff_exists.mp h.1.1
    rw [number_of, hfunction]
    exact (number_of_gives argument false h.2).bind fun _ => .call f _
  | .binary left op right, _, h => by
    obtain ⟨hop, condition, hleft, hright⟩ := binary_operands h
    exact operation_gives arithmetic hop (number_of_gives left condition hleft) (number_of_gives right condition hright)
  | .conditional test if_true if_false, as_condition, h => by
    simp only [is_numeric, Bool.and_eq_true] at h
    exact ((number_of_gives test true h.1.1.1).truth_of arithmetic).bind fun _ =>
      .branch (number_of_gives if_true as_condition h.1.1.2) (number_of_gives if_false as_condition h.1.2)
  | .assign (.name name) op value, _, h => by
    simp only [is_numeric, Bool.and_eq_true] at h
    exact (number_of_gives value false h.1.1.2).bind fun _ numeric => ⟨_, _, rfl⟩
  | .unary op operand, _, h => by
    cases op with
    | uplus => exact number_of_gives operand false h
    | uminus => exact (number_of_gives operand false h).bind fun _ => .pure _
    | not => exact ((number_of_gives operand true h).truth_of arithmetic).bind fun _ => .pure _
    | pre_inc | pre_dec => exact increment_number_gives arithmetic _ _ h
  | .postfix_op operand op, _, h => by
    cases op <;> exact increment_number_gives arithmetic _ _ h
  | .string_literal _, _, h | .regex_literal _, _, h | .array_index _ _ _, _, h | .getline _ _, _, h | .call _ [], _, h
  | .call _ (_ :: _ :: _), _, h | .assign (.array _ _) _ _, _, h | .assign (.field _) _ _, _, h => by cases h

end Ending

section Agreement

variable {R : Runtime} {state : LoweringState} {calls : Calls R} {keys : Name → Option (Option Text)}

/-- Code that follows a meaning gives what the meaning gives. -/
theorem Implements.gives {α : Type} {meaning : Meaning R α} {run : Exec R α} (h : Implements state meaning run)
    {machine : Machine R} {value : α} {numeric : NumericState R}
    (hmeaning : meaning (reading state machine) = (.value value, numeric)) :
    ∃ after, run machine = (.value value, after) ∧ reading state after = numeric := by
  have hrun := h (reading state machine) machine rfl
  rw [hmeaning] at hrun
  cases hresult : run machine with
  | mk result after =>
    rw [hresult] at hrun
    cases hrun with
    | value hafter => exact ⟨after, rfl, hafter⟩

/-- Two numbers, one of them kept in an alloca. -/
def two_numbers : LoweringState where
  variable_indexes := ["s", "n"]
  slot_allocation := allocate_slots_for_variable_indexes ["s", "n"]
  type_info := fun _ => .numeric
  array_names := []
  function_defs := []
  local_numeric_names := {"n"}
  function_param_strings := []
  loop_string_bindings := []

/-- No user function is called. -/
def no_functions : Calls printer_runtime := fun _ _ => Run.crash

end Agreement

end quawk
