import Quawk.CodeRuns
import Quawk.NumericMeaning

namespace quawk

open StructuredCode (Operands)
open StructuredCode.Code (emit)
open StatefulRun (Result Run)

section Addresses

variable (state : LoweringState)

/-- The address of a variable that is kept as a number. -/
def number_address (name : Name) : Option Address :=
  if runtime_name_uses_numeric_slot_state state name then
    if runtime_name_uses_local_numeric_storage state name then some (.local_variable name)
    else (state.variable_indexes.get name).map .state_field
  else none

/-- The field of `%quawk.state` of a range rule. -/
def range_index (name : Name) : Option Nat :=
  if is_reusable_runtime_state_name name then state.variable_indexes.get name else none

variable {R : Runtime}

/-- What a machine holds for a program of numbers. -/
def reading (machine : Machine R) : NumericState R where
  numbers name := ((number_address state name).map machine.load).getD R.zero
  active name := ((range_index state name).map fun index => R.nonzero (machine.state index)).getD false
  world := machine.world
  exit_requested := machine.exit_requested
  exit_status := machine.exit_status

end Addresses

/-- The variables an expression of numbers assigns. -/
def assigned_numbers : Expr → List Name
  | .field index => assigned_numbers index
  | .call _ [argument] => assigned_numbers argument
  | .binary left _ right => assigned_numbers left ++ assigned_numbers right
  | .conditional test if_true if_false =>
    assigned_numbers test ++ assigned_numbers if_true ++ assigned_numbers if_false
  | .assign (.name name) _ value => name :: assigned_numbers value
  | .unary op operand =>
    match op with
    | .uplus | .uminus | .not => assigned_numbers operand
    | .pre_inc | .pre_dec => (scalar_name operand).toList
  | .postfix_op operand _ => (scalar_name operand).toList
  | _ => []

/-- Expressions that neither assign nor ask the runtime. -/
def is_effect_free : Expr → Bool
  | .numeric_literal _ => true
  | .name name => (counter name).isNone
  | .binary left op right =>
    (op == .logical_and || op == .logical_or || operator_of_numbers op) && is_effect_free left && is_effect_free right
  | .conditional test if_true if_false =>
    is_effect_free test && is_effect_free if_true && is_effect_free if_false
  | .unary op operand =>
    match op with
    | .uplus | .uminus | .not => is_effect_free operand
    | .pre_inc | .pre_dec => false
  | _ => false

section Core

variable (state : LoweringState)

def is_number_name (name : Name) : Bool := (number_address state name).isSome

/-- Whether the code of an expression of numbers has blocks of its own. -/
def makes_blocks : Expr → Bool
  | .field index => makes_blocks index
  | .call _ [argument] => makes_blocks argument
  | .binary left op right => op == .logical_and || op == .logical_or || makes_blocks left || makes_blocks right
  | .conditional test if_true if_false =>
    runtime_expression_has_side_effects state if_true || runtime_expression_has_side_effects state if_false ||
      makes_blocks test || makes_blocks if_true || makes_blocks if_false
  | .assign _ _ value => makes_blocks value
  | .unary _ operand => makes_blocks operand
  | _ => false

/-- A ternary takes one of two blocks where its arms may have effects; else both arms are evaluated. The phi behind the
two blocks names them, so that an arm must not have blocks of its own. -/
def arms_agree (if_true if_false : Expr) : Bool :=
  if runtime_expression_has_side_effects state if_true || runtime_expression_has_side_effects state if_false then
    !makes_blocks state if_true && !makes_blocks state if_false
  else is_effect_free if_true && is_effect_free if_false

/-- Expressions that are lowered as numbers throughout. As a condition, an expression must not be taken for a
string; a compound assignment reads its variable before its value, so the value must not assign it. -/
def is_numeric (as_condition : Bool) : Expr → Bool
  | .numeric_literal _ => true
  | .name name =>
    ((counter name).isSome || is_number_name state name) &&
      (!as_condition || !runtime_expression_is_known_string state (.name name))
  | .field_at _ => !as_condition
  | .field index => !as_condition && is_numeric false index
  | .call function [argument] =>
    (numeric_function function).isSome && !state.is_user_function function && is_numeric false argument
  | .binary left op right =>
    match op with
    | .logical_and | .logical_or => is_numeric true left && is_numeric true right
    | op =>
      operator_of_numbers op && is_numeric false left && is_numeric false right &&
        (is_arithmetic op || (runtime_expression_is_definitely_numeric state left &&
          runtime_expression_is_definitely_numeric state right))
  | .conditional test if_true if_false =>
    is_numeric true test && is_numeric as_condition if_true && is_numeric as_condition if_false &&
      arms_agree state if_true if_false
  | .assign (.name name) op value =>
    is_number_name state name && is_numeric false value &&
      (decide (op = .plain) || !(assigned_numbers value).contains name) &&
      (!as_condition || !runtime_assignment_preserves_string state value)
  | .unary op operand =>
    match op with
    | .uplus | .uminus => is_numeric false operand
    | .not => is_numeric true operand
    | .pre_inc | .pre_dec => (scalar_name operand).any (is_number_name state)
  | .postfix_op operand _ => (scalar_name operand).any (is_number_name state)
  | _ => false

end Core

section Memory

variable {state : LoweringState} {R : Runtime} {machine : Machine R} {name other : Name} {address : Address}

theorem get_eq_some {variable_indexes : VariableIndexes} {index : Nat}
    (h : variable_indexes.get name = some index) : variable_indexes[index]? = some name := by
  obtain ⟨hlt, heq, _⟩ := List.findIdx?_eq_some_iff_getElem.mp h
  rw [List.getElem?_eq_getElem hlt, eq_of_beq heq]

theorem get_injective {variable_indexes : VariableIndexes} {index : Nat}
    (h1 : variable_indexes.get name = some index) (h2 : variable_indexes.get other = some index) : name = other := by
  have hname := get_eq_some h1
  rw [get_eq_some h2] at hname
  exact (Option.some.inj hname).symm

theorem number_address_cases (h : number_address state name = some address) :
    runtime_name_uses_numeric_slot_state state name = true ∧
      (runtime_name_uses_local_numeric_storage state name = true ∧ address = .local_variable name ∨
        runtime_name_uses_local_numeric_storage state name = false ∧
          ∃ index, state.variable_indexes.get name = some index ∧ address = .state_field index) := by
  unfold number_address at h
  split at h
  · next hslot =>
    refine ⟨hslot, ?_⟩
    split at h
    · next hlocal => exact .inl ⟨hlocal, (Option.some.inj h).symm⟩
    · next hlocal =>
      obtain ⟨index, hindex, heq⟩ := Option.map_eq_some_iff.mp h
      exact .inr ⟨Bool.eq_false_iff.mpr hlocal, index, hindex, heq.symm⟩
  · cases h

/-- Every number has an address of its own. -/
theorem number_address_injective (h1 : number_address state name = some address)
    (h2 : number_address state other = some address) : name = other := by
  obtain ⟨_, ⟨_, rfl⟩ | ⟨_, index, hindex, rfl⟩⟩ := number_address_cases h1 <;>
    obtain ⟨_, ⟨_, heq⟩ | ⟨_, index', hindex', heq⟩⟩ := number_address_cases h2
  · exact Address.local_variable.inj heq
  · cases heq
  · cases heq
  · cases heq
    exact get_injective hindex hindex'

theorem not_reusable_of_number (h : number_address state name = some address) :
    is_reusable_runtime_state_name name = false := by
  have hslot := (number_address_cases h).1
  simp only [runtime_name_uses_numeric_slot_state, runtime_name_uses_scalar_runtime, Bool.and_eq_true,
    Bool.not_eq_true'] at hslot
  exact hslot.1.1.2

theorem range_index_cases {index : Nat} (h : range_index state name = some index) :
    is_reusable_runtime_state_name name = true ∧ state.variable_indexes.get name = some index := by
  unfold range_index at h
  split at h
  · next hreusable => exact ⟨hreusable, h⟩
  · cases h

/-- A range rule keeps no number at its field. -/
theorem range_index_apart {index : Nat} (h1 : number_address state name = some address)
    (h2 : range_index state other = some index) : address ≠ .state_field index := by
  rintro rfl
  obtain ⟨hreusable, hget⟩ := range_index_cases h2
  obtain ⟨_, ⟨_, heq⟩ | ⟨_, index', hindex', heq⟩⟩ := number_address_cases h1
  · cases heq
  · cases heq
    rw [get_injective hindex' hget] at h1
    rw [not_reusable_of_number h1] at hreusable
    cases hreusable

theorem load_store (machine : Machine R) (value : R.Number) (address other : Address) :
    (machine.store value address).load other = if other = address then value else machine.load other := by
  cases address <;> cases other <;> simp [Machine.store, Machine.load, Function.update_apply]

theorem reading_numbers (h : number_address state name = some address) :
    (reading state machine).numbers name = machine.load address := by
  change ((number_address state name).map machine.load).getD R.zero = _
  rw [h]
  rfl

theorem reading_store (h : number_address state name = some address) (value : R.Number) :
    reading state (machine.store value address) =
      { reading state machine with numbers := Function.update (reading state machine).numbers name value } := by
  have hnumbers : (reading state (machine.store value address)).numbers =
      Function.update (reading state machine).numbers name value := by
    funext other
    rw [Function.update_apply]
    cases hother : number_address state other with
    | none =>
      have hne : other ≠ name := fun heq => by rw [heq, h] at hother; cases hother
      rw [if_neg hne]
      change ((number_address state other).map _).getD _ = ((number_address state other).map _).getD _
      rw [hother]
      rfl
    | some place =>
      rw [reading_numbers hother, reading_numbers hother, load_store]
      by_cases heq : other = name
      · subst heq
        rw [h] at hother
        rw [if_pos (Option.some.inj hother).symm, if_pos rfl]
      · have hplace : place ≠ address := by
          rintro rfl
          exact heq (number_address_injective hother h)
        rw [if_neg heq, if_neg hplace]
  have hactive : (reading state (machine.store value address)).active = (reading state machine).active := by
    funext other
    change ((range_index state other).map _).getD false = ((range_index state other).map _).getD false
    cases hother : range_index state other with
    | none => rfl
    | some index =>
      have hload := load_store machine value address (.state_field index)
      rw [if_neg fun heq => range_index_apart h hother heq.symm] at hload
      exact congrArg R.nonzero hload
  have hrest : (reading state (machine.store value address)).world = machine.world ∧
      (reading state (machine.store value address)).exit_requested = machine.exit_requested ∧
      (reading state (machine.store value address)).exit_status = machine.exit_status := by
    cases address <;> exact ⟨rfl, rfl, rfl⟩
  obtain ⟨hworld, hrequested, hstatus⟩ := hrest
  generalize reading state (machine.store value address) = after at *
  cases after
  simp_all [reading]

end Memory

end quawk
