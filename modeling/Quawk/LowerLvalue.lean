import Quawk.Instructions
import Quawk.LoweringState

open StructuredCode.Code (emit)

namespace quawk

variable {V : Ty → Type}

/-- An expression with the code of its three views. -/
structure Lowered (V : Ty → Type) where
  expression : Expr
  numeric : Code V (V .double)
  string : Code V (V .ptr)
  condition : Code V (V .i1)

/-- An lvalue with the code of its key or index. -/
inductive LoweredLValue (V : Ty → Type) where
  | name (name : Name)
  | array (name : Name) (key : Code V (V .ptr))
  | field (index : Code V (V .i64))

/-- One instruction without a result. -/
def emit_void {types : List Ty} (f : Op types .unit) (operands : StructuredCode.Operands V types) :
    Code V Unit :=
  .op f operands fun _ => .done ()

/-- Code that raises `RuntimeError`. -/
def raise {α : Type} (message : String) : Code V α := .raise message

/-- Marks the point where a side effect of the expression is performed. -/
def performs (expression : Expr) : Code V Unit := .note expression (.done ())

def lower_runtime_constant_string (value : Text) : Code V (V .ptr) := emit (.string_constant value) ()

/-- Lower one scalar variable name to a runtime string pointer. -/
def lower_runtime_scalar_name (name : Name) : Code V (V .ptr) := lower_runtime_constant_string name.toList

def capture_string (string_value : V .ptr) : Code V (V .ptr) :=
  emit .qk_capture_string_arg_inline (string_value, ())

/-- Format one numeric runtime value as a captured string pointer. -/
def lower_runtime_string_from_numeric_value (numeric_value : V .double) : Code V (V .ptr) := do
  let formatted ← emit .qk_format_number (numeric_value, ())
  capture_string formatted

def lower_runtime_captured_string_expression (expression : Lowered V) : Code V (V .ptr) := do
  let string_value ← expression.string
  capture_string string_value

/-- Lower AWK string truthiness for one runtime-backed string expression. -/
def lower_runtime_string_truthiness (string : Code V (V .ptr)) : Code V (V .i1) := do
  let string_value ← string
  let first_char ← emit .load_char (string_value, ())
  emit .icmp_char (first_char, ())

section State

variable (state : LoweringState) (keys : Name → Option (V .ptr))

/-- The current key of a surrounding for-in loop. -/
def load_loop_string_binding (name : Name) : Code V (V .ptr) :=
  match keys name with
  | some key => pure key
  | none => .crash

def load_runtime_function_param_string (name : Name) : Code V (V .ptr) :=
  match state.param_slot name with
  | some slot => emit (.load_parameter slot) ()
  | none => .crash

def store_runtime_function_param_string (name : Name) (string_value : V .ptr) : Code V Unit :=
  match state.param_slot name with
  | some slot => do
    let captured_value ← capture_string string_value
    emit_void (.store_parameter slot) (captured_value, ())
  | none => .crash

/-- Return the address used for a scalar variable: an alloca of the function, or a field of
`%quawk.state`. -/
def variable_address (name : Name) : Code V (V .addr) :=
  if runtime_name_uses_local_numeric_storage state name then emit (.local_variable name) ()
  else match state.variable_indexes.get name with
    | some index => emit (.state_variable name index) ()
    | none => raise ("undefined variable slot in reusable backend: " ++ name)

/-- Lower one runtime-backed call argument to a captured string pointer. -/
def lower_runtime_argument_string (expression : Lowered V) : Code V (V .ptr) :=
  if runtime_expression_has_string_result state expression.expression then
    lower_runtime_captured_string_expression expression
  else do
    let numeric_value ← expression.numeric
    lower_runtime_string_from_numeric_value numeric_value

/-- Lower one array key expression to a string pointer. -/
def lower_runtime_array_key (expression : Lowered V) : Code V (V .ptr) :=
  match expression.expression with
  | .string_literal value => lower_runtime_constant_string value
  | _ =>
    if runtime_expression_has_string_result state expression.expression then expression.string
    else do
      let numeric_value ← expression.numeric
      emit .qk_format_number (numeric_value, ())

/-- Join the remaining subscripts to a key. -/
def lower_runtime_joined_subscripts (subsep_value key_value : V .ptr) :
    List (Lowered V) → Code V (V .ptr)
  | [] => pure key_value
  | subscript :: subscripts => do
    let right_value ← lower_runtime_array_key state subscript
    let joined_value ← emit .qk_concat (key_value, subsep_value, ())
    let next_key_value ← emit .qk_concat (joined_value, right_value, ())
    lower_runtime_joined_subscripts subsep_value next_key_value subscripts

/-- Lower one array subscript tuple to the runtime's flat string key format. -/
def lower_runtime_array_subscripts : List (Lowered V) → Code V (V .ptr)
  | [] => raise "empty array subscript lists are not supported by the runtime-backed backend"
  | [subscript] => lower_runtime_array_key state subscript
  | subscript :: subscripts => do
    let key_value ← lower_runtime_array_key state subscript
    let subsep_name ← lower_runtime_scalar_name "SUBSEP"
    let subsep_value ← emit .qk_scalar_get_inline (subsep_name, ())
    lower_runtime_joined_subscripts state subsep_value key_value subscripts

/-- Lower one field index to an `i64` operand. -/
def lower_runtime_field_index (index : Lowered V) : Code V (V .i64) := do
  let numeric_value ← index.numeric
  emit .fptosi_i64 (numeric_value, ())

/-- Assign one runtime string result back through a supported lvalue. -/
def lower_runtime_assign_string_lvalue (target : LoweredLValue V) (string_value : V .ptr) : Code V Unit :=
  match target with
  | .name name =>
    if state.is_function_param_string name then
      store_runtime_function_param_string state name string_value
    else
      let slot_index := runtime_name_slot_index state name
      match slot_index with
      | some slot_index =>
        if runtime_name_uses_string_slot_runtime state name then
          emit_void (.qk_slot_set_string slot_index) (string_value, ())
        else do
          let scalar_name ← lower_runtime_scalar_name name
          emit_void .qk_scalar_set_string (scalar_name, string_value, ())
          emit_void (.qk_slot_set_string slot_index) (string_value, ())
      | none => do
        let scalar_name ← lower_runtime_scalar_name name
        emit_void .qk_scalar_set_string (scalar_name, string_value, ())
  | .field index => do
    let index_value ← index
    emit_void .qk_set_field_string (index_value, string_value, ())
  | .array name key => do
    let array_name_ptr ← lower_runtime_constant_string name.toList
    let key_ptr ← key
    emit_void .qk_array_set_string (array_name_ptr, key_ptr, string_value, ())

end State

end quawk
