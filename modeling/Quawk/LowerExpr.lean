import Quawk.LowerBuiltins

open StructuredCode.Code (emit)

namespace quawk

variable {V : Ty → Type}

/-- The value a compound assignment stores. -/
def combine_numeric_assignment (op : AssignOp) (current_value update_value : V .double) :
    Code V (V .double) :=
  match op with
  | .plain => pure update_value
  | .add => emit .fadd (current_value, update_value, ())
  | .sub => emit .fsub (current_value, update_value, ())
  | .mul => emit .fmul (current_value, update_value, ())
  | .div => emit .fdiv (current_value, update_value, ())
  | .mod => do
    let quotient ← emit .fdiv (current_value, update_value, ())
    let truncated ← emit .llvm_trunc (quotient, ())
    let product ← emit .fmul (truncated, update_value, ())
    emit .fsub (current_value, product, ())
  | .pow => emit .llvm_pow (current_value, update_value, ())

section State

variable (state : LoweringState) (keys : Name → Option (V .ptr))

/-- The number a scalar of the runtime holds: its cached slot or its entry in the scalar table. -/
def lower_runtime_current_number (name : Name) (scalar_name : V .ptr) : Code V (V .double) :=
  match runtime_name_slot_index state name with
  | some slot_index =>
    if runtime_name_uses_slot_cached_runtime state name then emit (.qk_slot_get_number slot_index) ()
    else emit .qk_scalar_get_number_inline (scalar_name, ())
  | none => emit .qk_scalar_get_number_inline (scalar_name, ())

/-- Store a number in a scalar of the runtime, and in its slot when that is cached. -/
def store_runtime_number (name : Name) (scalar_name : V .ptr) (numeric_value : V .double) : Code V Unit := do
  match runtime_name_slot_index state name with
  | some slot_index =>
    if runtime_name_uses_slot_cached_runtime state name then
      emit_void (.qk_slot_set_number slot_index) (numeric_value, ())
  | none => pure ()
  emit_void .qk_scalar_set_number_inline (scalar_name, numeric_value, ())

/-- Whether a plain assignment of one scalar to another copies it in the scalar table. -/
def copies_scalar (name : Name) (value : Expr) : Option Name :=
  match value with
  | .name source =>
    if runtime_name_uses_scalar_runtime state source ∧
        runtime_name_uses_local_numeric_storage state source = false ∧
        runtime_name_uses_string_slot_runtime state name = false then some source
    else none
  | _ => none

/-- Lower one numeric assignment expression to a field. -/
def lower_runtime_field_assignment_expression (expression : Expr) (index : Code V (V .i64)) (op : AssignOp)
    (value : Lowered V) : Code V (V .double) := do
  let index_value ← index
  if op = .plain ∧ runtime_assignment_preserves_string state value.expression then
    raise "string-valued field assignment expressions are not supported yet in runtime-backed backend"
  else do
    let current_field ← emit .qk_get_field_inline (index_value, ())
    let current_value ← emit .qk_parse_number_text (current_field, ())
    let numeric_value ← value.numeric
    let numeric_value ← combine_numeric_assignment op current_value numeric_value
    performs expression
    emit_void .qk_set_field_number (index_value, numeric_value, ())
    pure numeric_value

def lower_runtime_array_assignment_expression (expression : Expr) (name : Name) (key : Code V (V .ptr))
    (op : AssignOp) (value : Lowered V) : Code V (V .double) := do
  let array_name_ptr ← lower_runtime_constant_string name.toList
  let key_ptr ← key
  if op = .plain ∧ runtime_assignment_preserves_string state value.expression then
    raise "string-valued array assignment expressions are not supported yet in runtime-backed backend"
  else do
    let current_value ← emit .qk_array_get_number (array_name_ptr, key_ptr, ())
    let numeric_value ← value.numeric
    let numeric_value ← combine_numeric_assignment op current_value numeric_value
    performs expression
    emit_void .qk_array_set_number (array_name_ptr, key_ptr, numeric_value, ())
    pure numeric_value

def lower_runtime_param_assignment_expression (expression : Expr) (name : Name) (op : AssignOp)
    (value : Lowered V) : Code V (V .double) :=
  if op = .plain ∧ runtime_assignment_preserves_string state value.expression then do
    let string_value ← value.string
    performs expression
    store_runtime_function_param_string state name string_value
    let stored_value ← load_runtime_function_param_string state name
    emit .qk_parse_number_text (stored_value, ())
  else do
    let current_ptr ← load_runtime_function_param_string state name
    let current_value ← emit .qk_parse_number_text (current_ptr, ())
    let numeric_value ← value.numeric
    let numeric_value ← combine_numeric_assignment op current_value numeric_value
    performs expression
    let string_value ← lower_runtime_string_from_numeric_value numeric_value
    store_runtime_function_param_string state name string_value
    pure numeric_value

/-- Lower one numeric assignment expression to a number of the program state. -/
def lower_runtime_state_assignment_expression (expression : Expr) (name : Name) (op : AssignOp)
    (value : Lowered V) : Code V (V .double) := do
  let slot_name ← variable_address state name
  let current_value ← emit .load_double (slot_name, ())
  let numeric_value ← value.numeric
  let numeric_value ← combine_numeric_assignment op current_value numeric_value
  performs expression
  emit_void .store_double (numeric_value, slot_name, ())
  pure numeric_value

/-- A plain copy of one scalar to another, as an expression. -/
def lower_runtime_copy_expression (expression : Expr) (name source : Name) (scalar_name : V .ptr) :
    Code V (V .double) := do
  let source_name ← lower_runtime_scalar_name source
  performs expression
  emit_void .qk_scalar_copy (scalar_name, source_name, ())
  match runtime_name_slot_index state name, runtime_name_slot_index state source with
  | some slot_index, some source_slot_index => do
    let numeric_value ← emit (.qk_slot_get_number source_slot_index) ()
    emit_void (.qk_slot_set_number slot_index) (numeric_value, ())
    pure numeric_value
  | _, _ => emit .qk_scalar_get_number_inline (scalar_name, ())

/-- A plain assignment of a string to a scalar, as a numeric expression. -/
def lower_runtime_string_to_scalar_expression (expression : Expr) (name : Name) (value : Lowered V)
    (scalar_name : V .ptr) : Code V (V .double) := do
  let string_value ← value.string
  performs expression
  match runtime_name_slot_index state name with
  | some slot_index =>
    if runtime_name_uses_string_slot_runtime state name then do
      emit_void (.qk_slot_set_string slot_index) (string_value, ())
      let numeric_value ← emit .qk_parse_number_text (string_value, ())
      emit_void (.qk_slot_set_number slot_index) (numeric_value, ())
      pure numeric_value
    else do
      emit_void .qk_scalar_set_string (scalar_name, string_value, ())
      let numeric_value ← emit .qk_parse_number_text (string_value, ())
      emit_void (.qk_slot_set_number slot_index) (numeric_value, ())
      pure numeric_value
  | none => do
    emit_void .qk_scalar_set_string (scalar_name, string_value, ())
    emit .qk_scalar_get_number_inline (scalar_name, ())

/-- Lower one numeric assignment expression to a scalar of the runtime. -/
def lower_runtime_scalar_assignment_expression (expression : Expr) (name : Name) (op : AssignOp)
    (value : Lowered V) : Code V (V .double) := do
  let scalar_name ← lower_runtime_scalar_name name
  match (if op = .plain then copies_scalar state name value.expression else none) with
  | some source => lower_runtime_copy_expression state expression name source scalar_name
  | none =>
    if op = .plain ∧ runtime_assignment_preserves_string state value.expression then
      lower_runtime_string_to_scalar_expression state expression name value scalar_name
    else do
      let current_value ← lower_runtime_current_number state name scalar_name
      let numeric_value ← value.numeric
      let numeric_value ← combine_numeric_assignment op current_value numeric_value
      performs expression
      store_runtime_number state name scalar_name numeric_value
      pure numeric_value

/-- Lower one numeric assignment expression in the runtime-backed backend subset. -/
def lower_runtime_assignment_expression (expression : Expr) (target : LoweredLValue V) (op : AssignOp)
    (value : Lowered V) : Code V (V .double) :=
  match target with
  | .field index => lower_runtime_field_assignment_expression state expression index op value
  | .array name key => lower_runtime_array_assignment_expression state expression name key op value
  | .name name =>
    if state.is_function_param_string name then
      lower_runtime_param_assignment_expression state expression name op value
    else if is_reusable_runtime_state_name name ∨ runtime_name_uses_numeric_slot_state state name then
      lower_runtime_state_assignment_expression state expression name op value
    else lower_runtime_scalar_assignment_expression state expression name op value

/-- A string stored in a scalar of the runtime, and the string read back. -/
def lower_runtime_string_to_scalar (name : Name) (string_value : V .ptr) : Code V (V .ptr) :=
  match runtime_name_slot_index state name with
  | some slot_index =>
    if runtime_name_uses_string_slot_runtime state name then do
      emit_void (.qk_slot_set_string slot_index) (string_value, ())
      emit (.qk_slot_get_string slot_index) ()
    else do
      let scalar_name ← lower_runtime_scalar_name name
      emit_void .qk_scalar_set_string (scalar_name, string_value, ())
      emit_void (.qk_slot_set_string slot_index) (string_value, ())
      if runtime_name_uses_slot_cached_runtime state name then emit (.qk_slot_get_string slot_index) ()
      else emit .qk_scalar_get_inline (scalar_name, ())
  | none => do
    let scalar_name ← lower_runtime_scalar_name name
    emit_void .qk_scalar_set_string (scalar_name, string_value, ())
    emit .qk_scalar_get_inline (scalar_name, ())

/-- Lower one plain assignment that keeps its string, and read the string back. Any other plain
assignment leaves the source function without a result to return. -/
def lower_runtime_string_assignment (expression : Expr) (target : LoweredLValue V) (value : Lowered V) :
    Code V (V .ptr) :=
  if runtime_assignment_preserves_string state value.expression = false then .crash
  else match target with
    | .field index => do
      let field_index ← index
      let string_value ← value.string
      performs expression
      emit_void .qk_set_field_string (field_index, string_value, ())
      emit .qk_get_field_inline (field_index, ())
    | .array name key => do
      let array_name_ptr ← lower_runtime_constant_string name.toList
      let key_ptr ← key
      let string_value ← value.string
      performs expression
      emit_void .qk_array_set_string (array_name_ptr, key_ptr, string_value, ())
      emit .qk_array_get (array_name_ptr, key_ptr, ())
    | .name name =>
      if state.is_function_param_string name then do
        let string_value ← value.string
        performs expression
        store_runtime_function_param_string state name string_value
        load_runtime_function_param_string state name
      else if is_reusable_runtime_state_name name then
        raise "string-valued assignment expressions are not supported for reusable numeric state"
      else do
        let string_value ← value.string
        performs expression
        lower_runtime_string_to_scalar state name string_value

inductive Increment where
  | increment | decrement
  deriving DecidableEq

def Increment.opcode : Increment → Op [.double, .double] .double
  | .increment => .fadd
  | .decrement => .fsub

/-- Add or subtract one. -/
def lower_runtime_incremented (delta : Increment) (old_value : V .double) : Code V (V .double) := do
  let amount ← emit (.number .one) ()
  emit delta.opcode (old_value, amount, ())

/-- Lower one runtime-backed pre/post increment or decrement expression. -/
def lower_runtime_increment_expression (expression : Expr) (operand : Option (LoweredLValue V))
    (delta : Increment) (return_old : Bool) : Code V (V .double) :=
  match operand with
  | some (.name name) =>
    if state.is_function_param_string name then do
      let current_ptr ← load_runtime_function_param_string state name
      let old_value ← emit .qk_parse_number_text (current_ptr, ())
      let new_value ← lower_runtime_incremented delta old_value
      performs expression
      let string_value ← lower_runtime_string_from_numeric_value new_value
      store_runtime_function_param_string state name string_value
      pure (if return_old then old_value else new_value)
    else if is_reusable_runtime_state_name name ∨ runtime_name_uses_numeric_slot_state state name then do
      let slot_name ← variable_address state name
      let old_value ← emit .load_double (slot_name, ())
      let new_value ← lower_runtime_incremented delta old_value
      performs expression
      emit_void .store_double (new_value, slot_name, ())
      pure (if return_old then old_value else new_value)
    else do
      let scalar_name ← lower_runtime_scalar_name name
      let old_value ← lower_runtime_current_number state name scalar_name
      let new_value ← lower_runtime_incremented delta old_value
      performs expression
      store_runtime_number state name scalar_name new_value
      pure (if return_old then old_value else new_value)
  | some (.field index) => do
    let index_value ← index
    let old_text ← emit .qk_get_field_inline (index_value, ())
    let old_value ← emit .qk_parse_number_text (old_text, ())
    let new_value ← lower_runtime_incremented delta old_value
    performs expression
    emit_void .qk_set_field_number (index_value, new_value, ())
    pure (if return_old then old_value else new_value)
  | some (.array name key) => do
    let array_name_ptr ← lower_runtime_constant_string name.toList
    let key_ptr ← key
    let old_value ← emit .qk_array_get_number (array_name_ptr, key_ptr, ())
    let new_value ← lower_runtime_incremented delta old_value
    performs expression
    emit_void .qk_array_set_number (array_name_ptr, key_ptr, new_value, ())
    pure (if return_old then old_value else new_value)
  | none => raise "unsupported increment/decrement target in runtime-backed backend"

end State

end quawk
