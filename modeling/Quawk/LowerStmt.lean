import Quawk.LowerViews

open StructuredCode.Code (emit)

namespace quawk

/-- Lowered statements: code of expressions, and the blocks and branches around it. -/
inductive Block (V : Ty → Type) : Type 1 where
  | skip
  | seq (first second : Block V)
  | code (code : Code V Unit)
  | if_statement (test : Expr) (condition : Code V (V .i1)) (then_branch : Block V)
  | if_else_statement (test : Expr) (condition : Code V (V .i1)) (then_branch else_branch : Block V)
  | while_statement (test : Expr) (condition : Code V (V .i1)) (body : Block V)
  | do_while_statement (body : Block V) (test : Expr) (condition : Code V (V .i1))
  | for_statement (init : Code V Unit) (test : Expr) (condition : Code V (V .i1)) (body : Block V)
      (update : Code V Unit)
  /-- The body is given the current key. -/
  | for_in_statement (array_name : Name) (body : V .ptr → Block V)
  | break_statement
  | continue_statement
  /-- `next` and `nextfile`, which leave the phase. -/
  | next_statement
  | nextfile_statement
  /-- Without an expression the status is 0. -/
  | exit_statement (status : Option (Code V (V .i32)))
  | return_statement (value : Code V (V .ptr))
  | raise (message : String)

variable {V : Ty → Type}

section State

variable (state : LoweringState)

def lower_runtime_field_assignment_statement (index : Code V (V .i64)) (op : AssignOp) (value : Lowered V) :
    Code V Unit := do
  let index_value ← index
  if op = .plain ∧ runtime_assignment_preserves_string state value.expression then do
    let string_value ← value.string
    emit_void .qk_set_field_string (index_value, string_value, ())
  else do
    let current_field ← emit .qk_get_field_inline (index_value, ())
    let current_value ← emit .qk_parse_number_text (current_field, ())
    let numeric_value ← value.numeric
    let numeric_value ← combine_numeric_assignment op current_value numeric_value
    emit_void .qk_set_field_number (index_value, numeric_value, ())

def lower_runtime_param_assignment_statement (name : Name) (op : AssignOp) (value : Lowered V) :
    Code V Unit :=
  if op = .plain ∧ runtime_assignment_preserves_string state value.expression then do
    let string_value ← value.string
    store_runtime_function_param_string state name string_value
  else do
    let current_ptr ← load_runtime_function_param_string state name
    let current_value ← emit .qk_parse_number_text (current_ptr, ())
    let numeric_value ← value.numeric
    let numeric_value ← combine_numeric_assignment op current_value numeric_value
    let string_value ← lower_runtime_string_from_numeric_value numeric_value
    store_runtime_function_param_string state name string_value

def lower_runtime_array_assignment_statement (name : Name) (key : Code V (V .ptr)) (op : AssignOp)
    (value : Lowered V) : Code V Unit := do
  let array_name_ptr ← lower_runtime_constant_string name.toList
  let key_ptr ← key
  if op = .plain ∧ runtime_assignment_preserves_string state value.expression then do
    let string_value ← value.string
    emit_void .qk_array_set_string (array_name_ptr, key_ptr, string_value, ())
  else do
    let current_value ← emit .qk_array_get_number (array_name_ptr, key_ptr, ())
    let numeric_value ← value.numeric
    let numeric_value ← combine_numeric_assignment op current_value numeric_value
    emit_void .qk_array_set_number (array_name_ptr, key_ptr, numeric_value, ())

/-- A statement reads the current number after the value; an expression before. -/
def lower_runtime_state_assignment_statement (name : Name) (op : AssignOp) (value : Lowered V) :
    Code V Unit := do
  let slot_name ← variable_address state name
  let numeric_value ← value.numeric
  if op = .plain then emit_void .store_double (numeric_value, slot_name, ())
  else do
    let current_value ← emit .load_double (slot_name, ())
    let numeric_value ← combine_numeric_assignment op current_value numeric_value
    emit_void .store_double (numeric_value, slot_name, ())

def lower_runtime_copy_statement (name source : Name) (target_name : V .ptr) : Code V Unit := do
  let source_name ← lower_runtime_scalar_name source
  emit_void .qk_scalar_copy (target_name, source_name, ())
  match runtime_name_slot_index state name, runtime_name_slot_index state source with
  | some slot_index, some source_slot_index => do
    let source_numeric ← emit (.qk_slot_get_number source_slot_index) ()
    emit_void (.qk_slot_set_number slot_index) (source_numeric, ())
  | _, _ => pure ()

def lower_runtime_string_to_scalar_statement (name : Name) (value : Lowered V) (target_name : V .ptr) :
    Code V Unit := do
  let string_value ← value.string
  match runtime_name_slot_index state name with
  | some slot_index =>
    if runtime_name_uses_string_slot_runtime state name then
      emit_void (.qk_slot_set_string slot_index) (string_value, ())
    else do
      emit_void .qk_scalar_set_string (target_name, string_value, ())
      emit_void (.qk_slot_set_string slot_index) (string_value, ())
  | none => emit_void .qk_scalar_set_string (target_name, string_value, ())

def lower_runtime_scalar_assignment_statement (name : Name) (op : AssignOp) (value : Lowered V) :
    Code V Unit := do
  let target_name ← lower_runtime_scalar_name name
  match (if op = .plain then copies_scalar state name value.expression else none) with
  | some source => lower_runtime_copy_statement state name source target_name
  | none =>
    if op = .plain ∧ runtime_assignment_preserves_string state value.expression then
      lower_runtime_string_to_scalar_statement state name value target_name
    else do
      let current_value ← lower_runtime_current_number state name target_name
      let numeric_value ← value.numeric
      let numeric_value ← combine_numeric_assignment op current_value numeric_value
      store_runtime_number state name target_name numeric_value

/-- Lower one runtime-backed assignment in the reusable backend subset. -/
def lower_runtime_assignment_statement (target : LoweredLValue V) (op : AssignOp) (value : Lowered V) :
    Code V Unit :=
  match target with
  | .field index => lower_runtime_field_assignment_statement state index op value
  | .array name key =>
    if state.is_function_param_string name then lower_runtime_param_assignment_statement state name op value
    else lower_runtime_array_assignment_statement state name key op value
  | .name name =>
    if state.is_function_param_string name then lower_runtime_param_assignment_statement state name op value
    else if is_reusable_runtime_state_name name ∨ runtime_name_uses_numeric_slot_state state name then
      lower_runtime_state_assignment_statement state name op value
    else lower_runtime_scalar_assignment_statement state name op value

def lower_runtime_delete_statement (target : LoweredLValue V) : Code V Unit :=
  match target with
  | .field _ => raise "delete requires a named array target in the runtime-backed backend"
  | .name name => do
    let array_name_ptr ← lower_runtime_constant_string name.toList
    emit_void .qk_array_clear (array_name_ptr, ())
  | .array name key => do
    let array_name_ptr ← lower_runtime_constant_string name.toList
    let key_ptr ← key
    emit_void .qk_array_delete (array_name_ptr, key_ptr, ())

/-- Map one redirect kind to the runtime ABI mode integer. -/
def output_redirect_mode_value : OutputRedirectKind → Nat
  | .write => 1
  | .append => 2
  | .pipe => 3

/-- Lower one runtime-backed print argument fragment. -/
def lower_runtime_print_fragment (argument : Lowered V) : Code V Unit :=
  if runtime_expression_has_string_result state argument.expression then do
    let string_value ← argument.string
    emit_void .qk_print_string_fragment (string_value, ())
  else do
    let numeric_value ← argument.numeric
    emit_void .qk_print_number_fragment (numeric_value, ())

def lower_runtime_print_fragments : List (Lowered V) → Code V Unit
  | [] => pure ()
  | [argument] => lower_runtime_print_fragment state argument
  | argument :: rest => do
    lower_runtime_print_fragment state argument
    emit_void .qk_print_output_separator ()
    lower_runtime_print_fragments rest

def lower_runtime_output_fragment (output_handle : V .handle) (argument : Lowered V) : Code V Unit :=
  if runtime_expression_has_string_result state argument.expression then do
    let string_value ← argument.string
    emit_void .qk_write_output_string (output_handle, string_value, ())
  else do
    let numeric_value ← argument.numeric
    emit_void .qk_write_output_number (output_handle, numeric_value, ())

def lower_runtime_output_fragments (output_handle : V .handle) : List (Lowered V) → Code V Unit
  | [] => pure ()
  | [argument] => lower_runtime_output_fragment state output_handle argument
  | argument :: rest => do
    lower_runtime_output_fragment state output_handle argument
    emit_void .qk_write_output_separator (output_handle, ())
    lower_runtime_output_fragments output_handle rest

def load_current_record : Code V (V .ptr) := do
  let zero ← emit (.integer 0) ()
  emit .qk_get_field_inline (zero, ())

/-- Lower one `print` statement against the reusable runtime ABI. -/
def lower_runtime_print_statement (arguments : List (Lowered V))
    (redirect : Option (OutputRedirectKind × Lowered V)) : Code V Unit :=
  match redirect, arguments with
  | some (kind, target), [] => do
    let target_ptr ← target.string
    let output_handle ← emit (.qk_open_output (output_redirect_mode_value kind)) (target_ptr, ())
    let field_ptr ← load_current_record
    emit_void .qk_write_output_string (output_handle, field_ptr, ())
    emit_void .qk_write_output_record_separator (output_handle, ())
  | some (kind, target), arguments => do
    let target_ptr ← target.string
    let output_handle ← emit (.qk_open_output (output_redirect_mode_value kind)) (target_ptr, ())
    lower_runtime_output_fragments state output_handle arguments
    emit_void .qk_write_output_record_separator (output_handle, ())
  | none, [] => do
    let field_ptr ← load_current_record
    emit_void .qk_print_string (field_ptr, ())
  | none, arguments => do
    lower_runtime_print_fragments state arguments
    emit_void .qk_print_output_record_separator ()

def is_format_flag (char : Char) : Bool := ['-', '+', ' ', '#', '0'].contains char

def is_format_specifier (char : Char) : Bool := "%aAcdeEfgGiosuxX".toList.contains char

/-- The precision of a format, with the text after it; a dot without digits is none. -/
def skip_precision (text : Text) : Text :=
  match text with
  | '.' :: rest =>
    match rest.span is_decimal_digit with
    | ([], _) => text
    | (_, after) => after
  | _ => text

/-- What follows the `%` of a format: its specifier and the text after it. -/
def match_specifier (text : Text) : Option (Char × Text) :=
  match skip_precision ((text.dropWhile is_format_flag).dropWhile is_decimal_digit) with
  | specifier :: rest => if is_format_specifier specifier then some (specifier, rest) else none
  | [] => none

/-- The specifiers `PRINTF_SPEC_PATTERN` finds in a format, from left to right. -/
def printf_specifiers : Nat → Text → List Char
  | 0, _ | _, [] => []
  | fuel + 1, '%' :: rest =>
    match match_specifier rest with
    | some (specifier, after) => specifier :: printf_specifiers fuel after
    | none => printf_specifiers fuel rest
  | fuel + 1, _ :: rest => printf_specifiers fuel rest

/-- One operand of a `printf` with a literal format. -/
def lower_runtime_printf_operand (specifier : Char) (argument : Lowered V) : Code V (Sigma V) :=
  if specifier = 's' then do
    let string_value ← lower_runtime_captured_string_expression argument
    pure ⟨.ptr, string_value⟩
  else if ['c', 'd', 'i', 'o', 'u', 'x', 'X'].contains specifier then do
    let numeric_value ← argument.numeric
    let integer_value ← emit .fptosi_i32 (numeric_value, ())
    pure ⟨.i32, integer_value⟩
  else do
    let numeric_value ← argument.numeric
    pure ⟨.double, numeric_value⟩

def lower_runtime_printf_operands : List (Char × Lowered V) → Code V (List (Sigma V))
  | [] => pure []
  | (specifier, argument) :: rest => do
    let operand ← lower_runtime_printf_operand specifier argument
    let rest_operands ← lower_runtime_printf_operands rest
    pure (operand :: rest_operands)

def operands_of_sigma : (operands : List (Sigma V)) → StructuredCode.Operands V (operands.map Sigma.fst)
  | [] => ()
  | ⟨_, operand⟩ :: rest => (operand, operands_of_sigma rest)

/-- Lower one `printf` statement with a literal format. -/
def lower_runtime_literal_printf (format : Text) (arguments : List (Lowered V))
    (redirect : Option (OutputRedirectKind × Lowered V)) : Code V Unit :=
  let specifiers := (printf_specifiers format.length format).filter (· ≠ '%')
  if specifiers.length ≠ arguments.length then
    raise "printf argument count does not match the format string in the runtime-backed backend"
  else do
    let operands ← lower_runtime_printf_operands (specifiers.zip arguments)
    let format_ptr ← lower_runtime_constant_string format
    match redirect with
    | none => emit_void (.printf (operands.map Sigma.fst)) (format_ptr, operands_of_sigma operands)
    | some (kind, target) => do
      let target_ptr ← target.string
      let output_handle ← emit (.qk_open_output (output_redirect_mode_value kind)) (target_ptr, ())
      emit_void (.fprintf (operands.map Sigma.fst)) (output_handle, format_ptr, operands_of_sigma operands)

/-- Lower one `printf` statement whose format is computed. -/
def lower_runtime_dynamic_printf (format : Lowered V) (arguments : List (Lowered V))
    (redirect : Option (OutputRedirectKind × Lowered V)) : Code V Unit := do
  let format_ptr ← format.string
  let result ← lower_runtime_formatted state format_ptr arguments
  match redirect with
  | none => emit_void .qk_print_string_fragment (result, ())
  | some (kind, target) => do
    let target_ptr ← target.string
    let output_handle ← emit (.qk_open_output (output_redirect_mode_value kind)) (target_ptr, ())
    emit_void .qk_write_output_string (output_handle, result, ())

/-- Lower one runtime-backed `printf` statement. -/
def lower_runtime_printf_statement (arguments : List (Lowered V))
    (redirect : Option (OutputRedirectKind × Lowered V)) : Code V Unit :=
  match arguments with
  | [] => raise "printf requires at least a format string"
  | format :: arguments =>
    match format.expression with
    | .string_literal value => lower_runtime_literal_printf value arguments redirect
    | _ => lower_runtime_dynamic_printf state format arguments redirect

/-- Lower one expression statement for the runtime-backed backend subset. -/
def lower_runtime_side_effect_expression (expression : Lowered V) : Code V Unit :=
  if runtime_expression_has_string_result state expression.expression then do
    let _ ← expression.string
    pure ()
  else
    .attempt expression.numeric
      (fun _ => raise "expression statements are not supported by the runtime-backed backend")
      (fun _ => .done ())

def lower_runtime_side_effect_expressions : List (Lowered V) → Code V Unit
  | [] => pure ()
  | expression :: rest => do
    lower_runtime_side_effect_expression state expression
    lower_runtime_side_effect_expressions rest

/-- The status an `exit` with an expression requests. -/
def lower_exit_status (value : Lowered V) : Code V (V .i32) := do
  let numeric_value ← value.numeric
  emit .fptosi_i32 (numeric_value, ())

/-- The string a `return` stores. -/
def lower_return_value (value : Option (Lowered V)) : Code V (V .ptr) :=
  match value with
  | none => lower_runtime_constant_string []
  | some value =>
    if runtime_expression_has_string_result state value.expression then value.string
    else do
      let numeric_value ← value.numeric
      lower_runtime_string_from_numeric_value numeric_value

end State

/-- Where a statement stands: in a function or a phase, and in a loop or not. -/
structure Surroundings where
  in_function : Bool
  in_loop : Bool

def bind_key (keys : Name → Option (V .ptr)) (name : Name) (key : V .ptr) : Name → Option (V .ptr) :=
  fun other => if other = name then some key else keys other

def LoweringState.bind_loop_string (state : LoweringState) (name : Name) : LoweringState :=
  { state with loop_string_bindings := name :: state.loop_string_bindings }

/-- The condition of a `for` loop; without one it is `true`. -/
def lower_for_condition (condition : Option (Lowered V)) : Code V (V .i1) :=
  match condition with
  | some condition => condition.condition
  | none => emit (.truth true) ()

/-- The expression a `for` loop tests. -/
def for_test (condition : Option Expr) : Expr := condition.getD (.numeric_literal ['1'])

mutual

/-- Lower one supported statement into side-effecting IR. -/
def lower_statement : Stmt → LoweringState → (Name → Option (V .ptr)) → Surroundings → Block V
  | .assign target op value, state, keys, _ =>
    .code (lower_runtime_assignment_statement state (lower_lvalue state keys target) op
      (lower_expression state keys value))
  | .block statements, state, keys, place => lower_statements statements state keys place
  | .break_stmt, _, _, place =>
    if place.in_loop then .break_statement
    else .raise "break statements are not supported by the current backend"
  | .continue_stmt, _, _, place =>
    if place.in_loop then .continue_statement
    else .raise "continue statements are not supported by the current backend"
  | .delete target, state, keys, _ => .code (lower_runtime_delete_statement (lower_lvalue state keys target))
  | .if_stmt condition then_branch none, state, keys, place =>
    .if_statement condition (lower_expression state keys condition).condition
      (lower_statement then_branch state keys place)
  | .if_stmt condition then_branch (some else_branch), state, keys, place =>
    .if_else_statement condition (lower_expression state keys condition).condition
      (lower_statement then_branch state keys place) (lower_statement else_branch state keys place)
  | .while_stmt condition body, state, keys, place =>
    .while_statement condition (lower_expression state keys condition).condition
      (lower_statement body state keys { place with in_loop := true })
  | .do_while body condition, state, keys, place =>
    .do_while_statement (lower_statement body state keys { place with in_loop := true }) condition
      (lower_expression state keys condition).condition
  | .for_stmt init condition update body, state, keys, place =>
    .for_statement (lower_runtime_side_effect_expressions state (lower_expressions state keys init))
      (for_test condition) (lower_for_condition (condition.map (lower_expression state keys)))
      (lower_statement body state keys { place with in_loop := true })
      (lower_runtime_side_effect_expressions state (lower_expressions state keys update))
  | .for_in name (.name array_name) body, state, keys, place =>
    .for_in_statement array_name fun key =>
      lower_statement body (state.bind_loop_string name) (bind_key keys name key)
        { place with in_loop := true }
  | .for_in _ _ _, _, _, _ =>
    .raise "for-in iteration requires a named array in the runtime-backed backend"
  | .return_stmt value, state, keys, place =>
    if place.in_function then
      .return_statement (lower_return_value state (value.map (lower_expression state keys)))
    else .raise "return statements are not supported in this lowering context"
  | .print arguments redirect, state, keys, _ =>
    .code (lower_runtime_print_statement state (lower_expressions state keys arguments)
      (redirect.map fun redirect => (redirect.kind, lower_expression state keys redirect.target)))
  | .printf arguments redirect, state, keys, _ =>
    .code (lower_runtime_printf_statement state (lower_expressions state keys arguments)
      (redirect.map fun redirect => (redirect.kind, lower_expression state keys redirect.target)))
  | .expr value, state, keys, _ =>
    .code (lower_runtime_side_effect_expression state (lower_expression state keys value))
  | .next, _, _, place =>
    if place.in_function then .raise "next is not supported in the internal non-runtime lowering path"
    else .next_statement
  | .nextfile, _, _, place =>
    if place.in_function then .raise "nextfile is not supported in the internal non-runtime lowering path"
    else .nextfile_statement
  | .exit value, state, keys, _ =>
    .exit_statement (value.map fun value => lower_exit_status (lower_expression state keys value))

def lower_statements :
    List Stmt → LoweringState → (Name → Option (V .ptr)) → Surroundings → Block V
  | [], _, _, _ => .skip
  | statement :: rest, state, keys, place =>
    .seq (lower_statement statement state keys place) (lower_statements rest state keys place)

end

end quawk
