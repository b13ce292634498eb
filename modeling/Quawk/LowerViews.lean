import Quawk.LowerExpr

open StructuredCode.Code (emit)

namespace quawk

variable {V : Ty → Type}

def lower_runtime_formatted_number (numeric : Code V (V .double)) : Code V (V .ptr) := do
  let numeric_value ← numeric
  emit .qk_format_number (numeric_value, ())

def lower_runtime_parsed_string (string : Code V (V .ptr)) : Code V (V .double) := do
  let string_value ← string
  let captured ← capture_string string_value
  emit .qk_parse_number_text (captured, ())

def lower_runtime_number_truthiness (numeric : Code V (V .double)) : Code V (V .i1) := do
  let numeric_value ← numeric
  let zero ← emit (.number .zero) ()
  emit (.fcmp .one) (numeric_value, zero, ())

def lower_runtime_condition_number (condition : Code V (V .i1)) : Code V (V .double) := do
  let condition_value ← condition
  emit .uitofp_i1 (condition_value, ())

def lower_runtime_negated_number (condition : Code V (V .i1)) : Code V (V .double) := do
  let condition_value ← condition
  let zero ← emit (.number .zero) ()
  let one ← emit (.number .one) ()
  emit .select_double (condition_value, zero, one, ())

section State

variable (state : LoweringState) (keys : Name → Option (V .ptr))

/-- The condition of an expression that has no condition of its own. -/
def lower_condition_default (expression : Expr) (numeric : Code V (V .double)) (string : Code V (V .ptr)) :
    Code V (V .i1) :=
  if runtime_expression_is_known_string state expression then lower_runtime_string_truthiness string
  else lower_runtime_number_truthiness numeric

/-- The number of an expression that only has a string. -/
def lower_numeric_default (expression : Expr) (string : Code V (V .ptr)) : Code V (V .double) :=
  if runtime_expression_has_string_result state expression then lower_runtime_parsed_string string
  else raise "unsupported numeric expression in runtime-backed backend"

def lowered_views (expression : Expr) (numeric : Code V (V .double)) (string : Code V (V .ptr)) : Lowered V :=
  ⟨expression, numeric, string, lower_condition_default state expression numeric string⟩

def lowered_number (expression : Expr) (numeric : Code V (V .double)) : Lowered V :=
  lowered_views state expression numeric (lower_runtime_formatted_number numeric)

def lowered_string (expression : Expr) (string : Code V (V .ptr)) : Lowered V :=
  lowered_views state expression (lower_numeric_default state expression string) string

/-- An expression lowered to a condition first. -/
def lowered_condition (expression : Expr) (condition : Code V (V .i1)) : Lowered V :=
  let numeric := lower_runtime_condition_number condition
  ⟨expression, numeric, lower_runtime_formatted_number numeric, condition⟩

def lower_runtime_numeric_name (name : Name) : Code V (V .double) :=
  if name = "NR" then emit .qk_get_nr_inline ()
  else if name = "FNR" then emit .qk_get_fnr_inline ()
  else if name = "NF" then emit .qk_get_nf_inline ()
  else if state.is_function_param_string name then do
    let current_ptr ← load_runtime_function_param_string state name
    emit .qk_parse_number_text (current_ptr, ())
  else if is_reusable_runtime_state_name name ∨ runtime_name_uses_numeric_slot_state state name then do
    let slot_name ← variable_address state name
    emit .load_double (slot_name, ())
  else do
    let scalar_name ← lower_runtime_scalar_name name
    lower_runtime_current_number state name scalar_name

def lower_runtime_string_name (name : Name) : Code V (V .ptr) :=
  if state.is_loop_string_binding name then load_loop_string_binding keys name
  else if state.is_function_param_string name then load_runtime_function_param_string state name
  else if name = "FILENAME" then emit .qk_get_filename_inline ()
  else match runtime_name_slot_index state name with
    | some slot_index =>
      if runtime_name_uses_slot_cached_runtime state name then emit (.qk_slot_get_string slot_index) ()
      else if runtime_name_uses_only_scalar_runtime state name then do
        let scalar_name ← lower_runtime_scalar_name name
        emit .qk_scalar_get_inline (scalar_name, ())
      else lower_runtime_formatted_number (lower_runtime_numeric_name state name)
    | none =>
      if runtime_name_uses_only_scalar_runtime state name then do
        let scalar_name ← lower_runtime_scalar_name name
        emit .qk_scalar_get_inline (scalar_name, ())
      else lower_runtime_formatted_number (lower_runtime_numeric_name state name)

def lower_condition_name (name : Name) : Code V (V .i1) :=
  if runtime_name_uses_only_scalar_runtime state name then do
    let scalar_name ← lower_runtime_scalar_name name
    emit .qk_scalar_truthy (scalar_name, ())
  else lower_condition_default state (.name name) (lower_runtime_numeric_name state name)
    (lower_runtime_string_name state keys name)

/-- The operation codes and float predicates of the comparison operators. -/
def comparison_codes : BinaryOp → Nat × FloatPredicate
  | .less => (0, .olt)
  | .less_equal => (1, .ole)
  | .greater => (2, .ogt)
  | .greater_equal => (3, .oge)
  | .equal => (4, .oeq)
  | _ => (5, .one)

def lower_runtime_comparison (op : BinaryOp) (left right : Lowered V) : Code V (V .i1) :=
  let left_forces_string := expression_forces_string_comparison left.expression
  let right_forces_string := expression_forces_string_comparison right.expression
  if left_forces_string || right_forces_string then do
    let left_string ← lower_runtime_captured_string_expression left
    let right_string ← lower_runtime_captured_string_expression right
    let op_code ← emit (.word (comparison_codes op).1) ()
    emit .qk_compare_strings_inline (left_string, right_string, op_code, ())
  else if runtime_expression_is_definitely_numeric state left.expression &&
      runtime_expression_is_definitely_numeric state right.expression then do
    let left_operand ← left.numeric
    let right_operand ← right.numeric
    emit (.fcmp (comparison_codes op).2) (left_operand, right_operand, ())
  else do
    let left_string ← lower_runtime_captured_string_expression left
    let left_number ← left.numeric
    let right_string ← lower_runtime_captured_string_expression right
    let right_number ← right.numeric
    let left_needs_check ← emit (.truth (runtime_expression_has_string_result state left.expression)) ()
    let left_force_string ← emit (.truth left_forces_string) ()
    let right_needs_check ← emit (.truth (runtime_expression_has_string_result state right.expression)) ()
    let right_force_string ← emit (.truth right_forces_string) ()
    let op_code ← emit (.word (comparison_codes op).1) ()
    emit .qk_compare_values_inline (left_string, left_number, left_needs_check, left_force_string,
      right_string, right_number, right_needs_check, right_force_string, op_code, ())

def lower_runtime_logical (decided : Bool) (left right : Lowered V) : Code V (V .i1) := do
  let left_condition ← left.condition
  .short_circuit decided left.expression left_condition right.condition .done

/-- Lower one `~` / `!~` expression to an `i1` match result. -/
def lower_runtime_match_operator (inverted : Bool) (left right : Lowered V) : Code V (V .i1) := do
  let left_ptr ← lower_runtime_captured_string_expression left
  let pattern_ptr ← lower_runtime_regex_pattern right
  let match_result ← emit .qk_regex_match_text (left_ptr, pattern_ptr, ())
  if inverted then emit .xor_true (match_result, ()) else pure match_result

/-- Lower one `expr in array` membership expression to an `i1` result. -/
def lower_runtime_in_expression (left right : Lowered V) : Code V (V .i1) :=
  match right.expression with
  | .name array_name => do
    let array_name_ptr ← lower_runtime_constant_string array_name.toList
    let key_ptr ← lower_runtime_captured_string_expression left
    emit .qk_array_contains (array_name_ptr, key_ptr, ())
  | _ => raise "the runtime-backed backend only supports `in` against a named array"

def lower_runtime_arithmetic (op : BinaryOp) (left right : Lowered V) : Code V (V .double) := do
  let left_operand ← left.numeric
  let right_operand ← right.numeric
  match op with
  | .add => emit .fadd (left_operand, right_operand, ())
  | .sub => emit .fsub (left_operand, right_operand, ())
  | .mul => emit .fmul (left_operand, right_operand, ())
  | .div => emit .fdiv (left_operand, right_operand, ())
  | .mod => do
    let quotient ← emit .fdiv (left_operand, right_operand, ())
    let truncated ← emit .llvm_trunc (quotient, ())
    let product ← emit .fmul (truncated, right_operand, ())
    emit .fsub (left_operand, product, ())
  | _ => emit .llvm_pow (left_operand, right_operand, ())

def is_binary_expression : Expr → Bool
  | .binary _ _ _ => true
  | _ => false

/-- The operands of a concatenation are captured, unless both are strings by their form. -/
def lower_runtime_concatenation (left right : Lowered V) : Code V (V .ptr) := do
  if runtime_expression_is_known_string state left.expression &&
      runtime_expression_is_known_string state right.expression &&
      !is_binary_expression left.expression && !is_binary_expression right.expression then do
    let left_value ← left.string
    let right_value ← right.string
    emit .qk_concat (left_value, right_value, ())
  else do
    let left_value ← lower_runtime_captured_string_expression left
    let right_value ← lower_runtime_captured_string_expression right
    emit .qk_concat (left_value, right_value, ())

def lowered_binary (expression : Expr) (op : BinaryOp) (left right : Lowered V) : Lowered V :=
  match op with
  | .add | .sub | .mul | .div | .mod | .pow =>
    lowered_number state expression (lower_runtime_arithmetic op left right)
  | .less | .less_equal | .greater | .greater_equal | .equal | .not_equal =>
    lowered_condition expression (lower_runtime_comparison state op left right)
  | .logical_and => lowered_condition expression (lower_runtime_logical false left right)
  | .logical_or => lowered_condition expression (lower_runtime_logical true left right)
  | .match_op => lowered_condition expression (lower_runtime_match_operator false left right)
  | .not_match => lowered_condition expression (lower_runtime_match_operator true left right)
  | .in_op => lowered_condition expression (lower_runtime_in_expression left right)
  | .concat => lowered_string state expression (lower_runtime_concatenation state left right)

/-- A ternary whose arms may have side effects takes one of two blocks; the others evaluate both
arms and select. The string view always takes one of two blocks. -/
def lowered_conditional (expression : Expr) (test if_true if_false : Lowered V) : Lowered V where
  expression := expression
  numeric :=
    if runtime_expression_has_side_effects state if_true.expression ||
        runtime_expression_has_side_effects state if_false.expression then do
      let test_value ← test.condition
      .choice test.expression test_value if_true.numeric if_false.numeric .done
    else do
      let test_value ← test.condition
      let true_operand ← if_true.numeric
      let false_operand ← if_false.numeric
      emit .select_double (test_value, true_operand, false_operand, ())
  string := do
    let test_value ← test.condition
    .choice test.expression test_value (lower_runtime_captured_string_expression if_true)
      (lower_runtime_captured_string_expression if_false) .done
  condition :=
    if runtime_expression_has_side_effects state if_true.expression ||
        runtime_expression_has_side_effects state if_false.expression then do
      let test_value ← test.condition
      .choice test.expression test_value if_true.condition if_false.condition .done
    else do
      let test_value ← test.condition
      let true_condition ← if_true.condition
      let false_condition ← if_false.condition
      emit .select_i1 (test_value, true_condition, false_condition, ())

def lowered_unary (expression : Expr) (op : UnaryOp) (operand : Lowered V)
    (target : Option (LoweredLValue V)) : Lowered V :=
  match op with
  | .uplus => lowered_number state expression operand.numeric
  | .uminus => lowered_number state expression do
    let operand_value ← operand.numeric
    let zero ← emit (.number .zero) ()
    emit .fsub (zero, operand_value, ())
  | .not => lowered_number state expression (lower_runtime_negated_number operand.condition)
  | .pre_inc =>
    lowered_number state expression (lower_runtime_increment_expression state expression target .increment false)
  | .pre_dec =>
    lowered_number state expression (lower_runtime_increment_expression state expression target .decrement false)

def lowered_postfix (expression : Expr) (op : PostfixOp) (target : Option (LoweredLValue V)) : Lowered V :=
  match op with
  | .post_inc =>
    lowered_number state expression (lower_runtime_increment_expression state expression target .increment true)
  | .post_dec =>
    lowered_number state expression (lower_runtime_increment_expression state expression target .decrement true)

/-- Assign the line a `getline` read to its target, if it read one. -/
def lower_runtime_getline_target (expression : Expr) (target : LoweredLValue V) (result_slot : V .slot)
    (result : V .double) : Code V (V .double) := do
  let zero ← emit (.number .zero) ()
  let assign_condition ← emit (.fcmp .ogt) (result, zero, ())
  .guarded expression assign_condition
    (do
      let result_ptr ← emit .load_slot (result_slot, ())
      lower_runtime_assign_string_lvalue state target result_ptr)
    (.done result)

/-- Lower one currently claimed `getline` expression in the runtime-backed backend. -/
def lower_runtime_getline_expression (expression : Expr) (target : Option (LoweredLValue V))
    (source : Option (Lowered V)) : Code V (V .double) :=
  match target, source with
  | none, none => do
    performs expression
    emit .qk_getline_main_record ()
  | none, some source => do
    let source_ptr ← lower_runtime_captured_string_expression source
    performs expression
    emit .qk_getline_file_record (source_ptr, ())
  | some target, none => do
    let result_slot ← emit .result_slot ()
    performs expression
    let result ← emit .qk_getline_main_string (result_slot, ())
    lower_runtime_getline_target state expression target result_slot result
  | some target, some source => do
    let result_slot ← emit .result_slot ()
    let source_ptr ← lower_runtime_captured_string_expression source
    performs expression
    let result ← emit .qk_getline_file_string (source_ptr, result_slot, ())
    lower_runtime_getline_target state expression target result_slot result

/-- The calls that give a string. -/
def lower_runtime_string_call (expression : Expr) (function : Name) (args : List (Lowered V)) :
    Option (Code V (V .ptr)) :=
  if function = "substr" then some (lower_runtime_substr_builtin args)
  else if function = "sprintf" then some (lower_runtime_sprintf_builtin state args)
  else if function = "length" then none
  else if state.is_user_function function then
    some (lower_runtime_user_function_call state expression function args)
  else if function = "tolower" then some (lower_runtime_case_builtin args false)
  else if function = "toupper" then some (lower_runtime_case_builtin args true)
  else none

def lower_runtime_numeric_call (expression : Expr) (function : Name) (args : List (Lowered V))
    (third : Option (LoweredLValue V)) : Code V (V .double) :=
  if function = "split" then lower_runtime_split_builtin args
  else if function = "close" then lower_runtime_close_builtin args
  else if function = "gsub" then lower_runtime_substitute_builtin state expression args third true
  else if function = "index" then lower_runtime_index_builtin args
  else if function = "int" then lower_runtime_unary_numeric_builtin args .qk_int_builtin "int"
  else if function = "length" then lower_runtime_length_builtin state args
  else if function = "log" then lower_runtime_unary_numeric_builtin args .qk_log "log"
  else if function = "match" then lower_runtime_match_builtin args
  else if function = "rand" then lower_runtime_rand_builtin expression args
  else if function = "sin" then lower_runtime_unary_numeric_builtin args .qk_sin "sin"
  else if function = "sqrt" then lower_runtime_unary_numeric_builtin args .qk_sqrt "sqrt"
  else if function = "srand" then lower_runtime_srand_builtin args
  else if function = "sub" then lower_runtime_substitute_builtin state expression args third false
  else if function = "system" then lower_runtime_system_builtin expression args
  else if state.is_user_function function then do
    let string_value ← lower_runtime_user_function_call state expression function args
    emit .qk_parse_number_text (string_value, ())
  else if function = "atan2" then lower_runtime_binary_numeric_builtin args .qk_atan2 "atan2"
  else if function = "cos" then lower_runtime_unary_numeric_builtin args .qk_cos "cos"
  else if function = "exp" then lower_runtime_unary_numeric_builtin args .qk_exp "exp"
  else match lower_runtime_string_call state expression function args with
    | some string => lower_numeric_default state expression string
    | none => raise "unsupported numeric expression in runtime-backed backend"

def lowered_call (expression : Expr) (function : Name) (args : List (Lowered V))
    (third : Option (LoweredLValue V)) : Lowered V :=
  let numeric := lower_runtime_numeric_call state expression function args third
  lowered_views state expression numeric
    ((lower_runtime_string_call state expression function args).getD (lower_runtime_formatted_number numeric))

def lowered_assignment (expression : Expr) (target : LoweredLValue V) (op : AssignOp) (value : Lowered V) :
    Lowered V :=
  let numeric := lower_runtime_assignment_expression state expression target op value
  lowered_views state expression numeric
    (if op = .plain then lower_runtime_string_assignment state expression target value
    else lower_runtime_formatted_number numeric)

def lowered_array_element (expression : Expr) (array_name : Name) (key : Code V (V .ptr)) : Lowered V :=
  lowered_views state expression
    (do
      let array_name_ptr ← lower_runtime_constant_string array_name.toList
      let key_ptr ← key
      emit .qk_array_get_number (array_name_ptr, key_ptr, ()))
    (do
      let array_name_ptr ← lower_runtime_constant_string array_name.toList
      let key_ptr ← key
      emit .qk_array_get (array_name_ptr, key_ptr, ()))

def lowered_field (expression : Expr) (index : Code V (V .i64)) : Lowered V :=
  lowered_string state expression do
    let field_index ← index
    emit .qk_get_field_inline (field_index, ())

def lowered_regex (expression : Expr) (raw_text : Text) : Lowered V where
  expression := expression
  numeric := raise "unsupported numeric expression in runtime-backed backend"
  string := raise "unsupported numeric expression in runtime-backed backend"
  condition := do
    let string_ptr ← lower_runtime_constant_string (decode_regex_literal raw_text)
    emit .qk_regex_match_current_record (string_ptr, ())

mutual

/-- The three views of an expression: `lower_runtime_numeric_expression`,
`lower_runtime_string_expression` and `lower_condition_expression`. -/
def lower_expression : Expr → Lowered V
  | .string_literal value =>
    lowered_views state (.string_literal value) (emit (.number (.leading_number value)) ())
      (lower_runtime_constant_string value)
  | .numeric_literal raw_text =>
    lowered_number state (.numeric_literal raw_text) (emit (.number (.literal raw_text)) ())
  | .regex_literal raw_text => lowered_regex (.regex_literal raw_text) raw_text
  | .name name =>
    ⟨.name name, lower_runtime_numeric_name state name, lower_runtime_string_name state keys name,
      lower_condition_name state keys name⟩
  | .field_at index => lowered_field state (.field_at index) (emit (.integer index) ())
  | .field index => lowered_field state (.field index) (lower_runtime_field_index (lower_expression index))
  | .array_index array_name index extra_indexes =>
    lowered_array_element state (.array_index array_name index extra_indexes) array_name
      (lower_runtime_array_subscripts state (lower_expression index :: lower_expressions extra_indexes))
  | .call function args =>
    lowered_call state (.call function args) function (lower_expressions args) (lower_third args)
  | .getline none none =>
    lowered_number state (.getline none none)
      (lower_runtime_getline_expression state (.getline none none) none none)
  | .getline none (some source) =>
    lowered_number state (.getline none (some source))
      (lower_runtime_getline_expression state (.getline none (some source)) none
        (some (lower_expression source)))
  | .getline (some target) none =>
    lowered_number state (.getline (some target) none)
      (lower_runtime_getline_expression state (.getline (some target) none) (some (lower_lvalue target)) none)
  | .getline (some target) (some source) =>
    lowered_number state (.getline (some target) (some source))
      (lower_runtime_getline_expression state (.getline (some target) (some source))
        (some (lower_lvalue target)) (some (lower_expression source)))
  | .binary left op right =>
    lowered_binary state (.binary left op right) op (lower_expression left) (lower_expression right)
  | .conditional test if_true if_false =>
    lowered_conditional state (.conditional test if_true if_false) (lower_expression test)
      (lower_expression if_true) (lower_expression if_false)
  | .assign target op value =>
    lowered_assignment state (.assign target op value) (lower_lvalue target) op (lower_expression value)
  | .unary op operand =>
    lowered_unary state (.unary op operand) op (lower_expression operand) (lower_increment_operand operand)
  | .postfix_op operand op =>
    lowered_postfix state (.postfix_op operand op) op (lower_increment_operand operand)

def lower_expressions : List Expr → List (Lowered V)
  | [] => []
  | expression :: rest => lower_expression expression :: lower_expressions rest

def lower_lvalue : LValue → LoweredLValue V
  | .name name => .name name
  | .array name subscripts => .array name (lower_runtime_array_subscripts state (lower_expressions subscripts))
  | .field index => .field (lower_runtime_field_index (lower_expression index))

/-- The operand of `++` or `--`. -/
def lower_increment_operand : Expr → Option (LoweredLValue V)
  | .name name => some (.name name)
  | .array_index array_name index extra_indexes =>
    some (.array array_name
      (lower_runtime_array_subscripts state (lower_expression index :: lower_expressions extra_indexes)))
  | .field_at index => some (.field (emit (.integer index) ()))
  | .field index => some (.field (lower_runtime_field_index (lower_expression index)))
  | _ => none

/-- `expression_to_lvalue` of the third argument of `sub` and `gsub`, lowered. -/
def lower_third : List Expr → Option (LoweredLValue V)
  | [_, _, .name name] => some (.name name)
  | [_, _, .array_index array_name index extra_indexes] =>
    some (.array array_name
      (lower_runtime_array_subscripts state (lower_expression index :: lower_expressions extra_indexes)))
  | [_, _, .field_at index] =>
    some (.field do
      let number ← emit (.number (.literal (index_text index))) ()
      emit .fptosi_i64 (number, ()))
  | [_, _, .field index] => some (.field (lower_runtime_field_index (lower_expression index)))
  | _ => none

end

end State

end quawk
