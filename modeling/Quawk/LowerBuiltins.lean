import Quawk.LowerLvalue

open StructuredCode.Code (emit)

namespace quawk

variable {V : Ty → Type}

/-- Decode one AWK regex literal body to the runtime regex text. -/
def decode_regex_body : Text → Text
  | [] => []
  | ['\\'] => ['\\']
  | '\\' :: escaped :: rest =>
    (if escaped = '\\' ∨ escaped = '/' then [escaped]
      else if escaped = 'n' then ['\n']
      else if escaped = 't' then ['\t']
      else ['\\', escaped]) ++ decode_regex_body rest
  | char :: rest => char :: decode_regex_body rest

def decode_regex_literal (raw_text : Text) : Text := decode_regex_body (raw_text.drop 1).dropLast

/-- Lower one regex-oriented builtin pattern argument to a runtime string pointer. -/
def lower_runtime_regex_pattern (expression : Lowered V) : Code V (V .ptr) :=
  match expression.expression with
  | .regex_literal raw_text => lower_runtime_constant_string (decode_regex_literal raw_text)
  | _ => lower_runtime_captured_string_expression expression

def lower_runtime_unary_numeric_builtin (args : List (Lowered V)) (runtime_function : Op [.double] .double)
    (builtin_name : Name) : Code V (V .double) :=
  match args with
  | [argument] => do
    let operand ← argument.numeric
    emit runtime_function (operand, ())
  | _ => raise ("builtin " ++ builtin_name ++ " expects one argument")

def lower_runtime_binary_numeric_builtin (args : List (Lowered V))
    (runtime_function : Op [.double, .double] .double) (builtin_name : Name) : Code V (V .double) :=
  match args with
  | [first, second] => do
    let left ← first.numeric
    let right ← second.numeric
    emit runtime_function (left, right, ())
  | _ => raise ("builtin " ++ builtin_name ++ " expects two arguments")

section State

variable (state : LoweringState)

def string_length (string_value : V .ptr) : Code V (V .double) := do
  let size_value ← emit .strlen (string_value, ())
  emit .uitofp_i64 (size_value, ())

def lower_runtime_length_builtin (args : List (Lowered V)) : Code V (V .double) :=
  match args with
  | [] => do
    let zero ← emit (.integer 0) ()
    let field_ptr ← emit .qk_get_field_inline (zero, ())
    string_length field_ptr
  | [argument] =>
    match argument.expression with
    | .name name =>
      if name ∈ state.array_names then do
        let array_name_ptr ← lower_runtime_constant_string name.toList
        emit .qk_array_length (array_name_ptr, ())
      else do
        let string_value ← argument.string
        string_length string_value
    | _ => do
      let string_value ← argument.string
      string_length string_value
  | _ => raise "builtin length expects zero or one argument"

def lower_runtime_split_builtin (args : List (Lowered V)) : Code V (V .double) :=
  match args with
  | text :: target :: separators =>
    if 1 < separators.length then raise "builtin split expects two or three arguments"
    else match target.expression with
      | .name array_name => do
        let text_ptr ← text.string
        let array_name_ptr ← lower_runtime_constant_string array_name.toList
        let separator_ptr ← match separators with
          | separator :: _ => separator.string
          | [] => emit .null_ptr ()
        emit .qk_split_into_array (text_ptr, array_name_ptr, separator_ptr, ())
      | _ => raise "builtin split requires a named array target in the runtime-backed backend"
  | _ => raise "builtin split expects two or three arguments"

def lower_runtime_close_builtin (args : List (Lowered V)) : Code V (V .double) :=
  match args with
  | [target] => do
    let target_ptr ← target.string
    emit .qk_close_output (target_ptr, ())
  | _ => raise "builtin close expects one argument"

def lower_runtime_substr_builtin (args : List (Lowered V)) : Code V (V .ptr) :=
  match args with
  | [text, start] => do
    let text_ptr ← text.string
    let start_numeric ← start.numeric
    let start_value ← emit .fptosi_i64 (start_numeric, ())
    emit .qk_substr2 (text_ptr, start_value, ())
  | [text, start, length] => do
    let text_ptr ← text.string
    let start_numeric ← start.numeric
    let start_value ← emit .fptosi_i64 (start_numeric, ())
    let length_numeric ← length.numeric
    let length_value ← emit .fptosi_i64 (length_numeric, ())
    emit .qk_substr3 (text_ptr, start_value, length_value, ())
  | _ => raise "builtin substr expects two or three arguments"

def lower_runtime_index_builtin (args : List (Lowered V)) : Code V (V .double) :=
  match args with
  | [text, search] => do
    let text_ptr ← lower_runtime_captured_string_expression text
    let search_ptr ← lower_runtime_captured_string_expression search
    emit .qk_index (text_ptr, search_ptr, ())
  | _ => raise "builtin index expects two arguments"

def lower_runtime_match_builtin (args : List (Lowered V)) : Code V (V .double) :=
  match args with
  | [text, pattern] => do
    let text_ptr ← lower_runtime_captured_string_expression text
    let pattern_ptr ← lower_runtime_regex_pattern pattern
    emit .qk_match (text_ptr, pattern_ptr, ())
  | _ => raise "builtin match expects two arguments"

def lower_runtime_rand_builtin (expression : Expr) (args : List (Lowered V)) : Code V (V .double) :=
  match args with
  | [] => do
    performs expression
    emit .qk_rand ()
  | _ => raise "builtin rand expects zero arguments"

def lower_runtime_srand_builtin (args : List (Lowered V)) : Code V (V .double) :=
  match args with
  | [] => emit .qk_srand0 ()
  | [argument] => do
    let seed ← argument.numeric
    emit .qk_srand1 (seed, ())
  | _ => raise "builtin srand expects zero or one argument"

def lower_runtime_system_builtin (expression : Expr) (args : List (Lowered V)) : Code V (V .double) :=
  match args with
  | [argument] => do
    let command ← lower_runtime_captured_string_expression argument
    performs expression
    emit .qk_system (command, ())
  | _ => raise "builtin system expects one argument"

/-- The replacement text of `sub` and `gsub`; a literal one is not captured. -/
def lower_runtime_replacement (replacement : Lowered V) : Code V (V .ptr) :=
  match replacement.expression with
  | .string_literal _ => replacement.string
  | _ => lower_runtime_captured_string_expression replacement

/-- The substitution itself, once its operands are lowered. -/
def lower_runtime_substitution (expression : Expr) (global_replace : Bool)
    (pattern_ptr replacement_ptr target_value : V .ptr) (target_lvalue : LoweredLValue V) :
    Code V (V .double) := do
  let result_slot ← emit .result_slot ()
  let count_value ← emit (.qk_substitute global_replace)
    (pattern_ptr, replacement_ptr, target_value, result_slot, ())
  let result_ptr ← emit .load_slot (result_slot, ())
  let captured_result ← capture_string result_ptr
  performs expression
  lower_runtime_assign_string_lvalue state target_lvalue captured_result
  pure count_value

/-- Lower one `sub` or `gsub` builtin call; `target_lvalue` is the third argument as an lvalue. -/
def lower_runtime_substitute_builtin (expression : Expr) (args : List (Lowered V))
    (target_lvalue : Option (LoweredLValue V)) (global_replace : Bool) : Code V (V .double) :=
  let builtin_name := if global_replace then "gsub" else "sub"
  match args with
  | [pattern, replacement] => do
    let pattern_ptr ← lower_runtime_regex_pattern pattern
    let replacement_ptr ← lower_runtime_replacement replacement
    let zero ← emit (.integer 0) ()
    let target_value ← emit .qk_get_field_inline (zero, ())
    lower_runtime_substitution state expression global_replace pattern_ptr replacement_ptr target_value
      (.field do
        let index ← emit (.number (.literal (index_text 0))) ()
        emit .fptosi_i64 (index, ()))
  | [pattern, replacement, target] => do
    let pattern_ptr ← lower_runtime_regex_pattern pattern
    let replacement_ptr ← lower_runtime_replacement replacement
    match target_lvalue with
    | none => raise ("builtin " ++ builtin_name ++ " requires an assignable third argument")
    | some target_lvalue =>
      let target_value ← lower_runtime_captured_string_expression target
      lower_runtime_substitution state expression global_replace pattern_ptr replacement_ptr target_value
        target_lvalue
  | _ => raise ("builtin " ++ builtin_name ++ " expects two or three arguments")

def lower_runtime_case_builtin (args : List (Lowered V)) (upper : Bool) : Code V (V .ptr) :=
  match args with
  | [argument] => do
    let text_ptr ← lower_runtime_captured_string_expression argument
    if upper then emit .qk_toupper (text_ptr, ()) else emit .qk_tolower (text_ptr, ())
  | _ => raise ("builtin " ++ (if upper then "toupper" else "tolower") ++ " expects one argument")

/-- The numeric view of a `sprintf` or dynamic `printf` argument whose string view is lowered
already; what cannot be lowered as a number is read back from the string. -/
def lower_runtime_argument_number (argument : Lowered V) (string_value : V .ptr) : Code V (V .double) :=
  .attempt argument.numeric
    (fun message =>
      if runtime_expression_has_string_result state argument.expression then
        emit .qk_parse_number_text (string_value, ())
      else raise message)
    .done

/-- Lower the arguments of a format to both views and store them for the runtime. -/
def lower_runtime_format_arguments (count : Nat) (arrays : V .arrays) (index : Nat) :
    List (Lowered V) → Code V Unit
  | [] => pure ()
  | argument :: rest => do
    let string_value ← lower_runtime_captured_string_expression argument
    let numeric_value ← lower_runtime_argument_number state argument string_value
    emit_void (.store_argument count index) (arrays, numeric_value, string_value, ())
    lower_runtime_format_arguments count arrays (index + 1) rest

/-- The call of `qk_sprintf`, once the format is lowered. -/
def lower_runtime_formatted (format_ptr : V .ptr) (arguments : List (Lowered V)) : Code V (V .ptr) :=
  match arguments with
  | [] => emit .qk_sprintf_plain (format_ptr, ())
  | _ => do
    let arrays ← emit (.argument_arrays arguments.length) ()
    lower_runtime_format_arguments state arguments.length arrays 0 arguments
    emit (.qk_sprintf arguments.length) (format_ptr, arrays, ())

def lower_runtime_sprintf_builtin (args : List (Lowered V)) : Code V (V .ptr) :=
  match args with
  | [] => raise "builtin sprintf expects at least a format argument"
  | format :: arguments => do
    let format_ptr ← lower_runtime_captured_string_expression format
    lower_runtime_formatted state format_ptr arguments

/-- The operands of a call of a user function. -/
def operands_of_list : (operands : List (V .ptr)) →
    StructuredCode.Operands V (List.replicate operands.length .ptr)
  | [] => ()
  | operand :: rest => (operand, operands_of_list rest)

def lower_runtime_argument_strings : List (Lowered V) → Code V (List (V .ptr))
  | [] => pure []
  | argument :: rest => do
    let argument_ptr ← lower_runtime_argument_string state argument
    let rest_ptrs ← lower_runtime_argument_strings rest
    pure (argument_ptr :: rest_ptrs)

/-- An argument that is not given is the empty string. -/
def lower_runtime_missing_arguments : Nat → Code V (List (V .ptr))
  | 0 => pure []
  | missing + 1 => do
    let argument_ptr ← lower_runtime_constant_string []
    let rest_ptrs ← lower_runtime_missing_arguments missing
    pure (argument_ptr :: rest_ptrs)

/-- Lower one runtime-backed user-defined function call to a string result pointer. -/
def lower_runtime_user_function_call (expression : Expr) (function_name : Name) (args : List (Lowered V)) :
    Code V (V .ptr) :=
  match state.function_def function_name with
  | none => raise ("unsupported function call in runtime-backed backend: " ++ function_name)
  | some function_def =>
    if function_def.params.length < args.length then
      raise ("function " ++ function_name ++ " expects at most " ++ toString function_def.params.length ++
        " arguments, got " ++ toString args.length)
    else do
      let arguments ← lower_runtime_argument_strings state args
      let missing ← lower_runtime_missing_arguments (function_def.params.length - args.length)
      performs expression
      emit (.qk_fn function_name (arguments ++ missing).length) (operands_of_list (arguments ++ missing))

end State

end quawk
