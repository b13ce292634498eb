import Mathlib.Data.Finset.Basic
import Quawk.Builtins
import Quawk.Normalization
import Quawk.TypeInference

namespace quawk

/-- The first of the ten digits of each decimal digit range of Unicode. -/
def decimal_digit_starts : List Nat :=
  [0x30, 0x660, 0x6f0, 0x7c0, 0x966, 0x9e6, 0xa66, 0xae6, 0xb66, 0xbe6, 0xc66, 0xce6, 0xd66, 0xde6,
    0xe50, 0xed0, 0xf20, 0x1040, 0x1090, 0x17e0, 0x1810, 0x1946, 0x19d0, 0x1a80, 0x1a90, 0x1b50,
    0x1bb0, 0x1c40, 0x1c50, 0xa620, 0xa8d0, 0xa900, 0xa9d0, 0xa9f0, 0xaa50, 0xabf0, 0xff10, 0x104a0,
    0x10d30, 0x10d40, 0x11066, 0x110f0, 0x11136, 0x111d0, 0x112f0, 0x11450, 0x114d0, 0x11650, 0x116c0,
    0x116d0, 0x116da, 0x11730, 0x118e0, 0x11950, 0x11bf0, 0x11c50, 0x11d50, 0x11da0, 0x11f50, 0x16130,
    0x16a60, 0x16ac0, 0x16b50, 0x16d70, 0x1ccf0, 0x1d7ce, 0x1d7d8, 0x1d7e2, 0x1d7ec, 0x1d7f6, 0x1e140,
    0x1e2f0, 0x1e4f0, 0x1e5f1, 0x1e950, 0x1fbf0]

/-- The characters `\d` matches. -/
def is_decimal_digit (char : Char) : Bool :=
  decimal_digit_starts.any fun start => start ≤ char.toNat && char.toNat < start + 10

/-- The characters `[ \t\r\n\f\v]` matches. -/
def is_numeric_space (char : Char) : Bool :=
  [' ', '\t', '\r', '\n', Char.ofNat 12, Char.ofNat 11].contains char

def skip_sign : Text → Text
  | '+' :: rest | '-' :: rest => rest
  | text => text

/-- What is left after the digits of a number, with its fraction. -/
def skip_mantissa (text : Text) : Option Text :=
  match text.span is_decimal_digit with
  | ([], '.' :: rest) =>
    match rest.span is_decimal_digit with
    | ([], _) => none
    | (_, rest) => some rest
  | ([], _) => none
  | (_, '.' :: rest) => some (rest.dropWhile is_decimal_digit)
  | (_, rest) => some rest

/-- What is left after the exponent of a number, when there is one. -/
def skip_exponent (text : Text) : Text :=
  match text with
  | 'e' :: rest | 'E' :: rest =>
    match (skip_sign rest).span is_decimal_digit with
    | ([], _) => text
    | (_, rest) => rest
  | _ => text

/-- Report whether one string is fully numeric under AWK comparison rules. -/
def awk_string_is_numeric (text : Text) : Bool :=
  match skip_mantissa (skip_sign (text.dropWhile is_numeric_space)) with
  | some rest => (skip_exponent rest).all is_numeric_space
  | none => false

/-- The part of the lowering state that its decisions depend on. -/
structure LoweringState where
  variable_indexes : VariableIndexes
  slot_allocation : SlotAllocation
  type_info : VariableTypes
  array_names : List Name
  function_defs : List FunctionDef
  local_numeric_names : Finset Name
  function_param_strings : List (Name × Nat)
  loop_string_bindings : List Name

namespace LoweringState

variable (state : LoweringState)

def is_loop_string_binding (name : Name) : Bool := state.loop_string_bindings.contains name

/-- The slot of a parameter; of two parameters with one name the later one has it. -/
def param_slot (name : Name) : Option Nat :=
  (state.function_param_strings.reverse.find? fun param => param.1 == name).map Prod.snd

def is_function_param_string (name : Name) : Bool := (state.param_slot name).isSome

def function_def (name : Name) : Option FunctionDef :=
  state.function_defs.find? fun definition => definition.name == name

def is_user_function (name : Name) : Bool := (state.function_def name).isSome

end LoweringState

section Names

variable (state : LoweringState)

/-- Return the runtime numeric-slot index for one known scalar variable name. -/
def runtime_name_slot_index (name : Name) : Option Nat :=
  if is_builtin_variable_name name ∨ state.is_loop_string_binding name ∨
      state.is_function_param_string name ∨ is_reusable_runtime_state_name name then none
  else match state.slot_allocation.get_slot name with
    | some slot => if slot.storage = .slot then some slot.index else none
    | none => none

def runtime_name_uses_scalar_runtime (name : Name) : Bool :=
  !(["NR", "FNR", "NF", "FILENAME"].contains name) && !state.is_loop_string_binding name &&
    !state.is_function_param_string name && !is_reusable_runtime_state_name name

def runtime_name_is_inferred_numeric (name : Name) : Bool := state.type_info name = .numeric

def runtime_name_is_inferred_string (name : Name) : Bool := state.type_info name = .string

def runtime_name_uses_numeric_slot_state (name : Name) : Bool :=
  runtime_name_uses_scalar_runtime state name && runtime_name_is_inferred_numeric state name &&
    (runtime_name_slot_index state name).isSome

def runtime_name_uses_local_numeric_storage (name : Name) : Bool :=
  decide (name ∈ state.local_numeric_names) && runtime_name_uses_scalar_runtime state name &&
    runtime_name_is_inferred_numeric state name

def runtime_name_uses_string_slot_runtime (name : Name) : Bool :=
  runtime_name_uses_scalar_runtime state name && runtime_name_is_inferred_string state name &&
    (runtime_name_slot_index state name).isSome

def runtime_name_uses_slot_cached_runtime (name : Name) : Bool :=
  runtime_name_uses_scalar_runtime state name && (runtime_name_slot_index state name).isSome &&
    [.string, .mixed].contains (state.type_info name) &&
    !runtime_name_uses_numeric_slot_state state name && !runtime_name_uses_local_numeric_storage state name

def runtime_name_uses_only_scalar_runtime (name : Name) : Bool :=
  runtime_name_uses_scalar_runtime state name && !runtime_name_uses_numeric_slot_state state name &&
    !runtime_name_uses_string_slot_runtime state name

end Names

section Expressions

variable (state : LoweringState)

def STRING_BUILTINS : List Name := ["sprintf", "substr", "tolower", "toupper"]

/-- Report whether a scalar assignment should keep the runtime string view. -/
def runtime_assignment_preserves_string : Expr → Bool
  | .name name =>
    name == "FILENAME" || state.is_loop_string_binding name || state.is_function_param_string name ||
      runtime_name_uses_only_scalar_runtime state name || runtime_name_uses_string_slot_runtime state name
  | .string_literal _ | .field_at _ | .field _ | .array_index _ _ _ => true
  | .call function _ => state.is_user_function function || STRING_BUILTINS.contains function
  | .binary _ op _ => op == .concat
  | .assign _ _ value => runtime_assignment_preserves_string value
  | _ => false

/-- Report whether one runtime-backed expression has string truthiness semantics. -/
def runtime_expression_is_known_string : Expr → Bool
  | .name name =>
    name == "FILENAME" || state.is_loop_string_binding name || state.is_function_param_string name ||
      runtime_name_is_inferred_string state name
  | .string_literal _ | .field_at _ | .field _ | .array_index _ _ _ => true
  | .call function _ => state.is_user_function function || STRING_BUILTINS.contains function
  | .binary _ op _ => op == .concat
  | .assign _ _ value => runtime_assignment_preserves_string state value
  | _ => false

/-- Report whether one runtime-backed expression lowers as a string result. -/
def runtime_expression_has_string_result : Expr → Bool
  | .string_literal _ | .field_at _ | .field _ | .array_index _ _ _ => true
  | .name name =>
    name == "FILENAME" || state.is_loop_string_binding name || state.is_function_param_string name ||
      runtime_name_uses_only_scalar_runtime state name || runtime_name_uses_string_slot_runtime state name
  | .call function _ => state.is_user_function function || STRING_BUILTINS.contains function
  | .binary _ op _ => op == .concat
  | .assign _ _ value => runtime_assignment_preserves_string state value
  | .conditional _ if_true if_false =>
    runtime_expression_has_string_result if_true && runtime_expression_has_string_result if_false
  | _ => false

def NUMERIC_BUILTINS : List Name :=
  ["int", "length", "rand", "srand", "atan2", "cos", "exp", "log", "match", "sin", "sqrt", "split", "sub",
    "gsub", "system"]

/-- The operands whose `++` and `--` give a number. -/
def is_increment_operand : Expr → Bool
  | .name _ | .field_at _ | .field _ | .array_index _ _ [] => true
  | _ => false

mutual

/-- Report whether one runtime expression is known numeric without string semantics. -/
def runtime_expression_is_definitely_numeric : Expr → Bool
  | .numeric_literal _ => true
  | .string_literal value => awk_string_is_numeric value
  | .name name =>
    ["NR", "FNR", "NF"].contains name || is_reusable_runtime_state_name name ||
      (runtime_name_is_inferred_numeric state name && runtime_name_uses_scalar_runtime state name)
  | .assign (.name name) _ value =>
    is_reusable_runtime_state_name name && runtime_expression_is_definitely_numeric value
  | .unary op operand =>
    if op = .pre_inc ∨ op = .pre_dec then is_increment_operand operand
    else runtime_expression_is_definitely_numeric operand
  | .postfix_op operand _ => is_increment_operand operand
  | .binary left op right =>
    is_arithmetic op && runtime_expression_is_definitely_numeric left &&
      runtime_expression_is_definitely_numeric right
  | .call function args =>
    NUMERIC_BUILTINS.contains function && runtime_expressions_are_definitely_numeric args
  | _ => false

def runtime_expressions_are_definitely_numeric : List Expr → Bool
  | [] => true
  | expression :: rest =>
    runtime_expression_is_definitely_numeric expression && runtime_expressions_are_definitely_numeric rest

end

/-- Report whether one expression should force AWK string-comparison semantics. -/
def expression_forces_string_comparison : Expr → Bool
  | .string_literal value => !awk_string_is_numeric value
  | .regex_literal _ => true
  | .name name => name == "FILENAME"
  | .call function _ => STRING_BUILTINS.contains function
  | .binary _ op _ => op == .concat
  | _ => false

def SIDE_EFFECT_BUILTINS : List Name :=
  ["split", "sub", "gsub", "close", "match", "rand", "srand", "system"]

mutual

/-- Report whether lowering one expression may mutate runtime-visible state. -/
def runtime_expression_has_side_effects : Expr → Bool
  | .assign _ _ _ => true
  | .unary op operand =>
    op == .pre_inc || op == .pre_dec || runtime_expression_has_side_effects operand
  | .postfix_op _ _ => true
  | .call function _ => SIDE_EFFECT_BUILTINS.contains function || state.is_user_function function
  | .binary left _ right =>
    runtime_expression_has_side_effects left || runtime_expression_has_side_effects right
  | .conditional test if_true if_false =>
    runtime_expression_has_side_effects test || runtime_expression_has_side_effects if_true ||
      runtime_expression_has_side_effects if_false
  | .array_index _ index extra_indexes =>
    runtime_expression_has_side_effects index || runtime_expressions_have_side_effects extra_indexes
  | .field index => runtime_expression_has_side_effects index
  | _ => false

def runtime_expressions_have_side_effects : List Expr → Bool
  | [] => false
  | expression :: rest =>
    runtime_expression_has_side_effects expression || runtime_expressions_have_side_effects rest

end

end Expressions

end quawk
