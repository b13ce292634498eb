import Quawk.Builtins

namespace quawk

inductive SemanticErrorCode where
  | DUPLICATE_FUNCTION_DEFINITION | FUNCTION_PARAMETER_CONFLICT | DUPLICATE_PARAMETER_NAME
  | BREAK_OUTSIDE_LOOP | CONTINUE_OUTSIDE_LOOP | NEXT_OUTSIDE_RECORD_ACTION | NEXTFILE_OUTSIDE_RECORD_ACTION
  | ASSIGN_TO_FUNCTION_NAME | RETURN_OUTSIDE_FUNCTION | UNDEFINED_FUNCTION_CALL | INVALID_BUILTIN_CALL
  | INVALID_INCREMENT_TARGET | INVALID_FOR_IN_ITERABLE
  deriving DecidableEq, Repr

structure SemanticError where
  message : String
  code : SemanticErrorCode
  deriving DecidableEq, Repr

abbrev Analysis := Except SemanticError

/-- One check. -/
def require (condition : Bool) (error : SemanticError) : Analysis Unit :=
  if condition then .ok () else .error error

/-- The names of the functions, and the parameters of the function under analysis. -/
structure AnalysisScope where
  functions : List FunctionDef
  params : Option (List Name)

namespace AnalysisScope

variable (scope : AnalysisScope)

def is_function (name : Name) : Bool := scope.functions.any fun definition => definition.name == name

/-- Report whether `name` resolves to the function-local scope. -/
def is_local_name (name : Name) : Bool := scope.params.any fun params => params.contains name

/-- A function name is assigned, where no parameter hides it. -/
def validate_assigned_name (name : Name) : Analysis Unit :=
  require (!(scope.is_function name && !scope.is_local_name name))
    ⟨"cannot assign to function name: " ++ name, .ASSIGN_TO_FUNCTION_NAME⟩

/-- What a builtin expects, as the error for a wrong number of arguments says it. -/
def expected_arguments (name : Name) : String :=
  if ["atan2", "index", "match"].contains name then " expects two arguments"
  else if ["gsub", "split", "sub", "substr"].contains name then " expects two or three arguments"
  else if ["length", "srand"].contains name then " expects zero or one argument"
  else if name = "rand" then " expects zero arguments"
  else if name = "sprintf" then " expects at least a format argument"
  else " expects one argument"

/-- The checks of a call on its function and the number of its arguments. -/
def validate_call (function : Name) (arg_count : Nat) : Analysis Unit :=
  if scope.is_function function then .ok ()
  else if is_builtin_function_name function = false then
    .error ⟨"call to undefined function: " ++ function, .UNDEFINED_FUNCTION_CALL⟩
  else if builtin_accepts_arity function arg_count = false then
    .error ⟨"builtin " ++ function ++ expected_arguments function, .INVALID_BUILTIN_CALL⟩
  else .ok ()

/-- The check of the third argument of `sub` and `gsub`. -/
def validate_substitute_target (function : Name) (args : List Expr) : Analysis Unit :=
  if scope.is_function function = false ∧ (function = "sub" ∨ function = "gsub") ∧ args.length = 3 ∧
      (substitute_target args).isNone then
    .error ⟨"builtin " ++ function ++ " requires an assignable third argument", .INVALID_BUILTIN_CALL⟩
  else .ok ()

/-- Report whether an expression can appear on the left-hand side of assignment-like operators. -/
def is_assignable_expression : Expr → Bool
  | .name _ | .array_index _ _ _ | .field_at _ | .field _ => true
  | _ => false

def validate_increment (operand : Expr) : Analysis Unit :=
  require (is_assignable_expression operand)
    ⟨"increment and decrement require an assignable expression", .INVALID_INCREMENT_TARGET⟩

mutual

/-- Validate one expression tree in the current subset. -/
def validate_expression : Expr → Analysis Unit
  | .binary left _ right => do
    validate_expression left
    validate_expression right
  | .array_index _ index extra_indexes => do
    validate_expression index
    validate_expressions extra_indexes
  | .conditional test if_true if_false => do
    validate_expression test
    validate_expression if_true
    validate_expression if_false
  | .field index => validate_expression index
  | .call function args => do
    scope.validate_call function args.length
    validate_expressions args
    scope.validate_substitute_target function args
  | .getline (some target) (some source) => do
    validate_lvalue target
    validate_expression source
  | .getline (some target) none => validate_lvalue target
  | .getline none (some source) => validate_expression source
  | .getline none none => .ok ()
  | .assign target _ value => do
    validate_lvalue target
    validate_expression value
  | .unary op operand => do
    validate_expression operand
    if op = .pre_inc ∨ op = .pre_dec then validate_increment operand else .ok ()
  | .postfix_op operand _ => do
    validate_expression operand
    validate_increment operand
  | .string_literal _ | .numeric_literal _ | .regex_literal _ | .name _ | .field_at _ => .ok ()

def validate_expressions : List Expr → Analysis Unit
  | [] => .ok ()
  | expression :: rest => do
    validate_expression expression
    validate_expressions rest

/-- Validate an lvalue tree in the current frontend. -/
def validate_lvalue : LValue → Analysis Unit
  | .name name => scope.validate_assigned_name name
  | .array name subscripts => do
    scope.validate_assigned_name name
    validate_expressions subscripts
  | .field index => validate_expression index

end

def validate_option : Option Expr → Analysis Unit
  | some expression => scope.validate_expression expression
  | none => .ok ()

/-- The assigned scalar or array name when present. -/
def validate_statement_name : LValue → Analysis Unit
  | .name name | .array name _ => scope.validate_assigned_name name
  | .field _ => .ok ()

/-- Validate one assignment target and its expressions; the name is checked twice. -/
def validate_assignment_statement (target : LValue) (value : Expr) : Analysis Unit := do
  scope.validate_statement_name target
  scope.validate_lvalue target
  scope.validate_expression value

section Context

variable (inside_function in_record_action : Bool)

mutual

/-- Validate one statement in the current semantic context. -/
def validate_statement : Stmt → Nat → Analysis Unit
  | .assign target _ value, _ => scope.validate_assignment_statement target value
  | .block statements, loop_depth => validate_statements statements loop_depth
  | .break_stmt, loop_depth =>
    require (loop_depth != 0) ⟨"break is only valid inside a loop", .BREAK_OUTSIDE_LOOP⟩
  | .continue_stmt, loop_depth =>
    require (loop_depth != 0) ⟨"continue is only valid inside a loop", .CONTINUE_OUTSIDE_LOOP⟩
  | .next, _ =>
    require in_record_action ⟨"next is only valid in record actions", .NEXT_OUTSIDE_RECORD_ACTION⟩
  | .nextfile, _ =>
    require in_record_action ⟨"nextfile is only valid in record actions", .NEXTFILE_OUTSIDE_RECORD_ACTION⟩
  | .delete target, _ => scope.validate_lvalue target
  | .if_stmt condition then_branch none, loop_depth => do
    scope.validate_expression condition
    validate_statement then_branch loop_depth
  | .if_stmt condition then_branch (some else_branch), loop_depth => do
    scope.validate_expression condition
    validate_statement then_branch loop_depth
    validate_statement else_branch loop_depth
  | .while_stmt condition body, loop_depth => do
    scope.validate_expression condition
    validate_statement body (loop_depth + 1)
  | .do_while body condition, loop_depth => do
    validate_statement body (loop_depth + 1)
    scope.validate_expression condition
  | .for_stmt init condition update body, loop_depth => do
    scope.validate_expressions init
    scope.validate_option condition
    scope.validate_expressions update
    validate_statement body (loop_depth + 1)
  | .for_in name iterable body, loop_depth => do
    scope.validate_assigned_name name
    scope.validate_expression iterable
    require (scalar_name iterable).isSome ⟨"for-in iteration requires an array name", .INVALID_FOR_IN_ITERABLE⟩
    validate_statement body (loop_depth + 1)
  | .print arguments redirect, _ | .printf arguments redirect, _ => do
    scope.validate_expressions arguments
    scope.validate_option (redirect.map OutputRedirect.target)
  | .expr value, _ => scope.validate_expression value
  | .exit value, _ => scope.validate_option value
  | .return_stmt value, _ => do
    require inside_function ⟨"return is only valid inside a function", .RETURN_OUTSIDE_FUNCTION⟩
    scope.validate_option value

def validate_statements : List Stmt → Nat → Analysis Unit
  | [], _ => .ok ()
  | statement :: rest, loop_depth => do
    validate_statement statement loop_depth
    validate_statements rest loop_depth

end

/-- Validate every statement in one action block. -/
def validate_action (action : Action) : Analysis Unit :=
  scope.validate_statements inside_function in_record_action action 0

end Context

/-- Validate one top-level pattern tree. -/
def validate_pattern : Pattern → Analysis Unit
  | .expr test => scope.validate_expression test
  | .range left right => do
    validate_pattern left
    validate_pattern right
  | .begin_pattern | .end_pattern => .ok ()

end AnalysisScope

/-- The parameters of one function, with those seen before. -/
def validate_parameters (function : Name) : List Name → List Name → Analysis Unit
  | [], _ => .ok ()
  | param :: rest, seen_params =>
    if param = function then
      .error ⟨"function parameter conflicts with function name: " ++ param, .FUNCTION_PARAMETER_CONFLICT⟩
    else if param ∈ seen_params then
      .error ⟨"duplicate parameter name in function " ++ function ++ ": " ++ param, .DUPLICATE_PARAMETER_NAME⟩
    else validate_parameters function rest (param :: seen_params)

/-- Validate one function signature for duplicate or conflicting names. -/
def validate_function_definition (definition : FunctionDef) : Analysis Unit :=
  validate_parameters definition.name definition.params []

/-- The functions of a program, in the order of their definitions. -/
def collect_functions : List Item → List FunctionDef → Analysis (List FunctionDef)
  | [], functions => .ok functions
  | .function definition :: rest, functions =>
    if functions.any fun other => other.name == definition.name then
      .error ⟨"duplicate function definition: " ++ definition.name, .DUPLICATE_FUNCTION_DEFINITION⟩
    else do
      validate_function_definition definition
      collect_functions rest (functions ++ [definition])
  | .pattern_action _ _ :: rest, functions => collect_functions rest functions

/-- Report whether one top-level action executes in record-processing context. -/
def is_record_action : Pattern → Bool
  | .expr _ | .range _ _ => true
  | .begin_pattern | .end_pattern => false

/-- A rule without an action is passed over, its pattern included. -/
def validate_item (functions : List FunctionDef) : Item → Analysis Unit
  | .function definition =>
    AnalysisScope.validate_action ⟨functions, some definition.params⟩ true false definition.body
  | .pattern_action none (some action) => AnalysisScope.validate_action ⟨functions, none⟩ false true action
  | .pattern_action (some pattern) (some action) => do
    AnalysisScope.validate_pattern ⟨functions, none⟩ pattern
    AnalysisScope.validate_action ⟨functions, none⟩ false (is_record_action pattern) action
  | .pattern_action _ none => .ok ()

def validate_items (functions : List FunctionDef) : List Item → Analysis Unit
  | [] => .ok ()
  | item :: rest => do
    validate_item functions item
    validate_items functions rest

/-- Build function symbols and validate scope-sensitive constructs. -/
def analyze (program : Program) : Analysis (List FunctionDef) := do
  let functions ← collect_functions program.items []
  validate_items functions program.items
  pure functions

end quawk
