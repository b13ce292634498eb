import Quawk.Ast
import Quawk.Lib.ChangeStep

namespace quawk

/-- The type lattice: `unknown` is the bottom, `mixed` the top. -/
inductive LatticeType where
  | unknown | numeric | string | mixed
  deriving DecidableEq, Repr

/-- The least upper bound of two lattice types. -/
def join (left right : LatticeType) : LatticeType :=
  if left = right then left
  else if left = .unknown then right
  else if right = .unknown then left
  else .mixed

/-- The map `variable_types` read with its default: an absent name is `unknown`. -/
abbrev VariableTypes := Name → LatticeType

def is_arithmetic : BinaryOp → Bool
  | .add | .sub | .mul | .div | .mod | .pow => true
  | _ => false

def NUMERIC_RESULT_FUNCTIONS : List Name :=
  ["index", "int", "length", "match", "split", "sub", "gsub", "system"]

def STRING_RESULT_FUNCTIONS : List Name :=
  ["sprintf", "substr", "tolower", "toupper"]

/-- Infer the lattice type for one expression under the current variable types. -/
def infer_expression_type (env : VariableTypes) : Expr → LatticeType
  | .numeric_literal _ => .numeric
  | .string_literal _ | .regex_literal _ => .string
  | .name name => env name
  | .field_at _ | .field _ => .mixed
  | .array_index _ _ _ => .unknown
  | .getline _ _ => .numeric
  | .unary _ operand =>
    if infer_expression_type env operand = .string then .mixed else .numeric
  | .postfix_op _ _ => .numeric
  | .conditional _ if_true if_false =>
    join (infer_expression_type env if_true) (infer_expression_type env if_false)
  | .assign _ .plain value => infer_expression_type env value
  | .assign _ _ _ => .numeric
  | .binary left op right =>
    if is_arithmetic op then
      if infer_expression_type env left = .string ∨ infer_expression_type env right = .string then .mixed
      else .numeric
    else if op = .concat then .string
    else .numeric
  | .call function _ =>
    if function ∈ NUMERIC_RESULT_FUNCTIONS then .numeric
    else if function ∈ STRING_RESULT_FUNCTIONS then .string
    else .unknown

/-- One visit of the pass: whether it changed a type, and the types after it. -/
abbrev Visit := ChangeStep VariableTypes

def max_fixpoint_iterations : Nat := 8

def note_assignment (name : Name) (assigned : VariableTypes → LatticeType) (local_names : List Name) :
    Visit := fun types =>
  if name ∈ local_names then (false, types)
  else
    let previous := types name
    let updated := join previous (assigned types)
    if updated = previous then (false, types) else (true, Function.update types name updated)

/-- The type an assignment gives its target. -/
def assigned_type (op : AssignOp) (value : Expr) (types : VariableTypes) : LatticeType :=
  if op = .plain then infer_expression_type types value else .numeric

def note_lvalue (assigned : VariableTypes → LatticeType) (local_names : List Name) : LValue → Visit
  | .name name => note_assignment name assigned local_names
  | _ => ChangeStep.skip

/-- The third argument of `sub` and `gsub` is given a string. -/
def note_substitute_target (function : Name) (args : List Expr) (local_names : List Name) : Visit :=
  if function = "sub" ∨ function = "gsub" then
    match substitute_target args with
    | some lvalue => note_lvalue (fun _ => .string) local_names lvalue
    | none => ChangeStep.skip
  else ChangeStep.skip

mutual

def visit_expression (local_names : List Name) : Expr → Visit
  | .assign target op value =>
    ((visit_expression local_names value).seq (visit_lvalue_indexes local_names target)).seq
      (note_lvalue (assigned_type op value) local_names target)
  | .binary left _ right =>
    (visit_expression local_names left).seq (visit_expression local_names right)
  | .conditional test if_true if_false =>
    ((visit_expression local_names test).seq (visit_expression local_names if_true)).seq
      (visit_expression local_names if_false)
  | .unary _ operand => visit_expression local_names operand
  | .postfix_op operand _ => visit_expression local_names operand
  | .call function args =>
    (visit_expressions local_names args).seq (note_substitute_target function args local_names)
  | .array_index _ index extra_indexes =>
    (visit_expression local_names index).seq (visit_expressions local_names extra_indexes)
  | .field index => visit_expression local_names index
  | .getline (some target) (some source) =>
    ((visit_expression local_names source).seq (visit_lvalue_indexes local_names target)).seq
      (note_lvalue (fun _ => .string) local_names target)
  | .getline (some target) none =>
    (visit_lvalue_indexes local_names target).seq
      (note_lvalue (fun _ => .string) local_names target)
  | .getline none (some source) => visit_expression local_names source
  | _ => ChangeStep.skip

def visit_expressions (local_names : List Name) : List Expr → Visit
  | [] => ChangeStep.skip
  | expression :: rest =>
    (visit_expression local_names expression).seq (visit_expressions local_names rest)

def visit_lvalue_indexes (local_names : List Name) : LValue → Visit
  | .name _ => ChangeStep.skip
  | .array _ subscripts => visit_expressions local_names subscripts
  | .field index => visit_expression local_names index

end

def visit_option (local_names : List Name) : Option Expr → Visit
  | some expression => visit_expression local_names expression
  | none => ChangeStep.skip

/-- `any(visit_expression(update) for update in updates)`. -/
def visit_any (local_names : List Name) : List Expr → Visit
  | [] => ChangeStep.skip
  | expression :: rest =>
    (visit_expression local_names expression).or_else (visit_any local_names rest)

mutual

def visit_statement : Stmt → List Name → Visit
  | .assign target op value, local_names =>
    ((visit_expression local_names value).seq (visit_lvalue_indexes local_names target)).seq
      (note_lvalue (assigned_type op value) local_names target)
  | .expr value, local_names => visit_expression local_names value
  | .print arguments redirect, local_names | .printf arguments redirect, local_names =>
    (visit_expressions local_names arguments).seq
      (visit_option local_names (redirect.map OutputRedirect.target))
  | .block statements, local_names => visit_statements statements local_names
  | .if_stmt condition then_branch none, local_names =>
    (visit_expression local_names condition).seq (visit_statement then_branch local_names)
  | .if_stmt condition then_branch (some else_branch), local_names =>
    ((visit_expression local_names condition).seq (visit_statement then_branch local_names)).seq
      (visit_statement else_branch local_names)
  | .while_stmt condition body, local_names =>
    (visit_expression local_names condition).seq
      (((visit_statement body local_names).or_else (visit_expression local_names condition)).converge
        max_fixpoint_iterations)
  | .do_while body condition, local_names =>
    ((visit_statement body local_names).or_else (visit_expression local_names condition)).converge
      max_fixpoint_iterations
  | .for_stmt init condition update body, local_names =>
    ((visit_expressions local_names init).seq (visit_option local_names condition)).seq
      ((((visit_statement body local_names).or_else (visit_any local_names update)).or_else
          (visit_option local_names condition)).converge max_fixpoint_iterations)
  | .for_in name iterable body, local_names =>
    ((visit_expression local_names iterable).seq
        (note_assignment name (fun _ => .string) local_names)).seq
      ((visit_statement body (name :: local_names)).converge max_fixpoint_iterations)
  | .delete target, local_names => visit_lvalue_indexes local_names target
  | .return_stmt value, local_names => visit_option local_names value
  | _, _ => ChangeStep.skip

def visit_statements : List Stmt → List Name → Visit
  | [], _ => ChangeStep.skip
  | statement :: rest, local_names =>
    (visit_statement statement local_names).seq (visit_statements rest local_names)

end

def visit_pattern : Pattern → Visit
  | .expr test => visit_expression [] test
  | .range left right => (visit_pattern left).seq (visit_pattern right)
  | _ => ChangeStep.skip

def visit_item : Item → Visit
  | .function definition => visit_statements definition.body definition.params
  | .pattern_action pattern action =>
    (match pattern with
      | some pattern => visit_pattern pattern
      | none => ChangeStep.skip).seq
      (match action with
      | some action => visit_statements action []
      | none => ChangeStep.skip)

def visit_items : List Item → Visit
  | [] => ChangeStep.skip
  | item :: rest => (visit_item item).seq (visit_items rest)

/-- Infer variable lattice types by propagating assignment effects across one
program. -/
def infer_variable_types (program : Program) : VariableTypes :=
  (visit_items program.items (fun _ => .unknown)).2

end quawk
