import Mathlib.Data.List.Basic

namespace quawk

/-- An identifier of the source program, or a lowering-only state name. -/
abbrev Name := String

/-- The characters of a literal, a regex or a runtime string. -/
abbrev Text := List Char

inductive AssignOp where
  | plain | add | sub | mul | div | mod | pow
  deriving DecidableEq, Repr

inductive BinaryOp where
  | add | sub | mul | div | mod | pow
  | less | less_equal | greater | greater_equal | equal | not_equal
  | logical_and | logical_or | match_op | not_match | in_op | concat
  deriving DecidableEq, Repr

inductive UnaryOp where
  | uplus | uminus | not | pre_inc | pre_dec
  deriving DecidableEq, Repr

inductive PostfixOp where
  | post_inc | post_dec
  deriving DecidableEq, Repr

inductive OutputRedirectKind where
  | write | append | pipe
  deriving DecidableEq, Repr

mutual

/-- Expressions. A numeric literal is kept as its token text, whose `float` is
the source's `value`; `field_at` is `FieldExpr` with a literal integer index.
Spans are left out: no modelled function reads them. -/
inductive Expr where
  | string_literal (value : Text)
  | numeric_literal (raw_text : Text)
  | regex_literal (raw_text : Text)
  | name (name : Name)
  | field_at (index : Nat)
  | field (index : Expr)
  | call (function : Name) (args : List Expr)
  | array_index (array_name : Name) (index : Expr) (extra_indexes : List Expr)
  | getline (target : Option LValue) (source : Option Expr)
  | binary (left : Expr) (op : BinaryOp) (right : Expr)
  | conditional (test if_true if_false : Expr)
  | assign (target : LValue) (op : AssignOp) (value : Expr)
  | unary (op : UnaryOp) (operand : Expr)
  | postfix_op (operand : Expr) (op : PostfixOp)

inductive LValue where
  | name (name : Name)
  | array (name : Name) (subscripts : List Expr)
  | field (index : Expr)

end

structure OutputRedirect where
  kind : OutputRedirectKind
  target : Expr

inductive Stmt where
  | print (arguments : List Expr) (redirect : Option OutputRedirect)
  | printf (arguments : List Expr) (redirect : Option OutputRedirect)
  | assign (target : LValue) (op : AssignOp) (value : Expr)
  | block (statements : List Stmt)
  | break_stmt
  | continue_stmt
  | next
  | nextfile
  | exit (value : Option Expr)
  | delete (target : LValue)
  | if_stmt (condition : Expr) (then_branch : Stmt) (else_branch : Option Stmt)
  | while_stmt (condition : Expr) (body : Stmt)
  | do_while (body : Stmt) (condition : Expr)
  | for_stmt (init : List Expr) (condition : Option Expr) (update : List Expr) (body : Stmt)
  | for_in (name : Name) (iterable : Expr) (body : Stmt)
  | expr (value : Expr)
  | return_stmt (value : Option Expr)

/-- An action is its list of statements. -/
abbrev Action := List Stmt

inductive Pattern where
  | begin_pattern
  | end_pattern
  | expr (test : Expr)
  | range (left right : Pattern)

structure FunctionDef where
  name : Name
  params : List Name
  body : Action

inductive Item where
  | function (definition : FunctionDef)
  | pattern_action (pattern : Option Pattern) (action : Option Action)

structure Program where
  items : List Item

/-- Decimal digits of a field index, as Python's `str` prints an `int`. -/
def index_text (index : Nat) : Text :=
  (toString index).toList

def expression_to_lvalue : Expr → Option LValue
  | .name name => some (.name name)
  | .array_index array_name index extra_indexes => some (.array array_name (index :: extra_indexes))
  | .field_at index => some (.field (.numeric_literal (index_text index)))
  | .field index => some (.field index)
  | _ => none

def scalar_name : Expr → Option Name
  | .name name => some name
  | _ => none

/-- The scalar a prefix operator assigns. -/
def prefix_scalar (op : UnaryOp) (operand : Expr) : Option Name :=
  if op = .pre_inc ∨ op = .pre_dec then scalar_name operand else none

/-- The lvalue a three-argument `sub` or `gsub` assigns. -/
def substitute_target : List Expr → Option LValue
  | [_, _, target] => expression_to_lvalue target
  | _ => none

/-- One entry of the dictionary of function definitions: a later definition takes the place of
an earlier one of the same name. -/
def insert_definition (definitions : List FunctionDef) (definition : FunctionDef) : List FunctionDef :=
  if definitions.any fun other => other.name == definition.name then
    definitions.map fun other => if other.name = definition.name then definition else other
  else definitions ++ [definition]

def Item.definition : Item → Option FunctionDef
  | .function definition => some definition
  | .pattern_action _ _ => none

def Program.function_defs (program : Program) : List FunctionDef :=
  (program.items.filterMap Item.definition).foldl insert_definition []

end quawk
