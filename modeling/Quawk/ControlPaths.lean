import Quawk.Lib.AccessPath
import Quawk.Residency

open AccessPath

namespace quawk

/-- An access to a scalar; a formal or the variable of a surrounding for-in loop is none. -/
def scalar_event (bound : List Name) (name : Name) (event : AccessEvent Name) : List (AccessEvent Name) :=
  if name ∈ bound then [] else [event]

/-- The write to an lvalue that is a scalar. -/
def write_event (bound : List Name) : LValue → List (AccessEvent Name)
  | .name name => scalar_event bound name (.write name)
  | _ => []

/-- `++` and `--` on a scalar. -/
def increment_events (bound : List Name) (name : Name) : List (AccessEvent Name) :=
  scalar_event bound name (.read name) ++ scalar_event bound name (.write name)

def substitute_write (bound : List Name) (function : Name) (args : List Expr) : List (AccessEvent Name) :=
  if function = "sub" ∨ function = "gsub" then
    match substitute_target args with
    | some target => write_event bound target
    | none => []
  else []

mutual

/-- The accesses an expression makes on any of its paths. -/
def accesses (bound : List Name) : Expr → List (AccessEvent Name)
  | .name name => scalar_event bound name (.read name)
  | .array_index _ index extra_indexes => accesses bound index ++ accesses_all bound extra_indexes
  | .binary left _ right => accesses bound left ++ accesses bound right
  | .conditional test if_true if_false =>
    accesses bound test ++ accesses bound if_true ++ accesses bound if_false
  | .assign target _ value =>
    lvalue_accesses bound target ++ accesses bound value ++ write_event bound target
  | .unary op operand =>
    match prefix_scalar op operand with
    | some name => increment_events bound name
    | none => accesses bound operand
  | .postfix_op operand _ =>
    match scalar_name operand with
    | some name => increment_events bound name
    | none => accesses bound operand
  | .field index => accesses bound index
  | .call function args => accesses_all bound args ++ substitute_write bound function args
  | .getline (some target) (some source) =>
    accesses bound source ++ lvalue_accesses bound target ++ write_event bound target
  | .getline (some target) none => lvalue_accesses bound target ++ write_event bound target
  | .getline none (some source) => accesses bound source
  | _ => []

def accesses_all (bound : List Name) : List Expr → List (AccessEvent Name)
  | [] => []
  | expression :: rest => accesses bound expression ++ accesses_all bound rest

def lvalue_accesses (bound : List Name) : LValue → List (AccessEvent Name)
  | .name _ => []
  | .array _ subscripts => accesses_all bound subscripts
  | .field index => accesses bound index

end

def written_names (events : List (AccessEvent Name)) : List Name :=
  events.filterMap fun
    | .write name => some name
    | _ => none

def touched_names (events : List (AccessEvent Name)) : List Name :=
  events.filterMap fun
    | .write name | .read name => some name
    | .gap _ => none

mutual

/-- The accesses a statement makes on any of its paths. -/
def statement_accesses : Stmt → List Name → List (AccessEvent Name)
  | .assign target _ value, bound =>
    lvalue_accesses bound target ++ accesses bound value ++ write_event bound target
  | .expr value, bound => accesses bound value
  | .print arguments redirect, bound | .printf arguments redirect, bound =>
    accesses_all bound arguments ++ accesses_all bound (redirect.map OutputRedirect.target).toList
  | .block statements, bound => statements_accesses statements bound
  | .if_stmt condition then_branch none, bound =>
    accesses bound condition ++ statement_accesses then_branch bound
  | .if_stmt condition then_branch (some else_branch), bound =>
    accesses bound condition ++ statement_accesses then_branch bound ++
      statement_accesses else_branch bound
  | .while_stmt condition body, bound => accesses bound condition ++ statement_accesses body bound
  | .do_while body condition, bound => statement_accesses body bound ++ accesses bound condition
  | .for_stmt init condition update body, bound =>
    accesses_all bound init ++ accesses_all bound condition.toList ++ statement_accesses body bound ++
      accesses_all bound update
  | .for_in name iterable body, bound =>
    accesses bound iterable ++ scalar_event bound name (.write name) ++
      statement_accesses body (name :: bound)
  | .delete target, bound => lvalue_accesses bound target
  | .return_stmt value, bound | .exit value, bound => accesses_all bound value.toList
  | _, _ => []

def statements_accesses : List Stmt → List Name → List (AccessEvent Name)
  | [], _ => []
  | statement :: rest, bound => statement_accesses statement bound ++ statements_accesses rest bound

end

/-- A write the analysis does not count: `getline` and `sub` give their target a string, so it
takes the target not to be one of its names. -/
def string_write (events : List (AccessEvent Name)) : List (AccessEvent Name) :=
  .gap (written_names events) :: events

/-- A compound assignment expression reads its scalar before its value is computed. -/
def early_read (bound : List Name) (op : AssignOp) (value : Expr) : LValue → List (AccessEvent Name)
  | .name name =>
    if op = .plain ∨ name ∈ bound then []
    else [.gap ((written_names (accesses bound value)).filter (· = name)), .read name]
  | _ => []

mutual

def expression_paths (bound : List Name) : Expr → AccessPaths Name
  | .name name => {scalar_event bound name (.read name)}
  | .array_index _ index extra_indexes =>
    (expression_paths bound index).seq (expressions_paths bound extra_indexes)
  | .binary left .logical_and right | .binary left .logical_or right =>
    (expression_paths bound left).seq
      ({[AccessEvent.gap (written_names (accesses bound right))]} ∪ expression_paths bound right)
  | .binary left _ right => (expression_paths bound left).seq (expression_paths bound right)
  | .conditional test if_true if_false =>
    (expression_paths bound test).seq
      (expression_paths bound if_true ∪ expression_paths bound if_false)
  | .assign target op value =>
    (((lvalue_paths bound target).seq {early_read bound op value target}).seq
      (expression_paths bound value)).seq {write_event bound target}
  | .unary op operand =>
    match prefix_scalar op operand with
    | some name => {increment_events bound name}
    | none => expression_paths bound operand
  | .postfix_op operand _ =>
    match scalar_name operand with
    | some name => {increment_events bound name}
    | none => expression_paths bound operand
  | .field index => expression_paths bound index
  | .call function args =>
    (expressions_paths bound args).seq {string_write (substitute_write bound function args)}
  | .getline (some target) source =>
    (match source with
      | some source => expression_paths bound source
      | none => {[]}).seq
      -- A `getline` that reads nothing leaves its target and the target's subscripts alone.
      ({[AccessEvent.gap (written_names (lvalue_accesses bound target))]} ∪
        (lvalue_paths bound target).seq {string_write (write_event bound target)})
  | .getline none (some source) => expression_paths bound source
  | _ => {[]}

def expressions_paths (bound : List Name) : List Expr → AccessPaths Name
  | [] => {[]}
  | expression :: rest => (expression_paths bound expression).seq (expressions_paths bound rest)

def lvalue_paths (bound : List Name) : LValue → AccessPaths Name
  | .name _ => {[]}
  | .array _ subscripts => expressions_paths bound subscripts
  | .field index => expression_paths bound index

end

def option_paths (bound : List Name) : Option Expr → AccessPaths Name
  | some expression => expression_paths bound expression
  | none => {[]}

/-- An assignment statement reads a compound target after its value is computed. -/
def late_read (bound : List Name) (op : AssignOp) : LValue → List (AccessEvent Name)
  | .name name => if op = .plain then [] else scalar_event bound name (.read name)
  | _ => []

/-- `print` computes its redirect target before its arguments. -/
def print_paths (bound : List Name) (arguments : List Expr) : Option Expr → AccessPaths Name
  | some target =>
    (({[AccessEvent.gap ((written_names (accesses_all bound arguments)).filter
        (· ∈ touched_names (accesses bound target)))]} : AccessPaths Name).seq
      (expression_paths bound target)).seq (expressions_paths bound arguments)
  | none => expressions_paths bound arguments

/-- The analysis leaves out exit values. -/
def exit_paths (bound : List Name) : Option Expr → AccessPaths Name
  | some value =>
    ({[AccessEvent.gap (touched_names (accesses bound value))]} : AccessPaths Name).seq (expression_paths bound value)
  | none => {[]}

mutual

def statement_paths : Stmt → List Name → StatementPaths Name
  | .assign target op value, bound =>
    .of_paths ((((lvalue_paths bound target).seq (expression_paths bound value)).seq
      {late_read bound op target}).seq {write_event bound target})
  | .expr value, bound => .of_paths (expression_paths bound value)
  | .print arguments redirect, bound =>
    .of_paths (print_paths bound arguments (redirect.map OutputRedirect.target))
  | .printf arguments redirect, bound =>
    .of_paths ((expressions_paths bound arguments).seq
      (option_paths bound (redirect.map OutputRedirect.target)))
  | .block statements, bound => statements_paths statements bound
  | .if_stmt condition then_branch none, bound =>
    .after_paths (expression_paths bound condition)
      (.of_paths {[]} ∪ statement_paths then_branch bound)
  | .if_stmt condition then_branch (some else_branch), bound =>
    .after_paths (expression_paths bound condition)
      (statement_paths then_branch bound ∪ statement_paths else_branch bound)
  | .while_stmt condition body, bound =>
    {run | LoopPath (expression_paths bound condition) (statement_paths body bound) [.gap []] {[]}
      run.1 run.2}
  | .do_while body condition, bound =>
    {run | DoPath (expression_paths bound condition) (statement_paths body bound)
      [.gap (written_names (statement_accesses body bound))] run.1 run.2}
  | .for_stmt init condition update body, bound =>
    .after_paths (expressions_paths bound init)
      {run | LoopPath (option_paths bound condition) (statement_paths body bound)
        [.gap (written_names (statement_accesses body bound))] (expressions_paths bound update)
        run.1 run.2}
  | .for_in name iterable body, bound =>
    .after_paths (expression_paths bound iterable)
      {run | LoopPath {[]}
        (.after_paths {string_write (scalar_event bound name (.write name))}
          (statement_paths body (name :: bound)))
        [.gap []] {[]} run.1 run.2}
  | .delete target, bound => .of_paths (lvalue_paths bound target)
  | .break_stmt, _ => {run | run.1 = [] ∧ run.2 = .broke}
  | .continue_stmt, _ => {run | run.1 = [] ∧ run.2 = .continued}
  | .next, _ | .nextfile, _ => .leaving {[]}
  | .exit value, bound => .leaving (exit_paths bound value)
  | .return_stmt value, bound => .leaving (option_paths bound value)

def statements_paths : List Stmt → List Name → StatementPaths Name
  | [], _ => .of_paths {[]}
  | statement :: rest, bound => (statement_paths statement bound).seq (statements_paths rest bound)

end

def actions_paths : List Action → StatementPaths Name
  | [] => .of_paths {[]}
  | action :: rest => (statements_paths action []).seq (actions_paths rest)

def endpoint_paths : Pattern → AccessPaths Name
  | .expr test => expression_paths [] test
  | _ => {[]}

/-- The action of a record rule, or the default print. -/
def action_paths : Option Action → StatementPaths Name
  | some action => statements_paths action []
  | none => .of_paths {[]}

def record_item_paths (item : NormalizedRecordItem) : StatementPaths Name :=
  match item.pattern with
  | none => action_paths item.action
  | some (.range left right) =>
    (action_paths item.action).seq (.of_paths (endpoint_paths right)) ∪
      .after_paths (endpoint_paths left)
        (.of_paths {[]} ∪ (action_paths item.action).seq (.of_paths (endpoint_paths right)))
  | some pattern =>
    .after_paths (endpoint_paths pattern) (.of_paths {[]} ∪ action_paths item.action)

def record_items_paths : List NormalizedRecordItem → StatementPaths Name
  | [] => .of_paths {[]}
  | item :: rest => (record_item_paths item).seq (record_items_paths rest)

/-- The paths of one invocation of a lowered function. -/
def unit_paths (normalized_program : NormalizedLoweringProgram) : LoweredUnit → StatementPaths Name
  | .begin_phase => actions_paths normalized_program.begin_actions
  | .record_phase => record_items_paths normalized_program.record_items
  | .end_phase => actions_paths normalized_program.end_actions
  | .user_function definition => statements_paths definition.body definition.params

end quawk
