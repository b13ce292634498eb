import Quawk.Builtins

namespace quawk

/-- Code that raises `RuntimeError`. -/
abbrev Lowering := Except String

/-- One normalized record-phase item used by reusable lowering. -/
structure NormalizedRecordItem where
  pattern : Option Pattern
  action : Option Action
  range_state_name : Option Name

inductive SlotStorage where
  | slot | hash
  deriving DecidableEq, Repr

structure VariableSlot where
  name : Name
  index : Nat
  storage : SlotStorage

/-- Stable slot-allocation metadata consumed by later lowering phases. -/
structure SlotAllocation where
  slots : List VariableSlot

def SlotAllocation.get_slot (allocation : SlotAllocation) (name : Name) : Option VariableSlot :=
  allocation.slots.find? fun slot => slot.name == name

/-- The names of `variable_indexes`; the index of a name is its position. -/
abbrev VariableIndexes := List Name

def VariableIndexes.get (variable_indexes : VariableIndexes) (name : Name) : Option Nat :=
  variable_indexes.findIdx? fun other => other == name

/-- Build deterministic slot allocation metadata from stable variable indexes. -/
def allocate_slots_for_variable_indexes (variable_indexes : VariableIndexes) : SlotAllocation :=
  ⟨variable_indexes.zipIdx.map fun (name, index) => ⟨name, index, .slot⟩⟩

/-- Stable lowering-ready shape for the current backend subset. -/
structure NormalizedLoweringProgram where
  begin_actions : List Action
  record_items : List NormalizedRecordItem
  end_actions : List Action
  variable_indexes : VariableIndexes
  slot_allocation : SlotAllocation
  array_names : List Name

def note_name (name : Name) (local_names : List Name) (names : List Name) : List Name :=
  if name ∈ local_names ∨ name ∈ names then names else names ++ [name]

mutual

def index_expression (local_names : List Name) : Expr → List Name → List Name
  | .name name, names => note_name name local_names names
  | .array_index array_name index extra_indexes, names =>
    index_expressions local_names extra_indexes
      (index_expression local_names index (note_name array_name local_names names))
  | .binary left _ right, names =>
    index_expression local_names right (index_expression local_names left names)
  | .conditional test if_true if_false, names =>
    index_expression local_names if_false
      (index_expression local_names if_true (index_expression local_names test names))
  | .assign target _ value, names =>
    index_expression local_names value (index_lvalue local_names target names)
  | .unary _ operand, names => index_expression local_names operand names
  | .postfix_op operand _, names => index_expression local_names operand names
  | .field index, names => index_expression local_names index names
  | .call _ args, names => index_expressions local_names args names
  | .getline (some target) (some source), names =>
    index_expression local_names source (index_lvalue local_names target names)
  | .getline (some target) none, names => index_lvalue local_names target names
  | .getline none (some source), names => index_expression local_names source names
  | _, names => names

def index_expressions (local_names : List Name) : List Expr → List Name → List Name
  | [], names => names
  | expression :: rest, names =>
    index_expressions local_names rest (index_expression local_names expression names)

def index_lvalue (local_names : List Name) : LValue → List Name → List Name
  | .name name, names => note_name name local_names names
  | .array name subscripts, names =>
    index_expressions local_names subscripts (note_name name local_names names)
  | .field index, names => index_expression local_names index names

end

def index_option (local_names : List Name) : Option Expr → List Name → List Name
  | some expression, names => index_expression local_names expression names
  | none, names => names

mutual

def index_statement : Stmt → List Name → List Name → List Name
  | .assign target _ value, local_names, names =>
    index_expression local_names value (index_lvalue local_names target names)
  | .expr value, local_names, names => index_expression local_names value names
  | .block statements, local_names, names => index_statements statements local_names names
  | .delete target, local_names, names => index_lvalue local_names target names
  | .if_stmt condition then_branch none, local_names, names =>
    index_statement then_branch local_names (index_expression local_names condition names)
  | .if_stmt condition then_branch (some else_branch), local_names, names =>
    index_statement else_branch local_names
      (index_statement then_branch local_names (index_expression local_names condition names))
  | .while_stmt condition body, local_names, names =>
    index_statement body local_names (index_expression local_names condition names)
  | .do_while body condition, local_names, names =>
    index_expression local_names condition (index_statement body local_names names)
  | .for_stmt init condition update body, local_names, names =>
    index_statement body local_names
      (index_expressions local_names update
        (index_option local_names condition (index_expressions local_names init names)))
  | .for_in name iterable body, local_names, names =>
    index_statement body (name :: local_names)
      (index_expression local_names iterable (note_name name local_names names))
  | .print arguments redirect, local_names, names | .printf arguments redirect, local_names, names =>
    index_option local_names (redirect.map OutputRedirect.target)
      (index_expressions local_names arguments names)
  | .return_stmt value, local_names, names => index_option local_names value names
  | _, _, names => names

def index_statements : List Stmt → List Name → List Name → List Name
  | [], _, names => names
  | statement :: rest, local_names, names =>
    index_statements rest local_names (index_statement statement local_names names)

end

def index_pattern : Pattern → List Name → Lowering (List Name)
  | .expr test, names => pure (index_expression [] test names)
  | .range left right, names => do
    index_pattern right (← index_pattern left names)
  | _, _ => throw "the current lowering path only supports expression endpoints in range patterns"

/-- A rule without an action is passed over, its pattern included. -/
def index_item : Item → List Name → Lowering (List Name)
  | .function definition, names => pure (index_statements definition.body definition.params names)
  | .pattern_action pattern (some action), names => do
    let names ← match pattern with
      | some (.expr test) => pure (index_expression [] test names)
      | some (.range left right) => index_pattern (.range left right) names
      | _ => pure names
    pure (index_statements action [] names)
  | .pattern_action _ none, names => pure names

/-- Collect stable lowering-state indexes for scalar variables in `program`. -/
def collect_variable_indexes (program : Program) (extra_names : List Name) : Lowering VariableIndexes := do
  let names ← program.items.foldlM (fun names item => index_item item names) []
  pure (extra_names.foldl (fun names name => note_name name [] names) names)

def add_name (name : Name) (local_names : List Name) : List Name :=
  if name ∈ local_names then [] else [name]

mutual

def array_names_in_expression (local_names : List Name) : Expr → List Name
  | .array_index array_name index extra_indexes =>
    if array_name ∈ local_names then []
    else array_name :: (array_names_in_expression local_names index ++
      array_names_in_expressions local_names extra_indexes)
  | .binary left _ right =>
    array_names_in_expression local_names left ++ array_names_in_expression local_names right
  | .conditional test if_true if_false =>
    array_names_in_expression local_names test ++ array_names_in_expression local_names if_true ++
      array_names_in_expression local_names if_false
  | .assign target _ value =>
    array_names_in_lvalue local_names target ++ array_names_in_expression local_names value
  | .unary _ operand => array_names_in_expression local_names operand
  | .postfix_op operand _ => array_names_in_expression local_names operand
  | .field index => array_names_in_expression local_names index
  | .call _ args => array_names_in_expressions local_names args
  | _ => []

def array_names_in_expressions (local_names : List Name) : List Expr → List Name
  | [] => []
  | expression :: rest =>
    array_names_in_expression local_names expression ++ array_names_in_expressions local_names rest

def array_names_in_lvalue (local_names : List Name) : LValue → List Name
  | .name _ => []
  | .array name subscripts =>
    if name ∈ local_names then [] else name :: array_names_in_expressions local_names subscripts
  | .field index => array_names_in_expression local_names index

end

def array_names_in_option (local_names : List Name) : Option Expr → List Name
  | some expression => array_names_in_expression local_names expression
  | none => []

mutual

def array_names_in_statement (local_names : List Name) : Stmt → List Name
  | .assign target _ value =>
    array_names_in_lvalue local_names target ++ array_names_in_expression local_names value
  | .expr value => array_names_in_expression local_names value
  | .block statements => array_names_in_statements local_names statements
  | .delete target => array_names_in_lvalue local_names target
  | .if_stmt condition then_branch none =>
    array_names_in_expression local_names condition ++ array_names_in_statement local_names then_branch
  | .if_stmt condition then_branch (some else_branch) =>
    array_names_in_expression local_names condition ++ array_names_in_statement local_names then_branch ++
      array_names_in_statement local_names else_branch
  | .while_stmt condition body =>
    array_names_in_expression local_names condition ++ array_names_in_statement local_names body
  | .do_while body condition =>
    array_names_in_statement local_names body ++ array_names_in_expression local_names condition
  | .for_stmt init condition update body =>
    array_names_in_expressions local_names init ++ array_names_in_option local_names condition ++
      array_names_in_expressions local_names update ++ array_names_in_statement local_names body
  | .for_in _ (.name array_name) body =>
    add_name array_name local_names ++ array_names_in_statement local_names body
  | .for_in _ iterable body =>
    array_names_in_expression local_names iterable ++ array_names_in_statement local_names body
  | .print arguments redirect | .printf arguments redirect =>
    array_names_in_expressions local_names arguments ++
      array_names_in_option local_names (redirect.map OutputRedirect.target)
  | .return_stmt value => array_names_in_option local_names value
  | _ => []

def array_names_in_statements (local_names : List Name) : List Stmt → List Name
  | [] => []
  | statement :: rest =>
    array_names_in_statement local_names statement ++ array_names_in_statements local_names rest

end

def array_names_in_endpoint : Pattern → List Name
  | .expr test => array_names_in_expression [] test
  | _ => []

def array_names_in_item : Item → List Name
  | .function definition => array_names_in_statements definition.params definition.body
  | .pattern_action _ none => []
  | .pattern_action pattern (some action) =>
    (match pattern with
      | some (.expr test) => array_names_in_expression [] test
      | some (.range left right) => array_names_in_endpoint left ++ array_names_in_endpoint right
      | _ => []) ++ array_names_in_statements [] action

/-- Collect names used as associative arrays in the currently supported surface. -/
def collect_array_names (program : Program) : List Name :=
  BUILTIN_ARRAY_NAMES ++ program.items.flatMap array_names_in_item

/-- The items of each phase, and how many range patterns came before. -/
structure PhaseItems where
  begin_actions : List Action
  record_items : List NormalizedRecordItem
  end_actions : List Action
  range_count : Nat

def normalize_item (phases : PhaseItems) : Item → Lowering PhaseItems
  | .function _ => pure phases
  | .pattern_action none (some action) =>
    pure { phases with record_items := phases.record_items ++ [⟨none, some action, none⟩] }
  | .pattern_action none none =>
    throw "the current lowering path requires an action block for bare record rules"
  | .pattern_action (some .begin_pattern) (some action) =>
    pure { phases with begin_actions := phases.begin_actions ++ [action] }
  | .pattern_action (some .begin_pattern) none =>
    throw "the current lowering path requires an action block for BEGIN rules"
  | .pattern_action (some .end_pattern) (some action) =>
    pure { phases with end_actions := phases.end_actions ++ [action] }
  | .pattern_action (some .end_pattern) none =>
    throw "the current lowering path requires an action block for END rules"
  | .pattern_action (some (.expr test)) action =>
    pure { phases with record_items := phases.record_items ++ [⟨some (.expr test), action, none⟩] }
  | .pattern_action (some (.range left right)) action =>
    pure { phases with
      record_items := phases.record_items ++
        [⟨some (.range left right), action, some (range_state_name phases.range_count)⟩],
      range_count := phases.range_count + 1 }

/-- Normalize `program` into the stable shape consumed by lowering. -/
def normalize_program_for_lowering (program : Program) : Lowering NormalizedLoweringProgram := do
  let phases ← program.items.foldlM normalize_item ⟨[], [], [], 0⟩
  let range_state_names := (List.range phases.range_count).map range_state_name
  let variable_indexes ← collect_variable_indexes program range_state_names
  pure {
    begin_actions := phases.begin_actions
    record_items := phases.record_items
    end_actions := phases.end_actions
    variable_indexes := variable_indexes
    slot_allocation := allocate_slots_for_variable_indexes variable_indexes
    array_names := collect_array_names program }

end quawk
