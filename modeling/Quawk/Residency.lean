import Mathlib.Data.Finset.Basic
import Quawk.Normalization
import Quawk.TypeInference

namespace quawk

/-- What the analysis finds in a piece of the program, started with some names assigned; it only
looks at the tracked names. -/
structure AnalysisResult (tracked : Finset Name) where
  assigned_after : Finset Name
  encountered_names : Finset Name
  assigned_names : Finset Name
  read_before_assignment_names : Finset Name
  assigned_encountered : assigned_names ⊆ encountered_names
  encountered_tracked : encountered_names ⊆ tracked

section Analysis

variable {tracked : Finset Name}

def empty_result (assigned : Finset Name) : AnalysisResult tracked :=
  ⟨assigned, ∅, ∅, ∅, Finset.Subset.refl ∅, Finset.empty_subset tracked⟩

/-- The names of two results, with the given names assigned after both. -/
def AnalysisResult.merge (assigned_after : Finset Name) (first second : AnalysisResult tracked) :
    AnalysisResult tracked where
  assigned_after := assigned_after
  encountered_names := first.encountered_names ∪ second.encountered_names
  assigned_names := first.assigned_names ∪ second.assigned_names
  read_before_assignment_names :=
    first.read_before_assignment_names ∪ second.read_before_assignment_names
  assigned_encountered :=
    Finset.union_subset_union first.assigned_encountered second.assigned_encountered
  encountered_tracked := Finset.union_subset first.encountered_tracked second.encountered_tracked

def combine_results (assigned_after : Finset Name) (results : List (AnalysisResult tracked)) :
    AnalysisResult tracked :=
  results.foldr (AnalysisResult.merge assigned_after) (empty_result assigned_after)

/-! The names the analysis tracks are those of `tracked_numeric_names`. -/
variable (tracked)

def read_name (name : Name) (assigned : Finset Name) (local_names : List Name) : AnalysisResult tracked :=
  if h : name ∈ local_names ∨ name ∉ tracked then empty_result assigned
  else ⟨assigned, {name}, ∅, if name ∈ assigned then ∅ else {name}, Finset.empty_subset _, by simp_all⟩

def assign_name (name : Name) (assigned : Finset Name) (local_names : List Name)
    (requires_prior_value : Bool) : AnalysisResult tracked :=
  if h : name ∈ local_names ∨ name ∉ tracked then empty_result assigned
  else ⟨assigned ∪ {name}, {name}, {name},
    if requires_prior_value = true ∧ name ∉ assigned then {name} else ∅, Finset.Subset.refl _, by simp_all⟩

/-- The assignment itself, once the target's indexes and the value are analyzed. -/
def assign_target (target : LValue) (op : AssignOp) (index_result value_result : AnalysisResult tracked)
    (local_names : List Name) : AnalysisResult tracked :=
  match target with
  | .name name =>
    let assignment_result :=
      assign_name tracked name value_result.assigned_after local_names (op ≠ .plain)
    combine_results assignment_result.assigned_after [index_result, value_result, assignment_result]
  | _ => combine_results value_result.assigned_after [index_result, value_result]

/-- `++` and `--` on a scalar name. -/
def increment_name (name : Name) (assigned : Finset Name) (local_names : List Name) :
    AnalysisResult tracked :=
  let read_result := read_name tracked name assigned local_names
  let assign_result := assign_name tracked name read_result.assigned_after local_names false
  combine_results assign_result.assigned_after [read_result, assign_result]

mutual

def analyze_expression (local_names : List Name) : Expr → Finset Name → AnalysisResult tracked
  | .name name, assigned => read_name tracked name assigned local_names
  | .array_index _ index extra_indexes, assigned =>
    let index_result := analyze_expression local_names index assigned
    let extra_result := analyze_expression_sequence local_names extra_indexes index_result.assigned_after
    combine_results extra_result.assigned_after [index_result, extra_result]
  | .binary left _ right, assigned =>
    let left_result := analyze_expression local_names left assigned
    let right_result := analyze_expression local_names right left_result.assigned_after
    combine_results right_result.assigned_after [left_result, right_result]
  | .conditional test if_true if_false, assigned =>
    let test_result := analyze_expression local_names test assigned
    let true_result := analyze_expression local_names if_true test_result.assigned_after
    let false_result := analyze_expression local_names if_false test_result.assigned_after
    combine_results (true_result.assigned_after ∩ false_result.assigned_after)
      [test_result, true_result, false_result]
  | .assign target op value, assigned =>
    let index_result := analyze_lvalue_indexes local_names target assigned
    let value_result := analyze_expression local_names value index_result.assigned_after
    assign_target tracked target op index_result value_result local_names
  | .unary op operand, assigned =>
    match prefix_scalar op operand with
    | some name => increment_name tracked name assigned local_names
    | none => analyze_expression local_names operand assigned
  | .postfix_op operand _, assigned =>
    match scalar_name operand with
    | some name => increment_name tracked name assigned local_names
    | none => analyze_expression local_names operand assigned
  | .field index, assigned => analyze_expression local_names index assigned
  | .call _ args, assigned => analyze_expression_sequence local_names args assigned
  | .getline target (some source), assigned =>
    let source_result := analyze_expression local_names source assigned
    match target with
    | none => source_result
    | some target =>
      let target_result := analyze_lvalue_indexes local_names target source_result.assigned_after
      combine_results target_result.assigned_after [source_result, target_result]
  | .getline (some target) none, assigned =>
    let target_result := analyze_lvalue_indexes local_names target assigned
    combine_results target_result.assigned_after [empty_result assigned, target_result]
  | _, assigned => empty_result assigned

def analyze_expression_sequence (local_names : List Name) : List Expr → Finset Name → AnalysisResult tracked
  | [], assigned => empty_result assigned
  | expression :: rest, assigned =>
    let result := analyze_expression local_names expression assigned
    let rest_result := analyze_expression_sequence local_names rest result.assigned_after
    combine_results rest_result.assigned_after [result, rest_result]

def analyze_lvalue_indexes (local_names : List Name) : LValue → Finset Name → AnalysisResult tracked
  | .name _, assigned => empty_result assigned
  | .array _ subscripts, assigned => analyze_expression_sequence local_names subscripts assigned
  | .field index, assigned => analyze_expression local_names index assigned

end

def analyze_option (local_names : List Name) (expression : Option Expr) (assigned : Finset Name) :
    AnalysisResult tracked :=
  match expression with
  | some expression => analyze_expression tracked local_names expression assigned
  | none => empty_result assigned

mutual

def analyze_statement : Stmt → List Name → Finset Name → AnalysisResult tracked
  | .assign target op value, local_names, assigned =>
    let index_result := analyze_lvalue_indexes tracked local_names target assigned
    let value_result := analyze_expression tracked local_names value index_result.assigned_after
    assign_target tracked target op index_result value_result local_names
  | .expr value, local_names, assigned => analyze_expression tracked local_names value assigned
  | .print arguments redirect, local_names, assigned
  | .printf arguments redirect, local_names, assigned =>
    let arguments_result := analyze_expression_sequence tracked local_names arguments assigned
    let redirect_result := analyze_option tracked local_names (redirect.map OutputRedirect.target)
      arguments_result.assigned_after
    combine_results redirect_result.assigned_after [arguments_result, redirect_result]
  | .block statements, local_names, assigned => analyze_statement_sequence statements local_names assigned
  | .if_stmt condition then_branch none, local_names, assigned =>
    let condition_result := analyze_expression tracked local_names condition assigned
    let then_result := analyze_statement then_branch local_names condition_result.assigned_after
    combine_results (condition_result.assigned_after ∩ then_result.assigned_after)
      [condition_result, then_result]
  | .if_stmt condition then_branch (some else_branch), local_names, assigned =>
    let condition_result := analyze_expression tracked local_names condition assigned
    let then_result := analyze_statement then_branch local_names condition_result.assigned_after
    let else_result := analyze_statement else_branch local_names condition_result.assigned_after
    combine_results (then_result.assigned_after ∩ else_result.assigned_after)
      [condition_result, then_result, else_result]
  | .while_stmt condition body, local_names, assigned =>
    let condition_result := analyze_expression tracked local_names condition assigned
    let body_result := analyze_statement body local_names condition_result.assigned_after
    combine_results condition_result.assigned_after [condition_result, body_result]
  | .do_while body condition, local_names, assigned =>
    let body_result := analyze_statement body local_names assigned
    let condition_result := analyze_expression tracked local_names condition body_result.assigned_after
    combine_results assigned [body_result, condition_result]
  | .for_stmt init condition update body, local_names, assigned =>
    let init_result := analyze_expression_sequence tracked local_names init assigned
    let condition_result := analyze_option tracked local_names condition init_result.assigned_after
    let body_result := analyze_statement body local_names condition_result.assigned_after
    let update_result := analyze_expression_sequence tracked local_names update body_result.assigned_after
    combine_results condition_result.assigned_after
      [init_result, condition_result, body_result, update_result]
  | .for_in name iterable body, local_names, assigned =>
    let iterable_result := analyze_expression tracked local_names iterable assigned
    let body_result := analyze_statement body (name :: local_names) iterable_result.assigned_after
    combine_results iterable_result.assigned_after [iterable_result, body_result]
  | .delete target, local_names, assigned => analyze_lvalue_indexes tracked local_names target assigned
  | .return_stmt value, local_names, assigned => analyze_option tracked local_names value assigned
  | _, _, assigned => empty_result assigned

def analyze_statement_sequence : List Stmt → List Name → Finset Name → AnalysisResult tracked
  | [], _, assigned => empty_result assigned
  | statement :: rest, local_names, assigned =>
    let result := analyze_statement statement local_names assigned
    let rest_result := analyze_statement_sequence rest local_names result.assigned_after
    combine_results rest_result.assigned_after [result, rest_result]

end

/-- Several actions run one after another. -/
def analyze_action_sequence : List Action → Finset Name → AnalysisResult tracked
  | [], assigned => empty_result assigned
  | action :: rest, assigned =>
    let result := analyze_statement_sequence tracked action [] assigned
    let rest_result := analyze_action_sequence rest result.assigned_after
    combine_results rest_result.assigned_after [result, rest_result]

def analyze_pattern : Pattern → Finset Name → AnalysisResult tracked
  | .expr test, assigned => analyze_expression tracked [] test assigned
  | .range left right, assigned =>
    combine_results assigned [analyze_pattern left assigned, analyze_pattern right assigned]
  | _, assigned => empty_result assigned

def analyze_optional_action (action : Option Action) (assigned : Finset Name) : AnalysisResult tracked :=
  match action with
  | some action => analyze_statement_sequence tracked action [] assigned
  | none => empty_result assigned

/-- One record rule; its action is run only where its pattern matches. -/
def analyze_record_item (item : NormalizedRecordItem) (assigned : Finset Name) : AnalysisResult tracked :=
  match item.pattern with
  | none => analyze_optional_action tracked item.action assigned
  | some pattern =>
    let pattern_result := analyze_pattern tracked pattern assigned
    let action_result := analyze_optional_action tracked item.action pattern_result.assigned_after
    combine_results (pattern_result.assigned_after ∩ action_result.assigned_after)
      [pattern_result, action_result]

def analyze_record_items : List NormalizedRecordItem → Finset Name → AnalysisResult tracked
  | [], assigned => empty_result assigned
  | item :: rest, assigned =>
    let result := analyze_record_item tracked item assigned
    let rest_result := analyze_record_items rest result.assigned_after
    combine_results rest_result.assigned_after [result, rest_result]

end Analysis

/-- A function the program is lowered to: one of the three phases, or a user function. -/
inductive LoweredUnit where
  | begin_phase | record_phase | end_phase
  | user_function (definition : FunctionDef)

def unit_summary (tracked : Finset Name) (normalized_program : NormalizedLoweringProgram) :
    LoweredUnit → AnalysisResult tracked
  | .begin_phase => analyze_action_sequence tracked normalized_program.begin_actions ∅
  | .record_phase => analyze_record_items tracked normalized_program.record_items ∅
  | .end_phase => analyze_action_sequence tracked normalized_program.end_actions ∅
  | .user_function definition =>
    analyze_statement_sequence tracked definition.body definition.params ∅

def lowered_units (program : Program) : List LoweredUnit :=
  [.begin_phase, .record_phase, .end_phase] ++ program.function_defs.map .user_function

def tracked_numeric_names (normalized_program : NormalizedLoweringProgram) (type_info : VariableTypes) :
    Finset Name :=
  (normalized_program.variable_indexes.filter fun name =>
    type_info name = .numeric ∧ name ∉ normalized_program.array_names ∧
      is_builtin_variable_name name = false ∧ is_reusable_runtime_state_name name = false).toFinset

/-- The name occurs in more than one lowered unit. -/
def is_shared {tracked : Finset Name} (summaries : List (AnalysisResult tracked)) (name : Name) : Bool :=
  1 < (summaries.filter fun summary => name ∈ summary.encountered_names).length

def names_from_summary {tracked : Finset Name} (summaries : List (AnalysisResult tracked))
    (summary : AnalysisResult tracked) : Finset Name :=
  summary.assigned_names.filter fun name =>
    is_shared summaries name = false ∧ name ∉ summary.read_before_assignment_names

/-- The inferred-numeric scalars that stay local to one lowered unit: they are assigned before
every read in it and occur in no other unit. User functions keep none. -/
def classify_local_numeric_scalar_residency (program : Program)
    (normalized_program : NormalizedLoweringProgram) (type_info : VariableTypes) :
    LoweredUnit → Finset Name
  | .user_function _ => ∅
  | phase =>
    let tracked := tracked_numeric_names normalized_program type_info
    names_from_summary ((lowered_units program).map (unit_summary tracked normalized_program))
      (unit_summary tracked normalized_program phase)

end quawk
