import Quawk.LowerStmt
import Quawk.Residency

open StructuredCode.Code (emit)

namespace quawk

/-- One lowered record-phase item. -/
inductive RecordBlock (V : Ty → Type) : Type 1 where
  | always (action : Block V)
  | on_match (test : Expr) (condition : Code V (V .i1)) (action : Block V)
  /-- A range rule: `active` is the address of its flag. -/
  | on_range (range_state_name : Name) (active : Code V (V .addr)) (left right : Expr)
      (left_condition right_condition : Code V (V .i1)) (action : Block V)
  | raise (message : String)

/-- A lowered user function. -/
structure FunctionBlock (V : Ty → Type) where
  name : Name
  params : List Name
  body : Block V

/-- The lowered functions of a program. -/
structure ProgramBlocks (V : Ty → Type) where
  begin_actions : List (Block V)
  record_items : List (RecordBlock V)
  end_actions : List (Block V)
  functions : List (FunctionBlock V)

variable {V : Ty → Type}

def ends_action : Stmt → Bool
  | .next | .nextfile | .exit _ => true
  | _ => false

def ends_function : Stmt → Bool
  | .return_stmt _ | .exit _ => true
  | _ => false

section State

variable (state : LoweringState)

/-- Lower statements up to the first that ends the action or the function. -/
def lower_until (ends : Stmt → Bool) (place : Surroundings) : List Stmt → Block V
  | [] => .skip
  | statement :: rest =>
    .seq (lower_statement statement state (fun _ => none) place)
      (if ends statement then .skip else lower_until ends place rest)

def in_phase : Surroundings := ⟨false, false⟩

def in_function : Surroundings := ⟨true, false⟩

/-- Lower one action block. -/
def lower_action (action : Action) : Block V := lower_until state ends_action in_phase action

/-- Lower one runtime-backed action or AWK's default print action. -/
def lower_runtime_action_or_default (action : Option Action) : Block V :=
  match action with
  | some action => lower_action state action
  | none => .code do
    let field_ptr ← load_current_record
    emit_void .qk_print_string (field_ptr, ())

/-- Lower one supported record-selection pattern in the reusable runtime model. -/
def lower_record_pattern (test : Expr) : Code V (V .i1) :=
  (lower_expression state (fun _ => none) test).condition

/-- Lower one range-pattern record item using a synthetic state slot. -/
def lower_runtime_range_record_item (left right : Pattern) (action : Option Action) (range_state_name : Name) :
    RecordBlock V :=
  match left, right with
  | .expr left, .expr right =>
    .on_range range_state_name (variable_address state range_state_name) left right
      (lower_record_pattern state left) (lower_record_pattern state right)
      (lower_runtime_action_or_default state action)
  | _, _ => .raise "the runtime-backed backend only supports expression endpoints in range patterns"

/-- Lower one record-phase item in the backend-parity runtime subset. -/
def lower_runtime_record_item (item : NormalizedRecordItem) : RecordBlock V :=
  match item.pattern with
  | none => .always (lower_runtime_action_or_default state item.action)
  | some (.expr test) =>
    .on_match test (lower_record_pattern state test) (lower_runtime_action_or_default state item.action)
  | some (.range left right) =>
    match item.range_state_name with
    | some range_state_name => lower_runtime_range_record_item state left right item.action range_state_name
    | none => .raise "range patterns require a stable backend state slot"
  | some _ => .raise "unsupported record item in runtime-backed backend"

end State

/-- The state one function of the program is lowered in. -/
def lowering_state (program : Program) (normalized_program : NormalizedLoweringProgram)
    (type_info : VariableTypes) : LoweredUnit → LoweringState
  | .user_function definition =>
    { variable_indexes := normalized_program.variable_indexes
      slot_allocation := normalized_program.slot_allocation
      type_info := type_info
      array_names := normalized_program.array_names
      function_defs := program.function_defs
      local_numeric_names := ∅
      function_param_strings := definition.params.zipIdx
      loop_string_bindings := [] }
  | phase =>
    { variable_indexes := normalized_program.variable_indexes
      slot_allocation := normalized_program.slot_allocation
      type_info := type_info
      array_names := normalized_program.array_names
      function_defs := program.function_defs
      local_numeric_names :=
        classify_local_numeric_scalar_residency program normalized_program type_info phase
      function_param_strings := []
      loop_string_bindings := [] }

/-- Lower one runtime-backed user-defined function. -/
def lower_runtime_user_function (program : Program) (normalized_program : NormalizedLoweringProgram)
    (type_info : VariableTypes) (definition : FunctionDef) : FunctionBlock V where
  name := definition.name
  params := definition.params
  body := lower_until (lowering_state program normalized_program type_info (.user_function definition))
    ends_function in_function definition.body

/-- Lower a record-driven program into reusable BEGIN/record/END functions and its user functions. -/
def lower_reusable_program (program : Program) (normalized_program : NormalizedLoweringProgram)
    (type_info : VariableTypes) : ProgramBlocks V where
  begin_actions := normalized_program.begin_actions.map
    (lower_action (lowering_state program normalized_program type_info .begin_phase))
  record_items := normalized_program.record_items.map
    (lower_runtime_record_item (lowering_state program normalized_program type_info .record_phase))
  end_actions := normalized_program.end_actions.map
    (lower_action (lowering_state program normalized_program type_info .end_phase))
  functions := program.function_defs.map
    (lower_runtime_user_function program normalized_program type_info)

/-- Lower the currently supported AST subset. -/
def lower_to_llvm_ir (program : Program) : Lowering (ProgramBlocks V) :=
  match normalize_program_for_lowering program with
  | .ok normalized_program =>
    .ok (lower_reusable_program program normalized_program (infer_variable_types program))
  | .error message => .error message

/-- What a program is lowered to; nothing where it does not lower. -/
def lowered_blocks (program : Program) : ProgramBlocks V :=
  match lower_to_llvm_ir program with
  | .ok blocks => blocks
  | .error _ => ⟨[], [], [], []⟩

theorem lower_to_llvm_ir_eq {program : Program} (h : (lower_to_llvm_ir program : Lowering (ProgramBlocks V)).isOk) :
    lower_to_llvm_ir program = .ok (lowered_blocks program : ProgramBlocks V) := by
  unfold lowered_blocks
  cases hlower : (lower_to_llvm_ir program : Lowering (ProgramBlocks V)) with
  | ok blocks => rfl
  | error message =>
    rw [hlower] at h
    cases h

end quawk
