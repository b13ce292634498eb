import Quawk.FormatCaches
import Quawk.LowerStmt

open StructuredCode (Operands)
open StructuredCode.Code (emit)

namespace quawk

/-- The builtin variables that programs read and write. -/
def BUILTIN_SCALARS : List Name :=
  ["NR", "FNR", "NF", "FILENAME", "FS", "OFS", "ORS", "RS", "SUBSEP", "CONVFMT", "OFMT", "RSTART", "RLENGTH"]

/-- The builtin variables that are read from fields of the runtime as numbers. -/
def COUNTERS : List Name := ["NR", "FNR", "NF"]

/-- The runtime, as far as the builtin variables go. -/
structure BuiltinRuntime (Number : Type) where
  runtime : RuntimeState Number
  nr : Number
  fnr : Number
  current_filename : Option Text

/-- Doubles with the instructions on them. -/
structure ComputingDoubles (Number : Type) extends Doubles Number where
  arithmetic : Op [.double, .double] .double → Number → Number → Number
  truncated : Number → Number
  /-- Ordered and not equal. -/
  differ : Number → Number → Bool

/-- What operands stand for. -/
abbrev BuiltinValue (Number : Type) : Ty → Type
  | .double => Number
  | .i1 => Bool
  | .i8 => Option Char
  | .ptr => Text
  | _ => Unit

section Run

variable {Number : Type} (doubles : ComputingDoubles Number)

/-- `qk_scalar_truthy` -/
def ComputingDoubles.truthy : StoredValue Number → Bool
  | .unset => false
  | .number value => doubles.differ value (doubles.of_int 0)
  | .string text => !text.isEmpty

/-- The instructions builtin variables are read and written with. -/
def builtin_op (state : BuiltinRuntime Number) : {types : List Ty} → {type : Ty} → Op types type →
    Operands (BuiltinValue Number) types → Option (BuiltinValue Number type × BuiltinRuntime Number)
  | _, _, .number .zero, _ => some (doubles.of_int 0, state)
  | _, _, .number .one, _ => some (doubles.of_int 1, state)
  | _, _, .string_constant text, _ => some (text, state)
  | _, _, .qk_get_nr_inline, _ => some (state.nr, state)
  | _, _, .qk_get_fnr_inline, _ => some (state.fnr, state)
  | _, _, .qk_get_nf_inline, _ => some (doubles.of_int (qk_get_nf state.runtime.record), state)
  | _, _, .qk_get_filename_inline, _ => some (state.current_filename.getD ['-'], state)
  | _, _, .qk_scalar_get_inline, (name, _) =>
    let (text, runtime) := doubles.qk_scalar_string_view state.runtime (String.ofList name)
    some (text, { state with runtime := runtime })
  | _, _, .qk_scalar_get_number_inline, (name, _) =>
    some (doubles.qk_scalar_get_number state.runtime (String.ofList name), state)
  | _, _, .qk_scalar_truthy, (name, _) => some (doubles.truthy (state.runtime.value (String.ofList name)), state)
  | _, _, .qk_scalar_set_string, (name, text, _) =>
    some ((), { state with runtime := doubles.qk_scalar_set_string state.runtime (String.ofList name) text })
  | _, _, .qk_scalar_set_number_inline, (name, value, _) =>
    some ((), { state with runtime := doubles.qk_scalar_set_number state.runtime (String.ofList name) value })
  | _, _, .qk_scalar_copy, (target_name, source_name, _) =>
    some ((), { state with
      runtime := doubles.qk_scalar_copy state.runtime (String.ofList target_name) (String.ofList source_name) })
  | _, _, .qk_capture_string_arg_inline, (text, _) => some (text, state)
  | _, _, .qk_format_number, (value, _) => some (doubles.qk_format_number state.runtime value, state)
  | _, _, .qk_parse_number_text, (text, _) => some (doubles.qk_parse_awk_numeric_prefix text, state)
  | _, _, .load_char, (text, _) => some (text.head?, state)
  | _, _, .icmp_char, (first_char, _) => some (first_char.isSome, state)
  | _, _, .fcmp .one, (left, right, _) => some (doubles.differ left right, state)
  | _, _, .fadd, (left, right, _) => some (doubles.arithmetic .fadd left right, state)
  | _, _, .fsub, (left, right, _) => some (doubles.arithmetic .fsub left right, state)
  | _, _, .fmul, (left, right, _) => some (doubles.arithmetic .fmul left right, state)
  | _, _, .fdiv, (left, right, _) => some (doubles.arithmetic .fdiv left right, state)
  | _, _, .llvm_pow, (left, right, _) => some (doubles.arithmetic .llvm_pow left right, state)
  | _, _, .llvm_trunc, (value, _) => some (doubles.truncated value, state)
  | _, _, _, _ => none

/-- Run code on the builtin variables. -/
def run_builtin {α : Type} : Code (BuiltinValue Number) α → BuiltinRuntime Number → Option (α × BuiltinRuntime Number)
  | .done value, state => some (value, state)
  | .op f operands next, state =>
    (builtin_op doubles state f operands).bind fun result => run_builtin (next result.1) result.2
  | .note _ next, state => run_builtin next state
  | _, _ => none

variable {doubles}

theorem run_builtin_bind {α β : Type} (code : Code (BuiltinValue Number) α) (next : α → Code (BuiltinValue Number) β)
    (state : BuiltinRuntime Number) : run_builtin doubles (code >>= next) state =
      (run_builtin doubles code state).bind fun result => run_builtin doubles (next result.1) result.2 := by
  change run_builtin doubles (code.bind next) state = _
  induction code generalizing state with
  | done | choice | short_circuit | guarded | attempt | raise | crash => rfl
  | op f operands rest ih => simp only [StructuredCode.Code.bind, run_builtin, ih, Option.bind_assoc]
  | note mark rest ih => exact ih next state

@[simp]
theorem run_builtin_emit {types : List Ty} {type : Ty} (f : Op types type)
    (operands : Operands (BuiltinValue Number) types) (state : BuiltinRuntime Number) :
    run_builtin doubles (emit f operands) state = builtin_op doubles state f operands := by
  change (builtin_op doubles state f operands).bind (fun result => some (result.1, result.2)) = _
  cases builtin_op doubles state f operands <;> rfl

@[simp]
theorem run_builtin_emit_void {types : List Ty} (f : Op types .unit)
    (operands : Operands (BuiltinValue Number) types) (state : BuiltinRuntime Number) :
    run_builtin doubles (emit_void f operands) state = builtin_op doubles state f operands :=
  run_builtin_emit f operands state

@[simp]
theorem run_builtin_pure {α : Type} (value : α) (state : BuiltinRuntime Number) :
    run_builtin doubles (pure value) state = some (value, state) := rfl

@[simp]
theorem run_builtin_performs (expression : Expr) (state : BuiltinRuntime Number) :
    run_builtin doubles (performs expression) state = some ((), state) := rfl

/-! The operations on the scalar of a name. -/

variable (name : Name) (state : BuiltinRuntime Number)

theorem builtin_get : builtin_op doubles state .qk_scalar_get_inline (name.toList, ()) =
    some ((doubles.qk_scalar_string_view state.runtime name).1,
      { state with runtime := (doubles.qk_scalar_string_view state.runtime name).2 }) := by
  change some ((doubles.qk_scalar_string_view state.runtime (String.ofList name.toList)).1, { state with
    runtime := (doubles.qk_scalar_string_view state.runtime (String.ofList name.toList)).2 }) = _
  rw [String.ofList_toList]

theorem builtin_get_number : builtin_op doubles state .qk_scalar_get_number_inline (name.toList, ()) =
    some (doubles.qk_scalar_get_number state.runtime name, state) := by
  change some (doubles.qk_scalar_get_number state.runtime (String.ofList name.toList), state) = _
  rw [String.ofList_toList]

theorem builtin_truthy : builtin_op doubles state .qk_scalar_truthy (name.toList, ()) =
    some (doubles.truthy (state.runtime.value name), state) := by
  change some (doubles.truthy (state.runtime.value (String.ofList name.toList)), state) = _
  rw [String.ofList_toList]

theorem builtin_set_number (value : Number) :
    builtin_op doubles state .qk_scalar_set_number_inline (name.toList, value, ()) =
      some ((), { state with runtime := doubles.store state.runtime name (.number value) }) := by
  change some ((), { state with
    runtime := doubles.store state.runtime (String.ofList name.toList) (.number value) }) = _
  rw [String.ofList_toList]

theorem builtin_set_string (text : Text) : builtin_op doubles state .qk_scalar_set_string (name.toList, text, ()) =
    some ((), { state with runtime := doubles.store state.runtime name (.string text) }) := by
  change some ((), { state with
    runtime := doubles.store state.runtime (String.ofList name.toList) (.string text) }) = _
  rw [String.ofList_toList]

theorem builtin_copy (source : Name) :
    builtin_op doubles state .qk_scalar_copy (name.toList, source.toList, ()) =
      some ((), { state with runtime := doubles.store state.runtime name (state.runtime.value source) }) := by
  change some ((), { state with
    runtime := doubles.qk_scalar_copy state.runtime (String.ofList name.toList) (String.ofList source.toList) }) = _
  rw [String.ofList_toList, String.ofList_toList, Doubles.qk_scalar_copy_eq_store]

end Run

/-- The names of the builtin variables stand for them: no parameter and no loop variable is called so. -/
structure PlainBuiltins (state : LoweringState) : Prop where
  param : ∀ name ∈ BUILTIN_SCALARS, state.is_function_param_string name = false
  loop : ∀ name ∈ BUILTIN_SCALARS, state.is_loop_string_binding name = false

section Read

variable {Number : Type} {doubles : ComputingDoubles Number} {state : LoweringState} {name : Name}
  {keys : Name → Option Text} {before : BuiltinRuntime Number}

/-- The number a builtin variable is read as. -/
def numeric_read (doubles : ComputingDoubles Number) (before : BuiltinRuntime Number) (name : Name) : Number :=
  if name = "NR" then before.nr
  else if name = "FNR" then before.fnr
  else if name = "NF" then doubles.of_int (qk_get_nf before.runtime.record)
  else doubles.qk_scalar_get_number before.runtime name

/-- The text a builtin variable is read as, and the runtime, which may keep the text. -/
def string_read (doubles : ComputingDoubles Number) (before : BuiltinRuntime Number) (name : Name) :
    Text × BuiltinRuntime Number :=
  if name = "FILENAME" then (before.current_filename.getD ['-'], before)
  else if name ∈ COUNTERS then (doubles.qk_format_number before.runtime (numeric_read doubles before name), before)
  else
    let (text, runtime) := doubles.qk_scalar_string_view before.runtime name
    (text, { before with runtime := runtime })

/-- The truth a builtin variable is read as. -/
def condition_read (doubles : ComputingDoubles Number) (state : LoweringState) (before : BuiltinRuntime Number)
    (name : Name) : Bool :=
  if name = "FILENAME" then !(before.current_filename.getD ['-']).isEmpty
  else if name ∈ COUNTERS then
    if runtime_name_is_inferred_string state name then !(string_read doubles before name).1.isEmpty
    else doubles.differ (numeric_read doubles before name) (doubles.of_int 0)
  else doubles.truthy (before.runtime.value name)

theorem slot_index_builtin (hname : name ∈ BUILTIN_SCALARS) : runtime_name_slot_index state name = none := by
  have hbuiltin : is_builtin_variable_name name = true := by
    simp only [BUILTIN_SCALARS, List.mem_cons, List.not_mem_nil, or_false] at hname
    rcases hname with rfl | rfl | rfl | rfl | rfl | rfl | rfl | rfl | rfl | rfl | rfl | rfl | rfl <;> decide
  unfold runtime_name_slot_index
  rw [if_pos (.inl hbuiltin)]

theorem reusable_builtin (hname : name ∈ BUILTIN_SCALARS) : is_reusable_runtime_state_name name = false := by
  simp only [BUILTIN_SCALARS, List.mem_cons, List.not_mem_nil, or_false] at hname
  rcases hname with rfl | rfl | rfl | rfl | rfl | rfl | rfl | rfl | rfl | rfl | rfl | rfl | rfl <;> decide

theorem numeric_slot_builtin (hname : name ∈ BUILTIN_SCALARS) :
    runtime_name_uses_numeric_slot_state state name = false := by
  simp [runtime_name_uses_numeric_slot_state, slot_index_builtin hname]

theorem current_number_builtin (hname : name ∈ BUILTIN_SCALARS) (scalar_name : Text) :
    (lower_runtime_current_number state name scalar_name : Code (BuiltinValue Number) Number) =
      emit .qk_scalar_get_number_inline (scalar_name, ()) := by
  unfold lower_runtime_current_number
  rw [slot_index_builtin hname]

theorem run_scalar_name {α : Type} (next : Text → Code (BuiltinValue Number) α) (name : Name) :
    run_builtin doubles (lower_runtime_scalar_name name >>= next) before =
      run_builtin doubles (next name.toList) before := by
  rw [run_builtin_bind]
  rfl

/-- The number of a builtin variable is the counter of the runtime, or the number of the scalar. -/
theorem run_numeric (hplain : PlainBuiltins state) (hname : name ∈ BUILTIN_SCALARS) :
    run_builtin doubles (lower_runtime_numeric_name state name) before =
      some (numeric_read doubles before name, before) := by
  unfold lower_runtime_numeric_name numeric_read
  split_ifs with hnr hfnr hnf hparam hslot
  · exact run_builtin_emit ..
  · exact run_builtin_emit ..
  · exact run_builtin_emit ..
  · rw [hplain.param name hname] at hparam
    cases hparam
  · rw [reusable_builtin hname, numeric_slot_builtin hname] at hslot
    simp at hslot
  · rw [run_scalar_name, current_number_builtin hname, run_builtin_emit, builtin_get_number]

theorem only_scalar_builtin (hplain : PlainBuiltins state) (hname : name ∈ BUILTIN_SCALARS) :
    runtime_name_uses_only_scalar_runtime state name = true ↔ name ≠ "FILENAME" ∧ name ∉ COUNTERS := by
  unfold runtime_name_uses_only_scalar_runtime runtime_name_uses_string_slot_runtime runtime_name_uses_scalar_runtime
  rw [numeric_slot_builtin hname, slot_index_builtin hname, reusable_builtin hname, hplain.param name hname,
    hplain.loop name hname]
  simp [COUNTERS]
  tauto

/-- The text of a builtin variable is the file name, the text of a counter, or the text of the scalar. -/
theorem run_string (hplain : PlainBuiltins state) (hname : name ∈ BUILTIN_SCALARS) :
    run_builtin doubles (lower_runtime_string_name state keys name) before =
      some (string_read doubles before name) := by
  have honly := only_scalar_builtin hplain hname
  unfold lower_runtime_string_name string_read
  rw [if_neg (by rw [hplain.loop name hname]; simp), if_neg (by rw [hplain.param name hname]; simp),
    slot_index_builtin hname]
  dsimp only
  split_ifs with hfilename hscalar hcounter hcounter
  · exact run_builtin_emit ..
  · exact absurd hcounter (honly.mp hscalar).2
  · rw [run_scalar_name, run_builtin_emit, builtin_get]
  · unfold lower_runtime_formatted_number
    rw [run_builtin_bind, run_numeric hplain hname]
    exact run_builtin_emit ..
  · exact absurd (honly.mpr ⟨hfilename, hcounter⟩) hscalar

theorem known_string_builtin (hplain : PlainBuiltins state) (hname : name ∈ BUILTIN_SCALARS) :
    runtime_expression_is_known_string state (.name name) =
      (name == "FILENAME" || runtime_name_is_inferred_string state name) := by
  simp [runtime_expression_is_known_string, hplain.loop name hname, hplain.param name hname]

/-- The truth of a text is that it is not empty. -/
theorem run_builtin_string_truthiness {string : Code (BuiltinValue Number) Text} {text : Text} {after : BuiltinRuntime Number}
    (h : run_builtin doubles string before = some (text, after)) :
    run_builtin doubles (lower_runtime_string_truthiness string) before = some (!text.isEmpty, after) := by
  unfold lower_runtime_string_truthiness
  rw [run_builtin_bind, h, Option.bind_some, run_builtin_bind, run_builtin_emit]
  cases text <;> rfl

/-- The truth of a builtin variable. -/
theorem run_condition (hplain : PlainBuiltins state) (hname : name ∈ BUILTIN_SCALARS) :
    ∃ after, run_builtin doubles (lower_condition_name state keys name) before =
      some (condition_read doubles state before name, after) := by
  have honly := only_scalar_builtin hplain hname
  unfold lower_condition_name
  split_ifs with hscalar
  · refine ⟨before, ?_⟩
    obtain ⟨hfilename, hcounter⟩ := honly.mp hscalar
    rw [run_scalar_name, run_builtin_emit, condition_read, if_neg hfilename, if_neg hcounter,
      builtin_truthy]
  · unfold lower_condition_default
    rw [known_string_builtin hplain hname]
    split_ifs with hknown
    · have htext : run_builtin doubles (lower_runtime_string_name state keys name) before =
          some ((string_read doubles before name).1, (string_read doubles before name).2) := run_string hplain hname
      have htruth : (!(string_read doubles before name).1.isEmpty) = condition_read doubles state before name := by
        unfold condition_read
        split_ifs with hfilename hcounter hstring
        · simp [string_read, hfilename]
        · rfl
        · simp [hfilename, hstring] at hknown
        · exact absurd (honly.mpr ⟨hfilename, hcounter⟩) hscalar
      exact ⟨_, htruth ▸ run_builtin_string_truthiness htext⟩
    · refine ⟨before, ?_⟩
      simp only [Bool.or_eq_true, beq_iff_eq, not_or] at hknown
      have hcounter : name ∈ COUNTERS := by
        by_contra hcounter
        exact hscalar (honly.mpr ⟨hknown.1, hcounter⟩)
      unfold lower_runtime_number_truthiness condition_read
      rw [run_builtin_bind, run_numeric hplain hname, if_neg hknown.1, if_pos hcounter, if_neg hknown.2]
      rfl

end Read

/-- An operand whose number and text are known. -/
structure BuiltinOperand (Number : Type) where
  expression : Expr
  number : Number
  text : Text

def BuiltinOperand.lowered {Number : Type} (operand : BuiltinOperand Number) : Lowered (BuiltinValue Number) :=
  ⟨operand.expression, .done operand.number, .done operand.text, .done true⟩

/-- The ways a program writes a scalar. -/
inductive BuiltinWrite (Number : Type) where
  /-- `=` and the compound assignments, as statements. -/
  | assignment (op : AssignOp) (operand : BuiltinOperand Number)
  | assignment_expression (expression : Expr) (op : AssignOp) (operand : BuiltinOperand Number)
  | string_assignment (expression : Expr) (operand : BuiltinOperand Number)
  /-- `++` and `--`, in front or behind. -/
  | increment (expression : Expr) (delta : Increment) (return_old : Bool)
  /-- The target of `getline`, `sub` and `gsub`. -/
  | string_result (text : Text)
  /-- `-v`, which is a number where the text is one. -/
  | preassigned_string (text : Text)
  | preassigned_number (value : Number)

section Write

variable {Number : Type} (doubles : ComputingDoubles Number) (state : LoweringState) (name : Name)
  (before : BuiltinRuntime Number)

/-- The code of a write. -/
def BuiltinWrite.code : BuiltinWrite Number → Code (BuiltinValue Number) Unit
  | .assignment op operand => lower_runtime_assignment_statement state (.name name) op operand.lowered
  | .assignment_expression expression op operand =>
    lower_runtime_assignment_expression state expression (.name name) op operand.lowered >>= fun _ => pure ()
  | .string_assignment expression operand =>
    lower_runtime_string_assignment state expression (.name name) operand.lowered >>= fun _ => pure ()
  | .increment expression delta return_old =>
    lower_runtime_increment_expression state expression (some (.name name)) delta return_old >>= fun _ => pure ()
  | .string_result text => lower_runtime_assign_string_lvalue state (.name name) text
  | .preassigned_string text => lower_runtime_scalar_name name >>= fun scalar_name =>
    emit_void .qk_scalar_set_string (scalar_name, text, ())
  | .preassigned_number value => lower_runtime_scalar_name name >>= fun scalar_name =>
    emit_void .qk_scalar_set_number_inline (scalar_name, value, ())

/-- The number a compound assignment makes of the current one. -/
def ComputingDoubles.combined (op : AssignOp) (current update : Number) : Number :=
  match op with
  | .plain => update
  | .add => doubles.arithmetic .fadd current update
  | .sub => doubles.arithmetic .fsub current update
  | .mul => doubles.arithmetic .fmul current update
  | .div => doubles.arithmetic .fdiv current update
  | .mod =>
    doubles.arithmetic .fsub current
      (doubles.arithmetic .fmul (doubles.truncated (doubles.arithmetic .fdiv current update)) update)
  | .pow => doubles.arithmetic .llvm_pow current update

/-- The value an assignment gives its target, whose current number is given. -/
def assigned_value (op : AssignOp) (operand : BuiltinOperand Number) (current : Number) : StoredValue Number :=
  match (if op = .plain then copies_scalar state name operand.expression else none) with
  | some source => before.runtime.value source
  | none =>
    if op = .plain ∧ runtime_assignment_preserves_string state operand.expression then .string operand.text
    else .number (doubles.combined op current operand.number)

/-- The value a write gives its target, whose current number is given. A string assignment of an operand that is no
string is not lowered. -/
def BuiltinWrite.value (current : Number) : BuiltinWrite Number → Option (StoredValue Number)
  | .assignment op operand | .assignment_expression _ op operand =>
    some (assigned_value doubles state name before op operand current)
  | .string_assignment _ operand =>
    if runtime_assignment_preserves_string state operand.expression then some (.string operand.text) else none
  | .increment _ delta _ => some (.number (doubles.arithmetic delta.opcode current (doubles.of_int 1)))
  | .string_result text | .preassigned_string text => some (.string text)
  | .preassigned_number value => some (.number value)

variable {doubles} {state} {name} {before}

/-- The runtime after a value is stored in a scalar. -/
def BuiltinRuntime.stored (before : BuiltinRuntime Number) (doubles : ComputingDoubles Number) (name : Name)
    (value : StoredValue Number) : BuiltinRuntime Number :=
  { before with runtime := doubles.store before.runtime name value }

theorem run_combine (op : AssignOp) (current update : Number) :
    run_builtin doubles (combine_numeric_assignment op current update) before =
      some (doubles.combined op current update, before) := by
  cases op <;> rfl

theorem run_builtin_store_number (hname : name ∈ BUILTIN_SCALARS) (value : Number) :
    run_builtin doubles (store_runtime_number state name name.toList value) before =
      some ((), before.stored doubles name (.number value)) := by
  unfold store_runtime_number
  rw [slot_index_builtin hname]
  change run_builtin doubles (emit_void .qk_scalar_set_number_inline (name.toList, value, ())) before = _
  rw [run_builtin_emit_void, builtin_set_number]
  rfl

/-- The number of a scalar, a new number made of it, and the store. -/
theorem run_update (hname : name ∈ BUILTIN_SCALARS) (op : AssignOp) (update : Number) :
    run_builtin doubles (lower_runtime_current_number state name name.toList >>= fun current =>
        combine_numeric_assignment op current update >>= fun value =>
          store_runtime_number state name name.toList value) before =
      some ((), before.stored doubles name (.number
        (doubles.combined op (doubles.qk_scalar_get_number before.runtime name) update))) := by
  rw [run_builtin_bind, current_number_builtin hname, run_builtin_emit, builtin_get_number, Option.bind_some,
    run_builtin_bind, run_combine, Option.bind_some]
  exact run_builtin_store_number hname _

theorem run_copy (source : Name) :
    run_builtin doubles (lower_runtime_scalar_name source >>= fun source_name =>
        emit_void .qk_scalar_copy (name.toList, source_name, ())) before =
      some ((), before.stored doubles name (before.runtime.value source)) := by
  rw [run_scalar_name, run_builtin_emit_void, builtin_copy]
  rfl

theorem run_set_string (text : Text) :
    run_builtin doubles (emit_void .qk_scalar_set_string (name.toList, text, ())) before =
      some ((), before.stored doubles name (.string text)) := by
  rw [run_builtin_emit_void, builtin_set_string]
  rfl

theorem run_assignment (hplain : PlainBuiltins state) (hname : name ∈ BUILTIN_SCALARS) (op : AssignOp)
    (operand : BuiltinOperand Number) :
    run_builtin doubles (lower_runtime_assignment_statement state (.name name) op operand.lowered) before =
      some ((), before.stored doubles name (assigned_value doubles state name before op operand
        (doubles.qk_scalar_get_number before.runtime name))) := by
  unfold lower_runtime_assignment_statement
  dsimp only
  rw [hplain.param name hname, reusable_builtin hname, numeric_slot_builtin hname]
  simp only [Bool.false_eq_true, or_self, ↓reduceIte]
  unfold lower_runtime_scalar_assignment_statement assigned_value
  rw [run_scalar_name]
  have hlowered : (if op = .plain then copies_scalar state name operand.lowered.expression else none) =
      if op = .plain then copies_scalar state name operand.expression else none := rfl
  rw [hlowered]
  cases (if op = .plain then copies_scalar state name operand.expression else none) with
  | some source =>
    dsimp only
    unfold lower_runtime_copy_statement
    rw [slot_index_builtin hname]
    exact run_copy source
  | none =>
    dsimp only
    by_cases hstring : op = .plain ∧ runtime_assignment_preserves_string state operand.lowered.expression
    · rw [if_pos hstring, if_pos (show op = .plain ∧ runtime_assignment_preserves_string state operand.expression from
        hstring)]
      unfold lower_runtime_string_to_scalar_statement
      rw [slot_index_builtin hname]
      exact run_set_string operand.text
    · rw [if_neg hstring, if_neg (show ¬ (op = .plain ∧ runtime_assignment_preserves_string state operand.expression) from
        hstring)]
      exact run_update hname op operand.number

/-- The number of the target after a write is read without changing it. -/
theorem run_builtin_assignment_expression (hplain : PlainBuiltins state) (hname : name ∈ BUILTIN_SCALARS) (expression : Expr)
    (op : AssignOp) (operand : BuiltinOperand Number) :
    ∃ number, run_builtin doubles
        (lower_runtime_assignment_expression state expression (.name name) op operand.lowered) before =
      some (number, before.stored doubles name (assigned_value doubles state name before op operand
        (doubles.qk_scalar_get_number before.runtime name))) := by
  unfold lower_runtime_assignment_expression
  dsimp only
  rw [hplain.param name hname, reusable_builtin hname, numeric_slot_builtin hname]
  simp only [Bool.false_eq_true, or_self, ↓reduceIte]
  unfold lower_runtime_scalar_assignment_expression assigned_value
  rw [run_scalar_name]
  have hlowered : (if op = .plain then copies_scalar state name operand.lowered.expression else none) =
      if op = .plain then copies_scalar state name operand.expression else none := rfl
  rw [hlowered]
  cases (if op = .plain then copies_scalar state name operand.expression else none) with
  | some source =>
    dsimp only
    unfold lower_runtime_copy_expression
    rw [slot_index_builtin hname]
    have hcopy : run_builtin doubles (lower_runtime_scalar_name source >>= fun source_name =>
        emit_void .qk_scalar_copy (name.toList, source_name, ())) before =
      some ((), before.stored doubles name (before.runtime.value source)) := run_copy source
    rw [run_scalar_name] at hcopy
    rw [run_scalar_name, run_builtin_bind, run_builtin_performs, Option.bind_some, run_builtin_bind, hcopy]
    exact ⟨_, run_builtin_emit ..⟩
  | none =>
    dsimp only
    by_cases hstring : op = .plain ∧ runtime_assignment_preserves_string state operand.lowered.expression
    · rw [if_pos hstring, if_pos (show op = .plain ∧ runtime_assignment_preserves_string state operand.expression from
        hstring)]
      unfold lower_runtime_string_to_scalar_expression
      rw [slot_index_builtin hname]
      change ∃ number, run_builtin doubles (emit_void .qk_scalar_set_string (name.toList, operand.text, ()) >>= fun _ =>
        emit .qk_scalar_get_number_inline (name.toList, ())) before = _
      rw [run_builtin_bind, run_set_string]
      exact ⟨_, run_builtin_emit ..⟩
    · rw [if_neg hstring, if_neg (show ¬ (op = .plain ∧ runtime_assignment_preserves_string state operand.expression) from
        hstring), run_builtin_bind, current_number_builtin hname, run_builtin_emit, builtin_get_number, Option.bind_some]
      change ∃ number, run_builtin doubles (combine_numeric_assignment op _ operand.number >>= fun value =>
        performs expression >>= fun _ => store_runtime_number state name name.toList value >>= fun _ => pure value)
          before = _
      rw [run_builtin_bind, run_combine, Option.bind_some, run_builtin_bind, run_builtin_performs, Option.bind_some,
        run_builtin_bind, run_builtin_store_number hname]
      exact ⟨_, rfl⟩

theorem run_builtin_increment (hplain : PlainBuiltins state) (hname : name ∈ BUILTIN_SCALARS) (expression : Expr)
    (delta : Increment) (return_old : Bool) :
    ∃ number, run_builtin doubles
        (lower_runtime_increment_expression state expression (some (.name name)) delta return_old) before =
      some (number, before.stored doubles name (.number
        (doubles.arithmetic delta.opcode (doubles.qk_scalar_get_number before.runtime name) (doubles.of_int 1)))) := by
  unfold lower_runtime_increment_expression
  dsimp only
  rw [hplain.param name hname, reusable_builtin hname, numeric_slot_builtin hname]
  simp only [Bool.false_eq_true, or_self, ↓reduceIte]
  rw [run_scalar_name, run_builtin_bind, current_number_builtin hname, run_builtin_emit, builtin_get_number,
    Option.bind_some]
  have hincremented (old_value : Number) : run_builtin doubles (lower_runtime_incremented delta old_value) before =
      some (doubles.arithmetic delta.opcode old_value (doubles.of_int 1), before) := by
    cases delta <;> rfl
  rw [run_builtin_bind, hincremented, Option.bind_some, run_builtin_bind, run_builtin_performs, Option.bind_some,
    run_builtin_bind, run_builtin_store_number hname]
  exact ⟨_, rfl⟩

/-- A string assignment reads the scalar back, which may keep its text. -/
theorem run_builtin_string_assignment (hplain : PlainBuiltins state) (hname : name ∈ BUILTIN_SCALARS) (expression : Expr)
    (operand : BuiltinOperand Number)
    (hstring : runtime_assignment_preserves_string state operand.expression = true) :
    run_builtin doubles (lower_runtime_string_assignment state expression (.name name) operand.lowered) before =
      builtin_op doubles (before.stored doubles name (.string operand.text)) .qk_scalar_get_inline (name.toList, ()) := by
  unfold lower_runtime_string_assignment
  dsimp only
  rw [if_neg (by simpa [BuiltinOperand.lowered] using hstring), hplain.param name hname, reusable_builtin hname]
  change run_builtin doubles (performs expression >>= fun _ =>
    lower_runtime_string_to_scalar state name operand.text) before = _
  rw [run_builtin_bind, run_builtin_performs, Option.bind_some]
  unfold lower_runtime_string_to_scalar
  rw [slot_index_builtin hname, run_scalar_name, run_builtin_bind, run_set_string]
  exact run_builtin_emit ..

/-- Every write stores its value in the scalar table; a text it reads back may be kept there. -/
theorem run_write (hplain : PlainBuiltins state) (hname : name ∈ BUILTIN_SCALARS) (write : BuiltinWrite Number) :
    match write.value doubles state name before (doubles.qk_scalar_get_number before.runtime name) with
    | none => run_builtin doubles (write.code state name) before = none
    | some value => ∃ after, run_builtin doubles (write.code state name) before = some ((), after) ∧
        (after = before.stored doubles name value ∨
          after = { before.stored doubles name value with
            runtime := (doubles.qk_scalar_string_view (before.stored doubles name value).runtime name).2 }) := by
  cases write with
  | assignment op operand => exact ⟨_, run_assignment hplain hname op operand, .inl rfl⟩
  | assignment_expression expression op operand =>
    obtain ⟨number, hrun⟩ := run_builtin_assignment_expression hplain hname expression op operand
    refine ⟨_, ?_, .inl rfl⟩
    change run_builtin doubles (_ >>= fun _ => pure ()) before = _
    rw [run_builtin_bind, hrun]
    rfl
  | string_assignment expression operand =>
    dsimp only [BuiltinWrite.value, BuiltinWrite.code]
    split_ifs with hstring
    · refine ⟨_, ?_, .inr rfl⟩
      rw [run_builtin_bind, run_builtin_string_assignment hplain hname expression operand hstring, builtin_get]
      rfl
    · unfold lower_runtime_string_assignment
      dsimp only
      rw [if_pos (by simpa [BuiltinOperand.lowered] using hstring)]
      rfl
  | increment expression delta return_old =>
    obtain ⟨number, hrun⟩ := run_builtin_increment hplain hname expression delta return_old
    refine ⟨_, ?_, .inl rfl⟩
    change run_builtin doubles (_ >>= fun _ => pure ()) before = _
    rw [run_builtin_bind, hrun]
    rfl
  | string_result text =>
    refine ⟨_, ?_, .inl rfl⟩
    change run_builtin doubles (lower_runtime_assign_string_lvalue state (.name name) text) before = _
    unfold lower_runtime_assign_string_lvalue
    dsimp only
    rw [hplain.param name hname, slot_index_builtin hname]
    change run_builtin doubles (lower_runtime_scalar_name name >>= fun scalar_name =>
      emit_void .qk_scalar_set_string (scalar_name, text, ())) before = _
    rw [run_scalar_name, run_set_string]
  | preassigned_string text => exact ⟨_, (run_scalar_name _ name).trans (run_set_string text), .inl rfl⟩
  | preassigned_number value =>
    refine ⟨_, (run_scalar_name _ name).trans ?_, .inl rfl⟩
    rw [run_builtin_emit_void, builtin_set_number]
    rfl

end Write

end quawk
