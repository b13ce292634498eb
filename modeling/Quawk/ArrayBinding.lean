import Quawk.ScalarWrites
import Quawk.NumberText

open StructuredCode (Operands)
open StructuredCode.Code (emit)

namespace quawk

open Numeral ( qk_parse_awk_numeric_prefix)

/-- An array: one of the program, or the one a formal has for itself in one invocation. -/
inductive ArrayId where
  | global (name : Text)
  | own (invocation : Nat) (param : Nat)
  deriving DecidableEq, Repr

/-- A call of a user function that is being executed; every call of a run has a number of its own, so that an
array of its own starts empty and is seen by no other call. -/
structure Invocation where
  number : Nat
  definition : FunctionDef
  arguments : List Expr

/-- The array a name stands for, the latest call first: a formal stands for what its argument names in the
caller, or for an array of its own. -/
def bound_array : List Invocation → Name → ArrayId
  | [], name => .global name.toList
  | invocation :: callers, name =>
    match invocation.definition.params.idxOf? name with
    | none => .global name.toList
    | some param =>
      match invocation.arguments[param]? with
      | some (.name argument) => bound_array callers argument
      | _ => .own invocation.number param

/-- The value of an element: its text and its number. -/
abbrev Element := Text × Numeral.Value

/-- The elements of an array, the last added first. -/
abbrev Table := List (Text × Element)

def element_of_text (text : Text) : Element := (text, qk_parse_awk_numeric_prefix text)

def qk_array_get (table : Table) (key : Text) : Text :=
  ((table.find? fun cell => cell.1 == key).map fun cell => cell.2.1).getD []

def qk_array_get_number (table : Table) (key : Text) : Numeral.Value :=
  ((table.find? fun cell => cell.1 == key).map fun cell => cell.2.2).getD (.finite 0)

def replace_cell (key : Text) (value : Element) : Table → Option Table
  | [] => none
  | cell :: table =>
    if cell.1 == key then some ((cell.1, value) :: table) else (replace_cell key value table).map (cell :: ·)

def qk_array_set_cell (table : Table) (key : Text) (value : Element) : Table :=
  (replace_cell key value table).getD ((key, value) :: table)

def qk_array_delete (table : Table) (key : Text) : Table := table.eraseP fun cell => cell.1 == key

def qk_array_contains (table : Table) (key : Text) : Bool := table.any fun cell => cell.1 == key

def qk_array_first_key (table : Table) : Option Text := table.head?.map Prod.fst

def qk_array_next_key (table : Table) (key : Text) : Option Text :=
  (table.dropWhile fun cell => !(cell.1 == key)).tail.head?.map Prod.fst

/-- `qk_split_into_array`, with the pieces the text is split into. -/
def split_table (pieces : List Text) : Table :=
  pieces.zipIdx.foldl (fun table (piece, index) => qk_array_set_cell table (decimal_text (index + 1)) (element_of_text piece)) []

/-- What a program does with an array. `assign` and `assign_number` are assignment statements; a `target` is written by
`getline`, and by `sub` and `gsub` after they read it. -/
inductive ArrayOperation where
  | read (key : Text)
  | read_number (key : Text)
  | assign (key value : Text)
  | assign_number (op : AssignOp) (key : Text) (value : Numeral.Value)
  | assign_expression (key value : Text)
  | assign_number_expression (op : AssignOp) (key : Text) (value : Numeral.Value)
  | increment (delta : Increment) (return_old : Bool) (key : Text)
  | target (key value : Text)
  | delete (key : Text)
  | clear
  | contains (key : Text)
  | first_key
  | next_key (key : Text)
  | split (text : Text) (separator : Option Text)

def ArrayOperation.isAssignment : ArrayOperation → Bool
  | .assign _ _ | .assign_number _ _ _ => true
  | _ => false

/-- What the program learns from an operation. -/
inductive Reply where
  | text (text : Option Text)
  | truth (value : Bool)
  | number (value : Numeral.Value)
  | nothing

section Operations

-- The number-to-text conversion under the current `CONVFMT`, and the splitting of texts, with a separator or without.
variable (format_number : Numeral.Value → Text) (arithmetic : Arithmetic) (split_pieces : Option Text → Text → List Text)

def element_of_number (value : Numeral.Value) : Element := (format_number value, value)

/-- What an operation does to an array. -/
def ArrayOperation.apply (table : Table) : ArrayOperation → Reply × Table
  | .read key => (.text (some (qk_array_get table key)), table)
  | .read_number key => (.number (qk_array_get_number table key), table)
  | .assign key value => (.nothing, qk_array_set_cell table key (element_of_text value))
  | .assign_number op key value =>
    (.nothing, qk_array_set_cell table key
      (element_of_number format_number (combined_number arithmetic op (qk_array_get_number table key) value)))
  | .assign_expression key value => (.text (some value), qk_array_set_cell table key (element_of_text value))
  | .assign_number_expression op key value =>
    let stored := combined_number arithmetic op (qk_array_get_number table key) value
    (.number stored, qk_array_set_cell table key (element_of_number format_number stored))
  | .increment delta return_old key =>
    let old_value := qk_array_get_number table key
    let new_value := arithmetic delta.opcode old_value (.finite 1)
    (.number (if return_old then old_value else new_value),
      qk_array_set_cell table key (element_of_number format_number new_value))
  | .target key value => (.nothing, qk_array_set_cell table key (element_of_text value))
  | .delete key => (.nothing, qk_array_delete table key)
  | .clear => (.nothing, [])
  | .contains key => (.truth (qk_array_contains table key), table)
  | .first_key => (.text (qk_array_first_key table), table)
  | .next_key key => (.text (qk_array_next_key table key), table)
  | .split text separator =>
    (.number (.finite (split_pieces separator text).length), split_table (split_pieces separator text))

/-- The arrays of the runtime, by their names, and the parameters of the running function. -/
structure ArrayState where
  arrays : Text → Table
  params : Nat → Option Text

abbrev ArrayValue : Ty → Type
  | .double => Numeral.Value
  | .i1 => Bool
  | .ptr => Option Text
  | _ => Unit

def ArrayState.set (state : ArrayState) (name : Text) (table : Table) : ArrayState :=
  { state with arrays := Function.update state.arrays name table }

/-- The instructions of operations on arrays, which find an array by its name. -/
def array_op (state : ArrayState) : {types : List Ty} → {type : Ty} → Op types type → Operands ArrayValue types →
    Option (ArrayValue type × ArrayState)
  | _, _, .string_constant text, () => some (some text, state)
  | _, _, .null_ptr, () => some (none, state)
  | _, _, .number .one, () => some (.finite 1, state)
  | _, _, .fadd, (left, right, ()) => some (arithmetic .fadd left right, state)
  | _, _, .fsub, (left, right, ()) => some (arithmetic .fsub left right, state)
  | _, _, .fmul, (left, right, ()) => some (arithmetic .fmul left right, state)
  | _, _, .fdiv, (left, right, ()) => some (arithmetic .fdiv left right, state)
  | _, _, .llvm_pow, (left, right, ()) => some (arithmetic .llvm_pow left right, state)
  | _, _, .llvm_trunc, (value, ()) => some (write_op.truncated value, state)
  | _, _, .qk_capture_string_arg_inline, (text, ()) => some (text, state)
  | _, _, .qk_format_number, (value, ()) => some (some (format_number value), state)
  | _, _, .qk_parse_number_text, (text, ()) => some ( qk_parse_awk_numeric_prefix (text.getD []), state)
  | _, _, .load_parameter slot, () => some (state.params slot, state)
  | _, _, .store_parameter slot, (value, ()) =>
    some ((), { state with params := Function.update state.params slot value })
  | _, _, .qk_array_get, (some name, some key, ()) => some (some (qk_array_get (state.arrays name) key), state)
  | _, _, .qk_array_get_number, (some name, some key, ()) =>
    some (qk_array_get_number (state.arrays name) key, state)
  | _, _, .qk_array_set_string, (some name, some key, value, ()) =>
    some ((), state.set name (qk_array_set_cell (state.arrays name) key (element_of_text (value.getD []))))
  | _, _, .qk_array_set_number, (some name, some key, value, ()) =>
    some ((), state.set name (qk_array_set_cell (state.arrays name) key (element_of_number format_number value)))
  | _, _, .qk_array_delete, (some name, some key, ()) =>
    some ((), state.set name (qk_array_delete (state.arrays name) key))
  | _, _, .qk_array_clear, (some name, ()) => some ((), state.set name [])
  | _, _, .qk_array_contains, (some name, some key, ()) =>
    some (qk_array_contains (state.arrays name) key, state)
  | _, _, .qk_array_first_key, (some name, ()) => some (qk_array_first_key (state.arrays name), state)
  | _, _, .qk_array_next_key, (some name, some key, ()) =>
    some (qk_array_next_key (state.arrays name) key, state)
  | _, _, .qk_split_into_array, (some text, some name, separator, ()) =>
    some (.finite (split_pieces separator text).length, state.set name (split_table (split_pieces separator text)))
  | _, _, _, _ => none

def run_array_code {α : Type} : Code ArrayValue α → ArrayState → Option (α × ArrayState)
  | .done value, state => some (value, state)
  | .op f operands next, state =>
    (array_op format_number arithmetic split_pieces state f operands).bind fun (value, state) =>
      run_array_code (next value) state
  | .note _ next, state => run_array_code next state
  | _, _ => none

/-- A text or a number as an operand. -/
def text_operand (expression : Expr) (text : Text) : Lowered ArrayValue :=
  ⟨expression, .crash, pure (some text), .crash⟩

def number_operand (expression : Expr) (value : Numeral.Value) : Lowered ArrayValue :=
  ⟨expression, pure value, .crash, .crash⟩

/-- The code an operation on the array of this name is lowered to. -/
def ArrayOperation.code (state : LoweringState) (name : Name) : ArrayOperation → Code ArrayValue Reply
  | .read key => do
    let text ← (lowered_array_element state (.array_index name (.string_literal key) []) name (pure (some key))).string
    pure (.text text)
  | .read_number key => do
    let number ←
      (lowered_array_element state (.array_index name (.string_literal key) []) name (pure (some key))).numeric
    pure (.number number)
  | .assign key value => do
    lower_runtime_assignment_statement state (.array name (pure (some key))) .plain
      (text_operand (.string_literal value) value)
    pure .nothing
  | .assign_number op key value => do
    lower_runtime_assignment_statement state (.array name (pure (some key))) op
      (number_operand (.numeric_literal []) value)
    pure .nothing
  | .assign_expression key value => do
    let text ← lower_runtime_string_assignment state (.name name) (.array name (pure (some key)))
      (text_operand (.string_literal value) value)
    pure (.text text)
  | .assign_number_expression op key value => do
    let number ← lower_runtime_assignment_expression state (.name name) (.array name (pure (some key))) op
      (number_operand (.numeric_literal []) value)
    pure (.number number)
  | .increment delta return_old key => do
    let number ← lower_runtime_increment_expression state (.name name) (some (.array name (pure (some key)))) delta
      return_old
    pure (.number number)
  | .target key value => do
    lower_runtime_assign_string_lvalue state (.array name (pure (some key))) (some value)
    pure .nothing
  | .delete key => do
    lower_runtime_delete_statement (.array name (pure (some key)))
    pure .nothing
  | .clear => do
    lower_runtime_delete_statement (.name name)
    pure .nothing
  | .contains key => do
    let result ← lower_runtime_in_expression (text_operand (.string_literal key) key) (text_operand (.name name) [])
    pure (.truth result)
  | .first_key => do
    let key ← emit .qk_array_first_key (some name.toList, ())
    pure (.text key)
  | .next_key key => do
    let next_key ← emit .qk_array_next_key (some name.toList, some key, ())
    pure (.text next_key)
  | .split text separator => do
    let separators := separator.toList.map fun separator => text_operand (.string_literal separator) separator
    let count ← lower_runtime_split_builtin
      (text_operand (.string_literal text) text :: text_operand (.name name) [] :: separators)
    pure (.number count)

/-- An element reads what it was set to. -/
theorem qk_array_get_set (table : Table) (key : Text) (value : Element) :
    qk_array_get (qk_array_set_cell table key value) key = value.1 := by
  have hreplaced (table : Table) : (∀ cell ∈ table, ¬ cell.1 = key) ∧ replace_cell key value table = none ∨
      ∃ replaced, replace_cell key value table = some replaced ∧ qk_array_get replaced key = value.1 := by
    induction table with
    | nil => exact Or.inl ⟨fun _ hmem => (nomatch hmem), rfl⟩
    | cons cell table ih =>
      by_cases hkey : cell.1 = key
      · exact Or.inr ⟨(cell.1, value) :: table, by simp [replace_cell, hkey], by simp [qk_array_get, hkey]⟩
      · obtain ⟨hother, hnone⟩ | ⟨replaced, hsome, hget⟩ := ih
        · refine Or.inl ⟨fun other hmem => ?_, by simp [replace_cell, hkey, hnone]⟩
          obtain rfl | hmem := List.mem_cons.mp hmem
          · exact hkey
          · exact hother other hmem
        · refine Or.inr ⟨cell :: replaced, by simp [replace_cell, hkey, hsome], ?_⟩
          simpa [qk_array_get, hkey] using hget
  unfold qk_array_set_cell
  obtain ⟨_, hnone⟩ | ⟨replaced, hsome, hget⟩ := hreplaced table
  · simp [hnone, qk_array_get]
  · simpa [hsome] using hget

theorem ArrayState.set_self (state : ArrayState) (name : Text) : state.set name (state.arrays name) = state := by
  simp [ArrayState.set]

/-- The code acts on the array of the name it was written with. -/
theorem run_code_by_name {op : ArrayOperation} {state : LoweringState} {name : Name}
    (h : op.isAssignment = true → state.is_function_param_string name = false) (s : ArrayState) :
    run_array_code format_number arithmetic split_pieces (op.code state name) s =
      some ((op.apply format_number arithmetic split_pieces (s.arrays name.toList)).1,
        s.set name.toList (op.apply format_number arithmetic split_pieces (s.arrays name.toList)).2) := by
  cases op with
  | read | read_number | contains | first_key | next_key =>
    simp only [ArrayOperation.apply, ArrayState.set_self]
    rfl
  | assign =>
    simp only [ArrayOperation.code, lower_runtime_assignment_statement, h rfl]
    rfl
  | assign_number op =>
    simp only [ArrayOperation.code, lower_runtime_assignment_statement, h rfl]
    cases op <;> rfl
  | assign_expression key value =>
    have hget := qk_array_get_set (s.arrays name.toList) key (element_of_text value)
    have hread : qk_array_get ((s.set name.toList
        (qk_array_set_cell (s.arrays name.toList) key (element_of_text value))).arrays name.toList) key = value := by
      simpa [ArrayState.set, element_of_text] using hget
    exact congrArg some (Prod.ext (congrArg (fun text => Reply.text (some text)) hread) rfl)
  | assign_number_expression op => cases op <;> rfl
  | increment delta => cases delta <;> rfl
  | target | delete | clear => rfl
  | split text separator => cases separator <;> rfl

/-- An assignment to an element of a parameter goes to the parameter. -/
theorem run_code_parameter {op : ArrayOperation} {state : LoweringState} {name : Name}
    (hassign : op.isAssignment = true) (hparam : state.is_function_param_string name = true) (s : ArrayState) :
    ∃ params, run_array_code format_number arithmetic split_pieces (op.code state name) s =
      some (.nothing, { s with params }) := by
  obtain ⟨slot, hslot⟩ := Option.isSome_iff_exists.mp hparam
  cases op with
  | assign =>
    simp only [ArrayOperation.code, lower_runtime_assignment_statement, hparam]
    simp only [if_true, lower_runtime_param_assignment_statement, store_runtime_function_param_string,
      load_runtime_function_param_string, hslot]
    exact ⟨_, rfl⟩
  | assign_number op =>
    simp only [ArrayOperation.code, lower_runtime_assignment_statement, hparam]
    simp only [if_true, lower_runtime_param_assignment_statement, store_runtime_function_param_string,
      load_runtime_function_param_string, hslot]
    cases op <;> exact ⟨_, rfl⟩
  | _ => cases hassign

/-- The state a function is lowered in has its formals; a phase has none. -/
def call_state (state : LoweringState) (calls : List Invocation) : LoweringState :=
  { state with
    function_param_strings := ((calls.head?.map fun invocation => invocation.definition.params).getD []).zipIdx }

/-- Run an operation of the code on all arrays; the runtime knows those of the program only. -/
def run_operation (state : LoweringState) (name : Name) (op : ArrayOperation) (tables : ArrayId → Table)
    (params : Nat → Option Text) : Option (Reply × (ArrayId → Table)) :=
  (run_array_code format_number arithmetic split_pieces (op.code state name) ⟨fun name => tables (.global name), params⟩).map
    fun (reply, after) => (reply, fun
      | .global name => after.arrays name
      | .own invocation param => tables (.own invocation param))

/-- The operation acts on exactly the array that is bound to the name, whatever the arrays hold. -/
def ActsOnBound (state : LoweringState) (calls : List Invocation) (name : Name) (op : ArrayOperation) : Prop :=
  ∀ tables params, run_operation format_number arithmetic split_pieces (call_state state calls) name op tables params =
    some ((op.apply format_number arithmetic split_pieces (tables (bound_array calls name))).1,
      Function.update tables (bound_array calls name)
        (op.apply format_number arithmetic split_pieces (tables (bound_array calls name))).2)

variable {format_number : Numeral.Value → Text} {arithmetic : Arithmetic}
  {split_pieces : Option Text → Text → List Text}

theorem run_operation_by_name {op : ArrayOperation} {state : LoweringState} {name : Name}
    (h : op.isAssignment = true → state.is_function_param_string name = false) (tables : ArrayId → Table)
    (params : Nat → Option Text) : run_operation format_number arithmetic split_pieces state name op tables params =
      some ((op.apply format_number arithmetic split_pieces (tables (.global name.toList))).1,
        Function.update tables (.global name.toList)
          (op.apply format_number arithmetic split_pieces (tables (.global name.toList))).2) := by
  unfold run_operation
  rw [run_code_by_name _ _ _ h, Option.map_some]
  refine congrArg some (Prod.ext rfl (funext fun id => ?_))
  cases id with
  | global other =>
    by_cases hother : other = name.toList
    · subst hother
      simp [ArrayState.set]
    · have hne : ArrayId.global other ≠ .global name.toList := fun heq => hother (ArrayId.global.inj heq)
      simp [ArrayState.set, hother]
  | own invocation param => simp

theorem run_operation_parameter {op : ArrayOperation} {state : LoweringState} {name : Name}
    (hassign : op.isAssignment = true) (hparam : state.is_function_param_string name = true)
    (tables : ArrayId → Table) (params : Nat → Option Text) :
    run_operation format_number arithmetic split_pieces state name op tables params = some (.nothing, tables) := by
  unfold run_operation
  obtain ⟨after, hrun⟩ := run_code_parameter format_number arithmetic split_pieces hassign hparam
    ⟨fun name => tables (.global name), params⟩
  rw [hrun, Option.map_some]
  refine congrArg some (Prod.ext rfl (funext fun id => ?_))
  cases id <;> rfl

/-- Every operation tells some array from one that stays as it is beside an empty one. -/
theorem apply_notices (format_number : Numeral.Value → Text) (arithmetic : Arithmetic)
    (split_pieces : Option Text → Text → List Text) (op : ArrayOperation) : ∃ table,
    (op.apply format_number arithmetic split_pieces table).1 ≠ (op.apply format_number arithmetic split_pieces []).1 ∨
      (op.apply format_number arithmetic split_pieces table).2 ≠ table := by
  cases op with
  | read key => exact ⟨[(key, ['x'], .finite 0)], Or.inl (by simp [ArrayOperation.apply, qk_array_get])⟩
  | read_number key =>
    exact ⟨[(key, [], .finite 1)], Or.inl (by simp [ArrayOperation.apply, qk_array_get_number])⟩
  | assign | assign_number | assign_expression | assign_number_expression | increment | target =>
    exact ⟨[], Or.inr (by simp [ArrayOperation.apply, qk_array_set_cell, replace_cell])⟩
  | delete key => exact ⟨[(key, [], .finite 0)], Or.inr (by simp [ArrayOperation.apply, qk_array_delete])⟩
  | clear => exact ⟨[([], [], .finite 0)], Or.inr (by simp [ArrayOperation.apply])⟩
  | contains key => exact ⟨[(key, [], .finite 0)], Or.inl (by simp [ArrayOperation.apply, qk_array_contains])⟩
  | first_key => exact ⟨[([], [], .finite 0)], Or.inl (by simp [ArrayOperation.apply, qk_array_first_key])⟩
  | next_key key =>
    exact ⟨[(key, [], .finite 0), ([], [], .finite 0)], Or.inl (by simp [ArrayOperation.apply, qk_array_next_key])⟩
  | split text separator =>
    by_cases hempty : split_table (split_pieces separator text) = []
    · exact ⟨[([], [], .finite 0)], Or.inr (by simp [ArrayOperation.apply, hempty])⟩
    · exact ⟨[], Or.inr hempty⟩

/-- In whatever chain of calls, an operation acts on the array bound to the name exactly where that is the array
of the program with the same name, and the operation is no assignment statement to an element of a formal. -/
theorem acts_on_bound_iff (format_number : Numeral.Value → Text) (arithmetic : Arithmetic)
    (split_pieces : Option Text → Text → List Text) (state : LoweringState)
    (calls : List Invocation) (name : Name) (op : ArrayOperation) :
    ActsOnBound format_number arithmetic split_pieces state calls name op ↔
      bound_array calls name = .global name.toList ∧
        (op.isAssignment = true → (call_state state calls).is_function_param_string name = false) := by
  constructor
  · intro h
    by_cases hparam : op.isAssignment = true ∧ (call_state state calls).is_function_param_string name = true
    · -- The assignment is lost: no array changes.
      have hrun := h (fun _ => []) fun _ => none
      rw [run_operation_parameter hparam.1 hparam.2] at hrun
      have htable := congrFun (Prod.mk.inj (Option.some.inj hrun)).2 (bound_array calls name)
      rw [Function.update_self] at htable
      cases op with
      | assign | assign_number => simp [ArrayOperation.apply, qk_array_set_cell, replace_cell] at htable
      | _ => cases hparam.1
    · have hname : op.isAssignment = true → (call_state state calls).is_function_param_string name = false :=
        fun hassign => Bool.eq_false_iff.mpr fun htrue => hparam ⟨hassign, htrue⟩
      refine ⟨?_, hname⟩
      by_contra hne
      obtain ⟨table, hnotices⟩ := apply_notices format_number arithmetic split_pieces op
      have hrun := h (Function.update (fun _ => []) (.global name.toList) table) fun _ => none
      rw [run_operation_by_name hname] at hrun
      obtain ⟨hreply, htables⟩ := Prod.mk.inj (Option.some.inj hrun)
      have htable := congrFun htables (.global name.toList)
      rw [Function.update_self] at hreply htable
      rw [Function.update_of_ne hne] at hreply
      rw [Function.update_of_ne (Ne.symm hne), Function.update_self] at htable
      exact hnotices.elim (fun hreply' => hreply' hreply) fun htable' => htable' htable
  · rintro ⟨hbound, hname⟩ tables params
    rw [run_operation_by_name hname, hbound]

end Operations

/-- `function f(a) { return a[1] }` -/
def read_first : FunctionDef := ⟨"f", ["a"], [.return_stmt (some (.array_index "a" (.numeric_literal ['1']) []))]⟩

/-- In `f(x)` the formal `a` is the array `x`, and `a[1]` reads the array of the program named `a`. -/
theorem formal_misses_argument :
    ¬ ∀ (format_number : Numeral.Value → Text) (arithmetic : Arithmetic)
    (split_pieces : Option Text → Text → List Text) (state : LoweringState)
      (calls : List Invocation) (name : Name) (op : ArrayOperation),
        ActsOnBound format_number arithmetic split_pieces state calls name op := by
  intro h
  have hacts := h (fun _ => []) (fun _ _ _ => .nan) (fun _ _ => []) ⟨[], ⟨[]⟩, fun _ => .unknown, ["a", "x"], [read_first], ∅, [], []⟩
    [⟨1, read_first, [.name "x"]⟩] "a" (.read ['1'])
    (Function.update (fun _ => []) (.global ['x']) [(['1'], ['v'], .finite 0)]) fun _ => none
  rw [run_operation_by_name (by intro hassign; cases hassign)] at hacts
  have hreply := (Prod.mk.inj (Option.some.inj hacts)).1
  have htext := Option.some.inj (Reply.text.inj hreply)
  revert htext
  decide

end quawk
