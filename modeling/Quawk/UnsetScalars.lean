import Quawk.ScalarCells

open StructuredCode (Operands)
open StructuredCode.Code (emit)

namespace quawk

open Numeral (qk_is_full_numeric_string qk_parse_awk_numeric_prefix)

/-- The conversions of a number to text, for strings and for output. -/
structure NumberFormats where
  convfmt : Numeral.Value → Text
  ofmt : Numeral.Value → Text

def CellContent.number_view : CellContent → Numeral.Value
  | .unset => .finite 0
  | .number value => value
  | .string text => qk_parse_awk_numeric_prefix text

def CellContent.string_view (formats : NumberFormats) : CellContent → Text
  | .unset => []
  | .number value => formats.convfmt value
  | .string text => text

def CellContent.truthy : CellContent → Bool
  | .unset => false
  | .number value => value != .finite 0
  | .string text => !text.isEmpty

/-- The bit, of a comparison that was made with `!=`. -/
def ComparisonBit.differs : ComparisonBit → Bool
  | .constant value => value
  | .compared (.numbers left right) => fcmp_one left right
  | .compared (.strings left right) => left != right

section Reading

variable (formats : NumberFormats) (cells : ScalarCells)

/-- The instructions scalars are read with. -/
def read_op : {types : List Ty} → {type : Ty} → Op types type → Operands ReadValue types → Option (ReadValue type)
  | _, _, .number .zero, () => some (.finite 0)
  | _, _, .string_constant text, () => some text
  | _, _, .local_variable name, () => some (.local_variable name)
  | _, _, .state_variable _ index, () => some (.state_variable index)
  | _, _, .load_double, (cell, ()) => some (cells cell).number_view
  | _, _, .load_parameter slot, () => some ((cells (.parameter slot)).string_view formats)
  | _, _, .qk_slot_get_number index, () => some (cells (.slot index)).number_view
  | _, _, .qk_slot_get_string index, () => some ((cells (.slot index)).string_view formats)
  | _, _, .qk_scalar_get_number_inline, (name, ()) => some (cells (.entry name)).number_view
  | _, _, .qk_scalar_get_inline, (name, ()) => some ((cells (.entry name)).string_view formats)
  | _, _, .qk_scalar_truthy, (name, ()) => some (.constant (cells (.entry name)).truthy)
  | _, _, .qk_parse_number_text, (text, ()) => some ( qk_parse_awk_numeric_prefix text)
  | _, _, .qk_format_number, (value, ()) => some (formats.convfmt value)
  | _, _, .load_char, (text, ()) => some text.head?
  | _, _, .icmp_char, (first_char, ()) => some (.constant first_char.isSome)
  | _, _, .qk_capture_string_arg_inline, (text, ()) => some text
  | _, _, .truth value, () => some (.constant value)
  | _, _, .word _, () => some ()
  | _, _, .fcmp _, (left, right, ()) => some (.compared (.numbers left right))
  | _, _, .qk_compare_strings_inline, (left, right, _, ()) => some (.compared (.strings left right))
  | _, _, .qk_compare_values_inline, (left_string, left_number, .constant left_check, .constant left_force,
      right_string, right_number, .constant right_check, .constant right_force, _, ()) =>
    some (.compared (qk_compare_values left_string left_number left_check left_force right_string right_number
      right_check right_force))
  | _, _, .qk_print_string_fragment, _ => some ()
  | _, _, .qk_print_number_fragment, _ => some ()
  | _, _, _, _ => none

/-- What an instruction prints. -/
def printed_by : {types : List Ty} → {type : Ty} → Op types type → Operands ReadValue types → Text
  | _, _, .qk_print_string_fragment, (text, ()) => text
  | _, _, .qk_print_number_fragment, (value, ()) => formats.ofmt value
  | _, _, _, _ => []

/-- The result of a code, and the output with what it prints. -/
def run_read {α : Type} : Code ReadValue α → Text → Option (α × Text)
  | .done value, output => some (value, output)
  | .op f operands next, output =>
    (read_op formats cells f operands).bind fun value => run_read (next value) (output ++ printed_by formats f operands)
  | .note _ next, output => run_read next output
  | _, _ => none

end Reading

/-- Where a scalar is read: as a string (a concatenation, a subscript, an argument, a match), by `print`, on one
side of a comparison, as a number, as a condition. -/
inductive ReadContext where
  | string
  | print
  | comparison (op : BinaryOp) (on_left : Bool) (other : ComparisonOperand)
  | numeric
  | condition

section Unset

variable (formats : NumberFormats) (state : LoweringState) (name : Name)

/-- A scalar of the program: no builtin variable, no name the backend made, no key of a loop. -/
structure ProgramScalar : Prop where
  builtin : is_builtin_variable_name name = false
  reusable : is_reusable_runtime_state_name name = false
  loop : state.is_loop_string_binding name = false
  known : name ∈ state.variable_indexes ∨ state.is_function_param_string name = true

/-- An unset scalar compares as the empty string with a string, and as 0 with a number. -/
def unset_comparison (on_left : Bool) (other : ComparisonOperand) : Comparison :=
  match other.value.isNumeric, on_left with
  | true, true => .numbers (.finite 0) other.number
  | true, false => .numbers other.number (.finite 0)
  | false, true => .strings [] other.text
  | false, false => .strings other.text []

/-- What a read gives of a scalar that nothing was assigned to. -/
def ReadsUnset (cells : ScalarCells) : ReadContext → Prop
  | .string => run_read formats cells (lower_expression state (fun _ => none) (.name name)).string [] = some ([], [])
  | .print =>
    run_read formats cells
      (lower_runtime_print_fragment state (lower_expression state (fun _ => none) (.name name))) [] = some ((), [])
  | .comparison op true other =>
    run_read formats cells
      (lower_runtime_comparison state op (lower_expression state (fun _ => none) (.name name)) other.known) [] =
        some (.compared (unset_comparison true other), [])
  | .comparison op false other =>
    run_read formats cells
      (lower_runtime_comparison state op other.known (lower_expression state (fun _ => none) (.name name))) [] =
        some (.compared (unset_comparison false other), [])
  | .numeric => run_read formats cells (lower_expression state (fun _ => none) (.name name)).numeric [] = some (.finite 0, [])
  | .condition =>
    (run_read formats cells (lower_expression state (fun _ => none) (.name name)).condition []).map
      (fun result => (result.1.differs, result.2)) = some (false, [])

/-- The text an unset scalar has: of one that is kept as a number, the text of 0. -/
def unset_text : Text := if runtime_name_uses_numeric_slot_state state name then formats.convfmt (.finite 0) else []

/-- An unset scalar as an operand. -/
def unset_operand : ComparisonOperand where
  value := .number (.finite 0)
  expression := .name name
  text := unset_text formats state name
  number := .finite 0
  keeps_text := trivial

/-- Both operands of the comparison are taken for numbers. -/
def ComparesNumbers (other : ComparisonOperand) : Bool :=
  TakenForNumber state (unset_operand formats state name) other &&
    TakenForNumber state other (unset_operand formats state name)

/-- Where a scalar is read as it should be: as a string if it is not kept as a number, or a number has no text; with
a number, if it is taken for one. -/
def UnsetKept : ReadContext → Prop
  | .string => runtime_name_uses_numeric_slot_state state name = true → formats.convfmt (.finite 0) = []
  | .print => runtime_name_uses_numeric_slot_state state name = true → formats.ofmt (.finite 0) = []
  | .comparison _ _ other =>
    if other.value.isNumeric then ComparesNumbers formats state name other = true
    else ComparesNumbers formats state name other = false ∧
      (runtime_name_uses_numeric_slot_state state name = true → formats.convfmt (.finite 0) = [])
  | .numeric => True
  | .condition => True

end Unset

variable {formats : NumberFormats} {state : LoweringState} {name : Name} {cells : ScalarCells}

theorem run_read_bind {α β : Type} (code : Code ReadValue α) (next : α → Code ReadValue β) (output : Text) :
    run_read formats cells (code >>= next) output =
      (run_read formats cells code output).bind fun result => run_read formats cells (next result.1) result.2 := by
  change run_read formats cells (code.bind next) output = _
  induction code generalizing output with
  | done | choice | short_circuit | guarded | attempt | raise | crash => rfl
  | op f operands rest ih =>
    simp only [StructuredCode.Code.bind, run_read, ih, Option.bind_assoc]
  | note mark rest ih => exact ih next output

/-- An instruction that prints nothing gives what it reads. -/
theorem run_read_emit {types : List Ty} {type : Ty} {f : Op types type} {operands : Operands ReadValue types}
    {value : ReadValue type} (hread : read_op formats cells f operands = some value)
    (hsilent : printed_by formats f operands = []) (output : Text) :
    run_read formats cells (emit f operands) output = some (value, output) := by
  change (read_op formats cells f operands).bind
    (fun value => some (value, output ++ printed_by formats f operands)) = _
  rw [hread, hsilent, List.append_nil]
  rfl

theorem run_read_emit_bind {types : List Ty} {type : Ty} {α : Type} {f : Op types type}
    {operands : Operands ReadValue types} {value : ReadValue type} {next : ReadValue type → Code ReadValue α}
    (hread : read_op formats cells f operands = some value) (hsilent : printed_by formats f operands = [])
    (output : Text) :
    run_read formats cells (emit f operands >>= next) output = run_read formats cells (next value) output := by
  rw [run_read_bind, run_read_emit hread hsilent, Option.bind_some]

theorem ProgramScalar.names (h : ProgramScalar state name) :
    name ≠ "NR" ∧ name ≠ "FNR" ∧ name ≠ "NF" ∧ name ≠ "FILENAME" := by
  have hbuiltin := h.builtin
  refine ⟨?_, ?_, ?_, ?_⟩ <;> rintro rfl <;> revert hbuiltin <;> decide

theorem ProgramScalar.uses_scalar_runtime (h : ProgramScalar state name)
    (hparam : state.is_function_param_string name = false) : runtime_name_uses_scalar_runtime state name = true := by
  obtain ⟨hnr, hfnr, hnf, hfilename⟩ := h.names
  simp [runtime_name_uses_scalar_runtime, hnr, hfnr, hnf, hfilename, h.loop, hparam, h.reusable]

theorem param_not_scalar (hparam : state.is_function_param_string name = true) :
    runtime_name_uses_scalar_runtime state name = false := by
  simp [runtime_name_uses_scalar_runtime, hparam]

/-- The cells of a scalar still have what they had at the start. -/
def CellsUnset (state : LoweringState) (name : Name) (cells : ScalarCells) : Prop :=
  ∀ cell ∈ name_cells state name, cells cell = initial_cells cell

theorem CellsUnset.entry (h : CellsUnset state name cells) : cells (.entry name.toList) = .unset :=
  h _ (mem_name_cells.mpr (Or.inr (Or.inl rfl)))

theorem CellsUnset.local_variable (h : CellsUnset state name cells) : cells (.local_variable name) = .number (.finite 0) :=
  h _ (mem_name_cells.mpr (Or.inl rfl))

theorem CellsUnset.state_variable (h : CellsUnset state name cells) {index : Nat}
    (hindex : state.variable_indexes.get name = some index) : cells (.state_variable index) = .number (.finite 0) :=
  h _ (mem_name_cells.mpr (Or.inr (Or.inr (Or.inl ⟨index, hindex, rfl⟩))))

theorem CellsUnset.parameter (h : CellsUnset state name cells) {slot : Nat}
    (hslot : state.param_slot name = some slot) : cells (.parameter slot) = .string [] :=
  h _ (mem_name_cells.mpr (Or.inr (Or.inr (Or.inr (Or.inl ⟨slot, hslot, rfl⟩)))))

theorem CellsUnset.slot (h : CellsUnset state name cells) {index : Nat}
    (hindex : runtime_name_slot_index state name = some index) : cells (.slot index) = .unset :=
  h _ (mem_name_cells.mpr (Or.inr (Or.inr (Or.inr (Or.inr ⟨index, hindex, rfl⟩)))))

theorem number_of_cell {cell : Cell} {content : CellContent} (h : cells cell = content) :
    some (cells cell).number_view = some content.number_view := by rw [h]

theorem string_of_cell {cell : Cell} {content : CellContent} (h : cells cell = content) :
    some ((cells cell).string_view formats) = some (content.string_view formats) := by rw [h]

theorem run_read_address (h : CellsUnset state name cells)
    (hknown : name ∈ state.variable_indexes) (output : Text) :
    run_read formats cells (do
      let slot_name ← variable_address state name
      emit .load_double (slot_name, ())) output = some ((.finite 0 : Numeral.Value), output) := by
  unfold variable_address
  split_ifs
  · rw [run_read_emit_bind rfl rfl]
    refine run_read_emit ?_ rfl output
    exact number_of_cell h.local_variable
  · cases hindex : state.variable_indexes.get name with
    | none =>
      have hnone := List.findIdx?_eq_none_iff.mp hindex name hknown
      simp at hnone
    | some index =>
      dsimp only
      rw [run_read_emit_bind rfl rfl]
      refine run_read_emit ?_ rfl output
      exact number_of_cell (h.state_variable hindex)

/-- An unset scalar is read as the number 0, wherever it is kept. -/
theorem run_read_numeric (hscalar : ProgramScalar state name) (h : CellsUnset state name cells) (output : Text) :
    run_read formats cells (lower_runtime_numeric_name state name) output = some ((.finite 0 : Numeral.Value), output) := by
  obtain ⟨hnr, hfnr, hnf, -⟩ := hscalar.names
  unfold lower_runtime_numeric_name
  rw [if_neg hnr, if_neg hfnr, if_neg hnf]
  by_cases hparam : state.is_function_param_string name = true
  · obtain ⟨slot, hslot⟩ := Option.isSome_iff_exists.mp hparam
    rw [if_pos hparam]
    unfold load_runtime_function_param_string
    rw [hslot]
    dsimp only
    have hempty : read_op formats cells (.load_parameter slot) () = some ([] : Text) :=
      string_of_cell (h.parameter hslot)
    rw [run_read_emit_bind hempty rfl]
    exact run_read_emit rfl rfl output
  · rw [if_neg hparam]
    have hknown := hscalar.known.resolve_right hparam
    split_ifs
    · exact run_read_address h hknown output
    · have hentry : read_op formats cells .qk_scalar_get_number_inline (name.toList, ()) = some (.finite 0 : Numeral.Value) :=
        number_of_cell h.entry
      unfold lower_runtime_scalar_name lower_runtime_constant_string lower_runtime_current_number
      rw [run_read_emit_bind rfl rfl]
      split
      · rename_i index hindex
        split_ifs
        · refine run_read_emit ?_ rfl output
          exact number_of_cell (h.slot hindex)
        · exact run_read_emit hentry rfl output
      · exact run_read_emit hentry rfl output

/-- A scalar is kept as a number, or else read from its slot or the table. -/
theorem numeric_slot_of_not_cached {index : Nat} (hscalar : runtime_name_uses_scalar_runtime state name = true)
    (hindex : runtime_name_slot_index state name = some index)
    (hcached : ¬ runtime_name_uses_slot_cached_runtime state name = true)
    (htable : ¬ runtime_name_uses_only_scalar_runtime state name = true) :
    runtime_name_uses_numeric_slot_state state name = true := by
  by_contra hnumeric
  rw [Bool.not_eq_true] at hnumeric
  have hstring : runtime_name_uses_string_slot_runtime state name = true := by
    simpa [runtime_name_uses_only_scalar_runtime, hscalar, hnumeric] using htable
  have htype : state.type_info name = .string := by
    simpa [runtime_name_uses_string_slot_runtime, hscalar, hindex, runtime_name_is_inferred_string] using hstring
  exact hcached (by
    simp [runtime_name_uses_slot_cached_runtime, hscalar, hindex, htype, hnumeric,
      runtime_name_uses_local_numeric_storage, runtime_name_is_inferred_numeric])

theorem cached_not_numeric_slot (h : runtime_name_uses_slot_cached_runtime state name = true) :
    runtime_name_uses_numeric_slot_state state name = false := by
  simp only [runtime_name_uses_slot_cached_runtime, Bool.and_eq_true, Bool.not_eq_true'] at h
  exact h.1.2

theorem table_not_numeric_slot (h : runtime_name_uses_only_scalar_runtime state name = true) :
    runtime_name_uses_numeric_slot_state state name = false := by
  simp only [runtime_name_uses_only_scalar_runtime, Bool.and_eq_true, Bool.not_eq_true'] at h
  exact h.1.2

theorem param_not_numeric_slot (h : state.is_function_param_string name = true) :
    runtime_name_uses_numeric_slot_state state name = false := by
  simp [runtime_name_uses_numeric_slot_state, param_not_scalar h]

theorem run_read_formatted (hscalar : ProgramScalar state name) (h : CellsUnset state name cells) (output : Text) :
    run_read formats cells (lower_runtime_formatted_number (lower_runtime_numeric_name state name)) output =
      some (formats.convfmt (.finite 0), output) := by
  unfold lower_runtime_formatted_number
  rw [run_read_bind, run_read_numeric hscalar h, Option.bind_some]
  exact run_read_emit rfl rfl output

/-- An unset scalar is read as the empty text, unless it is kept as a number. -/
theorem run_read_string (hscalar : ProgramScalar state name) (h : CellsUnset state name cells) (output : Text) :
    run_read formats cells (lower_runtime_string_name state (fun _ => none) name) output =
      some (unset_text formats state name, output) := by
  unfold lower_runtime_string_name unset_text
  rw [if_neg (by simp [hscalar.loop])]
  by_cases hparam : state.is_function_param_string name = true
  · obtain ⟨slot, hslot⟩ := Option.isSome_iff_exists.mp hparam
    rw [if_pos hparam, param_not_numeric_slot hparam]
    unfold load_runtime_function_param_string
    rw [hslot]
    refine run_read_emit ?_ rfl output
    exact string_of_cell (h.parameter hslot)
  · have htable_read : run_read formats cells (do
        let scalar_name ← lower_runtime_scalar_name name
        emit .qk_scalar_get_inline (scalar_name, ())) output = some (([] : Text), output) := by
      unfold lower_runtime_scalar_name lower_runtime_constant_string
      rw [run_read_emit_bind rfl rfl]
      refine run_read_emit ?_ rfl output
      exact string_of_cell h.entry
    have hruntime := hscalar.uses_scalar_runtime (Bool.eq_false_iff.mpr hparam)
    rw [if_neg hparam, if_neg hscalar.names.2.2.2]
    cases hindex : runtime_name_slot_index state name with
    | some index =>
      dsimp only
      by_cases hcached : runtime_name_uses_slot_cached_runtime state name = true
      · rw [if_pos hcached, cached_not_numeric_slot hcached]
        refine run_read_emit ?_ rfl output
        exact string_of_cell (h.slot hindex)
      · rw [if_neg hcached]
        by_cases htable : runtime_name_uses_only_scalar_runtime state name = true
        · rw [if_pos htable, table_not_numeric_slot htable, htable_read]
          rfl
        · rw [if_neg htable, numeric_slot_of_not_cached hruntime hindex hcached htable,
            run_read_formatted hscalar h]
          rfl
    | none =>
      have htable : runtime_name_uses_only_scalar_runtime state name = true := by
        simp [runtime_name_uses_only_scalar_runtime, hruntime, runtime_name_uses_numeric_slot_state,
          runtime_name_uses_string_slot_runtime, hindex]
      dsimp only
      rw [if_pos htable, table_not_numeric_slot htable, htable_read]
      rfl

theorem lower_expression_name {V : Ty → Type} (keys : Name → Option (V .ptr)) :
    lower_expression state keys (.name name) = ⟨.name name, lower_runtime_numeric_name state name,
      lower_runtime_string_name state keys name, lower_condition_name state keys name⟩ := by
  simp only [lower_expression]

theorem run_read_print (hscalar : ProgramScalar state name) (h : CellsUnset state name cells) :
    run_read formats cells
      (lower_runtime_print_fragment state (lower_expression state (fun _ => none) (.name name))) [] =
      some ((), if runtime_name_uses_numeric_slot_state state name then formats.ofmt (.finite 0) else []) := by
  rw [lower_expression_name]
  change run_read formats cells (if runtime_expression_has_string_result state (.name name) = true then _ else _) [] = _
  by_cases hnumeric : runtime_name_uses_numeric_slot_state state name = true
  · have hresult : runtime_expression_has_string_result state (.name name) = false := by
      have htype : runtime_name_is_inferred_numeric state name = true := by
        simp only [runtime_name_uses_numeric_slot_state, Bool.and_eq_true] at hnumeric
        exact hnumeric.1.2
      have hparam : state.is_function_param_string name = false := by
        rw [Bool.eq_false_iff]
        intro hparam
        rw [param_not_numeric_slot hparam] at hnumeric
        cases hnumeric
      have hstring : runtime_name_is_inferred_string state name = false := by
        simp only [runtime_name_is_inferred_numeric, decide_eq_true_eq] at htype
        simp [runtime_name_is_inferred_string, htype]
      simp [runtime_expression_has_string_result, hscalar.names.2.2.2, hscalar.loop, hparam,
        runtime_name_uses_only_scalar_runtime, hnumeric, runtime_name_uses_string_slot_runtime, hstring]
    rw [hresult, if_neg Bool.false_ne_true, if_pos hnumeric, run_read_bind, run_read_numeric hscalar h]
    rfl
  · have hresult : runtime_expression_has_string_result state (.name name) = true := by
      by_cases hparam : state.is_function_param_string name = true
      · simp [runtime_expression_has_string_result, hparam]
      · have hruntime := hscalar.uses_scalar_runtime (Bool.eq_false_iff.mpr hparam)
        rw [Bool.not_eq_true] at hnumeric
        cases hslot : runtime_name_uses_string_slot_runtime state name <;>
          simp [runtime_expression_has_string_result, runtime_name_uses_only_scalar_runtime, hruntime, hnumeric, hslot]
    rw [hresult, if_pos rfl, if_neg hnumeric, run_read_bind, run_read_string hscalar h, unset_text, if_neg hnumeric]
    rfl

/-- An unset scalar is false, wherever it is kept. -/
theorem run_read_condition (hscalar : ProgramScalar state name) (h : CellsUnset state name cells) :
    (run_read formats cells (lower_condition_name state (fun _ => none) name) []).map
      (fun result => (result.1.differs, result.2)) = some (false, []) := by
  unfold lower_condition_name lower_condition_default
  by_cases htable : runtime_name_uses_only_scalar_runtime state name = true
  · rw [if_pos htable]
    change some ((ComparisonBit.constant (cells (.entry name.toList)).truthy).differs, ([] : Text)) = _
    rw [h.entry]
    rfl
  · rw [if_neg htable]
    by_cases hknown : runtime_expression_is_known_string state (.name name) = true
    · have hnumeric : runtime_name_uses_numeric_slot_state state name = false := by
        by_cases hparam : state.is_function_param_string name = true
        · exact param_not_numeric_slot hparam
        · have htype : state.type_info name = .string := by
            simpa [runtime_expression_is_known_string, hscalar.names.2.2.2, hscalar.loop, hparam,
              runtime_name_is_inferred_string] using hknown
          simp [runtime_name_uses_numeric_slot_state, runtime_name_is_inferred_numeric, htype]
      unfold lower_runtime_string_truthiness
      rw [if_pos hknown, run_read_bind, run_read_string hscalar h, unset_text, hnumeric]
      rfl
    · unfold lower_runtime_number_truthiness
      rw [if_neg hknown, run_read_bind, run_read_numeric hscalar h]
      rfl

/-- The code reads what the operand has. -/
structure ReadsAs (formats : NumberFormats) (cells : ScalarCells) (lowered : Lowered ReadValue)
    (operand : ComparisonOperand) : Prop where
  expression : lowered.expression = operand.expression
  string : ∀ output, run_read formats cells lowered.string output = some (operand.text, output)
  numeric : ∀ output, run_read formats cells lowered.numeric output = some (operand.number, output)

theorem ReadsAs.known (operand : ComparisonOperand) : ReadsAs formats cells operand.known operand :=
  ⟨rfl, fun _ => rfl, fun _ => rfl⟩

theorem ReadsAs.unset (hscalar : ProgramScalar state name) (h : CellsUnset state name cells) :
    ReadsAs formats cells (lower_expression state (fun _ => none) (.name name)) (unset_operand formats state name) where
  expression := by
    rw [lower_expression_name]
    rfl
  string output := by
    rw [lower_expression_name]
    exact run_read_string hscalar h output
  numeric output := by
    rw [lower_expression_name]
    exact run_read_numeric hscalar h output

theorem ReadsAs.captured {lowered : Lowered ReadValue} {operand : ComparisonOperand}
    (h : ReadsAs formats cells lowered operand) (output : Text) :
    run_read formats cells (lower_runtime_captured_string_expression lowered) output = some (operand.text, output) := by
  unfold lower_runtime_captured_string_expression
  rw [run_read_bind, h.string, Option.bind_some]
  exact run_read_emit rfl rfl output

/-- A comparison is made of what its operands have. -/
theorem run_read_comparison {op : BinaryOp} {left right : ComparisonOperand} {left_code right_code : Lowered ReadValue}
    (hleft : ReadsAs formats cells left_code left) (hright : ReadsAs formats cells right_code right) :
    run_read formats cells (lower_runtime_comparison state op left_code right_code) [] =
      (run_comparison (lower_runtime_comparison state op left.lowered right.lowered)).map fun bit => (bit, []) := by
  rw [run_lower_runtime_comparison]
  unfold lower_runtime_comparison
  rw [hleft.expression, hright.expression]
  by_cases hforced : (expression_forces_string_comparison left.expression ||
      expression_forces_string_comparison right.expression) = true
  · simp only [hforced, if_true]
    rw [run_read_bind, hleft.captured, Option.bind_some, run_read_bind, hright.captured]
    rfl
  · simp only [hforced, if_false, Bool.false_eq_true]
    by_cases hdefinite : (runtime_expression_is_definitely_numeric state left.expression &&
        runtime_expression_is_definitely_numeric state right.expression) = true
    · simp only [hdefinite, if_true]
      rw [run_read_bind, hleft.numeric, Option.bind_some, run_read_bind, hright.numeric]
      rfl
    · simp only [hdefinite, if_false, Bool.false_eq_true]
      rw [run_read_bind, hleft.captured, Option.bind_some, run_read_bind, hleft.numeric, Option.bind_some,
        run_read_bind, hright.captured, Option.bind_some, run_read_bind, hright.numeric]
      rfl

theorem unset_text_eq_nil :
    unset_text formats state name = [] ↔
      (runtime_name_uses_numeric_slot_state state name = true → formats.convfmt (.finite 0) = []) := by
  unfold unset_text
  split_ifs with hnumeric <;> simp [hnumeric]

/-- What a comparison with an unset scalar should compare, from what the code takes for numbers. -/
theorem unset_comparison_iff (on_left : Bool) (other : ComparisonOperand) :
    (if ComparesNumbers formats state name other then
        (if on_left then Comparison.numbers (.finite 0) other.number else .numbers other.number (.finite 0))
      else if on_left then .strings (unset_text formats state name) other.text
      else .strings other.text (unset_text formats state name)) = unset_comparison on_left other ↔
      UnsetKept formats state name (.comparison .equal on_left other) := by
  unfold UnsetKept unset_comparison
  simp only [← unset_text_eq_nil]
  cases other.value.isNumeric <;> cases on_left <;> cases ComparesNumbers formats state name other <;> simp

/-- In every run, a scalar that nothing was assigned to is read as it should be exactly where it is not kept as a
number to be read as a text, or as a text to be compared with a number. -/
theorem unset_read_iff (formats : NumberFormats) (state : LoweringState) (hslots : OwnSlots state) (name : Name)
    (hscalar : ProgramScalar state name) (writes : List (ScalarWrite state))
    (hother : ∀ write ∈ writes, write.name ≠ name) (context : ReadContext) :
    ReadsUnset formats state name (run_writes state writes) context ↔ UnsetKept formats state name context := by
  have hcells : CellsUnset state name (run_writes state writes) := fun cell => run_writes_same hslots hother
  cases context with
  | string =>
    simp only [ReadsUnset, UnsetKept, lower_expression_name]
    rw [run_read_string hscalar hcells, unset_text]
    simp
  | print =>
    simp only [ReadsUnset, UnsetKept]
    rw [run_read_print hscalar hcells]
    simp
  | comparison op on_left other =>
    cases on_left with
    | true =>
      simp only [ReadsUnset, UnsetKept]
      rw [run_read_comparison (.unset hscalar hcells) (.known other), run_comparison_taken, Option.map_some,
        Option.some.injEq, Prod.mk.injEq, and_iff_left rfl, ComparisonBit.compared.injEq]
      exact unset_comparison_iff true other
    | false =>
      simp only [ReadsUnset, UnsetKept]
      rw [run_read_comparison (.known other) (.unset hscalar hcells), run_comparison_taken, Option.map_some,
        Option.some.injEq, Prod.mk.injEq, and_iff_left rfl, ComparisonBit.compared.injEq, Bool.and_comm]
      exact unset_comparison_iff false other
  | numeric =>
    simp only [ReadsUnset, UnsetKept, lower_expression_name, iff_true]
    exact run_read_numeric hscalar hcells []
  | condition =>
    simp only [ReadsUnset, UnsetKept, lower_expression_name, iff_true]
    exact run_read_condition hscalar hcells

/-- A program with two numbers. -/
def two_scalars : LoweringState where
  variable_indexes := ["x", "y"]
  slot_allocation := allocate_slots_for_variable_indexes ["x", "y"]
  type_info := fun _ => .numeric
  array_names := []
  function_defs := []
  local_numeric_names := ∅
  function_param_strings := []
  loop_string_bindings := []

theorem two_scalars_ownSlots : OwnSlots two_scalars := ⟨rfl, List.nodup_nil⟩

theorem two_scalars_x : ProgramScalar two_scalars "x" := ⟨by decide, by decide, rfl, Or.inl (by decide)⟩

/-- `y = 1` -/
def one_to_y : ScalarWrite two_scalars where
  writer := two_scalars
  name := "y"
  cell := .state_variable 1
  content := .number (.finite 1)
  own := mem_name_cells.mpr (Or.inr (Or.inr (Or.inl ⟨1, by decide, rfl⟩)))
  same_slots := ⟨rfl, rfl⟩
  same_function := Or.inl rfl

/-- Whole numbers have their decimal text. -/
def whole_text : Numeral.Value → Text
  | .finite value => decimal_text value.num
  | .infinity negative => (if negative then ['-'] else []) ++ ['i', 'n', 'f']
  | .nan => ['n', 'a', 'n']

def whole_formats : NumberFormats := ⟨whole_text, whole_text⟩

/-- `BEGIN { y = 1; if (x) print "set"; x = 1 }` -/
theorem unset_read_iff_two_scalars :
    ReadsUnset whole_formats two_scalars "x" (run_writes two_scalars [one_to_y]) .condition ↔
      UnsetKept whole_formats two_scalars "x" .condition :=
  unset_read_iff whole_formats two_scalars two_scalars_ownSlots "x" two_scalars_x [one_to_y]
    (by simp [one_to_y]) .condition

/-- `BEGIN { print x; x = 1 }` prints 0. -/
theorem unset_number_prints_zero :
    ¬ ∀ (state : LoweringState), OwnSlots state → ∀ name : Name, ProgramScalar state name →
      ∀ writes : List (ScalarWrite state), (∀ write ∈ writes, write.name ≠ name) →
        ∀ context : ReadContext, ReadsUnset whole_formats state name (run_writes state writes) context := by
  intro h
  have hprint := h two_scalars two_scalars_ownSlots "x" two_scalars_x [] (fun _ hwrite => nomatch hwrite) .print
  simp only [ReadsUnset] at hprint
  have hcells : CellsUnset two_scalars "x" (run_writes two_scalars []) := fun _ _ => rfl
  rw [run_read_print two_scalars_x hcells] at hprint
  revert hprint
  decide

end quawk
