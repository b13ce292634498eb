import Quawk.ScalarHomes

open StructuredCode (Operands)
open StructuredCode.Code (emit)

namespace quawk

open Numeral (qk_is_full_numeric_string qk_parse_awk_numeric_prefix)

/-- What the instructions of arithmetic compute. -/
abbrev Arithmetic := Op [.double, .double] .double → Numeral.Value → Numeral.Value → Numeral.Value

section Writing

variable (formats : NumberFormats) (arithmetic : Arithmetic)

/-- The instructions scalars are written with, and those they are read with. -/
def write_op (cells : ScalarCells) : {types : List Ty} → {type : Ty} → Op types type → Operands ReadValue types →
    Option (ReadValue type × ScalarCells)
  | _, _, .store_double, (value, cell, ()) => some ((), Function.update cells cell (.number value))
  | _, _, .store_parameter slot, (text, ()) => some ((), Function.update cells (.parameter slot) (.string text))
  | _, _, .qk_scalar_set_string, (name, text, ()) => some ((), Function.update cells (.entry name) (.string text))
  | _, _, .qk_scalar_set_number_inline, (name, value, ()) =>
    some ((), Function.update cells (.entry name) (.number value))
  | _, _, .qk_scalar_copy, (target, source, ()) =>
    some ((), Function.update cells (.entry target) (cells (.entry source)))
  | _, _, .qk_slot_set_number index, (value, ()) => some ((), Function.update cells (.slot index) (.number value))
  | _, _, .qk_slot_set_string index, (text, ()) => some ((), Function.update cells (.slot index) (.string text))
  | _, _, .number .one, () => some ((.finite 1 : Numeral.Value), cells)
  | _, _, .fadd, (left, right, ()) => some (arithmetic .fadd left right, cells)
  | _, _, .fsub, (left, right, ()) => some (arithmetic .fsub left right, cells)
  | _, _, .fmul, (left, right, ()) => some (arithmetic .fmul left right, cells)
  | _, _, .fdiv, (left, right, ()) => some (arithmetic .fdiv left right, cells)
  | _, _, .llvm_pow, (left, right, ()) => some (arithmetic .llvm_pow left right, cells)
  | _, _, .llvm_trunc, (value, ()) => some (truncated value, cells)
  | _, _, f, operands => (read_op formats cells f operands).map fun value => (value, cells)
where
  truncated : Numeral.Value → Numeral.Value
    | .finite value => .finite (value.num.tdiv value.den)
    | value => value

def run_cells {α : Type} : Code ReadValue α → ScalarCells → Option (α × ScalarCells)
  | .done value, cells => some (value, cells)
  | .op f operands next, cells =>
    (write_op formats arithmetic cells f operands).bind fun result => run_cells (next result.1) result.2
  | .note _ next, cells => run_cells next cells
  | _, _ => none

/-- The number `combine_numeric_assignment` makes. -/
def combined_number (op : AssignOp) (current update : Numeral.Value) : Numeral.Value :=
  match op with
  | .plain => update
  | .add => arithmetic .fadd current update
  | .sub => arithmetic .fsub current update
  | .mul => arithmetic .fmul current update
  | .div => arithmetic .fdiv current update
  | .mod =>
    arithmetic .fsub current
      (arithmetic .fmul (write_op.truncated (arithmetic .fdiv current update)) update)
  | .pow => arithmetic .llvm_pow current update

end Writing

variable {formats : NumberFormats} {state : LoweringState} {name : Name} {cells : ScalarCells} {value : CellContent}
  {source : Name} {arithmetic : Arithmetic}

theorem run_cells_bind {α β : Type} (code : Code ReadValue α) (next : α → Code ReadValue β) (cells : ScalarCells) :
    run_cells formats arithmetic (code >>= next) cells = (run_cells formats arithmetic code cells).bind fun result =>
      run_cells formats arithmetic (next result.1) result.2 := by
  change run_cells formats arithmetic (code.bind next) cells = _
  induction code generalizing cells with
  | done | choice | short_circuit | guarded | attempt | raise | crash => rfl
  | op f operands rest ih =>
    simp only [StructuredCode.Code.bind, run_cells, ih, Option.bind_assoc]
  | note mark rest ih => exact ih next cells

theorem run_cells_emit {types : List Ty} {type : Ty} {f : Op types type} {operands : Operands ReadValue types}
    {result : ReadValue type × ScalarCells} (h : write_op formats arithmetic cells f operands = some result) :
    run_cells formats arithmetic (emit f operands) cells = some result := by
  change (write_op formats arithmetic cells f operands).bind (fun result => some (result.1, result.2)) = _
  rw [h]
  rfl

theorem run_cells_combine (op : AssignOp) (current update : Numeral.Value) :
    run_cells formats arithmetic (combine_numeric_assignment op current update) cells =
      some (combined_number arithmetic op current update, cells) := by
  cases op <;> rfl

/-- A string that is assigned is kept, where the scalar is not kept as a number. -/
theorem run_assign_string (arithmetic : Arithmetic) (cells : ScalarCells) (hscalar : ProgramScalar state name)
    (hhome : scalar_home state name ≠ .number) (hkeeps : TextKeeps formats value) :
    ∃ after, run_cells formats arithmetic
        (lower_runtime_assign_string_lvalue state (.name name) (value.string_view formats)) cells = some ((), after) ∧
      HoldsValue formats state name after value := by
  have hlike : ReadsLike formats (.string (value.string_view formats)) value := ⟨hkeeps.number, rfl, hkeeps.truth⟩
  unfold lower_runtime_assign_string_lvalue HoldsValue
  by_cases hparam : state.is_function_param_string name = true
  · obtain ⟨slot, hslot, hhome⟩ := scalar_home_param hparam
    simp only [hparam, if_true]
    unfold store_runtime_function_param_string
    rw [hslot, hhome]
    exact ⟨_, rfl, by simp [CellContent.string_view], hkeeps⟩
  · simp only [hparam, if_false, Bool.false_eq_true]
    obtain ⟨-, hnumber⟩ | ⟨index, hindex, hhome, hcached, hstring, -⟩ | ⟨index, hindex, hhome, hcached, -, hstring⟩ |
      ⟨hhome, hcached, htable, hstring⟩ := scalar_home_cases hscalar hparam
    · exact absurd hnumber hhome
    · rw [hhome, hindex]
      dsimp only
      rw [if_pos hstring]
      exact ⟨_, rfl, by simpa using hlike.number, by simpa using hlike.string, hkeeps.truth⟩
    · rw [hhome, hindex]
      dsimp only
      rw [hstring]
      exact ⟨_, rfl, by simpa using hlike, by simpa [Function.update] using hlike⟩
    · rw [hhome, hstring]
      cases runtime_name_slot_index state name with
      | none => exact ⟨_, rfl, by simpa using hlike⟩
      | some index => exact ⟨_, rfl, by simpa [Function.update] using hlike⟩

theorem write_op_of_read {types : List Ty} {type : Ty} {f : Op types type} {operands : Operands ReadValue types}
    {result : ReadValue type} (h : read_op formats cells f operands = some result) :
    write_op formats arithmetic cells f operands = some (result, cells) := by
  cases f with
  | number constant =>
    cases constant with
    | zero => exact congrArg (Option.map fun value => (value, cells)) h
    | _ => cases h
  | _ => first
    | exact congrArg (Option.map fun value => (value, cells)) h
    | cases h

/-- What is read leaves the cells as they are. -/
theorem run_cells_of_read {α : Type} {code : Code ReadValue α} {result : α} {output output' : Text}
    (h : run_read formats cells code output = some (result, output')) :
    run_cells formats arithmetic code cells = some (result, cells) := by
  induction code generalizing output with
  | done value =>
    simp only [run_read, Option.some.injEq, Prod.mk.injEq] at h
    simp [run_cells, h.1]
  | op f operands next ih =>
    simp only [run_read] at h
    obtain ⟨read, hread, hnext⟩ := Option.bind_eq_some_iff.mp h
    simp only [run_cells]
    rw [write_op_of_read hread, Option.bind_some]
    exact ih read hnext
  | note mark next ih => exact ih h
  | choice | short_circuit | guarded | attempt | raise | crash => cases h

/-- The number that is read of the scalar. -/
def NumberRead (formats : NumberFormats) (state : LoweringState) (name : Name) (cells : ScalarCells)
    (number : Numeral.Value) : Prop :=
  ∀ output, run_read formats cells (lower_runtime_numeric_name state name) output = some (number, output)

theorem NumberRead.current (hscalar : ProgramScalar state name) (hparam : ¬ state.is_function_param_string name = true)
    (hnumeric : runtime_name_uses_numeric_slot_state state name = false) {number : Numeral.Value}
    (h : NumberRead formats state name cells number) :
    run_cells formats arithmetic (lower_runtime_current_number state name name.toList) cells = some (number, cells) := by
  obtain ⟨hnr, hfnr, hnf, -⟩ := hscalar.names
  have hread := h []
  unfold lower_runtime_numeric_name at hread
  rw [if_neg hnr, if_neg hfnr, if_neg hnf, if_neg hparam, if_neg (by simp [hscalar.reusable, hnumeric])] at hread
  unfold lower_runtime_scalar_name lower_runtime_constant_string at hread
  rw [run_read_emit_bind rfl rfl] at hread
  exact run_cells_of_read hread

/-- How a value is kept that is stored as a text or as a number. -/
def StoreKept (formats : NumberFormats) (state : LoweringState) (name : Name) (as_text : Bool) (value : CellContent) :
    Prop :=
  match scalar_home state name with
  | .parameter _ =>
    TextKeeps formats value ∧ (as_text = false → formats.convfmt value.number_view = value.string_view formats)
  | .number => NumberKeeps formats value
  | .string_slot _ =>
    if as_text then TextKeeps formats value
    else NumberKeeps formats value ∧ (!(value.string_view formats).isEmpty) = value.truthy
  | .mixed_slot _ => if as_text then TextKeeps formats value else NumberKeeps formats value
  | .table => if as_text then TextKeeps formats value else NumberKeeps formats value

theorem run_store_param (arithmetic : Arithmetic) (cells : ScalarCells) {slot : Nat} {text : Text}
    (hslot : state.param_slot name = some slot)
    (hhome : scalar_home state name = .parameter slot) (htext : text = value.string_view formats)
    (hkeeps : TextKeeps formats value) :
    ∃ after, run_cells formats arithmetic (store_runtime_function_param_string state name text) cells =
        some ((), after) ∧ HoldsValue formats state name after value := by
  unfold store_runtime_function_param_string HoldsValue
  rw [hslot, hhome, htext]
  exact ⟨_, rfl, by simp [CellContent.string_view], hkeeps⟩

theorem run_store_number (hscalar : ProgramScalar state name) (hparam : ¬ state.is_function_param_string name = true)
    (hhome : scalar_home state name ≠ .number) (hkeeps : StoreKept formats state name false value) :
    ∃ after, run_cells formats arithmetic (store_runtime_number state name name.toList value.number_view) cells =
        some ((), after) ∧ HoldsValue formats state name after value := by
  unfold store_runtime_number HoldsValue
  unfold StoreKept at hkeeps
  obtain ⟨-, hnumber⟩ | ⟨index, hindex, hhome, hcached, hstring, -⟩ | ⟨index, hindex, hhome, hcached, -, hstring⟩ |
    ⟨hhome, hcached, htable, hstring⟩ := scalar_home_cases hscalar hparam
  · exact absurd hnumber hhome
  · rw [hhome] at hkeeps
    obtain ⟨hnumber, htruth⟩ := hkeeps
    rw [hhome, hindex]
    dsimp only
    rw [if_pos hcached]
    exact ⟨_, rfl, by simp [Function.update, CellContent.number_view],
      by simpa [Function.update, CellContent.string_view] using hnumber.string, htruth⟩
  · rw [hhome] at hkeeps
    have hlike : ReadsLike formats (.number value.number_view) value := ⟨rfl, hkeeps.string, hkeeps.number_truthy⟩
    rw [hhome, hindex]
    dsimp only
    rw [if_pos hcached]
    exact ⟨_, rfl, by simpa [Function.update] using hlike, by simpa [Function.update] using hlike⟩
  · rw [hhome] at hkeeps
    have hlike : ReadsLike formats (.number value.number_view) value := ⟨rfl, hkeeps.string, hkeeps.number_truthy⟩
    rw [hhome, hcached]
    cases runtime_name_slot_index state name with
    | none => exact ⟨_, rfl, by simpa using hlike⟩
    | some index => exact ⟨_, rfl, by simpa [Function.update] using hlike⟩

/-- A number that is stored in the state of the program is kept. -/
theorem run_store_state (arithmetic : Arithmetic) (hscalar : ProgramScalar state name)
    (hparam : ¬ state.is_function_param_string name = true)
    (hhome : scalar_home state name = .number) (hkeeps : NumberKeeps formats value) :
    ∃ cell, (∃ f : Op [] .addr, (variable_address state name : Code ReadValue Cell) = emit f () ∧
        ∀ cells, write_op formats arithmetic cells f () = some (cell, cells)) ∧
      (∀ number cells, NumberRead formats state name cells number → (cells cell).number_view = number) ∧
      ∀ cells, HoldsValue formats state name (Function.update cells cell (.number value.number_view)) value := by
  obtain ⟨cell, hcell, -, f, haddress, hread, hprinted⟩ := variable_address_eq hscalar hparam
  refine ⟨cell, ⟨f, haddress, fun cells => write_op_of_read (hread formats cells)⟩, ?_, ?_⟩
  · intro number cells hnumber
    obtain ⟨hnr, hfnr, hnf, -⟩ := hscalar.names
    obtain ⟨hnumeric, -⟩ | ⟨_, _, h, _⟩ | ⟨_, _, h, _⟩ | ⟨h, _⟩ := scalar_home_cases hscalar hparam
    · have hread' := hnumber []
      unfold lower_runtime_numeric_name at hread'
      rw [if_neg hnr, if_neg hfnr, if_neg hnf, if_neg hparam, if_pos (Or.inr hnumeric), haddress,
        run_read_emit_bind (hread formats cells) (hprinted formats), run_read_emit rfl rfl] at hread'
      exact (Prod.mk.inj (Option.some.inj hread')).1
    all_goals
      rw [hhome] at h
      cases h
  · intro cells
    unfold HoldsValue
    rw [hhome]
    refine ⟨?_, hkeeps⟩
    intro other hother
    rw [hcell, Option.mem_def, Option.some.injEq] at hother
    subst hother
    simp [CellContent.number_view]

/-- An assignment stores the text of its value. -/
def stores_text (state : LoweringState) (op : AssignOp) (expression : Expr) : Bool :=
  decide (op = .plain) && runtime_assignment_preserves_string state expression

/-- The value an assignment gives its scalar: the operand's, or the number made of it and of the number that is read
of the scalar. -/
def Written (formats : NumberFormats) (arithmetic : Arithmetic) (state : LoweringState) (name : Name) (op : AssignOp)
    (operand : ComparisonOperand) (cells : ScalarCells) (value : CellContent) : Prop :=
  if op = .plain then operand.text = value.string_view formats ∧ operand.number = value.number_view
  else ∃ current, NumberRead formats state name cells current ∧
    value = .number (combined_number arithmetic op current operand.number)

/-- The scalar whose entries an assignment copies. -/
def copied_name (state : LoweringState) (name : Name) (op : AssignOp) (expression : Expr) : Option Name :=
  if op = .plain ∧ state.is_function_param_string name = false ∧
      runtime_name_uses_numeric_slot_state state name = false then copies_scalar state name expression
  else none

theorem copied_name_eq {op : AssignOp} {expression : Expr} (hparam : ¬ state.is_function_param_string name = true)
    (hnumeric : ¬ runtime_name_uses_numeric_slot_state state name = true) :
    copied_name state name op expression = if op = .plain then copies_scalar state name expression else none := by
  unfold copied_name
  rw [Bool.not_eq_true] at hparam hnumeric
  simp [hparam, hnumeric]

theorem Written.combined {op : AssignOp} {operand : ComparisonOperand} {current : Numeral.Value}
    (h : Written formats arithmetic state name op operand cells value)
    (hread : NumberRead formats state name cells current) :
    combined_number arithmetic op current operand.number = value.number_view := by
  unfold Written at h
  split_ifs at h with hop
  · subst hop
    exact h.2
  · obtain ⟨current', hread', rfl⟩ := h
    have hsame := (hread' []).symm.trans (hread [])
    rw [← (Prod.mk.inj (Option.some.inj hsame)).1]
    rfl

theorem Written.text {op : AssignOp} {operand : ComparisonOperand}
    (h : Written formats arithmetic state name op operand cells value)
    (hstores : op = .plain) : operand.text = value.string_view formats := by
  unfold Written at h
  rw [if_pos hstores] at h
  exact h.1

/-- Every scalar is read as some number. -/
theorem exists_number_read (formats : NumberFormats) (hscalar : ProgramScalar state name) (cells : ScalarCells) :
    ∃ number, NumberRead formats state name cells number := by
  obtain ⟨hnr, hfnr, hnf, -⟩ := hscalar.names
  unfold NumberRead lower_runtime_numeric_name
  rw [if_neg hnr, if_neg hfnr, if_neg hnf]
  by_cases hparam : state.is_function_param_string name = true
  · obtain ⟨slot, hslot, -⟩ := scalar_home_param hparam
    refine ⟨ qk_parse_awk_numeric_prefix ((cells (.parameter slot)).string_view formats), fun output => ?_⟩
    rw [if_pos hparam, run_read_bind, param_read hslot, Option.bind_some]
    exact run_read_emit rfl rfl output
  · rw [if_neg hparam]
    by_cases hstate : is_reusable_runtime_state_name name = true ∨
        runtime_name_uses_numeric_slot_state state name = true
    · obtain ⟨cell, -, -, f, haddress, hread, hprinted⟩ := variable_address_eq hscalar hparam
      refine ⟨(cells cell).number_view, fun output => ?_⟩
      rw [if_pos hstate, haddress, run_read_emit_bind (hread formats cells) (hprinted formats)]
      exact run_read_emit rfl rfl output
    · unfold lower_runtime_scalar_name lower_runtime_constant_string lower_runtime_current_number
      cases hindex : runtime_name_slot_index state name with
      | none =>
        refine ⟨(cells (.entry name.toList)).number_view, fun output => ?_⟩
        rw [if_neg hstate, run_read_emit_bind rfl rfl]
        exact run_read_emit rfl rfl output
      | some index =>
        by_cases hcached : runtime_name_uses_slot_cached_runtime state name = true
        · refine ⟨(cells (.slot index)).number_view, fun output => ?_⟩
          rw [if_neg hstate, run_read_emit_bind rfl rfl]
          dsimp only
          rw [if_pos hcached]
          exact run_read_emit rfl rfl output
        · refine ⟨(cells (.entry name.toList)).number_view, fun output => ?_⟩
          rw [if_neg hstate, run_read_emit_bind rfl rfl]
          dsimp only
          rw [if_neg hcached]
          exact run_read_emit rfl rfl output

/-- The name is kept as a number, or not. -/
theorem numeric_slot_iff (hscalar : ProgramScalar state name) (hparam : ¬ state.is_function_param_string name = true) :
    runtime_name_uses_numeric_slot_state state name = true ↔ scalar_home state name = .number := by
  obtain ⟨hnumeric, hhome⟩ | ⟨_, _, hhome, hcached, _⟩ | ⟨_, _, hhome, hcached, _⟩ | ⟨hhome, _, htable, _⟩ :=
    scalar_home_cases hscalar hparam
  · simp [hnumeric, hhome]
  · simp [cached_not_numeric_slot hcached, hhome]
  · simp [cached_not_numeric_slot hcached, hhome]
  · simp [table_not_numeric_slot htable, hhome]

theorem stores_text_iff {op : AssignOp} {expression : Expr} :
    stores_text state op expression = true ↔
      op = .plain ∧ runtime_assignment_preserves_string state expression = true := by
  simp [stores_text]

theorem StoreKept.text {as_text : Bool} (h : StoreKept formats state name as_text value) (htext : as_text = true)
    (hhome : scalar_home state name ≠ .number) : TextKeeps formats value := by
  subst htext
  unfold StoreKept at h
  split at h
  · exact h.1
  · exact absurd (by assumption) hhome
  · exact h
  · exact h
  · exact h

theorem StoreKept.number {as_text : Bool} (h : StoreKept formats state name as_text value)
    (hhome : scalar_home state name = .number) : NumberKeeps formats value := by
  unfold StoreKept at h
  rw [hhome] at h
  exact h

theorem param_load {slot : Nat} (hslot : state.param_slot name = some slot) :
    run_cells formats arithmetic (load_runtime_function_param_string state name) cells =
      some ((cells (.parameter slot)).string_view formats, cells) :=
  run_cells_of_read (param_read hslot [])

theorem NumberRead.param {slot : Nat} {number : Numeral.Value} (hscalar : ProgramScalar state name)
    (hparam : state.is_function_param_string name = true) (hslot : state.param_slot name = some slot)
    (h : NumberRead formats state name cells number) :
     qk_parse_awk_numeric_prefix ((cells (.parameter slot)).string_view formats) = number := by
  obtain ⟨hnr, hfnr, hnf, -⟩ := hscalar.names
  have hread := h []
  unfold lower_runtime_numeric_name at hread
  rw [if_neg hnr, if_neg hfnr, if_neg hnf, if_pos hparam, run_read_bind, param_read hslot, Option.bind_some,
    run_read_emit rfl rfl] at hread
  exact (Prod.mk.inj (Option.some.inj hread)).1

/-- A number that is assigned to a parameter is stored as its text. -/
theorem run_store_param_number (hparam : state.is_function_param_string name = true) {number : Numeral.Value}
    (hnumber : number = value.number_view) (hkeeps : StoreKept formats state name false value) :
    ∃ after, run_cells formats arithmetic (do
        let string_value ← lower_runtime_string_from_numeric_value number
        store_runtime_function_param_string state name string_value) cells = some ((), after) ∧
      HoldsValue formats state name after value := by
  obtain ⟨slot, hslot, hhome⟩ := scalar_home_param hparam
  unfold StoreKept at hkeeps
  rw [hhome] at hkeeps
  have hformat : formats.convfmt number = value.string_view formats := by
    rw [hnumber]
    exact hkeeps.2 rfl
  have hrun : run_cells formats arithmetic (lower_runtime_string_from_numeric_value number) cells =
      some (formats.convfmt number, cells) := rfl
  rw [run_cells_bind, hrun, Option.bind_some]
  exact run_store_param arithmetic cells hslot hhome hformat hkeeps.1

theorem run_string_to_scalar (hparam : ¬ state.is_function_param_string name = true) (operand : ComparisonOperand) :
    run_cells formats arithmetic (lower_runtime_string_to_scalar_statement state name operand.known name.toList) cells =
      run_cells formats arithmetic (lower_runtime_assign_string_lvalue state (.name name) operand.text) cells := by
  unfold lower_runtime_string_to_scalar_statement lower_runtime_assign_string_lvalue
  simp only [hparam, if_false, Bool.false_eq_true]
  cases runtime_name_slot_index state name with
  | none => rfl
  | some index =>
    change run_cells formats arithmetic (if _ then _ else _) cells = run_cells formats arithmetic (if _ then _ else _) cells
    split_ifs <;> rfl

/-- An assignment statement that copies no scalar keeps what is kept as it is stored. -/
theorem run_assignment_statement (hscalar : ProgramScalar state name) (op : AssignOp) (operand : ComparisonOperand)
    (hcopies : copied_name state name op operand.expression = none)
    (hwritten : Written formats arithmetic state name op operand cells value)
    (hkeeps : StoreKept formats state name (stores_text state op operand.expression) value) :
    ∃ after, run_cells formats arithmetic (lower_runtime_assignment_statement state (.name name) op operand.known)
        cells = some ((), after) ∧ HoldsValue formats state name after value := by
  obtain ⟨current, hread⟩ := exists_number_read formats hscalar cells
  have hcombined := hwritten.combined hread
  unfold lower_runtime_assignment_statement
  dsimp only
  by_cases hparam : state.is_function_param_string name = true
  · obtain ⟨slot, hslot, hhome⟩ := scalar_home_param hparam
    rw [if_pos hparam]
    unfold lower_runtime_param_assignment_statement
    by_cases hstores : op = .plain ∧ runtime_assignment_preserves_string state operand.known.expression = true
    · have htext := hwritten.text hstores.1
      rw [if_pos hstores]
      exact run_store_param arithmetic cells hslot hhome htext
        (hkeeps.text (stores_text_iff.mpr hstores) (by rw [hhome]; simp))
    · have hnot : stores_text state op operand.expression = false := by
        rw [Bool.eq_false_iff]
        exact fun h => hstores (stores_text_iff.mp h)
      rw [hnot] at hkeeps
      rw [if_neg hstores, run_cells_bind, param_load hslot, Option.bind_some, run_cells_bind, run_cells_emit rfl,
        Option.bind_some, hread.param hscalar hparam hslot]
      change ∃ after, run_cells formats arithmetic
        (combine_numeric_assignment op current operand.number >>= fun numeric_value => _) cells = _ ∧ _
      rw [run_cells_bind, run_cells_combine, Option.bind_some]
      exact run_store_param_number hparam hcombined hkeeps
  · rw [if_neg hparam]
    by_cases hnumeric : runtime_name_uses_numeric_slot_state state name = true
    · have hhome := (numeric_slot_iff hscalar hparam).mp hnumeric
      obtain ⟨cell, ⟨f, haddress, hwrite⟩, hcell, hholds⟩ :=
        run_store_state arithmetic hscalar hparam hhome (hkeeps.number hhome)
      rw [if_pos (Or.inr hnumeric)]
      unfold lower_runtime_state_assignment_statement
      rw [haddress, run_cells_bind, run_cells_emit (hwrite cells), Option.bind_some]
      change ∃ after, run_cells formats arithmetic (if op = .plain then _ else _) cells = _ ∧ _
      split_ifs with hop
      · refine ⟨_, rfl, ?_⟩
        subst hop
        change HoldsValue formats state name
          (Function.update cells cell (.number (combined_number arithmetic .plain current operand.number))) value
        rw [hcombined]
        exact hholds cells
      · rw [run_cells_bind, run_cells_emit rfl, Option.bind_some, run_cells_bind, hcell current cells hread,
          run_cells_combine, Option.bind_some, hcombined]
        exact ⟨_, rfl, hholds cells⟩
    · have hhome : scalar_home state name ≠ .number := fun h => hnumeric ((numeric_slot_iff hscalar hparam).mpr h)
      have hnone : (if op = .plain then copies_scalar state name operand.known.expression else none) = none :=
        (copied_name_eq hparam hnumeric).symm.trans hcopies
      rw [if_neg (by simp [hscalar.reusable, hnumeric])]
      unfold lower_runtime_scalar_assignment_statement lower_runtime_scalar_name lower_runtime_constant_string
      rw [run_cells_bind, run_cells_emit rfl, Option.bind_some, hnone]
      dsimp only
      by_cases hstores : op = .plain ∧ runtime_assignment_preserves_string state operand.known.expression = true
      · rw [if_pos hstores, run_string_to_scalar hparam, hwritten.text hstores.1]
        exact run_assign_string arithmetic cells hscalar hhome (hkeeps.text (stores_text_iff.mpr hstores) hhome)
      · have hnot : stores_text state op operand.expression = false := by
          rw [Bool.eq_false_iff]
          exact fun h => hstores (stores_text_iff.mp h)
        rw [hnot] at hkeeps
        rw [if_neg hstores, run_cells_bind, hread.current hscalar hparam (Bool.eq_false_iff.mpr hnumeric),
          Option.bind_some]
        change ∃ after, run_cells formats arithmetic
          (combine_numeric_assignment op current operand.number >>= fun numeric_value => _) cells = _ ∧ _
        rw [run_cells_bind, run_cells_combine, Option.bind_some, hcombined]
        exact run_store_number hscalar hparam hhome hkeeps

theorem run_incremented (delta : Increment) (old_value : Numeral.Value) :
    run_cells formats arithmetic (lower_runtime_incremented delta old_value) cells =
      some (arithmetic delta.opcode old_value (.finite 1), cells) := by
  cases delta <;> rfl

theorem run_cells_then {α : Type} {code : Code ReadValue Unit} {after : ScalarCells} (result : α)
    (h : run_cells formats arithmetic code cells = some ((), after)) :
    run_cells formats arithmetic (code >>= fun _ => pure result) cells = some (result, after) := by
  rw [run_cells_bind, h]
  rfl

theorem run_cells_then_bind {α β : Type} {code : Code ReadValue β} {next : β → Code ReadValue Unit}
    {after : ScalarCells} (result : α) (h : run_cells formats arithmetic (code >>= next) cells = some ((), after)) :
    run_cells formats arithmetic (code >>= fun value => next value >>= fun _ => pure result) cells =
      some (result, after) := by
  rw [run_cells_bind] at h ⊢
  obtain ⟨first, hfirst, hrest⟩ := Option.bind_eq_some_iff.mp h
  rw [hfirst, Option.bind_some]
  exact run_cells_then result hrest

theorem run_cells_performs {α : Type} (expression : Expr) (next : Unit → Code ReadValue α) :
    run_cells formats arithmetic (performs expression >>= next) cells = run_cells formats arithmetic (next ()) cells := rfl

/-- `++` and `--` keep the number they make. -/
theorem run_increment (hscalar : ProgramScalar state name) (expression : Expr) (delta : Increment) (return_old : Bool)
    (hwritten : ∃ current, NumberRead formats state name cells current ∧
      value = .number (arithmetic delta.opcode current (.finite 1)))
    (hkeeps : StoreKept formats state name false value) :
    ∃ result after, run_cells formats arithmetic
        (lower_runtime_increment_expression state expression (some (.name name)) delta return_old) cells =
          some (result, after) ∧ HoldsValue formats state name after value := by
  obtain ⟨current, hread, hvalue⟩ := hwritten
  have hnumber : arithmetic delta.opcode current (.finite 1) = value.number_view := by
    rw [hvalue]
    rfl
  unfold lower_runtime_increment_expression
  dsimp only
  by_cases hparam : state.is_function_param_string name = true
  · obtain ⟨slot, hslot, hhome⟩ := scalar_home_param hparam
    rw [if_pos hparam, run_cells_bind, param_load hslot, Option.bind_some, run_cells_bind, run_cells_emit rfl,
      Option.bind_some, hread.param hscalar hparam hslot, run_cells_bind, run_incremented, Option.bind_some,
      run_cells_performs]
    obtain ⟨after, hrun, hholds⟩ := run_store_param_number hparam hnumber hkeeps
    exact ⟨_, after, run_cells_then_bind _ hrun, hholds⟩
  · rw [if_neg hparam]
    by_cases hnumeric : runtime_name_uses_numeric_slot_state state name = true
    · have hhome := (numeric_slot_iff hscalar hparam).mp hnumeric
      obtain ⟨cell, ⟨f, haddress, hwrite⟩, hcell, hholds⟩ :=
        run_store_state arithmetic hscalar hparam hhome (hkeeps.number hhome)
      rw [if_pos (Or.inr hnumeric), haddress, run_cells_bind, run_cells_emit (hwrite cells), Option.bind_some,
        run_cells_bind, run_cells_emit rfl, Option.bind_some, hcell current cells hread, run_cells_bind,
        run_incremented, Option.bind_some, hnumber]
      exact ⟨_, _, rfl, hholds cells⟩
    · have hhome : scalar_home state name ≠ .number := fun h => hnumeric ((numeric_slot_iff hscalar hparam).mpr h)
      rw [if_neg (by simp [hscalar.reusable, hnumeric])]
      unfold lower_runtime_scalar_name lower_runtime_constant_string
      rw [run_cells_bind, run_cells_emit rfl, Option.bind_some, run_cells_bind,
        hread.current hscalar hparam (Bool.eq_false_iff.mpr hnumeric), Option.bind_some, run_cells_bind,
        run_incremented, Option.bind_some, hnumber, run_cells_performs]
      obtain ⟨after, hrun, hholds⟩ := run_store_number hscalar hparam hhome hkeeps
      exact ⟨_, after, run_cells_then _ hrun, hholds⟩

/-- A copy keeps a value in the scalar table, and a number in a slot beside it. -/
def CopyKept (formats : NumberFormats) (state : LoweringState) (name source : Name) (value : CellContent) : Prop :=
  match scalar_home state name, scalar_home state source with
  | .table, .table => True
  | .table, .mixed_slot _ => True
  | .mixed_slot _, .mixed_slot _ => NumberKeeps formats value
  | _, _ => False

theorem run_copy_statement (arithmetic : Arithmetic) (hscalar : ProgramScalar state name)
    (hsource : runtime_name_uses_scalar_runtime state source = true)
    (hparam : ¬ state.is_function_param_string name = true)
    (hsource_param : ¬ state.is_function_param_string source = true)
    (hholds : HoldsValue formats state source cells value) (hkeeps : CopyKept formats state name source value) :
    ∃ after, run_cells formats arithmetic (lower_runtime_copy_statement state name source name.toList) cells =
        some ((), after) ∧ HoldsValue formats state name after value := by
  unfold CopyKept at hkeeps
  unfold lower_runtime_copy_statement lower_runtime_scalar_name lower_runtime_constant_string
  unfold HoldsValue at hholds ⊢
  rw [run_cells_bind, run_cells_emit rfl, Option.bind_some]
  obtain ⟨_, hhome⟩ | ⟨_, _, hhome, _⟩ | ⟨index, hindex, hhome, hcached, -, hstring⟩ | ⟨hhome, -⟩ :=
    scalar_home_cases hscalar hparam
  · rw [hhome] at hkeeps
    exact hkeeps.elim
  · rw [hhome] at hkeeps
    exact hkeeps.elim
  · obtain ⟨_, hother⟩ | ⟨_, _, hother, _⟩ | ⟨other, hslot, hother, -⟩ | ⟨hother, -⟩ :=
      scalar_home_runtime_cases hsource hsource_param <;> rw [hhome, hother] at hkeeps
    · exact hkeeps.elim
    · exact hkeeps.elim
    · rw [hother] at hholds
      rw [hhome, hindex, hslot]
      obtain ⟨hslot_like, hentry_like⟩ := hholds
      have hlike : ReadsLike formats (.number (cells (.slot other)).number_view) value :=
        ⟨hslot_like.number, (congrArg formats.convfmt hslot_like.number).trans hkeeps.string,
          (congrArg (fun number => (CellContent.number number).truthy) hslot_like.number).trans hkeeps.number_truthy⟩
      exact ⟨_, rfl, by simpa [Function.update] using hlike, by simpa [Function.update] using hentry_like⟩
    · exact hkeeps.elim
  · have hentry_like : ReadsLike formats (cells (.entry source.toList)) value := by
      obtain ⟨_, hother⟩ | ⟨_, _, hother, _⟩ | ⟨other, hslot, hother, -⟩ | ⟨hother, -⟩ :=
        scalar_home_runtime_cases hsource hsource_param <;> rw [hhome, hother] at hkeeps <;> rw [hother] at hholds
      · exact hkeeps.elim
      · exact hkeeps.elim
      · exact hholds.2
      · exact hholds
    rw [hhome]
    cases runtime_name_slot_index state name with
    | none => exact ⟨_, rfl, by simpa using hentry_like⟩
    | some index =>
      cases runtime_name_slot_index state source with
      | none => exact ⟨_, rfl, by simpa using hentry_like⟩
      | some other => exact ⟨_, rfl, by simpa [Function.update] using hentry_like⟩

/-- How a value is kept by an assignment that is an expression: a slot gets the number of a text last. -/
def ExpressionKept (formats : NumberFormats) (state : LoweringState) (name : Name) (as_text : Bool)
    (value : CellContent) : Prop :=
  StoreKept formats state name as_text value ∧
    match scalar_home state name with
    | .string_slot _ | .mixed_slot _ =>
      as_text = true → formats.convfmt value.number_view = value.string_view formats ∧
        (value.number_view != .finite 0) = value.truthy
    | _ => True

theorem run_string_to_scalar_expression (hscalar : ProgramScalar state name)
    (hparam : ¬ state.is_function_param_string name = true) (hhome : scalar_home state name ≠ .number)
    (expression : Expr) (operand : ComparisonOperand) (htext : operand.text = value.string_view formats)
    (hkeeps : ExpressionKept formats state name true value) :
    ∃ result after, run_cells formats arithmetic
        (lower_runtime_string_to_scalar_expression state expression name operand.known name.toList) cells =
          some (result, after) ∧ HoldsValue formats state name after value := by
  obtain ⟨hstore, hslots⟩ := hkeeps
  have htext_keeps := hstore.text rfl hhome
  have hlike : ReadsLike formats (.string (value.string_view formats)) value :=
    ⟨htext_keeps.number, rfl, htext_keeps.truth⟩
  have hparsed := htext_keeps.number
  have hknown : run_cells formats arithmetic operand.known.string cells = some (value.string_view formats, cells) :=
    congrArg (fun text => some (text, cells)) htext
  unfold lower_runtime_string_to_scalar_expression HoldsValue
  rw [run_cells_bind, hknown, Option.bind_some, run_cells_performs]
  obtain ⟨-, hnumber⟩ | ⟨index, hindex, hhome, hcached, hstring, -⟩ | ⟨index, hindex, hhome, hcached, -, hstring⟩ |
    ⟨hhome, hcached, htable, hstring⟩ := scalar_home_cases hscalar hparam
  · exact absurd hnumber hhome
  · rw [hhome] at hslots
    obtain ⟨hformat, -⟩ := hslots rfl
    rw [hhome, hindex]
    dsimp only
    rw [if_pos hstring]
    refine ⟨_, _, rfl, by simpa [CellContent.number_view] using hparsed, ?_, htext_keeps.truth⟩
    dsimp only
    rw [Function.update_self]
    exact (congrArg formats.convfmt hparsed).trans hformat
  · rw [hhome] at hslots
    obtain ⟨hformat, htruth⟩ := hslots rfl
    have hnumber_like : ReadsLike formats (.number ( qk_parse_awk_numeric_prefix (value.string_view formats))) value := by
      rw [hparsed]
      exact ⟨rfl, hformat, htruth⟩
    rw [hhome, hindex]
    dsimp only
    rw [hstring]
    exact ⟨_, _, rfl, by simpa using hnumber_like, by simpa [Function.update] using hlike⟩
  · rw [hhome, hstring]
    cases runtime_name_slot_index state name with
    | none => exact ⟨_, _, rfl, by simpa using hlike⟩
    | some index => exact ⟨_, _, rfl, by simpa [Function.update] using hlike⟩

/-- An assignment expression that copies no scalar. -/
theorem run_assignment_expression (hscalar : ProgramScalar state name) (expression : Expr) (op : AssignOp)
    (operand : ComparisonOperand)
    (hcopies : copied_name state name op operand.expression = none)
    (hwritten : Written formats arithmetic state name op operand cells value)
    (hkeeps : ExpressionKept formats state name (stores_text state op operand.expression) value) :
    ∃ result after, run_cells formats arithmetic
        (lower_runtime_assignment_expression state expression (.name name) op operand.known) cells =
          some (result, after) ∧ HoldsValue formats state name after value := by
  obtain ⟨current, hread⟩ := exists_number_read formats hscalar cells
  have hcombined := hwritten.combined hread
  unfold lower_runtime_assignment_expression
  dsimp only
  by_cases hparam : state.is_function_param_string name = true
  · obtain ⟨slot, hslot, hhome⟩ := scalar_home_param hparam
    rw [if_pos hparam]
    unfold lower_runtime_param_assignment_expression
    by_cases hstores : op = .plain ∧ runtime_assignment_preserves_string state operand.known.expression = true
    · have htext_keeps := hkeeps.1.text (stores_text_iff.mpr hstores) (by rw [hhome]; simp)
      obtain ⟨after, hrun, hholds⟩ :=
        run_store_param arithmetic cells hslot hhome (hwritten.text hstores.1) htext_keeps
      rw [if_pos hstores]
      change ∃ result after, run_cells formats arithmetic
        (store_runtime_function_param_string state name operand.text >>= fun _ => _) cells = _ ∧ _
      rw [run_cells_bind, hrun, Option.bind_some, run_cells_bind, param_load hslot, Option.bind_some]
      exact ⟨_, after, rfl, hholds⟩
    · have hnot : stores_text state op operand.expression = false := by
        rw [Bool.eq_false_iff]
        exact fun h => hstores (stores_text_iff.mp h)
      rw [hnot] at hkeeps
      rw [if_neg hstores, run_cells_bind, param_load hslot, Option.bind_some, run_cells_bind, run_cells_emit rfl,
        Option.bind_some, hread.param hscalar hparam hslot]
      change ∃ result after, run_cells formats arithmetic
        (combine_numeric_assignment op current operand.number >>= fun numeric_value => _) cells = _ ∧ _
      rw [run_cells_bind, run_cells_combine, Option.bind_some, run_cells_performs]
      obtain ⟨after, hrun, hholds⟩ := run_store_param_number hparam hcombined hkeeps.1
      exact ⟨_, after, run_cells_then_bind _ hrun, hholds⟩
  · rw [if_neg hparam]
    by_cases hnumeric : runtime_name_uses_numeric_slot_state state name = true
    · have hhome := (numeric_slot_iff hscalar hparam).mp hnumeric
      obtain ⟨cell, ⟨f, haddress, hwrite⟩, hcell, hholds⟩ :=
        run_store_state arithmetic hscalar hparam hhome (hkeeps.1.number hhome)
      rw [if_pos (Or.inr hnumeric)]
      unfold lower_runtime_state_assignment_expression
      rw [haddress, run_cells_bind, run_cells_emit (hwrite cells), Option.bind_some, run_cells_bind,
        run_cells_emit rfl, Option.bind_some, hcell current cells hread]
      change ∃ result after, run_cells formats arithmetic
        (combine_numeric_assignment op current operand.number >>= fun numeric_value => _) cells = _ ∧ _
      rw [run_cells_bind, run_cells_combine, Option.bind_some, run_cells_performs, hcombined]
      exact ⟨_, _, rfl, hholds cells⟩
    · have hhome : scalar_home state name ≠ .number := fun h => hnumeric ((numeric_slot_iff hscalar hparam).mpr h)
      have hnone : (if op = .plain then copies_scalar state name operand.known.expression else none) = none :=
        (copied_name_eq hparam hnumeric).symm.trans hcopies
      rw [if_neg (by simp [hscalar.reusable, hnumeric])]
      unfold lower_runtime_scalar_assignment_expression lower_runtime_scalar_name lower_runtime_constant_string
      rw [run_cells_bind, run_cells_emit rfl, Option.bind_some, hnone]
      dsimp only
      by_cases hstores : op = .plain ∧ runtime_assignment_preserves_string state operand.known.expression = true
      · have htext : stores_text state op operand.expression = true := stores_text_iff.mpr hstores
        rw [htext] at hkeeps
        rw [if_pos hstores]
        exact run_string_to_scalar_expression hscalar hparam hhome expression operand (hwritten.text hstores.1) hkeeps
      · have hnot : stores_text state op operand.expression = false := by
          rw [Bool.eq_false_iff]
          exact fun h => hstores (stores_text_iff.mp h)
        rw [hnot] at hkeeps
        rw [if_neg hstores, run_cells_bind, hread.current hscalar hparam (Bool.eq_false_iff.mpr hnumeric),
          Option.bind_some]
        change ∃ result after, run_cells formats arithmetic
          (combine_numeric_assignment op current operand.number >>= fun numeric_value => _) cells = _ ∧ _
        rw [run_cells_bind, run_cells_combine, Option.bind_some, run_cells_performs, hcombined]
        obtain ⟨after, hrun, hholds⟩ := run_store_number hscalar hparam hhome hkeeps.1
        exact ⟨_, after, run_cells_then _ hrun, hholds⟩

theorem run_copy_expression (arithmetic : Arithmetic) (hscalar : ProgramScalar state name)
    (hsource : runtime_name_uses_scalar_runtime state source = true)
    (expression : Expr) (hparam : ¬ state.is_function_param_string name = true)
    (hsource_param : ¬ state.is_function_param_string source = true)
    (hholds : HoldsValue formats state source cells value) (hkeeps : CopyKept formats state name source value) :
    ∃ result after, run_cells formats arithmetic
        (lower_runtime_copy_expression state expression name source name.toList) cells = some (result, after) ∧
      HoldsValue formats state name after value := by
  obtain ⟨after, hrun, hafter⟩ := run_copy_statement arithmetic hscalar hsource hparam hsource_param hholds hkeeps
  unfold lower_runtime_copy_statement at hrun
  unfold lower_runtime_copy_expression
  cases hslot : runtime_name_slot_index state name with
  | none =>
    rw [hslot] at hrun
    cases hrun
    exact ⟨_, _, rfl, hafter⟩
  | some index =>
    cases hother : runtime_name_slot_index state source with
    | none =>
      rw [hslot, hother] at hrun
      cases hrun
      exact ⟨_, _, rfl, hafter⟩
    | some other =>
      rw [hslot, hother] at hrun
      cases hrun
      exact ⟨_, _, rfl, hafter⟩

/-- An assignment that is read as a string. -/
theorem run_string_assignment (hscalar : ProgramScalar state name) (expression : Expr) (operand : ComparisonOperand)
    (hpreserves : runtime_assignment_preserves_string state operand.expression = true)
    (htext : operand.text = value.string_view formats) (hhome : scalar_home state name ≠ .number)
    (hkeeps : TextKeeps formats value) :
    ∃ result after, run_cells formats arithmetic
        (lower_runtime_string_assignment state expression (.name name) operand.known) cells = some (result, after) ∧
      HoldsValue formats state name after value := by
  unfold lower_runtime_string_assignment
  rw [if_neg (show ¬ runtime_assignment_preserves_string state operand.known.expression = false by
    rw [Bool.not_eq_false]; exact hpreserves)]
  dsimp only
  by_cases hparam : state.is_function_param_string name = true
  · obtain ⟨slot, hslot, hhome⟩ := scalar_home_param hparam
    obtain ⟨after, hrun, hholds⟩ := run_store_param arithmetic cells hslot hhome htext hkeeps
    rw [if_pos hparam]
    change ∃ result after, run_cells formats arithmetic
      (store_runtime_function_param_string state name operand.text >>= fun _ => _) cells = _ ∧ _
    rw [run_cells_bind, hrun, Option.bind_some, param_load hslot]
    exact ⟨_, after, rfl, hholds⟩
  · obtain ⟨after, hrun, hholds⟩ := run_assign_string arithmetic cells hscalar hhome hkeeps
    rw [if_neg hparam, if_neg (by simp [hscalar.reusable])]
    change ∃ result after, run_cells formats arithmetic (lower_runtime_string_to_scalar state name operand.text) cells =
      _ ∧ _
    unfold lower_runtime_assign_string_lvalue at hrun
    simp only [hparam, if_false, Bool.false_eq_true] at hrun
    rw [← htext] at hrun
    unfold lower_runtime_string_to_scalar
    cases hslot : runtime_name_slot_index state name with
    | none =>
      rw [hslot] at hrun
      cases hrun
      exact ⟨_, _, rfl, hholds⟩
    | some index =>
      rw [hslot] at hrun
      dsimp only at hrun ⊢
      split_ifs at hrun ⊢
      all_goals
        cases hrun
        exact ⟨_, _, rfl, hholds⟩

theorem write_op_same {types : List Ty} {type : Ty} {f : Op types type} {operands : Operands ReadValue types}
    {result : ReadValue type} {after : ScalarCells}
    (h : write_op formats arithmetic cells f operands = some (result, after)) :
    Produces f result ∧ ∀ cell, cell ∉ written_by f operands → after cell = cells cell := by
  have hupdate : ∀ (written : Cell) (content : CellContent) (cell : Cell), cell ∉ [written] →
      Function.update cells written content cell = cells cell := fun written content cell hcell =>
    Function.update_of_ne (fun heq => hcell (List.mem_singleton.mpr heq)) content cells
  cases f with
  | store_double | store_parameter | qk_scalar_set_string | qk_scalar_set_number_inline | qk_scalar_copy
  | qk_slot_set_number | qk_slot_set_string =>
    cases h
    exact ⟨trivial, hupdate _ _⟩
  | fadd | fsub | fmul | fdiv | llvm_pow | llvm_trunc =>
    cases h
    exact ⟨trivial, fun _ _ => rfl⟩
  | number constant =>
    cases constant <;> cases h
    all_goals exact ⟨trivial, fun _ _ => rfl⟩
  | string_constant | local_variable | state_variable =>
    cases h
    exact ⟨rfl, fun _ _ => rfl⟩
  | _ =>
    simp only [write_op] at h
    obtain ⟨_, -, heq⟩ := Option.map_eq_some_iff.mp h
    cases heq
    exact ⟨trivial, fun _ _ => rfl⟩

theorem WritesOnly.same {α : Type} {allowed : List Cell} {code : Code ReadValue α} (h : WritesOnly allowed code)
    {result : α} {after : ScalarCells} (hrun : run_cells formats arithmetic code cells = some (result, after))
    {cell : Cell} (hcell : cell ∉ allowed) : after cell = cells cell := by
  induction code generalizing cells with
  | done value =>
    simp only [run_cells, Option.some.injEq, Prod.mk.injEq] at hrun
    rw [hrun.2]
  | op f operands next ih =>
    simp only [run_cells] at hrun
    obtain ⟨⟨middle, middle_cells⟩, hwrite, hnext⟩ := Option.bind_eq_some_iff.mp hrun
    obtain ⟨hproduces, hsame⟩ := write_op_same hwrite
    rw [ih middle (h.2 middle hproduces) hnext]
    exact hsame cell fun hmem => hcell (h.1 cell hmem)
  | note mark next ih => exact ih h hrun
  | choice | short_circuit | guarded | attempt | raise | crash => cases hrun

theorem HoldsValue.congr {after : ScalarCells} (h : HoldsValue formats state name cells value)
    (hsame : ∀ cell ∈ name_cells state name, after cell = cells cell)
    (hscalar : ProgramScalar state name) : HoldsValue formats state name after value := by
  unfold HoldsValue at h ⊢
  by_cases hparam : state.is_function_param_string name = true
  · obtain ⟨slot, hslot, hhome⟩ := scalar_home_param hparam
    have hcell := hsame (.parameter slot) (mem_name_cells.mpr (Or.inr (Or.inr (Or.inr (Or.inl ⟨slot, hslot, rfl⟩)))))
    rw [hhome] at h ⊢
    dsimp only at h ⊢
    rw [hcell]
    exact h
  · have hentry := hsame (.entry name.toList) entry_mem
    obtain ⟨-, hhome⟩ | ⟨index, hindex, hhome, -⟩ | ⟨index, hindex, hhome, -⟩ | ⟨hhome, -⟩ :=
      scalar_home_cases hscalar hparam
    all_goals
      rw [hhome] at h ⊢
      dsimp only at h ⊢
    · obtain ⟨cell, hcell, hmem, -⟩ := variable_address_eq hscalar hparam
      refine ⟨fun other hother => ?_, h.2⟩
      rw [hcell, Option.mem_def, Option.some.injEq] at hother
      subst hother
      rw [hsame cell hmem]
      exact h.1 cell hcell
    · rw [hsame (.slot index) (slot_mem hindex)]
      exact h
    · rw [hsame (.slot index) (slot_mem hindex), hentry]
      exact h
    · rw [hentry]
      exact h

end quawk
