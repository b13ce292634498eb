import Quawk.ComparisonKinds
import Quawk.LowerProgram

open StructuredCode (Operands)
open StructuredCode.Code (emit)

namespace quawk

open Numeral (qk_is_full_numeric_string qk_parse_awk_numeric_prefix)

/-- A place in memory where the value of a scalar is: a variable of a function, a field of `%quawk.state`, a
parameter, a slot of the runtime, an entry of its scalar table. -/
inductive Cell where
  | local_variable (name : Name)
  | state_variable (index : Nat)
  | parameter (slot : Nat)
  | slot (index : Nat)
  | entry (name : Text)
  deriving DecidableEq

inductive CellContent where
  | unset
  | number (value : Numeral.Value)
  | string (text : Text)

abbrev ScalarCells := Cell → CellContent

/-- `render_driver_state_setup` stores 0 in every field of the state, as `variable_address` does in a local
variable; a parameter that is not passed is an empty text; the runtime starts with no entries and no slots. -/
def initial_cells : ScalarCells
  | .local_variable _ => .number (.finite 0)
  | .state_variable _ => .number (.finite 0)
  | .parameter _ => .string []
  | .slot _ => .unset
  | .entry _ => .unset

section Cells

variable (state : LoweringState) (name : Name)

/-- The cells in which the backend keeps a name. -/
def name_cells : List Cell :=
  [.local_variable name, .entry name.toList] ++
    (state.variable_indexes.get name).toList.map .state_variable ++
    (state.param_slot name).toList.map .parameter ++
    (runtime_name_slot_index state name).toList.map .slot

/-- An assignment of a run: to a cell of its name, in the same function or another part of the program, whose
parameters are not those that are read. -/
structure ScalarWrite (state : LoweringState) where
  writer : LoweringState
  name : Name
  cell : Cell
  content : CellContent
  own : cell ∈ name_cells writer name
  same_slots : writer.variable_indexes = state.variable_indexes ∧ writer.slot_allocation = state.slot_allocation
  same_function : writer.function_param_strings = state.function_param_strings ∨ ∀ slot, cell ≠ .parameter slot

/-- What lowering makes sure of: names have slots of their own. -/
structure OwnSlots : Prop where
  slots : state.slot_allocation = allocate_slots_for_variable_indexes state.variable_indexes
  parameters : (state.function_param_strings.map Prod.snd).Nodup

def run_writes (writes : List (ScalarWrite state)) : ScalarCells :=
  writes.foldl (fun cells write => Function.update cells write.cell write.content) initial_cells

end Cells

variable {state : LoweringState} {name : Name} {allowed : List Cell}

theorem mem_name_cells {cell : Cell} :
    cell ∈ name_cells state name ↔
      cell = .local_variable name ∨ cell = .entry name.toList ∨
      (∃ index, state.variable_indexes.get name = some index ∧ cell = .state_variable index) ∨
      (∃ slot, state.param_slot name = some slot ∧ cell = .parameter slot) ∨
      ∃ index, runtime_name_slot_index state name = some index ∧ cell = .slot index := by
  simp [name_cells, eq_comm]

theorem get_getElem? {variable_indexes : VariableIndexes} {index : Nat}
    (h : variable_indexes.get name = some index) : variable_indexes[index]? = some name := by
  obtain ⟨hlt, heq, -⟩ := List.findIdx?_eq_some_iff_getElem.mp h
  rw [List.getElem?_eq_getElem hlt, beq_iff_eq.mp heq]

theorem slot_index_getElem? {index : Nat}
    (hslots : state.slot_allocation = allocate_slots_for_variable_indexes state.variable_indexes)
    (h : runtime_name_slot_index state name = some index) : state.variable_indexes[index]? = some name := by
  unfold runtime_name_slot_index at h
  split_ifs at h
  cases hslot : state.slot_allocation.get_slot name with
  | none => simp [hslot] at h
  | some slot =>
    simp only [hslot, Option.ite_none_right_eq_some, Option.some.injEq] at h
    obtain ⟨-, rfl⟩ := h
    have hname : slot.name = name := by simpa using List.find?_some hslot
    have hmem := List.mem_of_find?_eq_some hslot
    rw [hslots, allocate_slots_for_variable_indexes, List.mem_map] at hmem
    obtain ⟨⟨other, position⟩, hzip, rfl⟩ := hmem
    rw [← hname]
    exact List.mk_mem_zipIdx_iff_getElem?.mp hzip

theorem param_slot_mem {slot : Nat} (h : state.param_slot name = some slot) :
    (name, slot) ∈ state.function_param_strings := by
  obtain ⟨⟨other, position⟩, hfind, rfl⟩ := Option.map_eq_some_iff.mp h
  have hname : other = name := by simpa using List.find?_some hfind
  have hmem := List.mem_of_find?_eq_some hfind
  rw [List.mem_reverse] at hmem
  rwa [← hname]

/-- A cell is the cell of one name only. -/
theorem OwnSlots.cell_name (h : OwnSlots state) (write : ScalarWrite state)
    (hcell : write.cell ∈ name_cells state name) : write.name = name := by
  obtain ⟨writer, other, cell, content, hown, ⟨hindexes, hallocation⟩, hfunction⟩ := write
  have hslots : writer.slot_allocation = allocate_slots_for_variable_indexes writer.variable_indexes := by
    rw [hallocation, hindexes, h.slots]
  simp only at hcell ⊢
  rw [mem_name_cells] at hcell hown
  obtain rfl | rfl | ⟨index, hindex, rfl⟩ | ⟨slot, hslot, rfl⟩ | ⟨index, hindex, rfl⟩ := hcell
  · simpa [eq_comm] using hown
  · simpa [eq_comm, String.toList_inj] using hown
  · simp only [reduceCtorEq, and_false, exists_false, or_false, false_or, Cell.state_variable.injEq] at hown
    obtain ⟨_, hother, rfl⟩ := hown
    have hboth := get_getElem? hother
    rw [hindexes, get_getElem? hindex] at hboth
    exact (Option.some.inj hboth).symm
  · simp only [reduceCtorEq, and_false, exists_false, or_false, false_or, Cell.parameter.injEq] at hown
    obtain ⟨_, hother, rfl⟩ := hown
    have hmem := param_slot_mem hother
    rw [hfunction.resolve_right fun hnone => hnone slot rfl] at hmem
    have hsame := List.inj_on_of_nodup_map h.parameters hmem (param_slot_mem hslot) rfl
    exact congrArg Prod.fst hsame
  · simp only [reduceCtorEq, and_false, exists_false, false_or, Cell.slot.injEq] at hown
    obtain ⟨_, hother, rfl⟩ := hown
    have hboth := slot_index_getElem? hslots hother
    rw [hindexes, slot_index_getElem? h.slots hindex] at hboth
    exact (Option.some.inj hboth).symm

/-- A run that assigns to other names leaves the cells of a name as they were. -/
theorem foldl_writes_same (h : OwnSlots state) (writes : List (ScalarWrite state))
    (hother : ∀ write ∈ writes, write.name ≠ name) {cell : Cell} (hcell : cell ∈ name_cells state name) :
    ∀ cells : ScalarCells,
      writes.foldl (fun cells write => Function.update cells write.cell write.content) cells cell = cells cell := by
  induction writes with
  | nil => exact fun _ => rfl
  | cons write writes ih =>
    intro cells
    have hne : cell ≠ write.cell := by
      rintro rfl
      exact hother write List.mem_cons_self (h.cell_name write hcell)
    rw [List.foldl_cons, ih (fun other hmem => hother other (List.mem_cons_of_mem write hmem)),
      Function.update_of_ne hne]

abbrev ReadValue : Ty → Type
  | .ptr => Text
  | .double => Numeral.Value
  | .i1 => ComparisonBit
  | .i8 => Option Char
  | .addr => Cell
  | _ => Unit

/-- The code of an operand whose value is known. -/
def ComparisonOperand.known (operand : ComparisonOperand) : Lowered ReadValue where
  expression := operand.expression
  numeric := pure operand.number
  string := pure operand.text
  condition := raise ""

/-- The cells an instruction writes. -/
def written_by : {types : List Ty} → {type : Ty} → Op types type → Operands ReadValue types → List Cell
  | _, _, .store_double, (_, cell, ()) => [cell]
  | _, _, .store_parameter slot, _ => [.parameter slot]
  | _, _, .qk_scalar_set_string, (name, _) => [.entry name]
  | _, _, .qk_scalar_set_number_inline, (name, _) => [.entry name]
  | _, _, .qk_scalar_copy, (target, _) => [.entry target]
  | _, _, .qk_slot_set_number index, _ => [.slot index]
  | _, _, .qk_slot_set_string index, _ => [.slot index]
  | _, _, _, _ => []

/-- What is known of the result of an instruction, in any state: the constants and addresses. -/
def Produces : {types : List Ty} → {type : Ty} → Op types type → ReadValue type → Prop
  | _, _, .string_constant text, value => value = text
  | _, _, .local_variable name, value => value = .local_variable name
  | _, _, .state_variable _ index, value => value = .state_variable index
  | _, _, _, _ => True

/-- Straight code that writes no other cells, whatever it reads. -/
def WritesOnly {α : Type} (allowed : List Cell) : Code ReadValue α → Prop
  | .done _ => True
  | .op f operands next =>
    (∀ cell ∈ written_by f operands, cell ∈ allowed) ∧ ∀ value, Produces f value → WritesOnly allowed (next value)
  | .note _ next => WritesOnly allowed next
  | .raise _ => True
  | .crash => True
  | _ => False

theorem WritesOnly.bind {α β : Type} {code : Code ReadValue α} {next : α → Code ReadValue β}
    (h : WritesOnly allowed code) (hnext : ∀ value, WritesOnly allowed (next value)) :
    WritesOnly allowed (code >>= next) := by
  change WritesOnly allowed (code.bind next)
  induction code with
  | done value => exact hnext value
  | op f operands rest ih => exact ⟨h.1, fun value hvalue => ih value (h.2 value hvalue) hnext⟩
  | note mark rest ih => exact ih h hnext
  | raise | crash => trivial
  | choice | short_circuit | guarded | attempt => exact h.elim

theorem WritesOnly.op {types : List Ty} {type : Ty} {α : Type} {f : Op types type} {operands : Operands ReadValue types}
    {next : ReadValue type → Code ReadValue α} (hwritten : ∀ cell ∈ written_by f operands, cell ∈ allowed)
    (hnext : ∀ value, Produces f value → WritesOnly allowed (next value)) :
    WritesOnly allowed (emit f operands >>= next) := ⟨hwritten, hnext⟩

theorem WritesOnly.silent {types : List Ty} {type : Ty} {f : Op types type} {operands : Operands ReadValue types}
    (h : written_by f operands = []) : WritesOnly allowed (emit f operands) :=
  ⟨fun cell hcell => absurd hcell (by simp [h]), fun _ _ => trivial⟩

theorem WritesOnly.store {types : List Ty} {f : Op types .unit} {operands : Operands ReadValue types}
    (h : ∀ cell ∈ written_by f operands, cell ∈ allowed) : WritesOnly allowed (emit_void f operands) :=
  ⟨h, fun _ _ => trivial⟩

theorem entry_mem : Cell.entry name.toList ∈ name_cells state name := mem_name_cells.mpr (Or.inr (Or.inl rfl))

theorem slot_mem {index : Nat} (h : runtime_name_slot_index state name = some index) :
    Cell.slot index ∈ name_cells state name :=
  mem_name_cells.mpr (Or.inr (Or.inr (Or.inr (Or.inr ⟨index, h, rfl⟩))))

/-- The scalar's name is the constant in the program. -/
theorem WritesOnly.scalar_name {α : Type} {next : Text → Code ReadValue α} (h : WritesOnly allowed (next name.toList)) :
    WritesOnly allowed (lower_runtime_scalar_name name >>= next) :=
  .op (fun _ hcell => nomatch hcell) (fun value hvalue => by cases hvalue; exact h)

theorem WritesOnly.entry {f : Op [.ptr, .ptr] .unit} {text : Text}
    (h : written_by f (name.toList, text, ()) = [.entry name.toList]) :
    WritesOnly (name_cells state name) (emit_void f (name.toList, text, ())) :=
  .store (by rw [h]; simpa using entry_mem)

theorem WritesOnly.store_parameter (state : LoweringState) (name : Name) (text : Text) :
    WritesOnly (name_cells state name) (store_runtime_function_param_string state name text) := by
  unfold store_runtime_function_param_string
  split
  · rename_i slot hslot
    refine .bind (.silent rfl) fun captured => .store ?_
    simpa [written_by] using mem_name_cells.mpr (Or.inr (Or.inr (Or.inr (Or.inl ⟨slot, hslot, rfl⟩))))
  · trivial

theorem WritesOnly.assign_string (state : LoweringState) (name : Name) (text : Text) :
    WritesOnly (name_cells state name) (lower_runtime_assign_string_lvalue state (.name name) text) := by
  unfold lower_runtime_assign_string_lvalue
  by_cases hparam : state.is_function_param_string name = true
  · simp only [hparam, if_true]
    exact .store_parameter state name text
  · simp only [hparam, if_false, Bool.false_eq_true]
    cases hindex : runtime_name_slot_index state name with
    | none =>
      exact .scalar_name (.entry rfl)
    | some index =>
      have hslot : ∀ cell ∈ [Cell.slot index], cell ∈ name_cells state name := by simpa using slot_mem hindex
      dsimp only
      split_ifs
      · exact .store hslot
      · exact .scalar_name (.bind (.entry rfl) fun _ => .store hslot)

theorem WritesOnly.load_parameter (state : LoweringState) (name : Name) :
    WritesOnly allowed (load_runtime_function_param_string state name) := by
  unfold load_runtime_function_param_string
  split
  · exact .silent rfl
  · trivial

theorem WritesOnly.combine (op : AssignOp) (current update : Numeral.Value) :
    WritesOnly allowed (combine_numeric_assignment op current update) := by
  cases op with
  | plain => trivial
  | mod => exact .bind (.silent rfl) fun _ => .bind (.silent rfl) fun _ => .bind (.silent rfl) fun _ => .silent rfl
  | _ => exact .silent rfl

theorem WritesOnly.current_number (state : LoweringState) (name : Name) (scalar_name : Text) :
    WritesOnly allowed (lower_runtime_current_number state name scalar_name) := by
  unfold lower_runtime_current_number
  split
  · split_ifs <;> exact .silent rfl
  · exact .silent rfl

theorem WritesOnly.store_number (state : LoweringState) (name : Name) (value : Numeral.Value) :
    WritesOnly (name_cells state name) (store_runtime_number state name name.toList value) := by
  unfold store_runtime_number
  have hentry : WritesOnly (name_cells state name)
      (emit_void .qk_scalar_set_number_inline (name.toList, value, ())) :=
    .store (by simpa [written_by] using entry_mem)
  cases hindex : runtime_name_slot_index state name with
  | none => exact hentry
  | some index =>
    dsimp only
    split_ifs
    · exact .bind (.store (by simpa [written_by] using slot_mem hindex)) fun _ => hentry
    · exact hentry

theorem WritesOnly.incremented (delta : Increment) (old_value : Numeral.Value) :
    WritesOnly allowed (lower_runtime_incremented delta old_value) := by
  cases delta with
  | increment | decrement => exact .bind (.silent rfl) fun _ => .silent rfl

theorem WritesOnly.known_string (value : ComparisonOperand) : WritesOnly allowed value.known.string := trivial

theorem WritesOnly.known_number (value : ComparisonOperand) : WritesOnly allowed value.known.numeric := trivial

/-- The address of a name is that of one of its cells. -/
theorem WritesOnly.address {α : Type} {next : Cell → Code ReadValue α}
    (h : ∀ cell ∈ name_cells state name, WritesOnly allowed (next cell)) :
    WritesOnly allowed (variable_address state name >>= next) := by
  unfold variable_address
  split_ifs
  · exact .op (fun _ hcell => nomatch hcell) (fun value hvalue => by
      cases hvalue
      exact h _ (mem_name_cells.mpr (Or.inl rfl)))
  · split
    · rename_i index hindex
      exact .op (fun _ hcell => nomatch hcell) (fun value hvalue => by
        cases hvalue
        exact h _ (mem_name_cells.mpr (Or.inr (Or.inr (Or.inl ⟨index, hindex, rfl⟩)))))
    · trivial

/-- An assignment writes cells of its name only. -/
theorem assignment_writes_only (state : LoweringState) (name : Name) (op : AssignOp) (value : ComparisonOperand) :
    WritesOnly (name_cells state name) (lower_runtime_assignment_statement state (.name name) op value.known) := by
  unfold lower_runtime_assignment_statement
  dsimp only
  split_ifs
  · unfold lower_runtime_param_assignment_statement
    split_ifs
    · exact .store_parameter state name value.text
    · refine .bind (.load_parameter state name) fun _ => .bind (.silent rfl) fun current =>
        .bind (.known_number value) fun number => .bind (.combine op current number) fun _ => ?_
      exact .bind (.bind (.silent rfl) fun _ => .silent rfl) fun text => .store_parameter state name text
  · unfold lower_runtime_state_assignment_statement
    refine .address fun cell hcell => ?_
    have hstore : ∀ stored : Numeral.Value, WritesOnly (name_cells state name)
        (emit_void .store_double (stored, cell, ())) :=
      fun stored => .store (by simpa [written_by] using hcell)
    change WritesOnly _ (if op = .plain then _ else _)
    split_ifs
    · exact hstore value.number
    · exact .bind (.silent rfl) fun current => .bind (.combine op current value.number) hstore
  · unfold lower_runtime_scalar_assignment_statement
    refine .scalar_name ?_
    split
    · rename_i source hsource
      unfold lower_runtime_copy_statement
      refine .scalar_name (.bind (.entry rfl) fun _ => ?_)
      split
      · rename_i index _ hindex _
        exact .bind (.silent rfl) fun _ => .store (by simpa [written_by] using slot_mem hindex)
      · trivial
    · split_ifs
      · unfold lower_runtime_string_to_scalar_statement
        refine .bind (.known_string value) fun text => ?_
        cases hindex : runtime_name_slot_index state name with
        | none => exact .entry rfl
        | some index =>
          have hslot : ∀ cell ∈ [Cell.slot index], cell ∈ name_cells state name := by simpa using slot_mem hindex
          dsimp only
          split_ifs
          · exact .store hslot
          · exact .bind (.entry rfl) fun _ => .store hslot
      · exact .bind (.current_number state name _) fun current => .bind (.known_number value) fun number =>
          .bind (.combine op current number) (.store_number state name)

theorem increment_writes_only (state : LoweringState) (expression : Expr) (name : Name) (delta : Increment)
    (return_old : Bool) :
    WritesOnly (name_cells state name)
      (lower_runtime_increment_expression state expression (some (.name name)) delta return_old) := by
  unfold lower_runtime_increment_expression
  dsimp only
  by_cases hparam : state.is_function_param_string name = true
  · rw [if_pos hparam]
    refine .bind (.load_parameter state name) fun _ => .bind (.silent rfl) fun old_value =>
      .bind (.incremented delta old_value) fun _ => ?_
    refine .bind trivial fun _ => .bind (.bind (.silent rfl) fun _ => .silent rfl) fun text => ?_
    exact .bind (.store_parameter state name text) fun _ => trivial
  · rw [if_neg hparam]
    by_cases hstate : is_reusable_runtime_state_name name = true ∨
        runtime_name_uses_numeric_slot_state state name = true
    · rw [if_pos hstate]
      refine .address fun cell hcell => .bind (.silent rfl) fun old_value =>
        .bind (.incremented delta old_value) fun _ => .bind trivial fun _ => .bind (.store ?_) fun _ => trivial
      simpa [written_by] using hcell
    · rw [if_neg hstate]
      refine .scalar_name (.bind (.current_number state name _) fun old_value =>
        .bind (.incremented delta old_value) fun new_value => .bind trivial fun _ => ?_)
      exact .bind (.store_number state name new_value) fun _ => trivial

/-- The slots a program is lowered with are its names' own. -/
theorem lowering_state_ownSlots {program : Program} {normalized_program : NormalizedLoweringProgram}
    (type_info : VariableTypes) (lowered_unit : LoweredUnit)
    (h : normalized_program.slot_allocation =
      allocate_slots_for_variable_indexes normalized_program.variable_indexes) :
    OwnSlots (lowering_state program normalized_program type_info lowered_unit) where
  slots := by
    cases lowered_unit with
    | _ => exact h
  parameters := by
    cases lowered_unit with
    | user_function definition =>
      change ((definition.params.zipIdx).map Prod.snd).Nodup
      rw [List.zipIdx_map_snd]
      exact List.nodup_range'
    | _ => exact List.nodup_nil

theorem run_writes_same (h : OwnSlots state) {writes : List (ScalarWrite state)}
    (hother : ∀ write ∈ writes, write.name ≠ name) {cell : Cell} (hcell : cell ∈ name_cells state name) :
    run_writes state writes cell = initial_cells cell :=
  foldl_writes_same h writes hother hcell initial_cells

end quawk
