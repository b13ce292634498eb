import Quawk.Lib.CodeLimits
import Quawk.StorageCoherence

open StructuredCode (Operands)
open StructuredCode.Code (emit bind_eq_ok)

namespace quawk

variable {formats : NumberFormats} {state : LoweringState} {name : Name} {cells : ScalarCells} {value : CellContent}
  {arithmetic : Arithmetic}

/-- The cells that the code of one part of a program has of its own. -/
def Cell.is_own : Cell → Bool
  | .local_variable _ | .parameter _ => true
  | .state_variable _ | .slot _ | .entry _ => false

/-- The units of a program that run, a phase each time it is run and a function each time it is called: they have their
parameters and local variables of their own, and the rest from the program. -/
structure ProgramUnits (units : Nat → LoweringState) : Prop where
  slots : ∀ unit, OwnSlots (units unit)
  indexes : ∀ unit other, (units unit).variable_indexes = (units other).variable_indexes
  allocation : ∀ unit other, (units unit).slot_allocation = (units other).slot_allocation
  types : ∀ unit other, (units unit).type_info = (units other).type_info

/-- The phases and functions of a program are such units: its lowering gives all of them the same slots and types. -/
theorem lowered_program_units {program : Program} {normalized_program : NormalizedLoweringProgram}
    (hnormalize : normalize_program_for_lowering program = .ok normalized_program) (type_info : VariableTypes)
    (lowered_unit : Nat → LoweredUnit) :
    ProgramUnits fun unit => lowering_state program normalized_program type_info (lowered_unit unit) := by
  obtain ⟨phases, -, hnormalize⟩ := bind_eq_ok hnormalize
  obtain ⟨variable_indexes, -, hnormalize⟩ := bind_eq_ok hnormalize
  cases hnormalize
  refine ⟨fun unit => lowering_state_ownSlots type_info _ rfl, fun unit other => ?_, fun unit other => ?_,
    fun unit other => ?_⟩
  all_goals
    cases lowered_unit unit with
    | _ => cases lowered_unit other with
      | _ => rfl

/-- A part of the code of a unit, with the loops around it that bind their variable to a key. -/
structure ProgramPart where
  unit : Nat
  bindings : List Name

def ProgramPart.lowering (units : Nat → LoweringState) (part : ProgramPart) : LoweringState :=
  { units part.unit with loop_string_bindings := part.bindings }

/-- What each unit finds in the cells. -/
abbrev ProgramCells := Nat → ScalarCells

/-- The cells before anything is written: a call has the texts that are passed to it. -/
def start_cells (arguments : Nat → Nat → Text) : ProgramCells := fun unit cell =>
  match cell with
  | .parameter slot => .string (arguments unit slot)
  | cell => initial_cells cell

/-- A unit has written its own cells, or those of the program. -/
def ProgramCells.written (memory : ProgramCells) (unit : Nat) (after : ScalarCells) : ProgramCells :=
  fun other cell => if other = unit ∨ cell.is_own = false then after cell else memory other cell

/-- A variable of the program, or a parameter or local of one call of a function. -/
inductive ProgramVariable where
  | shared (name : Name)
  | parameter (unit : Nat) (name : Name)
  deriving DecidableEq

/-- What was written last to each variable, and which part of the program wrote it. -/
abbrev LastWritten := ProgramVariable → Option (ProgramPart × CellContent)

section Units

variable (units : Nat → LoweringState)

def variable_of (part : ProgramPart) (name : Name) : ProgramVariable :=
  if (part.lowering units).is_function_param_string name then .parameter part.unit name else .shared name

/-- What one part writes to a name, another one reads: they are parts of one unit, or neither keeps the name in a local
variable. -/
def WriteReaches (writer reader : ProgramPart) (name : Name) : Prop :=
  writer.unit = reader.unit ∨ runtime_name_uses_local_numeric_storage (writer.lowering units) name = false ∧
    runtime_name_uses_local_numeric_storage (reader.lowering units) name = false

/-- The write is kept where it is stored, and what it reads is read where it was written. -/
structure WriteKept (formats : NumberFormats) (part : ProgramPart) (name : Name) (value : CellContent)
    (form : WriteForm) (values : LastWritten) : Prop where
  kept : form.Kept formats (part.lowering units) name value
  reads : ∀ source writer held, form.Reads (part.lowering units) name source →
    values (variable_of units part source) = some (writer, held) → WriteReaches units writer part source

/-- Any sequence of writes to scalars by the parts of a program, under a condition on each, with what was written last
to each variable. -/
inductive ScalarRun (formats : NumberFormats) (arithmetic : Arithmetic)
    (condition : ProgramPart → Name → CellContent → WriteForm → LastWritten → Prop) :
    ProgramCells → LastWritten → Prop
  | start (arguments : Nat → Nat → Text) : ScalarRun formats arithmetic condition
      (start_cells arguments) fun _ => none
  | write {memory : ProgramCells} {after : ScalarCells} {values : LastWritten} (part : ProgramPart) (name : Name)
      (form : WriteForm) (value : CellContent) (hrun : ScalarRun formats arithmetic condition memory values)
      (hscalar : ProgramScalar (part.lowering units) name)
      (hgives : form.Gives formats arithmetic (part.lowering units) name (memory part.unit)
        (fun source => (values (variable_of units part source)).map Prod.snd) value)
      (hcondition : condition part name value form values)
      (hwrite : run_cells formats arithmetic (form.code (part.lowering units) name) (memory part.unit) =
        some ((), after)) :
      ScalarRun formats arithmetic condition (memory.written part.unit after)
        (Function.update values (variable_of units part name) (some (part, value)))

end Units

theorem WritesOnly.store_own_parameter {slot : Nat} (hslot : state.param_slot name = some slot) (text : Text) :
    WritesOnly [.parameter slot] (store_runtime_function_param_string state name text) := by
  unfold store_runtime_function_param_string
  rw [hslot]
  exact .bind (.silent rfl) fun _ => .store fun _ hcell => hcell

/-- A parameter is written in its own cell only. -/
theorem WriteForm.writes_parameter {slot : Nat} (hslot : state.param_slot name = some slot) (form : WriteForm) :
    WritesOnly [.parameter slot] (form.code state name) := by
  have hparam : state.is_function_param_string name = true := by
    unfold LoweringState.is_function_param_string
    rw [hslot]
    rfl
  have hstore := WritesOnly.store_own_parameter hslot
  have hnumber (number : Numeral.Value) : WritesOnly [Cell.parameter slot]
      (lower_runtime_string_from_numeric_value number : Code ReadValue Text) :=
    .bind (.silent rfl) fun _ => .silent rfl
  cases form with
  | statement op operand =>
    simp only [WriteForm.code, lower_runtime_assignment_statement, hparam, if_true]
    unfold lower_runtime_param_assignment_statement
    split_ifs
    · exact .bind (.known_string operand) hstore
    · exact .bind (.load_parameter state name) fun _ => .bind (.silent rfl) fun current =>
        .bind (.known_number operand) fun number => .bind (.combine op current number) fun stored =>
          .bind (hnumber stored) hstore
  | expression source op operand =>
    simp only [WriteForm.code, lower_runtime_assignment_expression, hparam, if_true]
    refine .bind ?_ fun _ => trivial
    unfold lower_runtime_param_assignment_expression
    split_ifs
    · exact .bind (.known_string operand) fun text => .bind (.performs source) fun _ =>
        .bind (hstore text) fun _ => .bind (.load_parameter state name) fun _ => .silent rfl
    · exact .bind (.load_parameter state name) fun _ => .bind (.silent rfl) fun current =>
        .bind (.known_number operand) fun number => .bind (.combine op current number) fun stored =>
          .bind (.performs source) fun _ => .bind (hnumber stored) fun text => .bind (hstore text) fun _ => trivial
  | string_expression source operand =>
    simp only [WriteForm.code]
    refine .bind ?_ fun _ => trivial
    unfold lower_runtime_string_assignment
    dsimp only
    split_ifs
    · trivial
    · exact .bind (.known_string operand) fun text => .bind (.performs source) fun _ =>
        .bind (hstore text) fun _ => .load_parameter state name
  | increment source delta return_old =>
    simp only [WriteForm.code, lower_runtime_increment_expression, hparam, if_true]
    refine .bind ?_ fun _ => trivial
    exact .bind (.load_parameter state name) fun _ => .bind (.silent rfl) fun old_value =>
      .bind (.incremented delta old_value) fun new_value => .bind (.performs source) fun _ =>
        .bind (hnumber new_value) fun text => .bind (hstore text) fun _ => trivial
  | target text =>
    simp only [WriteForm.code, lower_runtime_assign_string_lvalue, hparam, if_true]
    exact hstore text

/-- The cells that the value of a scalar is read from. -/
def value_cells (state : LoweringState) (name : Name) : List Cell :=
  match state.param_slot name with
  | some slot => [.parameter slot]
  | none => name_cells state name

theorem param_slot_of_param (hparam : state.is_function_param_string name = true) :
    ∃ slot, state.param_slot name = some slot ∧ value_cells state name = [.parameter slot] := by
  obtain ⟨slot, hslot, -⟩ := scalar_home_param hparam
  exact ⟨slot, hslot, by simp [value_cells, hslot]⟩

theorem value_cells_of_not_param (hparam : ¬ state.is_function_param_string name = true) :
    state.param_slot name = none ∧ value_cells state name = name_cells state name := by
  have hnone : state.param_slot name = none := by simpa [LoweringState.is_function_param_string] using hparam
  exact ⟨hnone, by simp [value_cells, hnone]⟩

theorem WriteForm.writes_value (state : LoweringState) (name : Name) (form : WriteForm) :
    WritesOnly (value_cells state name) (form.code state name) := by
  by_cases hparam : state.is_function_param_string name = true
  · obtain ⟨slot, hslot, hcells⟩ := param_slot_of_param hparam
    rw [hcells]
    exact form.writes_parameter hslot
  · rw [(value_cells_of_not_param hparam).2]
    exact form.writes_only state name

theorem HoldsValue.congr_value {after : ScalarCells} (h : HoldsValue formats state name cells value)
    (hsame : ∀ cell ∈ value_cells state name, after cell = cells cell) (hscalar : ProgramScalar state name) :
    HoldsValue formats state name after value := by
  by_cases hparam : state.is_function_param_string name = true
  · obtain ⟨slot, hslot, hcells⟩ := param_slot_of_param hparam
    obtain ⟨_, hother, hhome⟩ := scalar_home_param hparam
    rw [hslot, Option.some.injEq] at hother
    subst hother
    unfold HoldsValue at h ⊢
    rw [hhome] at h ⊢
    dsimp only at h ⊢
    rw [hsame (.parameter slot) (by simp [hcells])]
    exact h
  · rw [(value_cells_of_not_param hparam).2] at hsame
    exact h.congr hsame hscalar

section Between

variable {other : LoweringState} (hscalar : ProgramScalar state name) (hother : ProgramScalar other name)
  (hparam : ¬ state.is_function_param_string name = true) (hother_param : ¬ other.is_function_param_string name = true)
  (hallocation : state.slot_allocation = other.slot_allocation) (htypes : state.type_info = other.type_info)

include hscalar hother hparam hother_param hallocation in
theorem slot_index_shared : runtime_name_slot_index state name = runtime_name_slot_index other name := by
  unfold runtime_name_slot_index
  rw [hallocation]
  simp [hscalar.loop, hother.loop, hparam, hother_param]

include hscalar hother hparam hother_param hallocation htypes in
/-- A variable of the program has one home in all its parts. -/
theorem scalar_home_shared : scalar_home state name = scalar_home other name := by
  have hindex := slot_index_shared hscalar hother hparam hother_param hallocation
  have hruntime := hscalar.uses_scalar_runtime (Bool.eq_false_iff.mpr hparam)
  have hother_runtime := hother.uses_scalar_runtime (Bool.eq_false_iff.mpr hother_param)
  have hnumeric : runtime_name_uses_numeric_slot_state state name = runtime_name_uses_numeric_slot_state other name := by
    simp [runtime_name_uses_numeric_slot_state, runtime_name_is_inferred_numeric, hruntime, hother_runtime, hindex, htypes]
  have hstring : runtime_name_uses_string_slot_runtime state name = runtime_name_uses_string_slot_runtime other name := by
    simp [runtime_name_uses_string_slot_runtime, runtime_name_is_inferred_string, hruntime, hother_runtime, hindex, htypes]
  have hcached : runtime_name_uses_slot_cached_runtime state name = runtime_name_uses_slot_cached_runtime other name := by
    unfold runtime_name_uses_slot_cached_runtime runtime_name_uses_local_numeric_storage runtime_name_is_inferred_numeric
    rw [hnumeric, hindex, htypes, hruntime, hother_runtime]
    cases other.type_info name <;> simp
  unfold scalar_home
  rw [(value_cells_of_not_param hparam).1, (value_cells_of_not_param hother_param).1, hnumeric, hindex, hcached,
    hstring]

include hscalar hother hparam hother_param hallocation htypes in
/-- What is held of a variable of the program is held in every part that finds it in the same cells. -/
theorem HoldsValue.shared {after : ScalarCells} (hindexes : state.variable_indexes = other.variable_indexes)
    (hlocal : runtime_name_uses_local_numeric_storage state name = runtime_name_uses_local_numeric_storage other name)
    (hsame : ∀ cell : Cell, cell.is_own = false ∨ runtime_name_uses_local_numeric_storage state name = true →
      after cell = cells cell)
    (h : HoldsValue formats state name cells value) : HoldsValue formats other name after value := by
  have hnumber : number_cell state name = number_cell other name := by
    unfold number_cell
    rw [hlocal, hindexes]
  unfold HoldsValue at h ⊢
  rw [← scalar_home_shared hscalar hother hparam hother_param hallocation htypes]
  obtain ⟨-, hhome⟩ | ⟨index, -, hhome, -⟩ | ⟨index, -, hhome, -⟩ | ⟨hhome, -⟩ := scalar_home_cases hscalar hparam
  all_goals
    rw [hhome] at h ⊢
    dsimp only at h ⊢
  · refine ⟨fun cell hcell => ?_, h.2⟩
    rw [← hnumber] at hcell
    rw [hsame cell ?_]
    · exact h.1 cell hcell
    · unfold number_cell at hcell
      split_ifs at hcell with hown
      · exact Or.inr hown
      · obtain ⟨index, -, rfl⟩ := Option.map_eq_some_iff.mp hcell
        exact Or.inl rfl
  · rw [hsame (.slot index) (Or.inl rfl)]
    exact h
  · rw [hsame (.slot index) (Or.inl rfl), hsame (.entry name.toList) (Or.inl rfl)]
    exact h
  · rw [hsame (.entry name.toList) (Or.inl rfl)]
    exact h

end Between

section Program

variable {units : Nat → LoweringState} {part reader : ProgramPart} {written : Name} {memory : ProgramCells}
  {values : LastWritten}

theorem variable_of_param (hparam : (part.lowering units).is_function_param_string name = true) :
    variable_of units part name = .parameter part.unit name := if_pos hparam

theorem variable_of_not_param (hparam : ¬ (part.lowering units).is_function_param_string name = true) :
    variable_of units part name = .shared name := if_neg hparam

theorem variable_of_name (h : variable_of units reader name = variable_of units part written) : name = written := by
  unfold variable_of at h
  split_ifs at h
  · exact (ProgramVariable.parameter.inj h).2
  · exact ProgramVariable.shared.inj h

/-- The parameters of a unit are those of all its parts. -/
theorem param_slot_unit (hunit : reader.unit = part.unit) :
    (reader.lowering units).param_slot name = (part.lowering units).param_slot name := by
  unfold LoweringState.param_slot ProgramPart.lowering
  rw [hunit]

theorem ProgramUnits.part_slots (hunits : ProgramUnits units) (part : ProgramPart) : OwnSlots (part.lowering units) :=
  ⟨(hunits.slots part.unit).slots, (hunits.slots part.unit).parameters⟩

/-- The cells of two variables are not the same. -/
theorem ProgramUnits.cells_apart (hunits : ProgramUnits units) {cell : Cell}
    (hvariable : variable_of units reader name ≠ variable_of units part written)
    (hread : cell ∈ value_cells (reader.lowering units) name) (hwrite : cell ∈ value_cells (part.lowering units) written)
    (hcell : reader.unit = part.unit ∨ cell.is_own = false) : False := by
  by_cases hparam : (reader.lowering units).is_function_param_string name = true
  · obtain ⟨slot, hslot, hcells⟩ := param_slot_of_param hparam
    rw [hcells, List.mem_singleton] at hread
    subst hread
    have hunit : reader.unit = part.unit := hcell.resolve_right (by simp [Cell.is_own])
    rw [param_slot_unit hunit] at hslot
    have hread : Cell.parameter slot ∈ name_cells (part.lowering units) name :=
      mem_name_cells.mpr (Or.inr (Or.inr (Or.inr (Or.inl ⟨slot, hslot, rfl⟩))))
    have hown : Cell.parameter slot ∈ name_cells (part.lowering units) written := by
      by_cases hwritten : (part.lowering units).is_function_param_string written = true
      · obtain ⟨position, hposition, hcells⟩ := param_slot_of_param hwritten
        rw [hcells, List.mem_singleton, Cell.parameter.injEq] at hwrite
        subst hwrite
        exact mem_name_cells.mpr (Or.inr (Or.inr (Or.inr (Or.inl ⟨slot, hposition, rfl⟩))))
      · rwa [(value_cells_of_not_param hwritten).2] at hwrite
    obtain rfl := (hunits.part_slots part).same_name hread hown
    apply hvariable
    unfold variable_of LoweringState.is_function_param_string
    rw [param_slot_unit hunit, hunit]
  · rw [(value_cells_of_not_param hparam).2] at hread
    have hnone := (value_cells_of_not_param hparam).1
    have hparameter : ∀ slot, cell ≠ .parameter slot := by
      rintro slot rfl
      simp [mem_name_cells, hnone] at hread
    by_cases hwritten : (part.lowering units).is_function_param_string written = true
    · obtain ⟨slot, -, hcells⟩ := param_slot_of_param hwritten
      rw [hcells, List.mem_singleton] at hwrite
      exact hparameter slot hwrite
    · rw [(value_cells_of_not_param hwritten).2] at hwrite
      have hsame : written = name := (hunits.part_slots reader).cell_name
        ⟨part.lowering units, written, cell, .unset, hwrite,
          ⟨hunits.indexes part.unit reader.unit, hunits.allocation part.unit reader.unit⟩, Or.inr hparameter⟩ hread
      apply hvariable
      rw [variable_of_not_param hparam, variable_of_not_param hwritten, hsame]

/-- A variable that has been written holds its value in every part that the write reaches. -/
theorem ProgramUnits.holds_written (hunits : ProgramUnits units) {after : ScalarCells}
    (hwritten : ProgramScalar (part.lowering units) name) (hscalar : ProgramScalar (reader.lowering units) name)
    (hvariable : variable_of units reader name = variable_of units part name) (hreaches : WriteReaches units part reader name)
    (h : HoldsValue formats (part.lowering units) name after value) :
    HoldsValue formats (reader.lowering units) name (memory.written part.unit after reader.unit) value := by
  by_cases hparam : (reader.lowering units).is_function_param_string name = true
  · have hunit : reader.unit = part.unit := by
      rw [variable_of_param hparam] at hvariable
      unfold variable_of at hvariable
      split_ifs at hvariable
      exact (ProgramVariable.parameter.inj hvariable).1
    have hhome : scalar_home (reader.lowering units) name = scalar_home (part.lowering units) name := by
      obtain ⟨slot, hslot, hhome⟩ := scalar_home_param hparam
      rw [param_slot_unit hunit] at hslot
      rw [hhome]
      simp [scalar_home, hslot]
    obtain ⟨slot, -, hslot⟩ := scalar_home_param hparam
    unfold HoldsValue at h ⊢
    rw [← hhome, hslot] at h
    rw [hslot]
    dsimp only at h ⊢
    unfold ProgramCells.written
    rw [if_pos (Or.inl hunit)]
    exact h
  · have hother_param : ¬ (part.lowering units).is_function_param_string name = true := fun hother => by
      rw [variable_of_param hother, variable_of_not_param hparam] at hvariable
      cases hvariable
    have hruntime := hwritten.uses_scalar_runtime (Bool.eq_false_iff.mpr hother_param)
    have hreader_runtime := hscalar.uses_scalar_runtime (Bool.eq_false_iff.mpr hparam)
    have hlocal : runtime_name_uses_local_numeric_storage (part.lowering units) name =
        runtime_name_uses_local_numeric_storage (reader.lowering units) name := by
      obtain hunit | ⟨hlocal, hreader_local⟩ := hreaches
      · unfold runtime_name_uses_local_numeric_storage
        rw [hruntime, hreader_runtime]
        unfold runtime_name_is_inferred_numeric ProgramPart.lowering
        rw [hunit]
      · rw [hlocal, hreader_local]
    refine h.shared hwritten hscalar hother_param hparam (hunits.allocation part.unit reader.unit)
      (hunits.types part.unit reader.unit) (hunits.indexes part.unit reader.unit) hlocal fun cell hcell => if_pos ?_
    obtain hshared | hown := hcell
    · exact Or.inr hshared
    · obtain hunit | ⟨hnot, -⟩ := hreaches
      · exact Or.inl hunit.symm
      · rw [hnot] at hown
        cases hown

/-- What every part of the program finds in the cells is what was written last. -/
structure Coherent (formats : NumberFormats) (units : Nat → LoweringState) (memory : ProgramCells)
    (values : LastWritten) : Prop where
  shared : ∀ unit other (cell : Cell), cell.is_own = false → memory unit cell = memory other cell
  scalars : ∀ name held, values (.shared name) = some held → ∃ part : ProgramPart,
    ProgramScalar (part.lowering units) name ∧ ¬ (part.lowering units).is_function_param_string name = true
  holds : ∀ (reader : ProgramPart) name writer value, ProgramScalar (reader.lowering units) name →
    values (variable_of units reader name) = some (writer, value) → WriteReaches units writer reader name →
      HoldsValue formats (reader.lowering units) name (memory reader.unit) value

theorem WriteForm.reads_scalar {form : WriteForm} {source : Name} (h : form.Reads state written source) :
    source = written ∨ runtime_name_uses_scalar_runtime state source = true := by
  cases form with
  | statement op operand | expression _ op operand =>
    obtain hcopied | ⟨-, rfl⟩ := h
    · exact Or.inr (copied_name_cases hcopied).2.2.2.2
    · exact Or.inl rfl
  | increment => exact Or.inl h
  | string_expression | target => exact h.elim

/-- What a write reads was written to a scalar of the program. -/
theorem Coherent.read_scalar (hunits : ProgramUnits units) (h : Coherent formats units memory values)
    (hscalar : ProgramScalar (part.lowering units) written) {form : WriteForm} {source : Name}
    {held : ProgramPart × CellContent} (hreads : form.Reads (part.lowering units) written source)
    (hvalue : values (variable_of units part source) = some held) : ProgramScalar (part.lowering units) source := by
  obtain rfl | hruntime := form.reads_scalar hreads
  · exact hscalar
  · have hparam : ¬ (part.lowering units).is_function_param_string source = true := fun hparam => by
      rw [param_not_scalar hparam] at hruntime
      cases hruntime
    rw [variable_of_not_param hparam] at hvalue
    obtain ⟨writer, hwriter, hnot⟩ := h.scalars source held hvalue
    have hindexes : (writer.lowering units).variable_indexes = (part.lowering units).variable_indexes :=
      hunits.indexes writer.unit part.unit
    refine ⟨hwriter.builtin, hwriter.reusable, ?_, Or.inl ?_⟩
    · simp only [runtime_name_uses_scalar_runtime, Bool.and_eq_true, Bool.not_eq_true'] at hruntime
      exact hruntime.1.1.2
    · rw [← hindexes]
      exact hwriter.known.resolve_right hnot

theorem Coherent.write (hunits : ProgramUnits units) (h : Coherent formats units memory values) {form : WriteForm}
    {after : ScalarCells} (hscalar : ProgramScalar (part.lowering units) written)
    (hgives : form.Gives formats arithmetic (part.lowering units) written (memory part.unit)
      (fun source => (values (variable_of units part source)).map Prod.snd) value)
    (hkept : WriteKept units formats part written value form values)
    (hwrite : run_cells formats arithmetic (form.code (part.lowering units) written) (memory part.unit) =
      some ((), after)) :
    Coherent formats units (memory.written part.unit after)
      (Function.update values (variable_of units part written) (some (part, value))) := by
  have hafter : HoldsValue formats (part.lowering units) written after value := by
    refine form.run_kept hscalar (fun source held hreads hheld => ?_) hgives hkept.kept hwrite
    obtain ⟨⟨writer, content⟩, hvalue, rfl⟩ := Option.map_eq_some_iff.mp hheld
    exact h.holds part source writer content (h.read_scalar hunits hscalar hreads hvalue) hvalue
      (hkept.reads source writer content hreads hvalue)
  refine ⟨fun first second cell hcell => ?_, fun name held hheld => ?_, fun reader name writer content hname hvalue
    hreaches => ?_⟩
  · simp [ProgramCells.written, hcell]
  · by_cases hsame : ProgramVariable.shared name = variable_of units part written
    · have hparam : ¬ (part.lowering units).is_function_param_string written = true := fun hparam => by
        rw [variable_of_param hparam] at hsame
        cases hsame
      rw [variable_of_not_param hparam, ProgramVariable.shared.injEq] at hsame
      subst hsame
      exact ⟨part, hscalar, hparam⟩
    · rw [Function.update_of_ne hsame] at hheld
      exact h.scalars name held hheld
  · by_cases hvariable : variable_of units reader name = variable_of units part written
    · rw [hvariable, Function.update_self, Option.some.injEq, Prod.mk.injEq] at hvalue
      obtain ⟨rfl, rfl⟩ := hvalue
      obtain rfl := variable_of_name hvariable
      exact hunits.holds_written hscalar hname hvariable hreaches hafter
    · rw [Function.update_of_ne hvariable] at hvalue
      refine (h.holds reader name writer content hname hvalue hreaches).congr_value (fun cell hcell => ?_) hname
      unfold ProgramCells.written
      split_ifs with hwhere
      · have hunchanged : after cell = memory part.unit cell :=
          (form.writes_value (part.lowering units) written).same hwrite
            fun hmem => hunits.cells_apart hvariable hcell hmem hwhere
        rw [hunchanged]
        obtain hunit | hcell := hwhere
        · rw [hunit]
        · exact h.shared part.unit reader.unit cell hcell
      · rfl

theorem ScalarRun.coherent (hunits : ProgramUnits units)
    (hrun : ScalarRun units formats arithmetic (WriteKept units formats) memory values) :
    Coherent formats units memory values := by
  induction hrun with
  | start arguments =>
    refine ⟨fun unit other cell hcell => ?_, fun name held hheld => ?_, fun reader name writer value _ hvalue => ?_⟩
    · cases cell with
      | parameter | local_variable => cases hcell
      | state_variable | slot | entry => rfl
    · cases hheld
    · cases hvalue
  | write part name form value _ hscalar hgives hcondition hwrite ih =>
    exact ih.write hunits hscalar hgives hcondition hwrite

end Program

theorem mixed_units : ProgramUnits fun _ => mixed_scalars where
  slots _ := mixed_scalars_ownSlots
  indexes _ _ := rfl
  allocation _ _ := rfl
  types _ _ := rfl

/-- The cells after `BEGIN { getline x }` with the line `abc`. -/
def abc_memory : ProgramCells :=
  (start_cells fun _ _ => []).written 0
    (Function.update (Function.update (start_cells (fun _ _ => []) 0) (.entry ['x']) (.string ['a', 'b', 'c']))
      (.slot 0) (.string ['a', 'b', 'c']))

def abc_values : LastWritten := Function.update (fun _ => none) (.shared "x") (some (⟨0, []⟩, .string ['a', 'b', 'c']))

theorem abc_run (condition : ProgramPart → Name → CellContent → WriteForm → LastWritten → Prop)
    (h : condition ⟨0, []⟩ "x" (.string ['a', 'b', 'c']) (.target ['a', 'b', 'c']) fun _ => none) :
    ScalarRun (fun _ => mixed_scalars) whole_formats sums condition abc_memory abc_values :=
  .write ⟨0, []⟩ "x" (.target ['a', 'b', 'c']) (.string ['a', 'b', 'c']) (.start fun _ _ => []) mixed_scalars_x rfl h rfl

end quawk
