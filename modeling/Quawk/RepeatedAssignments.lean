import Quawk.ControlPaths
import Quawk.PreassignedValues

namespace quawk

variable {Number : Type}

theorem get_eq_some_iff {indexes : NameIndexes} (hnodup : (indexes.map Prod.fst).Nodup) {name : Name} {index : Nat} :
    indexes.get name = some index ↔ (name, index) ∈ indexes := by
  unfold NameIndexes.get
  induction indexes with
  | nil => simp
  | cons first rest ih =>
    obtain ⟨other, other_index⟩ := first
    obtain ⟨hfresh, hrest⟩ := List.nodup_cons.mp hnodup
    rw [List.lookup_cons]
    by_cases hname : name = other
    · subst hname
      have hnone : (name, index) ∉ rest := fun hmem => hfresh (List.mem_map.mpr ⟨_, hmem, rfl⟩)
      simp [hnone, eq_comm]
    · simp [beq_eq_false_iff_ne.mpr hname, hname, ih hrest]

theorem not_filename {name : Name} (h : name ∉ INPUT_NAMES) : name ≠ "FILENAME" := by
  rintro rfl
  exact h (by decide)

theorem input_name_builtin {name : Name} (h : name ∈ INPUT_NAMES) : is_builtin_variable_name name = true := by
  simp only [INPUT_NAMES, List.mem_cons, List.not_mem_nil, or_false] at h
  obtain rfl | rfl | rfl | rfl := h <;> decide

section Stores

variable {state : LoweringState} {name : Name} {index : Nat} {store : ScalarStore}
  (hslots : state.slot_allocation = allocate_slots_for_variable_indexes state.variable_indexes)
include hslots

theorem slot_of_index (hmem : (name, index) ∈ state.variable_indexes.zipIdx)
    (hbuiltin : is_builtin_variable_name name = false) (hreusable : is_reusable_runtime_state_name name = false)
    (hloop : state.loop_string_bindings = []) (hparam : state.param_slot name = none) :
    (runtime_name_slot_index state name).isSome = true := by
  have hfind : (state.slot_allocation.get_slot name).isSome = true := by
    rw [hslots, SlotAllocation.get_slot, List.find?_isSome]
    exact ⟨⟨name, index, .slot⟩, List.mem_map.mpr ⟨_, hmem, rfl⟩, beq_self_eq_true name⟩
  obtain ⟨slot, hslot⟩ := Option.isSome_iff_exists.mp hfind
  have hstorage : slot.storage = .slot := by
    have hslot_mem := List.mem_of_find?_eq_some hslot
    rw [hslots, allocate_slots_for_variable_indexes] at hslot_mem
    obtain ⟨_, _, rfl⟩ := List.mem_map.mp hslot_mem
    rfl
  simp [runtime_name_slot_index, hbuiltin, hreusable, LoweringState.is_loop_string_binding, hloop,
    LoweringState.is_function_param_string, hparam, hslot, hstorage]

theorem slot_index_mem (h : runtime_name_slot_index state name = some index) :
    (name, index) ∈ runtime_slot_indexes state.slot_allocation := by
  have hget := slot_index_getElem? hslots h
  rw [hslots, runtime_slot_indexes_eq, List.mem_filter, List.mem_zipIdx_iff_getElem?]
  refine ⟨hget, ?_⟩
  unfold runtime_name_slot_index at h
  split_ifs at h with hspecial
  simp only [not_or, Bool.not_eq_true] at hspecial
  simp [hspecial]

omit hslots in
theorem uses_scalar_runtime (hinput : name ∉ INPUT_NAMES) (hloop : state.loop_string_bindings = [])
    (hreusable : is_reusable_runtime_state_name name = false) (hparam : state.param_slot name = none) :
    runtime_name_uses_scalar_runtime state name = true := by
  have hnot : (["NR", "FNR", "NF", "FILENAME"].contains name) = false := by
    rw [Bool.eq_false_iff]
    exact fun h => hinput (List.contains_iff_mem.mp h)
  simp only [runtime_name_uses_scalar_runtime, hnot, LoweringState.is_loop_string_binding, hloop,
    LoweringState.is_function_param_string, hparam, hreusable]
  rfl

variable (hloop : state.loop_string_bindings = []) (hreusable : is_reusable_runtime_state_name name = false)
include hloop hreusable

/-- A name in `%quawk.state` is read from its field, unless the phase keeps it in a variable of its own. -/
theorem read_stores_stored (hnodup : state.variable_indexes.Nodup)
    (hstored : (name, index) ∈ state_storage_indexes state.variable_indexes state.type_info state.slot_allocation)
    (hstore : store ∈ read_stores state name) : store = .field index ∨ store = .cell := by
  rw [hslots, mem_state_storage, hreusable] at hstored
  obtain ⟨hmem, hnone | ⟨hbuiltin, _, htype⟩⟩ := hstored
  · cases hnone
  · have hinput : name ∉ INPUT_NAMES := fun hinput => by
      rw [input_name_builtin hinput] at hbuiltin
      cases hbuiltin
    unfold read_stores at hstore
    rw [if_neg (not_filename hinput), if_neg hinput] at hstore
    cases hparam : state.param_slot name with
    | some slot =>
      have hhome : scalar_home state name = .parameter slot := by simp [scalar_home, hparam]
      rw [hhome] at hstore
      cases hstore
    | none =>
      have hnumeric : runtime_name_uses_numeric_slot_state state name = true := by
        simp [runtime_name_uses_numeric_slot_state, uses_scalar_runtime hinput hloop hreusable hparam,
          runtime_name_is_inferred_numeric, htype, slot_of_index hslots hmem hbuiltin hreusable hloop hparam]
      have hhome : scalar_home state name = .number := by simp [scalar_home, hparam, hnumeric]
      rw [hhome] at hstore
      dsimp only at hstore
      split_ifs at hstore
      · exact .inr (List.mem_singleton.mp hstore)
      simp only [List.mem_map, Option.mem_toList] at hstore
      obtain ⟨other, hother, rfl⟩ := hstore
      have hsame := get_getElem? hother
      rw [List.mem_zipIdx_iff_getElem?] at hmem
      exact .inl (congrArg _ ((List.getElem?_inj (List.getElem?_eq_some_iff.mp hsame).1 hnodup).mp (hsame.trans hmem.symm)))

/-- Other names are read from the scalar table and from their slots. -/
theorem read_stores_runtime
    (hstored : ∀ index, (name, index) ∉ state_storage_indexes state.variable_indexes state.type_info state.slot_allocation)
    (hstore : store ∈ read_stores state name) :
    name ∈ INPUT_NAMES ∧ store = .input ∨ (name ∉ INPUT_NAMES ∨ name = "FILENAME") ∧ store = .entry ∨
      name ∉ INPUT_NAMES ∧ ∃ index, (name, index) ∈ runtime_slot_indexes state.slot_allocation ∧ store = .slot index := by
  by_cases hfilename : name = "FILENAME"
  · rw [read_stores, if_pos hfilename] at hstore
    obtain rfl | hstore := List.mem_cons.mp hstore
    · exact .inl ⟨by rw [hfilename]; decide, rfl⟩
    · exact .inr (.inl ⟨.inr hfilename, List.mem_singleton.mp hstore⟩)
  by_cases hinput : name ∈ INPUT_NAMES
  · rw [read_stores, if_neg hfilename, if_pos hinput] at hstore
    exact .inl ⟨hinput, List.mem_singleton.mp hstore⟩
  · rw [read_stores, if_neg hfilename, if_neg hinput] at hstore
    refine .inr ?_
    cases hparam : state.param_slot name with
    | some slot =>
      have hhome : scalar_home state name = .parameter slot := by simp [scalar_home, hparam]
      rw [hhome] at hstore
      cases hstore
    | none =>
      have hno_param : ¬ state.is_function_param_string name = true := by
        simp [LoweringState.is_function_param_string, hparam]
      obtain ⟨hnumeric, hhome⟩ | ⟨slot_index, hindex, hhome, _⟩ | ⟨slot_index, hindex, hhome, _⟩ | ⟨hhome, _⟩ :=
        scalar_home_runtime_cases (uses_scalar_runtime hinput hloop hreusable hparam) hno_param
      · obtain ⟨hbuiltin, _, htype⟩ := numeric_slot_state_stored hnumeric
        have hsome : (runtime_name_slot_index state name).isSome = true := by
          simp only [runtime_name_uses_numeric_slot_state, Bool.and_eq_true] at hnumeric
          exact hnumeric.2
        obtain ⟨slot_index, hindex⟩ := Option.isSome_iff_exists.mp hsome
        refine absurd ?_ (hstored slot_index)
        rw [hslots, mem_state_storage, List.mem_zipIdx_iff_getElem?]
        exact ⟨slot_index_getElem? hslots hindex, .inr ⟨hbuiltin, hreusable, htype⟩⟩
      all_goals
        rw [hhome] at hstore
        simp only [List.mem_cons, List.not_mem_nil, or_false] at hstore
      · exact .inr ⟨hinput, _, slot_index_mem hslots hindex, hstore⟩
      · obtain rfl | rfl := hstore
        · exact .inr ⟨hinput, _, slot_index_mem hslots hindex, rfl⟩
        · exact .inl ⟨.inl hinput, rfl⟩
      · exact .inl ⟨.inl hinput, hstore⟩

end Stores

section Law

variable (doubles : Doubles Number) ( awk_numeric_prefix : Text → Number) (read_literal : Number → Number)
  (program : Program) (normalized_program : NormalizedLoweringProgram) (input_files : List Text)
  (field_separator : Option Text) (initial_variables : InitialVariables Number)

/-- What the driver of a program runs in. -/
def driver_context : DriverContext Number where
  globals := render_driver_globals input_files field_separator initial_variables
  created := doubles.qk_runtime_initialize input_files.length field_separator
  read_literal := read_literal

/-- The machine when BEGIN starts. -/
def machine_at_begin (machine : DriverMachine Number) : DriverMachine Number :=
  run_instructions doubles (driver_context doubles read_literal input_files field_separator initial_variables)
    (build_execution_driver_llvm_ir awk_numeric_prefix program normalized_program input_files field_separator
      initial_variables).setup machine

/-- The program reads a variable from a store: on some path of a lowered function it is read, and from a variable of the
function's own before it is assigned there. -/
def ReadFrom (unit : LoweredUnit) (name : Name) (store : ScalarStore) : Prop :=
  unit ∈ lowered_units program ∧
    store ∈ read_stores (lowering_state program normalized_program (infer_variable_types program) unit) name ∧
    ∃ path outcome, (path, outcome) ∈ unit_paths normalized_program unit ∧ .read name ∈ path ∧
      (store = .cell → ¬ AccessPath.ReadsAssigned name false path)

/-- Every store the program reads an assigned variable from has the value of its last `-v`. -/
def StartsWithLast (machine : DriverMachine Number) : Prop :=
  ∀ unit name value store, last_value initial_variables name = some value →
    ReadFrom program normalized_program unit name store → machine.content doubles name store = value.stored

/-- What the runtime gives of an input variable before a record is read. -/
def start_value (name : Name) : StoredValue Number :=
  if name = "FILENAME" then .string ['-'] else .number (doubles.of_int 0)

/-- No name in `%quawk.state` is assigned twice. Of the variables that are read, one in `%quawk.state` is assigned no
text last, an input variable nothing but what it starts with, one that a phase reads from its own variable nothing but
0, and any other no number with more digits than a literal. -/
structure KeepsLast : Prop where
  once : ((stored_assignments (program_storage program normalized_program) initial_variables).map Prod.fst).Nodup
  stored : ∀ unit name value index, last_value initial_variables name = some value →
    ReadFrom program normalized_program unit name (.field index) → ∃ number, value = .number number
  input : ∀ unit name value, last_value initial_variables name = some value →
    ReadFrom program normalized_program unit name .input → value.stored = start_value doubles name
  cell : ∀ unit name value, last_value initial_variables name = some value →
    ReadFrom program normalized_program unit name .cell → value = .number (doubles.of_int 0)
  exact : ∀ unit name number store, last_value initial_variables name = some (.number number) →
    ReadFrom program normalized_program unit name store → store ≠ .input → store ≠ .cell →
      read_literal number = number

variable {doubles awk_numeric_prefix read_literal program normalized_program input_files field_separator initial_variables}

theorem last_value_mem {name : Name} {value : InitialVariableValue Number}
    (h : last_value initial_variables name = some value) : ∃ assigned ∈ initial_variables, assigned.1 = name := by
  unfold last_value at h
  rw [List.lookup_eq_some_iff] at h
  obtain ⟨before, after, heq, _⟩ := h
  refine ⟨(name, value), List.mem_reverse.mp ?_, rfl⟩
  rw [heq]
  simp

variable (program normalized_program) in
theorem lowering_state_facts (unit : LoweredUnit) :
    (lowering_state program normalized_program (infer_variable_types program) unit).variable_indexes =
        normalized_program.variable_indexes ∧
      (lowering_state program normalized_program (infer_variable_types program) unit).slot_allocation =
        normalized_program.slot_allocation ∧
      (lowering_state program normalized_program (infer_variable_types program) unit).type_info =
        infer_variable_types program ∧
      (lowering_state program normalized_program (infer_variable_types program) unit).loop_string_bindings = [] := by
  cases unit <;> exact ⟨rfl, rfl, rfl, rfl⟩

section Begin

variable (h : normalize_program_for_lowering program = .ok normalized_program)
  (hnames : ∀ assigned ∈ initial_variables, is_identifier assigned.1 = true) (machine : DriverMachine Number)
include h hnames

omit hnames in
theorem slots_nodup : ((runtime_slot_indexes normalized_program.slot_allocation).map Prod.fst).Nodup := by
  obtain ⟨hnodup, hslots⟩ := variable_indexes_nodup h
  rw [hslots, runtime_slot_indexes_eq]
  have hindexes : (normalized_program.variable_indexes.zipIdx.map Prod.fst).Nodup := by
    rwa [List.zipIdx_map_fst]
  exact hindexes.sublist (List.filter_sublist.map _)

variable (doubles read_literal input_files field_separator) in
/-- The globals have the texts the instructions take from them. -/
theorem begin_declared :
    Declared (driver_context doubles read_literal input_files field_separator initial_variables) 0 initial_variables ∧
      ∀ name, (runtime_slot_indexes normalized_program.slot_allocation).get name = none →
        (runtime_string_slot_indexes (infer_variable_types program) normalized_program.slot_allocation).get name = none := by
  refine ⟨declared_of_globals (globals_nodup input_files field_separator hnames) []
    (List.subset_append_right _ _) (fun _ hmem => nomatch hmem), fun name hnone => ?_⟩
  cases hget : (runtime_string_slot_indexes (infer_variable_types program) normalized_program.slot_allocation).get name with
  | none => rfl
  | some index =>
    have hsub : ((runtime_string_slot_indexes (infer_variable_types program) normalized_program.slot_allocation).map
        Prod.fst).Nodup := (slots_nodup h).sublist (List.filter_sublist.map _)
    have hmem := List.mem_of_mem_filter ((get_eq_some_iff hsub).mp hget)
    rw [(get_eq_some_iff (slots_nodup h)).mpr hmem] at hnone
    cases hnone

omit hnames in
theorem slot_name_injective (first second : Name) (index : Nat)
    (hfirst : (runtime_slot_indexes normalized_program.slot_allocation).get first = some index)
    (hsecond : (runtime_slot_indexes normalized_program.slot_allocation).get second = some index) : first = second := by
  obtain ⟨hnodup, hslots⟩ := variable_indexes_nodup h
  rw [get_eq_some_iff (slots_nodup h), hslots, runtime_slot_indexes_eq, List.mem_filter,
    List.mem_zipIdx_iff_getElem?] at hfirst hsecond
  exact Option.some.inj (hfirst.1.symm.trans hsecond.1)

variable ( awk_numeric_prefix input_files field_separator) in
/-- The driver defines every name once exactly if no field is assigned twice. -/
theorem defined_once_iff :
    DefinedOnce (build_execution_driver_llvm_ir awk_numeric_prefix program normalized_program input_files field_separator
        initial_variables) ↔
      ((stored_assignments (program_storage program normalized_program) initial_variables).map Prod.fst).Nodup := by
  have hglobals := globals_nodup input_files field_separator hnames
  have hresults := results_nodup_iff awk_numeric_prefix (runtime_slot_indexes normalized_program.slot_allocation)
    (runtime_string_slot_indexes (infer_variable_types program) normalized_program.slot_allocation) initial_variables
    (program_storage_nodup h) input_files field_separator
    (!normalized_program.record_items.isEmpty || !normalized_program.end_actions.isEmpty)
    (!normalized_program.record_items.isEmpty)
  have hnames_eq : defined_names ((build_execution_driver_llvm_ir awk_numeric_prefix program normalized_program input_files
      field_separator initial_variables).setup ++ (build_execution_driver_llvm_ir awk_numeric_prefix program
        normalized_program input_files field_separator initial_variables).phases) = _ :=
    congrArg defined_names (by simp only [build_execution_driver_llvm_ir, later_instructions, List.append_assoc] :
      _ = render_driver_state_setup awk_numeric_prefix (program_storage program normalized_program) initial_variables ++
        later_instructions (program_storage program normalized_program)
          (runtime_slot_indexes normalized_program.slot_allocation)
          (runtime_string_slot_indexes (infer_variable_types program) normalized_program.slot_allocation)
          initial_variables input_files field_separator 0
          (!normalized_program.record_items.isEmpty || !normalized_program.end_actions.isEmpty)
          (!normalized_program.record_items.isEmpty))
  rw [← hnames_eq] at hresults
  exact ⟨fun hdefined => hresults.mp hdefined.results, fun honce => ⟨hglobals, hresults.mpr honce⟩⟩

/-- The fields of the state when BEGIN starts. -/
theorem begin_field {name : Name} {index : Nat} {value : InitialVariableValue Number}
    (hstored : (program_storage program normalized_program).get name = some index)
    (hlast : last_value initial_variables name = some value) :
    (machine_at_begin doubles awk_numeric_prefix read_literal program normalized_program input_files field_separator
      initial_variables machine).state index = read_literal (initial_number awk_numeric_prefix value) := by
  obtain ⟨hdeclared, hfallback⟩ := begin_declared doubles read_literal input_files field_separator h hnames
  unfold machine_at_begin build_execution_driver_llvm_ir
  dsimp only
  rw [run_instructions_append, (run_scalar_preassignments hfallback hdeclared _).1, run_instructions_append]
  have hcreate (machine : DriverMachine Number) : (run_instructions doubles
      (driver_context doubles read_literal input_files field_separator initial_variables)
        (render_driver_runtime_create input_files field_separator) machine).state = machine.state := by
    unfold render_driver_runtime_create
    split <;> split <;> rfl
  rw [hcreate]
  unfold render_driver_state_setup
  rw [if_neg (by rw [List.isEmpty_iff]; rintro hempty; rw [hempty] at hstored; cases hstored), run_instructions_append]
  refine (run_state_preassign awk_numeric_prefix initial_variables _ hstored fun other hother => ?_).trans ?_
  · have hnodup := program_storage_nodup h
    rw [get_eq_some_iff hnodup] at hstored hother
    exact ((state_layout_agrees (V := fun _ => Unit) h).one_index other index name index hother hstored).mpr rfl
  · rw [hlast]
    rfl

variable (doubles awk_numeric_prefix read_literal input_files field_separator) in
/-- The runtime when BEGIN starts: the one that is created, with one `-v` after the other. -/
theorem begin_runtime_eq :
    (machine_at_begin doubles awk_numeric_prefix read_literal program normalized_program input_files field_separator
      initial_variables machine).runtime =
    initial_variables.foldl (preassign doubles
        (driver_context doubles read_literal input_files field_separator initial_variables)
        (program_storage program normalized_program) (runtime_slot_indexes normalized_program.slot_allocation))
      (doubles.qk_runtime_initialize input_files.length field_separator) := by
  obtain ⟨hdeclared, hfallback⟩ := begin_declared doubles read_literal input_files field_separator h hnames
  unfold machine_at_begin build_execution_driver_llvm_ir
  dsimp only
  rw [run_instructions_append, (run_scalar_preassignments hfallback hdeclared _).2, run_instructions_append]
  have hcreate (machine : DriverMachine Number) : (run_instructions doubles
      (driver_context doubles read_literal input_files field_separator initial_variables)
        (render_driver_runtime_create input_files field_separator) machine).runtime =
          (driver_context doubles read_literal input_files field_separator initial_variables).created := by
    unfold render_driver_runtime_create
    split <;> split <;> rfl
  rw [hcreate]
  rfl

variable (doubles awk_numeric_prefix read_literal input_files field_separator) in
theorem begin_runtime :
    HoldsLast doubles (driver_context doubles read_literal input_files field_separator initial_variables)
      (program_storage program normalized_program) (runtime_slot_indexes normalized_program.slot_allocation)
      initial_variables (machine_at_begin doubles awk_numeric_prefix read_literal program normalized_program input_files
        field_separator initial_variables machine).runtime := by
  rw [begin_runtime_eq doubles awk_numeric_prefix read_literal input_files field_separator h hnames machine]
  exact holds_last (slot_name_injective h) rfl initial_variables

omit h hnames in
theorem last_not_reusable (hnames : ∀ assigned ∈ initial_variables, is_identifier assigned.1 = true) {name : Name}
    {value : InitialVariableValue Number} (hlast : last_value initial_variables name = some value) :
    is_reusable_runtime_state_name name = false := by
  obtain ⟨assigned, hmem, rfl⟩ := last_value_mem hlast
  exact is_identifier_not_reusable (hnames assigned hmem)

theorem stored_not_input {name : Name} {value : InitialVariableValue Number}
    (hlast : last_value initial_variables name = some value)
    (hstored : ((program_storage program normalized_program).get name).isSome = true) : name ∉ INPUT_NAMES := by
  intro hinput
  obtain ⟨index, hget⟩ := Option.isSome_iff_exists.mp hstored
  rw [get_eq_some_iff (program_storage_nodup h), program_storage, (variable_indexes_nodup h).2, mem_state_storage,
    last_not_reusable hnames hlast, input_name_builtin hinput] at hget
  simp at hget

/-- Where an assigned variable is read from. -/
theorem read_store_cases {unit : LoweredUnit} {name : Name} {value : InitialVariableValue Number} {store : ScalarStore}
    (hlast : last_value initial_variables name = some value)
    (hstore : store ∈ read_stores (lowering_state program normalized_program (infer_variable_types program) unit) name) :
    (∃ index, (program_storage program normalized_program).get name = some index ∧
      (store = .field index ∨ store = .cell)) ∨
      (program_storage program normalized_program).get name = none ∧
        (name ∈ INPUT_NAMES ∧ store = .input ∨ (name ∉ INPUT_NAMES ∨ name = "FILENAME") ∧ store = .entry ∨
          name ∉ INPUT_NAMES ∧ ∃ index,
            (runtime_slot_indexes normalized_program.slot_allocation).get name = some index ∧ store = .slot index) := by
  obtain ⟨hindexes, hallocation, htypes, hloop⟩ := lowering_state_facts program normalized_program unit
  obtain ⟨hnodup, hslots⟩ := variable_indexes_nodup h
  have hreusable := last_not_reusable hnames hlast
  have hslots' : (lowering_state program normalized_program (infer_variable_types program) unit).slot_allocation =
      allocate_slots_for_variable_indexes
        (lowering_state program normalized_program (infer_variable_types program) unit).variable_indexes := by
    rw [hallocation, hindexes, hslots]
  cases hstored : (program_storage program normalized_program).get name with
  | some index =>
    have hmem_stored := (get_eq_some_iff (program_storage_nodup h)).mp hstored
    exact .inl ⟨index, rfl, read_stores_stored hslots' hloop hreusable (by rwa [hindexes])
      (by rwa [hindexes, hallocation, htypes]) hstore⟩
  | none =>
    have hnone (index : Nat) : (name, index) ∉ program_storage program normalized_program := by
      rw [← get_eq_some_iff (program_storage_nodup h), hstored]
      exact fun heq => nomatch heq
    have hcases := read_stores_runtime hslots' hloop hreusable (by rw [hindexes, hallocation, htypes]; exact hnone) hstore
    simp only [hallocation, ← get_eq_some_iff (slots_nodup h)] at hcases
    exact .inr ⟨rfl, hcases⟩

/-- What a store that is read has when BEGIN starts. -/
theorem begin_content {unit : LoweredUnit} {name : Name} {value : InitialVariableValue Number} {store : ScalarStore}
    (hlast : last_value initial_variables name = some value)
    (hstore : store ∈ read_stores (lowering_state program normalized_program (infer_variable_types program) unit) name) :
    (machine_at_begin doubles awk_numeric_prefix read_literal program normalized_program input_files field_separator
        initial_variables machine).content doubles name store =
      match store with
      | .field _ => .number (read_literal (initial_number awk_numeric_prefix value))
      | .input => start_value doubles name
      | .cell => .number (doubles.of_int 0)
      | .slot _ | .entry =>
        (driver_context doubles read_literal input_files field_separator initial_variables).kept value := by
  have hbegin := begin_runtime doubles awk_numeric_prefix read_literal input_files field_separator h hnames machine
  obtain ⟨index, hstored, rfl | rfl⟩ | ⟨hstored, ⟨hinput, rfl⟩ | ⟨hinput, rfl⟩ | ⟨_, index, hindex, rfl⟩⟩ :=
    read_store_cases h hnames hlast hstore
  · exact congrArg _ (begin_field h hnames machine hstored hlast)
  · rfl
  · have hfields := RecordState.no_fields _ hbegin.no_record
    simp only [INPUT_NAMES, List.mem_cons, List.not_mem_nil, or_false] at hinput
    obtain heq | heq | heq | heq := hinput <;>
      simp [DriverMachine.content, input_value, start_value, heq, qk_get_nf, hfields]
  · refine hbegin.entry _ _ (fun hnf => ?_) hstored hlast
    rw [hnf] at hinput
    exact absurd hinput (by decide)
  · exact (congrArg SlotCell.value (hbegin.slot _ _ _ hstored hindex hlast)).trans (preassigned_slot_value value)

end Begin

end Law

/-- `BEGIN { x += 1; print y }` -/
def count_and_print : Program :=
  ⟨[.pattern_action (some .begin_pattern)
    (some [.assign (.name "x") .add (.numeric_literal ['1']), .print [.name "y"] none])]⟩

/-- `-v x=1 -v y=2 -v y=abc` -/
def repeated_text : InitialVariables Rat := [("x", .number 1), ("y", .number 2), ("y", .string ['a', 'b', 'c'])]

theorem last_value_repeated_text {name : Name} {value : InitialVariableValue Rat}
    (h : last_value repeated_text name = some value) :
    name = "y" ∧ value = .string ['a', 'b', 'c'] ∨ name = "x" ∧ value = .number 1 := by
  by_cases hy : name = "y"
  · subst hy
    cases h
    exact .inl ⟨rfl, rfl⟩
  · by_cases hx : name = "x"
    · subst hx
      cases h
      exact .inr ⟨rfl, rfl⟩
    · simp [last_value, repeated_text, List.lookup_cons, beq_eq_false_iff_ne.mpr hx, beq_eq_false_iff_ne.mpr hy] at h

theorem count_and_print_unit {unit : LoweredUnit} (h : unit ∈ lowered_units count_and_print) :
    unit = .begin_phase ∨ unit = .record_phase ∨ unit = .end_phase := by
  have hmem : unit ∈ [LoweredUnit.begin_phase, .record_phase, .end_phase] := h
  simpa using hmem

/-- `y` is read from the table, and from its slot if it has one. -/
theorem count_and_print_stores {normalized_program : NormalizedLoweringProgram}
    (h : normalize_program_for_lowering count_and_print = .ok normalized_program) {unit : LoweredUnit}
    {store : ScalarStore} (hread : ReadFrom count_and_print normalized_program unit "y" store) :
    store = .slot 0 ∨ store = .slot 1 ∨ store = .entry := by
  have hstore := hread.2.1
  cases h
  obtain rfl | rfl | rfl := count_and_print_unit hread.1 <;>
    exact (show ∀ store ∈ read_stores _ "y", store = .slot 0 ∨ store = .slot 1 ∨ store = .entry by decide +kernel) store hstore

end quawk
