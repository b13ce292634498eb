import Quawk.ArrayRefinement
import Quawk.ScalarHomes
import Quawk.StateLayout

namespace quawk

variable {Number : Type}

inductive GlobalContent where
  /-- The bytes of a text. -/
  | bytes (text : Text)
  /-- A table of pointers to other globals. -/
  | pointers (names : List String)
  deriving DecidableEq

structure DriverGlobal where
  name : String
  content : GlobalContent
  deriving DecidableEq

def driver_input_global (index : Nat) : String := "@.driver.input." ++ toString index

/-- Return the global name for one driver scalar preassignment name. -/
def driver_scalar_name_global (name : Name) : String := "@.driver.scalar." ++ name

/-- Return the driver-global name for one string `-v` value. -/
def driver_scalar_value_global (index : Nat) : String := "@.driver.scalar.value." ++ toString index

/-- The globals of the `-v` from an index on; a name is declared where it is seen first. -/
def render_scalar_globals (seen_scalars : List Name) (index : Nat) : InitialVariables Number → List DriverGlobal
  | [] => []
  | (name, value) :: rest =>
    (if name ∈ seen_scalars then [] else [⟨driver_scalar_name_global name, .bytes name.toList⟩]) ++
      (match value with
        | .string text => [⟨driver_scalar_value_global index, .bytes text⟩]
        | .number _ => []) ++
      render_scalar_globals (name :: seen_scalars) (index + 1) rest

/-- Render driver globals for input-file operands and field-separator text. -/
def render_driver_globals (input_files : List Text) (field_separator : Option Text)
    (initial_variables : InitialVariables Number) : List DriverGlobal :=
  input_files.zipIdx.map (fun (path, index) => ⟨driver_input_global index, .bytes path⟩) ++
    (if input_files.isEmpty then []
      else [⟨"@.driver.inputs", .pointers ((List.range input_files.length).map driver_input_global)⟩]) ++
    (field_separator.toList.map fun text => ⟨"@.driver.fs", .bytes text⟩) ++
    render_scalar_globals [] 0 initial_variables

section Preassign

variable (slot_variable_indexes string_slot_variable_indexes : NameIndexes)

def preassign_name (index : Nat) : String := "%preassign.name." ++ toString index

def preassign_value (index : Nat) : String := "%preassign.value." ++ toString index

/-- The instructions of one `-v` of a name that is not kept in `%quawk.state`. -/
def render_scalar_preassignment (index : Nat) (name : Name) (value : InitialVariableValue Number) :
    List (DriverInstruction Number) :=
  .global_pointer (preassign_name index) (driver_scalar_name_global name) ::
    match value with
    | .string _ =>
      [.global_pointer (preassign_value index) (driver_scalar_value_global index),
        .qk_scalar_set_string (preassign_name index) (preassign_value index)] ++
        match slot_variable_indexes.get name with
        | some slot_index => [.qk_slot_set_string slot_index (preassign_value index)]
        | none =>
          match string_slot_variable_indexes.get name with
          | some string_slot_index => [.qk_slot_set_string string_slot_index (preassign_value index)]
          | none => []
    | .number value =>
      .qk_scalar_set_number_inline (preassign_name index) value ::
        match slot_variable_indexes.get name with
        | some slot_index => [.qk_slot_set_number slot_index value]
        | none => []

/-- Render runtime scalar preassignments for names not stored in `%quawk.state`, from an index on. -/
def render_driver_scalar_preassignments (state_variable_indexes : NameIndexes) (index : Nat) :
    InitialVariables Number → List (DriverInstruction Number)
  | [] => []
  | (name, value) :: rest =>
    (if (state_variable_indexes.get name).isSome then []
      else render_scalar_preassignment slot_variable_indexes string_slot_variable_indexes index name value) ++
      render_driver_scalar_preassignments state_variable_indexes (index + 1) rest

end Preassign

/-- Render the runtime-creation call for the execution driver. -/
def render_driver_runtime_create (input_files : List Text) (field_separator : Option Text) :
    List (DriverInstruction Number) :=
  [if input_files.isEmpty then .null_pointer "%argv" else .global_pointer "%argv" "@.driver.inputs",
    if field_separator.isNone then .null_pointer "%fs" else .global_pointer "%fs" "@.driver.fs",
    .qk_runtime_create "%rt"]

/-- Render the per-record runtime loop in the execution driver, without its branches. -/
def render_driver_record_loop (consumes_main_input has_record_phase : Bool) : List (DriverInstruction Number) :=
  if consumes_main_input then
    [.test "%should.exit.begin" "qk_should_exit", .test "%has.record" "qk_next_record_inline"] ++
      (if has_record_phase then [.call_phase "quawk_record"] else []) ++
      [.test "%should.exit.record" "qk_should_exit"]
  else []

/-- The execution driver: its globals, what `quawk_main` does before BEGIN, and from BEGIN on. -/
structure ExecutionDriver (Number : Type) where
  globals : List DriverGlobal
  setup : List (DriverInstruction Number)
  phases : List (DriverInstruction Number)

section Build

variable ( awk_numeric_prefix : Text → Number) (program : Program) (normalized_program : NormalizedLoweringProgram)
  (input_files : List Text) (field_separator : Option Text) (initial_variables : InitialVariables Number)

/-- The names of the program in `%quawk.state`. -/
def program_storage : NameIndexes :=
  state_storage_indexes normalized_program.variable_indexes (infer_variable_types program)
    normalized_program.slot_allocation

/-- Build the reusable execution driver that invokes runtime and program phases. -/
def build_execution_driver_llvm_ir : ExecutionDriver Number where
  globals := render_driver_globals input_files field_separator initial_variables
  setup :=
    render_driver_state_setup awk_numeric_prefix (program_storage program normalized_program) initial_variables ++
      render_driver_runtime_create input_files field_separator ++
      render_driver_scalar_preassignments (runtime_slot_indexes normalized_program.slot_allocation)
        (runtime_string_slot_indexes (infer_variable_types program) normalized_program.slot_allocation)
        (program_storage program normalized_program) 0 initial_variables
  phases :=
    .call_phase "quawk_begin" ::
      render_driver_record_loop
        (!normalized_program.record_items.isEmpty || !normalized_program.end_actions.isEmpty)
        (!normalized_program.record_items.isEmpty) ++
      [.call_phase "quawk_end", .test "%exit.status" "qk_exit_status"]

end Build

/-- The SSA names instructions define. -/
def defined_names (instructions : List (DriverInstruction Number)) : List String :=
  instructions.filterMap DriverInstruction.result

/-- Each global and each SSA name has one definition. -/
structure DefinedOnce (driver : ExecutionDriver Number) : Prop where
  globals : (driver.globals.map DriverGlobal.name).Nodup
  results : (defined_names (driver.setup ++ driver.phases)).Nodup

/-- What `IDENTIFIER_PATTERN` matches. -/
def is_identifier (name : Name) : Bool :=
  match name.toList with
  | [] => false
  | first :: rest =>
    (first.isAlpha || first == '_') && rest.all fun character => character.isAlphanum || character == '_'

theorem is_identifier_no_dot {name : Name} (h : is_identifier name = true) : '.' ∉ name.toList := by
  unfold is_identifier at h
  split at h
  · cases h
  · rename_i first rest heq
    rw [heq]
    intro hmem
    rw [Bool.and_eq_true, List.all_eq_true] at h
    obtain rfl | hmem := List.mem_cons.mp hmem
    · exact absurd h.1 (by decide)
    · exact absurd (h.2 '.' hmem) (by decide)

theorem is_identifier_not_reusable {name : Name} (h : is_identifier name = true) :
    is_reusable_runtime_state_name name = false := by
  rw [Bool.eq_false_iff]
  intro hreusable
  obtain ⟨rest, heq⟩ := List.isPrefixOf_iff_prefix.mp hreusable
  refine is_identifier_no_dot h ?_
  rw [← heq]
  exact List.mem_append_left rest (by simp)

/-- Numbered names are different. -/
theorem numbered_inj {base : String} {first second : Nat} :
    base ++ toString first = base ++ toString second ↔ first = second := by
  constructor
  · intro h
    have htoList := congrArg String.toList h
    rw [String.toList_append, String.toList_append, List.append_cancel_left_eq] at htoList
    have hvalue := congrArg (Nat.ofDigitChars 10 · 0) htoList
    simpa [Nat.ofDigitChars_ten_toDigits] using hvalue
  · rintro rfl
    rfl

theorem named_inj {base first second : String} : base ++ first = base ++ second ↔ first = second := by
  rw [← String.toList_inj, String.toList_append, String.toList_append, List.append_cancel_left_eq, String.toList_inj]

/-- A name is not made from a base that it does not start with. -/
theorem named_ne {base other : String} (h : ¬ base.toList <+: other.toList) (rest : String) : base ++ rest ≠ other := by
  rintro rfl
  rw [String.toList_append] at h
  exact h (List.prefix_append _ _)

/-- Names made from bases that do not start with each other are different. -/
theorem named_ne_named {first second : String} (h1 : ¬ first.toList <+: second.toList)
    (h2 : ¬ second.toList <+: first.toList) (rest other : String) : first ++ rest ≠ second ++ other := by
  intro heq
  have htoList := congrArg String.toList heq
  rw [String.toList_append, String.toList_append] at htoList
  obtain h | h := List.prefix_or_prefix_of_prefix (List.prefix_append first.toList rest.toList)
    (htoList ▸ List.prefix_append second.toList other.toList)
  · exact h1 h
  · exact h2 h

section Globals

variable {seen_scalars : List Name} {index : Nat} {initial_variables : InitialVariables Number}

theorem mem_scalar_globals {declared : DriverGlobal}
    (h : declared ∈ render_scalar_globals seen_scalars index initial_variables) :
    (∃ assigned ∈ initial_variables, assigned.1 ∉ seen_scalars ∧ declared.name = driver_scalar_name_global assigned.1) ∨
      ∃ later, index ≤ later ∧ declared.name = driver_scalar_value_global later := by
  induction initial_variables generalizing seen_scalars index with
  | nil => cases h
  | cons assigned rest ih =>
    obtain ⟨name, value⟩ := assigned
    obtain h | h := List.mem_append.mp h
    · obtain h | h := List.mem_append.mp h
      · split at h
        · cases h
        · rename_i hseen
          cases List.mem_singleton.mp h
          exact .inl ⟨_, List.mem_cons_self, hseen, rfl⟩
      · cases value with
        | number _ => cases h
        | string text =>
          cases List.mem_singleton.mp h
          exact .inr ⟨index, le_refl _, rfl⟩
    · obtain ⟨other, hmem, hseen, hname⟩ | ⟨later, hle, hname⟩ := ih h
      · exact .inl ⟨other, List.mem_cons_of_mem _ hmem, fun hbefore => hseen (List.mem_cons_of_mem _ hbefore), hname⟩
      · exact .inr ⟨later, by omega, hname⟩

theorem scalar_value_global_eq (index : Nat) :
    driver_scalar_value_global index = driver_scalar_name_global ("value." ++ toString index) := by
  unfold driver_scalar_value_global driver_scalar_name_global
  have hsplit : "@.driver.scalar.value." = "@.driver.scalar." ++ "value." := by decide +kernel
  rw [hsplit, String.append_assoc]

/-- The name of a variable has no dot in it, as the name of the global of a value has. -/
theorem scalar_name_ne_value {name : Name} (h : is_identifier name = true) (index : Nat) :
    driver_scalar_name_global name ≠ driver_scalar_value_global index := by
  rw [scalar_value_global_eq]
  intro heq
  have hname : name = "value." ++ toString index := named_inj.mp heq
  refine is_identifier_no_dot h ?_
  rw [hname, String.toList_append]
  exact List.mem_append_left _ (by simp)

theorem scalar_globals_nodup (h : ∀ assigned ∈ initial_variables, is_identifier assigned.1 = true) :
    ((render_scalar_globals seen_scalars index initial_variables).map DriverGlobal.name).Nodup := by
  induction initial_variables generalizing seen_scalars index with
  | nil => exact List.nodup_nil
  | cons assigned rest ih =>
    obtain ⟨name, value⟩ := assigned
    have hname := h _ List.mem_cons_self
    have hrest : ((render_scalar_globals (name :: seen_scalars) (index + 1) rest).map DriverGlobal.name).Nodup :=
      ih fun other hmem => h other (List.mem_cons_of_mem _ hmem)
    have hfresh : driver_scalar_name_global name ∉
        (render_scalar_globals (name :: seen_scalars) (index + 1) rest).map DriverGlobal.name := by
      intro hmem
      obtain ⟨declared, hdeclared, hsame⟩ := List.mem_map.mp hmem
      obtain ⟨other, _, hseen, hother⟩ | ⟨later, _, hother⟩ := mem_scalar_globals hdeclared
      · rw [hother] at hsame
        exact hseen (List.mem_cons.mpr (.inl (named_inj.mp hsame)))
      · exact scalar_name_ne_value hname later (hsame.symm.trans hother)
    have hvalue : driver_scalar_value_global index ∉
        (render_scalar_globals (name :: seen_scalars) (index + 1) rest).map DriverGlobal.name := by
      intro hmem
      obtain ⟨declared, hdeclared, hsame⟩ := List.mem_map.mp hmem
      obtain ⟨other, hmem, _, hother⟩ | ⟨later, hle, hother⟩ := mem_scalar_globals hdeclared
      · exact scalar_name_ne_value (h other (List.mem_cons_of_mem _ hmem)) index (hother.symm.trans hsame)
      · have hindex := numbered_inj.mp (hother.symm.trans hsame)
        omega
    have hne := scalar_name_ne_value hname index
    cases value <;> by_cases hseen : name ∈ seen_scalars <;>
      simp only [render_scalar_globals, hseen, if_true, if_false, List.nil_append, List.append_nil, List.cons_append,
        List.map_cons, List.nodup_cons, List.mem_cons, not_or]
    all_goals tauto

theorem globals_nodup (input_files : List Text) (field_separator : Option Text)
    (h : ∀ assigned ∈ initial_variables, is_identifier assigned.1 = true) :
    ((render_driver_globals input_files field_separator initial_variables).map DriverGlobal.name).Nodup := by
  have hscalars : ((render_scalar_globals [] 0 initial_variables).map DriverGlobal.name).Nodup := scalar_globals_nodup h
  have hscalar (declared : String)
      (hmem : declared ∈ (render_scalar_globals [] 0 initial_variables).map DriverGlobal.name) :
      ∃ rest, declared = "@.driver.scalar." ++ rest := by
    obtain ⟨declared, hdeclared, rfl⟩ := List.mem_map.mp hmem
    obtain ⟨other, _, _, hother⟩ | ⟨later, _, hother⟩ := mem_scalar_globals hdeclared
    · exact ⟨other.1, hother⟩
    · exact ⟨_, hother.trans (scalar_value_global_eq later)⟩
  have hinputs : (input_files.zipIdx.map fun input => driver_input_global input.2).Nodup := by
    have hindexes : (input_files.zipIdx.map Prod.snd).Nodup := by
      rw [List.zipIdx_map_snd]
      exact List.nodup_range'
    have hmap := hindexes.map (f := driver_input_global) fun _ _ hsame => numbered_inj.mp hsame
    rwa [List.map_map] at hmap
  have hinput (declared : String)
      (hmem : declared ∈ input_files.zipIdx.map fun input => driver_input_global input.2) :
      ∃ rest, declared = "@.driver.input." ++ rest := by
    obtain ⟨input, _, rfl⟩ := List.mem_map.mp hmem
    exact ⟨_, rfl⟩
  have hfirst : ((input_files.zipIdx.map fun input => driver_input_global input.2) ++
      if input_files.isEmpty then [] else ["@.driver.inputs"]).Nodup := by
    rw [List.nodup_append]
    refine ⟨hinputs, by split <;> simp, fun first hfirst second hsecond => ?_⟩
    obtain ⟨rest, rfl⟩ := hinput first hfirst
    split at hsecond
    · cases hsecond
    · cases List.mem_singleton.mp hsecond
      exact named_ne (by decide +kernel) rest
  have hother (declared : String) (hmem : declared ∈ (input_files.zipIdx.map fun input => driver_input_global input.2) ++
      if input_files.isEmpty then [] else ["@.driver.inputs"]) :
      (∃ rest, declared = "@.driver.input." ++ rest) ∨ declared = "@.driver.inputs" := by
    obtain hmem | hmem := List.mem_append.mp hmem
    · exact .inl (hinput declared hmem)
    · split at hmem
      · cases hmem
      · exact .inr (List.mem_singleton.mp hmem)
  have hsecond : (((input_files.zipIdx.map fun input => driver_input_global input.2) ++
      if input_files.isEmpty then [] else ["@.driver.inputs"]) ++
        field_separator.toList.map fun _ => "@.driver.fs").Nodup := by
    rw [List.nodup_append]
    refine ⟨hfirst, by cases field_separator <;> simp, fun first hfirst second hsecond => ?_⟩
    obtain ⟨_, _, rfl⟩ := List.mem_map.mp hsecond
    obtain ⟨rest, rfl⟩ | rfl := hother first hfirst
    · exact named_ne (by decide +kernel) rest
    · decide +kernel
  have hnames : (render_driver_globals input_files field_separator initial_variables).map DriverGlobal.name =
      ((input_files.zipIdx.map fun input => driver_input_global input.2) ++
        if input_files.isEmpty then [] else ["@.driver.inputs"]) ++
          (field_separator.toList.map fun _ => "@.driver.fs") ++
            (render_scalar_globals [] 0 initial_variables).map DriverGlobal.name := by
    simp only [render_driver_globals, List.map_append, List.map_map]
    congr 3
    split <;> rfl
  rw [hnames, List.nodup_append]
  refine ⟨hsecond, hscalars, fun first hfirst second hsecond => ?_⟩
  obtain ⟨rest, rfl⟩ := hscalar second hsecond
  obtain hfirst | hfirst := List.mem_append.mp hfirst
  · obtain ⟨other, rfl⟩ | rfl := hother first hfirst
    · exact named_ne_named (by decide +kernel) (by decide +kernel) other rest
    · exact (named_ne (by decide +kernel) rest).symm
  · obtain ⟨_, _, rfl⟩ := List.mem_map.mp hfirst
    exact (named_ne (by decide +kernel) rest).symm

end Globals

section Results

variable ( awk_numeric_prefix : Text → Number) (storage slots string_slots : NameIndexes)
  (initial_variables : InitialVariables Number)

/-- The `-v` of names in `%quawk.state`. -/
def stored_assignments : InitialVariables Number :=
  initial_variables.filter fun (name, _) => (storage.get name).isSome

@[simp]
theorem defined_names_append (front back : List (DriverInstruction Number)) :
    defined_names (front ++ back) = defined_names front ++ defined_names back :=
  List.filterMap_append

theorem state_init_names :
    defined_names (render_state_init storage : List (DriverInstruction Number)) =
      storage.map fun (name, _) => state_init name := by
  induction storage with
  | nil => rfl
  | cons first rest ih =>
    change state_init first.1 :: defined_names (render_state_init rest) = _
    rw [ih]
    rfl

theorem state_preassign_names : defined_names (render_state_preassign awk_numeric_prefix storage initial_variables) =
    (stored_assignments storage initial_variables).map fun (name, _) => state_preassign name := by
  induction initial_variables with
  | nil => rfl
  | cons assigned rest ih =>
    obtain ⟨name, value⟩ := assigned
    have hcons : render_state_preassign awk_numeric_prefix storage ((name, value) :: rest) =
        render_state_preassign awk_numeric_prefix storage [(name, value)] ++
          render_state_preassign awk_numeric_prefix storage rest := by
      simp [render_state_preassign]
    rw [hcons, defined_names_append, ih]
    unfold stored_assignments
    rw [List.filter_cons]
    cases hget : storage.get name with
    | none => simp [render_state_preassign, hget, defined_names]
    | some index =>
      simp [render_state_preassign, hget, defined_names, DriverInstruction.result]

/-- The SSA names of one `-v`: the pointer to its name, and for a text the pointer to it. -/
theorem scalar_preassignment_names (index : Nat) (name : Name) (value : InitialVariableValue Number) :
    defined_names (render_scalar_preassignment slots string_slots index name value) =
      match value with
      | .number _ => [preassign_name index]
      | .string _ => [preassign_name index, preassign_value index] := by
  unfold render_scalar_preassignment
  cases value with
  | number value => cases slots.get name <;> rfl
  | string text => cases slots.get name <;> cases string_slots.get name <;> rfl

theorem mem_scalar_names {index : Nat} {defined : String}
    (h : defined ∈ defined_names
      (render_driver_scalar_preassignments slots string_slots storage index initial_variables)) :
    ∃ later, index ≤ later ∧ (defined = preassign_name later ∨ defined = preassign_value later) := by
  induction initial_variables generalizing index with
  | nil => cases h
  | cons assigned rest ih =>
    obtain ⟨name, value⟩ := assigned
    rw [render_driver_scalar_preassignments, defined_names_append, List.mem_append] at h
    obtain h | h := h
    · refine ⟨index, le_refl _, ?_⟩
      split at h
      · cases h
      · rw [scalar_preassignment_names] at h
        cases value with
        | number _ => exact .inl (List.mem_singleton.mp h)
        | string _ => simpa using h
    · obtain ⟨later, hle, hdefined⟩ := ih h
      exact ⟨later, by omega, hdefined⟩

theorem preassign_name_ne_value (first second : Nat) : preassign_name first ≠ preassign_value second :=
  named_ne_named (by decide +kernel) (by decide +kernel) _ _

theorem scalar_names_nodup (index : Nat) :
    (defined_names (render_driver_scalar_preassignments slots string_slots storage index initial_variables)).Nodup := by
  induction initial_variables generalizing index with
  | nil => exact List.nodup_nil
  | cons assigned rest ih =>
    obtain ⟨name, value⟩ := assigned
    rw [render_driver_scalar_preassignments, defined_names_append, List.nodup_append]
    refine ⟨?_, ih (index + 1), fun first hfirst second hsecond => ?_⟩
    · split
      · exact List.nodup_nil
      · rw [scalar_preassignment_names]
        cases value with
        | number _ => exact List.nodup_singleton _
        | string _ => simpa using preassign_name_ne_value index index
    · obtain ⟨later, hle, hsecond⟩ := mem_scalar_names _ _ _ _ hsecond
      have hindex : first = preassign_name index ∨ first = preassign_value index := by
        split at hfirst
        · cases hfirst
        · rw [scalar_preassignment_names] at hfirst
          cases value with
          | number _ => exact .inl (List.mem_singleton.mp hfirst)
          | string _ => simpa using hfirst
      have hlater : index ≠ later := by omega
      obtain rfl | rfl := hindex <;> obtain rfl | rfl := hsecond
      · exact fun heq => hlater (numbered_inj.mp heq)
      · exact preassign_name_ne_value index later
      · exact (preassign_name_ne_value later index).symm
      · exact fun heq => hlater (numbered_inj.mp heq)

theorem runtime_create_names (input_files : List Text) (field_separator : Option Text) :
    defined_names (render_driver_runtime_create input_files field_separator : List (DriverInstruction Number)) =
      ["%argv", "%fs", "%rt"] := by
  unfold render_driver_runtime_create
  split <;> split <;> rfl

/-- The SSA names of the phases. -/
def phase_names : List String := ["%should.exit.begin", "%has.record", "%should.exit.record", "%exit.status"]

theorem phases_names (consumes_main_input has_record_phase : Bool) :
    (defined_names (.call_phase "quawk_begin" :: render_driver_record_loop consumes_main_input has_record_phase ++
      [.call_phase "quawk_end", .test "%exit.status" "qk_exit_status"] : List (DriverInstruction Number))).Sublist
        phase_names := by
  cases consumes_main_input with
  | false =>
    refine (List.Sublist.cons _ (.cons _ (.cons _ ?_)))
    exact List.Sublist.refl _
  | true => cases has_record_phase <;> exact List.Sublist.refl _

/-- The names that are defined once the state is set up. -/
def LaterName (defined : String) : Prop :=
  defined ∈ ["%argv", "%fs", "%rt"] ++ phase_names ∨
    ∃ index, defined = preassign_name index ∨ defined = preassign_value index

section Later

variable (input_files : List Text) (field_separator : Option Text) (index : Nat)
  (consumes_main_input has_record_phase : Bool)

def later_instructions : List (DriverInstruction Number) :=
  render_driver_runtime_create input_files field_separator ++
    render_driver_scalar_preassignments slots string_slots storage index initial_variables ++
      (.call_phase "quawk_begin" :: render_driver_record_loop consumes_main_input has_record_phase ++
        [.call_phase "quawk_end", .test "%exit.status" "qk_exit_status"])

theorem laterName {defined : String}
    (h : defined ∈ defined_names (later_instructions storage slots string_slots initial_variables input_files
      field_separator index consumes_main_input has_record_phase)) : LaterName defined := by
  unfold later_instructions at h
  rw [defined_names_append, defined_names_append, runtime_create_names] at h
  obtain h | h := List.mem_append.mp h
  · obtain h | h := List.mem_append.mp h
    · exact .inl (List.mem_append_left _ h)
    · obtain ⟨later, _, hdefined⟩ := mem_scalar_names _ _ _ _ h
      exact .inr ⟨later, hdefined⟩
  · exact .inl (List.mem_append_right _ ((phases_names consumes_main_input has_record_phase).subset h))

theorem later_names_nodup :
    (defined_names (later_instructions storage slots string_slots initial_variables input_files field_separator index
      consumes_main_input has_record_phase)).Nodup := by
  unfold later_instructions
  have hphases : (defined_names (_ : List (DriverInstruction Number))).Sublist phase_names :=
    phases_names consumes_main_input has_record_phase
  rw [defined_names_append, defined_names_append, runtime_create_names, List.nodup_append, List.nodup_append]
  refine ⟨⟨by decide +kernel, scalar_names_nodup _ _ _ _ _, fun first hfirst second hsecond => ?_⟩,
    hphases.nodup (by decide +kernel), fun first hfirst second hsecond => ?_⟩
  · obtain ⟨later, _, rfl | rfl⟩ := mem_scalar_names _ _ _ _ hsecond
    all_goals
      simp only [List.mem_cons, List.not_mem_nil, or_false] at hfirst
      obtain rfl | rfl | rfl := hfirst <;> exact (named_ne (by decide +kernel) _).symm
  · have hsecond := hphases.subset hsecond
    simp only [phase_names, List.mem_cons, List.not_mem_nil, or_false] at hsecond
    obtain hfirst | hfirst := List.mem_append.mp hfirst
    · simp only [List.mem_cons, List.not_mem_nil, or_false] at hfirst
      obtain rfl | rfl | rfl := hfirst <;> obtain rfl | rfl | rfl | rfl := hsecond <;> decide +kernel
    · obtain ⟨later, _, rfl | rfl⟩ := mem_scalar_names _ _ _ _ hfirst
      all_goals obtain rfl | rfl | rfl | rfl := hsecond <;> exact named_ne (by decide +kernel) _

end Later

theorem state_setup_names : defined_names (render_driver_state_setup awk_numeric_prefix storage initial_variables) =
    if storage.isEmpty then ["%state"]
    else ["%state.storage", "%state"] ++ (storage.map fun (name, _) => state_init name) ++
      (stored_assignments storage initial_variables).map fun (name, _) => state_preassign name := by
  unfold render_driver_state_setup
  split
  · rfl
  · rw [defined_names_append, defined_names_append, state_init_names, state_preassign_names]
    rfl

theorem later_ne_state {defined : String} (h : LaterName defined) :
    defined ≠ "%state" ∧ defined ≠ "%state.storage" ∧ (∀ name, defined ≠ state_init name) ∧
      ∀ name, defined ≠ state_preassign name := by
  obtain h | ⟨index, rfl | rfl⟩ := h
  · simp only [phase_names, List.mem_append, List.mem_cons, List.not_mem_nil, or_false] at h
    obtain (rfl | rfl | rfl) | rfl | rfl | rfl | rfl := h
    all_goals
      exact ⟨by decide +kernel, by decide +kernel, fun name => (named_ne (by decide +kernel) name).symm,
        fun name => (named_ne (by decide +kernel) name).symm⟩
  all_goals
    exact ⟨named_ne (by decide +kernel) _, named_ne (by decide +kernel) _,
      fun name => named_ne_named (by decide +kernel) (by decide +kernel) _ name,
      fun name => named_ne_named (by decide +kernel) (by decide +kernel) _ name⟩

variable {storage}

theorem state_names_nodup_iff (hstorage : (storage.map Prod.fst).Nodup) :
    (defined_names (render_driver_state_setup awk_numeric_prefix storage initial_variables)).Nodup ↔
      ((stored_assignments storage initial_variables).map Prod.fst).Nodup := by
  rw [state_setup_names]
  have hpreassign : ((stored_assignments storage initial_variables).map fun (name, _) => state_preassign name).Nodup ↔
      ((stored_assignments storage initial_variables).map Prod.fst).Nodup := by
    have hmap : ((stored_assignments storage initial_variables).map fun (name, _) => state_preassign name) =
        ((stored_assignments storage initial_variables).map Prod.fst).map state_preassign := by
      rw [List.map_map]
      rfl
    rw [hmap]
    exact List.nodup_map_iff fun _ _ hsame => named_inj.mp hsame
  have hinit : (storage.map fun (name, _) => state_init name).Nodup := by
    have hmap := hstorage.map (f := state_init) fun _ _ hsame => named_inj.mp hsame
    rwa [List.map_map] at hmap
  split
  · rename_i hempty
    rw [List.isEmpty_iff] at hempty
    subst hempty
    have hnone : stored_assignments [] initial_variables = [] := by
      simp [stored_assignments, NameIndexes.get]
    simp [hnone]
  · rw [List.nodup_append, List.nodup_append, hpreassign]
    refine ⟨fun h => h.2.1, fun h => ⟨⟨by decide +kernel, hinit, ?_⟩, h, ?_⟩⟩
    · intro first hfirst second hsecond
      obtain ⟨_, _, rfl⟩ := List.mem_map.mp hsecond
      simp only [List.mem_cons, List.not_mem_nil, or_false] at hfirst
      obtain rfl | rfl := hfirst <;> exact (named_ne (by decide +kernel) _).symm
    · intro first hfirst second hsecond
      obtain ⟨_, _, rfl⟩ := List.mem_map.mp hsecond
      obtain hfirst | hfirst := List.mem_append.mp hfirst
      · simp only [List.mem_cons, List.not_mem_nil, or_false] at hfirst
        obtain rfl | rfl := hfirst <;> exact (named_ne (by decide +kernel) _).symm
      · obtain ⟨_, _, rfl⟩ := List.mem_map.mp hfirst
        exact named_ne_named (by decide +kernel) (by decide +kernel) _ _

theorem mem_state_names {defined : String}
    (h : defined ∈ defined_names (render_driver_state_setup awk_numeric_prefix storage initial_variables)) :
    defined = "%state" ∨ defined = "%state.storage" ∨ (∃ name, defined = state_init name) ∨
      ∃ name, defined = state_preassign name := by
  rw [state_setup_names] at h
  split at h
  · exact .inl (List.mem_singleton.mp h)
  · simp only [List.mem_append, List.mem_cons, List.not_mem_nil, or_false, List.mem_map] at h
    obtain ((rfl | rfl) | ⟨stored, _, rfl⟩) | ⟨assigned, _, rfl⟩ := h
    · exact .inr (.inl rfl)
    · exact .inl rfl
    · exact .inr (.inr (.inl ⟨_, rfl⟩))
    · exact .inr (.inr (.inr ⟨_, rfl⟩))

/-- The names of the whole driver are those of the state and the later ones. -/
theorem results_nodup_iff (hstorage : (storage.map Prod.fst).Nodup) (input_files : List Text)
    (field_separator : Option Text) (consumes_main_input has_record_phase : Bool) :
    (defined_names (render_driver_state_setup awk_numeric_prefix storage initial_variables ++
      later_instructions storage slots string_slots initial_variables input_files field_separator 0 consumes_main_input
        has_record_phase)).Nodup ↔ ((stored_assignments storage initial_variables).map Prod.fst).Nodup := by
  rw [defined_names_append, List.nodup_append, state_names_nodup_iff _ _ hstorage]
  refine ⟨And.left, fun h => ⟨h, later_names_nodup _ _ _ _ _ _ _ _ _, fun first hfirst second hsecond => ?_⟩⟩
  obtain ⟨hstate, halloca, hinit, hpreassign⟩ := later_ne_state (laterName _ _ _ _ _ _ _ _ _ hsecond)
  obtain rfl | rfl | ⟨name, rfl⟩ | ⟨name, rfl⟩ := mem_state_names _ _ hfirst
  · exact hstate.symm
  · exact halloca.symm
  · exact (hinit name).symm
  · exact (hpreassign name).symm

end Results

/-- The slots are the indexes of the names that are neither builtin nor synthetic. -/
theorem runtime_slot_indexes_eq (variable_indexes : VariableIndexes) :
    runtime_slot_indexes (allocate_slots_for_variable_indexes variable_indexes) =
      variable_indexes.zipIdx.filter fun (name, _) =>
        !is_builtin_variable_name name && !is_reusable_runtime_state_name name := by
  simp only [runtime_slot_indexes, allocate_slots_for_variable_indexes, List.filter_map, List.map_map]
  have hid : ((fun slot : VariableSlot => (slot.name, slot.index)) ∘ fun x : Name × Nat => ⟨x.1, x.2, .slot⟩) = id := rfl
  rw [hid, List.map_id]
  congr 1

/-- The names in `%quawk.state` are stored once each. -/
theorem program_storage_nodup {program : Program} {normalized_program : NormalizedLoweringProgram}
    (h : normalize_program_for_lowering program = .ok normalized_program) :
    ((program_storage program normalized_program).map Prod.fst).Nodup := by
  obtain ⟨hnodup, hslots⟩ := variable_indexes_nodup h
  unfold program_storage state_storage_indexes runtime_numeric_slot_indexes reusable_runtime_state_indexes
  rw [hslots, runtime_slot_indexes_eq, ((List.mergeSort_perm _ _).map Prod.fst).nodup_iff, List.map_append,
    List.nodup_append]
  have hindexes : (normalized_program.variable_indexes.zipIdx.map Prod.fst).Nodup := by
    rwa [List.zipIdx_map_fst]
  refine ⟨hindexes.sublist (List.filter_sublist.map _),
    hindexes.sublist ((List.filter_sublist.trans List.filter_sublist).map _), ?_⟩
  rintro name hfirst _ hsecond rfl
  obtain ⟨⟨first, _⟩, hstored, rfl⟩ := List.mem_map.mp hfirst
  obtain ⟨⟨second, _⟩, hslot, heq⟩ := List.mem_map.mp hsecond
  obtain rfl : second = first := heq
  simp only [List.mem_filter, Bool.and_eq_true, Bool.not_eq_true'] at hstored hslot
  rw [hstored.2] at hslot
  cases hslot.1.2.2

end quawk
