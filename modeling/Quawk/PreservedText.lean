import Quawk.RepeatedAssignments
import Quawk.WholeTexts

namespace quawk

variable {Number : Type}

/-- Doubles whose texts are read as the C library spells numbers. -/
def Doubles.spelled (doubles : Doubles Number) (round : Numeral.Value → Number) : Doubles Number :=
  { doubles with strtod := fun text => (Numeral.strtod text).map fun (value, _) => round value }

section Read

variable (doubles : Doubles Number) (machine : DriverMachine Number) (name : Name)

def DriverMachine.read_number : ScalarStore → Number
  | .field index => machine.state index
  | .slot index => doubles.qk_slot_get_number machine.runtime index
  | .entry => doubles.qk_scalar_get_number machine.runtime name
  | .input => doubles.number_of (input_value doubles machine.runtime name)
  | .cell => doubles.of_int 0

def DriverMachine.read_text : ScalarStore → Text
  | .field index => doubles.qk_format_number machine.runtime (machine.state index)
  | .slot index => (doubles.qk_slot_get_string machine.runtime index).1
  | .entry => (doubles.qk_scalar_string_view machine.runtime name).1
  | .input => doubles.text_of (machine.runtime.value "CONVFMT").format (input_value doubles machine.runtime name)
  | .cell => doubles.qk_format_number machine.runtime (doubles.of_int 0)

/-- What `print` writes of a variable. -/
def DriverMachine.read_printed : ScalarStore → Text
  | .field index =>
    doubles.qk_format_number_with_text (machine.state index)
      ((machine.runtime.value "OFMT").variable_text QK_DEFAULT_OFMT)
  | .input =>
    doubles.text_of ((machine.runtime.value "OFMT").variable_text QK_DEFAULT_OFMT)
      (input_value doubles machine.runtime name)
  | .cell =>
    doubles.qk_format_number_with_text (doubles.of_int 0)
      ((machine.runtime.value "OFMT").variable_text QK_DEFAULT_OFMT)
  | store => machine.read_text doubles name store

end Read

/-- What the program does to the stores. -/
inductive StoreStep (Number : Type) where
  | runtime (operation : RuntimeOperation Number)
  | store_field (index : Nat) (value : Number)

section Steps

variable (doubles : Doubles Number)

def store_step (machine : DriverMachine Number) : StoreStep Number → DriverMachine Number
  | .runtime operation => machine.set_runtime (doubles.apply machine.runtime operation)
  | .store_field index value => { machine with state := Function.update machine.state index value }

variable (storage slots : NameIndexes) (name : Name)

/-- An operation that gives the variable a value. -/
def AssignsName (runtime : RuntimeState Number) : RuntimeOperation Number → Prop
  | .slot_set_string slot_index _ | .slot_set_number slot_index _ =>
    ∃ index : Nat, slots.get name = some index ∧ slot_index = index
  | .match_text _ _ => name = "RSTART" ∨ name = "RLENGTH"
  | operation => ∃ value, operation.stored runtime = some (name, value)

/-- A step that leaves the variable to its `-v`. -/
def Spares (machine : DriverMachine Number) : StoreStep Number → Prop
  | .runtime operation => ¬ AssignsName slots name machine.runtime operation
  | .store_field index _ => storage.get name ≠ some index

/-- A step that leaves `CONVFMT` and `OFMT` alone. -/
def SparesFormats (machine : DriverMachine Number) : StoreStep Number → Prop
  | .runtime operation =>
    ∀ value, operation.stored machine.runtime ≠ some ("CONVFMT", value) ∧
      operation.stored machine.runtime ≠ some ("OFMT", value)
  | .store_field _ _ => True

end Steps

section Spared

variable (doubles : Doubles Number) {slots : NameIndexes} {name : Name} {runtime : RuntimeState Number}
  {operation : RuntimeOperation Number} (hspares : ¬ AssignsName slots name runtime operation)
include hspares

theorem apply_value_of_spared (hnf : name ≠ "NF") :
    (doubles.apply runtime operation).value name = runtime.value name := by
  cases hstored : operation.stored runtime with
  | some stored =>
    obtain ⟨other, value⟩ := stored
    have hne : name ≠ other := by
      rintro rfl
      cases operation <;> first | exact hspares ⟨value, hstored⟩ | cases hstored
    rw [doubles.apply_stored runtime other hstored, doubles.store_value _ _ hnf, if_neg hne]
  | none =>
    cases operation with
    | scalar_set_string | scalar_set_number | scalar_copy => cases hstored
    | scalar_get other => exact doubles.qk_scalar_string_view_value runtime other name
    | slot_set_string slot_index value =>
      simp only [Doubles.apply, Doubles.qk_slot_set_string]
      split_ifs <;> rfl
    | slot_set_number slot_index value =>
      simp only [Doubles.apply, qk_slot_set_number]
      split_ifs <;> rfl
    | slot_get_string slot_index =>
      simp only [Doubles.apply, Doubles.qk_slot_get_string]
      split_ifs
      · rfl
      · split <;> rfl
    | set_field_string index value =>
      simp only [Doubles.apply, Doubles.qk_set_field_string]
      split_ifs
      · rfl
      · exact (doubles.qk_rebuild_current_record_rest _ _ _ _).1 _ hnf
    | set_field_number index value =>
      simp only [Doubles.apply, Doubles.qk_set_field_number, Doubles.qk_set_field_string]
      split_ifs
      · rfl
      · exact (doubles.qk_rebuild_current_record_rest _ _ _ _).1 _ hnf
    | read_record line => exact doubles.store_field_count_value hnf
    | match_text start length =>
      obtain ⟨hstart, hlength⟩ := not_or.mp hspares
      simp [Doubles.apply, Doubles.qk_match, qk_scalar_set_number_value, store_entry_value, hstart, hlength]

/-- The slot of the variable stays as it is, but for the text of its number, which reading it may add. -/
theorem apply_slot_of_spared {index : Nat} (hslot : slots.get name = some index) :
    (doubles.apply runtime operation).string_slots index = runtime.string_slots index ∨
      ∃ number, runtime.string_slots index = ⟨some number, none⟩ ∧
        (doubles.apply runtime operation).string_slots index =
          ⟨some number, some (doubles.qk_format_number runtime number)⟩ := by
  cases operation with
  | slot_set_string slot_index value =>
    have hne : (index : Int) ≠ slot_index := fun heq => hspares ⟨index, hslot, heq.symm⟩
    refine .inl ?_
    simp only [Doubles.apply, Doubles.qk_slot_set_string]
    split_ifs
    · rfl
    · exact Function.update_of_ne hne _ _
  | slot_set_number slot_index value =>
    have hne : (index : Int) ≠ slot_index := fun heq => hspares ⟨index, hslot, heq.symm⟩
    refine .inl ?_
    simp only [Doubles.apply, qk_slot_set_number]
    split_ifs
    · rfl
    · exact Function.update_of_ne hne _ _
  | slot_get_string slot_index =>
    simp only [Doubles.apply, Doubles.qk_slot_get_string]
    split_ifs
    · exact .inl rfl
    · split
      · exact .inl rfl
      · exact .inl rfl
      · rename_i number hcell
        by_cases hsame : (index : Int) = slot_index
        · subst hsame
          exact .inr ⟨number, hcell, Function.update_self ..⟩
        · exact .inl (Function.update_of_ne hsame _ _)
  | scalar_set_string name value => exact .inl (congrFun (doubles.store_string_slots name (.string value)) _)
  | scalar_set_number name value => exact .inl (congrFun (doubles.store_string_slots name (.number value)) _)
  | scalar_copy target_name source_name =>
    refine .inl ?_
    simp only [Doubles.apply, doubles.qk_scalar_copy_eq_store]
    exact congrFun (doubles.store_string_slots target_name _) _
  | scalar_get other => exact .inl (congrFun (doubles.qk_scalar_string_view_string_slots runtime other) _)
  | set_field_string field value =>
    refine .inl ?_
    simp only [Doubles.apply, Doubles.qk_set_field_string]
    split_ifs
    · rfl
    · exact congrFun (doubles.rebuild_string_slots _ _ _) _
  | set_field_number field value =>
    refine .inl ?_
    simp only [Doubles.apply, Doubles.qk_set_field_number, Doubles.qk_set_field_string]
    split_ifs
    · rfl
    · exact congrFun (doubles.rebuild_string_slots _ _ _) _
  | read_record line =>
    refine .inl ?_
    simp [Doubles.apply, Doubles.qk_rebuild_fields, Doubles.store_field_count, qk_scalar_set_number_value]
  | match_text start length =>
    refine .inl ?_
    simp [Doubles.apply, Doubles.qk_match, qk_scalar_set_number_value]

end Spared

section Keeps

variable (doubles : Doubles Number) (storage slots : NameIndexes) (format output_format : Text) (name : Name)
  (value : InitialVariableValue Number)

/-- A slot that still has the value of the `-v`, maybe with the text of its number. -/
def SlotKeeps (cell : SlotCell Number) : Prop :=
  match value with
  | .number number =>
    cell.number = some number ∧
      ∀ cached, cell.string = some cached → cached = doubles.qk_format_number_with_text number format
  | .string text => cell = ⟨some ( doubles.qk_parse_awk_numeric_prefix text), some text⟩

/-- Every store of the variable has the value of its `-v`, and a number is still read under the same formats. -/
structure Keeps (machine : DriverMachine Number) : Prop where
  field : ∀ index number, storage.get name = some index → value = .number number → machine.state index = number
  entry : storage.get name = none → machine.runtime.value name = value.stored
  slot : ∀ index : Nat, storage.get name = none → slots.get name = some index →
    SlotKeeps doubles format value (machine.runtime.string_slots index)
  texts : ∀ number, value = .number number →
    doubles.ScalarTexts machine.runtime ∧ (machine.runtime.value "CONVFMT").format = format
  output : ∀ number, value = .number number →
    (machine.runtime.value "OFMT").variable_text QK_DEFAULT_OFMT = output_format

/-- A step that spares the variable, and the formats where the variable is a number. -/
def LawfulStep (machine : DriverMachine Number) (step : StoreStep Number) : Prop :=
  Spares storage slots name machine step ∧ ∀ number, value = .number number → SparesFormats machine step

variable {doubles storage slots format output_format name value}

/-- A step that spares the variable leaves what it has. -/
theorem keeps_step (hnf : name ≠ "NF") {machine : DriverMachine Number} {step : StoreStep Number}
    (h : Keeps doubles storage slots format output_format name value machine)
    (hstep : LawfulStep storage slots name value machine step) :
    Keeps doubles storage slots format output_format name value (store_step doubles machine step) := by
  obtain ⟨hspares, hformat⟩ := hstep
  cases step with
  | store_field index stored =>
    refine ⟨fun other number hget hvalue => ?_, h.entry, h.slot, h.texts, h.output⟩
    have hne : other ≠ index := fun heq => hspares (heq ▸ hget)
    exact (Function.update_of_ne hne _ _).trans (h.field other number hget hvalue)
  | runtime operation =>
    refine ⟨h.field, fun hget => ?_, fun index hget hslot => ?_, fun number hvalue => ?_, fun number hvalue => ?_⟩
    · exact (apply_value_of_spared doubles hspares hnf).trans (h.entry hget)
    · have hbefore := h.slot index hget hslot
      change SlotKeeps doubles format value ((doubles.apply machine.runtime operation).string_slots index)
      obtain hsame | ⟨found, hcell, hafter⟩ := apply_slot_of_spared doubles hspares hslot
      · rw [hsame]
        exact hbefore
      · -- the text is added to a number, under the format in force
        rw [hcell] at hbefore
        cases value with
        | number number =>
          obtain rfl : found = number := Option.some.inj hbefore.1
          rw [hafter]
          refine ⟨rfl, fun cached hcached => ?_⟩
          rw [← Option.some.inj hcached, ← (h.texts found rfl).2]
          rfl
        | string text => cases hbefore
    · obtain ⟨hscalars, hconvfmt⟩ :=
        doubles.apply_scalar_texts (fun other => (hformat number hvalue other).1) (h.texts number hvalue).1
      exact ⟨hscalars, (congrArg StoredValue.format hconvfmt).trans (h.texts number hvalue).2⟩
    · have hoperation : ¬ AssignsName [] "OFMT" machine.runtime operation := by
        intro hassigns
        cases operation with
        | slot_set_string | slot_set_number =>
          obtain ⟨index, hslot, _⟩ := hassigns
          cases hslot
        | match_text =>
          obtain hname | hname := hassigns <;> exact absurd hname (by decide)
        | _ =>
          obtain ⟨other, hstored⟩ := hassigns
          exact (hformat number hvalue other).2 hstored
      have hofmt := apply_value_of_spared doubles hoperation (by decide)
      exact (congrArg (·.variable_text QK_DEFAULT_OFMT) hofmt).trans (h.output number hvalue)

variable {machine : DriverMachine Number} (h : Keeps doubles storage slots format output_format name value machine)
include h

/-- What is read of the entry in the scalar table. -/
theorem Keeps.read_entry (hget : storage.get name = none) :
    machine.read_text doubles name .entry = doubles.text_of format value.stored ∧
      machine.read_number doubles name .entry = doubles.number_of value.stored := by
  have hvalue := h.entry hget
  refine ⟨?_, congrArg doubles.number_of hvalue⟩
  unfold DriverMachine.read_text Doubles.qk_scalar_string_view
  dsimp only
  unfold RuntimeState.value at hvalue
  cases hfind : machine.runtime.scalars.find name with
  | none =>
    rw [hfind] at hvalue
    cases value <;> cases hvalue
  | some entry =>
    rw [hfind] at hvalue
    cases entry with
    | unset => cases value <;> cases hvalue
    | string text =>
      cases value <;> cases hvalue
      rfl
    | number number cached =>
      cases value <;> cases hvalue
      obtain ⟨htexts, hformat⟩ := h.texts number rfl
      cases cached with
      | none =>
        rw [← hformat]
        rfl
      | some cached =>
        have hcached := htexts name number cached hfind
        rw [hformat] at hcached
        exact hcached

/-- What is read of the slot. -/
theorem Keeps.read_slot (hget : storage.get name = none) {index : Nat} (hslot : slots.get name = some index) :
    machine.read_text doubles name (.slot index) = doubles.text_of format value.stored ∧
      machine.read_number doubles name (.slot index) = doubles.number_of value.stored := by
  have hnonneg : ¬ (index : Int) < 0 := by omega
  have hkeeps := h.slot index hget hslot
  unfold DriverMachine.read_text DriverMachine.read_number Doubles.qk_slot_get_string Doubles.qk_slot_get_number
  dsimp only
  rw [if_neg hnonneg, if_neg hnonneg]
  cases value with
  | string text =>
    change machine.runtime.string_slots index = _ at hkeeps
    rw [hkeeps]
    exact ⟨rfl, rfl⟩
  | number number =>
    obtain ⟨hnumber, hcached⟩ := hkeeps
    rw [hnumber]
    refine ⟨?_, rfl⟩
    split
    · next cached hcell => exact hcached cached (by rw [hcell])
    · next hcell =>
      rw [hcell] at hnumber
      cases hnumber
    · next found hcell =>
      rw [hcell] at hnumber
      obtain rfl : found = number := Option.some.inj hnumber
      rw [← (h.texts found rfl).2]
      rfl

/-- What is read of the field of `%quawk.state`. -/
theorem Keeps.read_field {index : Nat} (hget : storage.get name = some index) {number : Number}
    (hvalue : value = .number number) :
    machine.read_text doubles name (.field index) = doubles.text_of format value.stored ∧
      machine.read_printed doubles name (.field index) = doubles.text_of output_format value.stored ∧
      machine.read_number doubles name (.field index) = doubles.number_of value.stored := by
  subst hvalue
  have hfield := h.field index number hget rfl
  refine ⟨?_, ?_, hfield⟩
  · unfold DriverMachine.read_text
    dsimp only
    rw [hfield, ← (h.texts number rfl).2]
    rfl
  · unfold DriverMachine.read_printed
    dsimp only
    rw [hfield, h.output number rfl]
    rfl

end Keeps

section Begin

variable {doubles : Doubles Number} {context : DriverContext Number} {storage slots : NameIndexes}

variable (doubles context storage slots) in
/-- A name that no `-v` gives is as the runtime has it from the start. -/
theorem preassigned_entry {name : Name} (hnf : name ≠ "NF") (hstored : storage.get name = none)
    (initial_variables : InitialVariables Number) (runtime : RuntimeState Number) :
    (initial_variables.foldl (preassign doubles context storage slots) runtime).value name =
      ((last_value initial_variables name).map context.kept).getD (runtime.value name) := by
  induction initial_variables using List.reverseRecOn with
  | nil => rfl
  | append_singleton front assigned ih =>
    obtain ⟨other, value⟩ := assigned
    rw [List.foldl_append, List.foldl_cons, List.foldl_nil, last_value_append]
    cases hother : storage.get other with
    | some field =>
      have hne : name ≠ other := by
        rintro rfl
        rw [hstored] at hother
        cases hother
      rw [if_neg hne, ← ih]
      simp [preassign, hother]
    | none =>
      rw [(preassign_stored doubles context slots _ value hother).1, doubles.store_value _ _ hnf, ih]
      by_cases hname : name = other <;> simp [hname]

theorem kept_ne_unset (value : InitialVariableValue Number) : context.kept value ≠ .unset := by
  cases value <;> exact fun heq => nomatch heq

theorem preassign_texts {runtime : RuntimeState Number} (h : doubles.ScalarTexts runtime)
    (assigned : Name × InitialVariableValue Number) :
    doubles.ScalarTexts (preassign doubles context storage slots runtime assigned) := by
  obtain ⟨name, value⟩ := assigned
  have hstore : doubles.ScalarTexts (doubles.store runtime name (context.kept value)) := by
    by_cases hname : name = "CONVFMT"
    · rw [hname]
      exact doubles.scalarTexts_store_convfmt (kept_ne_unset value)
    · exact h.store doubles hname _
  unfold preassign
  dsimp only
  split_ifs
  · exact h
  · -- a slot is no part of the table
    split
    · unfold qk_slot_set_number
      split_ifs
      · exact hstore
      · exact hstore
    · unfold Doubles.qk_slot_set_string
      split_ifs
      · exact hstore
      · exact hstore
    · exact hstore

theorem preassigned_texts (initial_variables : InitialVariables Number) {runtime : RuntimeState Number}
    (h : doubles.ScalarTexts runtime) :
    doubles.ScalarTexts (initial_variables.foldl (preassign doubles context storage slots) runtime) := by
  induction initial_variables generalizing runtime with
  | nil => exact h
  | cons assigned rest ih => exact ih (preassign_texts h assigned)

end Begin

section Law

variable (doubles : Doubles Number) (round : Numeral.Value → Number) (read_literal : Number → Number)
  (program : Program) (normalized_program : NormalizedLoweringProgram) (input_files : List Text)
  (field_separator : Option Text) (initial_variables : InitialVariables Number) (name : Name) (text : Text)

/-- The value the stores of a variable get: a text stays one where Python reads no number in it and the variable is not
in `%quawk.state`. -/
def kept_value : InitialVariableValue Number :=
  match assignment_value round text, ((program_storage program normalized_program).get name).isSome with
  | .string raw_value, false => .string raw_value
  | value, _ => .number (read_literal (initial_number (fun text => round ( Numeral.awk_numeric_prefix text)) value))

/-- The format BEGIN starts with: that of the last `-v` of the format variable, or the default. -/
def start_format (format_name : Name) (default_format : Text) : Text :=
  match last_value initial_variables format_name with
  | some (.number value) => (StoredValue.number (read_literal value)).variable_text default_format
  | some (.string text) => (StoredValue.string text : StoredValue Number).variable_text default_format
  | none => default_format

/-- A whole number of at most six digits is read and written exactly: `0` is zero, the decimals of a literal give the
number back, and `%.6g` writes its decimal digits. -/
structure SmallWholeNumbers : Prop where
  zero : round (.finite 0) = doubles.of_int 0
  literal : ∀ value : Int, value.natAbs < 10 ^ 6 → read_literal (round (.finite value)) = round (.finite value)
  formatted : ∀ value : Int, value.natAbs < 10 ^ 6 →
    doubles.snprintf QK_DEFAULT_CONVFMT (round (.finite value)) = some (decimal_text value)

/-- The variable is no input variable, no phase reads it from a variable of its own, and no name in `%quawk.state` is
given twice. The text either stays a text, and `strtod` converts of it what the compiler's pattern matches, or it is
that of a whole number of at most six digits, written under the default formats. -/
structure TextKept : Prop where
  once : ((stored_assignments (program_storage program normalized_program) initial_variables).map Prod.fst).Nodup
  input : name ∉ INPUT_NAMES
  cell : ∀ unit, ¬ ReadFrom program normalized_program unit name .cell
  kept : python_float text = none ∧ (program_storage program normalized_program).get name = none ∧
      Numeral.SameNumeral text ∨
    (∃ value : Int, value.natAbs < 10 ^ 6 ∧ text = decimal_text value) ∧
      start_format read_literal initial_variables "CONVFMT" QK_DEFAULT_CONVFMT = QK_DEFAULT_CONVFMT ∧
      (((program_storage program normalized_program).get name).isSome = true →
        start_format read_literal initial_variables "OFMT" QK_DEFAULT_OFMT = QK_DEFAULT_OFMT)

variable {doubles round read_literal program normalized_program input_files field_separator initial_variables name text}

variable (doubles) in
theorem created_value (argc : Nat) (field_separator : Option Text) :
    (doubles.qk_runtime_initialize argc field_separator).value "CONVFMT" = .string QK_DEFAULT_CONVFMT ∧
      (doubles.qk_runtime_initialize argc field_separator).value "OFMT" = .string QK_DEFAULT_OFMT := by
  simp only [RuntimeState.value, Doubles.qk_runtime_initialize, LinkedTable.find_put]
  exact ⟨rfl, rfl⟩

theorem start_formats (h : normalize_program_for_lowering program = .ok normalized_program) {format_name : Name}
    {default_format : Text} (hbuiltin : is_builtin_variable_name format_name = true)
    (hreusable : is_reusable_runtime_state_name format_name = false) (hnf : format_name ≠ "NF")
    (hcreated : (doubles.qk_runtime_initialize input_files.length field_separator).value format_name =
      .string default_format) :
    ((initial_variables.foldl (preassign doubles
        (driver_context doubles read_literal input_files field_separator initial_variables)
        (program_storage program normalized_program) (runtime_slot_indexes normalized_program.slot_allocation))
      (doubles.qk_runtime_initialize input_files.length field_separator)).value format_name).variable_text
        default_format = start_format read_literal initial_variables format_name default_format := by
  have hstored : (program_storage program normalized_program).get format_name = none := by
    cases hget : (program_storage program normalized_program).get format_name with
    | none => rfl
    | some index =>
      rw [get_eq_some_iff (program_storage_nodup h), program_storage, (variable_indexes_nodup h).2,
        mem_state_storage, hbuiltin, hreusable] at hget
      simp at hget
  rw [preassigned_entry doubles _ _ _ hnf hstored, hcreated]
  unfold start_format
  cases last_value initial_variables format_name with
  | none => rfl
  | some value => cases value <;> rfl

theorem kept_value_stored (hstored : ((program_storage program normalized_program).get name).isSome = true) :
    kept_value round read_literal program normalized_program name text =
      .number (read_literal (initial_number (fun text => round ( Numeral.awk_numeric_prefix text))
        (assignment_value round text))) := by
  unfold kept_value
  rw [hstored]
  cases assignment_value round text <;> rfl

variable (doubles round read_literal text) in
theorem kept_value_runtime {context : DriverContext Number} (hcontext : context.read_literal = read_literal)
    (format : Text) (hstored : (program_storage program normalized_program).get name = none) :
    context.kept (assignment_value round text) =
        (kept_value round read_literal program normalized_program name text).stored ∧
      SlotKeeps doubles format (kept_value round read_literal program normalized_program name text)
        (preassigned_slot doubles context (assignment_value round text)) := by
  unfold kept_value
  rw [hstored, ← hcontext]
  cases assignment_value round text with
  | number value => exact ⟨rfl, rfl, fun _ hcached => nomatch hcached⟩
  | string text => exact ⟨rfl, rfl⟩

/-- What the stores get of a text that is kept: its numeric prefix for the number, and the text itself for the text. -/
theorem TextKept.views (hnumbers : SmallWholeNumbers doubles round read_literal)
    (hkept : TextKept read_literal program normalized_program initial_variables name text) :
    (doubles.spelled round).number_of
        (kept_value round read_literal program normalized_program name text).stored = round ( Numeral.awk_numeric_prefix text) ∧
      doubles.text_of (start_format read_literal initial_variables "CONVFMT" QK_DEFAULT_CONVFMT)
        (kept_value round read_literal program normalized_program name text).stored = text ∧
      (((program_storage program normalized_program).get name).isSome = true →
        doubles.text_of (start_format read_literal initial_variables "OFMT" QK_DEFAULT_OFMT)
          (kept_value round read_literal program normalized_program name text).stored = text) := by
  obtain ⟨hfloat, hstored, hsame⟩ | ⟨⟨value, hsmall, rfl⟩, hconvfmt, hofmt⟩ := hkept.kept
  · have hvalue : kept_value round read_literal program normalized_program name text = .string text := by
      simp [kept_value, assignment_value, hfloat, hstored]
    rw [hvalue]
    refine ⟨?_, rfl, fun _ => rfl⟩
    rw [← hsame.value]
    change (Option.map _ (Numeral.strtod text)).getD (doubles.of_int 0) = _
    unfold Numeral.qk_parse_awk_numeric_prefix
    cases Numeral.strtod text with
    | none => exact hnumbers.zero.symm
    | some result => rfl
  · have hvalue : kept_value round read_literal program normalized_program name (decimal_text value) =
        .number (round (.finite value)) := by
      have hassigned : assignment_value round (decimal_text value) = .number (round (.finite value)) := by
        rw [assignment_value, python_float_whole]
      unfold kept_value
      rw [hassigned]
      exact congrArg _ (hnumbers.literal value hsmall)
    have htext : doubles.qk_format_number_with_text (round (.finite value)) QK_DEFAULT_CONVFMT = decimal_text value := by
      rw [Doubles.qk_format_number_with_text, if_neg (by decide)]
      simp only [hnumbers.formatted value hsmall]
    rw [hvalue, hconvfmt]
    refine ⟨?_, htext, fun hsome => ?_⟩
    · rw [Numeral.awk_numeric_prefix_whole]
      rfl
    · rw [hofmt hsome]
      exact htext

/-- What BEGIN starts with of a variable that has a `-v`. -/
theorem keeps_begin (h : normalize_program_for_lowering program = .ok normalized_program)
    (hnames : ∀ assigned ∈ initial_variables, is_identifier assigned.1 = true) (hnf : name ≠ "NF")
    (hlast : last_value initial_variables name = some (assignment_value round text)) (machine : DriverMachine Number) :
    Keeps doubles (program_storage program normalized_program)
      (runtime_slot_indexes normalized_program.slot_allocation)
      (start_format read_literal initial_variables "CONVFMT" QK_DEFAULT_CONVFMT)
      (start_format read_literal initial_variables "OFMT" QK_DEFAULT_OFMT) name
      (kept_value round read_literal program normalized_program name text)
      (machine_at_begin doubles (fun text => round ( Numeral.awk_numeric_prefix text)) read_literal program
        normalized_program input_files field_separator initial_variables machine) := by
  have hbegin := begin_runtime doubles (fun text => round ( Numeral.awk_numeric_prefix text)) read_literal input_files
    field_separator h hnames machine
  refine ⟨fun index number hget hvalue => ?_, fun hget => ?_, fun index hget hslot => ?_, fun number _ => ?_,
    fun number _ => ?_⟩
  · rw [kept_value_stored (by rw [hget]; rfl)] at hvalue
    exact (begin_field h hnames machine hget hlast).trans (InitialVariableValue.number.inj hvalue)
  · exact (hbegin.entry name _ hnf hget hlast).trans (kept_value_runtime doubles round read_literal text rfl [] hget).1
  · rw [hbegin.slot name _ index hget hslot hlast]
    exact (kept_value_runtime doubles round read_literal text rfl _ hget).2
  · rw [begin_runtime_eq doubles _ read_literal input_files field_separator h hnames machine]
    have hinitial := doubles.initial_texts input_files.length field_separator
    exact ⟨preassigned_texts initial_variables ((doubles.textsAgree_iff hinitial.hold).mp hinitial.agree).1,
      start_formats h (by decide) (by decide +kernel) (by decide) (created_value doubles _ _).1⟩
  · rw [begin_runtime_eq doubles _ read_literal input_files field_separator h hnames machine]
    exact start_formats h (by decide) (by decide +kernel) (by decide) (created_value doubles _ _).2

end Law

/-- `BEGIN { print x }` -/
def print_x : Program := ⟨[.pattern_action (some .begin_pattern) (some [.print [.name "x"] none])]⟩

/-- Rational numbers are as they are spelled. -/
def spelled_rational : Numeral.Value → Rat
  | .finite value => value
  | .infinity _ | .nan => 0

/-- `-v x=abc` -/
def word_assignment : List Text := [['x', '=', 'a', 'b', 'c']]

def word_variables : InitialVariables Rat := [("x", .string ['a', 'b', 'c'])]

end quawk
