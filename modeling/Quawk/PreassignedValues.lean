import Quawk.FormatCaches
import Quawk.Preassignments
import Quawk.SeparatorCoherence

namespace quawk

variable {Number : Type}

/-- What an SSA name of the driver points to. -/
inductive DriverValue where
  | field (index : Nat)
  | text (text : Text)

/-- The driver on its way to BEGIN. -/
structure DriverMachine (Number : Type) where
  results : String → Option DriverValue
  state : Nat → Number
  runtime : RuntimeState Number

/-- What the instructions of the driver need: the globals, the runtime that is created, and the double that LLVM reads
from the fifteen decimals `format_double_literal` prints. -/
structure DriverContext (Number : Type) where
  globals : List DriverGlobal
  created : RuntimeState Number
  read_literal : Number → Number

def DriverContext.text (context : DriverContext Number) (name : String) : Option Text :=
  match context.globals.find? fun declared => declared.name == name with
  | some ⟨_, .bytes text⟩ => some text
  | _ => none

namespace DriverMachine

variable (machine : DriverMachine Number)

def define (result : String) (value : Option DriverValue) : DriverMachine Number :=
  { machine with results := Function.update machine.results result value }

/-- Store a double through a pointer to a field. -/
def store (target : String) (value : Number) : DriverMachine Number :=
  match machine.results target with
  | some (.field index) => { machine with state := Function.update machine.state index value }
  | _ => machine

/-- The text an SSA name points to. -/
def text (result : String) : Option Text :=
  match machine.results result with
  | some (.text text) => some text
  | _ => none

def set_runtime (runtime : RuntimeState Number) : DriverMachine Number := { machine with runtime := runtime }

@[simp]
theorem define_state (result : String) (value : Option DriverValue) : (machine.define result value).state = machine.state :=
  rfl

@[simp]
theorem define_runtime (result : String) (value : Option DriverValue) :
    (machine.define result value).runtime = machine.runtime := rfl

@[simp]
theorem define_text (result other : String) (text : Text) :
    (machine.define result (some (.text text))).text other = if other = result then some text else machine.text other := by
  unfold DriverMachine.text define
  by_cases hsame : other = result <;> simp [hsame]

@[simp]
theorem set_runtime_state (runtime : RuntimeState Number) : (machine.set_runtime runtime).state = machine.state := rfl

@[simp]
theorem set_runtime_runtime (runtime : RuntimeState Number) : (machine.set_runtime runtime).runtime = runtime := rfl

@[simp]
theorem set_runtime_text (runtime : RuntimeState Number) (result : String) :
    (machine.set_runtime runtime).text result = machine.text result := rfl

end DriverMachine

section Run

variable (doubles : Doubles Number) (context : DriverContext Number)

def run_instruction (machine : DriverMachine Number) : DriverInstruction Number → DriverMachine Number
  | .state_field result index => machine.define result (some (.field index))
  | .store_zero target => machine.store target (doubles.of_int 0)
  | .store_double value target => machine.store target (context.read_literal value)
  | .global_pointer result source => machine.define result ((context.text source).map .text)
  | .qk_runtime_create result => (machine.define result none).set_runtime context.created
  | .qk_scalar_set_string scalar_name value =>
    match machine.text scalar_name, machine.text value with
    | some name, some text => machine.set_runtime (doubles.qk_scalar_set_string machine.runtime (String.ofList name) text)
    | _, _ => machine
  | .qk_scalar_set_number_inline scalar_name value =>
    match machine.text scalar_name with
    | some name =>
      machine.set_runtime
        (doubles.qk_scalar_set_number machine.runtime (String.ofList name) (context.read_literal value))
    | none => machine
  | .qk_slot_set_string index value =>
    match machine.text value with
    | some text => machine.set_runtime (doubles.qk_slot_set_string machine.runtime index text)
    | none => machine
  | .qk_slot_set_number index value =>
    machine.set_runtime (qk_slot_set_number machine.runtime index (context.read_literal value))
  | .null_state result | .alloca_state result | .state_pointer result | .null_pointer result | .test result _ =>
    machine.define result none
  | .call_phase _ => machine

def run_instructions (instructions : List (DriverInstruction Number)) (machine : DriverMachine Number) :
    DriverMachine Number :=
  instructions.foldl (run_instruction doubles context) machine

@[simp]
theorem run_instructions_append (front back : List (DriverInstruction Number)) (machine : DriverMachine Number) :
    run_instructions doubles context (front ++ back) machine =
      run_instructions doubles context back (run_instructions doubles context front machine) :=
  List.foldl_append

end Run

inductive ScalarStore where
  | field (index : Nat)
  | slot (index : Nat)
  | entry
  /-- Where the runtime keeps `NR`, `FNR`, `NF` and `FILENAME`. -/
  | input
  /-- The variable of its own in which a phase keeps a number, zero when the phase starts. -/
  | cell
  deriving DecidableEq

def INPUT_NAMES : List Name := ["NR", "FNR", "NF", "FILENAME"]

/-- The stores a lowered function takes the value of a global from. The number of `FILENAME` is that of the scalar
table. -/
def read_stores (state : LoweringState) (name : Name) : List ScalarStore :=
  if name = "FILENAME" then [.input, .entry]
  else if name ∈ INPUT_NAMES then [.input]
  else match scalar_home state name with
    | .parameter _ => []
    | .number =>
      if runtime_name_uses_local_numeric_storage state name then [.cell]
      else (state.variable_indexes.get name).toList.map .field
    | .string_slot index => [.slot index]
    | .mixed_slot index => [.slot index, .entry]
    | .table => [.entry]

def SlotCell.value : SlotCell Number → StoredValue Number
  | ⟨_, some text⟩ => .string text
  | ⟨some number, none⟩ => .number number
  | ⟨none, none⟩ => .unset

section Content

variable (doubles : Doubles Number)

/-- The values of the input variables as long as no record is read. -/
def input_value (runtime : RuntimeState Number) (name : Name) : StoredValue Number :=
  if name = "FILENAME" then .string ['-']
  else if name = "NF" then .number (doubles.of_int (qk_get_nf runtime.record))
  else .number (doubles.of_int 0)

def DriverMachine.content (machine : DriverMachine Number) (name : Name) : ScalarStore → StoredValue Number
  | .field index => .number (machine.state index)
  | .slot index => (machine.runtime.string_slots index).value
  | .entry => machine.runtime.value name
  | .input => input_value doubles machine.runtime name
  | .cell => .number (doubles.of_int 0)

end Content

def InitialVariableValue.stored : InitialVariableValue Number → StoredValue Number
  | .number value => .number value
  | .string text => .string text

/-- The value of the last `-v` of a name. -/
def last_value (initial_variables : InitialVariables Number) (name : Name) : Option (InitialVariableValue Number) :=
  initial_variables.reverse.lookup name

theorem last_value_append (front : InitialVariables Number) (other name : Name) (value : InitialVariableValue Number) :
    last_value (front ++ [(other, value)]) name = if name = other then some value else last_value front name := by
  simp only [last_value, List.reverse_append, List.reverse_cons, List.reverse_nil, List.nil_append, List.cons_append,
    List.lookup_cons]
  by_cases hname : name = other
  · simp [hname]
  · rw [if_neg hname, beq_eq_false_iff_ne.mpr hname]

section Preassigned

variable {doubles : Doubles Number} {context : DriverContext Number} {storage slots string_slots : NameIndexes}

/-- What the store of a value keeps: a text of 15 decimals for a number. -/
def DriverContext.kept (context : DriverContext Number) : InitialVariableValue Number → StoredValue Number
  | .number value => .number (context.read_literal value)
  | .string text => .string text

/-- The slot of a name after its `-v`. -/
def preassigned_slot (doubles : Doubles Number) (context : DriverContext Number) : InitialVariableValue Number → SlotCell Number
  | .number value => ⟨some (context.read_literal value), none⟩
  | .string text => ⟨some ( doubles.qk_parse_awk_numeric_prefix text), some text⟩

theorem preassigned_slot_value (value : InitialVariableValue Number) :
    (preassigned_slot doubles context value).value = context.kept value := by
  cases value <;> rfl

theorem run_define_store (machine : DriverMachine Number) (target : String) (index : Nat) (value : Number) :
    ((machine.define target (some (.field index))).store target value).state =
      Function.update machine.state index value := by
  simp [DriverMachine.define, DriverMachine.store]

/-- The fields after the preassignments: a field has the last number its name is assigned, or what it had. -/
theorem run_state_preassign ( awk_numeric_prefix : Text → Number) (initial_variables : InitialVariables Number)
    (machine : DriverMachine Number) {name : Name} {index : Nat} (hget : storage.get name = some index)
    (hindex : ∀ other, storage.get other = some index → other = name) :
    (run_instructions doubles context (render_state_preassign awk_numeric_prefix storage initial_variables) machine).state
      index = match last_value initial_variables name with
        | some value => context.read_literal (initial_number awk_numeric_prefix value)
        | none => machine.state index := by
  induction initial_variables using List.reverseRecOn with
  | nil => rfl
  | append_singleton front assigned ih =>
    obtain ⟨other, value⟩ := assigned
    have happend : render_state_preassign awk_numeric_prefix storage (front ++ [(other, value)]) =
        render_state_preassign awk_numeric_prefix storage front ++
          render_state_preassign awk_numeric_prefix storage [(other, value)] := by
      simp [render_state_preassign]
    rw [happend, run_instructions_append, last_value_append]
    generalize run_instructions doubles context (render_state_preassign awk_numeric_prefix storage front) machine =
      middle at *
    cases hother : storage.get other with
    | none =>
      have hne : name ≠ other := by
        rintro rfl
        rw [hget] at hother
        cases hother
      rw [if_neg hne, ← ih]
      simp [render_state_preassign, hother, run_instructions]
    | some other_index =>
      have hrun : (run_instructions doubles context
          (render_state_preassign awk_numeric_prefix storage [(other, value)]) middle).state =
            Function.update middle.state other_index
              (context.read_literal (initial_number awk_numeric_prefix value)) := by
        simp only [render_state_preassign, List.flatMap_cons, List.flatMap_nil, hother, List.append_nil]
        exact run_define_store middle _ other_index _
      rw [hrun]
      by_cases hname : name = other
      · subst hname
        obtain rfl : index = other_index := Option.some.inj (hget.symm.trans hother)
        rw [if_pos rfl, Function.update_self]
      · have hne : index ≠ other_index := by
          rintro rfl
          exact hname (hindex other hother).symm
        rw [if_neg hname, Function.update_of_ne hne, ih]

/-- The globals of the `-v` from an index on are declared with their texts. -/
def Declared (context : DriverContext Number) (index : Nat) : InitialVariables Number → Prop
  | [] => True
  | (name, value) :: rest =>
    context.text (driver_scalar_name_global name) = some name.toList ∧
      (∀ text, value = .string text → context.text (driver_scalar_value_global index) = some text) ∧
      Declared context (index + 1) rest

variable (doubles context storage slots)

/-- What one `-v` does to the runtime. -/
def preassign (runtime : RuntimeState Number) (assigned : Name × InitialVariableValue Number) : RuntimeState Number :=
  if (storage.get assigned.1).isSome then runtime
  else
    let stored := doubles.store runtime assigned.1 (context.kept assigned.2)
    match slots.get assigned.1, assigned.2 with
    | some slot_index, .number value => qk_slot_set_number stored slot_index (context.read_literal value)
    | some slot_index, .string text => doubles.qk_slot_set_string stored slot_index text
    | none, _ => stored

variable {doubles context storage slots}

variable (doubles) in
/-- The instructions of one `-v`. -/
theorem run_scalar_preassignment (hslots : ∀ name, slots.get name = none → string_slots.get name = none) {index : Nat}
    {name : Name} {value : InitialVariableValue Number}
    (hname : context.text (driver_scalar_name_global name) = some name.toList)
    (hvalue : ∀ text, value = .string text → context.text (driver_scalar_value_global index) = some text)
    (hstored : storage.get name = none) (machine : DriverMachine Number) :
    (run_instructions doubles context (render_scalar_preassignment slots string_slots index name value) machine).state =
        machine.state ∧
      (run_instructions doubles context (render_scalar_preassignment slots string_slots index name value)
        machine).runtime = preassign doubles context storage slots machine.runtime (name, value) := by
  have hne := preassign_name_ne_value index index
  unfold preassign render_scalar_preassignment
  cases value with
  | number value =>
    cases slots.get name <;> simp [run_instructions, run_instruction, hname, hstored, DriverContext.kept, Doubles.store]
  | string text =>
    have htext := hvalue text rfl
    cases hslot : slots.get name with
    | none =>
      simp [run_instructions, run_instruction, hname, htext, hstored, hslots name hslot, hne, DriverContext.kept,
        Doubles.store]
    | some slot_index =>
      simp [run_instructions, run_instruction, hname, htext, hstored, hne, DriverContext.kept, Doubles.store]

/-- All of them: one `-v` after the other. -/
theorem run_scalar_preassignments (hslots : ∀ name, slots.get name = none → string_slots.get name = none) {index : Nat}
    {initial_variables : InitialVariables Number} (hdeclared : Declared context index initial_variables)
    (machine : DriverMachine Number) :
    (run_instructions doubles context
        (render_driver_scalar_preassignments slots string_slots storage index initial_variables) machine).state =
        machine.state ∧
      (run_instructions doubles context
        (render_driver_scalar_preassignments slots string_slots storage index initial_variables) machine).runtime =
          initial_variables.foldl (preassign doubles context storage slots) machine.runtime := by
  induction initial_variables generalizing index machine with
  | nil => exact ⟨rfl, rfl⟩
  | cons assigned rest ih =>
    obtain ⟨name, value⟩ := assigned
    obtain ⟨hname, hvalue, hrest⟩ := hdeclared
    rw [render_driver_scalar_preassignments, run_instructions_append, List.foldl_cons]
    cases hstored : storage.get name with
    | some field =>
      have hskip : preassign doubles context storage slots machine.runtime (name, value) = machine.runtime := by
        simp [preassign, hstored]
      rw [hskip]
      exact ih hrest machine
    | none =>
      obtain ⟨hstate, hruntime⟩ := run_scalar_preassignment doubles hslots hname hvalue hstored machine
      obtain ⟨hrest_state, hrest_runtime⟩ := ih hrest
        (run_instructions doubles context (render_scalar_preassignment slots string_slots index name value) machine)
      rw [hruntime] at hrest_runtime
      exact ⟨hrest_state.trans hstate, hrest_runtime⟩

theorem context_text {name : String} {text : Text} (hnodup : (context.globals.map DriverGlobal.name).Nodup)
    (hmem : ⟨name, .bytes text⟩ ∈ context.globals) : context.text name = some text := by
  have hfind : context.globals.find? (fun declared => declared.name == name) = some ⟨name, .bytes text⟩ := by
    cases hfound : context.globals.find? fun declared => declared.name == name with
    | none => simpa using List.find?_eq_none.mp hfound _ hmem
    | some declared =>
      have hname : declared.name = name := by simpa using List.find?_some hfound
      exact congrArg some (List.inj_on_of_nodup_map hnodup (List.mem_of_find?_eq_some hfound) hmem hname)
  rw [DriverContext.text, hfind]

theorem declared_of_globals (hnodup : (context.globals.map DriverGlobal.name).Nodup) (seen_scalars : List Name)
    {index : Nat} {initial_variables : InitialVariables Number}
    (hmem : render_scalar_globals seen_scalars index initial_variables ⊆ context.globals)
    (hseen : ∀ name ∈ seen_scalars, context.text (driver_scalar_name_global name) = some name.toList) :
    Declared context index initial_variables := by
  induction initial_variables generalizing seen_scalars index with
  | nil => trivial
  | cons assigned rest ih =>
    obtain ⟨name, value⟩ := assigned
    have hname : context.text (driver_scalar_name_global name) = some name.toList := by
      by_cases hbefore : name ∈ seen_scalars
      · exact hseen name hbefore
      · refine context_text hnodup (hmem ?_)
        simp [render_scalar_globals, hbefore]
    have hrest : render_scalar_globals (name :: seen_scalars) (index + 1) rest ⊆ context.globals :=
      fun declared hdeclared => hmem (List.mem_append_right _ hdeclared)
    refine ⟨hname, ?_, ih _ hrest fun other hother => ?_⟩
    · rintro text rfl
      exact context_text hnodup (hmem (by simp [render_scalar_globals]))
    · obtain rfl | hother := List.mem_cons.mp hother
      · exact hname
      · exact hseen other hother

theorem store_no_record (runtime : RuntimeState Number) (name : Name) (value : StoredValue Number)
    (h : runtime.record.current_record = none) : (doubles.store runtime name value).record.current_record = none := by
  by_cases hset : value = .unset
  · rw [hset]
    exact h
  · rw [doubles.store_of_set name hset]
    by_cases hnf : name = "NF"
    · rw [hnf, doubles.side_effects_nf]
      split_ifs
      · rwa [store_entry_record]
      · simp [Doubles.store_field_count, qk_scalar_set_number_value, Doubles.qk_rebuild_current_record, h]
    · unfold Doubles.qk_apply_scalar_side_effects
      split_ifs <;> simp [h]

/-- What the runtime holds of the names that are not in `%quawk.state`. -/
structure HoldsLast (doubles : Doubles Number) (context : DriverContext Number) (storage slots : NameIndexes)
    (initial_variables : InitialVariables Number) (runtime : RuntimeState Number) : Prop where
  no_record : runtime.record.current_record = none
  entry : ∀ name value, name ≠ "NF" → storage.get name = none → last_value initial_variables name = some value →
    runtime.value name = context.kept value
  slot : ∀ name value index, storage.get name = none → slots.get name = some index →
    last_value initial_variables name = some value →
      runtime.string_slots index = preassigned_slot doubles context value

variable (doubles context slots) in
/-- A `-v` stores its value in the table, and in the slot of its name if it has one. -/
theorem preassign_stored (runtime : RuntimeState Number) {name : Name} (value : InitialVariableValue Number)
    (hstored : storage.get name = none) :
    (∀ other, (preassign doubles context storage slots runtime (name, value)).value other =
        (doubles.store runtime name (context.kept value)).value other) ∧
      (preassign doubles context storage slots runtime (name, value)).record =
        (doubles.store runtime name (context.kept value)).record ∧
      ∀ index : Nat, (preassign doubles context storage slots runtime (name, value)).string_slots index =
        if slots.get name = some index then preassigned_slot doubles context value else runtime.string_slots index := by
  have hnone : (storage.get name).isSome = false := by rw [hstored]; rfl
  have hslots : (doubles.store runtime name (context.kept value)).string_slots = runtime.string_slots :=
    doubles.store_string_slots name (context.kept value)
  unfold preassign
  rw [hnone]
  cases hslot : slots.get name with
  | none => exact ⟨fun _ => rfl, rfl, fun index => by simp [hslots]⟩
  | some slot_index =>
    have hcast (index : Nat) : (index : Int) = slot_index ↔ slot_index = index := by omega
    have hnonneg : ¬ (slot_index : Int) < 0 := by omega
    cases value with
    | number value =>
      dsimp only
      rw [if_neg Bool.false_ne_true, qk_slot_set_number, if_neg hnonneg]
      refine ⟨fun _ => rfl, rfl, fun index => ?_⟩
      by_cases hsame : slot_index = index
      · simp [hsame, preassigned_slot]
      · simp [hslots, hcast, hsame]
    | string text =>
      dsimp only
      rw [if_neg Bool.false_ne_true, Doubles.qk_slot_set_string, if_neg hnonneg]
      refine ⟨fun _ => rfl, rfl, fun index => ?_⟩
      by_cases hsame : slot_index = index
      · simp [hsame, preassigned_slot]
      · simp [hslots, hcast, hsame]

theorem holds_last (hinjective : ∀ first second index, slots.get first = some index → slots.get second = some index →
      first = second) (hcreated : context.created.record.current_record = none)
    (initial_variables : InitialVariables Number) :
    HoldsLast doubles context storage slots initial_variables
      (initial_variables.foldl (preassign doubles context storage slots) context.created) := by
  induction initial_variables using List.reverseRecOn with
  | nil => exact ⟨hcreated, (fun _ _ _ _ h => nomatch h), fun _ _ _ _ _ h => nomatch h⟩
  | append_singleton front assigned ih =>
    obtain ⟨other, value⟩ := assigned
    rw [List.foldl_append, List.foldl_cons, List.foldl_nil]
    generalize front.foldl (preassign doubles context storage slots) context.created = runtime at *
    cases hother : storage.get other with
    | some field =>
      have hskip : preassign doubles context storage slots runtime (other, value) = runtime := by
        simp [preassign, hother]
      have hne (name : Name) (hname : storage.get name = none) : name ≠ other := by
        rintro rfl
        rw [hname] at hother
        cases hother
      rw [hskip]
      refine ⟨ih.no_record, fun name last hnf hname hlast => ?_, fun name last index hname hslot hlast => ?_⟩
      · rw [last_value_append, if_neg (hne name hname)] at hlast
        exact ih.entry name last hnf hname hlast
      · rw [last_value_append, if_neg (hne name hname)] at hlast
        exact ih.slot name last index hname hslot hlast
    | none =>
      obtain ⟨hvalue, hrecord, hslots⟩ := preassign_stored doubles context slots runtime value hother
      refine ⟨?_, fun name last hnf hname hlast => ?_, fun name last index hname hslot hlast => ?_⟩
      · rw [hrecord]
        exact store_no_record runtime other _ ih.no_record
      · rw [hvalue name, doubles.store_value other _ hnf]
        rw [last_value_append] at hlast
        split_ifs at hlast with hsame
        · rw [if_pos hsame, Option.some.inj hlast]
        · rw [if_neg hsame]
          exact ih.entry name last hnf hname hlast
      · rw [hslots index]
        rw [last_value_append] at hlast
        split_ifs at hlast with hsame
        · rw [← hsame, if_pos hslot, Option.some.inj hlast]
        · have hne : slots.get other ≠ some index := fun hboth => hsame (hinjective name other index hslot hboth)
          rw [if_neg hne]
          exact ih.slot name last index hname hslot hlast

end Preassigned

end quawk
