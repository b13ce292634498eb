import Mathlib.Data.List.Sort
import Quawk.LowerProgram

namespace quawk

/-- The number of fields of the struct type that both modules declare; without slots they declare none. -/
def render_state_type (slot_allocation : SlotAllocation) : Option Nat :=
  if slot_allocation.slots.length = 0 then none else some slot_allocation.slots.length

/-- Names with their indexes. -/
abbrev NameIndexes := List (Name × Nat)

/-- Return `%quawk.state` indexes for reusable runtime-only names. -/
def reusable_runtime_state_indexes (variable_indexes : VariableIndexes) : NameIndexes :=
  variable_indexes.zipIdx.filter fun (name, _) => is_reusable_runtime_state_name name

/-- Return runtime slot indexes for known scalar names tracked by lowering. -/
def runtime_slot_indexes (slot_allocation : SlotAllocation) : NameIndexes :=
  (slot_allocation.slots.filter fun slot =>
    slot.storage = .slot && !is_builtin_variable_name slot.name && !is_reusable_runtime_state_name slot.name).map
      fun slot => (slot.name, slot.index)

/-- Return runtime slot indexes for names inferred as numeric. -/
def runtime_numeric_slot_indexes (type_info : VariableTypes) (slot_allocation : SlotAllocation) : NameIndexes :=
  (runtime_slot_indexes slot_allocation).filter fun (name, _) => type_info name = .numeric

/-- Return runtime slot indexes for names inferred as string. -/
def runtime_string_slot_indexes (type_info : VariableTypes) (slot_allocation : SlotAllocation) : NameIndexes :=
  (runtime_slot_indexes slot_allocation).filter fun (name, _) => type_info name = .string

/-- The names the driver keeps in `%quawk.state`, in the order of their indexes. -/
def state_storage_indexes (variable_indexes : VariableIndexes) (type_info : VariableTypes)
    (slot_allocation : SlotAllocation) : NameIndexes :=
  (reusable_runtime_state_indexes variable_indexes ++ runtime_numeric_slot_indexes type_info slot_allocation).mergeSort
    fun first second => first.2 ≤ second.2

def NameIndexes.get (indexes : NameIndexes) (name : Name) : Option Nat := indexes.lookup name

/-- The value of a `-v`: a number if Python's `float` takes the text, the text otherwise. -/
inductive InitialVariableValue (Number : Type) where
  | number (value : Number)
  | string (text : Text)
  deriving DecidableEq

abbrev InitialVariables (Number : Type) := List (Name × InitialVariableValue Number)

/-- An instruction of the driver; it defines the SSA name `result`, if it has one. -/
inductive DriverInstruction (Number : Type) where
  | null_state (result : String)
  | alloca_state (result : String)
  | state_pointer (result : String)
  | state_field (result : String) (index : Nat)
  | store_zero (target : String)
  | store_double (value : Number) (target : String)
  | global_pointer (result : String) (source : String)
  | null_pointer (result : String)
  | qk_runtime_create (result : String)
  | qk_scalar_set_string (scalar_name value : String)
  | qk_scalar_set_number_inline (scalar_name : String) (value : Number)
  | qk_slot_set_string (index : Nat) (value : String)
  | qk_slot_set_number (index : Nat) (value : Number)
  | call_phase (phase : String)
  | test (result : String) (function : String)
  deriving DecidableEq

def DriverInstruction.result {Number : Type} : DriverInstruction Number → Option String
  | .null_state result | .alloca_state result | .state_pointer result | .state_field result _
  | .global_pointer result _ | .null_pointer result | .qk_runtime_create result | .test result _ => some result
  | _ => none

def state_init (name : Name) : String := "%state.init." ++ name

def state_preassign (name : Name) : String := "%state.preassign." ++ name

section Setup

variable {Number : Type} ( awk_numeric_prefix : Text → Number) (variable_indexes : NameIndexes)

/-- The fields of the state set to zero. -/
def render_state_init : List (DriverInstruction Number) :=
  variable_indexes.flatMap fun (name, index) => [.state_field (state_init name) index, .store_zero (state_init name)]

def initial_number : InitialVariableValue Number → Number
  | .number value => value
  | .string text => awk_numeric_prefix text

/-- The assigned values of the fields of the state. -/
def render_state_preassign (initial_variables : InitialVariables Number) : List (DriverInstruction Number) :=
  initial_variables.flatMap fun (name, value) =>
    match variable_indexes.get name with
    | none => []
    | some variable_index =>
      [.state_field (state_preassign name) variable_index,
        .store_double (initial_number awk_numeric_prefix value) (state_preassign name)]

/-- Render driver setup for the reusable program state pointer. -/
def render_driver_state_setup (initial_variables : InitialVariables Number) : List (DriverInstruction Number) :=
  if variable_indexes.isEmpty then [.null_state "%state"]
  else [.alloca_state "%state.storage", .state_pointer "%state"] ++ render_state_init variable_indexes ++
    render_state_preassign awk_numeric_prefix variable_indexes initial_variables

end Setup

end quawk
