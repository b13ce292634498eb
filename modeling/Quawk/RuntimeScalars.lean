import Quawk.Lib.LinkedTable
import Quawk.Lib.OperationRun
import Quawk.NumberText

namespace quawk

/-- What the runtime uses of doubles and of the C library on them. -/
structure Doubles (Number : Type) where
  /-- An integer as a double. -/
  of_int : Int → Number
  /-- A double as an `int64_t`. -/
  to_int64 : Number → Int
  /-- The value `strtod` gives; there is none where it converts nothing. -/
  strtod : Text → Option Number
  /-- What `snprintf` leaves in the buffer; there is nothing where it fails. -/
  snprintf : Text → Number → Option Text
  of_count_nonneg : ∀ count : Nat, 0 ≤ to_int64 (of_int count)
  of_count_eq_zero : ∀ count : Nat, of_int count = of_int 0 ↔ count = 0

/-- What a scalar or a slot was last given. -/
inductive StoredValue (Number : Type) where
  | unset
  | number (value : Number)
  | string (text : Text)

/-- An entry of the scalar table. A number keeps the text it was formatted to; the number of a string is parsed
when the string is stored. -/
inductive ScalarEntry (Number : Type) where
  | unset
  | number (value : Number) (cached : Option Text)
  | string (text : Text)

/-- A slot: its number and its text, as far as it has them. -/
structure SlotCell (Number : Type) where
  number : Option Number
  string : Option Text

variable {Number : Type}

def ScalarEntry.value : ScalarEntry Number → StoredValue Number
  | .unset => .unset
  | .number value _ => .number value
  | .string text => .string text

/-- `qk_invalidate_numeric_string_cache` on one entry. -/
def ScalarEntry.invalidated : ScalarEntry Number → ScalarEntry Number
  | .number value _ => .number value none
  | entry => entry

/-- The runtime, as far as scalars, slots and the record go. A slot beyond the allocated ones reads as a fresh
one, and the splitter and the record reader use the separators here and not the variables. -/
structure RuntimeState (Number : Type) where
  scalars : LinkedTable Name (ScalarEntry Number)
  record : RecordState
  record_separator : Char
  numeric_slots : Int → Number
  string_slots : Int → SlotCell Number

def RuntimeState.value (runtime : RuntimeState Number) (name : Name) : StoredValue Number :=
  ((runtime.scalars.find name).map ScalarEntry.value).getD .unset

/-- `qk_output_variable_text` of a stored value. -/
def StoredValue.variable_text (value : StoredValue Number) (fallback : Text) : Text :=
  match value with
  | .string text => text
  | .unset | .number _ => fallback

namespace Doubles

variable (doubles : Doubles Number)

def qk_parse_awk_numeric_prefix (text : Text) : Number := (doubles.strtod text).getD (doubles.of_int 0)

def qk_format_number_with_text (value : Number) (format_text : Text) : Text :=
  let effective_format := if format_text = [] then QK_DEFAULT_CONVFMT else format_text
  match doubles.snprintf effective_format value with
  | some buffer => buffer
  | none =>
    if effective_format ≠ QK_DEFAULT_CONVFMT then (doubles.snprintf QK_DEFAULT_CONVFMT value).getD [] else []

/-- The text of a number under the `CONVFMT` that is in force. -/
def qk_format_number (runtime : RuntimeState Number) (value : Number) : Text :=
  doubles.qk_format_number_with_text value ((runtime.value "CONVFMT").variable_text QK_DEFAULT_CONVFMT)

/-- The text of a value under a format. -/
def text_of (format_text : Text) : StoredValue Number → Text
  | .unset => []
  | .number value => doubles.qk_format_number_with_text value format_text
  | .string text => text

/-- The current string value of a scalar. -/
def string_value (runtime : RuntimeState Number) (name : Name) : Text :=
  doubles.text_of ((runtime.value "CONVFMT").variable_text QK_DEFAULT_CONVFMT) (runtime.value name)

/-- The number of a value. -/
def number_of : StoredValue Number → Number
  | .number value => value
  | .string text => doubles.qk_parse_awk_numeric_prefix text
  | .unset => doubles.of_int 0

def qk_scalar_get_number (runtime : RuntimeState Number) (name : Name) : Number :=
  doubles.number_of (runtime.value name)

/-- The text of a scalar, which a number then keeps. -/
def qk_scalar_string_view (runtime : RuntimeState Number) (name : Name) : Text × RuntimeState Number :=
  match runtime.scalars.find name with
  | some (.string text) => (text, runtime)
  | some (.number _ (some cached)) => (cached, runtime)
  | some (.number value none) =>
    let copy := doubles.qk_format_number runtime value
    (copy, { runtime with scalars := runtime.scalars.put name (.number value (some copy)) })
  | some .unset | none => ([], runtime)

end Doubles

def qk_invalidate_numeric_string_cache (runtime : RuntimeState Number) : RuntimeState Number :=
  { runtime with scalars := runtime.scalars.map_values ScalarEntry.invalidated }

/-- `qk_clear_scalar` of the entry, which is made if there is none. -/
def qk_clear_scalar (runtime : RuntimeState Number) (name : Name) : RuntimeState Number :=
  { runtime with scalars := runtime.scalars.put name .unset }

/-- An entry is stored; a new `CONVFMT` makes every number forget its text. -/
def store_entry (runtime : RuntimeState Number) (name : Name) (entry : ScalarEntry Number) : RuntimeState Number :=
  let stored := { runtime with scalars := runtime.scalars.put name entry }
  if name = "CONVFMT" then qk_invalidate_numeric_string_cache stored else stored

def qk_scalar_set_string_value (runtime : RuntimeState Number) (name : Name) (value : Text) :
    RuntimeState Number := store_entry runtime name (.string value)

def qk_scalar_set_number_value (runtime : RuntimeState Number) (name : Name) (value : Number) :
    RuntimeState Number := store_entry runtime name (.number value none)

/-- `qk_update_record_separator`: a newline, or the first character of the text. -/
def qk_update_record_separator (text : Text) : Char := text.headD '\n'

/-- The record functions take `OFS` from the table. -/
def RuntimeState.joining (runtime : RuntimeState Number) : RecordState :=
  { runtime.record with
    ofs := match runtime.value "OFS" with
      | .string text => .string text
      | .unset | .number _ => .none }

namespace Doubles

variable (doubles : Doubles Number)

/-- The field count becomes the number `NF` holds. -/
def store_field_count (runtime : RuntimeState Number) : RuntimeState Number :=
  qk_scalar_set_number_value runtime "NF" (doubles.of_int (qk_get_nf runtime.record))

/-- `qk_replace_current_record` and `qk_rebuild_fields` -/
def qk_rebuild_fields (runtime : RuntimeState Number) (text : Text) : RuntimeState Number :=
  doubles.store_field_count { runtime with record := set_record runtime.record text }

def qk_rebuild_current_record (runtime : RuntimeState Number) (target_fields : Nat) (index : Int) (value : Text) :
    RuntimeState Number :=
  if index = 0 then doubles.qk_rebuild_fields runtime value
  else if runtime.record.current_record = none then runtime
  else doubles.store_field_count
    { runtime with record := quawk.qk_rebuild_current_record runtime.joining target_fields index value }

/-- A negative `NF` is refused here, after it was stored. -/
def qk_apply_scalar_side_effects (runtime : RuntimeState Number) (name : Name) : RuntimeState Number :=
  if name = "FS" then
    let (text, runtime) := doubles.qk_scalar_string_view runtime "FS"
    { runtime with record := { runtime.record with field_separator := qk_update_field_separator text } }
  else if name = "RS" then
    let (text, runtime) := doubles.qk_scalar_string_view runtime "RS"
    { runtime with record_separator := qk_update_record_separator text }
  else if name = "NF" then
    let target_fields := doubles.to_int64 (doubles.qk_scalar_get_number runtime "NF")
    if target_fields < 0 then runtime
    else doubles.store_field_count (doubles.qk_rebuild_current_record runtime target_fields.toNat (-1) [])
  else runtime

def qk_scalar_set_string (runtime : RuntimeState Number) (name : Name) (value : Text) : RuntimeState Number :=
  doubles.qk_apply_scalar_side_effects (qk_scalar_set_string_value runtime name value) name

def qk_scalar_set_number (runtime : RuntimeState Number) (name : Name) (value : Number) : RuntimeState Number :=
  doubles.qk_apply_scalar_side_effects (qk_scalar_set_number_value runtime name value) name

/-- A source that is missing or unset clears the target and has no side effects. -/
def qk_scalar_copy (runtime : RuntimeState Number) (target_name source_name : Name) : RuntimeState Number :=
  match runtime.scalars.find source_name with
  | none => qk_clear_scalar runtime target_name
  | some (.number value _) =>
    doubles.qk_apply_scalar_side_effects (qk_scalar_set_number_value runtime target_name value) target_name
  | some (.string text) =>
    doubles.qk_apply_scalar_side_effects (qk_scalar_set_string_value runtime target_name text) target_name
  | some .unset => qk_clear_scalar runtime target_name

def qk_set_field_string (runtime : RuntimeState Number) (index : Int) (value : Text) : RuntimeState Number :=
  if index < 0 then runtime
  else doubles.qk_rebuild_current_record runtime (qk_get_nf runtime.record) index value

def qk_set_field_number (runtime : RuntimeState Number) (index : Int) (value : Number) : RuntimeState Number :=
  doubles.qk_set_field_string runtime index (doubles.qk_format_number runtime value)

def qk_slot_get_number (runtime : RuntimeState Number) (slot_index : Int) : Number :=
  if slot_index < 0 then doubles.of_int 0
  else ((runtime.string_slots slot_index).number).getD (runtime.numeric_slots slot_index)

/-- The text of a slot, which a number then keeps. -/
def qk_slot_get_string (runtime : RuntimeState Number) (slot_index : Int) : Text × RuntimeState Number :=
  if slot_index < 0 then ([], runtime)
  else match runtime.string_slots slot_index with
    | ⟨_, some cached⟩ => (cached, runtime)
    | ⟨none, none⟩ => ([], runtime)
    | ⟨some number, none⟩ =>
      let copy := doubles.qk_format_number runtime number
      (copy, { runtime with
        string_slots := Function.update runtime.string_slots slot_index ⟨some number, some copy⟩ })

def qk_slot_set_string (runtime : RuntimeState Number) (slot_index : Int) (value : Text) : RuntimeState Number :=
  if slot_index < 0 then runtime
  else { runtime with
    string_slots := Function.update runtime.string_slots slot_index
      ⟨some ( doubles.qk_parse_awk_numeric_prefix value), some value⟩ }

/-- `qk_match`: where the text matches. -/
def qk_match (runtime : RuntimeState Number) (start length : Int) : RuntimeState Number :=
  qk_scalar_set_number_value (qk_scalar_set_number_value runtime "RSTART" (doubles.of_int start)) "RLENGTH"
    (doubles.of_int length)

end Doubles

def qk_slot_set_number (runtime : RuntimeState Number) (slot_index : Int) (value : Number) : RuntimeState Number :=
  if slot_index < 0 then runtime
  else { runtime with
    numeric_slots := Function.update runtime.numeric_slots slot_index value
    string_slots := Function.update runtime.string_slots slot_index ⟨some value, none⟩ }

/-- The operations on scalars, slots and the record; reading a text keeps it and so is one of them. -/
inductive RuntimeOperation (Number : Type) where
  | scalar_set_string (name : Name) (value : Text)
  | scalar_set_number (name : Name) (value : Number)
  | scalar_copy (target_name source_name : Name)
  | scalar_get (name : Name)
  | slot_set_string (slot_index : Int) (value : Text)
  | slot_set_number (slot_index : Int) (value : Number)
  | slot_get_string (slot_index : Int)
  | set_field_string (index : Int) (value : Text)
  | set_field_number (index : Int) (value : Number)
  | read_record (line : Text)
  | match_text (start length : Int)

namespace Doubles

variable (doubles : Doubles Number)

def apply (runtime : RuntimeState Number) : RuntimeOperation Number → RuntimeState Number
  | .scalar_set_string name value => doubles.qk_scalar_set_string runtime name value
  | .scalar_set_number name value => doubles.qk_scalar_set_number runtime name value
  | .scalar_copy target_name source_name => doubles.qk_scalar_copy runtime target_name source_name
  | .scalar_get name => (doubles.qk_scalar_string_view runtime name).2
  | .slot_set_string slot_index value => doubles.qk_slot_set_string runtime slot_index value
  | .slot_set_number slot_index value => qk_slot_set_number runtime slot_index value
  | .slot_get_string slot_index => (doubles.qk_slot_get_string runtime slot_index).2
  | .set_field_string index value => doubles.qk_set_field_string runtime index value
  | .set_field_number index value => doubles.qk_set_field_number runtime index value
  | .read_record line => doubles.qk_rebuild_fields runtime line
  | .match_text start length => doubles.qk_match runtime start length

/-- The runtime at the start, with the separator of `-F` if there is one; `-v` is a list of operations. -/
def qk_runtime_initialize (argc : Nat) (field_separator : Option Text) : RuntimeState Number :=
  { scalars := LinkedTable.empty
      |>.put "OFS" (.string [' '])
      |>.put "ORS" (.string ['\n'])
      |>.put "OFMT" (.string QK_DEFAULT_OFMT)
      |>.put "CONVFMT" (.string QK_DEFAULT_CONVFMT)
      |>.put "FS" (.string (field_separator.getD [' ']))
      |>.put "RS" (.string ['\n'])
      |>.put "RSTART" (.number (doubles.of_int 0) none)
      |>.put "RLENGTH" (.number (doubles.of_int (-1)) none)
      |>.put "ARGC" (.number (doubles.of_int (argc + 1)) none)
      |>.put "SUBSEP" (.string ['\x1c'])
    record := record_start (field_separator.getD [' '])
    record_separator := qk_update_record_separator ['\n']
    numeric_slots := fun _ => doubles.of_int 0
    string_slots := fun _ => ⟨none, none⟩ }

/-- Doubles as rationals, which `strtod` reads in decimal. Whole numbers are formatted by the default format and, with
a decimal more, by `%.1f`. -/
def rational : Doubles Rat where
  of_int value := value
  to_int64 value := value.num.tdiv value.den
  strtod text := (decimal_strtod text).map Prod.fst
  snprintf format value :=
    if value.den ≠ 1 then none
    else if format = QK_DEFAULT_CONVFMT then some (general_text value.num)
    else if format = ['%', '.', '1', 'f'] then some (decimal_text value.num ++ ['.', '0'])
    else none
  of_count_nonneg count := by simp
  of_count_eq_zero count := by simp

end Doubles

/-- The scalar an operation gives a value, and the value. -/
def RuntimeOperation.stored (runtime : RuntimeState Number) : RuntimeOperation Number →
    Option (Name × StoredValue Number)
  | .scalar_set_string name value => some (name, .string value)
  | .scalar_set_number name value => some (name, .number value)
  | .scalar_copy target_name source_name => some (target_name, runtime.value source_name)
  | _ => none

@[simp]
theorem ScalarEntry.invalidated_value (entry : ScalarEntry Number) : entry.invalidated.value = entry.value := by
  cases entry <;> rfl

section Frame

variable (runtime : RuntimeState Number) (name : Name) (entry : ScalarEntry Number)

theorem store_entry_scalars : (store_entry runtime name entry).scalars =
    if name = "CONVFMT" then (runtime.scalars.put name entry).map_values ScalarEntry.invalidated
    else runtime.scalars.put name entry := by
  unfold store_entry
  split_ifs <;> rfl

theorem store_entry_rest : store_entry runtime name entry =
    { runtime with scalars := (store_entry runtime name entry).scalars } := by
  unfold store_entry
  split_ifs <;> rfl

@[simp]
theorem store_entry_record : (store_entry runtime name entry).record = runtime.record := by
  rw [store_entry_rest]

@[simp]
theorem store_entry_record_separator :
    (store_entry runtime name entry).record_separator = runtime.record_separator := by
  rw [store_entry_rest]

@[simp]
theorem store_entry_string_slots : (store_entry runtime name entry).string_slots = runtime.string_slots := by
  rw [store_entry_rest]

theorem store_entry_value (other : Name) :
    (store_entry runtime name entry).value other = if other = name then entry.value else runtime.value other := by
  unfold RuntimeState.value
  rw [store_entry_scalars]
  have hput : ((runtime.scalars.put name entry).find other).map ScalarEntry.value =
      if other = name then some entry.value else (runtime.scalars.find other).map ScalarEntry.value := by
    rw [LinkedTable.find_put]
    split_ifs <;> rfl
  have hsame : ScalarEntry.value ∘ ScalarEntry.invalidated = (ScalarEntry.value : ScalarEntry Number → _) :=
    funext ScalarEntry.invalidated_value
  split_ifs with hconvfmt hother hother
  · rw [LinkedTable.find_map_values, Option.map_map, hsame, hput, if_pos hother, Option.getD_some]
  · rw [LinkedTable.find_map_values, Option.map_map, hsame, hput, if_neg hother]
  · rw [hput, if_pos hother, Option.getD_some]
  · rw [hput, if_neg hother]

theorem qk_clear_scalar_value (other : Name) :
    (qk_clear_scalar runtime name).value other = if other = name then .unset else runtime.value other := by
  unfold RuntimeState.value qk_clear_scalar
  rw [LinkedTable.find_put]
  split_ifs <;> rfl

end Frame

namespace Doubles

variable (doubles : Doubles Number) (runtime : RuntimeState Number) (name : Name)

/-- Reading a text changes at most what is cached. -/
theorem qk_scalar_string_view_rest : (doubles.qk_scalar_string_view runtime name).2 =
    { runtime with scalars := (doubles.qk_scalar_string_view runtime name).2.scalars } := by
  unfold qk_scalar_string_view
  split <;> rfl

@[simp]
theorem qk_scalar_string_view_record : (doubles.qk_scalar_string_view runtime name).2.record = runtime.record := by
  rw [qk_scalar_string_view_rest]

@[simp]
theorem qk_scalar_string_view_record_separator :
    (doubles.qk_scalar_string_view runtime name).2.record_separator = runtime.record_separator := by
  rw [qk_scalar_string_view_rest]

@[simp]
theorem qk_scalar_string_view_string_slots :
    (doubles.qk_scalar_string_view runtime name).2.string_slots = runtime.string_slots := by
  rw [qk_scalar_string_view_rest]

@[simp]
theorem qk_scalar_string_view_value (other : Name) :
    (doubles.qk_scalar_string_view runtime name).2.value other = runtime.value other := by
  unfold qk_scalar_string_view
  split
  · rfl
  · rfl
  · next value hfind =>
    unfold RuntimeState.value
    rw [LinkedTable.find_put]
    split_ifs with hother
    · rw [hother, hfind]
      rfl
    · rfl
  · rfl
  · rfl

/-- The side effects of a scalar other than `NF` leave the values and the fields as they are. -/
theorem side_effects_of_ne {name : Name} (h : name ≠ "NF") :
    (∀ other, (doubles.qk_apply_scalar_side_effects runtime name).value other = runtime.value other) ∧
    (doubles.qk_apply_scalar_side_effects runtime name).record.fields = runtime.record.fields := by
  unfold qk_apply_scalar_side_effects
  split_ifs
  · exact ⟨doubles.qk_scalar_string_view_value runtime "FS", by simp⟩
  · exact ⟨doubles.qk_scalar_string_view_value runtime "RS", by simp⟩
  · exact ⟨fun _ => rfl, rfl⟩

theorem side_effects_nf : doubles.qk_apply_scalar_side_effects runtime "NF" =
    if doubles.to_int64 (doubles.qk_scalar_get_number runtime "NF") < 0 then runtime
    else doubles.store_field_count (doubles.qk_rebuild_current_record runtime
      (doubles.to_int64 (doubles.qk_scalar_get_number runtime "NF")).toNat (-1) []) := by
  simp [qk_apply_scalar_side_effects]

/-- What an assignment stores; a value that is set has side effects. -/
def store (value : StoredValue Number) : RuntimeState Number :=
  match value with
  | .unset => qk_clear_scalar runtime name
  | .number value => doubles.qk_scalar_set_number runtime name value
  | .string text => doubles.qk_scalar_set_string runtime name text

theorem qk_scalar_copy_eq_store (source_name : Name) :
    doubles.qk_scalar_copy runtime name source_name = doubles.store runtime name (runtime.value source_name) := by
  unfold qk_scalar_copy RuntimeState.value
  cases runtime.scalars.find source_name with
  | none => rfl
  | some entry => cases entry <;> rfl

/-- Every operation that assigns a scalar stores a value, and only its side effects are left to it. -/
theorem apply_stored {operation : RuntimeOperation Number} {value : StoredValue Number}
    (h : operation.stored runtime = some (name, value)) :
    doubles.apply runtime operation = doubles.store runtime name value := by
  cases operation <;> simp only [RuntimeOperation.stored, Option.some.injEq, Prod.mk.injEq, reduceCtorEq] at h
  case scalar_set_string | scalar_set_number =>
    obtain ⟨rfl, rfl⟩ := h
    rfl
  case scalar_copy =>
    obtain ⟨rfl, rfl⟩ := h
    exact doubles.qk_scalar_copy_eq_store runtime _ _

theorem initial_value_unset (argc : Nat) (field_separator : Option Text) {name : Name}
    (h : name ∉ ["OFS", "ORS", "OFMT", "CONVFMT", "FS", "RS", "RSTART", "RLENGTH", "ARGC", "SUBSEP"]) :
    ( doubles.qk_runtime_initialize argc field_separator).value name = .unset := by
  simp only [List.mem_cons, List.not_mem_nil, or_false, not_or] at h
  simp [ qk_runtime_initialize, RuntimeState.value, LinkedTable.find_put, h]

theorem initial_value (argc : Nat) (field_separator : Option Text) :
    ( doubles.qk_runtime_initialize argc field_separator).value "FS" = .string (field_separator.getD [' ']) ∧
    ( doubles.qk_runtime_initialize argc field_separator).value "RS" = .string ['\n'] := by
  simp [ qk_runtime_initialize, RuntimeState.value, LinkedTable.find_put, ScalarEntry.value]

end Doubles

end quawk
