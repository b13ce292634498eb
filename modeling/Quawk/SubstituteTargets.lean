import Quawk.ArrayRefinement
import Quawk.RuntimeRecord
import Quawk.Substitution

namespace quawk

/-- What `sub` and `gsub` are applied to. A name is read and written where the program keeps it: as a scalar with its
text, as a parameter, as the key of a loop around the call, as a number of its own (those of the state, `NR` and `FNR`),
or as `FILENAME` or `NF`. The index of a field and the subscripts of an element are evaluated to read the target, and
again to write it; `$0` is the field with index 0. -/
inductive SubstituteTarget where
  | scalar (name : Name)
  | parameter (name : Name)
  | loop_key (name : Name)
  | number (name : Name)
  | filename
  | nf
  | field (read_index write_index : Int)
  | element (array_name : Name) (read_key write_key : Text)

/-- What a target may be part of: the scalars, with the `CONVFMT` that is in force and what is kept elsewhere of them,
the record with its fields, and the arrays. What is written to the scalar of a name that is kept elsewhere is not
read. -/
structure SubstituteRuntime (Number : Type) where
  scalars : Name → StoredValue Number
  unread : Name → StoredValue Number
  parameters : Name → Text
  keys : Name → Text
  numbers : Name → Number
  filename : Text
  convfmt : Text
  record : RecordState
  store : ArrayStore Number

section Target

variable {Number : Type} (doubles : Doubles Number) (is_zero : Number → Prop)

/-- `qk_scalar_truthy`, where `is_zero` is the comparison of doubles with 0. -/
def Truthy : StoredValue Number → Prop
  | .unset => False
  | .number value => ¬ is_zero value
  | .string text => text ≠ []

/-- What can be read of two values is the same: the text, the number and whether it is true. -/
structure ReadsAlike (format_text : Text) (value other : StoredValue Number) : Prop where
  text : doubles.text_of format_text value = doubles.text_of format_text other
  number : doubles.number_of value = doubles.number_of other
  truth : Truthy is_zero value ↔ Truthy is_zero other

namespace SubstituteRuntime

variable (runtime : SubstituteRuntime Number)

/-- `qk_format_number` -/
def number_text (number : Number) : Text := doubles.text_of runtime.convfmt (.number number)

def element_text (array_name : Name) (key : Text) : Text :=
  ((runtime.store.find_entry array_name key).map ArrayCell.value).getD []

def target_text : SubstituteTarget → Text
  | .scalar name => doubles.text_of runtime.convfmt (runtime.scalars name)
  | .parameter name => runtime.parameters name
  | .loop_key name => runtime.keys name
  | .number name => runtime.number_text doubles (runtime.numbers name)
  | .filename => runtime.filename
  | .nf => runtime.number_text doubles (doubles.of_int (qk_get_nf runtime.record))
  | .field read_index _ => qk_get_field runtime.record read_index
  | .element array_name read_key _ => runtime.element_text array_name read_key

/-- The number of fields that a text asks for. -/
def asked_fields (text : Text) : Int := doubles.to_int64 ( doubles.qk_parse_awk_numeric_prefix text)

/-- `lower_runtime_assign_string_lvalue` -/
def assign_target (string_value : Text) : SubstituteTarget → Option (SubstituteRuntime Number)
  | .scalar name | .loop_key name =>
    some { runtime with scalars := Function.update runtime.scalars name (.string string_value) }
  | .parameter name => some { runtime with parameters := Function.update runtime.parameters name string_value }
  | .number name => some { runtime with unread := Function.update runtime.unread name (.string string_value) }
  | .filename => some { runtime with unread := Function.update runtime.unread "FILENAME" (.string string_value) }
  | .nf => some { runtime with record := set_nf runtime.record (asked_fields doubles string_value) }
  | .field _ write_index => some { runtime with record := qk_set_field_string runtime.record write_index string_value }
  | .element array_name _ write_key =>
    (runtime.store.qk_array_set_string doubles array_name (.owned write_key) (.owned string_value)).map fun store =>
      { runtime with store := store }

/-- The call of `sub` or `gsub`: the result is written back whether anything was replaced or not. -/
def substitute (regex : Regex) (replacement : Text) (global : Bool) (target : SubstituteTarget) :
    Option (Nat × SubstituteRuntime Number) := do
  let text := runtime.target_text doubles target
  let (count, result) ← qk_substitute regex replacement global (text.length + 2) text
  let after ← runtime.assign_target doubles result target
  return (count, after)

/-- No scalar, no field and no element reads otherwise than before, and there are no more of them. -/
structure Unchanged (before after : SubstituteRuntime Number) : Prop where
  scalars : ∀ name, ReadsAlike doubles is_zero before.convfmt (after.scalars name) (before.scalars name)
  parameters : after.parameters = before.parameters
  fields : ∀ index, qk_get_field after.record index = qk_get_field before.record index
  count : qk_get_nf after.record = qk_get_nf before.record
  elements : after.store.maps doubles = before.store.maps doubles

end SubstituteRuntime

/-- The fields read the same. -/
def FieldsUnchanged (before after : RecordState) : Prop :=
  (∀ index, qk_get_field after index = qk_get_field before index) ∧ qk_get_nf after = qk_get_nf before

namespace RecordState

variable (record : RecordState)

/-- The record is its fields joined by `OFS`. -/
def IsJoined : Prop :=
  ∀ text, record.current_record = some text →
    List.intercalate (qk_output_variable_text record.ofs [' ']) record.fields = text

/-- A text that is written to a field is the one it has, and `$0` is split as it was, or the record is its fields
joined by `OFS`. -/
def KeepsWritten (index : Int) (text : Text) : Prop :=
  if index = 0 then text = qk_get_field record 0 ∧ split_fields record.field_separator text = record.fields
  else 0 < index → record.current_record.isSome →
    text = qk_get_field record index ∧ index ≤ qk_get_nf record ∧ record.IsJoined

/-- The field that is read has the text that was written: it is `$0` or a field of a record, and the one that was
written. -/
def Receives (read_index write_index : Int) (text : Text) : Prop :=
  if read_index = write_index then
    write_index = 0 ∨ 0 < write_index ∧ record.current_record.isSome = true ∨ text = []
  else qk_get_field (qk_set_field_string record write_index text) read_index = text

/-- The fields there are when `NF` was set to a number. -/
def fields_after (asked : Int) : Nat :=
  if asked < 0 ∨ record.current_record = none then qk_get_nf record else asked.toNat

end RecordState

namespace SubstituteRuntime

variable (runtime : SubstituteRuntime Number)

/-- Writing the text of the target back leaves everything as it is: a scalar has the number its text reads as and is
true if the text is not empty, the key of a loop is what its variable has outside, the fields are kept, an element is
there with the text and its number is the one its text reads as. -/
def KeepsWrittenBack : SubstituteTarget → Prop
  | .scalar name =>
    let text := doubles.text_of runtime.convfmt (runtime.scalars name)
    doubles.qk_parse_awk_numeric_prefix text = doubles.number_of (runtime.scalars name) ∧
      (text ≠ [] ↔ Truthy is_zero (runtime.scalars name))
  | .parameter _ | .number _ | .filename => True
  | .loop_key name => ReadsAlike doubles is_zero runtime.convfmt (.string (runtime.keys name)) (runtime.scalars name)
  | .nf =>
    let asked := asked_fields doubles (runtime.target_text doubles .nf)
    0 ≤ asked → runtime.record.current_record.isSome → asked = qk_get_nf runtime.record ∧ runtime.record.IsJoined
  | .field read_index write_index => runtime.record.KeepsWritten write_index (qk_get_field runtime.record read_index)
  | .element array_name read_key write_key =>
    runtime.store.maps doubles array_name write_key =
      some (doubles.element (runtime.element_text array_name read_key))

/-- The target has the text that was written to it: what is written to a loop's key, a number, `FILENAME` or an element
with another key is lost, and `NF` has the text of a number. -/
def ReceivesResult (text : Text) : SubstituteTarget → Prop
  | .scalar _ | .parameter _ => True
  | .loop_key name => text = runtime.keys name
  | .number name => text = runtime.number_text doubles (runtime.numbers name)
  | .filename => text = runtime.filename
  | .nf =>
    text = runtime.number_text doubles (doubles.of_int (runtime.record.fields_after (asked_fields doubles text)))
  | .field read_index write_index => runtime.record.Receives read_index write_index text
  | .element array_name read_key write_key => read_key = write_key ∨ text = runtime.element_text array_name read_key

end SubstituteRuntime

open SubstituteRuntime

section WriteBack

variable {doubles is_zero} {runtime after : SubstituteRuntime Number}

theorem assign_target_isSome (runtime : SubstituteRuntime Number) (string_value : Text) (target : SubstituteTarget) :
    ∃ after, runtime.assign_target doubles string_value target = some after := by
  cases target with
  | scalar | parameter | loop_key | number | filename | nf | field => exact ⟨_, rfl⟩
  | element => exact ⟨_, rfl⟩

theorem record_fields_eq {before : RecordState} {after : RecordState} (hafter : after.current_record.isSome)
    (hfields : ∀ index, qk_get_field after index = qk_get_field before index) (hcount : qk_get_nf after = qk_get_nf before) :
    after.fields = before.fields := by
  cases hrecord : before.current_record with
  | none =>
    have hnone := before.no_fields hrecord
    unfold qk_get_nf at hcount
    rw [hnone] at hcount ⊢
    exact List.length_eq_zero_iff.mp hcount
  | some text =>
    refine List.ext_getElem hcount fun position h h' => ?_
    have hfield := hfields (position + 1 : Nat)
    rw [qk_get_field_succ hafter, qk_get_field_succ (by rw [hrecord]; rfl), List.getElem?_eq_getElem h,
      List.getElem?_eq_getElem h'] at hfield
    exact hfield

/-- `$0` written back is split again. -/
theorem set_record_unchanged_iff (record : RecordState) :
    ((∀ index, qk_get_field (set_record record (qk_get_field record 0)) index = qk_get_field record index) ∧
      qk_get_nf (set_record record (qk_get_field record 0)) = qk_get_nf record) ↔
      split_fields record.field_separator (qk_get_field record 0) = record.fields := by
  constructor
  · exact fun ⟨hfields, hcount⟩ =>
      record_fields_eq (show (set_record record (qk_get_field record 0)).current_record.isSome from rfl) hfields hcount
  · intro h
    refine ⟨fun index => ?_, congrArg List.length h⟩
    have hset : (set_record record (qk_get_field record 0)).fields = record.fields := h
    rcases lt_trichotomy index 0 with hneg | rfl | hpos
    · have hne : index ≠ 0 := by omega
      unfold qk_get_field
      cases record.current_record <;> simp [set_record, hneg, hne]
    · rfl
    · have hne : index ≠ 0 := by omega
      have hnot : ¬ index < 0 := by omega
      cases hrecord : record.current_record with
      | none =>
        have hnone := record.no_fields hrecord
        have hleft : qk_get_field (set_record record (qk_get_field record 0)) index =
            (((set_record record (qk_get_field record 0)).fields)[index.toNat - 1]?).getD [] := by
          unfold qk_get_field
          simp [set_record, hne, hnot]
        rw [hleft, hset, hnone]
        simp [qk_get_field, hrecord]
      | some text =>
        have hleft : qk_get_field (set_record record (qk_get_field record 0)) index =
            (((set_record record (qk_get_field record 0)).fields)[index.toNat - 1]?).getD [] := by
          unfold qk_get_field
          simp [set_record, hne, hnot]
        rw [hleft, hset]
        simp [qk_get_field, hrecord, hne, hnot]

/-- A field written back has the record joined again. -/
theorem set_field_unchanged_iff (record : RecordState) {index : Nat} (hindex : 1 ≤ index) {text : Text}
    (hrecord : record.current_record = some text) :
    ((∀ other, qk_get_field (qk_set_field_string record index (qk_get_field record index)) other = qk_get_field record other) ∧
      qk_get_nf (qk_set_field_string record index (qk_get_field record index)) = qk_get_nf record) ↔
      index ≤ qk_get_nf record ∧ List.intercalate (qk_output_variable_text record.ofs [' ']) record.fields = text := by
  have hsome : record.current_record.isSome := by rw [hrecord]; rfl
  obtain ⟨hfields, hjoined⟩ := qk_set_field_string_fields hindex (qk_get_field record index) hsome
  have hcount : qk_get_nf (qk_set_field_string record index (qk_get_field record index)) =
      max (qk_get_nf record) index := by
    unfold qk_get_nf
    rw [hfields, rebuilt_fields_length]
  by_cases hle : index ≤ qk_get_nf record
  · have hkept : rebuilt_fields record.fields (max record.fields.length index) index (qk_get_field record index) =
        record.fields := by
      have hmax : max record.fields.length index = record.fields.length := Nat.max_eq_left hle
      refine List.ext_getElem (by rw [rebuilt_fields_length, hmax]) fun position h h' => ?_
      rw [rebuilt_fields_length] at h
      have hget := rebuilt_fields_getElem record.fields (max record.fields.length index) index
        (qk_get_field record index) h
      have hfield : qk_get_field record index = (record.fields[index - 1]?).getD [] := by
        obtain ⟨before, rfl⟩ := Nat.exists_eq_add_of_le' hindex
        exact qk_get_field_succ hsome before
      rw [List.getElem?_eq_getElem (by rw [rebuilt_fields_length]; exact h), Option.some.injEq] at hget
      rw [hget]
      split_ifs with hsame
      · have hposition : index - 1 = position := by omega
        rw [hfield, hposition, List.getElem?_eq_getElem h']
        rfl
      · rw [List.getD_eq_getElem?_getD, List.getElem?_eq_getElem h']
        rfl
    rw [hkept] at hfields hjoined
    constructor
    · intro ⟨hsame, _⟩
      have hzero := hsame 0
      generalize qk_set_field_string record index (qk_get_field record index) = written at hzero hjoined
      unfold qk_get_field at hzero
      rw [hjoined, hrecord] at hzero
      exact ⟨hle, hzero⟩
    · intro ⟨_, hjoin⟩
      refine ⟨fun other => ?_, by rw [hcount, Nat.max_eq_left hle]⟩
      rw [hjoin] at hjoined
      generalize qk_set_field_string record index (qk_get_field record index) = written at hfields hjoined
      unfold qk_get_field
      rw [hjoined, hrecord, hfields]
  · constructor
    · intro ⟨_, hsame⟩
      rw [hcount] at hsame
      omega
    · exact fun ⟨hwithin, _⟩ => absurd hwithin hle

theorem keeps_written_iff (record : RecordState) (index : Int) (text : Text) :
    FieldsUnchanged record (qk_set_field_string record index text) ↔ record.KeepsWritten index text := by
  unfold RecordState.KeepsWritten
  rcases lt_trichotomy index 0 with hneg | rfl | hpos
  · have hsame : qk_set_field_string record index text = record := if_pos hneg
    rw [hsame, if_neg (by omega)]
    exact ⟨fun _ hpos => by omega, fun _ => ⟨fun _ => rfl, rfl⟩⟩
  · rw [if_pos rfl]
    change FieldsUnchanged record (set_record record text) ↔ _
    constructor
    · intro h
      obtain rfl : text = qk_get_field record 0 := h.1 0
      exact ⟨rfl, (set_record_unchanged_iff record).mp h⟩
    · rintro ⟨rfl, h⟩
      exact (set_record_unchanged_iff record).mpr h
  · obtain ⟨position, rfl⟩ := Int.eq_ofNat_of_zero_le hpos.le
    have hindex : 1 ≤ position := by omega
    rw [if_neg (by omega)]
    cases hrecord : record.current_record with
    | none =>
      rw [qk_set_field_string_of_none hindex _ hrecord]
      refine ⟨fun _ _ hsome => ?_, fun _ => ⟨fun _ => rfl, rfl⟩⟩
      cases hsome
    | some joined =>
      have hsome : record.current_record.isSome := by rw [hrecord]; rfl
      have hiff := set_field_unchanged_iff record hindex hrecord
      constructor
      · intro h _ _
        have hread : qk_get_field (qk_set_field_string record position text) position = text := by
          obtain ⟨before, rfl⟩ := Nat.exists_eq_add_of_le' hindex
          rw [qk_get_field_set hindex text hsome (by omega), if_pos rfl]
        obtain rfl : text = qk_get_field record position := by rw [← hread, h.1]
        obtain ⟨hle, hjoin⟩ := hiff.mp h
        refine ⟨rfl, by exact_mod_cast hle, fun other hother => ?_⟩
        rw [hrecord, Option.some.injEq] at hother
        rw [hjoin, hother]
      · intro h
        obtain ⟨rfl, hle, hjoin⟩ := h hpos rfl
        exact hiff.mpr ⟨by exact_mod_cast hle, hjoin joined hrecord⟩

theorem receives_iff (record : RecordState) (read_index write_index : Int) (text : Text) :
    qk_get_field (qk_set_field_string record write_index text) read_index = text ↔
      record.Receives read_index write_index text := by
  unfold RecordState.Receives
  by_cases hsame : read_index = write_index
  · subst hsame
    rw [if_pos rfl]
    rcases lt_trichotomy read_index 0 with hneg | rfl | hpos
    · have hnothing : qk_set_field_string record read_index text = record := if_pos hneg
      have hread : qk_get_field record read_index = [] := by
        unfold qk_get_field
        have hne : read_index ≠ 0 := by omega
        cases record.current_record <;> simp [hneg, hne]
      rw [hnothing, hread]
      constructor
      · intro h
        exact Or.inr (Or.inr h.symm)
      · rintro (rfl | ⟨hpos, -⟩ | rfl)
        · omega
        · omega
        · rfl
    · simp only [true_or, iff_true]
      rfl
    · obtain ⟨position, rfl⟩ := Int.eq_ofNat_of_zero_le hpos.le
      have hindex : 1 ≤ position := by omega
      have hne : (position : Int) ≠ 0 := by omega
      cases hrecord : record.current_record with
      | none =>
        rw [qk_set_field_string_of_none hindex _ hrecord]
        have hread : qk_get_field record position = [] := by simp [qk_get_field, hrecord]
        rw [hread]
        constructor
        · intro h
          exact Or.inr (Or.inr h.symm)
        · rintro (hzero | ⟨-, hsome⟩ | rfl)
          · exact absurd hzero hne
          · cases hsome
          · rfl
      | some joined =>
        have hsome : record.current_record.isSome := by rw [hrecord]; rfl
        have hread : qk_get_field (qk_set_field_string record position text) position = text := by
          obtain ⟨before, rfl⟩ := Nat.exists_eq_add_of_le' hindex
          rw [qk_get_field_set hindex text hsome (by omega), if_pos rfl]
        exact ⟨fun _ => Or.inr (Or.inl ⟨hpos, rfl⟩), fun _ => hread⟩
  · rw [if_neg hsame]

section Count

variable (record : RecordState) {asked : Int} {joined : Text}

theorem set_nf_fields (hasked : 0 ≤ asked) (hrecord : record.current_record = some joined) :
    (set_nf record asked).fields = rebuilt_fields record.fields asked.toNat (-1) [] ∧
      (set_nf record asked).current_record = some (List.intercalate (qk_output_variable_text record.ofs [' '])
        (rebuilt_fields record.fields asked.toNat (-1) [])) := by
  have hnot : ¬ asked < 0 := by omega
  simp [set_nf, qk_rebuild_current_record, hnot, hrecord]

theorem set_nf_same (h : asked < 0 ∨ record.current_record = none) : set_nf record asked = record := by
  unfold set_nf
  split_ifs with hneg
  · rfl
  · have hrecord := h.resolve_left hneg
    simp [qk_rebuild_current_record, hrecord]

theorem set_nf_count (asked : Int) : qk_get_nf (set_nf record asked) = record.fields_after asked := by
  unfold RecordState.fields_after
  by_cases h : asked < 0 ∨ record.current_record = none
  · rw [set_nf_same record h, if_pos h]
  · rw [if_neg h]
    push Not at h
    obtain ⟨joined, hrecord⟩ := Option.ne_none_iff_exists'.mp h.2
    unfold qk_get_nf
    rw [(set_nf_fields record h.1 hrecord).1, rebuilt_fields_length]

theorem set_nf_unchanged_iff (asked : Int) :
    FieldsUnchanged record (set_nf record asked) ↔
      (0 ≤ asked → record.current_record.isSome → asked = qk_get_nf record ∧ record.IsJoined) := by
  by_cases h : asked < 0 ∨ record.current_record = none
  · rw [set_nf_same record h]
    refine ⟨fun _ hasked hsome => ?_, fun _ => ⟨fun _ => rfl, rfl⟩⟩
    obtain hneg | hnone := h
    · omega
    · rw [hnone] at hsome
      cases hsome
  · push Not at h
    obtain ⟨hasked, hrecord⟩ := h
    obtain ⟨joined, hrecord⟩ := Option.ne_none_iff_exists'.mp hrecord
    obtain ⟨hfields, hjoined⟩ := set_nf_fields record hasked hrecord
    have hcount : qk_get_nf (set_nf record asked) = asked.toNat := by
      unfold qk_get_nf
      rw [hfields, rebuilt_fields_length]
    have hkept (hsame : asked = qk_get_nf record) :
        rebuilt_fields record.fields asked.toNat (-1) [] = record.fields := by
      have hlength : asked.toNat = record.fields.length := by
        unfold qk_get_nf at hsame
        omega
      refine List.ext_getElem (by rw [rebuilt_fields_length, hlength]) fun position hposition h' => ?_
      rw [rebuilt_fields_length] at hposition
      have hget := rebuilt_fields_getElem record.fields asked.toNat (-1) [] hposition
      rw [List.getElem?_eq_getElem (by rwa [rebuilt_fields_length]), Option.some.injEq] at hget
      rw [hget, if_neg (by omega), List.getD_eq_getElem?_getD, List.getElem?_eq_getElem h']
      rfl
    have hread : qk_get_field (set_nf record asked) 0 =
        List.intercalate (qk_output_variable_text record.ofs [' ']) (rebuilt_fields record.fields asked.toNat (-1) []) := by
      unfold qk_get_field
      rw [hjoined]
      rfl
    have hzero : qk_get_field record 0 = joined := by
      unfold qk_get_field
      rw [hrecord]
      rfl
    constructor
    · rintro ⟨hreads, hcounts⟩ _ _
      have hsame : asked = qk_get_nf record := by omega
      refine ⟨hsame, fun text htext => ?_⟩
      rw [hrecord, Option.some.injEq] at htext
      rw [← htext, ← hzero, ← hreads 0, hread, hkept hsame]
    · intro h
      obtain ⟨hsame, hjoin⟩ := h hasked (by rw [hrecord]; rfl)
      rw [hkept hsame] at hfields hjoined
      rw [hjoin joined hrecord] at hjoined
      refine ⟨fun index => ?_, by rw [hcount, hsame]; rfl⟩
      generalize set_nf record asked = written at hfields hjoined
      unfold qk_get_field
      rw [hjoined, hrecord, hfields]

end Count

theorem unchanged_iff {target : SubstituteTarget}
    (hafter : runtime.assign_target doubles (runtime.target_text doubles target) target = some after) :
    runtime.Unchanged doubles is_zero after ↔ runtime.KeepsWrittenBack doubles is_zero target := by
  have hrecords : ∀ record, runtime.Unchanged doubles is_zero { runtime with record := record } ↔
      FieldsUnchanged runtime.record record := fun record =>
    ⟨fun h => ⟨h.fields, h.count⟩, fun h => ⟨fun _ => ⟨rfl, rfl, Iff.rfl⟩, rfl, h.1, h.2, rfl⟩⟩
  have hscalars (name : Name) (text : Text) :
      runtime.Unchanged doubles is_zero { runtime with scalars := Function.update runtime.scalars name (.string text) } ↔
        ReadsAlike doubles is_zero runtime.convfmt (.string text) (runtime.scalars name) := by
    constructor
    · intro h
      have hname := h.scalars name
      simp only [Function.update_self] at hname
      exact hname
    · intro h
      refine ⟨fun other => ?_, rfl, fun _ => rfl, rfl, rfl⟩
      by_cases hother : other = name
      · subst hother
        simp only [Function.update_self]
        exact h
      · simp only [Function.update_of_ne hother]
        exact ⟨rfl, rfl, Iff.rfl⟩
  have hself : runtime.Unchanged doubles is_zero runtime :=
    ⟨fun _ => ⟨rfl, rfl, Iff.rfl⟩, rfl, fun _ => rfl, rfl, rfl⟩
  cases target with
  | scalar name =>
    obtain rfl := Option.some.inj hafter
    rw [hscalars]
    exact ⟨fun h => ⟨h.number, h.truth⟩, fun h => ⟨rfl, h.1, h.2⟩⟩
  | loop_key name =>
    obtain rfl := Option.some.inj hafter
    exact hscalars name (runtime.keys name)
  | parameter name =>
    obtain rfl := Option.some.inj hafter
    refine ⟨fun _ => trivial, fun _ => ⟨hself.scalars, ?_, fun _ => rfl, rfl, rfl⟩⟩
    exact Function.update_eq_self name runtime.parameters
  | number | filename =>
    obtain rfl := Option.some.inj hafter
    exact ⟨fun _ => trivial, fun _ => ⟨hself.scalars, rfl, fun _ => rfl, rfl, rfl⟩⟩
  | nf =>
    obtain rfl := Option.some.inj hafter
    rw [hrecords]
    exact set_nf_unchanged_iff runtime.record _
  | field read_index write_index =>
    obtain rfl := Option.some.inj hafter
    rw [hrecords]
    exact keeps_written_iff runtime.record write_index _
  | element array_name read_key write_key =>
    obtain rfl := Option.some.inj hafter
    have hmaps := runtime.store.maps_put doubles array_name write_key
      ⟨runtime.element_text array_name read_key,
        some ( doubles.qk_parse_awk_numeric_prefix (runtime.element_text array_name read_key))⟩
    constructor
    · intro h
      have hsame := congrFun (congrFun (hmaps.symm.trans h.elements) array_name) write_key
      rw [Function.update_self, Function.update_self] at hsame
      exact hsame.symm
    · intro hheld
      refine ⟨hself.scalars, rfl, fun _ => rfl, rfl, hmaps.trans ?_⟩
      have hsame : some (ArrayStore.cell_view doubles ⟨runtime.element_text array_name read_key,
          some ( doubles.qk_parse_awk_numeric_prefix (runtime.element_text array_name read_key))⟩) =
          runtime.store.maps doubles array_name write_key := by
        rw [hheld]
        rfl
      rw [hsame, Function.update_eq_self, Function.update_eq_self]

theorem receives_result_iff {target : SubstituteTarget} {text : Text}
    (hafter : runtime.assign_target doubles text target = some after) :
    after.target_text doubles target = text ↔ runtime.ReceivesResult doubles text target := by
  cases target with
  | scalar name | parameter name =>
    obtain rfl := Option.some.inj hafter
    refine ⟨fun _ => trivial, fun _ => ?_⟩
    simp [target_text, Doubles.text_of]
  | loop_key | number | filename =>
    obtain rfl := Option.some.inj hafter
    exact eq_comm
  | nf =>
    obtain rfl := Option.some.inj hafter
    simp only [target_text, ReceivesResult, set_nf_count]
    exact eq_comm
  | field read_index write_index =>
    obtain rfl := Option.some.inj hafter
    exact receives_iff runtime.record read_index write_index text
  | element array_name read_key write_key =>
    obtain rfl := Option.some.inj hafter
    have hmaps := runtime.store.maps_put doubles array_name write_key
      ⟨text, some ( doubles.qk_parse_awk_numeric_prefix text)⟩
    have hread (store : ArrayStore Number) : ((store.find_entry array_name read_key).map ArrayCell.value).getD [] =
        ((store.maps doubles array_name read_key).map Prod.fst).getD [] := by
      unfold ArrayStore.maps
      rw [Option.map_map]
      rfl
    change ((ArrayStore.find_entry _ array_name read_key).map ArrayCell.value).getD [] = text ↔ _
    rw [hread, hmaps, Function.update_self]
    by_cases hkey : read_key = write_key
    · subst hkey
      rw [Function.update_self]
      exact ⟨fun _ => Or.inl rfl, fun _ => rfl⟩
    · rw [Function.update_of_ne hkey, ← hread]
      exact ⟨fun h => Or.inr h.symm, fun h => (h.resolve_left hkey).symm⟩

end WriteBack

end Target

end quawk
