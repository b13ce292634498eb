import Mathlib.Data.List.Basic
import Quawk.Ast

namespace quawk

/-- A scalar of the runtime as its table keeps it: a string, a number with the text it formats to,
or neither. -/
inductive ScalarKind where
  | none
  | string (text : Text)
  | number (text : Text)
  deriving DecidableEq, Repr

/-- `qk_scalar_string_view` -/
def ScalarKind.string_view : ScalarKind → Text
  | .none => []
  | .string text | .number text => text

/-- What an output variable is taken for; a number is not looked at. -/
def qk_output_variable_text (value : ScalarKind) (fallback : Text) : Text :=
  match value with
  | .string text => text
  | .none | .number _ => fallback

/-- The record text, its fields and the variables that split and join them. Before the first record
there is no text, and then there are no fields. An empty `field_separator` splits at blanks. -/
structure RecordState where
  current_record : Option Text
  fields : List Text
  field_separator : Text
  ofs : ScalarKind
  no_fields : current_record = none → fields = []

def is_space (char : Char) : Bool := [' ', '\t', '\n', '\x0b', '\x0c', '\r'].contains char

def qk_split_whitespace_fields (field_start : Text) : Text → List Text
  | [] => if field_start.isEmpty then [] else [field_start]
  | char :: rest =>
    if is_space char then
      if field_start.isEmpty then qk_split_whitespace_fields [] rest
      else field_start :: qk_split_whitespace_fields [] rest
    else qk_split_whitespace_fields (field_start ++ [char]) rest

/-- The fuel is the length of the text, which every step makes shorter. -/
def qk_split_literal_separator_fields (separator : Text) : Nat → Text → Text → List Text
  | 0, field_start, _ => [field_start]
  | _ + 1, field_start, [] => [field_start]
  | fuel + 1, field_start, char :: rest =>
    if separator.isPrefixOf (char :: rest) then
      field_start :: qk_split_literal_separator_fields separator fuel [] ((char :: rest).drop separator.length)
    else qk_split_literal_separator_fields separator fuel (field_start ++ [char]) rest

def split_fields (field_separator text : Text) : List Text :=
  if field_separator.isEmpty then qk_split_whitespace_fields [] text
  else qk_split_literal_separator_fields field_separator text.length [] text

/-- `qk_get_nf`: the field count. -/
def qk_get_nf (runtime : RecordState) : Nat := runtime.fields.length

def qk_get_field (runtime : RecordState) (index : Int) : Text :=
  match runtime.current_record with
  | none => []
  | some current_record =>
    if index = 0 then current_record
    else if index < 0 then []
    else (runtime.fields[index.toNat - 1]?).getD []

/-- `qk_replace_current_record` and `qk_rebuild_fields` -/
def set_record (runtime : RecordState) (text : Text) : RecordState :=
  { runtime with
    current_record := some text
    fields := split_fields runtime.field_separator text
    no_fields := fun h => nomatch h }

/-- The fields of a rebuilt record: the new value at `index`, the old fields, and empty ones. -/
def rebuilt_fields (fields : List Text) (target_fields : Nat) (index : Int) (value : Text) : List Text :=
  (List.range target_fields).map fun (field_index : Nat) =>
    if 0 < index ∧ (field_index : Int) + 1 = index then value else fields.getD field_index []

def qk_rebuild_current_record (runtime : RecordState) (target_fields : Nat) (index : Int) (value : Text) :
    RecordState :=
  if index = 0 then set_record runtime value
  else match runtime.current_record with
    | none => runtime
    | some _ =>
      let target_fields := if 0 < index ∧ (target_fields : Int) < index then index.toNat else target_fields
      let next_fields := rebuilt_fields runtime.fields target_fields index value
      { runtime with
        current_record := some (List.intercalate (qk_output_variable_text runtime.ofs [' ']) next_fields)
        fields := next_fields
        no_fields := fun h => nomatch h }

def qk_set_field_string (runtime : RecordState) (index : Int) (value : Text) : RecordState :=
  if index < 0 then runtime else qk_rebuild_current_record runtime runtime.fields.length index value

/-- An assignment to `NF`. -/
def set_nf (runtime : RecordState) (target_fields : Int) : RecordState :=
  if target_fields < 0 then runtime else qk_rebuild_current_record runtime target_fields.toNat (-1) []

@[simp]
theorem rebuilt_fields_length (fields : List Text) (target_fields : Nat) (index : Int) (value : Text) :
    (rebuilt_fields fields target_fields index value).length = target_fields := by
  simp [rebuilt_fields]

theorem rebuilt_fields_getElem (fields : List Text) (target_fields : Nat) (index : Int) (value : Text)
    {position : Nat} (h : position < target_fields) :
    (rebuilt_fields fields target_fields index value)[position]? =
      some (if 0 < index ∧ (position : Int) + 1 = index then value else fields.getD position []) := by
  simp [rebuilt_fields, List.getElem?_range h]

theorem qk_get_field_succ {runtime : RecordState} (h : runtime.current_record.isSome) (position : Nat) :
    qk_get_field runtime (position + 1 : Nat) = (runtime.fields[position]?).getD [] := by
  obtain ⟨text, htext⟩ := Option.isSome_iff_exists.mp h
  unfold qk_get_field
  rw [htext]
  have hne : ((position + 1 : Nat) : Int) ≠ 0 := by omega
  have hnonneg : ¬ ((position + 1 : Nat) : Int) < 0 := by omega
  simp only [if_neg hne, if_neg hnonneg, Int.toNat_natCast, Nat.add_sub_cancel]

/-- Two joins of the same two or more texts differ where the separators do. -/
theorem intercalate_cons_cons (separator first second : Text) (rest : List Text) :
    List.intercalate separator (first :: second :: rest) =
      first ++ (separator ++ List.intercalate separator (second :: rest)) := by
  simp [List.intercalate, List.intersperse]

theorem intercalate_length (separator first : Text) (rest : List Text) :
    (List.intercalate separator (first :: rest)).length =
      (first :: rest).flatten.length + rest.length * separator.length := by
  induction rest generalizing first with
  | nil => simp [List.intercalate, List.intersperse]
  | cons second rest ih =>
    rw [intercalate_cons_cons, List.length_append, List.length_append, ih second]
    simp only [List.flatten_cons, List.length_append, List.length_cons, Nat.succ_mul]
    omega

theorem separator_eq_of_intercalate_eq {separator separator' : Text} {texts : List Text}
    (hlength : 2 ≤ texts.length)
    (h : List.intercalate separator texts = List.intercalate separator' texts) : separator = separator' := by
  obtain _ | ⟨first, _ | ⟨second, rest⟩⟩ := texts
  · simp at hlength
  · simp at hlength
  · have hlengths := congrArg List.length h
    rw [intercalate_length, intercalate_length] at hlengths
    have hseparators : separator.length = separator'.length :=
      Nat.eq_of_mul_eq_mul_left (Nat.succ_pos rest.length) (Nat.add_left_cancel hlengths)
    rw [intercalate_cons_cons, intercalate_cons_cons, List.append_cancel_left_eq] at h
    exact (List.append_inj h hseparators).1

/-- What setting `$index` does: the field reads the value, every other field what it read before (and so
those between the old `NF` and the index the empty string), `NF` covers the index, and `$0` is the
fields joined by `OFS`. -/
structure FieldAssigned (before after : RecordState) (index : Nat) (value : Text) : Prop where
  assigned : qk_get_field after index = value
  others : ∀ other : Nat, 1 ≤ other → other ≠ index → qk_get_field after other = qk_get_field before other
  count : qk_get_nf after = max (qk_get_nf before) index
  joined : qk_get_field after 0 =
    List.intercalate before.ofs.string_view ((List.range (qk_get_nf after)).map fun position =>
      qk_get_field after (position + 1 : Nat))

/-- What setting `$0` does. -/
structure RecordAssigned (before after : RecordState) (value : Text) : Prop where
  record : qk_get_field after 0 = value
  fields : after.fields = split_fields before.field_separator value
  count : qk_get_nf after = (split_fields before.field_separator value).length

theorem set_record_assigned (runtime : RecordState) (value : Text) :
    RecordAssigned runtime (qk_set_field_string runtime 0 value) value := by
  exact ⟨rfl, rfl, rfl⟩

section Assignment

variable {runtime : RecordState} {index : Nat} (hindex : 1 ≤ index) (value : Text)
include hindex

/-- Before the first record nothing is assigned. -/
theorem qk_set_field_string_of_none (h : runtime.current_record = none) :
    qk_set_field_string runtime index value = runtime := by
  have hnonneg : ¬ (index : Int) < 0 := by omega
  have hne : (index : Int) ≠ 0 := by omega
  simp only [qk_set_field_string, qk_rebuild_current_record, if_neg hnonneg, if_neg hne, h]

theorem qk_set_field_string_fields (h : runtime.current_record.isSome) :
    (qk_set_field_string runtime index value).fields =
      rebuilt_fields runtime.fields (max runtime.fields.length index) index value ∧
    (qk_set_field_string runtime index value).current_record =
      some (List.intercalate (qk_output_variable_text runtime.ofs [' '])
        (rebuilt_fields runtime.fields (max runtime.fields.length index) index value)) := by
  obtain ⟨text, htext⟩ := Option.isSome_iff_exists.mp h
  have hnonneg : ¬ (index : Int) < 0 := by omega
  have hne : (index : Int) ≠ 0 := by omega
  have htarget : (if 0 < (index : Int) ∧ (runtime.fields.length : Int) < index then (index : Int).toNat
      else runtime.fields.length) = max runtime.fields.length index := by
    split_ifs <;> omega
  simp only [qk_set_field_string, qk_rebuild_current_record, if_neg hnonneg, if_neg hne, htext, htarget]
  exact ⟨trivial, trivial⟩

theorem qk_get_field_set (h : runtime.current_record.isSome) {position : Nat}
    (hposition : position < max runtime.fields.length index) :
    qk_get_field (qk_set_field_string runtime index value) (position + 1 : Nat) =
      if position + 1 = index then value else (runtime.fields[position]?).getD [] := by
  obtain ⟨hfields, hrecord⟩ := qk_set_field_string_fields hindex value h
  rw [qk_get_field_succ (by rw [hrecord]; rfl), hfields, rebuilt_fields_getElem _ _ _ _ hposition]
  have hiff : (0 < (index : Int) ∧ (position : Int) + 1 = index) ↔ position + 1 = index := by omega
  simp only [hiff, Option.getD_some, List.getD_eq_getElem?_getD]

theorem qk_set_field_string_fields_of_some (h : runtime.current_record.isSome) :
    (qk_set_field_string runtime index value).fields.length = max runtime.fields.length index := by
  rw [(qk_set_field_string_fields hindex value h).1, rebuilt_fields_length]

/-- The fields of the new record, read one by one. -/
theorem qk_get_field_set_range (h : runtime.current_record.isSome) :
    ((List.range (qk_get_nf (qk_set_field_string runtime index value))).map fun position =>
      qk_get_field (qk_set_field_string runtime index value) (position + 1 : Nat)) =
    rebuilt_fields runtime.fields (max runtime.fields.length index) index value := by
  obtain ⟨hfields, hrecord⟩ := qk_set_field_string_fields hindex value h
  have hsome : (qk_set_field_string runtime index value).current_record.isSome := by
    rw [hrecord]
    rfl
  unfold qk_get_nf
  rw [qk_set_field_string_fields_of_some hindex value h]
  apply List.ext_getElem?
  intro position
  by_cases hposition : position < max runtime.fields.length index
  · rw [rebuilt_fields_getElem _ _ _ _ hposition, List.getElem?_map, List.getElem?_range hposition,
      Option.map_some, qk_get_field_succ hsome, hfields, rebuilt_fields_getElem _ _ _ _ hposition,
      Option.getD_some]
  · rw [List.getElem?_eq_none (by simpa using hposition), List.getElem?_eq_none (by simpa using hposition)]

theorem qk_set_field_string_assigned_iff :
    FieldAssigned runtime (qk_set_field_string runtime index value) index value ↔
      runtime.current_record.isSome ∧ (qk_output_variable_text runtime.ofs [' '] = runtime.ofs.string_view ∨
        max (qk_get_nf runtime) index = 1) := by
  constructor
  · intro hassigned
    have hsome : runtime.current_record.isSome := by
      by_contra hnone
      have hrecord : runtime.current_record = none := by simpa using hnone
      have hcount := hassigned.count
      rw [qk_set_field_string_of_none hindex value hrecord, qk_get_nf, runtime.no_fields hrecord] at hcount
      simp only [List.length_nil] at hcount
      omega
    refine ⟨hsome, ?_⟩
    have hjoined := hassigned.joined
    rw [qk_get_field_set_range hindex value hsome] at hjoined
    have hrecord := (qk_set_field_string_fields hindex value hsome).2
    unfold qk_get_field at hjoined
    rw [hrecord] at hjoined
    by_cases hone : max (qk_get_nf runtime) index = 1
    · exact Or.inr hone
    · apply Or.inl
      refine separator_eq_of_intercalate_eq ?_ hjoined
      rw [rebuilt_fields_length]
      unfold qk_get_nf at hone
      omega
  · intro ⟨hsome, hseparator⟩
    obtain ⟨hfields, hrecord⟩ := qk_set_field_string_fields hindex value hsome
    have hafter : (qk_set_field_string runtime index value).current_record.isSome := by
      rw [hrecord]
      rfl
    refine ⟨?_, ?_, ?_, ?_⟩
    · obtain ⟨position, rfl⟩ : ∃ position, index = position + 1 := ⟨index - 1, by omega⟩
      rw [qk_get_field_set hindex value hsome (by omega), if_pos rfl]
    · intro other hother hne
      obtain ⟨position, rfl⟩ : ∃ position, other = position + 1 := ⟨other - 1, by omega⟩
      rw [qk_get_field_succ hsome]
      by_cases hposition : position < max runtime.fields.length index
      · rw [qk_get_field_set hindex value hsome hposition, if_neg hne]
      · rw [qk_get_field_succ hafter, hfields, List.getElem?_eq_none (by simpa using hposition),
          List.getElem?_eq_none (by omega)]
    · exact qk_set_field_string_fields_of_some hindex value hsome
    · rw [qk_get_field_set_range hindex value hsome]
      unfold qk_get_field
      rw [hrecord]
      obtain hseparator | hone := hseparator
      · rw [hseparator]
        rfl
      · obtain ⟨only, honly⟩ : ∃ only, rebuilt_fields runtime.fields (max runtime.fields.length index) index value
            = [only] := by
          rw [← List.length_eq_one_iff, rebuilt_fields_length]
          exact hone
        rw [honly]
        rfl

end Assignment

/-- What a program does to the record: it assigns a field or the record, `NF`, `FS` or `OFS`, or reads the
next record. -/
inductive RecordOperation where
  | set_field (index : Int) (value : Text)
  | set_nf (target_fields : Int)
  | update_field_separator (text : Text)
  | set_ofs (value : ScalarKind)
  | read_record (line : Text)
  deriving Repr

/-- A single blank, as the empty text, splits at blanks. -/
def qk_update_field_separator (text : Text) : Text := if text = [' '] then [] else text

def RecordOperation.apply (runtime : RecordState) : RecordOperation → RecordState
  | .set_field index value => qk_set_field_string runtime index value
  | .set_nf target_fields => quawk.set_nf runtime target_fields
  | .update_field_separator text => { runtime with field_separator := qk_update_field_separator text }
  | .set_ofs value => { runtime with ofs := value }
  | .read_record line => set_record runtime line

/-- `qk_runtime_initialize` -/
def record_start (field_separator : Text) : RecordState :=
  { current_record := none
    fields := []
    field_separator := qk_update_field_separator field_separator
    ofs := .string [' ']
    no_fields := fun _ => rfl }

/-- The state `BEGIN` and the operations of a program lead to. -/
def record_state (field_separator : Text) (operations : List RecordOperation) : RecordState :=
  operations.foldl RecordOperation.apply (record_start field_separator)

/-- In every state a program reaches, setting a field does all it should exactly where there is a record
and `OFS` holds a string, or its text is not needed; setting `$0` always does. -/
theorem field_assignment_exact (field_separator : Text) (operations : List RecordOperation) (value : Text) :
    (∀ index : Nat, 1 ≤ index →
      (FieldAssigned (record_state field_separator operations)
          (qk_set_field_string (record_state field_separator operations) index value) index value ↔
        (record_state field_separator operations).current_record.isSome ∧
          (qk_output_variable_text (record_state field_separator operations).ofs [' '] =
              (record_state field_separator operations).ofs.string_view ∨
            max (qk_get_nf (record_state field_separator operations)) index = 1))) ∧
    RecordAssigned (record_state field_separator operations)
      (qk_set_field_string (record_state field_separator operations) 0 value) value := by
  constructor
  · intro index hindex
    exact qk_set_field_string_assigned_iff hindex value
  · exact set_record_assigned _ value

theorem field_assignment_exact_after_record :
    FieldAssigned (record_state [] [.read_record ['a', ' ', 'b']])
      (qk_set_field_string (record_state [] [.read_record ['a', ' ', 'b']]) (4 : Nat) ['x']) 4 ['x'] :=
  ((field_assignment_exact [] [.read_record ['a', ' ', 'b']] ['x']).1 4 (by decide)).mpr
    ⟨by decide, Or.inl (by decide)⟩

/-- `BEGIN { $3 = "x" }` leaves `$3` empty. -/
theorem field_assignment_lost :
    ¬ FieldAssigned (record_state [] []) (qk_set_field_string (record_state [] []) (3 : Nat) ['x']) 3 ['x'] := by
  intro hassigned
  have hread := hassigned.assigned
  revert hread
  decide

end quawk
