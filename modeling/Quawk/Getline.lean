import Quawk.LoweringState
import Quawk.NumeralSyntax
import Quawk.StreamRecords
import Quawk.Substrings

namespace quawk

/-- The places of a scalar; every parameter and every slot belongs to one name. A `number` is read as a number:
a counter of the runtime, a local variable or a numeric slot. -/
inductive ScalarPlace where
  | parameter | string_slot | scalar_table | number | filename | loop_key
  deriving DecidableEq, Repr

section Places

variable (state : LoweringState) (name : Name)

/-- Where `lower_runtime_string_expression` reads a name. -/
def read_place : ScalarPlace :=
  if state.is_loop_string_binding name then .loop_key
  else if state.is_function_param_string name then .parameter
  else if name = "FILENAME" then .filename
  else if runtime_name_uses_slot_cached_runtime state name then .string_slot
  else if runtime_name_uses_only_scalar_runtime state name then .scalar_table
  else .number

/-- Where `lower_runtime_assign_string_lvalue` writes a name. -/
def written_places : List ScalarPlace :=
  if state.is_function_param_string name then [.parameter]
  else match runtime_name_slot_index state name with
    | some _ =>
      if runtime_name_uses_string_slot_runtime state name then [.string_slot] else [.scalar_table, .string_slot]
    | none => [.scalar_table]

end Places

/-- The state of a program as far as `getline` changes it. -/
structure GetlineState where
  input : InputState
  scalars : ScalarPlace → Name → Text
  elements : Name → Text → Text

/-- Where a text is: in the scratch buffer of the runtime, or where it is kept. -/
inductive TextPointer where
  | scratch
  | kept (text : Text)
  deriving DecidableEq, Repr

def GetlineState.read (s : GetlineState) : TextPointer → Text
  | .scratch => s.input.scratch_buffer
  | .kept text => text

def GetlineState.write_scratch (s : GetlineState) (text : Text) : GetlineState :=
  { s with input := { s.input with scratch_buffer := text } }

/-- A text that may be left in the scratch buffer. -/
def GetlineState.leave_scratch (s : GetlineState) : Option Text → GetlineState
  | some text => s.write_scratch text
  | none => s

/-- What a subscript evaluates to: a text that is kept somewhere, or one the runtime writes to the scratch buffer
(a formatted number, a concatenation, what a string builtin gives). Evaluating one that is kept, such as an element,
may leave another text in the scratch buffer, such as the key of the element. -/
inductive Subscript where
  | kept (text : Text) (left : Option Text)
  | built (text : Text)
  deriving DecidableEq, Repr

def Subscript.text : Subscript → Text
  | .kept text _ | .built text => text

/-- The target of a `getline`, its index or subscripts with their values. Evaluating the index may leave a text
in the scratch buffer. -/
inductive Target where
  | name (name : Name)
  | element (array : Name) (subscript : Subscript) (more : List Subscript)
  | field (index : Int) (built : Option Text)
  deriving DecidableEq, Repr

def array_key (subscript : Subscript) (s : GetlineState) : TextPointer × GetlineState :=
  match subscript with
  | .kept text left => (.kept text, s.leave_scratch left)
  | .built text => (.scratch, s.write_scratch text)

def qk_concat (left right : TextPointer) (s : GetlineState) : TextPointer × GetlineState :=
  (.scratch, s.write_scratch (s.read left ++ s.read right))

/-- Join the remaining subscripts to a key. -/
def joined_subscripts (subsep key : TextPointer) : List Subscript → GetlineState → TextPointer × GetlineState
  | [], s => (key, s)
  | subscript :: more, s =>
    let (right, s) := array_key subscript s
    let (joined, s) := qk_concat key subsep s
    let (next_key, s) := qk_concat joined right s
    joined_subscripts subsep next_key more s

/-- `lower_runtime_array_subscripts` -/
def array_subscripts (subscript : Subscript) (more : List Subscript) (s : GetlineState) :
    TextPointer × GetlineState :=
  let (key, s) := array_key subscript s
  if more.isEmpty then (key, s)
  else joined_subscripts (.kept (s.scalars .scalar_table "SUBSEP")) key more s

/-- The number a text starts with, cut to a whole number of 64 bits. The conversion is undefined for any other, for which
the least one stands. -/
def truncated_number (text : Text) : Int :=
  match Numeral.qk_parse_awk_numeric_prefix text with
  | .finite value => (fptosi 64 value).getD (-2 ^ 63)
  | .infinity _ | .nan => -2 ^ 63

/-- `qk_apply_scalar_side_effects` -/
def apply_scalar_side_effects (name : Name) (text : Text) (input : InputState) : InputState :=
  if name = "FS" then { input with record := RecordOperation.apply input.record (.update_field_separator text) }
  else if name = "OFS" then { input with record := RecordOperation.apply input.record (.set_ofs (.string text)) }
  else if name = "RS" then { input with record_separator := text.headD '\n' }
  else if name = "NF" then { input with record := set_nf input.record (truncated_number text) }
  else input

section Assign

variable (state : LoweringState)

def assign_string_name (name : Name) (text : Text) (s : GetlineState) : GetlineState :=
  { s with
    input :=
      if ScalarPlace.scalar_table ∈ written_places state name then apply_scalar_side_effects name text s.input
      else s.input
    scalars := fun place other =>
      if other = name ∧ place ∈ written_places state name then text else s.scalars place other }

/-- `lower_runtime_assign_string_lvalue`: the text is looked at when the index or the key has been evaluated. -/
def assign_string_lvalue (string_value : TextPointer) (s : GetlineState) : Target → GetlineState
  | .name name => assign_string_name state name (s.read string_value) s
  | .field index built =>
    let s := s.leave_scratch built
    { s with input := { s.input with record := qk_set_field_string s.input.record index (s.read string_value) } }
  | .element array subscript more =>
    let (key, s) := array_subscripts subscript more s
    { s with
      elements := fun other_array other_key =>
        if other_array = array ∧ other_key = s.read key then s.read string_value
        else s.elements other_array other_key }

end Assign

/-- The driver's read of the next record and the four forms of `getline`. -/
inductive GetlineForm where
  | next_record
  | record
  | string (target : Target)
  | file_record (file : Text)
  | file_string (file : Text) (target : Target)
  deriving DecidableEq, Repr

/-- The named file a form reads; else it reads the main input. -/
def GetlineForm.file : GetlineForm → Option Text
  | .next_record | .record | .string _ => none
  | .file_record file | .file_string file _ => some file

def GetlineForm.target : GetlineForm → Option Target
  | .next_record | .record | .file_record _ => none
  | .string target | .file_string _ target => some target

section Run

variable (state : LoweringState) (fopen : Text → Option Stream)

/-- The text read is in the scratch buffer, and is assigned if there is one. -/
def assign_read (s : GetlineState) (target : Target) (outcome : Int × InputState) : Int × GetlineState :=
  let after := { s with input := outcome.2 }
  (outcome.1, if 0 < outcome.1 then assign_string_lvalue state .scratch after target else after)

def GetlineForm.perform (s : GetlineState) : GetlineForm → Int × GetlineState
  | .next_record | .record =>
    let (result, input) := qk_read_main_line fopen true s.input
    (result, { s with input })
  | .string target => assign_read state s target (qk_getline_main_string fopen s.input)
  | .file_record file =>
    let (result, input) := qk_read_file_line fopen true file s.input
    (result, { s with input })
  | .file_string file target => assign_read state s target (qk_read_file_line fopen false file s.input)

/-- A step of the program: a read, or anything else that leaves the streams alone. -/
inductive ProgramStep where
  | read (form : GetlineForm)
  | other (record_separator : Char) (record : RecordState) (scratch_buffer : Text)
    (scalars : ScalarPlace → Name → Text) (elements : Name → Text → Text)

/-- The reads of a run, with the states before and after. -/
def getline_run : GetlineState → List ProgramStep → List (GetlineForm × GetlineState × Int × GetlineState)
  | _, [] => []
  | s, .read form :: steps =>
    let outcome := form.perform state fopen s
    (form, s, outcome) :: getline_run outcome.2 steps
  | s, .other record_separator record scratch_buffer scalars elements :: steps =>
    getline_run ⟨{ s.input with record_separator, record, scratch_buffer }, scalars, elements⟩ steps

end Run

section Law

variable (state : LoweringState) (fopen : Text → Option Stream)

/-- The records a stream still gives: the main input, or a named file. -/
def records_left (separator : Char) (input : InputState) : Option Text → List Text
  | none => main_records fopen separator input
  | some file => named_records fopen separator input file

/-- `NF` where it names the field count of the runtime. -/
def IsFieldCount (name : Name) : Prop := name = "NF" ∧ read_place state name = .number

instance (name : Name) : Decidable (IsFieldCount state name) := inferInstanceAs (Decidable (_ ∧ _))

/-- The text is assigned to the target, and to nothing else. -/
def TargetSet (before after : GetlineState) (text : Text) : Target → Prop
  | .name name =>
    (if IsFieldCount state name then (qk_get_nf after.input.record : Int) = truncated_number text
      else after.scalars (read_place state name) name = text ∧ KeepsFields before.input after.input) ∧
    (∀ place other, other ≠ name → after.scalars place other = before.scalars place other) ∧
    after.elements = before.elements
  | .element array subscript more =>
    (after.elements = fun other_array other_key =>
      if other_array = array ∧ other_key = List.intercalate (before.scalars .scalar_table "SUBSEP")
          (subscript.text :: more.map Subscript.text) then text
      else before.elements other_array other_key) ∧
    after.scalars = before.scalars ∧ KeepsFields before.input after.input
  | .field index _ =>
    (if index = 0 then RecordAssigned before.input.record after.input.record text
      else FieldAssigned before.input.record after.input.record index.toNat text) ∧
    after.scalars = before.scalars ∧ after.elements = before.elements

/-- `NR` and `FNR` count the records of the main input only, and only a read that leaves an input it has come to the
end of changes `FILENAME`. -/
def CountersMove (before after : InputState) : Option Text → Prop
  | none => after.nr = before.nr + 1 ∧
      after.fnr = (if handle_records before.record_separator before = [] then 1 else before.fnr + 1) ∧
      (handle_records before.record_separator before ≠ [] → after.current_filename = before.current_filename)
  | some _ => after.nr = before.nr ∧ after.fnr = before.fnr ∧ after.current_filename = before.current_filename

/-- What the result of a form says about the states before and after: with 1 the next record of its stream is
taken and changes what the form is to change; else nothing is taken or changed. -/
structure GetlineLaw (form : GetlineForm) (before : GetlineState) (outcome : Int × GetlineState) : Prop where
  others : ∀ stream, stream ≠ form.file →
    records_left fopen before.input.record_separator outcome.2.input stream =
      records_left fopen before.input.record_separator before.input stream
  success : outcome.1 = 1 → ∃ text,
    records_left fopen before.input.record_separator before.input form.file =
      text :: records_left fopen before.input.record_separator outcome.2.input form.file ∧
    CountersMove before.input outcome.2.input form.file ∧
    match form.target with
    | none => RecordAssigned before.input.record outcome.2.input.record text ∧
        outcome.2.scalars = before.scalars ∧ outcome.2.elements = before.elements
    | some target => TargetSet state before outcome.2 text target
  failure : outcome.1 ≠ 1 →
    (outcome.1 = 0 ∧ records_left fopen before.input.record_separator before.input form.file = [] ∨
      outcome.1 = -1) ∧
    records_left fopen before.input.record_separator outcome.2.input form.file =
      records_left fopen before.input.record_separator before.input form.file ∧
    KeepsFields before.input outcome.2.input ∧ outcome.2.input.nr = before.input.nr ∧
    outcome.2.scalars = before.scalars ∧ outcome.2.elements = before.elements

/-- The text read reaches the target: a name is read where it is written (`NF` needs a record and a count), neither a
single subscript nor the index of a field leaves a text in the scratch buffer, and the field is one that can be set. -/
def TargetKept (s : GetlineState) (next : Option Text) : Target → Prop
  | .name name =>
    if IsFieldCount state name then
      s.input.record.current_record.isSome ∧ ∀ text, next = some text → 0 ≤ truncated_number text
    else read_place state name ∈ written_places state name
  | .element _ subscript more => more = [] ∧ subscript = .kept subscript.text none
  | .field index built => built = none ∧ (index = 0 ∨ 1 ≤ index ∧ s.input.record.current_record.isSome ∧
      (qk_output_variable_text s.input.record.ofs [' '] = s.input.record.ofs.string_view ∨
        max (qk_get_nf s.input.record) index.toNat = 1))

/-- A named file that a form reads does not fail, and the text reaches the target. -/
structure FormKept (form : GetlineForm) (s : GetlineState) : Prop where
  file : ∀ file, form.file = some file → FileSound fopen file
  target : ∀ target, form.target = some target →
    TargetKept state s (records_left fopen s.input.record_separator s.input form.file).head? target

end Law

section Assigning

variable {state : LoweringState} {fopen : Text → Option Stream}

theorem written_places_nf : written_places state "NF" =
    if state.is_function_param_string "NF" then [.parameter] else [.scalar_table] := by
  have hslot : runtime_name_slot_index state "NF" = none := by
    unfold runtime_name_slot_index
    exact if_pos (Or.inl (by decide))
  unfold written_places
  rw [hslot]

theorem read_place_nf : read_place state "NF" =
    if state.is_loop_string_binding "NF" then .loop_key
    else if state.is_function_param_string "NF" then .parameter else .number := by
  have hscalar : runtime_name_uses_scalar_runtime state "NF" = false := by simp [runtime_name_uses_scalar_runtime]
  unfold read_place
  simp [runtime_name_uses_slot_cached_runtime, runtime_name_uses_only_scalar_runtime, hscalar]

theorem read_place_field_count (h : read_place state "NF" ∈ written_places state "NF") :
    ScalarPlace.scalar_table ∉ written_places state "NF" := by
  rw [read_place_nf] at h
  rw [written_places_nf] at h ⊢
  split_ifs at h ⊢ <;> simp at h ⊢

theorem side_effects_keep_fields {name : Name} (hname : name ≠ "NF") (text : Text) (input : InputState) :
    KeepsFields input (apply_scalar_side_effects name text input) := by
  unfold apply_scalar_side_effects
  split_ifs <;> exact ⟨rfl, fun _ => rfl⟩

/-- Only the record, the scratch buffer and `RS` change with an assignment. -/
def SameStreams (before after : InputState) : Prop :=
  ∃ record_separator record scratch_buffer,
    after = { before with record_separator, record, scratch_buffer }

theorem assign_name_streams (name : Name) (text : Text) (s : GetlineState) :
    SameStreams s.input (assign_string_name state name text s).input := by
  unfold assign_string_name apply_scalar_side_effects
  dsimp only
  split_ifs <;> exact ⟨_, _, _, rfl⟩

theorem assign_name_set {s : GetlineState} {text : Text} {name : Name}
    (hkept : TargetKept state s (some text) (.name name)) :
    TargetSet state s (assign_string_name state name text s) text (.name name) := by
  refine ⟨?_, fun place other hother => if_neg fun hand => hother hand.1, rfl⟩
  simp only [TargetKept] at hkept
  split_ifs at hkept ⊢ with hcount
  · obtain ⟨hrecord, hnonneg⟩ := hkept
    obtain ⟨rfl, hplace⟩ := hcount
    have hwritten : ScalarPlace.scalar_table ∈ written_places state "NF" := by
      rw [read_place_nf] at hplace
      rw [written_places_nf]
      split_ifs at hplace ⊢
      exact List.mem_cons_self
    obtain ⟨record, hrecord⟩ := Option.isSome_iff_exists.mp hrecord
    have hnonneg := hnonneg text rfl
    have hnot : ¬ truncated_number text < 0 := by omega
    simp [assign_string_name, hwritten, apply_scalar_side_effects, set_nf, hnot, qk_rebuild_current_record, hrecord,
      qk_get_nf]
    omega
  · refine ⟨if_pos ⟨rfl, hkept⟩, ?_⟩
    simp only [assign_string_name]
    split_ifs with hwritten
    · refine side_effects_keep_fields ?_ text s.input
      rintro rfl
      exact read_place_field_count hkept hwritten
    · exact ⟨rfl, fun _ => rfl⟩

theorem assign_set {s : GetlineState} {text : Text} {target : Target}
    (hscratch : s.input.scratch_buffer = text) (hkept : TargetKept state s (some text) target) :
    TargetSet state s (assign_string_lvalue state .scratch s target) text target ∧
      SameStreams s.input (assign_string_lvalue state .scratch s target).input := by
  subst hscratch
  cases target with
  | name name => exact ⟨assign_name_set hkept, assign_name_streams name _ s⟩
  | element array subscript more =>
    obtain ⟨rfl, hsubscript⟩ := hkept
    cases subscript with
    | built built => cases hsubscript
    | kept key left =>
      obtain rfl := (Subscript.kept.inj hsubscript).2
      refine ⟨⟨?_, rfl, rfl, fun _ => rfl⟩, ⟨_, _, _, rfl⟩⟩
      simp [GetlineState.leave_scratch, assign_string_lvalue, array_subscripts, array_key, GetlineState.read,
        Subscript.text, List.intercalate]
  | field index built =>
    obtain ⟨rfl, hindex⟩ := hkept
    refine ⟨⟨?_, rfl, rfl⟩, ⟨_, _, _, rfl⟩⟩
    obtain rfl | ⟨hindex, hset⟩ := hindex
    · exact set_record_assigned _ _
    · have hne : index ≠ 0 := by omega
      obtain ⟨position, rfl⟩ := Int.eq_ofNat_of_zero_le (by omega : 0 ≤ index)
      rw [if_neg hne]
      exact (qk_set_field_string_assigned_iff (by omega) _).mpr hset

end Assigning

section Forms

variable {state : LoweringState} {fopen : Text → Option Stream}

/-- What a read of a stream may do, into the record or into the scratch buffer. -/
inductive ReadTakes (fopen : Text → Option Stream) (update_record : Bool) (stream : Option Text)
    (input : InputState) : Int × InputState → Prop
  | record {after : InputState} (text : Text)
      (hrecords : records_left fopen input.record_separator input stream =
        text :: records_left fopen input.record_separator after stream)
      (hothers : ∀ other, other ≠ stream → records_left fopen input.record_separator after other =
        records_left fopen input.record_separator input other)
      (hcounters : CountersMove input after stream)
      (hdelivered : if update_record then after.record = set_record input.record text
        else after.record = input.record ∧ after.scratch_buffer = text) :
      ReadTakes fopen update_record stream input (1, after)
  | nothing {result : Int} {after : InputState}
      (hresult : result = 0 ∧ records_left fopen input.record_separator input stream = [] ∨ result = -1)
      (hrecords : ∀ other, records_left fopen input.record_separator after other =
        records_left fopen input.record_separator input other)
      (hfields : KeepsFields input after) (hnr : after.nr = input.nr) :
      ReadTakes fopen update_record stream input (result, after)

theorem main_line_reads (update_record : Bool) {input : InputState} (hsound : Sound fopen input) :
    ReadTakes fopen update_record none input (qk_read_main_line fopen update_record input) := by
  have hread : MainRead fopen update_record input _ := main_read update_record input
  obtain ⟨hinputs, _⟩ := main_read_same hread
  have htakes := main_read_takes hread hsound
  have hnamed (file : Text) : named_records fopen input.record_separator
      (qk_read_main_line fopen update_record input).2 file =
        named_records fopen input.record_separator input file := by
    unfold named_records
    rw [hinputs]
  revert htakes hnamed
  generalize qk_read_main_line fopen update_record input = outcome
  intro htakes hnamed
  cases htakes with
  | record text hrecords hnr hfnr hfilename hdelivered =>
    refine .record text hrecords (fun other hother => ?_) ⟨hnr, hfnr, hfilename⟩ hdelivered
    cases other with
    | none => exact absurd rfl hother
    | some file => exact hnamed file
  | nothing hresult hrecords hfields hnr =>
    refine .nothing hresult (fun other => ?_) hfields hnr
    cases other with
    | none => exact hrecords
    | some file => exact hnamed file

theorem file_line_reads (update_record : Bool) {file : Text} {input : InputState} (hsound : NamedSound input)
    (hfile : FileSound fopen file) :
    ReadTakes fopen update_record (some file) input (qk_read_file_line fopen update_record file input) := by
  have htakes := (read_file_line_takes update_record file hsound hfile).1
  revert htakes
  generalize qk_read_file_line fopen update_record file input = outcome
  intro htakes
  cases htakes with
  | record inputs text hrecords hothers =>
    refine .record text hrecords (fun other hother => ?_) ⟨rfl, rfl, rfl⟩ ?_
    · cases other with
      | none => rfl
      | some other => exact hothers other fun heq => hother (congrArg some heq)
    · cases update_record
      · exact ⟨rfl, rfl⟩
      · rfl
  | nothing hresult hempty hrecords =>
    refine .nothing (hresult.imp_left fun hzero => ⟨hzero, hempty⟩) (fun other => ?_) ⟨rfl, fun _ => rfl⟩ rfl
    cases other with
    | none => rfl
    | some other => exact hrecords other

theorem SameStreams.records {before after : InputState} (h : SameStreams before after) (separator : Char)
    (stream : Option Text) :
    records_left fopen separator after stream = records_left fopen separator before stream := by
  obtain ⟨_, _, _, rfl⟩ := h
  cases stream <;> rfl

/-- The fields are looked at before the read, which leaves them as they are. -/
theorem TargetSet.of_record {read before after : GetlineState} {text : Text} {target : Target}
    (h : TargetSet state read after text target) (hrecord : read.input.record = before.input.record)
    (hscalars : read.scalars = before.scalars) (helements : read.elements = before.elements) :
    TargetSet state before after text target := by
  cases target <;> simp only [TargetSet, KeepsFields, hrecord, hscalars, helements] at h ⊢ <;> exact h

theorem TargetKept.of_record {read before : GetlineState} {next : Option Text} {target : Target}
    (h : TargetKept state before next target) (hrecord : read.input.record = before.input.record) :
    TargetKept state read next target := by
  cases target <;> simp only [TargetKept, hrecord] at h ⊢ <;> exact h

variable {form : GetlineForm} {s : GetlineState} {outcome : Int × InputState}

theorem record_form_law (hread : ReadTakes fopen true form.file s.input outcome) (htarget : form.target = none) :
    GetlineLaw state fopen form s (outcome.1, { s with input := outcome.2 }) := by
  cases hread with
  | record text hrecords hothers hcounters hdelivered =>
    refine ⟨hothers, fun _ => ⟨text, hrecords, hcounters, ?_⟩, fun hne => absurd rfl hne⟩
    rw [htarget]
    simp only [if_true] at hdelivered
    exact ⟨by rw [hdelivered]; exact ⟨rfl, rfl, rfl⟩, rfl, rfl⟩
  | nothing hresult hrecords hfields hnr =>
    refine ⟨fun other _ => hrecords other, fun hone => ?_, fun _ => ⟨hresult, hrecords _, hfields, hnr, rfl, rfl⟩⟩
    dsimp only at hone
    omega

theorem string_form_law {target : Target} (hread : ReadTakes fopen false form.file s.input outcome)
    (htarget : form.target = some target) (hkept : FormKept state fopen form s) :
    GetlineLaw state fopen form s (assign_read state s target outcome) ∧
      SameStreams outcome.2 (assign_read state s target outcome).2.input := by
  cases hread with
  | @record after text hrecords hothers hcounters hdelivered =>
    simp only [Bool.false_eq_true, if_false] at hdelivered
    obtain ⟨hrecord, hscratch⟩ := hdelivered
    have hnext : TargetKept state { s with input := after } (some text) target := by
      refine TargetKept.of_record ?_ hrecord
      have htext := hkept.target target htarget
      rwa [hrecords] at htext
    obtain ⟨hset, hsame⟩ := assign_set hscratch hnext
    have hresult : assign_read state s target (1, after) =
        (1, assign_string_lvalue state .scratch { s with input := after } target) := by
      simp [assign_read]
    rw [hresult]
    refine ⟨⟨fun other hother => ?_, fun _ => ⟨text, ?_, ?_, ?_⟩, fun hne => absurd rfl hne⟩, hsame⟩
    · exact (hsame.records _ other).trans (hothers other hother)
    · rw [hsame.records]
      exact hrecords
    · obtain ⟨_, _, _, hafter⟩ := hsame
      cases hfile : form.file <;> rw [hfile] at hcounters <;> simp only [CountersMove, hafter] <;> exact hcounters
    · rw [htarget]
      exact hset.of_record hrecord rfl rfl
  | @nothing result after hresult hrecords hfields hnr =>
    have hnot : ¬ 0 < result := by omega
    simp only [assign_read, if_neg hnot]
    refine ⟨⟨fun other _ => hrecords other, fun hone => ?_,
      fun _ => ⟨hresult, hrecords _, hfields, hnr, rfl, rfl⟩⟩, ⟨_, _, _, rfl⟩⟩
    dsimp only at hone
    omega

end Forms

section Runs

variable {state : LoweringState} {fopen : Text → Option Stream}

/-- Nothing that is still to be read fails. -/
def StreamsSound (fopen : Text → Option Stream) (input : InputState) : Prop :=
  Sound fopen input ∧ NamedSound input

theorem SameStreams.sound {before after : InputState} (h : SameStreams before after)
    (hsound : StreamsSound fopen before) : StreamsSound fopen after := by
  obtain ⟨_, _, _, rfl⟩ := h
  obtain ⟨⟨hstdin, hfiles, hhandle⟩, hopened⟩ := hsound
  refine ⟨⟨hstdin, hfiles, fun handle hcurrent => ?_⟩, hopened⟩
  have hfailing := hhandle handle hcurrent
  cases handle <;> exact hfailing

theorem main_line_sound (update_record : Bool) {input : InputState} (hsound : StreamsSound fopen input) :
    StreamsSound fopen (qk_read_main_line fopen update_record input).2 := by
  have hread : MainRead fopen update_record input _ := main_read update_record input
  refine ⟨(main_read_sound hread hsound.1).1, ?_⟩
  unfold NamedSound
  rw [(main_read_same hread).1]
  exact hsound.2

theorem file_line_sound (update_record : Bool) {file : Text} {input : InputState} (hsound : StreamsSound fopen input)
    (hfile : FileSound fopen file) :
    StreamsSound fopen (qk_read_file_line fopen update_record file input).2 := by
  obtain ⟨htakes, hnamed⟩ := read_file_line_takes update_record file hsound.2 hfile
  refine ⟨?_, hnamed⟩
  obtain ⟨hstdin, hfiles, hhandle⟩ := hsound.1
  revert htakes
  generalize (qk_read_file_line fopen update_record file input) = outcome
  intro htakes
  cases htakes <;>
    exact ⟨hstdin, hfiles, fun handle hcurrent => by have := hhandle handle hcurrent; cases handle <;> exact this⟩

theorem perform_law {form : GetlineForm} {s : GetlineState} (hsound : StreamsSound fopen s.input)
    (hkept : FormKept state fopen form s) :
    GetlineLaw state fopen form s (form.perform state fopen s) ∧
      StreamsSound fopen (form.perform state fopen s).2.input := by
  cases form with
  | next_record | record =>
    exact ⟨record_form_law (main_line_reads true hsound.1) rfl, main_line_sound true hsound⟩
  | file_record file =>
    have hfile := hkept.file file rfl
    exact ⟨record_form_law (file_line_reads true hsound.2 hfile) rfl, file_line_sound true hsound hfile⟩
  | string target =>
    obtain ⟨hlaw, hsame⟩ := string_form_law (main_line_reads false hsound.1) rfl hkept
    exact ⟨hlaw, hsame.sound (main_line_sound false hsound)⟩
  | file_string file target =>
    have hfile := hkept.file file rfl
    obtain ⟨hlaw, hsame⟩ := string_form_law (file_line_reads false hsound.2 hfile) rfl hkept
    exact ⟨hlaw, hsame.sound (file_line_sound false hsound hfile)⟩

theorem getline_run_law (steps : List ProgramStep) {s : GetlineState} (hsound : StreamsSound fopen s.input)
    (hkept : ∀ read ∈ getline_run state fopen s steps, FormKept state fopen read.1 read.2.1) :
    ∀ read ∈ getline_run state fopen s steps, GetlineLaw state fopen read.1 read.2.1 read.2.2 := by
  induction steps generalizing s with
  | nil => exact fun _ hmem => nomatch hmem
  | cons step steps ih =>
    cases step with
    | read form =>
      obtain ⟨hlaw, hafter⟩ := perform_law hsound (hkept _ List.mem_cons_self)
      intro read hmem
      obtain rfl | hmem := List.mem_cons.mp hmem
      · exact hlaw
      · exact ih hafter (fun other hother => hkept other (List.mem_cons_of_mem _ hother)) read hmem
    | other record_separator record scratch_buffer scalars elements =>
      have hsame : SameStreams s.input { s.input with record_separator, record, scratch_buffer } := ⟨_, _, _, rfl⟩
      exact ih (hsame.sound hsound) hkept

/-- The state a run ends in. -/
def getline_end (state : LoweringState) (fopen : Text → Option Stream) : GetlineState → List ProgramStep → GetlineState
  | s, [] => s
  | s, .read form :: steps => getline_end state fopen (form.perform state fopen s).2 steps
  | s, .other record_separator record scratch_buffer scalars elements :: steps =>
    getline_end state fopen ⟨{ s.input with record_separator, record, scratch_buffer }, scalars, elements⟩ steps

/-- What the reads of a run take from a stream, whatever their form. -/
def taken_records (fopen : Text → Option Stream) (stream : Option Text)
    (run : List (GetlineForm × GetlineState × Int × GetlineState)) : List Text :=
  run.flatMap fun (form, before, result, _) =>
    if form.file = stream ∧ result = 1 then
      (records_left fopen before.input.record_separator before.input stream).take 1
    else []

theorem GetlineLaw.taken {form : GetlineForm} {before : GetlineState} {outcome : Int × GetlineState}
    (h : GetlineLaw state fopen form before outcome) (stream : Option Text) :
    taken_records fopen stream [(form, before, outcome)] ++
        records_left fopen before.input.record_separator outcome.2.input stream =
      records_left fopen before.input.record_separator before.input stream := by
  obtain ⟨result, after⟩ := outcome
  simp only [taken_records, List.flatMap_cons, List.flatMap_nil, List.append_nil]
  by_cases hstream : form.file = stream
  · subst hstream
    by_cases hresult : result = 1
    · obtain ⟨text, hrecords, _⟩ := h.success hresult
      simp [hresult, hrecords]
    · simp only [hresult, and_false, if_false, List.nil_append]
      exact (h.failure hresult).2.1
  · simp only [hstream, false_and, if_false, List.nil_append]
    exact h.others stream fun heq => hstream heq.symm

/-- Under one `RS` the reads of a stream take its records in order, every record once. -/
theorem taken_records_run {separator : Char} (steps : List ProgramStep) {s : GetlineState} (stream : Option Text)
    (hlaw : ∀ read ∈ getline_run state fopen s steps, GetlineLaw state fopen read.1 read.2.1 read.2.2)
    (hseparator : ∀ read ∈ getline_run state fopen s steps, read.2.1.input.record_separator = separator) :
    taken_records fopen stream (getline_run state fopen s steps) ++
        records_left fopen separator (getline_end state fopen s steps).input stream =
      records_left fopen separator s.input stream := by
  induction steps generalizing s with
  | nil => rfl
  | cons step steps ih =>
    cases step with
    | read form =>
      have hrest := ih (fun read hmem => hlaw read (List.mem_cons_of_mem _ hmem))
        fun read hmem => hseparator read (List.mem_cons_of_mem _ hmem)
      have hfirst := (hlaw _ List.mem_cons_self).taken stream
      have hequal : s.input.record_separator = separator := hseparator _ List.mem_cons_self
      rw [hequal, ← hrest, ← List.append_assoc] at hfirst
      rw [← hfirst]
      simp only [taken_records, getline_run, getline_end, List.flatMap_cons, List.flatMap_nil, List.append_nil]
    | other record_separator record scratch_buffer scalars elements =>
      have hsame : SameStreams s.input { s.input with record_separator, record, scratch_buffer } := ⟨_, _, _, rfl⟩
      rw [← hsame.records]
      exact ih hlaw hseparator

/-- In every run in which no stream that is read fails and every text read reaches its target, each read takes the next
record of its stream and changes what its form is to change, or nothing. -/
theorem getline_frame_law (state : LoweringState) (fopen : Text → Option Stream) (argv : List Text) (stdin : Stream)
    (hmain : NoReadError fopen argv stdin)
    (scalars : ScalarPlace → Name → Text) (elements : Name → Text → Text) (steps : List ProgramStep)
    (hkept : ∀ read ∈ getline_run state fopen ⟨input_start argv stdin, scalars, elements⟩ steps,
      FormKept state fopen read.1 read.2.1) :
    (∀ read ∈ getline_run state fopen ⟨input_start argv stdin, scalars, elements⟩ steps,
      GetlineLaw state fopen read.1 read.2.1 read.2.2) ∧
    ∀ stream separator,
      (∀ read ∈ getline_run state fopen ⟨input_start argv stdin, scalars, elements⟩ steps,
        read.2.1.input.record_separator = separator) →
      taken_records fopen stream (getline_run state fopen ⟨input_start argv stdin, scalars, elements⟩ steps) ++
          records_left fopen separator
            (getline_end state fopen ⟨input_start argv stdin, scalars, elements⟩ steps).input stream =
        records_left fopen separator (input_start argv stdin) stream := by
  have hsound : StreamsSound fopen (input_start argv stdin) := ⟨hmain.sound, fun _ hmem => nomatch hmem⟩
  have hlaw := getline_run_law steps hsound hkept
  exact ⟨hlaw, fun stream separator => taken_records_run steps stream hlaw⟩

/-- A program without variables of its own. -/
def no_variables : LoweringState where
  variable_indexes := []
  slot_allocation := ⟨[]⟩
  type_info := fun _ => .unknown
  array_names := []
  function_defs := []
  local_numeric_names := ∅
  function_param_strings := []
  loop_string_bindings := []

/-- Two lines in every file. -/
def two_lines (_ : Text) : Option Stream := some ⟨['a', '\n', 'b', '\n'], false⟩

/-- `getline x < "f"` and `getline A["k"] < "f"` take the two lines of `f`. -/
theorem getline_frame_law_two_lines :
    (∀ read ∈ getline_run no_variables two_lines ⟨input_start [] ⟨[], false⟩, fun _ _ => [], fun _ _ => []⟩
        [.read (.file_string ['f'] (.name "x")), .read (.file_string ['f'] (.element "A" (.kept ['k'] none) []))],
      GetlineLaw no_variables two_lines read.1 read.2.1 read.2.2) ∧
    ∀ stream separator,
      (∀ read ∈ getline_run no_variables two_lines ⟨input_start [] ⟨[], false⟩, fun _ _ => [], fun _ _ => []⟩
          [.read (.file_string ['f'] (.name "x")), .read (.file_string ['f'] (.element "A" (.kept ['k'] none) []))],
        read.2.1.input.record_separator = separator) →
      taken_records two_lines stream (getline_run no_variables two_lines
          ⟨input_start [] ⟨[], false⟩, fun _ _ => [], fun _ _ => []⟩
          [.read (.file_string ['f'] (.name "x")), .read (.file_string ['f'] (.element "A" (.kept ['k'] none) []))]) ++
          records_left two_lines separator (getline_end no_variables two_lines
            ⟨input_start [] ⟨[], false⟩, fun _ _ => [], fun _ _ => []⟩
            [.read (.file_string ['f'] (.name "x")),
              .read (.file_string ['f'] (.element "A" (.kept ['k'] none) []))]).input stream =
        records_left two_lines separator (input_start [] ⟨[], false⟩) stream := by
  refine getline_frame_law no_variables two_lines [] ⟨[], false⟩ ⟨fun _ => rfl, fun _ hmem => nomatch hmem⟩
    (fun _ _ => []) (fun _ _ => []) _ ?_
  intro read hmem
  refine ⟨fun file _ stream hopen => ?_, fun target htarget => ?_⟩
  · obtain rfl := Option.some.inj hopen
    rfl
  · obtain rfl | hmem := List.mem_cons.mp hmem
    · obtain rfl := Option.some.inj htarget
      exact (by decide : read_place no_variables "x" ∈ written_places no_variables "x")
    · obtain rfl := List.mem_singleton.mp hmem
      obtain rfl := Option.some.inj htarget
      exact ⟨rfl, rfl⟩

/-- `getline A[1] < "f"` stores the text of the key, which is built in the scratch buffer after the read. -/
theorem getline_element_lost :
    ¬ ∀ (state : LoweringState) (fopen : Text → Option Stream) (argv : List Text) (stdin : Stream),
      NoReadError fopen argv stdin → (∀ file stream, fopen file = some stream → stream.failing = false) →
        ∀ scalars elements steps,
          ∀ read ∈ getline_run state fopen ⟨input_start argv stdin, scalars, elements⟩ steps,
            GetlineLaw state fopen read.1 read.2.1 read.2.2 := by
  intro h
  have hlaw := h no_variables two_lines [] ⟨[], false⟩ ⟨fun _ => rfl, fun _ hmem => nomatch hmem⟩
    (fun _ _ hopen => by obtain rfl := Option.some.inj hopen; rfl) (fun _ _ => []) (fun _ _ => [])
    [.read (.file_string ['f'] (.element "A" (.built ['1']) []))] _ List.mem_cons_self
  obtain ⟨text, hrecords, _, hset, _⟩ := hlaw.success (by decide)
  have htext : some text = some ['a'] := (congrArg List.head? hrecords).symm.trans (by decide)
  have helement := congrFun (congrFun hset "A") ['1']
  rw [if_pos (by decide), Option.some.inj htext] at helement
  revert helement
  decide

end Runs

end quawk
