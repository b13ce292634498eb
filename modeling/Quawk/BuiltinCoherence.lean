import Quawk.BuiltinVariables
import Quawk.FieldCount
import Quawk.Getline

namespace quawk

variable {Number : Type}

/-- A builtin variable. -/
abbrev BuiltinName : Type := { name : Name // name ∈ BUILTIN_SCALARS }

/-- The runtime, and the value last written to each variable that the runtime has not updated since. -/
structure ExpectedBuiltins (Number : Type) where
  builtins : BuiltinRuntime Number
  expected : Name → Option (StoredValue Number)

/-- What programs and the runtime do to the builtin variables. -/
inductive BuiltinStep (Number : Type) where
  | write (name : BuiltinName) (write : BuiltinWrite Number)
  | operation (operation : RuntimeOperation Number)
  /-- `qk_open_next_input` -/
  | open_input (path : Text)
  /-- A record of the main input is read. -/
  | count_record

/-- The variables that the runtime updates itself. -/
def RuntimeOperation.updates : RuntimeOperation Number → List Name
  | .set_field_string _ _ | .set_field_number _ _ | .read_record _ => ["NF"]
  | .match_text _ _ => ["RSTART", "RLENGTH"]
  | _ => []

section Steps

variable (doubles : ComputingDoubles Number) (state : LoweringState)

/-- `+= 1.0` -/
def ComputingDoubles.count_on (value : Number) : Number := doubles.arithmetic .fadd value (doubles.of_int 1)

def BuiltinRuntime.open_input (builtins : BuiltinRuntime Number) (path : Text) : BuiltinRuntime Number :=
  { builtins with fnr := doubles.of_int 0, current_filename := some path }

def BuiltinRuntime.count_record (builtins : BuiltinRuntime Number) : BuiltinRuntime Number :=
  { builtins with nr := doubles.count_on builtins.nr, fnr := doubles.count_on builtins.fnr }

/-- The value a counter is expected to have after one more record. -/
def counted (value : StoredValue Number) : StoredValue Number := .number (doubles.count_on (doubles.number_of value))

/-- One step. The value that is expected after a compound assignment or an increment is made of the number that was
read before; an operation that stores a value is expected to have stored it, and `NR` and `FNR` count on from what is
expected of them. -/
def builtin_step (before : ExpectedBuiltins Number) : BuiltinStep Number → ExpectedBuiltins Number
  | .write name write =>
    match run_builtin doubles (write.code state name) before.builtins with
    | none => before
    | some ((), after) => ⟨after, Function.update before.expected name
        (write.value doubles state name before.builtins (numeric_read doubles before.builtins name))⟩
  | .operation operation =>
    ⟨{ before.builtins with runtime := doubles.apply before.builtins.runtime operation },
      match operation.stored before.builtins.runtime with
      | some (name, value) => Function.update before.expected name (some value)
      | none => fun name => if name ∈ operation.updates then none else before.expected name⟩
  | .open_input path =>
    ⟨before.builtins.open_input doubles path,
      fun name => if name = "FNR" ∨ name = "FILENAME" then none else before.expected name⟩
  | .count_record =>
    ⟨before.builtins.count_record doubles, fun name =>
      if name = "NR" ∨ name = "FNR" then (before.expected name).map (counted doubles) else before.expected name⟩

/-- The format that `CONVFMT` gives for numbers. -/
def BuiltinRuntime.convfmt (builtins : BuiltinRuntime Number) : Text := (builtins.runtime.value "CONVFMT").format

/-- A variable is read in every context as a value. -/
structure BuiltinReadsAs (keys : Name → Option Text) (builtins : BuiltinRuntime Number) (name : Name)
    (value : StoredValue Number) : Prop where
  numeric : ∃ after, run_builtin doubles (lower_expression state keys (.name name)).numeric builtins =
    some (doubles.number_of value, after)
  string : ∃ after, run_builtin doubles (lower_expression state keys (.name name)).string builtins =
    some (doubles.text_of builtins.convfmt value, after)
  condition : ∃ after, run_builtin doubles (lower_expression state keys (.name name)).condition builtins =
    some (doubles.truthy value, after)

/-- Every builtin variable is read as the value that is expected of it. -/
def BuiltinsCoherent (keys : Name → Option Text) (builtins : ExpectedBuiltins Number) : Prop :=
  ∀ name ∈ BUILTIN_SCALARS, ∀ value, builtins.expected name = some value →
    BuiltinReadsAs doubles state keys builtins.builtins name value

/-- A value cannot be told from the number of a counter, under a format. -/
structure LooksLike (format : Text) (name : Name) (value : StoredValue Number) (count : Number) : Prop where
  number : doubles.number_of value = count
  text : doubles.text_of format value = doubles.qk_format_number_with_text count format
  truth : doubles.truthy value =
    if runtime_name_is_inferred_string state name then !(doubles.qk_format_number_with_text count format).isEmpty
    else doubles.differ count (doubles.of_int 0)

/-- A value cannot be told from the name of the current file. -/
def LooksLikeFilename (format : Text) (value : StoredValue Number) (builtins : BuiltinRuntime Number) : Prop :=
  doubles.text_of format value = builtins.current_filename.getD ['-'] ∧
    doubles.truthy value = !(builtins.current_filename.getD ['-']).isEmpty

/-- The fields there are after a value is stored in `NF`. -/
def field_count_after (record : RecordState) (value : StoredValue Number) : Nat :=
  match value with
  | .unset => qk_get_nf record
  | value =>
    if doubles.to_int64 (doubles.number_of value) < 0 ∨ record.current_record = none then qk_get_nf record
    else (doubles.to_int64 (doubles.number_of value)).toNat

/-- A store of `actual`, where `intended` is written, keeps the builtin variables. -/
structure KeepsStore (before : ExpectedBuiltins Number) (name : Name) (actual intended : StoredValue Number) : Prop where
  /-- `NR` and `FNR` already have the value. -/
  counter : name = "NR" ∨ name = "FNR" →
    LooksLike doubles state before.builtins.convfmt name intended (numeric_read doubles before.builtins name)
  field_count : name = "NF" → LooksLike doubles state before.builtins.convfmt name intended
    (doubles.of_int (field_count_after doubles before.builtins.runtime.record actual))
  /-- `FILENAME` already has the value. -/
  filename : name = "FILENAME" → LooksLikeFilename doubles before.builtins.convfmt intended before.builtins
  /-- A new `CONVFMT` leaves the texts what they are that are kept, and those that are expected. -/
  kept_texts : name = "CONVFMT" → actual = .unset → ∀ other, other ≠ "CONVFMT" → ∀ number cached,
    before.builtins.runtime.scalars.find other = some (.number number (some cached)) →
      cached = doubles.qk_format_number_with_text number QK_DEFAULT_CONVFMT
  expected_counters : name = "CONVFMT" → ∀ counter ∈ COUNTERS, ∀ value, before.expected counter = some value →
    LooksLike doubles state actual.format counter value (numeric_read doubles before.builtins counter)
  expected_filename : name = "CONVFMT" → ∀ value, before.expected "FILENAME" = some value →
    LooksLikeFilename doubles actual.format value before.builtins

/-- A step keeps the builtin variables. -/
def KeepsBuiltins (before : ExpectedBuiltins Number) : BuiltinStep Number → Prop
  | .write name write =>
    ∀ actual intended,
      write.value doubles state name before.builtins (doubles.qk_scalar_get_number before.builtins.runtime name) =
        some actual →
      write.value doubles state name before.builtins (numeric_read doubles before.builtins name) = some intended →
        KeepsStore doubles state before name actual intended
  | .operation operation =>
    ∀ name value, operation.stored before.builtins.runtime = some (name, value) →
      KeepsStore doubles state before name value value
  | .open_input _ => True
  | .count_record =>
    -- A counter whose truth is that of its text is counted to a number with the truth of its text.
    ∀ name, name = "NR" ∨ name = "FNR" → before.expected name ≠ none →
      LooksLike doubles state before.builtins.convfmt name
        (.number (doubles.count_on (numeric_read doubles before.builtins name)))
        (doubles.count_on (numeric_read doubles before.builtins name))

/-- What is expected of the builtin variables is in the scalar table and, where programs read fields of the runtime,
cannot be told from these. -/
structure BuiltinsHold (before : ExpectedBuiltins Number) : Prop where
  texts : doubles.ScalarTexts before.builtins.runtime
  scalars : ∀ name ∈ BUILTIN_SCALARS, name ∉ COUNTERS → ∀ value, before.expected name = some value →
    before.builtins.runtime.value name = value
  counters : ∀ name ∈ COUNTERS, ∀ value, before.expected name = some value →
    LooksLike doubles state before.builtins.convfmt name value (numeric_read doubles before.builtins name)
  filename : ∀ value, before.expected "FILENAME" = some value →
    LooksLikeFilename doubles before.builtins.convfmt value before.builtins

end Steps

section Reading

variable {doubles : ComputingDoubles Number} {state : LoweringState} {keys : Name → Option Text} {name : Name}
  {before : ExpectedBuiltins Number}

theorem numeric_read_of_scalar (hcounter : name ∉ COUNTERS) (builtins : BuiltinRuntime Number) :
    numeric_read doubles builtins name = doubles.qk_scalar_get_number builtins.runtime name := by
  simp only [COUNTERS, List.mem_cons, List.not_mem_nil, or_false, not_or] at hcounter
  simp [numeric_read, hcounter]

/-- What is expected is what is read. -/
theorem BuiltinsHold.coherent (h : BuiltinsHold doubles state before) (hplain : PlainBuiltins state) :
    BuiltinsCoherent doubles state keys before := by
  intro name hname value hexpected
  constructor
  · refine ⟨before.builtins, (run_numeric hplain hname).trans ?_⟩
    by_cases hcounter : name ∈ COUNTERS
    · rw [(h.counters name hcounter value hexpected).number]
    · rw [numeric_read_of_scalar hcounter, Doubles.qk_scalar_get_number, h.scalars name hname hcounter value hexpected]
  · refine ⟨(string_read doubles before.builtins name).2, (run_string hplain hname).trans ?_⟩
    have htext : (string_read doubles before.builtins name).1 = doubles.text_of before.builtins.convfmt value := by
      unfold string_read
      split_ifs with hfilename hcounter
      · subst hfilename
        exact (h.filename value hexpected).1.symm
      · exact (h.counters name hcounter value hexpected).text.symm
      · rw [← h.scalars name hname hcounter value hexpected]
        exact Doubles.KeepsText.string_view_text doubles.toDoubles (h.texts name)
    rw [← htext]
  · obtain ⟨after, hrun⟩ := @run_condition _ doubles _ _ keys before.builtins hplain hname
    refine ⟨after, hrun.trans ?_⟩
    have htruth : condition_read doubles state before.builtins name = doubles.truthy value := by
      unfold condition_read
      by_cases hfilename : name = "FILENAME"
      · subst hfilename
        rw [if_pos rfl, (h.filename value hexpected).2]
      · rw [if_neg hfilename]
        by_cases hcounter : name ∈ COUNTERS
        · rw [if_pos hcounter, (h.counters name hcounter value hexpected).truth]
          unfold string_read
          rw [if_neg hfilename, if_pos hcounter]
          rfl
        · rw [if_neg hcounter, h.scalars name hname hcounter value hexpected]
    rw [htruth]

end Reading

section Keeping

variable {doubles : ComputingDoubles Number} {state : LoweringState}

theorem rebuilt_field_count (runtime : RuntimeState Number) (target_fields : Nat) :
    qk_get_nf (doubles.qk_rebuild_current_record runtime target_fields (-1) []).record =
      if runtime.record.current_record = none then qk_get_nf runtime.record else target_fields := by
  unfold Doubles.qk_rebuild_current_record
  rw [if_neg (by decide)]
  split_ifs with hrecord
  · rfl
  · unfold Doubles.store_field_count qk_scalar_set_number_value
    rw [store_entry_record]
    unfold quawk.qk_rebuild_current_record
    rw [if_neg (by decide)]
    cases hcurrent : runtime.record.current_record with
    | none => exact absurd hcurrent hrecord
    | some text => simp [RuntimeState.joining, hcurrent, qk_get_nf]

/-- The field count after a value is stored in `NF`. -/
theorem store_field_count (runtime : RuntimeState Number) (value : StoredValue Number) :
    qk_get_nf (doubles.store runtime "NF" value).record = field_count_after doubles runtime.record value := by
  by_cases hset : value = .unset
  · rw [hset]
    rfl
  · have hnumber : doubles.qk_scalar_get_number (store_entry runtime "NF" value.entry) "NF" =
        doubles.number_of value := by
      rw [Doubles.qk_scalar_get_number, store_entry_value, if_pos rfl, Doubles.entry_value]
    have hcount : field_count_after doubles runtime.record value =
        if doubles.to_int64 (doubles.number_of value) < 0 ∨ runtime.record.current_record = none then
          qk_get_nf runtime.record
        else (doubles.to_int64 (doubles.number_of value)).toNat := by
      cases value with
      | unset => exact absurd rfl hset
      | number | string => rfl
    rw [Doubles.store_of_set doubles.toDoubles "NF" hset, Doubles.side_effects_nf, hnumber, hcount]
    by_cases hnegative : doubles.to_int64 (doubles.number_of value) < 0
    · rw [if_pos hnegative, if_pos (.inl hnegative), store_entry_record]
    · rw [if_neg hnegative, Doubles.store_field_count, qk_scalar_set_number_value, store_entry_record,
        rebuilt_field_count, store_entry_record]
      by_cases hrecord : runtime.record.current_record = none
      · rw [if_pos hrecord, if_pos (.inr hrecord)]
      · rw [if_neg hrecord, if_neg (not_or.mpr ⟨hnegative, hrecord⟩)]

variable {before : ExpectedBuiltins Number} {name : Name}

theorem stored_convfmt (builtins : BuiltinRuntime Number) (name : Name) (value : StoredValue Number) :
    (builtins.stored doubles name value).convfmt = if name = "CONVFMT" then value.format else builtins.convfmt := by
  unfold BuiltinRuntime.convfmt BuiltinRuntime.stored
  rw [Doubles.store_value doubles.toDoubles name value (by decide)]
  by_cases hname : name = "CONVFMT"
  · rw [if_pos hname.symm, if_pos hname]
  · rw [if_neg (Ne.symm hname), if_neg hname]

/-- A counter changes only if it is `NF` that is stored. -/
theorem stored_numeric_read (builtins : BuiltinRuntime Number) (value : StoredValue Number) {counter : Name}
    (hcounter : counter ∈ COUNTERS) :
    numeric_read doubles (builtins.stored doubles name value) counter =
      if name = "NF" ∧ counter = "NF" then doubles.of_int (field_count_after doubles builtins.runtime.record value)
      else numeric_read doubles builtins counter := by
  simp only [COUNTERS, List.mem_cons, List.not_mem_nil, or_false] at hcounter
  rcases hcounter with rfl | rfl | rfl
  · rw [if_neg fun h => absurd h.2 (by decide)]
    rfl
  · rw [if_neg fun h => absurd h.2 (by decide)]
    rfl
  · by_cases hname : name = "NF"
    · subst hname
      rw [if_pos ⟨rfl, rfl⟩, ← store_field_count]
      rfl
    · rw [if_neg fun h => hname h.1]
      change doubles.of_int (doubles.store builtins.runtime name value).record.fields.length = _
      rw [(Doubles.store_of_ne doubles.toDoubles hname value).2]
      rfl

/-- After a write the value is expected, and of the other variables what was expected before. -/
theorem expected_after_write {expected : Name → Option (StoredValue Number)} {intended value : StoredValue Number}
    {other : Name} (h : Function.update expected name (some intended) other = some value) :
    other = name ∧ intended = value ∨ other ≠ name ∧ expected other = some value := by
  by_cases hname : other = name
  · subst hname
    rw [Function.update_self] at h
    exact .inl ⟨rfl, Option.some.inj h⟩
  · rw [Function.update_of_ne hname] at h
    exact .inr ⟨hname, h⟩

/-- A value that is stored under the conditions is what is expected from then on. -/
theorem BuiltinsHold.store (h : BuiltinsHold doubles state before) {actual intended : StoredValue Number}
    (hkeeps : KeepsStore doubles state before name actual intended)
    (hsame : name ∈ BUILTIN_SCALARS → name ∉ COUNTERS → actual = intended) :
    BuiltinsHold doubles state
      ⟨before.builtins.stored doubles name actual, Function.update before.expected name (some intended)⟩ := by
  constructor
  · by_cases hconvfmt : name = "CONVFMT"
    · subst hconvfmt
      by_cases hunset : actual = .unset
      · subst hunset
        exact (Doubles.scalarTexts_clear_convfmt doubles.toDoubles).mpr (hkeeps.kept_texts rfl rfl)
      · exact Doubles.scalarTexts_store_convfmt doubles.toDoubles hunset
    · exact h.texts.store doubles.toDoubles hconvfmt actual
  · intro other hother hcounter value hexpected
    have hnf : other ≠ "NF" := by
      rintro rfl
      exact hcounter (by decide)
    change (doubles.store before.builtins.runtime name actual).value other = value
    rw [Doubles.store_value doubles.toDoubles name actual hnf]
    obtain ⟨rfl, rfl⟩ | ⟨hname, hbefore⟩ := expected_after_write hexpected
    · rw [if_pos rfl, hsame hother hcounter]
    · rw [if_neg hname, h.scalars other hother hcounter value hbefore]
  · intro counter hcounter value hexpected
    rw [stored_convfmt, stored_numeric_read _ _ hcounter]
    obtain ⟨rfl, rfl⟩ | ⟨hname, hbefore⟩ := expected_after_write hexpected
    · have hconvfmt : counter ≠ "CONVFMT" := by
        rintro rfl
        exact absurd hcounter (by decide)
      rw [if_neg hconvfmt]
      by_cases hnf : counter = "NF"
      · rw [if_pos ⟨hnf, hnf⟩]
        exact hkeeps.field_count hnf
      · rw [if_neg fun h => hnf h.1]
        simp only [COUNTERS, List.mem_cons, List.not_mem_nil, or_false, hnf] at hcounter
        exact hkeeps.counter hcounter
    · rw [if_neg (show ¬ (name = "NF" ∧ counter = "NF") from fun hboth => hname (hboth.2.trans hboth.1.symm))]
      by_cases hconvfmt : name = "CONVFMT"
      · rw [if_pos hconvfmt]
        exact hkeeps.expected_counters hconvfmt counter hcounter value hbefore
      · rw [if_neg hconvfmt]
        exact h.counters counter hcounter value hbefore
  · intro value hexpected
    rw [stored_convfmt]
    obtain ⟨rfl, rfl⟩ | ⟨_, hbefore⟩ := expected_after_write hexpected
    · rw [if_neg (by decide)]
      exact hkeeps.filename rfl
    · by_cases hconvfmt : name = "CONVFMT"
      · rw [if_pos hconvfmt]
        exact hkeeps.expected_filename hconvfmt value hbefore
      · rw [if_neg hconvfmt]
        exact h.filename value hbefore

/-- A runtime that gives the same values of the variables and the same counters keeps what is expected. -/
theorem BuiltinsHold.of_same (h : BuiltinsHold doubles state before) {after : BuiltinRuntime Number}
    {expected : Name → Option (StoredValue Number)} (htexts : doubles.ScalarTexts after.runtime)
    (hconvfmt : after.convfmt = before.builtins.convfmt)
    (hexpected : ∀ name value, expected name = some value → before.expected name = some value)
    (hvalue : ∀ name ∈ BUILTIN_SCALARS, name ∉ COUNTERS → expected name ≠ none →
      after.runtime.value name = before.builtins.runtime.value name)
    (hcounters : ∀ name ∈ COUNTERS, expected name ≠ none →
      numeric_read doubles after name = numeric_read doubles before.builtins name)
    (hfilename : expected "FILENAME" ≠ none → after.current_filename = before.builtins.current_filename) :
    BuiltinsHold doubles state ⟨after, expected⟩ := by
  constructor
  · exact htexts
  · intro name hname hcounter value hsome
    rw [← h.scalars name hname hcounter value (hexpected name value hsome)]
    exact hvalue name hname hcounter (Option.ne_none_iff_exists'.mpr ⟨value, hsome⟩)
  · intro name hcounter value hsome
    rw [hconvfmt, hcounters name hcounter (Option.ne_none_iff_exists'.mpr ⟨value, hsome⟩)]
    exact h.counters name hcounter value (hexpected name value hsome)
  · intro value hsome
    unfold LooksLikeFilename
    rw [hconvfmt, hfilename (Option.ne_none_iff_exists'.mpr ⟨value, hsome⟩)]
    exact h.filename value (hexpected _ value hsome)

theorem BuiltinsHold.string_view (h : BuiltinsHold doubles state before) (name : Name) :
    BuiltinsHold doubles state
      ⟨{ before.builtins with runtime := (doubles.qk_scalar_string_view before.builtins.runtime name).2 },
        before.expected⟩ := by
  refine h.of_same (fun other => Doubles.KeepsText.string_view doubles.toDoubles (h.texts other) name) ?_
    (fun _ _ => id) (fun other _ _ _ => ?_)
    (fun counter _ _ => ?_) fun _ => rfl
  · unfold BuiltinRuntime.convfmt
    rw [Doubles.qk_scalar_string_view_value]
  · exact Doubles.qk_scalar_string_view_value ..
  · unfold numeric_read Doubles.qk_scalar_get_number
    rw [Doubles.qk_scalar_string_view_value, Doubles.qk_scalar_string_view_record]

/-- An operation that stores no value changes at most the variables that the runtime updates by it. -/
theorem apply_updates (doubles : ComputingDoubles Number) (runtime : RuntimeState Number) {operation : RuntimeOperation Number}
    (hstored : operation.stored runtime = none) :
    (∀ other ∉ operation.updates, (doubles.apply runtime operation).value other = runtime.value other) ∧
      ("NF" ∉ operation.updates → (doubles.apply runtime operation).record.fields = runtime.record.fields) := by
  cases operation with
  | scalar_set_string | scalar_set_number | scalar_copy => cases hstored
  | scalar_get name =>
    exact ⟨fun other _ => Doubles.qk_scalar_string_view_value .., fun _ =>
      congrArg _ (Doubles.qk_scalar_string_view_record ..)⟩
  | slot_set_string slot_index value =>
    simp only [Doubles.apply, Doubles.qk_slot_set_string]
    split_ifs <;> exact ⟨fun _ _ => rfl, fun _ => rfl⟩
  | slot_set_number slot_index value =>
    simp only [Doubles.apply, qk_slot_set_number]
    split_ifs <;> exact ⟨fun _ _ => rfl, fun _ => rfl⟩
  | slot_get_string slot_index =>
    simp only [Doubles.apply, Doubles.qk_slot_get_string]
    split_ifs
    · exact ⟨fun _ _ => rfl, fun _ => rfl⟩
    · split <;> exact ⟨fun _ _ => rfl, fun _ => rfl⟩
  | set_field_string index value =>
    refine ⟨fun other hother => ?_, fun hnf => absurd (List.mem_singleton_self _) hnf⟩
    simp only [Doubles.apply, Doubles.qk_set_field_string]
    split_ifs
    · rfl
    · exact (Doubles.qk_rebuild_current_record_rest _ _ _ _ _).1 other (List.ne_of_not_mem_cons hother)
  | set_field_number index value =>
    refine ⟨fun other hother => ?_, fun hnf => absurd (List.mem_singleton_self _) hnf⟩
    simp only [Doubles.apply, Doubles.qk_set_field_number, Doubles.qk_set_field_string]
    split_ifs
    · rfl
    · exact (Doubles.qk_rebuild_current_record_rest _ _ _ _ _).1 other (List.ne_of_not_mem_cons hother)
  | read_record line =>
    exact ⟨fun other hother => Doubles.store_field_count_value _ (List.ne_of_not_mem_cons hother), fun hnf =>
      absurd (List.mem_singleton_self _) hnf⟩
  | match_text start length =>
    refine ⟨fun other hother => ?_, fun _ => by simp [Doubles.apply, Doubles.qk_match, qk_scalar_set_number_value]⟩
    simp only [RuntimeOperation.updates, List.mem_cons, List.not_mem_nil, or_false, not_or] at hother
    simp [Doubles.apply, Doubles.qk_match, qk_scalar_set_number_value, store_entry_value, hother]

theorem convfmt_not_updated (operation : RuntimeOperation Number) : "CONVFMT" ∉ operation.updates := by
  cases operation <;> simp [RuntimeOperation.updates]

theorem BuiltinsHold.operation (h : BuiltinsHold doubles state before) {operation : RuntimeOperation Number}
    (hkeeps : KeepsBuiltins doubles state before (.operation operation)) :
    BuiltinsHold doubles state (builtin_step doubles state before (.operation operation)) := by
  dsimp only [builtin_step]
  cases hstored : operation.stored before.builtins.runtime with
  | some stored =>
    obtain ⟨name, value⟩ := stored
    dsimp only
    rw [doubles.apply_stored before.builtins.runtime name hstored]
    exact h.store (hkeeps name value hstored) fun _ _ => rfl
  | none =>
    dsimp only
    obtain ⟨hvalue, hfields⟩ := apply_updates doubles before.builtins.runtime hstored
    have htexts : doubles.ScalarTexts (doubles.apply before.builtins.runtime operation) :=
      (Doubles.apply_scalar_texts doubles.toDoubles (fun value heq => by rw [hstored] at heq; cases heq) h.texts).1
    refine h.of_same htexts ?_ (fun name value hsome => ?_) (fun name _ _ hsome => ?_) (fun counter hcounter hsome => ?_)
      fun _ => rfl
    · unfold BuiltinRuntime.convfmt
      rw [hvalue "CONVFMT" (convfmt_not_updated operation)]
    · split_ifs at hsome
      exact hsome
    · exact hvalue name fun hupdated => hsome (if_pos hupdated)
    · simp only [COUNTERS, List.mem_cons, List.not_mem_nil, or_false] at hcounter
      rcases hcounter with rfl | rfl | rfl
      · rfl
      · rfl
      · change doubles.of_int (doubles.apply before.builtins.runtime operation).record.fields.length = _
        rw [hfields fun hupdated => hsome (if_pos hupdated)]
        rfl

theorem BuiltinsHold.open_input (h : BuiltinsHold doubles state before) (path : Text) :
    BuiltinsHold doubles state (builtin_step doubles state before (.open_input path)) := by
  refine h.of_same h.texts rfl (fun name value hsome => ?_) (fun _ _ _ _ => rfl) (fun counter _ hsome => ?_)
    fun hsome => absurd (if_pos (.inr rfl)) hsome
  · split_ifs at hsome
    exact hsome
  · have hfnr : counter ≠ "FNR" := fun heq => hsome (if_pos (.inl heq))
    simp [numeric_read, BuiltinRuntime.open_input, hfnr]

/-- `NR` and `FNR` count on. -/
theorem BuiltinsHold.count_record (h : BuiltinsHold doubles state before)
    (hkeeps : KeepsBuiltins doubles state before .count_record) :
    BuiltinsHold doubles state (builtin_step doubles state before .count_record) := by
  have hof_ne {name : Name} (hname : ¬ (name = "NR" ∨ name = "FNR")) :
      (builtin_step doubles state before .count_record).expected name = before.expected name := if_neg hname
  constructor
  · exact h.texts
  · intro name hname hcounter value hsome
    rw [hof_ne fun hcounted => hcounter (by rcases hcounted with rfl | rfl <;> decide)] at hsome
    exact h.scalars name hname hcounter value hsome
  · intro counter hcounter value hsome
    by_cases hcounted : counter = "NR" ∨ counter = "FNR"
    · have hbefore : (before.expected counter).map (counted doubles) = some value := by
        rw [← hsome]
        exact (if_pos hcounted).symm
      obtain ⟨value', hexpected, rfl⟩ := Option.map_eq_some_iff.mp hbefore
      have hlike := hkeeps counter hcounted (hexpected ▸ Option.some_ne_none value')
      have hread : numeric_read doubles (before.builtins.count_record doubles) counter =
          doubles.count_on (numeric_read doubles before.builtins counter) := by
        rcases hcounted with rfl | rfl <;> rfl
      change LooksLike doubles state _ counter (.number (doubles.count_on (doubles.number_of value')))
        (numeric_read doubles (before.builtins.count_record doubles) counter)
      rw [hread, (h.counters counter hcounter value' hexpected).number]
      exact hlike
    · rw [hof_ne hcounted] at hsome
      have hread : numeric_read doubles (before.builtins.count_record doubles) counter =
          numeric_read doubles before.builtins counter := by
        rw [not_or] at hcounted
        simp [numeric_read, BuiltinRuntime.count_record, hcounted]
      change LooksLike doubles state _ counter value (numeric_read doubles (before.builtins.count_record doubles) counter)
      rw [hread]
      exact h.counters counter hcounter value hsome
  · intro value hsome
    rw [hof_ne (by decide)] at hsome
    exact h.filename value hsome

theorem BuiltinsHold.write (hplain : PlainBuiltins state) (h : BuiltinsHold doubles state before) {name : BuiltinName}
    {write : BuiltinWrite Number} (hkeeps : KeepsBuiltins doubles state before (.write name write)) :
    BuiltinsHold doubles state (builtin_step doubles state before (.write name write)) := by
  have hrun := @run_write _ doubles _ _ before.builtins hplain name.2 write
  dsimp only [builtin_step]
  cases hactual : write.value doubles state name before.builtins
      (doubles.qk_scalar_get_number before.builtins.runtime name) with
  | none =>
    rw [hactual] at hrun
    dsimp only at hrun
    rw [hrun]
    exact h
  | some actual =>
    rw [hactual] at hrun
    obtain ⟨after, hcode, hafter⟩ := hrun
    rw [hcode]
    dsimp only
    obtain ⟨intended, hintended⟩ : ∃ intended, write.value doubles state name before.builtins
        (numeric_read doubles before.builtins name) = some intended := by
      cases write <;> first | exact ⟨_, rfl⟩ | exact ⟨actual, hactual⟩
    have hsame : (name : Name) ∈ BUILTIN_SCALARS → (name : Name) ∉ COUNTERS → actual = intended := by
      intro _ hcounter
      rw [numeric_read_of_scalar hcounter, hactual] at hintended
      exact Option.some.inj hintended
    have hstored := h.store (hkeeps actual intended hactual hintended) hsame
    rw [hintended]
    rcases hafter with rfl | rfl
    · exact hstored
    · exact hstored.string_view name

theorem BuiltinsHold.step (hplain : PlainBuiltins state) (h : BuiltinsHold doubles state before)
    {step : BuiltinStep Number} (hkeeps : KeepsBuiltins doubles state before step) :
    BuiltinsHold doubles state (builtin_step doubles state before step) := by
  cases step with
  | write name write => exact h.write hplain hkeeps
  | operation operation => exact h.operation hkeeps
  | open_input path => exact h.open_input path
  | count_record => exact h.count_record hkeeps

end Keeping

/-- The runtime at the start, where no write is expected to be read. -/
def initial_builtins (doubles : ComputingDoubles Number) (argc : Nat) (field_separator : Option Text) :
    ExpectedBuiltins Number :=
  ⟨⟨ doubles.qk_runtime_initialize argc field_separator, doubles.of_int 0, doubles.of_int 0, none⟩, fun _ => none⟩

theorem initial_builtins_hold (doubles : ComputingDoubles Number) (state : LoweringState) (argc : Nat)
    (field_separator : Option Text) : BuiltinsHold doubles state (initial_builtins doubles argc field_separator) := by
  have htexts := Doubles.initial_texts doubles.toDoubles argc field_separator
  constructor
  · exact ((Doubles.textsAgree_iff doubles.toDoubles htexts.hold).mp htexts.agree).1
  · intro name _ _ value hexpected
    cases hexpected
  · intro name _ value hexpected
    cases hexpected
  · intro value hexpected
    cases hexpected

/-- In every run whose steps keep the builtin variables, each of them is read in every context as the value that was
last written, until the runtime updates it; and `NR` and `FNR` count on from there. -/
theorem builtins_coherent (doubles : ComputingDoubles Number) {state : LoweringState} (hplain : PlainBuiltins state)
    (keys : Name → Option Text) (argc : Nat) (field_separator : Option Text) (steps : List (BuiltinStep Number))
    (h : OperationRun.Every (builtin_step doubles state) (KeepsBuiltins doubles state)
      (initial_builtins doubles argc field_separator) steps) :
    BuiltinsCoherent doubles state keys
      (OperationRun.run (builtin_step doubles state) (initial_builtins doubles argc field_separator) steps) :=
  (h.run (initial_builtins_hold doubles state argc field_separator) fun _ _ hold hkeeps =>
    BuiltinsHold.step hplain hold hkeeps).coherent hplain

/-- Rationals with the instructions on them; powers are whole. -/
def computing_rational : ComputingDoubles Rat :=
  { Doubles.rational with
    arithmetic := fun op left right =>
      match op with
      | .fadd => left + right
      | .fsub => left - right
      | .fmul => left * right
      | .fdiv => left / right
      | .llvm_pow => left ^ right.num
      | _ => 0
    truncated := fun value => value.num.tdiv value.den
    differ := fun left right => decide (left ≠ right) }

theorem plain_no_variables : PlainBuiltins no_variables := ⟨fun _ _ => rfl, fun _ _ => rfl⟩

/-- A number looks like itself, unless the truth of the counter is that of its text. -/
theorem LooksLike.self {Number : Type} {doubles : ComputingDoubles Number} {state : LoweringState} {name : Name}
    (h : runtime_name_is_inferred_string state name = false) (format : Text) (count : Number) :
    LooksLike doubles state format name (.number count) count :=
  ⟨rfl, rfl, by rw [h]; rfl⟩

/-- A variable that is read from the scalar table, other than `CONVFMT`, may be given any value. -/
theorem KeepsStore.of_scalar {Number : Type} {doubles : ComputingDoubles Number} {state : LoweringState}
    {before : ExpectedBuiltins Number} {name : Name} {actual intended : StoredValue Number} (hcounter : name ∉ COUNTERS)
    (hfilename : name ≠ "FILENAME") (hconvfmt : name ≠ "CONVFMT") :
    KeepsStore doubles state before name actual intended := by
  simp only [COUNTERS, List.mem_cons, List.not_mem_nil, or_false, not_or] at hcounter
  constructor
  · rintro (hname | hname)
    · exact absurd hname hcounter.1
    · exact absurd hname hcounter.2.1
  · exact fun hname => absurd hname hcounter.2.2
  · exact fun hname => absurd hname hfilename
  all_goals exact fun hname => absurd hname hconvfmt

/-- `{ NR = 1; OFS = "-" }` on the first of two records. -/
theorem builtins_coherent_first_record :
    BuiltinsCoherent computing_rational no_variables (fun _ => none)
      (OperationRun.run (builtin_step computing_rational no_variables) (initial_builtins computing_rational 0 none)
        [.count_record, .write ⟨"NR", by decide⟩ (.assignment .plain ⟨.numeric_literal ['1'], 1, ['1']⟩),
          .write ⟨"OFS", by decide⟩ (.assignment .plain ⟨.string_literal ['-'], 0, ['-']⟩), .count_record]) := by
  refine builtins_coherent computing_rational plain_no_variables _ 0 none _ ⟨?_, ?_, ?_, ?_, trivial⟩
  · intro name _ hexpected
    exact absurd rfl hexpected
  · intro actual intended hactual hintended
    obtain rfl := Option.some.inj hactual
    obtain rfl := Option.some.inj hintended
    have hread : numeric_read computing_rational (builtin_step computing_rational no_variables
        (initial_builtins computing_rational 0 none) .count_record).builtins "NR" = 1 := by decide +kernel
    constructor
    · intro _
      change LooksLike computing_rational no_variables _ "NR" (.number 1) (numeric_read computing_rational _ "NR")
      rw [hread]
      refine LooksLike.self ?_ _ _
      rfl
    all_goals
      intro hname
      exact absurd hname (by decide)
  · intro actual intended _ _
    exact KeepsStore.of_scalar (by decide) (by decide) (by decide)
  · intro name _ _
    refine LooksLike.self ?_ _ _
    rfl

/-- `{ NR = 10; print NR }` prints `1` for the first record, and a `FILENAME` that was set is not read. -/
theorem builtins_incoherent :
    ¬ BuiltinsCoherent computing_rational no_variables (fun _ => none)
      (OperationRun.run (builtin_step computing_rational no_variables) (initial_builtins computing_rational 0 none)
        [.count_record, .write ⟨"NR", by decide⟩ (.assignment .plain ⟨.numeric_literal ['1', '0'], 10, ['1', '0']⟩)]) ∧
    ¬ BuiltinsCoherent computing_rational no_variables (fun _ => none)
      (OperationRun.run (builtin_step computing_rational no_variables) (initial_builtins computing_rational 0 none)
        [.open_input ['f'], .write ⟨"FILENAME", by decide⟩ (.string_result ['x'])]) := by
  constructor
  · intro h
    obtain ⟨after, hread⟩ := (h "NR" (by decide) (.number 10) rfl).numeric
    have hrun := (run_numeric plain_no_variables (by decide : "NR" ∈ BUILTIN_SCALARS)).symm.trans hread
    have hcount := (Prod.mk.inj (Option.some.inj hrun)).1
    revert hcount
    decide +kernel
  · intro h
    obtain ⟨after, hread⟩ := (h "FILENAME" (by decide) (.string ['x']) rfl).string
    have hrun := (@run_string _ _ _ "FILENAME" (fun _ => none) _ plain_no_variables (by decide)).symm.trans hread
    have htext := (Prod.mk.inj (Option.some.inj hrun)).1
    revert htext
    decide

end quawk
