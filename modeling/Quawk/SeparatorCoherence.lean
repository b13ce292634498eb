import Quawk.RuntimeScalars

namespace quawk

variable {Number : Type} (doubles : Doubles Number) {runtime : RuntimeState Number}

/-- The format a value of `CONVFMT` stands for. -/
def StoredValue.format (value : StoredValue Number) : Text := value.variable_text QK_DEFAULT_CONVFMT

/-- The entry a value is stored as. -/
def StoredValue.entry : StoredValue Number → ScalarEntry Number
  | .unset => .unset
  | .number value => .number value none
  | .string text => .string text

namespace Doubles

/-- The separators in use are those the current texts of `FS` and `RS` stand for. -/
def SeparatorsAgree (runtime : RuntimeState Number) : Prop :=
  runtime.record.field_separator = qk_update_field_separator (doubles.string_value runtime "FS") ∧
  runtime.record_separator = qk_update_record_separator (doubles.string_value runtime "RS")

/-- An unset scalar is copied into `FS` or `RS` only where the default separator is in use anyway, and a value given
to `CONVFMT` leaves the separator of an `FS` or `RS` that holds a number what it is. -/
def KeepsSeparators (runtime : RuntimeState Number) (operation : RuntimeOperation Number) : Prop :=
  ∀ name value, operation.stored runtime = some (name, value) →
    (name = "FS" → value = .unset → runtime.record.field_separator = []) ∧
    (name = "RS" → value = .unset → runtime.record_separator = '\n') ∧
    (name = "CONVFMT" → ∀ number, runtime.value "FS" = .number number →
      qk_update_field_separator (doubles.qk_format_number_with_text number value.format) =
        runtime.record.field_separator) ∧
    (name = "CONVFMT" → ∀ number, runtime.value "RS" = .number number →
      qk_update_record_separator (doubles.qk_format_number_with_text number value.format) = runtime.record_separator)

theorem store_field_count_value {other : Name} (h : other ≠ "NF") :
    (doubles.store_field_count runtime).value other = runtime.value other := by
  rw [store_field_count, qk_scalar_set_number_value, store_entry_value, if_neg h]

theorem store_field_count_separators :
    (doubles.store_field_count runtime).record.field_separator = runtime.record.field_separator ∧
    (doubles.store_field_count runtime).record_separator = runtime.record_separator := by
  simp [store_field_count, qk_scalar_set_number_value]

theorem rebuilt_field_separator (record : RecordState) (target_fields : Nat) (index : Int) (value : Text) :
    (quawk.qk_rebuild_current_record record target_fields index value).field_separator = record.field_separator := by
  unfold quawk.qk_rebuild_current_record
  by_cases hindex : index = 0
  · rw [if_pos hindex]
    rfl
  · rw [if_neg hindex]
    split <;> rfl

/-- Rebuilding the record changes no scalar but `NF`, and no separator. -/
theorem qk_rebuild_current_record_rest (runtime : RuntimeState Number) (target_fields : Nat) (index : Int) (value : Text) :
    (∀ other, other ≠ "NF" →
      (doubles.qk_rebuild_current_record runtime target_fields index value).value other = runtime.value other) ∧
    (doubles.qk_rebuild_current_record runtime target_fields index value).record.field_separator =
      runtime.record.field_separator ∧
    (doubles.qk_rebuild_current_record runtime target_fields index value).record_separator =
      runtime.record_separator := by
  unfold Doubles.qk_rebuild_current_record
  split_ifs
  · exact ⟨fun other hother => doubles.store_field_count_value hother, doubles.store_field_count_separators⟩
  · exact ⟨fun _ _ => rfl, rfl, rfl⟩
  · refine ⟨fun other hother => doubles.store_field_count_value hother, ?_, doubles.store_field_count_separators.2⟩
    exact doubles.store_field_count_separators.1.trans (rebuilt_field_separator ..)

theorem side_effects_value (name : Name) {other : Name} (h : other ≠ "NF") :
    (doubles.qk_apply_scalar_side_effects runtime name).value other = runtime.value other := by
  by_cases hnf : name = "NF"
  · rw [hnf, side_effects_nf]
    split_ifs
    · rfl
    · rw [store_field_count_value doubles h, (doubles.qk_rebuild_current_record_rest _ _ _ _).1 other h]
  · exact (doubles.side_effects_of_ne runtime hnf).1 other

theorem side_effects_separators (name : Name) :
    (doubles.qk_apply_scalar_side_effects runtime name).record.field_separator =
      (if name = "FS" then qk_update_field_separator (doubles.qk_scalar_string_view runtime "FS").1
        else runtime.record.field_separator) ∧
    (doubles.qk_apply_scalar_side_effects runtime name).record_separator =
      (if name = "RS" then qk_update_record_separator (doubles.qk_scalar_string_view runtime "RS").1
        else runtime.record_separator) := by
  by_cases hnf : name = "NF"
  · rw [hnf, side_effects_nf, if_neg (by decide : ¬ ("NF" : Name) = "FS"), if_neg (by decide : ¬ ("NF" : Name) = "RS")]
    split_ifs
    · exact ⟨rfl, rfl⟩
    · obtain ⟨_, hfield, hrecord⟩ := doubles.qk_rebuild_current_record_rest runtime
        (doubles.to_int64 (doubles.qk_scalar_get_number runtime "NF")).toNat (-1) []
      exact ⟨doubles.store_field_count_separators.1.trans hfield, doubles.store_field_count_separators.2.trans hrecord⟩
  · unfold qk_apply_scalar_side_effects
    by_cases hfs : name = "FS"
    · subst hfs
      exact ⟨rfl, by simp⟩
    · by_cases hrs : name = "RS"
      · subst hrs
        exact ⟨by simp, rfl⟩
      · simp only [if_neg hfs, if_neg hrs, if_neg hnf]
        exact ⟨trivial, trivial⟩

theorem store_of_set (name : Name) {value : StoredValue Number} (h : value ≠ .unset) :
    doubles.store runtime name value =
      doubles.qk_apply_scalar_side_effects (store_entry runtime name value.entry) name := by
  cases value with
  | unset => exact absurd rfl h
  | number | string => rfl

theorem entry_value (value : StoredValue Number) : value.entry.value = value := by cases value <;> rfl

/-- A scalar other than `NF` holds what it was given last. -/
theorem store_value (name : Name) (value : StoredValue Number) {other : Name} (h : other ≠ "NF") :
    (doubles.store runtime name value).value other = if other = name then value else runtime.value other := by
  by_cases hset : value = .unset
  · rw [hset]
    exact qk_clear_scalar_value runtime name other
  · rw [store_of_set doubles name hset, side_effects_value doubles name h, store_entry_value, entry_value]

/-- The text read back from a scalar that was just given a value: nothing is cached yet. -/
theorem string_view_stored {name : Name} (hname : name ≠ "CONVFMT") (value : StoredValue Number) :
    (doubles.qk_scalar_string_view (store_entry runtime name value.entry) name).1 =
      doubles.text_of (runtime.value "CONVFMT").format value := by
  have hfind : (store_entry runtime name value.entry).scalars.find name = some value.entry := by
    rw [store_entry_scalars, if_neg hname, LinkedTable.find_put_self]
  have hconvfmt : (store_entry runtime name value.entry).value "CONVFMT" = runtime.value "CONVFMT" := by
    rw [store_entry_value, if_neg (Ne.symm hname)]
  unfold qk_scalar_string_view
  rw [hfind]
  cases value with
  | unset | string => rfl
  | number value =>
    change doubles.qk_format_number _ value = _
    rw [qk_format_number, hconvfmt]
    rfl

theorem store_field_separator_of_ne {name : Name} (h : name ≠ "FS") (value : StoredValue Number) :
    (doubles.store runtime name value).record.field_separator = runtime.record.field_separator := by
  by_cases hset : value = .unset
  · rw [hset]
    rfl
  · rw [store_of_set doubles name hset, (doubles.side_effects_separators name).1, if_neg h, store_entry_record]

theorem store_record_separator_of_ne {name : Name} (h : name ≠ "RS") (value : StoredValue Number) :
    (doubles.store runtime name value).record_separator = runtime.record_separator := by
  by_cases hset : value = .unset
  · rw [hset]
    rfl
  · rw [store_of_set doubles name hset, (doubles.side_effects_separators name).2, if_neg h,
      store_entry_record_separator]

theorem store_fs_separator {value : StoredValue Number} (h : value ≠ .unset) :
    (doubles.store runtime "FS" value).record.field_separator =
      qk_update_field_separator (doubles.text_of (runtime.value "CONVFMT").format value) := by
  rw [store_of_set doubles "FS" h, (doubles.side_effects_separators "FS").1, if_pos rfl,
    string_view_stored doubles (by decide)]

theorem store_rs_separator {value : StoredValue Number} (h : value ≠ .unset) :
    (doubles.store runtime "RS" value).record_separator =
      qk_update_record_separator (doubles.text_of (runtime.value "CONVFMT").format value) := by
  rw [store_of_set doubles "RS" h, (doubles.side_effects_separators "RS").2, if_pos rfl,
    string_view_stored doubles (by decide)]

theorem SeparatorsAgree.of_eq {after : RuntimeState Number} (h : doubles.SeparatorsAgree runtime)
    (hvalue : ∀ other, other ≠ "NF" → after.value other = runtime.value other)
    (hfield : after.record.field_separator = runtime.record.field_separator)
    (hrecord : after.record_separator = runtime.record_separator) : doubles.SeparatorsAgree after := by
  unfold SeparatorsAgree string_value at *
  rw [hvalue "CONVFMT" (by decide), hvalue "FS" (by decide), hvalue "RS" (by decide), hfield, hrecord]
  exact h

theorem apply_separators_of_not_stored (h : doubles.SeparatorsAgree runtime) {operation : RuntimeOperation Number}
    (hstored : operation.stored runtime = none) : doubles.SeparatorsAgree (doubles.apply runtime operation) := by
  cases operation with
  | scalar_set_string | scalar_set_number | scalar_copy => cases hstored
  | scalar_get name =>
    exact h.of_eq doubles (fun other _ => doubles.qk_scalar_string_view_value runtime name other) (by simp [apply])
      (by simp [apply])
  | slot_set_string slot_index value =>
    simp only [apply, qk_slot_set_string]
    split_ifs <;> exact h
  | slot_set_number slot_index value =>
    simp only [apply, qk_slot_set_number]
    split_ifs <;> exact h
  | slot_get_string slot_index =>
    simp only [apply, qk_slot_get_string]
    split_ifs
    · exact h
    · split <;> exact h
  | set_field_string index value =>
    simp only [apply, Doubles.qk_set_field_string]
    split_ifs
    · exact h
    · obtain ⟨hvalue, hfield, hrecord⟩ := doubles.qk_rebuild_current_record_rest runtime
        (qk_get_nf runtime.record) index value
      exact h.of_eq doubles hvalue hfield hrecord
  | set_field_number index value =>
    simp only [apply, Doubles.qk_set_field_number, Doubles.qk_set_field_string]
    split_ifs
    · exact h
    · obtain ⟨hvalue, hfield, hrecord⟩ := doubles.qk_rebuild_current_record_rest runtime
        (qk_get_nf runtime.record) index (doubles.qk_format_number runtime value)
      exact h.of_eq doubles hvalue hfield hrecord
  | read_record line =>
    exact h.of_eq doubles (fun other hother => doubles.store_field_count_value hother)
      (doubles.store_field_count_separators.1.trans rfl) (doubles.store_field_count_separators.2.trans rfl)
  | match_text start length =>
    have hother : ∀ other, other = "FS" ∨ other = "RS" ∨ other = "CONVFMT" →
        (doubles.apply runtime (.match_text start length)).value other = runtime.value other := by
      rintro other (rfl | rfl | rfl) <;> simp [apply, qk_match, qk_scalar_set_number_value, store_entry_value]
    unfold SeparatorsAgree string_value at *
    rw [hother "CONVFMT" (by simp), hother "FS" (by simp), hother "RS" (by simp)]
    simp only [apply, qk_match, qk_scalar_set_number_value, store_entry_record, store_entry_record_separator]
    exact h

/-- The agreement after a value is stored, in terms of the values before. -/
theorem separators_agree_store (name : Name) (value : StoredValue Number) : doubles.SeparatorsAgree (doubles.store runtime name value) ↔
    (doubles.store runtime name value).record.field_separator =
      qk_update_field_separator (doubles.text_of
        (if "CONVFMT" = name then value else runtime.value "CONVFMT").format
        (if "FS" = name then value else runtime.value "FS")) ∧
    (doubles.store runtime name value).record_separator =
      qk_update_record_separator (doubles.text_of
        (if "CONVFMT" = name then value else runtime.value "CONVFMT").format
        (if "RS" = name then value else runtime.value "RS")) := by
  unfold SeparatorsAgree string_value
  rw [store_value doubles _ _ (by decide), store_value doubles _ _ (by decide), store_value doubles _ _ (by decide)]
  rfl

section Stored

variable (h : doubles.SeparatorsAgree runtime) (value : StoredValue Number)
include h

theorem store_fs_agrees : doubles.SeparatorsAgree (doubles.store runtime "FS" value) ↔
    (value = .unset → runtime.record.field_separator = []) := by
  rw [separators_agree_store doubles, store_record_separator_of_ne doubles (by decide)]
  simp only [String.reduceEq, if_false, if_true]
  by_cases hset : value = .unset
  · subst hset
    exact ⟨fun hagrees _ => hagrees.1, fun hdefault => ⟨hdefault rfl, h.2⟩⟩
  · rw [store_fs_separator doubles hset]
    exact ⟨fun _ hunset => absurd hunset hset, fun _ => ⟨rfl, h.2⟩⟩

theorem store_rs_agrees : doubles.SeparatorsAgree (doubles.store runtime "RS" value) ↔
    (value = .unset → runtime.record_separator = '\n') := by
  rw [separators_agree_store doubles, store_field_separator_of_ne doubles (by decide)]
  simp only [String.reduceEq, if_false, if_true]
  by_cases hset : value = .unset
  · subst hset
    exact ⟨fun hagrees _ => hagrees.2, fun hdefault => ⟨h.1, hdefault rfl⟩⟩
  · rw [store_rs_separator doubles hset]
    exact ⟨fun _ hunset => absurd hunset hset, fun _ => ⟨h.1, rfl⟩⟩

theorem store_convfmt_agrees : doubles.SeparatorsAgree (doubles.store runtime "CONVFMT" value) ↔
    (∀ number, runtime.value "FS" = .number number →
      qk_update_field_separator (doubles.qk_format_number_with_text number value.format) =
        runtime.record.field_separator) ∧
    (∀ number, runtime.value "RS" = .number number →
      qk_update_record_separator (doubles.qk_format_number_with_text number value.format) =
        runtime.record_separator) := by
  rw [separators_agree_store doubles, store_field_separator_of_ne doubles (by decide),
    store_record_separator_of_ne doubles (by decide)]
  simp only [String.reduceEq, if_false, if_true]
  obtain ⟨hfield, hrecord⟩ := h
  unfold string_value at hfield hrecord
  refine and_congr ?_ ?_
  · cases hfs : runtime.value "FS" with
    | unset | string =>
      rw [hfs] at hfield
      exact iff_of_true hfield fun _ heq => nomatch heq
    | number number =>
      simp only [StoredValue.number.injEq, forall_eq', text_of]
      exact eq_comm
  · cases hrs : runtime.value "RS" with
    | unset | string =>
      rw [hrs] at hrecord
      exact iff_of_true hrecord fun _ heq => nomatch heq
    | number number =>
      simp only [StoredValue.number.injEq, forall_eq', text_of]
      exact eq_comm

theorem store_other_agrees {name : Name} (hfs : name ≠ "FS") (hrs : name ≠ "RS") (hconvfmt : name ≠ "CONVFMT") :
    doubles.SeparatorsAgree (doubles.store runtime name value) := by
  rw [separators_agree_store doubles, store_field_separator_of_ne doubles hfs,
    store_record_separator_of_ne doubles hrs, if_neg (Ne.symm hconvfmt), if_neg (Ne.symm hfs), if_neg (Ne.symm hrs)]
  exact h

end Stored

theorem separators_agree_iff_keeps (h : doubles.SeparatorsAgree runtime) (operation : RuntimeOperation Number) :
    doubles.SeparatorsAgree (doubles.apply runtime operation) ↔ doubles.KeepsSeparators runtime operation := by
  cases hstored : operation.stored runtime with
  | none =>
    refine iff_of_true (doubles.apply_separators_of_not_stored h hstored) fun name value hsome => ?_
    rw [hstored] at hsome
    cases hsome
  | some stored =>
    obtain ⟨name, value⟩ := stored
    rw [doubles.apply_stored runtime name hstored]
    unfold KeepsSeparators
    simp only [hstored, Option.some.injEq, Prod.mk.injEq, and_imp, forall_apply_eq_imp_iff, forall_eq']
    by_cases hfs : name = "FS"
    · subst hfs
      simp [store_fs_agrees doubles h value]
    · by_cases hrs : name = "RS"
      · subst hrs
        simp [store_rs_agrees doubles h value]
      · by_cases hconvfmt : name = "CONVFMT"
        · subst hconvfmt
          simp [store_convfmt_agrees doubles h value]
        · simp [hfs, hrs, hconvfmt, store_other_agrees doubles h value hfs hrs hconvfmt]

theorem initial_separators (argc : Nat) (field_separator : Option Text) :
    doubles.SeparatorsAgree ( doubles.qk_runtime_initialize argc field_separator) := by
  obtain ⟨hfs, hrs⟩ := doubles.initial_value argc field_separator
  unfold SeparatorsAgree string_value
  rw [hfs, hrs]
  exact ⟨rfl, rfl⟩

/-- In every run, the separators in use are the ones of the current `FS` and `RS` after each operation exactly if no
unset scalar is copied into `FS` or `RS` while another separator than the default is in use, and no value given to
`CONVFMT` changes the separator a number in `FS` or `RS` stands for. -/
theorem separators_agree_iff (argc : Nat) (field_separator : Option Text)
    (operations : List (RuntimeOperation Number)) :
    OperationRun.Every doubles.apply (fun runtime operation => doubles.SeparatorsAgree (doubles.apply runtime operation))
        ( doubles.qk_runtime_initialize argc field_separator) operations ↔
      OperationRun.Every doubles.apply doubles.KeepsSeparators ( doubles.qk_runtime_initialize argc field_separator)
        operations :=
  OperationRun.every_iff (doubles.initial_separators argc field_separator)
    (fun _ operation h => doubles.separators_agree_iff_keeps h operation) (fun _ _ _ hlaw => hlaw) operations

/-- `FS = ","; FS = unset` goes on splitting at commas, and so do `RS` and an `FS` whose number `CONVFMT` writes
differently now. -/
theorem separators_disagree :
    ¬ OperationRun.Every rational.apply
        (fun runtime operation => rational.SeparatorsAgree (rational.apply runtime operation))
        ( rational.qk_runtime_initialize 0 none)
        [.scalar_set_string "FS" [','], .scalar_copy "FS" "unset"] ∧
    ¬ OperationRun.Every rational.apply
        (fun runtime operation => rational.SeparatorsAgree (rational.apply runtime operation))
        ( rational.qk_runtime_initialize 0 none)
        [.scalar_set_number "FS" 1, .scalar_set_string "CONVFMT" ['%', '.', '1', 'f']] := by
  constructor
  · rintro ⟨hcomma, hunset, _⟩
    have hcopied : (rational.apply ( rational.qk_runtime_initialize 0 none) (.scalar_set_string "FS" [','])).value "unset"
        = .unset := by
      rw [rational.apply_stored _ "FS" rfl, store_value rational _ _ (by decide), if_neg (by decide)]
      exact rational.initial_value_unset 0 none (by decide)
    have hdefault := ((rational.separators_agree_iff_keeps hcomma _).mp hunset "FS" .unset
      (by rw [RuntimeOperation.stored, hcopied])).1 rfl rfl
    rw [rational.apply_stored _ "FS" rfl, store_fs_separator rational (by simp)] at hdefault
    revert hdefault
    decide
  · rintro ⟨hone, hconvfmt, _⟩
    have hnumber : (rational.apply ( rational.qk_runtime_initialize 0 none) (.scalar_set_number "FS" 1)).value "FS"
        = .number 1 := by
      rw [rational.apply_stored _ "FS" rfl, store_value rational _ _ (by decide), if_pos rfl]
    have hkept := ((rational.separators_agree_iff_keeps hone _).mp hconvfmt "CONVFMT" _ rfl).2.2.1 rfl 1 hnumber
    have hseparator := hone.1
    unfold string_value at hseparator
    rw [hnumber] at hseparator
    rw [hseparator, rational.apply_stored _ "FS" rfl, store_value rational _ _ (by decide), if_neg (by decide)] at hkept
    revert hkept
    decide

end Doubles

end quawk
