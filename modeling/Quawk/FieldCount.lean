import Quawk.RuntimeScalars

namespace quawk

variable {Number : Type} (doubles : Doubles Number) {runtime : RuntimeState Number}

namespace Doubles

/-- `NF` holds the number of fields of the record. -/
def FieldCountAgrees (runtime : RuntimeState Number) : Prop :=
  doubles.qk_scalar_get_number runtime "NF" = doubles.of_int (qk_get_nf runtime.record)

/-- After an operation `NF` holds the number of fields, and one that gives `NF` a negative value changes neither the
record nor `NF`. -/
def FieldCountLaw (runtime : RuntimeState Number) (operation : RuntimeOperation Number) : Prop :=
  doubles.FieldCountAgrees (doubles.apply runtime operation) ∧
  ∀ value, operation.stored runtime = some ("NF", value) → doubles.to_int64 (doubles.number_of value) < 0 →
    (doubles.apply runtime operation).record = runtime.record ∧
    doubles.qk_scalar_get_number (doubles.apply runtime operation) "NF" = doubles.qk_scalar_get_number runtime "NF"

/-- `NF` is given no negative value, and the value of an unset scalar only when there are no fields. -/
def KeepsFieldCount (runtime : RuntimeState Number) (operation : RuntimeOperation Number) : Prop :=
  ∀ value, operation.stored runtime = some ("NF", value) →
    0 ≤ doubles.to_int64 (doubles.number_of value) ∧ (value = .unset → runtime.record.fields = [])

theorem store_field_count_agrees : doubles.FieldCountAgrees (doubles.store_field_count runtime) := by
  unfold FieldCountAgrees qk_scalar_get_number store_field_count qk_scalar_set_number_value
  rw [store_entry_value, if_pos rfl, store_entry_record]
  rfl

theorem FieldCountAgrees.of_eq {after : RuntimeState Number} (h : doubles.FieldCountAgrees runtime)
    (hvalue : after.value "NF" = runtime.value "NF") (hfields : after.record.fields = runtime.record.fields) :
    doubles.FieldCountAgrees after := by
  unfold FieldCountAgrees qk_scalar_get_number qk_get_nf at *
  rw [hvalue, hfields]
  exact h

theorem qk_rebuild_current_record_agrees (h : doubles.FieldCountAgrees runtime) (target_fields : Nat) (index : Int)
    (value : Text) : doubles.FieldCountAgrees (doubles.qk_rebuild_current_record runtime target_fields index value) := by
  unfold Doubles.qk_rebuild_current_record
  split_ifs
  · exact doubles.store_field_count_agrees
  · exact h
  · exact doubles.store_field_count_agrees

/-- A value given to a scalar other than `NF` does not change `NF` or the fields. -/
theorem store_of_ne {name : Name} (h : name ≠ "NF") (value : StoredValue Number) :
    (doubles.store runtime name value).value "NF" = runtime.value "NF" ∧
    (doubles.store runtime name value).record.fields = runtime.record.fields := by
  cases value with
  | unset => exact ⟨by rw [store, qk_clear_scalar_value, if_neg (Ne.symm h)], rfl⟩
  | number value =>
    obtain ⟨hvalue, hfields⟩ := doubles.side_effects_of_ne (qk_scalar_set_number_value runtime name value) h
    refine ⟨(hvalue "NF").trans ?_, hfields.trans (congrArg _ (store_entry_record ..))⟩
    rw [qk_scalar_set_number_value, store_entry_value, if_neg (Ne.symm h)]
  | string text =>
    obtain ⟨hvalue, hfields⟩ := doubles.side_effects_of_ne (qk_scalar_set_string_value runtime name text) h
    refine ⟨(hvalue "NF").trans ?_, hfields.trans (congrArg _ (store_entry_record ..))⟩
    rw [qk_scalar_set_string_value, store_entry_value, if_neg (Ne.symm h)]

/-- A negative value stays in `NF`, and nothing else happens. -/
theorem store_nf_negative {value : StoredValue Number} (h : doubles.to_int64 (doubles.number_of value) < 0) :
    (doubles.store runtime "NF" value).value "NF" = value ∧
    (doubles.store runtime "NF" value).record = runtime.record := by
  cases value with
  | unset => exact ⟨by rw [store, qk_clear_scalar_value, if_pos rfl], rfl⟩
  | number value =>
    have hvalue : (qk_scalar_set_number_value runtime "NF" value).value "NF" = .number value := by
      rw [qk_scalar_set_number_value, store_entry_value, if_pos rfl]
      rfl
    rw [store, qk_scalar_set_number, side_effects_nf, qk_scalar_get_number, hvalue, if_pos h]
    exact ⟨hvalue, store_entry_record ..⟩
  | string text =>
    have hvalue : (qk_scalar_set_string_value runtime "NF" text).value "NF" = .string text := by
      rw [qk_scalar_set_string_value, store_entry_value, if_pos rfl]
      rfl
    rw [store, qk_scalar_set_string, side_effects_nf, qk_scalar_get_number, hvalue, if_pos h]
    exact ⟨hvalue, store_entry_record ..⟩

/-- Any other value that is set is replaced by the field count. -/
theorem store_nf_agrees {value : StoredValue Number} (h : 0 ≤ doubles.to_int64 (doubles.number_of value))
    (hset : value = .unset → runtime.record.fields = []) :
    doubles.FieldCountAgrees (doubles.store runtime "NF" value) := by
  cases value with
  | unset =>
    unfold FieldCountAgrees qk_scalar_get_number
    rw [store, qk_clear_scalar_value, if_pos rfl]
    simp [number_of, qk_clear_scalar, qk_get_nf, hset rfl]
  | number value =>
    have hvalue : (qk_scalar_set_number_value runtime "NF" value).value "NF" = .number value := by
      rw [qk_scalar_set_number_value, store_entry_value, if_pos rfl]
      rfl
    rw [store, qk_scalar_set_number, side_effects_nf, qk_scalar_get_number, hvalue, if_neg (not_lt.mpr h)]
    exact doubles.store_field_count_agrees
  | string text =>
    have hvalue : (qk_scalar_set_string_value runtime "NF" text).value "NF" = .string text := by
      rw [qk_scalar_set_string_value, store_entry_value, if_pos rfl]
      rfl
    rw [store, qk_scalar_set_string, side_effects_nf, qk_scalar_get_number, hvalue, if_neg (not_lt.mpr h)]
    exact doubles.store_field_count_agrees

/-- An operation that gives `NF` no value keeps the agreement. -/
theorem apply_agrees_of_not_nf (h : doubles.FieldCountAgrees runtime) {operation : RuntimeOperation Number}
    (hnot : ∀ value, operation.stored runtime ≠ some ("NF", value)) :
    doubles.FieldCountAgrees (doubles.apply runtime operation) := by
  cases hstored : operation.stored runtime with
  | some stored =>
    obtain ⟨name, value⟩ := stored
    have hname : name ≠ "NF" := by
      rintro rfl
      exact hnot value hstored
    rw [doubles.apply_stored runtime name hstored]
    exact h.of_eq doubles (doubles.store_of_ne hname value).1 (doubles.store_of_ne hname value).2
  | none =>
    cases operation with
    | scalar_set_string | scalar_set_number | scalar_copy => cases hstored
    | scalar_get name =>
      exact h.of_eq doubles (doubles.qk_scalar_string_view_value runtime name "NF") (by simp [apply])
    | slot_set_string slot_index value =>
      simp only [apply, qk_slot_set_string]
      split_ifs <;> exact h
    | slot_set_number slot_index value =>
      simp only [apply, qk_slot_set_number]
      split_ifs <;> exact h
    | slot_get_string slot_index =>
      simp only [apply, qk_slot_get_string]
      split_ifs
      · exact h
      · split <;> exact h
    | set_field_string index value =>
      simp only [apply, Doubles.qk_set_field_string]
      split_ifs
      · exact h
      · exact doubles.qk_rebuild_current_record_agrees h _ index value
    | set_field_number index value =>
      simp only [apply, Doubles.qk_set_field_number, Doubles.qk_set_field_string]
      split_ifs
      · exact h
      · exact doubles.qk_rebuild_current_record_agrees h _ index _
    | read_record line => exact doubles.store_field_count_agrees
    | match_text start length =>
      refine h.of_eq doubles ?_ (by simp [apply, qk_match, qk_scalar_set_number_value])
      simp [apply, qk_match, qk_scalar_set_number_value, store_entry_value]

theorem field_count_law_iff (h : doubles.FieldCountAgrees runtime) (operation : RuntimeOperation Number) :
    doubles.FieldCountLaw runtime operation ↔ doubles.KeepsFieldCount runtime operation := by
  constructor
  · intro ⟨hagrees, _⟩ value hstored
    rw [doubles.apply_stored runtime "NF" hstored] at hagrees
    have hnonneg : 0 ≤ doubles.to_int64 (doubles.number_of value) := by
      by_contra hneg
      unfold FieldCountAgrees qk_scalar_get_number at hagrees
      rw [(doubles.store_nf_negative (not_le.mp hneg)).1] at hagrees
      exact hneg (hagrees ▸ doubles.of_count_nonneg _)
    refine ⟨hnonneg, ?_⟩
    rintro rfl
    unfold FieldCountAgrees qk_scalar_get_number store at hagrees
    rw [qk_clear_scalar_value, if_pos rfl] at hagrees
    exact List.length_eq_zero_iff.mp ((doubles.of_count_eq_zero _).mp hagrees.symm)
  · intro hkeeps
    constructor
    · by_cases hnf : ∃ value, operation.stored runtime = some ("NF", value)
      · obtain ⟨value, hstored⟩ := hnf
        rw [doubles.apply_stored runtime "NF" hstored]
        exact doubles.store_nf_agrees (hkeeps value hstored).1 (hkeeps value hstored).2
      · exact doubles.apply_agrees_of_not_nf h fun value hstored => hnf ⟨value, hstored⟩
    · intro value hstored hneg
      exact absurd (hkeeps value hstored).1 (not_le.mpr hneg)

theorem initial_field_count (argc : Nat) (field_separator : Option Text) :
    doubles.FieldCountAgrees ( doubles.qk_runtime_initialize argc field_separator) := by
  unfold FieldCountAgrees qk_scalar_get_number
  rw [doubles.initial_value_unset argc field_separator (by decide)]
  rfl

/-- In every run, `NF` holds the number of fields after each operation, and a refused value changes nothing, exactly
if `NF` is never given a negative value and the value of an unset scalar only when there are no fields. -/
theorem nf_agrees_iff (argc : Nat) (field_separator : Option Text) (operations : List (RuntimeOperation Number)) :
    OperationRun.Every doubles.apply doubles.FieldCountLaw ( doubles.qk_runtime_initialize argc field_separator)
        operations ↔
      OperationRun.Every doubles.apply doubles.KeepsFieldCount ( doubles.qk_runtime_initialize argc field_separator)
        operations :=
  OperationRun.every_iff (doubles.initial_field_count argc field_separator)
    (fun _ operation h => doubles.field_count_law_iff h operation) (fun _ _ _ hlaw => hlaw.1) operations

/-- `{ NF = -1 }` leaves `-1` in `NF`, and `{ NF = unset }` nothing, while the record keeps its two fields. -/
theorem nf_disagrees :
    ¬ OperationRun.Every rational.apply rational.FieldCountLaw ( rational.qk_runtime_initialize 0 none)
        [.read_record ['a', ' ', 'b'], .scalar_set_number "NF" (-1)] ∧
    ¬ OperationRun.Every rational.apply rational.FieldCountLaw ( rational.qk_runtime_initialize 0 none)
        [.read_record ['a', ' ', 'b'], .scalar_copy "NF" "unset"] := by
  constructor
  · intro ⟨hread, hassign, _⟩
    have hkeeps := ((rational.field_count_law_iff hread.1 _).mp hassign (.number (-1)) rfl).1
    revert hkeeps
    decide
  · intro ⟨hread, hassign, _⟩
    have hunset : (rational.apply ( rational.qk_runtime_initialize 0 none) (.read_record ['a', ' ', 'b'])).value "unset" =
        .unset := by
      rw [apply, qk_rebuild_fields, store_field_count, qk_scalar_set_number_value, store_entry_value,
        if_neg (by decide)]
      exact rational.initial_value_unset 0 none (by decide)
    have hkeeps := ((rational.field_count_law_iff hread.1 _).mp hassign .unset (by rw [RuntimeOperation.stored, hunset])).2 rfl
    revert hkeeps
    decide

end Doubles

end quawk
