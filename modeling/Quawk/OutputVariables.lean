import Quawk.FormatCaches

namespace quawk

variable {Number : Type} (doubles : Doubles Number) {runtime : RuntimeState Number}

namespace Doubles

/-- `qk_write_output_separator` and `qk_print_output_separator` -/
def qk_write_output_separator (runtime : RuntimeState Number) : Text := (runtime.value "OFS").variable_text [' ']

/-- `qk_write_output_record_separator` and `qk_print_output_record_separator` -/
def qk_write_output_record_separator (runtime : RuntimeState Number) : Text :=
  (runtime.value "ORS").variable_text ['\n']

/-- `qk_write_output_number` and `qk_print_number_fragment` -/
def qk_write_output_number (runtime : RuntimeState Number) (value : Number) : Text :=
  doubles.qk_format_number_with_text value ((runtime.value "OFMT").variable_text QK_DEFAULT_OFMT)

/-- The text that stands between the subscripts of an element. -/
def subscript_separator (runtime : RuntimeState Number) : Text := (doubles.qk_scalar_string_view runtime "SUBSEP").1

/-- Every use of an output variable is one of its current string value. -/
structure OutputsInForce (runtime : RuntimeState Number) : Prop where
  separator : qk_write_output_separator runtime = doubles.string_value runtime "OFS"
  record_separator : qk_write_output_record_separator runtime = doubles.string_value runtime "ORS"
  output_number : ∀ value, doubles.qk_write_output_number runtime value =
    doubles.qk_format_number_with_text value (doubles.string_value runtime "OFMT")
  format_number : ∀ value, doubles.qk_format_number runtime value =
    doubles.qk_format_number_with_text value (doubles.string_value runtime "CONVFMT")
  rebuilt : ∀ target_fields index value, index ≠ 0 → runtime.record.current_record ≠ none →
    (doubles.qk_rebuild_current_record runtime target_fields index value).record.current_record =
      some (List.intercalate (doubles.string_value runtime "OFS")
        (doubles.qk_rebuild_current_record runtime target_fields index value).record.fields)
  subscript : doubles.subscript_separator runtime = doubles.string_value runtime "SUBSEP"

/-- The getter of an output variable gives the text of the value: it is a string, or its text is the one that stands
for a missing string. -/
def Seen (format fallback : Text) : StoredValue Number → Prop
  | .string _ => True
  | .unset => fallback = []
  | .number value => doubles.qk_format_number_with_text value format = fallback

/-- A format by which the getter formats every number as the text of the value does. -/
def SeenAsFormat (format fallback : Text) (value : StoredValue Number) : Prop :=
  ∀ number, doubles.qk_format_number_with_text number (value.variable_text fallback) =
    doubles.qk_format_number_with_text number (doubles.text_of format value)

/-- The values of the output variables are seen. -/
structure ValuesSeen (value : Name → StoredValue Number) : Prop where
  ofs : doubles.Seen (value "CONVFMT").format [' '] (value "OFS")
  ors : doubles.Seen (value "CONVFMT").format ['\n'] (value "ORS")
  ofmt : doubles.SeenAsFormat (value "CONVFMT").format QK_DEFAULT_OFMT (value "OFMT")
  convfmt : doubles.SeenAsFormat (value "CONVFMT").format QK_DEFAULT_CONVFMT (value "CONVFMT")

/-- The values after one was given to a scalar. -/
def values_after (runtime : RuntimeState Number) (stored : Option (Name × StoredValue Number)) (other : Name) :
    StoredValue Number :=
  match stored with
  | none => runtime.value other
  | some (name, value) => if other = name then value else runtime.value other

/-- After the step the values of the output variables are seen; and where it makes `CONVFMT` unset, the text kept for
a number in `SUBSEP` is that of the default format. -/
structure KeepsOutputs (runtime : RuntimeState Number) (operation : RuntimeOperation Number) : Prop where
  values : doubles.ValuesSeen (values_after runtime (operation.stored runtime))
  subscript : operation.stored runtime = some ("CONVFMT", .unset) → ∀ number cached,
    runtime.scalars.find "SUBSEP" = some (.number number (some cached)) →
      cached = doubles.qk_format_number_with_text number QK_DEFAULT_CONVFMT

theorem seen_iff (format fallback : Text) (value : StoredValue Number) :
    value.variable_text fallback = doubles.text_of format value ↔ doubles.Seen format fallback value := by
  cases value with
  | string => exact iff_of_true rfl trivial
  | unset => rfl
  | number value => exact eq_comm

theorem store_field_count_record : (doubles.store_field_count runtime).record = runtime.record := by
  rw [store_field_count, qk_scalar_set_number_value, store_entry_record]

theorem rebuilt_record {target_fields : Nat} {index : Int} {value : Text} (hindex : index ≠ 0)
    (hrecord : runtime.record.current_record ≠ none) :
    (doubles.qk_rebuild_current_record runtime target_fields index value).record.current_record =
      some (List.intercalate (qk_write_output_separator runtime)
        (doubles.qk_rebuild_current_record runtime target_fields index value).record.fields) := by
  obtain ⟨current, hcurrent⟩ := Option.ne_none_iff_exists'.mp hrecord
  have hjoining : runtime.joining.current_record = some current := hcurrent
  have hseparator : qk_output_variable_text runtime.joining.ofs [' '] = qk_write_output_separator runtime := by
    unfold RuntimeState.joining qk_write_output_separator
    cases runtime.value "OFS" <;> rfl
  rw [Doubles.qk_rebuild_current_record, if_neg hindex, if_neg hrecord, store_field_count_record,
    quawk.qk_rebuild_current_record, if_neg hindex]
  simp only [hjoining, hseparator]

theorem keepsText_iff_subscript :
    doubles.subscript_separator runtime = doubles.string_value runtime "SUBSEP" ↔
      doubles.KeepsText "SUBSEP" runtime := by
  constructor
  · intro hsubscript number cached hfind
    unfold subscript_separator string_value RuntimeState.value qk_scalar_string_view at hsubscript
    rw [hfind] at hsubscript
    exact hsubscript
  · intro hkeeps
    exact hkeeps.string_view_text

/-- The outputs are in force where the values are seen and the text of `SUBSEP` is current. -/
theorem outputs_in_force_iff (runtime : RuntimeState Number) :
    doubles.OutputsInForce runtime ↔ doubles.ValuesSeen runtime.value ∧ doubles.KeepsText "SUBSEP" runtime := by
  constructor
  · intro h
    exact ⟨⟨(doubles.seen_iff _ _ _).mp h.separator, (doubles.seen_iff _ _ _).mp h.record_separator,
      h.output_number, h.format_number⟩, doubles.keepsText_iff_subscript.mp h.subscript⟩
  · rintro ⟨hseen, hkeeps⟩
    have hseparator : qk_write_output_separator runtime = doubles.string_value runtime "OFS" :=
      (doubles.seen_iff _ _ _).mpr hseen.ofs
    exact {
      separator := hseparator
      record_separator := (doubles.seen_iff _ _ _).mpr hseen.ors
      output_number := hseen.ofmt
      format_number := hseen.convfmt
      rebuilt := fun target_fields index value hindex hrecord => by
        rw [doubles.rebuilt_record hindex hrecord, hseparator]
      subscript := doubles.keepsText_iff_subscript.mpr hkeeps }

/-- The scalars that the runtime sets on its own. -/
def SET_BY_RUNTIME : List Name := ["NF", "RSTART", "RLENGTH"]

theorem rebuild_value {other : Name} (hother : other ≠ "NF") (target_fields : Nat) (index : Int) (value : Text) :
    (doubles.qk_rebuild_current_record runtime target_fields index value).value other = runtime.value other :=
  (doubles.qk_rebuild_current_record_rest runtime target_fields index value).1 other hother

theorem apply_value {operation : RuntimeOperation Number} {other : Name} (hother : other ∉ SET_BY_RUNTIME) :
    (doubles.apply runtime operation).value other = values_after runtime (operation.stored runtime) other := by
  simp only [SET_BY_RUNTIME, List.mem_cons, List.not_mem_nil, or_false, not_or] at hother
  obtain ⟨hnf, hrstart, hrlength⟩ := hother
  cases hstored : operation.stored runtime with
  | some stored =>
    obtain ⟨name, value⟩ := stored
    rw [doubles.apply_stored runtime name hstored, store_value doubles _ _ hnf]
    rfl
  | none =>
    cases operation with
    | scalar_set_string | scalar_set_number | scalar_copy => cases hstored
    | scalar_get name => exact qk_scalar_string_view_value ..
    | slot_set_string slot_index value =>
      simp only [apply, qk_slot_set_string]
      split_ifs <;> rfl
    | slot_set_number slot_index value =>
      simp only [apply, qk_slot_set_number]
      split_ifs <;> rfl
    | slot_get_string slot_index =>
      simp only [apply, qk_slot_get_string]
      split_ifs
      · rfl
      · split <;> rfl
    | set_field_string index value =>
      simp only [apply, Doubles.qk_set_field_string]
      split_ifs
      · rfl
      · exact doubles.rebuild_value hnf _ _ _
    | set_field_number index value =>
      simp only [apply, Doubles.qk_set_field_number, Doubles.qk_set_field_string]
      split_ifs
      · rfl
      · exact doubles.rebuild_value hnf _ _ _
    | read_record line => exact doubles.store_field_count_value hnf
    | match_text start length =>
      simp [apply, qk_match, qk_scalar_set_number_value, store_entry_value, values_after, hrstart, hrlength]

theorem ValuesSeen.congr {value other : Name → StoredValue Number} (h : doubles.ValuesSeen value)
    (hsame : ∀ name ∉ SET_BY_RUNTIME, other name = value name) : doubles.ValuesSeen other := by
  have hconvfmt := hsame "CONVFMT" (by decide)
  obtain ⟨hofs, hors, hofmt, hformat⟩ := h
  constructor
  · rwa [hconvfmt, hsame "OFS" (by decide)]
  · rwa [hconvfmt, hsame "ORS" (by decide)]
  · rwa [hconvfmt, hsame "OFMT" (by decide)]
  · rwa [hconvfmt]

theorem keepsText_subsep_iff (h : doubles.KeepsText "SUBSEP" runtime) (operation : RuntimeOperation Number) :
    doubles.KeepsText "SUBSEP" (doubles.apply runtime operation) ↔
      (operation.stored runtime = some ("CONVFMT", .unset) → ∀ number cached,
        runtime.scalars.find "SUBSEP" = some (.number number (some cached)) →
          cached = doubles.qk_format_number_with_text number QK_DEFAULT_CONVFMT) := by
  by_cases hconvfmt : ∃ value, operation.stored runtime = some ("CONVFMT", value)
  · obtain ⟨value, hstored⟩ := hconvfmt
    rw [doubles.apply_stored runtime "CONVFMT" hstored, hstored]
    by_cases hset : value = .unset
    · subst hset
      simp only [forall_const]
      exact doubles.keepsText_clear_convfmt (by decide)
    · exact iff_of_true (doubles.scalarTexts_store_convfmt hset "SUBSEP") fun heq => by
        cases heq
        exact absurd rfl hset
  · have hnot : ∀ value, operation.stored runtime ≠ some ("CONVFMT", value) :=
      fun value hstored => hconvfmt ⟨value, hstored⟩
    exact iff_of_true (doubles.apply_keeps_text hnot h).1 fun hstored => absurd hstored (hnot _)

theorem outputs_in_force_apply (h : doubles.KeepsText "SUBSEP" runtime) (operation : RuntimeOperation Number) :
    doubles.OutputsInForce (doubles.apply runtime operation) ↔ doubles.KeepsOutputs runtime operation := by
  have hvalues {other : Name} (hother : other ∉ SET_BY_RUNTIME) :
      (doubles.apply runtime operation).value other = values_after runtime (operation.stored runtime) other :=
    doubles.apply_value hother
  rw [outputs_in_force_iff, doubles.keepsText_subsep_iff h]
  constructor
  · rintro ⟨hseen, hsubscript⟩
    exact ⟨hseen.congr doubles fun _ hother => (hvalues hother).symm, hsubscript⟩
  · rintro ⟨hseen, hsubscript⟩
    exact ⟨hseen.congr doubles fun _ hother => hvalues hother, hsubscript⟩

theorem initial_outputs (argc : Nat) (field_separator : Option Text) :
    doubles.OutputsInForce ( doubles.qk_runtime_initialize argc field_separator) := by
  rw [outputs_in_force_iff]
  constructor
  · constructor <;>
      simp [SeenAsFormat, qk_runtime_initialize, RuntimeState.value, LinkedTable.find_put, ScalarEntry.value, Seen,
        StoredValue.variable_text, text_of]
  · intro number cached hfind
    simp [ qk_runtime_initialize, LinkedTable.find_put] at hfind

/-- Every output variable is in force at the start, and in a run it stays in force after every operation exactly if
each operation leaves the output variables with values that their getters see. -/
theorem output_variables_iff (argc : Nat) (field_separator : Option Text)
    (operations : List (RuntimeOperation Number)) :
    doubles.OutputsInForce ( doubles.qk_runtime_initialize argc field_separator) ∧
    (OperationRun.Every doubles.apply (fun runtime operation => doubles.OutputsInForce (doubles.apply runtime operation))
        ( doubles.qk_runtime_initialize argc field_separator) operations ↔
      OperationRun.Every doubles.apply doubles.KeepsOutputs ( doubles.qk_runtime_initialize argc field_separator)
        operations) := by
  refine ⟨doubles.initial_outputs argc field_separator, ?_⟩
  refine OperationRun.every_iff
    (doubles.initial_outputs argc field_separator) (fun _ operation h => ?_) (fun _ _ _ hafter => hafter) operations
  exact doubles.outputs_in_force_apply ((doubles.outputs_in_force_iff _).mp h).2 operation

/-- A number in `OFS` and an unset `ORS` are not seen. -/
theorem output_variables_unseen :
    ¬ OperationRun.Every rational.apply
        (fun runtime operation => rational.OutputsInForce (rational.apply runtime operation))
        ( rational.qk_runtime_initialize 0 none) [.scalar_set_number "OFS" 1] ∧
    ¬ OperationRun.Every rational.apply
        (fun runtime operation => rational.OutputsInForce (rational.apply runtime operation))
        ( rational.qk_runtime_initialize 0 none) [.scalar_copy "ORS" "unset"] := by
  constructor
  · intro ⟨houtputs, _⟩
    have hseparator := houtputs.separator
    revert hseparator
    decide
  · intro ⟨houtputs, _⟩
    have hseparator := houtputs.record_separator
    revert hseparator
    decide

end Doubles

end quawk
