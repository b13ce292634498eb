import Mathlib.Data.List.Infix
import Quawk.Lib.Words
import Quawk.SeparatorCoherence

open Words (words words_nil words_cons_break words_run_break words_of_run)

namespace quawk

/-- The field begun so far has no blank in it. -/
theorem split_whitespace_eq {field_start : Text} (h : ∀ char ∈ field_start, is_space char = false) (text : Text) :
    qk_split_whitespace_fields field_start text = words is_space (field_start ++ text) := by
  induction text generalizing field_start with
  | nil =>
    unfold qk_split_whitespace_fields
    rw [List.append_nil]
    cases field_start with
    | nil => simp
    | cons first rest => exact (words_of_run (List.cons_ne_nil first rest) h).symm
  | cons char rest ih =>
    unfold qk_split_whitespace_fields
    by_cases hspace : is_space char = true
    · have hnone : ∀ other ∈ ([] : Text), is_space other = false := fun _ hmem => absurd hmem List.not_mem_nil
      have hrest := ih hnone
      rw [List.nil_append] at hrest
      rw [if_pos hspace, hrest]
      cases field_start with
      | nil => exact (words_cons_break hspace rest).symm
      | cons first others => exact (words_run_break (List.cons_ne_nil first others) h hspace rest).symm
    · have hlonger : ∀ other ∈ field_start ++ [char], is_space other = false := by
        intro other hmem
        obtain hmem | hmem := List.mem_append.mp hmem
        · exact h other hmem
        · rw [List.mem_singleton.mp hmem]
          exact Bool.eq_false_of_not_eq_true hspace
      rw [if_neg hspace, ih hlonger, List.append_assoc, List.singleton_append]

theorem split_whitespace_words (text : Text) : qk_split_whitespace_fields [] text = words is_space text :=
  split_whitespace_eq (fun _ hmem => absurd hmem List.not_mem_nil) text

section Literal

variable {separator : Text} {fuel : Nat} {field_start text : Text}

theorem split_literal_ne_nil : qk_split_literal_separator_fields separator fuel field_start text ≠ [] := by
  induction fuel generalizing field_start text with
  | zero => exact List.cons_ne_nil _ _
  | succ fuel ih =>
    cases text with
    | nil => exact List.cons_ne_nil _ _
    | cons char rest =>
      rw [qk_split_literal_separator_fields]
      split_ifs
      · exact List.cons_ne_nil _ _
      · exact ih

/-- What is left behind a separator is shorter. -/
theorem drop_separator_length (hne : separator ≠ []) {char : Char} {rest : Text} (h : (char :: rest).length ≤ fuel + 1) :
    ((char :: rest).drop separator.length).length ≤ fuel := by
  have hpos := List.length_pos_of_ne_nil hne
  rw [List.length_drop]
  omega

theorem intercalate_append (separator first : Text) {rest : List Text} (h : rest ≠ []) :
    List.intercalate separator (first :: rest) = first ++ (separator ++ List.intercalate separator rest) := by
  obtain ⟨second, others, rfl⟩ := List.exists_cons_of_ne_nil h
  exact intercalate_cons_cons separator first second others

/-- The fields joined by the separator are the text. -/
theorem intercalate_split_literal (hne : separator ≠ []) (hfuel : text.length ≤ fuel) :
    List.intercalate separator (qk_split_literal_separator_fields separator fuel field_start text) = field_start ++ text := by
  induction fuel generalizing field_start text with
  | zero =>
    rw [List.length_eq_zero_iff.mp (Nat.le_zero.mp hfuel)]
    simp [qk_split_literal_separator_fields]
  | succ fuel ih =>
    cases text with
    | nil => simp [qk_split_literal_separator_fields]
    | cons char rest =>
      rw [qk_split_literal_separator_fields]
      by_cases hmatch : separator.isPrefixOf (char :: rest) = true
      · obtain ⟨behind, hbehind⟩ := List.isPrefixOf_iff_prefix.mp hmatch
        have hrest : (char :: rest).drop separator.length = behind := by rw [← hbehind, List.drop_left]
        rw [if_pos hmatch, intercalate_append _ _ split_literal_ne_nil, ih (drop_separator_length hne hfuel), hrest,
          List.nil_append, hbehind]
      · rw [if_neg hmatch, ih (Nat.le_of_succ_le_succ hfuel), List.append_assoc, List.singleton_append]

/-- A separator within a text begins somewhere in it. -/
theorem not_infix_of_positions (hne : separator ≠ [])
    (h : ∀ position < field_start.length, ¬ separator <+: (field_start ++ text).drop position) :
    ¬ separator <:+: field_start := by
  rintro ⟨front, back, rfl⟩
  have hpos := List.length_pos_of_ne_nil hne
  refine h front.length (by simp only [List.length_append]; omega) ⟨back ++ text, ?_⟩
  simp only [List.append_assoc, List.drop_left]

/-- No field has the separator in it: it would have been found there. -/
theorem split_literal_not_infix (hne : separator ≠ []) (hfuel : text.length ≤ fuel)
    (hstart : ∀ position < field_start.length, ¬ separator <+: (field_start ++ text).drop position) :
    ∀ field ∈ qk_split_literal_separator_fields separator fuel field_start text, ¬ separator <:+: field := by
  induction fuel generalizing field_start text with
  | zero =>
    intro field hfield
    rw [qk_split_literal_separator_fields, List.mem_singleton] at hfield
    exact hfield ▸ not_infix_of_positions hne hstart
  | succ fuel ih =>
    cases text with
    | nil =>
      intro field hfield
      rw [qk_split_literal_separator_fields, List.mem_singleton] at hfield
      exact hfield ▸ not_infix_of_positions hne hstart
    | cons char rest =>
      rw [qk_split_literal_separator_fields]
      by_cases hmatch : separator.isPrefixOf (char :: rest) = true
      · rw [if_pos hmatch]
        intro field hfield
        obtain rfl | hfield := List.mem_cons.mp hfield
        · exact not_infix_of_positions hne hstart
        · exact ih (drop_separator_length hne hfuel) (fun _ hnone => absurd hnone (Nat.not_lt_zero _)) field hfield
      · rw [if_neg hmatch]
        refine ih (Nat.le_of_succ_le_succ hfuel) fun position hposition => ?_
        rw [List.append_assoc, List.singleton_append]
        by_cases hbefore : position < field_start.length
        · exact hstart position hbefore
        · have hlast : position = field_start.length := by
            rw [List.length_append, List.length_singleton] at hposition
            omega
          rw [hlast, List.drop_left]
          exact fun h => hmatch ( List.isPrefixOf_iff_prefix.mpr h)

end Literal

theorem split_fields_blank (text : Text) : split_fields [] text = words is_space text := split_whitespace_words text

/-- The fields joined by a separator are the text, and no field has the separator in it. -/
theorem split_fields_literal {separator : Text} (hne : separator ≠ []) (text : Text) :
    List.intercalate separator (split_fields separator text) = text ∧
      (∀ field ∈ split_fields separator text, ¬ separator <:+: field) ∧ split_fields separator text ≠ [] := by
  unfold split_fields
  rw [List.isEmpty_eq_false_iff.mpr hne, if_neg Bool.false_ne_true]
  exact ⟨intercalate_split_literal hne (Nat.le_refl _),
    split_literal_not_infix hne (Nat.le_refl _) fun _ hnone => absurd hnone (Nat.not_lt_zero _), split_literal_ne_nil⟩

/-- The fields from `$1` to `$NF` as they are read. -/
def read_fields (record : RecordState) : List Text :=
  (List.range (qk_get_nf record)).map fun position => qk_get_field record (position + 1 : Nat)

theorem read_fields_eq {record : RecordState} (h : record.current_record.isSome) : read_fields record = record.fields := by
  refine List.ext_getElem (by simp [read_fields, qk_get_nf]) fun position hleft hright => ?_
  simp only [read_fields, List.getElem_map, List.getElem_range]
  rw [qk_get_field_succ h, List.getElem?_eq_getElem hright]
  rfl

namespace Doubles

variable {Number : Type} (doubles : Doubles Number)

/-- `FS` is assigned, and then a record is read or `$0` assigned. -/
def split_record (runtime : RuntimeState Number) (fs record : Text) : RuntimeState Number :=
  doubles.qk_rebuild_fields (doubles.qk_scalar_set_string runtime "FS" fs) record

/-- The fields of a record: what a single character separates, the runs between blanks, or, of an empty record,
none; and `NF` is their number. -/
structure FieldsDescribed (fs record : Text) (runtime : RuntimeState Number) : Prop where
  separated : ∀ separator, fs = [separator] → separator ≠ ' ' → record ≠ [] →
    List.intercalate [separator] (read_fields runtime.record) = record ∧
      ∀ field ∈ read_fields runtime.record, separator ∉ field
  blank : fs = [' '] → read_fields runtime.record = words is_space record
  empty : record = [] → read_fields runtime.record = []
  count : runtime.value "NF" = .number (doubles.of_int (read_fields runtime.record).length)

theorem split_record_fields (runtime : RuntimeState Number) (fs record : Text) :
    read_fields (doubles.split_record runtime fs record).record = split_fields (qk_update_field_separator fs) record ∧
      (doubles.split_record runtime fs record).value "NF" =
        .number (doubles.of_int (split_fields (qk_update_field_separator fs) record).length) := by
  have hseparator : (doubles.qk_scalar_set_string runtime "FS" fs).record.field_separator = qk_update_field_separator fs :=
    doubles.store_fs_separator (show StoredValue.string fs ≠ .unset from nofun)
  have hrecord : (doubles.split_record runtime fs record).record =
      set_record (doubles.qk_scalar_set_string runtime "FS" fs).record record := by
    unfold split_record qk_rebuild_fields store_field_count qk_scalar_set_number_value
    exact store_entry_record ..
  have hfields : (set_record (doubles.qk_scalar_set_string runtime "FS" fs).record record).fields =
      split_fields (qk_update_field_separator fs) record := by
    rw [← hseparator]
    rfl
  constructor
  · rw [hrecord, read_fields_eq rfl, hfields]
  · rw [← hfields]
    unfold split_record qk_rebuild_fields store_field_count qk_scalar_set_number_value
    rw [store_entry_value, if_pos rfl]
    rfl

/-- Every record but the empty one is split as described; the empty one only by the default separator. -/
theorem fields_described_iff (runtime : RuntimeState Number) (fs record : Text) :
    doubles.FieldsDescribed fs record (doubles.split_record runtime fs record) ↔
      (record = [] → fs = [] ∨ fs = [' ']) := by
  obtain ⟨hfields, hcount⟩ := doubles.split_record_fields runtime fs record
  have hdefault : fs = [] ∨ fs = [' '] ↔ qk_update_field_separator fs = [] := by
    unfold qk_update_field_separator
    split_ifs with hblank
    · simp [hblank]
    · simp [hblank]
  constructor
  · intro ⟨_, _, hempty, _⟩ hrecord
    rw [hdefault]
    by_contra hne
    exact (split_fields_literal hne record).2.2 (hfields ▸ hempty hrecord)
  · intro hdescribed
    refine ⟨fun separator hfs hblank _ => ?_, fun hfs => ?_, fun hrecord => ?_, ?_⟩
    · have hseparator : qk_update_field_separator fs = [separator] := by
        rw [hfs, qk_update_field_separator, if_neg (by simpa using hblank)]
      obtain ⟨hjoined, happart, _⟩ := split_fields_literal (List.cons_ne_nil separator []) record
      rw [hfields, hseparator]
      exact ⟨hjoined, fun field hfield hmem => happart field hfield ((List.singleton_infix_iff separator field).mpr hmem)⟩
    · rw [hfields, hfs]
      exact split_fields_blank record
    · rw [hfields, hdefault.mp (hdescribed hrecord), hrecord]
      rfl
    · rw [hfields]
      exact hcount

/-- With `FS` a colon, the empty record has one field. -/
theorem empty_record_diverges :
    ¬ FieldsDescribed .rational [':'] [] (split_record .rational ( qk_runtime_initialize .rational 0 none) [':'] []) := by
  intro h
  have hnone := h.empty rfl
  rw [(split_record_fields .rational ( qk_runtime_initialize .rational 0 none) [':'] []).1] at hnone
  cases hnone

end Doubles

end quawk
