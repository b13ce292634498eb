import Quawk.FieldCount
import Quawk.FieldSplitting
import Quawk.OutputVariables
import Quawk.SplitAgreement

open Words (words mem_words flatten_words words_of_run words_intercalate intercalate_nil_left filter_intercalate)

namespace quawk

/-- Fields that blanks separate: words, and only blanks between them. -/
structure BlankReadBack (separator : Text) (fields : List Text) : Prop where
  words : ∀ field ∈ fields, field ≠ [] ∧ ∀ char ∈ field, is_space char = false
  blanks : 2 ≤ fields.length → separator ≠ [] ∧ ∀ char ∈ separator, is_space char = true

/-- Fields that a text separates: it stands between them, and it is found nowhere before the place where it stands. -/
structure LiteralReadBack (field_separator separator : Text) (fields : List Text) : Prop where
  exist : fields ≠ []
  same : 2 ≤ fields.length → separator = field_separator
  first_found : ∀ field ∈ fields.dropLast, ¬ field_separator <:+: field ++ field_separator.dropLast
  not_found : ∀ field ∈ fields, ¬ field_separator <:+: field

/-- The fields of a record are those of the text they are joined to. -/
def ReadBack (field_separator separator : Text) (fields : List Text) : Prop :=
  if field_separator = [] then BlankReadBack separator fields else LiteralReadBack field_separator separator fields

theorem words_intercalate_iff (separator : Text) (fields : List Text) :
    words is_space (List.intercalate separator fields) = fields ↔ BlankReadBack separator fields := by
  constructor
  · intro h
    have hwords : ∀ field ∈ fields, field ≠ [] ∧ ∀ char ∈ field, is_space char = false := fun field hmem =>
      mem_words (h.symm ▸ hmem : field ∈ words is_space (List.intercalate separator fields))
    refine ⟨hwords, fun hlength => ?_⟩
    have hjoined : List.intercalate [] fields = fields.flatten := intercalate_nil_left fields
    have hflatten : List.intercalate (separator.filter fun char => !is_space char) fields = List.intercalate [] fields := by
      rw [← filter_intercalate separator fun field hmem => (hwords field hmem).2, ← flatten_words, h, hjoined]
    have hblank : separator.filter (fun char => !is_space char) = [] := separator_eq_of_intercalate_eq hlength hflatten
    refine ⟨?_, fun char hmem => by simpa using List.filter_eq_nil_iff.mp hblank char hmem⟩
    rintro rfl
    have hrun : ∀ char ∈ fields.flatten, is_space char = false := by
      intro char hmem
      obtain ⟨field, hfield, hchar⟩ := List.mem_flatten.mp hmem
      exact (hwords field hfield).2 char hchar
    have hone : (words is_space fields.flatten).length ≤ 1 := by
      by_cases hempty : fields.flatten = []
      · rw [hempty, Words.words_nil]
        exact Nat.zero_le 1
      · rw [words_of_run hempty hrun]
        exact Nat.le_refl 1
    rw [← hjoined, h] at hone
    omega
  · rintro ⟨hwords, hblanks⟩
    obtain hshort | hlong := Nat.lt_or_ge fields.length 2
    · obtain _ | ⟨field, _ | ⟨second, rest⟩⟩ := fields
      · exact Words.words_nil
      · obtain ⟨hne, hrun⟩ := hwords field List.mem_cons_self
        simpa using words_of_run hne hrun
      · simp at hshort
    · obtain ⟨hne, hbreak⟩ := hblanks hlong
      exact words_intercalate hne hbreak hwords

section Literal

variable {field_separator : Text} {fuel : Nat}

/-- A separator that reaches into the one behind a field begins within the field. -/
theorem first_found_iff (hne : field_separator ≠ []) (field rest : Text) :
    ¬ field_separator <:+: field ++ field_separator.dropLast ↔
      ∀ position < field.length, ¬ field_separator <+: (field ++ (field_separator ++ rest)).drop position := by
  constructor
  · intro hnot position hposition hprefix
    have htext : field ++ field_separator.dropLast <+: field ++ (field_separator ++ rest) :=
      (List.prefix_append_right_inj field).mpr
        ((List.dropLast_prefix field_separator).trans (List.prefix_append field_separator rest))
    have hlength : field_separator.length ≤ ((field ++ field_separator.dropLast).drop position).length := by
      simp only [List.length_drop, List.length_append, List.length_dropLast]
      omega
    have hwithin := List.prefix_of_prefix_length_le hprefix (htext.drop position) hlength
    exact hnot (hwithin.isInfix.trans (List.drop_suffix position _).isInfix)
  · rintro h ⟨front, back, heq⟩
    have hlength : front.length < field.length := by
      have hlengths := congrArg List.length heq
      have hpos := List.length_pos_of_ne_nil hne
      simp only [List.length_append, List.length_dropLast] at hlengths
      omega
    have htext : field ++ (field_separator ++ rest) =
        front ++ (field_separator ++ (back ++ ([field_separator.getLast hne] ++ rest))) := by
      have hlast := List.dropLast_append_getLast hne
      calc field ++ (field_separator ++ rest)
          = (field ++ field_separator.dropLast) ++ ([field_separator.getLast hne] ++ rest) := by
            rw [List.append_assoc, ← List.append_assoc field_separator.dropLast, hlast]
        _ = _ := by rw [← heq]; simp only [List.append_assoc]
    refine h front.length hlength ⟨back ++ ([field_separator.getLast hne] ++ rest), ?_⟩
    rw [htext, List.drop_left]

theorem split_literal_first_found (hne : field_separator ≠ []) {field_start text : Text} (hfuel : text.length ≤ fuel)
    (hstart : ∀ position < field_start.length, ¬ field_separator <+: (field_start ++ text).drop position) :
    ∀ field ∈ (qk_split_literal_separator_fields field_separator fuel field_start text).dropLast,
      ¬ field_separator <:+: field ++ field_separator.dropLast := by
  induction fuel generalizing field_start text with
  | zero =>
    intro field hfield
    simp [qk_split_literal_separator_fields] at hfield
  | succ fuel ih =>
    cases text with
    | nil =>
      intro field hfield
      simp [qk_split_literal_separator_fields] at hfield
    | cons char rest =>
      rw [qk_split_literal_separator_fields]
      by_cases hmatch : field_separator.isPrefixOf (char :: rest) = true
      · obtain ⟨behind, hbehind⟩ := List.isPrefixOf_iff_prefix.mp hmatch
        rw [if_pos hmatch, List.dropLast_cons_of_ne_nil split_literal_ne_nil]
        intro field hfield
        obtain rfl | hfield := List.mem_cons.mp hfield
        · rw [← hbehind] at hstart
          exact (first_found_iff hne _ behind).mpr hstart
        · exact ih (drop_separator_length hne hfuel) (fun _ hnone => absurd hnone (Nat.not_lt_zero _)) field hfield
      · rw [if_neg hmatch]
        refine ih (Nat.le_of_succ_le_succ hfuel) fun position hposition => ?_
        rw [List.append_assoc, List.singleton_append]
        by_cases hbefore : position < field_start.length
        · exact hstart position hbefore
        · have hlast : position = field_start.length := by
            rw [List.length_append, List.length_singleton] at hposition
            omega
          rw [hlast, List.drop_left]
          exact fun h => hmatch ( List.isPrefixOf_iff_prefix.mpr h)

/-- Every field but the last is what stands before the first separator. -/
theorem split_fields_first_found (hne : field_separator ≠ []) (text : Text) :
    ∀ field ∈ (split_fields field_separator text).dropLast, ¬ field_separator <:+: field ++ field_separator.dropLast := by
  unfold split_fields
  rw [List.isEmpty_eq_false_iff.mpr hne, if_neg Bool.false_ne_true]
  exact split_literal_first_found hne (Nat.le_refl _) fun _ hnone => absurd hnone (Nat.not_lt_zero _)

end Literal

theorem split_fields_intercalate {field_separator : Text} (hne : field_separator ≠ []) {fields : List Text}
    (h : LiteralReadBack field_separator field_separator fields) :
    split_fields field_separator (List.intercalate field_separator fields) = fields := by
  obtain ⟨hexist, _, hfirst, hnot⟩ := h
  induction fields with
  | nil => exact absurd rfl hexist
  | cons first rest ih =>
    cases rest with
    | nil =>
      rw [List.intercalate_singleton]
      exact split_fields_absent hne (hnot first List.mem_cons_self)
    | cons second others =>
      have hfound := (first_found_iff hne first (List.intercalate field_separator (second :: others))).mp
        (hfirst first List.mem_cons_self)
      rw [intercalate_cons_cons, split_fields_first hne hfound, ih (List.cons_ne_nil second others)
        (fun _ => rfl)
        (fun field hmem => hfirst field (List.mem_cons_of_mem first hmem))
        (fun field hmem => hnot field (List.mem_cons_of_mem first hmem))]

theorem split_literal_iff {field_separator : Text} (hne : field_separator ≠ []) (separator : Text) (fields : List Text) :
    split_fields field_separator (List.intercalate separator fields) = fields ↔
      LiteralReadBack field_separator separator fields := by
  constructor
  · intro h
    obtain ⟨hjoined, hnot, hexist⟩ := split_fields_literal hne (List.intercalate separator fields)
    have hfirst := split_fields_first_found hne (List.intercalate separator fields)
    rw [h] at hjoined hnot hexist hfirst
    exact ⟨hexist, fun hlength => (separator_eq_of_intercalate_eq hlength hjoined).symm, hfirst, hnot⟩
  · intro h
    have hsame : List.intercalate separator fields = List.intercalate field_separator fields := by
      obtain hshort | hlong := Nat.lt_or_ge fields.length 2
      · obtain _ | ⟨field, _ | ⟨second, rest⟩⟩ := fields
        · rfl
        · rw [List.intercalate_singleton, List.intercalate_singleton]
        · simp at hshort
      · rw [h.same hlong]
    rw [hsame]
    exact split_fields_intercalate hne ⟨h.exist, fun _ => rfl, h.first_found, h.not_found⟩

theorem split_fields_intercalate_iff (field_separator separator : Text) (fields : List Text) :
    split_fields field_separator (List.intercalate separator fields) = fields ↔
      ReadBack field_separator separator fields := by
  by_cases hblank : field_separator = []
  · rw [hblank, split_fields_blank, ReadBack, if_pos rfl]
    exact words_intercalate_iff separator fields
  · rw [ReadBack, if_neg hblank]
    exact split_literal_iff hblank separator fields

variable {Number : Type} (doubles : Doubles Number) {runtime : RuntimeState Number}

/-- The operation neither reads a record nor assigns `NF` or a field. -/
def LeavesRecord (_ : RuntimeState Number) : RuntimeOperation Number → Prop
  | .scalar_set_string name _ | .scalar_set_number name _ | .scalar_copy name _ => name ≠ "NF"
  | .set_field_string _ _ | .set_field_number _ _ | .read_record _ => False
  | .scalar_get _ | .slot_set_string _ _ | .slot_set_number _ _ | .slot_get_string _ | .match_text _ _ => True

/-- The record and its fields are those of an earlier state. -/
structure SameFields (earlier later : RuntimeState Number) : Prop where
  record : later.record.current_record = earlier.record.current_record
  fields : later.record.fields = earlier.record.fields

namespace Doubles

/-- The operation joins the fields anew: it assigns a field, or gives `NF` a value that is not refused. -/
def Rejoins (runtime : RuntimeState Number) (operation : RuntimeOperation Number) : Prop :=
  match operation with
  | .set_field_string index _ | .set_field_number index _ => 1 ≤ index
  | operation => ∃ value, operation.stored runtime = some ("NF", value) ∧ value ≠ .unset ∧
    0 ≤ doubles.to_int64 (doubles.number_of value)

/-- `$0 = $0` -/
def reread (runtime : RuntimeState Number) : RuntimeState Number :=
  doubles.qk_set_field_string runtime 0 (qk_get_field runtime.record 0)

theorem side_effects_same {name : Name} (h : name ≠ "NF") :
    SameFields runtime (doubles.qk_apply_scalar_side_effects runtime name) := by
  refine ⟨?_, (doubles.side_effects_of_ne runtime h).2⟩
  unfold qk_apply_scalar_side_effects
  split_ifs
  · simp
  · simp
  · rfl

theorem store_same {name : Name} (h : name ≠ "NF") (value : StoredValue Number) :
    SameFields runtime (doubles.store runtime name value) := by
  refine ⟨?_, (doubles.store_of_ne h value).2⟩
  cases value with
  | unset => rfl
  | number value =>
    exact (doubles.side_effects_same h).record.trans (congrArg RecordState.current_record (store_entry_record ..))
  | string text =>
    exact (doubles.side_effects_same h).record.trans (congrArg RecordState.current_record (store_entry_record ..))

theorem apply_same {operation : RuntimeOperation Number} (h : LeavesRecord runtime operation) :
    SameFields runtime (doubles.apply runtime operation) := by
  cases operation with
  | scalar_set_string | scalar_set_number =>
    rw [doubles.apply_stored runtime _ rfl]
    exact doubles.store_same h _
  | scalar_copy =>
    rw [doubles.apply_stored runtime _ rfl]
    exact doubles.store_same h _
  | scalar_get name => exact ⟨by simp [apply], by simp [apply]⟩
  | slot_set_string slot_index value =>
    simp only [apply, qk_slot_set_string]
    split_ifs <;> exact ⟨rfl, rfl⟩
  | slot_set_number slot_index value =>
    simp only [apply, qk_slot_set_number]
    split_ifs <;> exact ⟨rfl, rfl⟩
  | slot_get_string slot_index =>
    simp only [apply, qk_slot_get_string]
    split_ifs
    · exact ⟨rfl, rfl⟩
    · split <;> exact ⟨rfl, rfl⟩
  | match_text start length =>
    exact ⟨by simp [apply, qk_match, qk_scalar_set_number_value], by simp [apply, qk_match, qk_scalar_set_number_value]⟩
  | set_field_string | set_field_number | read_record => exact h.elim

theorem run_same {later : List (RuntimeOperation Number)}
    (h : OperationRun.Every doubles.apply LeavesRecord runtime later) :
    SameFields runtime (OperationRun.run doubles.apply runtime later) :=
  h.run ⟨rfl, rfl⟩ fun _ _ hsame hleaves =>
    ⟨(doubles.apply_same hleaves).record.trans hsame.record, (doubles.apply_same hleaves).fields.trans hsame.fields⟩

/-- Where `NF` is given a value that is not refused, the fields are joined anew. -/
theorem store_nf_rejoined (hrecord : runtime.record.current_record ≠ none) (entry : ScalarEntry Number)
    (h : 0 ≤ doubles.to_int64 (doubles.number_of entry.value)) :
    (doubles.qk_apply_scalar_side_effects (store_entry runtime "NF" entry) "NF").record.current_record =
      some (List.intercalate (qk_write_output_separator runtime)
        (doubles.qk_apply_scalar_side_effects (store_entry runtime "NF" entry) "NF").record.fields) := by
  have hcount : doubles.qk_scalar_get_number (store_entry runtime "NF" entry) "NF" = doubles.number_of entry.value := by
    rw [qk_scalar_get_number, store_entry_value, if_pos rfl]
  have hseparator : qk_write_output_separator runtime = qk_write_output_separator (store_entry runtime "NF" entry) := by
    rw [qk_write_output_separator, qk_write_output_separator, store_entry_value, if_neg (by decide)]
  have hstored : (store_entry runtime "NF" entry).record.current_record ≠ none := by
    rw [store_entry_record]
    exact hrecord
  rw [side_effects_nf, hcount, if_neg (not_lt.mpr h), store_field_count_record, hseparator]
  exact doubles.rebuilt_record (by decide) hstored

theorem apply_rejoined (hrecord : runtime.record.current_record ≠ none) {operation : RuntimeOperation Number}
    (h : doubles.Rejoins runtime operation) :
    (doubles.apply runtime operation).record.current_record =
      some (List.intercalate (qk_write_output_separator runtime) (doubles.apply runtime operation).record.fields) := by
  have hfield : ∀ index value, 1 ≤ index → (doubles.qk_set_field_string runtime index value).record.current_record =
      some (List.intercalate (qk_write_output_separator runtime)
        (doubles.qk_set_field_string runtime index value).record.fields) := by
    intro index value hindex
    rw [qk_set_field_string, if_neg (by omega)]
    exact doubles.rebuilt_record (by omega) hrecord
  have hstored : ∀ value, operation.stored runtime = some ("NF", value) → value ≠ .unset →
      0 ≤ doubles.to_int64 (doubles.number_of value) → (doubles.apply runtime operation).record.current_record =
        some (List.intercalate (qk_write_output_separator runtime) (doubles.apply runtime operation).record.fields) := by
    intro value hnf hset hcount
    rw [doubles.apply_stored runtime "NF" hnf]
    cases value with
    | unset => exact absurd rfl hset
    | number value => exact doubles.store_nf_rejoined hrecord (.number value none) hcount
    | string text => exact doubles.store_nf_rejoined hrecord (.string text) hcount
  cases operation with
  | set_field_string index value => exact hfield index value h
  | set_field_number index value => exact hfield index _ h
  | scalar_set_string | scalar_set_number | scalar_copy | scalar_get | slot_set_string | slot_set_number
  | slot_get_string | read_record | match_text =>
    obtain ⟨value, hnf, hset, hcount⟩ := h
    exact hstored value hnf hset hcount

theorem reread_record {text : Text} (h : runtime.record.current_record = some text) :
    (doubles.reread runtime).record = set_record runtime.record text := by
  have htext : qk_get_field runtime.record 0 = text := by
    rw [qk_get_field, h]
    rfl
  rw [reread, qk_set_field_string, if_neg (by decide), htext, Doubles.qk_rebuild_current_record, if_pos rfl,
    qk_rebuild_fields, store_field_count_record]

/-- After an operation that joins the fields anew, and any that leave the record, `$0 = $0` gives the same fields
exactly if the separator now in force finds in the joined text what `OFS` joined. -/
theorem fields_read_back_iff (hrecord : runtime.record.current_record ≠ none) {operation : RuntimeOperation Number}
    (hrejoins : doubles.Rejoins runtime operation) {later : List (RuntimeOperation Number)}
    (hlater : OperationRun.Every doubles.apply LeavesRecord (doubles.apply runtime operation) later) :
    SameFields (doubles.apply runtime operation)
        (doubles.reread (OperationRun.run doubles.apply (doubles.apply runtime operation) later)) ↔
      ReadBack (OperationRun.run doubles.apply (doubles.apply runtime operation) later).record.field_separator
        (qk_write_output_separator runtime) (doubles.apply runtime operation).record.fields := by
  have hsame := doubles.run_same hlater
  have hjoined := doubles.apply_rejoined hrecord hrejoins
  have hreread := doubles.reread_record (hsame.record.trans hjoined)
  rw [← split_fields_intercalate_iff]
  constructor
  · intro h
    have hfields := h.fields
    rw [hreread] at hfields
    exact hfields
  · intro h
    refine ⟨?_, ?_⟩
    · rw [hreread, hjoined]
      rfl
    · rw [hreread]
      exact h

/-- `OFS = ":"`, and then the record `a b`. -/
def colon_runtime : RuntimeState Rat :=
  OperationRun.run (apply .rational) ( qk_runtime_initialize .rational 0 none)
    [.scalar_set_string "OFS" [':'], .read_record ['a', ' ', 'b']]

/-- `{ $2 = "x y"; FS = ":"; $0 = $0 }` -/
theorem fields_read_back_colon :
    SameFields (apply .rational colon_runtime (.set_field_string 2 ['x', ' ', 'y']))
      (reread .rational (OperationRun.run (apply .rational)
        (apply .rational colon_runtime (.set_field_string 2 ['x', ' ', 'y'])) [.scalar_set_string "FS" [':']])) := by
  have hread : ReadBack [':'] [':'] [['a'], ['x', ' ', 'y']] := by
    rw [ReadBack, if_neg (by decide)]
    exact ⟨by decide, fun _ => rfl, by decide, by decide⟩
  have hrejoins : Rejoins .rational colon_runtime (.set_field_string 2 ['x', ' ', 'y']) := by
    change (1 : Int) ≤ 2
    decide
  have hlater : OperationRun.Every (apply .rational) LeavesRecord
      (apply .rational colon_runtime (.set_field_string 2 ['x', ' ', 'y'])) [.scalar_set_string "FS" [':']] :=
    ⟨by change "FS" ≠ "NF"; decide, trivial⟩
  exact (fields_read_back_iff .rational (by decide) hrejoins hlater).mpr hread

end Doubles

end quawk
