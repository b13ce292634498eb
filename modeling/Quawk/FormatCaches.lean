import Quawk.SeparatorCoherence

namespace quawk

variable {Number : Type} (doubles : Doubles Number) {runtime : RuntimeState Number}

/-- What the slots were last given after an operation. -/
def RuntimeOperation.written (written : Int → StoredValue Number) : RuntimeOperation Number →
    Int → StoredValue Number
  | .slot_set_string slot_index value =>
    if slot_index < 0 then written else Function.update written slot_index (.string value)
  | .slot_set_number slot_index value =>
    if slot_index < 0 then written else Function.update written slot_index (.number value)
  | _ => written

/-- The runtime with what its slots were last given, which a slot itself does not tell. -/
structure TrackedState (Number : Type) where
  runtime : RuntimeState Number
  written : Int → StoredValue Number

namespace Doubles

def track (state : TrackedState Number) (operation : RuntimeOperation Number) : TrackedState Number :=
  ⟨doubles.apply state.runtime operation, operation.written state.written⟩

def initial_tracked (argc : Nat) (field_separator : Option Text) : TrackedState Number :=
  ⟨ doubles.qk_runtime_initialize argc field_separator, fun _ => .unset⟩

/-- The text read of a scalar or slot that holds a number is the one the formatter gives now. -/
structure TextsAgree (state : TrackedState Number) : Prop where
  scalars : ∀ name number, state.runtime.value name = .number number →
    (doubles.qk_scalar_string_view state.runtime name).1 = doubles.qk_format_number state.runtime number
  slots : ∀ slot, 0 ≤ slot → ∀ number, state.written slot = .number number →
    (doubles.qk_slot_get_string state.runtime slot).1 = doubles.qk_format_number state.runtime number

/-- When `CONVFMT` is assigned, every text a slot keeps for its number is also the text under the new format; and when
it is unset by a copy, so is every text another scalar keeps. -/
def KeepsTexts (state : TrackedState Number) (operation : RuntimeOperation Number) : Prop :=
  ∀ value, operation.stored state.runtime = some ("CONVFMT", value) →
    (∀ slot, 0 ≤ slot → ∀ number cached, state.written slot = .number number →
      (state.runtime.string_slots slot).string = some cached →
      cached = doubles.qk_format_number_with_text number value.format) ∧
    (value = .unset → ∀ name, name ≠ "CONVFMT" → ∀ number cached,
      state.runtime.scalars.find name = some (.number number (some cached)) →
      cached = doubles.qk_format_number_with_text number value.format)

/-- Every text kept in the table is the one the format gives. -/
def TextsUnder (format : Text) (scalars : LinkedTable Name (ScalarEntry Number)) : Prop :=
  ∀ name number cached, scalars.find name = some (.number number (some cached)) →
    cached = doubles.qk_format_number_with_text number format

/-- Every text kept in the table is the one of the format in force. -/
def ScalarTexts (runtime : RuntimeState Number) : Prop :=
  doubles.TextsUnder (runtime.value "CONVFMT").format runtime.scalars

theorem TextsUnder.put {format : Text} {scalars : LinkedTable Name (ScalarEntry Number)}
    (h : doubles.TextsUnder format scalars) (name : Name) {entry : ScalarEntry Number}
    (hentry : ∀ number cached, entry = .number number (some cached) →
      cached = doubles.qk_format_number_with_text number format) :
    doubles.TextsUnder format (scalars.put name entry) := by
  intro other number cached hfind
  rw [LinkedTable.find_put] at hfind
  split_ifs at hfind
  · exact hentry number cached (Option.some.inj hfind)
  · exact h other number cached hfind

theorem textsUnder_empty (format : Text) : doubles.TextsUnder format LinkedTable.empty := by
  intro name number cached hfind
  simp at hfind

theorem textsUnder_invalidated (format : Text) (scalars : LinkedTable Name (ScalarEntry Number)) :
    doubles.TextsUnder format (scalars.map_values ScalarEntry.invalidated) := by
  intro name number cached hfind
  rw [LinkedTable.find_map_values] at hfind
  obtain ⟨entry, _, hentry⟩ := Option.map_eq_some_iff.mp hfind
  cases entry <;> simp [ScalarEntry.invalidated] at hentry

theorem entry_not_cached (value : StoredValue Number) (number : Number) (cached : Text) :
    value.entry ≠ .number number (some cached) := by
  cases value <;> simp [StoredValue.entry]

/-- The text kept under this name, if there is one, is that of the format in force. -/
def KeepsText (other : Name) (runtime : RuntimeState Number) : Prop :=
  ∀ number cached, runtime.scalars.find other = some (.number number (some cached)) →
    cached = doubles.qk_format_number_with_text number (runtime.value "CONVFMT").format

section Keeps

variable {other : Name}

theorem KeepsText.put (h : doubles.KeepsText other runtime) {after : RuntimeState Number} {name : Name}
    {entry : ScalarEntry Number} (hconvfmt : after.value "CONVFMT" = runtime.value "CONVFMT")
    (hscalars : after.scalars = runtime.scalars.put name entry)
    (hentry : ∀ number cached, entry = .number number (some cached) →
      cached = doubles.qk_format_number_with_text number (runtime.value "CONVFMT").format) :
    doubles.KeepsText other after := by
  intro number cached hfind
  rw [hscalars, LinkedTable.find_put] at hfind
  rw [hconvfmt]
  split_ifs at hfind
  · exact hentry number cached (Option.some.inj hfind)
  · exact h number cached hfind

theorem KeepsText.store_entry (h : doubles.KeepsText other runtime) {name : Name} (hname : name ≠ "CONVFMT")
    (value : StoredValue Number) : doubles.KeepsText other (store_entry runtime name value.entry) :=
  h.put doubles (by rw [store_entry_value, if_neg (Ne.symm hname)]) (by rw [store_entry_scalars, if_neg hname])
    fun number cached heq => absurd heq (entry_not_cached value number cached)

theorem KeepsText.string_view (h : doubles.KeepsText other runtime) (name : Name) :
    doubles.KeepsText other (doubles.qk_scalar_string_view runtime name).2 := by
  have hconvfmt := doubles.qk_scalar_string_view_value runtime name "CONVFMT"
  unfold qk_scalar_string_view at hconvfmt ⊢
  split
  · exact h
  · exact h
  · next hfind =>
    rw [hfind] at hconvfmt
    refine h.put doubles hconvfmt rfl fun number cached heq => ?_
    obtain ⟨rfl, htext⟩ := ScalarEntry.number.inj heq
    exact (Option.some.inj htext).symm
  · exact h
  · exact h

/-- While the kept text is current, the text read of a scalar is that of its value. -/
theorem KeepsText.string_view_text (h : doubles.KeepsText other runtime) :
    (doubles.qk_scalar_string_view runtime other).1 =
      doubles.text_of (runtime.value "CONVFMT").format (runtime.value other) := by
  unfold Doubles.qk_scalar_string_view RuntimeState.value
  split
  · next text hfind => rw [hfind]; rfl
  · next number cached hfind =>
    rw [hfind]
    exact h number cached hfind
  · next number hfind => rw [hfind]; rfl
  · next hfind => rw [hfind]; rfl
  · next hfind => rw [hfind]; rfl

theorem KeepsText.store_field_count (h : doubles.KeepsText other runtime) :
    doubles.KeepsText other (doubles.store_field_count runtime) :=
  h.store_entry doubles (by decide : ("NF" : Name) ≠ "CONVFMT") (.number _)

theorem KeepsText.set_record (h : doubles.KeepsText other runtime) (record : RecordState) :
    doubles.KeepsText other { runtime with record := record } := h

theorem KeepsText.rebuild_current_record (h : doubles.KeepsText other runtime) (target_fields : Nat) (index : Int)
    (value : Text) :
    doubles.KeepsText other (doubles.qk_rebuild_current_record runtime target_fields index value) := by
  unfold Doubles.qk_rebuild_current_record
  split_ifs
  · exact (h.set_record doubles _).store_field_count
  · exact h
  · exact (h.set_record doubles _).store_field_count

theorem KeepsText.side_effects (h : doubles.KeepsText other runtime) (name : Name) :
    doubles.KeepsText other (doubles.qk_apply_scalar_side_effects runtime name) := by
  by_cases hnf : name = "NF"
  · rw [hnf, side_effects_nf]
    split_ifs
    · exact h
    · exact (h.rebuild_current_record doubles _ _ _).store_field_count
  · unfold qk_apply_scalar_side_effects
    by_cases hfs : name = "FS"
    · rw [if_pos hfs]
      exact h.string_view doubles "FS"
    · by_cases hrs : name = "RS"
      · rw [if_neg hfs, if_pos hrs]
        exact h.string_view doubles "RS"
      · rw [if_neg hfs, if_neg hrs, if_neg hnf]
        exact h

theorem KeepsText.store (h : doubles.KeepsText other runtime) {name : Name} (hname : name ≠ "CONVFMT")
    (value : StoredValue Number) : doubles.KeepsText other (doubles.store runtime name value) := by
  by_cases hset : value = .unset
  · rw [hset]
    refine h.put doubles ?_ rfl fun number cached heq => nomatch heq
    rw [Doubles.store, qk_clear_scalar_value, if_neg (Ne.symm hname)]
  · rw [store_of_set doubles name hset]
    exact (h.store_entry doubles hname value).side_effects doubles name

end Keeps

theorem ScalarTexts.store (h : doubles.ScalarTexts runtime) {name : Name} (hname : name ≠ "CONVFMT")
    (value : StoredValue Number) : doubles.ScalarTexts (doubles.store runtime name value) :=
  fun other => KeepsText.store doubles (h other) hname value

/-- A value that `CONVFMT` is set to makes every number forget its text. -/
theorem scalarTexts_store_convfmt {value : StoredValue Number} (h : value ≠ .unset) :
    doubles.ScalarTexts (doubles.store runtime "CONVFMT" value) := by
  have htexts : doubles.ScalarTexts (store_entry runtime "CONVFMT" value.entry) := by
    unfold ScalarTexts
    rw [store_entry_scalars, if_pos rfl]
    exact doubles.textsUnder_invalidated _ _
  rw [store_of_set doubles "CONVFMT" h]
  exact fun other => KeepsText.side_effects doubles (htexts other) "CONVFMT"

/-- An unset `CONVFMT` does not, though the default format is in force then. -/
theorem keepsText_clear_convfmt {other : Name} (hother : other ≠ "CONVFMT") :
    doubles.KeepsText other (doubles.store runtime "CONVFMT" .unset) ↔
      ∀ number cached, runtime.scalars.find other = some (.number number (some cached)) →
        cached = doubles.qk_format_number_with_text number (StoredValue.unset : StoredValue Number).format := by
  unfold KeepsText Doubles.store
  rw [qk_clear_scalar_value, if_pos rfl, qk_clear_scalar, LinkedTable.find_put_of_ne _ _ hother]

theorem scalarTexts_clear_convfmt : doubles.ScalarTexts (doubles.store runtime "CONVFMT" .unset) ↔
    ∀ name, name ≠ "CONVFMT" → ∀ number cached, runtime.scalars.find name = some (.number number (some cached)) →
      cached = doubles.qk_format_number_with_text number (StoredValue.unset : StoredValue Number).format := by
  constructor
  · intro htexts name hname
    exact (doubles.keepsText_clear_convfmt hname).mp (htexts name)
  · intro hkeeps name
    by_cases hname : name = "CONVFMT"
    · intro number cached hfind
      rw [hname, Doubles.store, qk_clear_scalar, LinkedTable.find_put_self] at hfind
      cases Option.some.inj hfind
    · exact (doubles.keepsText_clear_convfmt hname).mpr (hkeeps name hname)

/-- A slot holds what it was last given, and a number may have its text beside it. -/
def SlotsHold (state : TrackedState Number) : Prop :=
  ∀ slot, 0 ≤ slot → match state.written slot with
    | .unset => state.runtime.string_slots slot = ⟨none, none⟩
    | .number number => (state.runtime.string_slots slot).number = some number
    | .string text => state.runtime.string_slots slot = ⟨some ( doubles.qk_parse_awk_numeric_prefix text), some text⟩

/-- Every text a slot keeps for its number is the one the format gives. -/
def SlotTexts (format : Text) (state : TrackedState Number) : Prop :=
  ∀ slot, 0 ≤ slot → ∀ number cached, state.written slot = .number number →
    (state.runtime.string_slots slot).string = some cached → cached = doubles.qk_format_number_with_text number format

/-- The texts read are the current ones exactly if the texts kept are. -/
theorem textsAgree_iff {state : TrackedState Number} (h : doubles.SlotsHold state) :
    doubles.TextsAgree state ↔
      doubles.ScalarTexts state.runtime ∧ doubles.SlotTexts (state.runtime.value "CONVFMT").format state := by
  constructor
  · intro hagree
    constructor
    · intro name number cached hfind
      have hvalue : state.runtime.value name = .number number := by
        rw [RuntimeState.value, hfind]
        rfl
      have hview := hagree.scalars name number hvalue
      rw [qk_scalar_string_view, hfind] at hview
      exact hview
    · intro slot hslot number cached hwritten hcached
      have hview := hagree.slots slot hslot number hwritten
      have hcell : state.runtime.string_slots slot =
          ⟨(state.runtime.string_slots slot).number, some cached⟩ := by rw [← hcached]
      rw [qk_slot_get_string, if_neg (not_lt.mpr hslot), hcell] at hview
      exact hview
  · rintro ⟨hscalars, hslots⟩
    constructor
    · intro name number hvalue
      unfold RuntimeState.value at hvalue
      unfold qk_scalar_string_view
      split
      · next hfind => rw [hfind] at hvalue; cases hvalue
      · next other cached hfind =>
        rw [hfind] at hvalue
        obtain rfl : other = number := StoredValue.number.inj hvalue
        exact hscalars name other cached hfind
      · next other hfind =>
        rw [hfind] at hvalue
        obtain rfl : other = number := StoredValue.number.inj hvalue
        rfl
      · next hfind => rw [hfind] at hvalue; cases hvalue
      · next hfind => rw [hfind] at hvalue; cases hvalue
    · intro slot hslot number hwritten
      have hnumber := h slot hslot
      rw [hwritten] at hnumber
      unfold qk_slot_get_string
      rw [if_neg (not_lt.mpr hslot)]
      split
      · next number' cached hcell => exact hslots slot hslot number cached hwritten (by rw [hcell])
      · next hcell => rw [hcell] at hnumber; cases hnumber
      · next number' hcell =>
        rw [hcell] at hnumber
        obtain rfl : number' = number := Option.some.inj hnumber
        rfl

theorem rebuild_string_slots (target_fields : Nat) (index : Int) (value : Text) :
    (doubles.qk_rebuild_current_record runtime target_fields index value).string_slots = runtime.string_slots := by
  unfold Doubles.qk_rebuild_current_record
  split_ifs
  · exact store_entry_string_slots ..
  · rfl
  · exact store_entry_string_slots ..

theorem store_string_slots (name : Name) (value : StoredValue Number) :
    (doubles.store runtime name value).string_slots = runtime.string_slots := by
  by_cases hset : value = .unset
  · rw [hset]
    rfl
  · rw [store_of_set doubles name hset]
    by_cases hnf : name = "NF"
    · rw [hnf, side_effects_nf]
      split_ifs
      · exact store_entry_string_slots ..
      · exact (store_entry_string_slots ..).trans
          ((doubles.rebuild_string_slots _ _ _).trans (store_entry_string_slots ..))
    · unfold qk_apply_scalar_side_effects
      split_ifs <;> simp

section Step

variable {operation : RuntimeOperation Number}
  (hnot : ∀ value, operation.stored runtime ≠ some ("CONVFMT", value))
include hnot

/-- An operation that gives `CONVFMT` no value keeps it, and a text in the table. -/
theorem apply_keeps_text {other : Name} (h : doubles.KeepsText other runtime) :
    doubles.KeepsText other (doubles.apply runtime operation) ∧
    (doubles.apply runtime operation).value "CONVFMT" = runtime.value "CONVFMT" := by
  cases hstored : operation.stored runtime with
  | some stored =>
    obtain ⟨name, value⟩ := stored
    have hname : name ≠ "CONVFMT" := by
      rintro rfl
      exact hnot value hstored
    rw [doubles.apply_stored runtime name hstored, store_value doubles _ _ (by decide), if_neg (Ne.symm hname)]
    exact ⟨h.store doubles hname value, rfl⟩
  | none =>
    cases operation with
    | scalar_set_string | scalar_set_number | scalar_copy => cases hstored
    | scalar_get name => exact ⟨h.string_view doubles name, qk_scalar_string_view_value ..⟩
    | slot_set_string slot_index value =>
      simp only [apply, qk_slot_set_string]
      split_ifs <;> exact ⟨h, rfl⟩
    | slot_set_number slot_index value =>
      simp only [apply, qk_slot_set_number]
      split_ifs <;> exact ⟨h, rfl⟩
    | slot_get_string slot_index =>
      simp only [apply, qk_slot_get_string]
      split_ifs
      · exact ⟨h, rfl⟩
      · split <;> exact ⟨h, rfl⟩
    | set_field_string index value =>
      simp only [apply, Doubles.qk_set_field_string]
      split_ifs
      · exact ⟨h, rfl⟩
      · exact ⟨h.rebuild_current_record doubles _ _ _,
          (doubles.qk_rebuild_current_record_rest _ _ _ _).1 _ (by decide)⟩
    | set_field_number index value =>
      simp only [apply, Doubles.qk_set_field_number, Doubles.qk_set_field_string]
      split_ifs
      · exact ⟨h, rfl⟩
      · exact ⟨h.rebuild_current_record doubles _ _ _,
          (doubles.qk_rebuild_current_record_rest _ _ _ _).1 _ (by decide)⟩
    | read_record line =>
      exact ⟨(h.set_record doubles _).store_field_count, doubles.store_field_count_value (by decide)⟩
    | match_text start length =>
      refine ⟨?_, by simp [apply, qk_match, qk_scalar_set_number_value, store_entry_value]⟩
      exact (h.store_entry doubles (by decide : ("RSTART" : Name) ≠ "CONVFMT") (.number _)).store_entry doubles
        (by decide : ("RLENGTH" : Name) ≠ "CONVFMT") (.number _)

theorem apply_scalar_texts (h : doubles.ScalarTexts runtime) :
    doubles.ScalarTexts (doubles.apply runtime operation) ∧
    (doubles.apply runtime operation).value "CONVFMT" = runtime.value "CONVFMT" :=
  ⟨fun other => (doubles.apply_keeps_text hnot (h other)).1, (doubles.apply_keeps_text hnot (h "CONVFMT")).2⟩

end Step

/-- What an operation does to the slots: it gives one a value, keeps the text of one, or does nothing to them. -/
theorem apply_string_slots (operation : RuntimeOperation Number) (state : TrackedState Number) :
    (doubles.track state operation).runtime.string_slots = state.runtime.string_slots ∧
      (doubles.track state operation).written = state.written ∨
    (∃ slot_index value, (doubles.track state operation).written =
        Function.update state.written slot_index (.string value) ∧
      (doubles.track state operation).runtime.string_slots = Function.update state.runtime.string_slots slot_index
        ⟨some ( doubles.qk_parse_awk_numeric_prefix value), some value⟩) ∨
    (∃ slot_index value, (doubles.track state operation).written =
        Function.update state.written slot_index (.number value) ∧
      (doubles.track state operation).runtime.string_slots =
        Function.update state.runtime.string_slots slot_index ⟨some value, none⟩) ∨
    ∃ slot_index number, state.runtime.string_slots slot_index = ⟨some number, none⟩ ∧
      (doubles.track state operation).written = state.written ∧
      (doubles.track state operation).runtime.string_slots = Function.update state.runtime.string_slots slot_index
        ⟨some number, some (doubles.qk_format_number state.runtime number)⟩ := by
  cases operation with
  | scalar_set_string name value => exact Or.inl ⟨doubles.store_string_slots name (.string value), rfl⟩
  | scalar_set_number name value => exact Or.inl ⟨doubles.store_string_slots name (.number value), rfl⟩
  | scalar_copy target_name source_name =>
    refine Or.inl ⟨?_, rfl⟩
    change (doubles.qk_scalar_copy state.runtime target_name source_name).string_slots = _
    rw [qk_scalar_copy_eq_store]
    exact doubles.store_string_slots target_name _
  | scalar_get name => exact Or.inl ⟨doubles.qk_scalar_string_view_string_slots state.runtime name, rfl⟩
  | slot_set_string slot_index value =>
    by_cases hneg : slot_index < 0
    · simp [track, apply, qk_slot_set_string, RuntimeOperation.written, hneg]
    · refine Or.inr (Or.inl ⟨slot_index, value, ?_⟩)
      simp [track, apply, qk_slot_set_string, RuntimeOperation.written, hneg]
  | slot_set_number slot_index value =>
    by_cases hneg : slot_index < 0
    · simp [track, apply, qk_slot_set_number, RuntimeOperation.written, hneg]
    · refine Or.inr (Or.inr (Or.inl ⟨slot_index, value, ?_⟩))
      simp [track, apply, qk_slot_set_number, RuntimeOperation.written, hneg]
  | slot_get_string slot_index =>
    by_cases hneg : slot_index < 0
    · simp [track, apply, qk_slot_get_string, RuntimeOperation.written, hneg]
    · simp only [track, apply, qk_slot_get_string, RuntimeOperation.written, if_neg hneg]
      split
      · exact Or.inl ⟨rfl, trivial⟩
      · exact Or.inl ⟨rfl, trivial⟩
      · next number hcell => exact Or.inr (Or.inr (Or.inr ⟨slot_index, number, hcell, trivial, rfl⟩))
  | set_field_string index value =>
    refine Or.inl ⟨?_, rfl⟩
    simp only [track, apply, Doubles.qk_set_field_string]
    split_ifs
    · rfl
    · exact doubles.rebuild_string_slots _ _ _
  | set_field_number index value =>
    refine Or.inl ⟨?_, rfl⟩
    simp only [track, apply, Doubles.qk_set_field_number, Doubles.qk_set_field_string]
    split_ifs
    · rfl
    · exact doubles.rebuild_string_slots _ _ _
  | read_record line => exact Or.inl ⟨store_entry_string_slots .., rfl⟩
  | match_text start length =>
    refine Or.inl ⟨?_, rfl⟩
    simp [track, apply, qk_match, qk_scalar_set_number_value]

theorem SlotsHold.track {state : TrackedState Number} (h : doubles.SlotsHold state)
    (operation : RuntimeOperation Number) : doubles.SlotsHold (doubles.track state operation) := by
  intro slot hslot
  have hbefore := h slot hslot
  obtain ⟨hslots, hwritten⟩ | ⟨at_slot, value, hwritten, hslots⟩ | ⟨at_slot, value, hwritten, hslots⟩ |
    ⟨at_slot, number, hcell, hwritten, hslots⟩ := doubles.apply_string_slots operation state
  · rw [hslots, hwritten]
    exact hbefore
  · rw [hslots, hwritten]
    by_cases hsame : slot = at_slot
    · rw [hsame, Function.update_self, Function.update_self]
    · rw [Function.update_of_ne hsame, Function.update_of_ne hsame]
      exact hbefore
  · rw [hslots, hwritten]
    by_cases hsame : slot = at_slot
    · rw [hsame, Function.update_self, Function.update_self]
    · rw [Function.update_of_ne hsame, Function.update_of_ne hsame]
      exact hbefore
  · rw [hslots, hwritten]
    by_cases hsame : slot = at_slot
    · subst hsame
      rw [Function.update_self]
      rw [hcell] at hbefore
      cases hvalue : state.written slot with
      | unset => rw [hvalue] at hbefore; cases hbefore
      | number => rw [hvalue] at hbefore; exact hbefore
      | string => rw [hvalue] at hbefore; cases hbefore
    · rw [Function.update_of_ne hsame]
      exact hbefore

/-- Without a new `CONVFMT` every text a slot keeps stays current. -/
theorem SlotTexts.track {state : TrackedState Number} (hold : doubles.SlotsHold state)
    (h : doubles.SlotTexts (state.runtime.value "CONVFMT").format state) (operation : RuntimeOperation Number) :
    doubles.SlotTexts (state.runtime.value "CONVFMT").format (doubles.track state operation) := by
  intro slot hslot number cached
  obtain ⟨hslots, hwritten⟩ | ⟨at_slot, value, hwritten, hslots⟩ | ⟨at_slot, value, hwritten, hslots⟩ |
    ⟨at_slot, found, hcell, hwritten, hslots⟩ := doubles.apply_string_slots operation state
  · rw [hslots, hwritten]
    exact h slot hslot number cached
  · rw [hslots, hwritten]
    by_cases hsame : slot = at_slot
    · rw [hsame, Function.update_self]
      intro hvalue
      cases hvalue
    · rw [Function.update_of_ne hsame, Function.update_of_ne hsame]
      exact h slot hslot number cached
  · rw [hslots, hwritten]
    by_cases hsame : slot = at_slot
    · rw [hsame, Function.update_self, Function.update_self]
      intro _ hcached
      cases hcached
    · rw [Function.update_of_ne hsame, Function.update_of_ne hsame]
      exact h slot hslot number cached
  · rw [hslots, hwritten]
    by_cases hsame : slot = at_slot
    · subst hsame
      rw [Function.update_self]
      intro hvalue hcached
      have hnumber := hold slot hslot
      rw [hvalue, hcell] at hnumber
      obtain rfl : found = number := Option.some.inj hnumber
      exact (Option.some.inj hcached).symm
    · rw [Function.update_of_ne hsame]
      exact h slot hslot number cached

theorem texts_agree_iff_keeps {state : TrackedState Number} (hold : doubles.SlotsHold state)
    (h : doubles.TextsAgree state) (operation : RuntimeOperation Number) :
    doubles.TextsAgree (doubles.track state operation) ↔ doubles.KeepsTexts state operation := by
  obtain ⟨hscalars, hslots⟩ := (doubles.textsAgree_iff hold).mp h
  rw [doubles.textsAgree_iff (hold.track doubles operation)]
  by_cases hconvfmt : ∃ value, operation.stored state.runtime = some ("CONVFMT", value)
  · obtain ⟨value, hstored⟩ := hconvfmt
    have hafter : (doubles.track state operation).runtime = doubles.store state.runtime "CONVFMT" value :=
      doubles.apply_stored state.runtime "CONVFMT" hstored
    have hwritten : (doubles.track state operation).written = state.written := by
      cases operation <;> first | rfl | cases hstored
    unfold SlotTexts KeepsTexts
    rw [hafter, hwritten, store_value doubles _ _ (by decide), if_pos rfl, store_string_slots]
    simp only [hstored, Option.some.injEq, Prod.mk.injEq, true_and, forall_eq']
    rw [and_comm]
    refine and_congr_right fun _ => ?_
    by_cases hset : value = .unset
    · subst hset
      simp only [forall_const]
      exact doubles.scalarTexts_clear_convfmt
    · exact iff_of_true (doubles.scalarTexts_store_convfmt hset) fun hunset => absurd hunset hset
  · have hnot : ∀ value, operation.stored state.runtime ≠ some ("CONVFMT", value) :=
      fun value hstored => hconvfmt ⟨value, hstored⟩
    obtain ⟨hafter, hformat⟩ := doubles.apply_scalar_texts hnot hscalars
    refine iff_of_true ⟨hafter, ?_⟩ fun value hstored => absurd hstored (hnot value)
    rw [show (doubles.track state operation).runtime.value "CONVFMT" = state.runtime.value "CONVFMT" from hformat]
    exact SlotTexts.track doubles hold hslots operation

/-- What lawful operations keep. -/
structure TextsInvariant (state : TrackedState Number) : Prop where
  agree : doubles.TextsAgree state
  hold : doubles.SlotsHold state

theorem initial_texts (argc : Nat) (field_separator : Option Text) :
    doubles.TextsInvariant (doubles.initial_tracked argc field_separator) := by
  have hold : doubles.SlotsHold (doubles.initial_tracked argc field_separator) := by
    intro slot _
    simp [initial_tracked, qk_runtime_initialize]
  refine ⟨(doubles.textsAgree_iff hold).mpr ⟨?_, ?_⟩, hold⟩
  · unfold ScalarTexts
    generalize ((doubles.initial_tracked argc field_separator).runtime.value "CONVFMT").format = format
    dsimp only [initial_tracked, qk_runtime_initialize]
    iterate 10 refine TextsUnder.put doubles ?_ _ fun number cached heq => by simp at heq
    exact doubles.textsUnder_empty format
  · intro slot _ number cached hwritten
    cases hwritten

/-- In every run, the text read of a scalar or slot that holds a number is after each operation the one the formatter
gives under the `CONVFMT` in force, exactly if no assignment to `CONVFMT` changes a text that a slot keeps, and none
that unsets it a text that a scalar keeps. -/
theorem texts_agree_iff (argc : Nat) (field_separator : Option Text) (operations : List (RuntimeOperation Number)) :
    OperationRun.Every doubles.track (fun state operation => doubles.TextsAgree (doubles.track state operation))
        (doubles.initial_tracked argc field_separator) operations ↔
      OperationRun.Every doubles.track doubles.KeepsTexts (doubles.initial_tracked argc field_separator) operations := by
  refine OperationRun.every_iff (doubles.initial_texts argc field_separator) (fun _ operation h => ?_)
    (fun _ operation h hlaw => ?_) operations
  · exact doubles.texts_agree_iff_keeps h.hold h.agree operation
  · exact ⟨hlaw, h.hold.track doubles operation⟩

/-- A slot that was read as `1` is still `1` after `CONVFMT = "%.1f"`, and a scalar that was read as `1.0` is still
`1.0` after `CONVFMT = unset`. -/
theorem texts_disagree :
    ¬ OperationRun.Every rational.track
        (fun state operation => rational.TextsAgree (rational.track state operation)) (rational.initial_tracked 0 none)
        [.slot_set_number 0 1, .slot_get_string 0, .scalar_set_string "CONVFMT" ['%', '.', '1', 'f']] ∧
    ¬ OperationRun.Every rational.track
        (fun state operation => rational.TextsAgree (rational.track state operation)) (rational.initial_tracked 0 none)
        [.scalar_set_string "CONVFMT" ['%', '.', '1', 'f'], .scalar_set_number "x" 1, .scalar_get "x",
          .scalar_copy "CONVFMT" "unset"] := by
  constructor
  · intro ⟨_, _, hagree, _⟩
    have hread := hagree.slots 0 (by decide) 1 rfl
    revert hread
    decide
  · intro ⟨_, _, _, hagree, _⟩
    have hread := hagree.scalars "x" 1 rfl
    revert hread
    decide

end Doubles

end quawk
