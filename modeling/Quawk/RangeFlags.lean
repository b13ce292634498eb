import Quawk.NumericRuns
import Quawk.PhaseOrder
import Quawk.Preassignments

namespace quawk

open StructuredCode.Code (bind_eq_ok)

def is_range : Option Pattern → Bool
  | some (.range _ _) => true
  | _ => false

def range_names (items : List NormalizedRecordItem) : List Name :=
  items.filterMap NormalizedRecordItem.range_state_name

/-- The range rules so far are numbered in their order. -/
structure RangesNumbered (phases : PhaseItems) : Prop where
  names : range_names phases.record_items = (List.range phases.range_count).map range_state_name
  named : ∀ item ∈ phases.record_items, item.range_state_name.isSome = is_range item.pattern

theorem RangesNumbered.append {phases : PhaseItems} (h : RangesNumbered phases) {item : NormalizedRecordItem}
    (hnone : item.range_state_name = none) (hrange : is_range item.pattern = false) :
    RangesNumbered { phases with record_items := phases.record_items ++ [item] } where
  names := by
    have hitem : range_names [item] = [] := by simp [range_names, hnone]
    exact List.filterMap_append.trans ((congrArg₂ (· ++ ·) h.names hitem).trans (List.append_nil _))
  named other hmem := by
    obtain hmem | hmem := List.mem_append.mp hmem
    · exact h.named other hmem
    · rw [List.mem_singleton.mp hmem, hnone, hrange]
      rfl

theorem normalize_item_numbered {item : Item} {before after : PhaseItems} (h : normalize_item before item = .ok after)
    (hbefore : RangesNumbered before) : RangesNumbered after := by
  match item with
  | .function _ | .pattern_action (some .begin_pattern) (some _) | .pattern_action (some .end_pattern) (some _) =>
    cases h
    exact ⟨hbefore.names, hbefore.named⟩
  | .pattern_action none (some action) | .pattern_action (some (.expr test)) action =>
    cases h
    exact hbefore.append rfl rfl
  | .pattern_action (some (.range left right)) action =>
    cases h
    refine ⟨?_, fun other hmem => ?_⟩
    · have hnames : range_names (before.record_items ++
          [⟨some (.range left right), action, some (range_state_name before.range_count)⟩]) =
          range_names before.record_items ++ [range_state_name before.range_count] := List.filterMap_append
      rw [hnames, hbefore.names, List.range_succ, List.map_append]
      rfl
    · obtain hmem | hmem := List.mem_append.mp hmem
      · exact hbefore.named other hmem
      · rw [List.mem_singleton.mp hmem]
        rfl
  | .pattern_action none none | .pattern_action (some .begin_pattern) none
  | .pattern_action (some .end_pattern) none => cases h

theorem normalize_items_numbered {items : List Item} {before after : PhaseItems}
    (h : items.foldlM normalize_item before = .ok after) (hbefore : RangesNumbered before) : RangesNumbered after := by
  induction items generalizing before with
  | nil =>
    cases h
    exact hbefore
  | cons item rest ih =>
    rw [List.foldlM_cons] at h
    obtain ⟨middle, hitem, hrest⟩ := bind_eq_ok h
    exact ih hrest (normalize_item_numbered hitem hbefore)

theorem subset_note_name (name : Name) (names : List Name) : names ⊆ note_name name [] names := by
  unfold note_name
  split
  · exact List.Subset.refl names
  · exact List.subset_append_left names [name]

theorem mem_note_name (name : Name) (names : List Name) : name ∈ note_name name [] names := by
  unfold note_name
  split
  · next h => exact h.resolve_left List.not_mem_nil
  · exact List.mem_append_right names (List.mem_singleton_self name)

theorem mem_extra_names {extra_names : List Name} (names : List Name) {name : Name} (h : name ∈ extra_names ∨ name ∈ names) :
    name ∈ extra_names.foldl (fun names name => note_name name [] names) names := by
  induction extra_names generalizing names with
  | nil => exact h.resolve_left List.not_mem_nil
  | cons extra rest ih =>
    refine ih _ ?_
    obtain hmem | hmem := h
    · obtain rfl | hmem := List.mem_cons.mp hmem
      · exact .inr (mem_note_name name names)
      · exact .inl hmem
    · exact .inr (subset_note_name extra names hmem)

theorem get_of_mem {variable_indexes : VariableIndexes} {name : Name} (h : name ∈ variable_indexes) :
    ∃ index, variable_indexes.get name = some index := by
  have hany : (variable_indexes.any fun other => other == name) = true :=
    List.any_eq_true.mpr ⟨name, h, beq_self_eq_true name⟩
  exact Option.isSome_iff_exists.mp (List.findIdx?_isSome.trans hany)

/-- Every range rule of a normalised program has a name of its own, and every name a field of `%quawk.state`. -/
structure RangesStored (normalized_program : NormalizedLoweringProgram) : Prop where
  named : ∀ item ∈ normalized_program.record_items, item.range_state_name.isSome = is_range item.pattern
  distinct : (range_names normalized_program.record_items).Nodup
  stored : ∀ name ∈ range_names normalized_program.record_items, is_reusable_runtime_state_name name = true ∧
    ∃ index, normalized_program.variable_indexes.get name = some index

theorem ranges_stored {program : Program} {normalized_program : NormalizedLoweringProgram}
    (h : normalize_program_for_lowering program = .ok normalized_program) : RangesStored normalized_program := by
  obtain ⟨phases, hphases, h⟩ := bind_eq_ok h
  obtain ⟨variable_indexes, hindexes, h⟩ := bind_eq_ok h
  cases h
  have hnumbered := normalize_items_numbered hphases ⟨rfl, fun _ hmem => absurd hmem List.not_mem_nil⟩
  have hinjective : Function.Injective range_state_name := fun _ _ heq => numbered_inj.mp heq
  refine ⟨hnumbered.named, ?_, fun name hmem => ?_⟩
  · change (range_names phases.record_items).Nodup
    rw [hnumbered.names]
    exact List.nodup_range.map hinjective
  · change name ∈ range_names phases.record_items at hmem
    rw [hnumbered.names] at hmem
    obtain ⟨names, _, hindexes⟩ := bind_eq_ok hindexes
    cases hindexes
    have hstored := mem_extra_names names (.inl hmem)
    obtain ⟨position, _, rfl⟩ := List.mem_map.mp hmem
    refine ⟨by simp [is_reusable_runtime_state_name, range_state_name], ?_⟩
    exact get_of_mem hstored

/-- A range rule keeps its own flag: in every phase and function, its flag is read back from a field of `%quawk.state`
that no other range rule and no number has, so that to set it leaves the flags of all other rules and all numbers. -/
theorem range_flags_apart {program : Program} {normalized_program : NormalizedLoweringProgram}
    (hnormal : normalize_program_for_lowering program = .ok normalized_program) {R : Runtime} (unit : LoweredUnit)
    {before behind : List NormalizedRecordItem} {item : NormalizedRecordItem}
    (hitems : normalized_program.record_items = before ++ item :: behind) (hrange : is_range item.pattern = true)
    (machine : Machine R) (flag : Bool) :
    ∃ name index, item.range_state_name = some name ∧
      range_index (phase_state program normalized_program unit) name = some index ∧
      reading (phase_state program normalized_program unit) (machine.store (R.flag_number flag) (.state_field index)) =
        { reading (phase_state program normalized_program unit) machine with
          active := Function.update (reading (phase_state program normalized_program unit) machine).active name flag } ∧
      ∀ other ∈ before ++ behind, ∀ other_name, other.range_state_name = some other_name →
        (reading (phase_state program normalized_program unit)
          (machine.store (R.flag_number flag) (.state_field index))).active other_name =
        (reading (phase_state program normalized_program unit) machine).active other_name := by
  have hstored := ranges_stored hnormal
  have hmem : item ∈ normalized_program.record_items := by rw [hitems]; exact List.mem_append_right _ List.mem_cons_self
  obtain ⟨name, hname⟩ := Option.isSome_iff_exists.mp ((hstored.named item hmem).trans hrange)
  obtain ⟨hreusable, index, hindex⟩ := hstored.stored name (List.mem_filterMap.mpr ⟨item, hmem, hname⟩)
  have haddress : range_index (phase_state program normalized_program unit) name = some index := by
    have hphase : range_index (phase_state program normalized_program unit) name =
        if is_reusable_runtime_state_name name then normalized_program.variable_indexes.get name else none := by
      cases unit <;> rfl
    rw [hphase, if_pos hreusable, hindex]
  have hread := reading_store_flag haddress machine flag
  refine ⟨name, index, hname, haddress, hread, fun other hother other_name hother_name => ?_⟩
  have hne : other_name ≠ name := by
    rintro rfl
    have hdistinct := hstored.distinct
    rw [hitems, range_names, List.filterMap_append, List.filterMap_cons_some hname, List.nodup_middle, List.nodup_cons,
      ← List.filterMap_append] at hdistinct
    exact hdistinct.1 (List.mem_filterMap.mpr ⟨other, hother, hother_name⟩)
  rw [hread]
  exact Function.update_of_ne hne _ _

/-- `a, b` and `c, d` -/
def two_ranges : Program := ⟨[
  .pattern_action (some (.range (.expr (.name "a")) (.expr (.name "b")))) none,
  .pattern_action (some (.range (.expr (.name "c")) (.expr (.name "d")))) none]⟩

theorem range_flags_apart_two : ∃ normalized_program item next,
    normalize_program_for_lowering two_ranges = .ok normalized_program ∧
    normalized_program.record_items = [item, next] ∧
    ∃ name index, item.range_state_name = some name ∧
      range_index (phase_state two_ranges normalized_program .record_phase) name = some index ∧
      reading (phase_state two_ranges normalized_program .record_phase)
          ((printer_machine []).store (printer_runtime.flag_number true) (.state_field index)) =
        { reading (phase_state two_ranges normalized_program .record_phase) (printer_machine []) with
          active := Function.update
            (reading (phase_state two_ranges normalized_program .record_phase) (printer_machine [])).active name true } ∧
      ∀ other ∈ [] ++ [next], ∀ other_name, other.range_state_name = some other_name →
        (reading (phase_state two_ranges normalized_program .record_phase)
          ((printer_machine []).store (printer_runtime.flag_number true) (.state_field index))).active other_name =
        (reading (phase_state two_ranges normalized_program .record_phase) (printer_machine [])).active other_name :=
  ⟨_, _, _, rfl, rfl, range_flags_apart rfl .record_phase rfl rfl (printer_machine []) true⟩

end quawk
