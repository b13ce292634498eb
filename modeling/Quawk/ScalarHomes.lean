import Quawk.UnsetScalars

open StructuredCode (Operands)
open StructuredCode.Code (emit)

namespace quawk

open Numeral (qk_is_full_numeric_string qk_parse_awk_numeric_prefix)

/-- How a scalar is kept: the text of a parameter, a number, a slot that only holds its value, a slot beside the scalar
table, or the table alone. -/
inductive ScalarHome where
  | parameter (slot : Nat)
  | number
  | string_slot (index : Nat)
  | mixed_slot (index : Nat)
  | table

section Kind

variable (state : LoweringState) (name : Name)

def scalar_home : ScalarHome :=
  match state.param_slot name with
  | some slot => .parameter slot
  | none =>
    if runtime_name_uses_numeric_slot_state state name then .number
    else match runtime_name_slot_index state name with
      | some index =>
        if runtime_name_uses_slot_cached_runtime state name then
          if runtime_name_uses_string_slot_runtime state name then .string_slot index else .mixed_slot index
        else .table
      | none => .table

/-- The cell of a scalar that is kept as a number. -/
def number_cell : Option Cell :=
  if runtime_name_uses_local_numeric_storage state name then some (.local_variable name)
  else (state.variable_indexes.get name).map .state_variable

end Kind

section HomeViews

variable (formats : NumberFormats) (state : LoweringState) (name : Name) (cells : ScalarCells)

/-- The number, the text and the truth that the home of a scalar has. -/
def home_number : Numeral.Value :=
  match scalar_home state name with
  | .parameter slot => qk_parse_awk_numeric_prefix ((cells (.parameter slot)).string_view formats)
  | .number => ((number_cell state name).map fun cell => (cells cell).number_view).getD (.finite 0)
  | .string_slot index | .mixed_slot index => (cells (.slot index)).number_view
  | .table => (cells (.entry name.toList)).number_view

def home_text : Text :=
  match scalar_home state name with
  | .parameter slot => (cells (.parameter slot)).string_view formats
  | .number => formats.convfmt (home_number formats state name cells)
  | .string_slot index | .mixed_slot index => (cells (.slot index)).string_view formats
  | .table => (cells (.entry name.toList)).string_view formats

def home_truth : Bool :=
  match scalar_home state name with
  | .parameter _ | .string_slot _ => !(home_text formats state name cells).isEmpty
  | .number => fcmp_one (home_number formats state name cells) (.finite 0)
  | .mixed_slot _ | .table => (cells (.entry name.toList)).truthy

end HomeViews

section HoldsValue

variable (formats : NumberFormats)

/-- The content is read as the value. -/
structure ReadsLike (content value : CellContent) : Prop where
  number : content.number_view = value.number_view
  string : content.string_view formats = value.string_view formats
  truth : content.truthy = value.truthy

/-- The value is what its text is read as. -/
structure TextKeeps (value : CellContent) : Prop where
  number : qk_parse_awk_numeric_prefix (value.string_view formats) = value.number_view
  truth : (!(value.string_view formats).isEmpty) = value.truthy

/-- The value is what its number is read as. -/
structure NumberKeeps (value : CellContent) : Prop where
  string : formats.convfmt value.number_view = value.string_view formats
  truth : fcmp_one value.number_view (.finite 0) = value.truthy

/-- A value that its number keeps is one: the ordered test of the code takes what is no number for false. -/
theorem NumberKeeps.number_truthy {formats : NumberFormats} {value : CellContent} (h : NumberKeeps formats value) :
    (CellContent.number value.number_view).truthy = value.truthy := by
  have htruth := h.truth
  cases hview : value.number_view with
  | finite number => rw [← htruth, hview]; simp [CellContent.truthy, fcmp_one]
  | infinity negative => rw [← htruth, hview]; simp [CellContent.truthy, fcmp_one]
  | nan =>
    rw [hview] at htruth
    cases value with
    | unset => cases hview
    | number number => cases hview; rfl
    | string text =>
      cases text with
      | nil => cases hview
      | cons char text => rfl

/-- The cells of a scalar hold a value. -/
def HoldsValue (state : LoweringState) (name : Name) (cells : ScalarCells) (value : CellContent) : Prop :=
  match scalar_home state name with
  | .parameter slot =>
    (cells (.parameter slot)).string_view formats = value.string_view formats ∧ TextKeeps formats value
  | .number =>
    (∀ cell ∈ number_cell state name, (cells cell).number_view = value.number_view) ∧ NumberKeeps formats value
  | .string_slot index =>
    (cells (.slot index)).number_view = value.number_view ∧
      (cells (.slot index)).string_view formats = value.string_view formats ∧
      (!(value.string_view formats).isEmpty) = value.truthy
  | .mixed_slot index =>
    ReadsLike formats (cells (.slot index)) value ∧ ReadsLike formats (cells (.entry name.toList)) value
  | .table => ReadsLike formats (cells (.entry name.toList)) value

/-- Every read of the scalar gives the value. -/
structure ReadsBack (state : LoweringState) (name : Name) (cells : ScalarCells) (value : CellContent) : Prop where
  string : run_read formats cells (lower_expression state (fun _ => none) (.name name)).string [] =
    some (value.string_view formats, [])
  numeric : run_read formats cells (lower_expression state (fun _ => none) (.name name)).numeric [] =
    some (value.number_view, [])
  condition : (run_read formats cells (lower_expression state (fun _ => none) (.name name)).condition []).map
    (fun result => (result.1.differs, result.2)) = some (value.truthy, [])

end HoldsValue

variable {formats : NumberFormats} {state : LoweringState} {name : Name} {cells : ScalarCells} {value : CellContent}
  {source : Name}

theorem scalar_home_param (h : state.is_function_param_string name = true) :
    ∃ slot, state.param_slot name = some slot ∧ scalar_home state name = .parameter slot := by
  obtain ⟨slot, hslot⟩ := Option.isSome_iff_exists.mp h
  exact ⟨slot, hslot, by simp [scalar_home, hslot]⟩

/-- What is known of a scalar that is no parameter, by its kind. -/
theorem scalar_home_runtime_cases (hruntime : runtime_name_uses_scalar_runtime state name = true)
    (hparam : ¬ state.is_function_param_string name = true) :
    (runtime_name_uses_numeric_slot_state state name = true ∧ scalar_home state name = .number) ∨
    (∃ index, runtime_name_slot_index state name = some index ∧ scalar_home state name = .string_slot index ∧
      runtime_name_uses_slot_cached_runtime state name = true ∧
      runtime_name_uses_string_slot_runtime state name = true ∧ state.type_info name = .string) ∨
    (∃ index, runtime_name_slot_index state name = some index ∧ scalar_home state name = .mixed_slot index ∧
      runtime_name_uses_slot_cached_runtime state name = true ∧ runtime_name_uses_only_scalar_runtime state name = true ∧
      runtime_name_uses_string_slot_runtime state name = false) ∨
    (scalar_home state name = .table ∧ runtime_name_uses_slot_cached_runtime state name = false ∧
      runtime_name_uses_only_scalar_runtime state name = true ∧
      runtime_name_uses_string_slot_runtime state name = false) := by
  have hnone : state.param_slot name = none := by
    simpa [LoweringState.is_function_param_string] using hparam
  by_cases hnumeric : runtime_name_uses_numeric_slot_state state name = true
  · exact Or.inl ⟨hnumeric, by simp [scalar_home, hnone, hnumeric]⟩
  · right
    rw [Bool.not_eq_true] at hnumeric
    cases hindex : runtime_name_slot_index state name with
    | none =>
      have hstring : runtime_name_uses_string_slot_runtime state name = false := by
        simp [runtime_name_uses_string_slot_runtime, hindex]
      refine Or.inr (Or.inr ⟨by simp [scalar_home, hnone, hnumeric, hindex], ?_, ?_, hstring⟩)
      · simp [runtime_name_uses_slot_cached_runtime, hindex]
      · simp [runtime_name_uses_only_scalar_runtime, hruntime, hnumeric, hstring]
    | some index =>
      by_cases hstring : runtime_name_uses_string_slot_runtime state name = true
      · have htype : state.type_info name = .string := by
          simpa [runtime_name_uses_string_slot_runtime, hruntime, hindex, runtime_name_is_inferred_string] using hstring
        have hcached : runtime_name_uses_slot_cached_runtime state name = true := by
          simp [runtime_name_uses_slot_cached_runtime, hruntime, hindex, htype, hnumeric,
            runtime_name_uses_local_numeric_storage, runtime_name_is_inferred_numeric]
        exact Or.inl ⟨index, rfl, by simp [scalar_home, hnone, hnumeric, hindex, hcached, hstring], hcached, hstring,
          htype⟩
      · right
        rw [Bool.not_eq_true] at hstring
        have htable : runtime_name_uses_only_scalar_runtime state name = true := by
          simp [runtime_name_uses_only_scalar_runtime, hruntime, hnumeric, hstring]
        cases hcached : runtime_name_uses_slot_cached_runtime state name with
        | true =>
          exact Or.inl ⟨index, rfl, by simp [scalar_home, hnone, hnumeric, hindex, hcached, hstring], rfl, htable,
            hstring⟩
        | false =>
          exact Or.inr ⟨by simp [scalar_home, hnone, hnumeric, hindex, hcached], rfl, htable, hstring⟩

theorem scalar_home_cases (hscalar : ProgramScalar state name) (hparam : ¬ state.is_function_param_string name = true) :
    (runtime_name_uses_numeric_slot_state state name = true ∧ scalar_home state name = .number) ∨
    (∃ index, runtime_name_slot_index state name = some index ∧ scalar_home state name = .string_slot index ∧
      runtime_name_uses_slot_cached_runtime state name = true ∧
      runtime_name_uses_string_slot_runtime state name = true ∧ state.type_info name = .string) ∨
    (∃ index, runtime_name_slot_index state name = some index ∧ scalar_home state name = .mixed_slot index ∧
      runtime_name_uses_slot_cached_runtime state name = true ∧ runtime_name_uses_only_scalar_runtime state name = true ∧
      runtime_name_uses_string_slot_runtime state name = false) ∨
    (scalar_home state name = .table ∧ runtime_name_uses_slot_cached_runtime state name = false ∧
      runtime_name_uses_only_scalar_runtime state name = true ∧
      runtime_name_uses_string_slot_runtime state name = false) :=
  scalar_home_runtime_cases (hscalar.uses_scalar_runtime (Bool.eq_false_iff.mpr hparam)) hparam

/-- The address of a number is its cell. -/
theorem variable_address_eq (hscalar : ProgramScalar state name)
    (hparam : ¬ state.is_function_param_string name = true) :
    ∃ cell, number_cell state name = some cell ∧ cell ∈ name_cells state name ∧
      ∃ f : Op [] .addr, (variable_address state name : Code ReadValue Cell) = emit f () ∧
        (∀ formats cells, read_op formats cells f () = some cell) ∧ ∀ formats, printed_by formats f () = [] := by
  have hknown := hscalar.known.resolve_right hparam
  unfold number_cell variable_address
  by_cases hlocal : runtime_name_uses_local_numeric_storage state name = true
  · rw [if_pos hlocal, if_pos hlocal]
    exact ⟨.local_variable name, rfl, mem_name_cells.mpr (Or.inl rfl), .local_variable name, rfl, fun _ _ => rfl,
      fun _ => rfl⟩
  · rw [if_neg hlocal, if_neg hlocal]
    cases hindex : state.variable_indexes.get name with
    | none =>
      have hnone := List.findIdx?_eq_none_iff.mp hindex name hknown
      simp at hnone
    | some index =>
      exact ⟨.state_variable index, rfl, mem_name_cells.mpr (Or.inr (Or.inr (Or.inl ⟨index, hindex, rfl⟩))),
        .state_variable name index, rfl, fun _ _ => rfl, fun _ => rfl⟩

theorem param_read {slot : Nat} (hslot : state.param_slot name = some slot) (output : Text) :
    run_read formats cells (load_runtime_function_param_string state name) output =
      some ((cells (.parameter slot)).string_view formats, output) := by
  unfold load_runtime_function_param_string
  rw [hslot]
  exact run_read_emit rfl rfl output

/-- What a scalar is read as, by its home. -/
theorem run_read_home_number (hscalar : ProgramScalar state name) (output : Text) :
    run_read formats cells (lower_runtime_numeric_name state name) output =
      some (home_number formats state name cells, output) := by
  obtain ⟨hnr, hfnr, hnf, -⟩ := hscalar.names
  unfold lower_runtime_numeric_name home_number
  rw [if_neg hnr, if_neg hfnr, if_neg hnf]
  by_cases hparam : state.is_function_param_string name = true
  · obtain ⟨slot, hslot, hhome⟩ := scalar_home_param hparam
    rw [hhome, if_pos hparam, run_read_bind, param_read hslot, Option.bind_some]
    exact run_read_emit rfl rfl output
  · rw [if_neg hparam]
    have hreusable : ¬ is_reusable_runtime_state_name name = true := by simp [hscalar.reusable]
    obtain ⟨hnumeric, hhome⟩ | ⟨index, hindex, hhome, hcached, hstring, -⟩ | ⟨index, hindex, hhome, hcached, htable, -⟩ |
      ⟨hhome, hcached, htable, -⟩ := scalar_home_cases hscalar hparam
    all_goals rw [hhome]
    · obtain ⟨cell, hcell, -, f, haddress, hread, hprinted⟩ := variable_address_eq hscalar hparam
      rw [if_pos (Or.inr hnumeric), haddress, run_read_emit_bind (hread formats cells) (hprinted formats), hcell]
      exact run_read_emit rfl rfl output
    · have hnumeric := cached_not_numeric_slot hcached
      rw [if_neg (by simp [hscalar.reusable, hnumeric])]
      unfold lower_runtime_scalar_name lower_runtime_constant_string lower_runtime_current_number
      rw [run_read_emit_bind rfl rfl, hindex]
      dsimp only
      rw [if_pos hcached]
      exact run_read_emit rfl rfl output
    · have hnumeric := cached_not_numeric_slot hcached
      rw [if_neg (by simp [hscalar.reusable, hnumeric])]
      unfold lower_runtime_scalar_name lower_runtime_constant_string lower_runtime_current_number
      rw [run_read_emit_bind rfl rfl, hindex]
      dsimp only
      rw [if_pos hcached]
      exact run_read_emit rfl rfl output
    · have hnumeric := table_not_numeric_slot htable
      rw [if_neg (by simp [hscalar.reusable, hnumeric])]
      unfold lower_runtime_scalar_name lower_runtime_constant_string lower_runtime_current_number
      rw [run_read_emit_bind rfl rfl, hcached]
      split
      · exact run_read_emit rfl rfl output
      · exact run_read_emit rfl rfl output

theorem run_read_home_text (hscalar : ProgramScalar state name) (output : Text) :
    run_read formats cells (lower_runtime_string_name state (fun _ => none) name) output =
      some (home_text formats state name cells, output) := by
  have hnumber (output : Text) : run_read formats cells (lower_runtime_numeric_name state name) output =
      some (home_number formats state name cells, output) := run_read_home_number hscalar output
  unfold lower_runtime_string_name home_text
  rw [if_neg (by simp [hscalar.loop])]
  by_cases hparam : state.is_function_param_string name = true
  · obtain ⟨slot, hslot, hhome⟩ := scalar_home_param hparam
    rw [hhome, if_pos hparam, param_read hslot]
  · rw [if_neg hparam, if_neg hscalar.names.2.2.2]
    obtain ⟨hnumeric, hhome⟩ | ⟨index, hindex, hhome, hcached, hstring, -⟩ | ⟨index, hindex, hhome, hcached, htable, -⟩ |
      ⟨hhome, hcached, htable, -⟩ := scalar_home_cases hscalar hparam
    all_goals rw [hhome]
    · have hformatted : run_read formats cells
          (lower_runtime_formatted_number (lower_runtime_numeric_name state name)) output =
            some (formats.convfmt (home_number formats state name cells), output) := by
        unfold lower_runtime_formatted_number
        rw [run_read_bind, hnumber, Option.bind_some]
        exact run_read_emit rfl rfl output
      have hcached : ¬ runtime_name_uses_slot_cached_runtime state name = true := fun hcached => by
        rw [cached_not_numeric_slot hcached] at hnumeric
        cases hnumeric
      have htable : ¬ runtime_name_uses_only_scalar_runtime state name = true := fun htable => by
        rw [table_not_numeric_slot htable] at hnumeric
        cases hnumeric
      split
      · rw [if_neg hcached, if_neg htable]
        exact hformatted
      · rw [if_neg htable]
        exact hformatted
    · rw [hindex]
      dsimp only
      rw [if_pos hcached]
      exact run_read_emit rfl rfl output
    · rw [hindex]
      dsimp only
      rw [if_pos hcached]
      exact run_read_emit rfl rfl output
    · have htable_read : run_read formats cells (do
          let scalar_name ← lower_runtime_scalar_name name
          emit .qk_scalar_get_inline (scalar_name, ())) output =
            some ((cells (.entry name.toList)).string_view formats, output) := by
        unfold lower_runtime_scalar_name lower_runtime_constant_string
        rw [run_read_emit_bind rfl rfl]
        exact run_read_emit rfl rfl output
      rw [hcached]
      split
      · rw [if_neg Bool.false_ne_true, if_pos htable]
        exact htable_read
      · rw [if_pos htable]
        exact htable_read

theorem run_string_truth {string : Code ReadValue Text} {text : Text}
    (h : run_read formats cells string [] = some (text, [])) :
    (run_read formats cells (lower_runtime_string_truthiness string) []).map
      (fun result => (result.1.differs, result.2)) = some (!text.isEmpty, []) := by
  unfold lower_runtime_string_truthiness
  rw [run_read_bind, h]
  cases text <;> rfl

theorem run_read_home_truth (hscalar : ProgramScalar state name) :
    (run_read formats cells (lower_condition_name state (fun _ => none) name) []).map
      (fun result => (result.1.differs, result.2)) = some (home_truth formats state name cells, []) := by
  have hnumber : run_read formats cells (lower_runtime_numeric_name state name) [] =
      some (home_number formats state name cells, []) := run_read_home_number hscalar []
  have htext : run_read formats cells (lower_runtime_string_name state (fun _ => none) name) [] =
      some (home_text formats state name cells, []) := run_read_home_text hscalar []
  unfold lower_condition_name lower_condition_default home_truth
  by_cases hparam : state.is_function_param_string name = true
  · obtain ⟨slot, hslot, hhome⟩ := scalar_home_param hparam
    rw [hhome, if_neg (by simp [runtime_name_uses_only_scalar_runtime, param_not_scalar hparam]),
      if_pos (by simp [runtime_expression_is_known_string, hparam]), run_string_truth htext]
  · obtain ⟨hnumeric, hhome⟩ | ⟨index, hindex, hhome, hcached, hstring, htype⟩ |
      ⟨index, hindex, hhome, hcached, htable, -⟩ | ⟨hhome, hcached, htable, -⟩ := scalar_home_cases hscalar hparam
    all_goals rw [hhome]
    · have htype : state.type_info name = .numeric := by
        simp only [runtime_name_uses_numeric_slot_state, Bool.and_eq_true, runtime_name_is_inferred_numeric,
          decide_eq_true_eq] at hnumeric
        exact hnumeric.1.2
      rw [if_neg (by simp [runtime_name_uses_only_scalar_runtime, hnumeric]),
        if_neg (by simp [runtime_expression_is_known_string, hparam, hscalar.loop, hscalar.names.2.2.2,
          runtime_name_is_inferred_string, htype])]
      unfold lower_runtime_number_truthiness
      rw [run_read_bind, hnumber]
      rfl
    · rw [if_neg (by simp [runtime_name_uses_only_scalar_runtime, hstring]),
        if_pos (by simp [runtime_expression_is_known_string, runtime_name_is_inferred_string, htype]),
        run_string_truth htext]
    · rw [if_pos htable]
      rfl
    · rw [if_pos htable]
      rfl

theorem HoldsValue.home_number_eq (hscalar : ProgramScalar state name) (h : HoldsValue formats state name cells value) :
    home_number formats state name cells = value.number_view := by
  unfold HoldsValue at h
  unfold home_number
  cases hhome : scalar_home state name with
  | parameter slot =>
    rw [hhome] at h
    exact (congrArg qk_parse_awk_numeric_prefix h.1).trans h.2.number
  | number =>
    rw [hhome] at h
    have hparam : ¬ state.is_function_param_string name = true := fun hparam => by
      obtain ⟨slot, _, hother⟩ := scalar_home_param hparam
      rw [hother] at hhome
      cases hhome
    obtain ⟨cell, hcell, -⟩ := variable_address_eq hscalar hparam
    dsimp only
    rw [hcell]
    exact h.1 cell hcell
  | string_slot index =>
    rw [hhome] at h
    exact h.1
  | mixed_slot index =>
    rw [hhome] at h
    exact h.1.number
  | table =>
    rw [hhome] at h
    exact h.number

theorem HoldsValue.home_text_eq (hscalar : ProgramScalar state name) (h : HoldsValue formats state name cells value) :
    home_text formats state name cells = value.string_view formats := by
  have hnumber := h.home_number_eq hscalar
  unfold HoldsValue at h
  unfold home_text
  cases hhome : scalar_home state name with
  | parameter slot =>
    rw [hhome] at h
    exact h.1
  | number =>
    rw [hhome] at h
    exact (congrArg formats.convfmt hnumber).trans h.2.string
  | string_slot index =>
    rw [hhome] at h
    exact h.2.1
  | mixed_slot index =>
    rw [hhome] at h
    exact h.1.string
  | table =>
    rw [hhome] at h
    exact h.string

theorem HoldsValue.home_truth_eq (hscalar : ProgramScalar state name) (h : HoldsValue formats state name cells value) :
    home_truth formats state name cells = value.truthy := by
  have hnumber := h.home_number_eq hscalar
  have htext := h.home_text_eq hscalar
  unfold HoldsValue at h
  unfold home_truth
  cases hhome : scalar_home state name with
  | parameter slot =>
    rw [hhome] at h
    dsimp only
    rw [htext]
    exact h.2.truth
  | number =>
    rw [hhome] at h
    dsimp only
    rw [hnumber]
    exact h.2.truth
  | string_slot index =>
    rw [hhome] at h
    dsimp only
    rw [htext]
    exact h.2.2
  | mixed_slot index =>
    rw [hhome] at h
    exact h.2.truth
  | table =>
    rw [hhome] at h
    exact h.truth

theorem HoldsValue.numeric (hscalar : ProgramScalar state name) (h : HoldsValue formats state name cells value) (output : Text) :
    run_read formats cells (lower_runtime_numeric_name state name) output = some (value.number_view, output) := by
  rw [run_read_home_number hscalar, h.home_number_eq hscalar]

theorem HoldsValue.string (hscalar : ProgramScalar state name) (h : HoldsValue formats state name cells value) (output : Text) :
    run_read formats cells (lower_runtime_string_name state (fun _ => none) name) output =
      some (value.string_view formats, output) := by
  rw [run_read_home_text hscalar, h.home_text_eq hscalar]

theorem HoldsValue.condition (hscalar : ProgramScalar state name) (h : HoldsValue formats state name cells value) :
    (run_read formats cells (lower_condition_name state (fun _ => none) name) []).map
      (fun result => (result.1.differs, result.2)) = some (value.truthy, []) := by
  rw [run_read_home_truth hscalar, h.home_truth_eq hscalar]

theorem HoldsValue.reads_back (hscalar : ProgramScalar state name) (h : HoldsValue formats state name cells value) :
    ReadsBack formats state name cells value where
  string := by
    rw [lower_expression_name]
    exact h.string hscalar []
  numeric := by
    rw [lower_expression_name]
    exact h.numeric hscalar []
  condition := by
    rw [lower_expression_name]
    exact h.condition hscalar

end quawk
