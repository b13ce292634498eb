import Quawk.Driver
import Quawk.StatementErrors

open StructuredCode.Code (bind_eq_ok)

namespace quawk

variable {V : Ty → Type} {names local_names : List Name}

theorem note_name_nodup (name : Name) (h : names.Nodup) : (note_name name local_names names).Nodup := by
  unfold note_name
  split
  · exact h
  · rename_i hnew
    exact List.nodup_append.mpr ⟨h, List.nodup_singleton name, by grind⟩

mutual

theorem index_expression_nodup (local_names : List Name) : (expression : Expr) → (names : List Name) → names.Nodup →
    (index_expression local_names expression names).Nodup
  | .name name, _, h => note_name_nodup name h
  | .array_index array_name index extra_indexes, _, h =>
    index_expressions_nodup local_names extra_indexes _
      (index_expression_nodup local_names index _ (note_name_nodup array_name h))
  | .binary left _ right, _, h =>
    index_expression_nodup local_names right _ (index_expression_nodup local_names left _ h)
  | .conditional test if_true if_false, _, h =>
    index_expression_nodup local_names if_false _
      (index_expression_nodup local_names if_true _ (index_expression_nodup local_names test _ h))
  | .assign target _ value, _, h =>
    index_expression_nodup local_names value _ (index_lvalue_nodup local_names target _ h)
  | .unary _ operand, _, h => index_expression_nodup local_names operand _ h
  | .postfix_op operand _, _, h => index_expression_nodup local_names operand _ h
  | .field index, _, h => index_expression_nodup local_names index _ h
  | .call _ args, _, h => index_expressions_nodup local_names args _ h
  | .getline (some target) (some source), _, h =>
    index_expression_nodup local_names source _ (index_lvalue_nodup local_names target _ h)
  | .getline (some target) none, _, h => index_lvalue_nodup local_names target _ h
  | .getline none (some source), _, h => index_expression_nodup local_names source _ h
  | .getline none none, _, h | .string_literal _, _, h | .numeric_literal _, _, h | .regex_literal _, _, h
  | .field_at _, _, h => h

theorem index_expressions_nodup (local_names : List Name) : (expressions : List Expr) → (names : List Name) →
    names.Nodup → (index_expressions local_names expressions names).Nodup
  | [], _, h => h
  | expression :: rest, _, h =>
    index_expressions_nodup local_names rest _ (index_expression_nodup local_names expression _ h)

theorem index_lvalue_nodup (local_names : List Name) : (target : LValue) → (names : List Name) → names.Nodup →
    (index_lvalue local_names target names).Nodup
  | .name name, _, h => note_name_nodup name h
  | .array name subscripts, _, h => index_expressions_nodup local_names subscripts _ (note_name_nodup name h)
  | .field index, _, h => index_expression_nodup local_names index _ h

end

theorem index_option_nodup (value : Option Expr) (h : names.Nodup) : (index_option local_names value names).Nodup := by
  cases value with
  | none => exact h
  | some value => exact index_expression_nodup local_names value _ h

mutual

theorem index_statement_nodup : (statement : Stmt) → (local_names names : List Name) → names.Nodup →
    (index_statement statement local_names names).Nodup
  | .assign target _ value, local_names, _, h =>
    index_expression_nodup local_names value _ (index_lvalue_nodup local_names target _ h)
  | .expr value, local_names, _, h => index_expression_nodup local_names value _ h
  | .block statements, local_names, _, h => index_statements_nodup statements local_names _ h
  | .delete target, local_names, _, h => index_lvalue_nodup local_names target _ h
  | .if_stmt condition then_branch none, local_names, _, h =>
    index_statement_nodup then_branch local_names _ (index_expression_nodup local_names condition _ h)
  | .if_stmt condition then_branch (some else_branch), local_names, _, h =>
    index_statement_nodup else_branch local_names _
      (index_statement_nodup then_branch local_names _ (index_expression_nodup local_names condition _ h))
  | .while_stmt condition body, local_names, _, h =>
    index_statement_nodup body local_names _ (index_expression_nodup local_names condition _ h)
  | .do_while body condition, local_names, _, h =>
    index_expression_nodup local_names condition _ (index_statement_nodup body local_names _ h)
  | .for_stmt init condition update body, local_names, _, h =>
    index_statement_nodup body local_names _ (index_expressions_nodup local_names update _
      (index_option_nodup condition (index_expressions_nodup local_names init _ h)))
  | .for_in name iterable body, local_names, _, h =>
    index_statement_nodup body (name :: local_names) _
      (index_expression_nodup local_names iterable _ (note_name_nodup name h))
  | .print arguments _, local_names, _, h | .printf arguments _, local_names, _, h =>
    index_option_nodup _ (index_expressions_nodup local_names arguments _ h)
  | .return_stmt value, _, _, h => index_option_nodup value h
  | .break_stmt, _, _, h | .continue_stmt, _, _, h | .next, _, _, h | .nextfile, _, _, h | .exit _, _, _, h => h

theorem index_statements_nodup : (statements : List Stmt) → (local_names names : List Name) → names.Nodup →
    (index_statements statements local_names names).Nodup
  | [], _, _, h => h
  | statement :: rest, local_names, _, h =>
    index_statements_nodup rest local_names _ (index_statement_nodup statement local_names _ h)

end

theorem index_pattern_nodup (pattern : Pattern) {later : List Name} (h : names.Nodup)
    (hindex : index_pattern pattern names = .ok later) : later.Nodup := by
  induction pattern generalizing names later with
  | begin_pattern | end_pattern => cases hindex
  | expr test =>
    cases hindex
    exact index_expression_nodup [] test _ h
  | range left right ih_left ih_right =>
    obtain ⟨between, hleft, hright⟩ := bind_eq_ok hindex
    exact ih_right (ih_left h hleft) hright

theorem index_item_nodup (item : Item) {later : List Name} (h : names.Nodup)
    (hindex : index_item item names = .ok later) : later.Nodup := by
  match item with
  | .function definition =>
    cases hindex
    exact index_statements_nodup definition.body definition.params _ h
  | .pattern_action _ none =>
    cases hindex
    exact h
  | .pattern_action none (some action) | .pattern_action (some .begin_pattern) (some action)
  | .pattern_action (some .end_pattern) (some action) =>
    cases hindex
    exact index_statements_nodup action [] _ h
  | .pattern_action (some (.expr test)) (some action) =>
    cases hindex
    exact index_statements_nodup action [] _ (index_expression_nodup [] test _ h)
  | .pattern_action (some (.range left right)) (some action) =>
    obtain ⟨between, hpattern, hindex⟩ := bind_eq_ok hindex
    cases hindex
    exact index_statements_nodup action [] _ (index_pattern_nodup _ h hpattern)

theorem index_items_nodup {items : List Item} {later : List Name} (h : names.Nodup)
    (hindex : items.foldlM (fun names item => index_item item names) names = .ok later) : later.Nodup := by
  induction items generalizing names with
  | nil =>
    cases hindex
    exact h
  | cons item rest ih =>
    rw [List.foldlM_cons] at hindex
    obtain ⟨next, hitem, hrest⟩ := bind_eq_ok hindex
    exact ih (index_item_nodup item h hitem) hrest

theorem note_names_nodup (extra_names : List Name) (h : names.Nodup) :
    (extra_names.foldl (fun names name => note_name name [] names) names).Nodup := by
  induction extra_names generalizing names with
  | nil => exact h
  | cons name rest ih => exact ih (note_name_nodup name h)

/-- The names of a program are indexed once each. -/
theorem variable_indexes_nodup {program : Program} {normalized_program : NormalizedLoweringProgram}
    (h : normalize_program_for_lowering program = .ok normalized_program) :
    normalized_program.variable_indexes.Nodup ∧ normalized_program.slot_allocation =
      allocate_slots_for_variable_indexes normalized_program.variable_indexes := by
  obtain ⟨phases, _, h⟩ := bind_eq_ok h
  obtain ⟨variable_indexes, hindexes, h⟩ := bind_eq_ok h
  cases h
  refine ⟨?_, rfl⟩
  obtain ⟨collected, hcollected, hindexes⟩ := bind_eq_ok hindexes
  cases hindexes
  exact note_names_nodup _ (index_items_nodup List.nodup_nil hcollected)

/-- What the driver and the lowered program must agree on. -/
structure LayoutAgrees (normalized_program : NormalizedLoweringProgram) (storage : NameIndexes)
    (blocks : ProgramBlocks V) : Prop where
  /-- Every field the program uses is one of the driver's, under the name it has there. -/
  accesses : blocks.Proper (fun name index => (name, index) ∈ storage) True
  one_index : ∀ name index other_name other_index, (name, index) ∈ storage → (other_name, other_index) ∈ storage →
    (name = other_name ↔ index = other_index)
  declared : ∀ name index, (name, index) ∈ storage →
    ∃ fields, render_state_type normalized_program.slot_allocation = some fields ∧ index < fields
  /-- The driver sets the field to zero first. -/
  zeroed : ∀ {Number : Type} ( awk_numeric_prefix : Text → Number) (initial_variables : InitialVariables Number),
    ∀ name index, (name, index) ∈ storage →
      [.state_field (state_init name) index, .store_zero (state_init name)] <:+:
        render_driver_state_setup awk_numeric_prefix storage initial_variables
  null_unused : ∀ {Number : Type} ( awk_numeric_prefix : Text → Number) (initial_variables : InitialVariables Number),
    .null_state "%state" ∈ render_driver_state_setup awk_numeric_prefix storage initial_variables →
      blocks.Proper (fun _ _ => False) True

theorem get_mem_zipIdx {variable_indexes : VariableIndexes} {name : Name} {index : Nat}
    (h : variable_indexes.get name = some index) : (name, index) ∈ variable_indexes.zipIdx := by
  obtain ⟨hlt, hname, _⟩ := List.findIdx?_eq_some_iff_getElem.mp h
  rw [List.mem_zipIdx_iff_getElem?]
  exact List.getElem?_eq_some_iff.mpr ⟨hlt, by simpa using hname⟩

section Storage

variable {variable_indexes : VariableIndexes} {type_info : VariableTypes} {name : Name} {index : Nat}

theorem mem_state_storage : (name, index) ∈ state_storage_indexes variable_indexes type_info
      (allocate_slots_for_variable_indexes variable_indexes) ↔
    (name, index) ∈ variable_indexes.zipIdx ∧
      (is_reusable_runtime_state_name name = true ∨
        is_builtin_variable_name name = false ∧ is_reusable_runtime_state_name name = false ∧
          type_info name = .numeric) := by
  simp only [state_storage_indexes, List.mem_mergeSort, List.mem_append, reusable_runtime_state_indexes,
    runtime_numeric_slot_indexes, runtime_slot_indexes, allocate_slots_for_variable_indexes, List.mem_filter,
    List.mem_map, Prod.exists, decide_eq_true_eq]
  grind

/-- A scalar that lowering keeps as a number has a slot. -/
theorem numeric_slot_state_stored {state : LoweringState}
    (h : runtime_name_uses_numeric_slot_state state name = true) :
    is_builtin_variable_name name = false ∧ is_reusable_runtime_state_name name = false ∧
      state.type_info name = .numeric := by
  simp only [runtime_name_uses_numeric_slot_state, runtime_name_slot_index, runtime_name_is_inferred_numeric,
    Bool.and_eq_true, decide_eq_true_eq] at h
  grind

end Storage

section Setup

variable {Number : Type} ( awk_numeric_prefix : Text → Number) {storage : NameIndexes}
  (initial_variables : InitialVariables Number)

theorem zeroed_before {name : Name} {index : Nat} (h : (name, index) ∈ storage) :
    [.state_field (state_init name) index, .store_zero (state_init name)] <:+:
      render_driver_state_setup awk_numeric_prefix storage initial_variables := by
  obtain ⟨before, after, rfl⟩ := List.append_of_mem h
  have hsetup : render_driver_state_setup awk_numeric_prefix (before ++ (name, index) :: after) initial_variables =
      [.alloca_state "%state.storage", .state_pointer "%state"] ++
        render_state_init (before ++ (name, index) :: after) ++
        render_state_preassign awk_numeric_prefix (before ++ (name, index) :: after) initial_variables := by
    cases before <;> rfl
  rw [hsetup]
  refine List.IsInfix.trans ?_ (List.infix_append _ _ _)
  exact ⟨render_state_init before, render_state_init after, by simp [render_state_init]⟩

variable { awk_numeric_prefix initial_variables}

/-- The driver passes a null state only where it stores no name. -/
theorem storage_empty_of_null
    (h : .null_state "%state" ∈ render_driver_state_setup awk_numeric_prefix storage initial_variables) :
    storage = [] := by
  cases storage with
  | nil => rfl
  | cons first rest =>
    have hsetup : render_driver_state_setup awk_numeric_prefix (first :: rest) initial_variables =
        [.alloca_state "%state.storage", .state_pointer "%state"] ++ render_state_init (first :: rest) ++
          render_state_preassign awk_numeric_prefix (first :: rest) initial_variables := rfl
    rw [hsetup] at h
    obtain h | h := List.mem_append.mp h
    · obtain h | h := List.mem_append.mp h
      · simp at h
      · simp [render_state_init] at h
    · obtain ⟨⟨name, value⟩, _, h⟩ := List.mem_flatMap.mp h
      dsimp only at h
      split at h
      · cases h
      · simp at h

end Setup

/-- Driver and program agree on the state layout, whatever program is lowered. -/
theorem state_layout_agrees {program : Program} {normalized_program : NormalizedLoweringProgram}
    (h : normalize_program_for_lowering program = .ok normalized_program) :
    LayoutAgrees normalized_program
      (state_storage_indexes normalized_program.variable_indexes (infer_variable_types program)
        normalized_program.slot_allocation)
      (lower_reusable_program program normalized_program (infer_variable_types program) : ProgramBlocks V) := by
  obtain ⟨hnodup, hslots⟩ := variable_indexes_nodup h
  have hmem (name : Name) (index : Nat) : (name, index) ∈ state_storage_indexes normalized_program.variable_indexes
      (infer_variable_types program) normalized_program.slot_allocation → (name, index) ∈
        normalized_program.variable_indexes.zipIdx := by
    rw [hslots, mem_state_storage]
    exact And.left
  have haccesses : (lower_reusable_program program normalized_program (infer_variable_types program) :
      ProgramBlocks V).Proper (fun name index => (name, index) ∈ state_storage_indexes
        normalized_program.variable_indexes (infer_variable_types program) normalized_program.slot_allocation)
        True := by
    refine program_proper h _ (fun unit name index hname hindex => ?_) (fun _ _ _ _ => .inl trivial)
      fun _ _ => .inl trivial
    rw [hslots, mem_state_storage]
    cases unit with
    | _ => exact ⟨get_mem_zipIdx hindex, hname.imp_right numeric_slot_state_stored⟩
  refine ⟨haccesses, fun name index other_name other_index hfirst hsecond => ?_, fun name index hstored => ?_,
    fun prefix_number initial_variables name index hstored => ?_, fun prefix_number initial_variables hnull => ?_⟩
  · have hname := List.mem_zipIdx_iff_getElem?.mp (hmem _ _ hfirst)
    have hother := List.mem_zipIdx_iff_getElem?.mp (hmem _ _ hsecond)
    constructor
    · rintro rfl
      exact (List.getElem?_inj (List.getElem?_eq_some_iff.mp hname).1 hnodup).mp (hname.trans hother.symm)
    · rintro rfl
      exact Option.some.inj (hname.symm.trans hother)
  · have hlt : index < normalized_program.slot_allocation.slots.length := by
      obtain ⟨hlt, _⟩ := List.getElem?_eq_some_iff.mp (List.mem_zipIdx_iff_getElem?.mp (hmem _ _ hstored))
      simpa [hslots, allocate_slots_for_variable_indexes] using hlt
    exact ⟨_, if_neg (by omega), hlt⟩
  · exact zeroed_before prefix_number initial_variables hstored
  · have hempty := storage_empty_of_null hnull
    rw [hempty] at haccesses
    have hnone : (fun (name : Name) (index : Nat) => (name, index) ∈ ([] : NameIndexes)) = fun _ _ => False := by
      funext name index
      exact eq_false (List.not_mem_nil)
    rwa [hnone] at haccesses

/-- `$1, $2 { x++ } END { f(x) } function f(a) { y = y + a }` -/
def counting_program : Program :=
  ⟨[.pattern_action (some (.range (.expr (.field_at 1)) (.expr (.field_at 2))))
      (some [.expr (.postfix_op (.name "x") .post_inc)]),
    .pattern_action (some .end_pattern) (some [.expr (.call "f" [.name "x"])]),
    .function ⟨"f", ["a"], [.assign (.name "y") .plain (.binary (.name "y") .add (.name "a"))]⟩]⟩

theorem state_layout_agrees_counting : ∃ normalized_program,
    normalize_program_for_lowering counting_program = .ok normalized_program ∧
      LayoutAgrees normalized_program
        (state_storage_indexes normalized_program.variable_indexes (infer_variable_types counting_program)
          normalized_program.slot_allocation)
        (lower_reusable_program counting_program normalized_program (infer_variable_types counting_program) :
          ProgramBlocks fun _ => Unit) :=
  ⟨_, rfl, state_layout_agrees rfl⟩

end quawk
