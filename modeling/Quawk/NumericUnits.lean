import Quawk.NumericLowering
import Quawk.NumericPhases
import Quawk.ResidencySoundness

namespace quawk

section Encountered

variable {tracked : Finset Name}

/-- What is read before it is assigned occurs in the piece of the program. -/
def AnalysisResult.Noticed (result : AnalysisResult tracked) : Prop :=
  result.read_before_assignment_names ⊆ result.encountered_names

theorem noticed_empty (assigned : Finset Name) : (empty_result assigned : AnalysisResult tracked).Noticed :=
  Finset.Subset.refl _

theorem noticed_combine (assigned_after : Finset Name) {results : List (AnalysisResult tracked)}
    (h : ∀ result ∈ results, result.Noticed) : (combine_results assigned_after results).Noticed := by
  intro name hmem
  obtain ⟨result, hresult, hmem⟩ := mem_combine_read_before.mp hmem
  exact mem_combine_encountered.mpr ⟨result, hresult, h result hresult hmem⟩

theorem noticed_pair (assigned_after : Finset Name) {first second : AnalysisResult tracked} (h1 : first.Noticed)
    (h2 : second.Noticed) : (combine_results assigned_after [first, second]).Noticed :=
  noticed_combine assigned_after (by simp [h1, h2])

theorem noticed_three (assigned_after : Finset Name) {first second third : AnalysisResult tracked} (h1 : first.Noticed)
    (h2 : second.Noticed) (h3 : third.Noticed) : (combine_results assigned_after [first, second, third]).Noticed :=
  noticed_combine assigned_after (by simp [h1, h2, h3])

theorem noticed_read (name : Name) (assigned : Finset Name) (bound : List Name) :
    (read_name tracked name assigned bound).Noticed := by
  unfold read_name
  split
  · exact noticed_empty assigned
  · change (if name ∈ assigned then ∅ else {name} : Finset Name) ⊆ {name}
    split
    · exact Finset.empty_subset _
    · exact Finset.Subset.refl _

theorem noticed_assign (name : Name) (assigned : Finset Name) (bound : List Name) (prior : Bool) :
    (assign_name tracked name assigned bound prior).Noticed := by
  unfold assign_name
  split
  · exact noticed_empty assigned
  · change (if prior = true ∧ name ∉ assigned then {name} else ∅ : Finset Name) ⊆ {name}
    split
    · exact Finset.Subset.refl _
    · exact Finset.empty_subset _

theorem noticed_target (target : LValue) (op : AssignOp) {index value : AnalysisResult tracked} (bound : List Name)
    (h1 : index.Noticed) (h2 : value.Noticed) : (assign_target tracked target op index value bound).Noticed := by
  cases target with
  | name name => exact noticed_three _ h1 h2 (noticed_assign name _ bound _)
  | array _ _ | field _ => exact noticed_pair _ h1 h2

theorem noticed_increment (name : Name) (assigned : Finset Name) (bound : List Name) :
    (increment_name tracked name assigned bound).Noticed :=
  noticed_pair _ (noticed_read name assigned bound) (noticed_assign name _ bound _)

mutual

theorem noticed_expression (bound : List Name) : (expression : Expr) → (assigned : Finset Name) →
    (analyze_expression tracked bound expression assigned).Noticed
  | .name name, assigned => noticed_read name assigned bound
  | .array_index _ index extra_indexes, _ =>
    noticed_pair _ (noticed_expression bound index _) (noticed_expressions bound extra_indexes _)
  | .binary left _ right, _ => noticed_pair _ (noticed_expression bound left _) (noticed_expression bound right _)
  | .conditional test if_true if_false, _ =>
    noticed_three _ (noticed_expression bound test _) (noticed_expression bound if_true _)
      (noticed_expression bound if_false _)
  | .assign target op value, _ =>
    noticed_target target op bound (noticed_lvalue bound target _) (noticed_expression bound value _)
  | .unary op operand, assigned => by
    rw [analyze_expression]
    split
    · exact noticed_increment _ assigned bound
    · exact noticed_expression bound operand assigned
  | .postfix_op operand _, assigned => by
    rw [analyze_expression]
    split
    · exact noticed_increment _ assigned bound
    · exact noticed_expression bound operand assigned
  | .field index, assigned => noticed_expression bound index assigned
  | .call _ args, assigned => noticed_expressions bound args assigned
  | .getline none (some source), assigned => noticed_expression bound source assigned
  | .getline (some target) (some source), _ =>
    noticed_pair _ (noticed_expression bound source _) (noticed_lvalue bound target _)
  | .getline (some target) none, assigned => noticed_pair _ (noticed_empty assigned) (noticed_lvalue bound target _)
  | .getline none none, assigned | .string_literal _, assigned | .numeric_literal _, assigned
  | .regex_literal _, assigned | .field_at _, assigned => noticed_empty assigned

theorem noticed_expressions (bound : List Name) : (expressions : List Expr) → (assigned : Finset Name) →
    (analyze_expression_sequence tracked bound expressions assigned).Noticed
  | [], assigned => noticed_empty assigned
  | expression :: rest, _ => noticed_pair _ (noticed_expression bound expression _) (noticed_expressions bound rest _)

theorem noticed_lvalue (bound : List Name) : (target : LValue) → (assigned : Finset Name) →
    (analyze_lvalue_indexes tracked bound target assigned).Noticed
  | .name _, assigned => noticed_empty assigned
  | .array _ subscripts, assigned => noticed_expressions bound subscripts assigned
  | .field index, assigned => noticed_expression bound index assigned

end

theorem noticed_option (bound : List Name) (expression : Option Expr) (assigned : Finset Name) :
    (analyze_option tracked bound expression assigned).Noticed := by
  cases expression with
  | none => exact noticed_empty assigned
  | some expression => exact noticed_expression bound expression assigned

mutual

theorem noticed_statement : (statement : Stmt) → (bound : List Name) → (assigned : Finset Name) →
    (analyze_statement tracked statement bound assigned).Noticed
  | .assign target op value, bound, _ =>
    noticed_target target op bound (noticed_lvalue bound target _) (noticed_expression bound value _)
  | .expr value, bound, assigned => noticed_expression bound value assigned
  | .print arguments redirect, bound, _ | .printf arguments redirect, bound, _ =>
    noticed_pair _ (noticed_expressions bound arguments _) (noticed_option bound _ _)
  | .block statements, bound, assigned => noticed_statements statements bound assigned
  | .if_stmt condition then_branch none, bound, _ =>
    noticed_pair _ (noticed_expression bound condition _) (noticed_statement then_branch bound _)
  | .if_stmt condition then_branch (some else_branch), bound, _ =>
    noticed_three _ (noticed_expression bound condition _) (noticed_statement then_branch bound _)
      (noticed_statement else_branch bound _)
  | .while_stmt condition body, bound, _ =>
    noticed_pair _ (noticed_expression bound condition _) (noticed_statement body bound _)
  | .do_while body condition, bound, _ =>
    noticed_pair _ (noticed_statement body bound _) (noticed_expression bound condition _)
  | .for_stmt init condition update body, bound, _ => by
    refine noticed_combine _ ?_
    simp only [List.mem_cons, List.not_mem_nil, or_false, forall_eq_or_imp, forall_eq]
    exact ⟨noticed_expressions bound init _, noticed_option bound condition _, noticed_statement body bound _,
      noticed_expressions bound update _⟩
  | .for_in name iterable body, bound, _ =>
    noticed_pair _ (noticed_expression bound iterable _) (noticed_statement body (name :: bound) _)
  | .delete target, bound, assigned => noticed_lvalue bound target assigned
  | .return_stmt value, bound, assigned => noticed_option bound value assigned
  | .break_stmt, _, assigned | .continue_stmt, _, assigned | .next, _, assigned | .nextfile, _, assigned
  | .exit _, _, assigned => noticed_empty assigned

theorem noticed_statements : (statements : List Stmt) → (bound : List Name) → (assigned : Finset Name) →
    (analyze_statement_sequence tracked statements bound assigned).Noticed
  | [], _, assigned => noticed_empty assigned
  | statement :: rest, bound, _ => noticed_pair _ (noticed_statement statement bound _) (noticed_statements rest bound _)

end

theorem noticed_actions : (actions : List Action) → (assigned : Finset Name) →
    (analyze_action_sequence tracked actions assigned).Noticed
  | [], assigned => noticed_empty assigned
  | action :: rest, _ => noticed_pair _ (noticed_statements action [] _) (noticed_actions rest _)

theorem noticed_pattern : (pattern : Pattern) → (assigned : Finset Name) → (analyze_pattern tracked pattern assigned).Noticed
  | .expr test, assigned => noticed_expression [] test assigned
  | .range left right, assigned => noticed_pair _ (noticed_pattern left assigned) (noticed_pattern right assigned)
  | .begin_pattern, assigned | .end_pattern, assigned => noticed_empty assigned

theorem noticed_optional_action (action : Option Action) (assigned : Finset Name) :
    (analyze_optional_action tracked action assigned).Noticed := by
  cases action with
  | none => exact noticed_empty assigned
  | some action => exact noticed_statements action [] assigned

theorem noticed_record_item (item : NormalizedRecordItem) (assigned : Finset Name) :
    (analyze_record_item tracked item assigned).Noticed := by
  unfold analyze_record_item
  split
  · exact noticed_optional_action _ assigned
  · exact noticed_pair _ (noticed_pattern _ _) (noticed_optional_action _ _)

theorem noticed_record_items : (items : List NormalizedRecordItem) → (assigned : Finset Name) →
    (analyze_record_items tracked items assigned).Noticed
  | [], assigned => noticed_empty assigned
  | item :: rest, _ => noticed_pair _ (noticed_record_item item _) (noticed_record_items rest _)

theorem noticed_unit (normalized_program : NormalizedLoweringProgram) (unit : LoweredUnit) :
    (unit_summary tracked normalized_program unit).Noticed := by
  cases unit with
  | begin_phase => exact noticed_actions _ _
  | record_phase => exact noticed_record_items _ _
  | end_phase => exact noticed_actions _ _
  | user_function definition => exact noticed_statements _ _ _

end Encountered

section Residents

variable (program : Program) (normalized_program : NormalizedLoweringProgram)

/-- The phases of a program. -/
def LoweredUnit.is_phase : LoweredUnit → Bool
  | .user_function _ => false
  | _ => true

/-- The names some phase keeps local. -/
def resident_names : Finset Name :=
  classify_local_numeric_scalar_residency program normalized_program (infer_variable_types program) .begin_phase ∪
    classify_local_numeric_scalar_residency program normalized_program (infer_variable_types program) .record_phase ∪
    classify_local_numeric_scalar_residency program normalized_program (infer_variable_types program) .end_phase

/-- The names the residency analysis looks at. -/
abbrev tracked_names : Finset Name := tracked_numeric_names normalized_program (infer_variable_types program)

variable {program normalized_program}

theorem mem_resident_names {name : Name} : name ∈ resident_names program normalized_program ↔
    ∃ phase, name ∈ classify_local_numeric_scalar_residency program normalized_program (infer_variable_types program) phase := by
  constructor
  · intro h
    simp only [resident_names, Finset.mem_union] at h
    obtain (h | h) | h := h <;> exact ⟨_, h⟩
  · intro h
    obtain ⟨phase, h⟩ := h
    simp only [resident_names, Finset.mem_union]
    cases phase with
    | begin_phase => exact .inl (.inl h)
    | record_phase => exact .inl (.inr h)
    | end_phase => exact .inr h
    | user_function definition => simp [classify_local_numeric_scalar_residency] at h

theorem resident_tracked : resident_names program normalized_program ⊆ tracked_names program normalized_program := by
  intro name h
  obtain ⟨phase, h⟩ := mem_resident_names.mp h
  obtain ⟨hassigned, _, _⟩ := mem_names_from_summary.mp (classify_local_numeric_scalar_residency_mem h).2
  exact AnalysisResult.encountered_tracked _ (AnalysisResult.assigned_encountered _ hassigned)

/-- No phase reads a resident name before it assigns it: not the phase the name is local to, and no other phase
touches it. -/
theorem residents_settled {unit : LoweredUnit} (hunit : unit.is_phase = true) :
    AssignedFirst (resident_names program normalized_program)
      (unit_summary (tracked_names program normalized_program) normalized_program unit) := by
  intro name h hread
  obtain ⟨phase, h⟩ := mem_resident_names.mp h
  obtain ⟨hphase, hmem⟩ := classify_local_numeric_scalar_residency_mem h
  obtain ⟨hassigned, hshared, hnot⟩ := mem_names_from_summary.mp hmem
  by_cases heq : unit = phase
  · subst heq
    exact hnot hread
  · obtain ⟨front, back, hunits⟩ := List.append_of_mem hphase
    rw [hunits, List.map_append, List.map_cons] at hshared
    have hlisted : unit ∈ lowered_units program := by
      cases unit with
      | begin_phase | record_phase | end_phase => simp [lowered_units]
      | user_function _ => cases hunit
    have hmem : unit ∈ front ++ back := by
      rw [hunits, List.mem_append, List.mem_cons] at hlisted
      exact List.mem_append.mpr (hlisted.imp_right fun hor => hor.resolve_left heq)
    exact not_encountered_of_not_shared hshared (AnalysisResult.assigned_encountered _ hassigned) _
      (List.map_append ▸ List.mem_map_of_mem hmem) (noticed_unit normalized_program unit hread)

end Residents

section Readings

variable {R : Runtime} (program : Program) (normalized_program : NormalizedLoweringProgram)

/-- The state a phase is lowered in. -/
abbrev phase_state (unit : LoweredUnit) : LoweringState :=
  lowering_state program normalized_program (infer_variable_types program) unit

variable {program normalized_program}

theorem phase_address {unit other : LoweredUnit} (hunit : unit.is_phase = true) (hother : other.is_phase = true)
    {name : Name} (h : name ∉ resident_names program normalized_program) :
    number_address (phase_state program normalized_program unit) name =
        number_address (phase_state program normalized_program other) name ∧
      ∀ address, number_address (phase_state program normalized_program unit) name = some address →
        ∃ index, address = .state_field index := by
  have hlocal (phase : LoweredUnit) (hphase : phase.is_phase = true) :
      runtime_name_uses_local_numeric_storage (phase_state program normalized_program phase) name = false := by
    have hnot : name ∉ (phase_state program normalized_program phase).local_numeric_names := by
      intro hmem
      refine h (mem_resident_names.mpr ⟨phase, ?_⟩)
      cases phase with
      | user_function _ => cases hphase
      | begin_phase | record_phase | end_phase => exact hmem
    simp [runtime_name_uses_local_numeric_storage, hnot]
  have haddress (phase : LoweredUnit) (hphase : phase.is_phase = true) :
      number_address (phase_state program normalized_program phase) name =
        if runtime_name_uses_numeric_slot_state (phase_state program normalized_program .begin_phase) name then
          (normalized_program.variable_indexes.get name).map .state_field
        else none := by
    rw [number_address, hlocal phase hphase]
    cases phase with
    | user_function _ => cases hphase
    | begin_phase | record_phase | end_phase => rfl
  refine ⟨(haddress unit hunit).trans (haddress other hother).symm, fun address hsome => ?_⟩
  rw [haddress unit hunit] at hsome
  split at hsome
  · obtain ⟨index, _, heq⟩ := Option.map_eq_some_iff.mp hsome
    exact ⟨index, heq.symm⟩
  · cases hsome

/-- Two machines with the same fields and runtime hold the same but for resident names. -/
theorem agree_readings (unit other : LoweredUnit) (hunit : unit.is_phase = true) (hother : other.is_phase = true)
    {first second : Machine R} (hstate : first.state = second.state) (hworld : first.world = second.world)
    (hrequested : first.exit_requested = second.exit_requested) (hstatus : first.exit_status = second.exit_status) :
    AgreeBut (resident_names program normalized_program) ∅
      (reading (phase_state program normalized_program unit) first)
      (reading (phase_state program normalized_program other) second) where
  numbers name hname := by
    have hnot : name ∉ resident_names program normalized_program := fun hmem => absurd (hname hmem) (Finset.notMem_empty _)
    obtain ⟨hsame, hfield⟩ := phase_address hunit hother hnot
    change ((number_address _ name).map _).getD _ = ((number_address _ name).map _).getD _
    rw [← hsame]
    cases haddress : number_address (phase_state program normalized_program unit) name with
    | none => rfl
    | some address =>
      obtain ⟨index, rfl⟩ := hfield address haddress
      exact congrFun hstate index
  active := by
    funext name
    have hrange (phase : LoweredUnit) : range_index (phase_state program normalized_program phase) name =
        if is_reusable_runtime_state_name name then normalized_program.variable_indexes.get name else none := by
      cases phase <;> rfl
    change ((range_index _ name).map _).getD false = ((range_index _ name).map _).getD false
    rw [hrange, hrange, hstate]
  world := hworld
  exit_requested := hrequested
  exit_status := hstatus

end Readings

end quawk
