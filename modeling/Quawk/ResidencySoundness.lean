import Quawk.ResidencyPaths

open AccessPath

namespace quawk

variable {tracked : Finset Name} {name : Name}

section Expressions

theorem Analyzed.getline {assigned : Finset Name} {first second : AnalysisResult tracked}
    {events events' events'' : List (AccessEvent Name)} {paths paths' : AccessPaths Name}
    (hsource : Analyzed name assigned first events paths)
    (htarget : Analyzed name first.assigned_after second events' paths') (hwrites : OnlyWrites events'') :
    Analyzed name assigned (combine_results second.assigned_after [first, second])
      (events ++ events' ++ events'')
      (paths.seq ({[AccessEvent.gap (written_names events')]} ∪ paths'.seq {string_write events''})) := by
  have hwritten := htarget.target_write hwrites
  refine ⟨fun hmem => ?_, ?_, fun hread => ?_, fun hencountered => ?_⟩
  · have := (hsource.seq htarget).after hmem
    rw [mem_written_append]
    exact this.imp_right Or.inl
  · rintro path ⟨front, hfront, back, rfl | hback, rfl⟩ hmem
    · have hin := hsource.within front hfront
      simp only [List.mem_append, List.mem_singleton, reduceCtorEq, or_false, mem_touched_append] at hmem ⊢
      tauto
    · have hin := (hsource.seq hwritten).within _ ⟨front, hfront, back, hback, rfl⟩ hmem
      rwa [List.append_assoc]
  · simp only [mem_combine_read_before, List.mem_cons, List.not_mem_nil, or_false, exists_eq_or_imp,
      exists_eq_left, not_or] at hread
    rw [combine_results_after]
    refine (hsource.covers hread.1).seq (Covers.union ?_ (hwritten.covers hread.2))
    exact fun path hpath => htarget.skippable.covers hread.2 path (Or.inl hpath)
  · simp only [mem_combine_encountered, List.mem_cons, List.not_mem_nil, or_false, exists_eq_or_imp,
      exists_eq_left, not_or] at hencountered
    rintro _ ⟨front, hfront, back, rfl | hback, rfl⟩
    · exact (hsource.untouched hencountered.1 front hfront).append (Untouched.gap _)
    · exact (hsource.untouched hencountered.1 front hfront).append
        (hwritten.untouched hencountered.2 back hback)

mutual

theorem analyze_expression_analyzed (htracked : name ∈ tracked) (bound : List Name) :
    ∀ expression assigned, Analyzed name assigned (analyze_expression tracked bound expression assigned)
      (accesses bound expression) (expression_paths bound expression)
  | .name other, _ => Analyzed.read htracked other bound
  | .array_index _ index extra_indexes, assigned =>
    (analyze_expression_analyzed htracked bound index assigned).seq
      (analyze_expressions_analyzed htracked bound extra_indexes _)
  | .binary left op right, assigned => by
    have hleft := analyze_expression_analyzed htracked bound left assigned
    have hright := analyze_expression_analyzed htracked bound right
      (analyze_expression tracked bound left assigned).assigned_after
    cases op
    case logical_and => exact hleft.seq hright.skippable
    case logical_or => exact hleft.seq hright.skippable
    all_goals exact hleft.seq hright
  | .conditional test if_true if_false, assigned =>
    (analyze_expression_analyzed htracked bound test assigned).conditional
      (analyze_expression_analyzed htracked bound if_true _)
      (analyze_expression_analyzed htracked bound if_false _)
  | .assign target _ value, assigned =>
    (analyze_lvalue_analyzed htracked bound target assigned).assign_expression htracked
      (analyze_expression_analyzed htracked bound value _)
  | .unary op operand, assigned => by
    have hoperand := analyze_expression_analyzed htracked bound operand assigned
    simp only [analyze_expression, accesses, expression_paths]
    cases prefix_scalar op operand with
    | some other => exact Analyzed.increment htracked other bound
    | none => exact hoperand
  | .postfix_op operand _, assigned => by
    have hoperand := analyze_expression_analyzed htracked bound operand assigned
    simp only [analyze_expression, accesses, expression_paths]
    cases scalar_name operand with
    | some other => exact Analyzed.increment htracked other bound
    | none => exact hoperand
  | .field index, assigned => analyze_expression_analyzed htracked bound index assigned
  | .call function args, assigned =>
    (analyze_expressions_analyzed htracked bound args assigned).target_write
      (substitute_write_onlyWrites bound function args)
  | .getline (some target) (some source), assigned =>
    (analyze_expression_analyzed htracked bound source assigned).getline
      (analyze_lvalue_analyzed htracked bound target _) (write_event_onlyWrites bound target)
  | .getline (some target) none, assigned =>
    Analyzed.empty.getline (analyze_lvalue_analyzed htracked bound target assigned)
      (write_event_onlyWrites bound target)
  | .getline none (some source), assigned => analyze_expression_analyzed htracked bound source assigned
  | .getline none none, _ => Analyzed.empty
  | .string_literal _, _ | .numeric_literal _, _ | .regex_literal _, _ | .field_at _, _ => Analyzed.empty

theorem analyze_expressions_analyzed (htracked : name ∈ tracked) (bound : List Name) :
    ∀ expressions assigned,
      Analyzed name assigned (analyze_expression_sequence tracked bound expressions assigned)
        (accesses_all bound expressions) (expressions_paths bound expressions)
  | [], _ => Analyzed.empty
  | expression :: rest, assigned =>
    (analyze_expression_analyzed htracked bound expression assigned).seq
      (analyze_expressions_analyzed htracked bound rest _)

theorem analyze_lvalue_analyzed (htracked : name ∈ tracked) (bound : List Name) :
    ∀ target assigned, Analyzed name assigned (analyze_lvalue_indexes tracked bound target assigned)
      (lvalue_accesses bound target) (lvalue_paths bound target)
  | .name _, _ => Analyzed.empty
  | .array _ subscripts, assigned => analyze_expressions_analyzed htracked bound subscripts assigned
  | .field index, assigned => analyze_expression_analyzed htracked bound index assigned

end

theorem analyze_option_analyzed (htracked : name ∈ tracked) (bound : List Name)
    (expression : Option Expr) (assigned : Finset Name) :
    Analyzed name assigned (analyze_option tracked bound expression assigned)
      (accesses_all bound expression.toList) (option_paths bound expression) := by
  cases expression with
  | none => exact Analyzed.empty
  | some expression =>
    have h := analyze_expression_analyzed htracked bound expression assigned
    simpa [accesses_all, analyze_option, option_paths] using h

end Expressions

section Statements

theorem print_analyzed (htracked : name ∈ tracked) (bound : List Name) (arguments : List Expr)
    (target : Option Expr) (assigned : Finset Name) :
    Analyzed name assigned
      (combine_results
        (analyze_option tracked bound target
          (analyze_expression_sequence tracked bound arguments assigned).assigned_after).assigned_after
        [analyze_expression_sequence tracked bound arguments assigned,
          analyze_option tracked bound target
            (analyze_expression_sequence tracked bound arguments assigned).assigned_after])
      (accesses_all bound arguments ++ accesses_all bound target.toList)
      (print_paths bound arguments target) := by
  have harguments := analyze_expressions_analyzed htracked bound arguments assigned
  cases target with
  | none =>
    have h := harguments.seq Analyzed.empty
    rwa [AccessPaths.seq_nil] at h
  | some target =>
    have h := harguments.redirect (analyze_expression_analyzed htracked bound target _)
    simpa [accesses_all, analyze_option, print_paths] using h

mutual

theorem analyze_statement_analyzed (htracked : name ∈ tracked) :
    ∀ statement bound assigned,
      AnalyzedStatement name assigned (analyze_statement tracked statement bound assigned)
        (statement_accesses statement bound) (statement_paths statement bound)
  | .assign target _ value, bound, assigned =>
    (analyze_lvalue_analyzed htracked bound target assigned).assign_statement htracked
      (analyze_expression_analyzed htracked bound value _)
  | .expr value, bound, assigned => (analyze_expression_analyzed htracked bound value assigned).statement
  | .print arguments redirect, bound, assigned =>
    (print_analyzed htracked bound arguments (redirect.map OutputRedirect.target) assigned).statement
  | .printf arguments redirect, bound, assigned =>
    ((analyze_expressions_analyzed htracked bound arguments assigned).seq
      (analyze_option_analyzed htracked bound (redirect.map OutputRedirect.target) _)).statement
  | .block statements, bound, assigned => analyze_statements_analyzed htracked statements bound assigned
  | .if_stmt condition then_branch none, bound, assigned =>
    (analyze_expression_analyzed htracked bound condition assigned).guard
      (analyze_statement_analyzed htracked then_branch bound _)
  | .if_stmt condition then_branch (some else_branch), bound, assigned =>
    (analyze_expression_analyzed htracked bound condition assigned).branch
      (analyze_statement_analyzed htracked then_branch bound _)
      (analyze_statement_analyzed htracked else_branch bound _)
  | .while_stmt condition body, bound, assigned =>
    (analyze_expression_analyzed htracked bound condition assigned).while_loop
      (analyze_statement_analyzed htracked body bound _)
  | .do_while body condition, bound, assigned =>
    (analyze_statement_analyzed htracked body bound assigned).do_loop
      (analyze_expression_analyzed htracked bound condition _)
  | .for_stmt init condition update body, bound, assigned =>
    (analyze_expressions_analyzed htracked bound init assigned).for_loop
      (analyze_option_analyzed htracked bound condition _)
      (analyze_statement_analyzed htracked body bound _)
      (analyze_expressions_analyzed htracked bound update _)
  | .for_in other iterable body, bound, assigned =>
    (analyze_expression_analyzed htracked bound iterable assigned).for_in_loop
      (scalar_event_onlyWrites bound other) (analyze_statement_analyzed htracked body (other :: bound) _)
  | .delete target, bound, assigned => (analyze_lvalue_analyzed htracked bound target assigned).statement
  | .return_stmt value, bound, assigned => (analyze_option_analyzed htracked bound value assigned).leaving
  | .exit value, bound, assigned => by
    cases value with
    | none => exact Analyzed.empty.leaving
    | some value =>
      have h := (analyze_expression_analyzed htracked bound value assigned).exit
      simpa [statement_accesses, accesses_all, analyze_statement, statement_paths, exit_paths] using h
  | .next, _, _ | .nextfile, _, _ => Analyzed.empty.leaving
  | .break_stmt, _, _ => AnalyzedStatement.jump (by decide)
  | .continue_stmt, _, _ => AnalyzedStatement.jump (by decide)

theorem analyze_statements_analyzed (htracked : name ∈ tracked) :
    ∀ statements bound assigned,
      AnalyzedStatement name assigned (analyze_statement_sequence tracked statements bound assigned)
        (statements_accesses statements bound) (statements_paths statements bound)
  | [], _, _ => Analyzed.empty.statement
  | statement :: rest, bound, assigned =>
    (analyze_statement_analyzed htracked statement bound assigned).seq
      (analyze_statements_analyzed htracked rest bound _)

end

end Statements

section Units

variable {assigned : Finset Name}

theorem analyze_actions_analyzed (htracked : name ∈ tracked) (actions : List Action) (assigned : Finset Name) :
    AnalyzedStatement name assigned (analyze_action_sequence tracked actions assigned)
      (actions.flatMap (statements_accesses · [])) (actions_paths actions) := by
  induction actions generalizing assigned with
  | nil => exact Analyzed.empty.statement
  | cons action rest ih => exact (analyze_statements_analyzed htracked action [] assigned).seq (ih _)

/-- The accesses in the text of a pattern. -/
def pattern_accesses : Pattern → List (AccessEvent Name)
  | .expr test => accesses [] test
  | .range left right => pattern_accesses left ++ pattern_accesses right
  | _ => []

theorem analyze_pattern_analyzed (htracked : name ∈ tracked) (pattern : Pattern) (assigned : Finset Name) :
    Analyzed name assigned (analyze_pattern tracked pattern assigned) (pattern_accesses pattern)
      (endpoint_paths pattern) := by
  cases pattern with
  | expr test => exact analyze_expression_analyzed htracked [] test assigned
  | begin_pattern | end_pattern => exact Analyzed.empty
  | range left right =>
    refine ⟨Or.inl, ?_, fun _ => Covers.nil id, ?_⟩
    · rintro _ rfl (h | h) <;> cases h
    · rintro _ _ rfl
      exact Untouched.nil

theorem analyze_optional_action_analyzed (htracked : name ∈ tracked) (action : Option Action)
    (assigned : Finset Name) :
    AnalyzedStatement name assigned (analyze_optional_action tracked action assigned)
      (statements_accesses (action.getD []) []) (action_paths action) := by
  cases action with
  | none => exact Analyzed.empty.statement
  | some action => exact analyze_statements_analyzed htracked action [] assigned

/-- The right endpoint of a range is tested after the action, though the analysis comes to it
first. -/
theorem AnalyzedStatement.range {left right action : AnalysisResult tracked}
    {events events' events'' : List (AccessEvent Name)} {lefts rights : AccessPaths Name}
    {runs : StatementPaths Name} (hleft : Analyzed name assigned left events lefts)
    (hright : Analyzed name assigned right events' rights)
    (haction : AnalyzedStatement name assigned action events'' runs) :
    AnalyzedStatement name assigned
      (combine_results (assigned ∩ action.assigned_after) [combine_results assigned [left, right], action])
      (events ++ events' ++ events'')
      (runs.seq (.of_paths rights) ∪
        .after_paths lefts (.of_paths {[]} ∪ runs.seq (.of_paths rights))) where
  after hmem := by
    rw [combine_results_after, Finset.mem_inter] at hmem
    exact Or.inl hmem.1
  covers hread := by
    simp only [mem_combine_read_before, List.mem_cons, List.not_mem_nil, or_false, exists_eq_or_imp,
      exists_eq_left, not_or] at hread
    obtain ⟨⟨hlefts, hrights⟩, hactions⟩ := hread
    have hkept := ((haction.covers hactions).kept.imp id Or.inl).seq (hright.covers hrights).kept.of_paths
    rw [combine_results_after, Finset.mem_inter]
    refine CoversStatement.imp ?_ id And.left
    refine (hkept.imp id Or.inl).union ?_
    exact ((hleft.covers hlefts).kept.imp id Or.inl).after_paths
      ((Covers.nil id).of_paths.union (hkept.imp id Or.inl))
  untouched hencountered := by
    simp only [mem_combine_encountered, List.mem_cons, List.not_mem_nil, or_false, exists_eq_or_imp,
      exists_eq_left, not_or] at hencountered
    obtain ⟨⟨hlefts, hrights⟩, hactions⟩ := hencountered
    have hrun : ∀ path outcome, (path, outcome) ∈ runs.seq (.of_paths rights) → Untouched name path := by
      rintro path outcome (⟨hpath, -⟩ | ⟨front, back, hfront, hback, rfl⟩)
      · exact haction.untouched hactions path outcome hpath
      · exact (haction.untouched hactions front _ hfront).append (hright.untouched hrights back hback.1)
    rintro path outcome (hpath | ⟨front, hfront, back, ⟨rfl, -⟩ | hback, rfl⟩)
    · exact hrun path outcome hpath
    · exact (hleft.untouched hlefts front hfront).append Untouched.nil
    · exact (hleft.untouched hlefts front hfront).append (hrun back outcome hback)

def record_item_accesses (item : NormalizedRecordItem) : List (AccessEvent Name) :=
  (item.pattern.elim [] pattern_accesses) ++ statements_accesses (item.action.getD []) []

theorem analyze_record_item_analyzed (htracked : name ∈ tracked) (item : NormalizedRecordItem)
    (assigned : Finset Name) :
    AnalyzedStatement name assigned (analyze_record_item tracked item assigned)
      (record_item_accesses item) (record_item_paths item) := by
  obtain ⟨pattern, action, range_state_name⟩ := item
  have haction := analyze_optional_action_analyzed htracked action assigned
  cases pattern with
  | none => exact haction
  | some pattern =>
    cases pattern with
    | range left right =>
      exact haction.range (analyze_pattern_analyzed htracked left assigned)
        (analyze_pattern_analyzed htracked right assigned)
    | expr test =>
      exact (analyze_expression_analyzed htracked [] test assigned).guard
        (analyze_optional_action_analyzed htracked action _)
    | begin_pattern | end_pattern => exact Analyzed.empty.guard haction

theorem analyze_record_items_analyzed (htracked : name ∈ tracked) (items : List NormalizedRecordItem)
    (assigned : Finset Name) :
    AnalyzedStatement name assigned (analyze_record_items tracked items assigned)
      (items.flatMap record_item_accesses) (record_items_paths items) := by
  induction items generalizing assigned with
  | nil => exact Analyzed.empty.statement
  | cons item rest ih => exact (analyze_record_item_analyzed htracked item assigned).seq (ih _)

/-- The accesses in the text of a lowered function. -/
def unit_accesses (normalized_program : NormalizedLoweringProgram) : LoweredUnit → List (AccessEvent Name)
  | .begin_phase => normalized_program.begin_actions.flatMap (statements_accesses · [])
  | .record_phase => normalized_program.record_items.flatMap record_item_accesses
  | .end_phase => normalized_program.end_actions.flatMap (statements_accesses · [])
  | .user_function definition => statements_accesses definition.body definition.params

theorem unit_summary_analyzed (htracked : name ∈ tracked) (normalized_program : NormalizedLoweringProgram)
    (unit : LoweredUnit) :
    AnalyzedStatement name ∅ (unit_summary tracked normalized_program unit)
      (unit_accesses normalized_program unit) (unit_paths normalized_program unit) := by
  cases unit with
  | begin_phase => exact analyze_actions_analyzed htracked normalized_program.begin_actions ∅
  | record_phase => exact analyze_record_items_analyzed htracked normalized_program.record_items ∅
  | end_phase => exact analyze_actions_analyzed htracked normalized_program.end_actions ∅
  | user_function definition =>
    exact analyze_statements_analyzed htracked definition.body definition.params ∅

end Units

section Sharing

theorem mem_names_from_summary {summaries : List (AnalysisResult tracked)}
    {summary : AnalysisResult tracked} :
    name ∈ names_from_summary summaries summary ↔
      name ∈ summary.assigned_names ∧ is_shared summaries name = false ∧
        name ∉ summary.read_before_assignment_names := by
  rw [names_from_summary, Finset.mem_filter]

/-- A name of one summary that is not shared occurs in no other. -/
theorem not_encountered_of_not_shared {front back : List (AnalysisResult tracked)}
    {summary : AnalysisResult tracked} (hshared : is_shared (front ++ summary :: back) name = false)
    (hmem : name ∈ summary.encountered_names) :
    ∀ other ∈ front ++ back, name ∉ other.encountered_names := by
  intro other hother hencountered
  have hpos : 0 < ((front ++ back).filter fun other => name ∈ other.encountered_names).length :=
    List.length_pos_of_mem (List.mem_filter.mpr ⟨hother, by simpa using hencountered⟩)
  simp only [is_shared, decide_eq_false_iff_not, List.filter_append, List.filter_cons, hmem,
    decide_true, if_true, List.length_append, List.length_cons] at hshared hpos
  omega

/-- User functions keep no names, so a unit that keeps one is a phase. -/
theorem classify_local_numeric_scalar_residency_mem {program : Program}
    {normalized_program : NormalizedLoweringProgram} {type_info : VariableTypes} {phase : LoweredUnit}
    (h : name ∈ classify_local_numeric_scalar_residency program normalized_program type_info phase) :
    phase ∈ lowered_units program ∧
      name ∈ names_from_summary
        ((lowered_units program).map
          (unit_summary (tracked_numeric_names normalized_program type_info) normalized_program))
        (unit_summary (tracked_numeric_names normalized_program type_info) normalized_program phase) := by
  cases phase with
  | user_function definition => simp [classify_local_numeric_scalar_residency] at h
  | begin_phase | record_phase | end_phase => exact ⟨by simp [lowered_units], h⟩

end Sharing

/-- A name kept local to a phase is touched by no other unit, and every read of it in the phase
comes after a write, as long as no gap on the path concerns the name before it is assigned. What
the cell starts with is then never seen. -/
theorem classify_local_numeric_scalar_residency_sound (program : Program)
    (normalized_program : NormalizedLoweringProgram) (type_info : VariableTypes) (phase : LoweredUnit)
    (name : Name)
    (h : name ∈ classify_local_numeric_scalar_residency program normalized_program type_info phase) :
    (∀ unit ∈ lowered_units program, unit ≠ phase →
      ∀ path outcome, (path, outcome) ∈ unit_paths normalized_program unit →
        (∀ names, .gap names ∈ path → name ∉ names) → .read name ∉ path ∧ .write name ∉ path) ∧
    ∀ path outcome, (path, outcome) ∈ unit_paths normalized_program phase → Heeds name false path →
      ReadsAssigned name false path ∧
      ∀ (Cell : Type) (values : Nat → Cell) (cell cell' : Cell),
        values_read name values cell path = values_read name values cell' path := by
  obtain ⟨hphase, hmem⟩ := classify_local_numeric_scalar_residency_mem h
  obtain ⟨hassigned, hshared, hread⟩ := mem_names_from_summary.mp hmem
  have hencountered := AnalysisResult.assigned_encountered _ hassigned
  have htracked := AnalysisResult.encountered_tracked _ hencountered
  refine ⟨fun unit hunit hne path outcome hpath => ?_, fun path outcome hpath hheeds => ?_⟩
  · obtain ⟨front, back, hunits⟩ := List.append_of_mem hphase
    rw [hunits, List.map_append, List.map_cons] at hshared
    have hmem : unit ∈ front ++ back := by
      rw [hunits, List.mem_append, List.mem_cons] at hunit
      exact List.mem_append.mpr (hunit.imp_right fun hor => hor.resolve_left hne)
    have hother := not_encountered_of_not_shared hshared hencountered _
      (List.map_append ▸ List.mem_map_of_mem hmem)
    exact (unit_summary_analyzed htracked normalized_program unit).untouched hother path outcome hpath
  · have hreads := ((unit_summary_analyzed htracked normalized_program phase).covers hread path outcome
      hpath false (fun hmem => absurd hmem (Finset.notMem_empty name)) hheeds).1
    exact ⟨hreads, fun _ values cell cell' => hreads.values_read_eq values fun hfalse => by cases hfalse⟩

/-- `BEGIN { s = 0; while (s < 3) s++; print s }` -/
def count_program : Program :=
  ⟨[.pattern_action (some .begin_pattern)
    (some [.assign (.name "s") .plain (.numeric_literal ['0']),
      .while_stmt (.binary (.name "s") .less (.numeric_literal ['3'])) (.expr (.postfix_op (.name "s") .post_inc)),
      .print [.name "s"] none])]⟩

theorem classify_local_numeric_scalar_residency_sound_count :
    ∃ normalized_program, normalize_program_for_lowering count_program = .ok normalized_program ∧
      ∀ path outcome, (path, outcome) ∈ unit_paths normalized_program .begin_phase →
        Heeds "s" false path → ReadsAssigned "s" false path := by
  refine ⟨_, rfl, fun path outcome hpath hheeds => ?_⟩
  exact ((classify_local_numeric_scalar_residency_sound count_program _
    (infer_variable_types count_program) .begin_phase "s" (by decide)).2 path outcome hpath hheeds).1

/-- `BEGIN { x = 3 } END { exit x }` -/
def exit_value_program : Program :=
  ⟨[.pattern_action (some .begin_pattern) (some [.assign (.name "x") .plain (.numeric_literal ['3'])]),
    .pattern_action (some .end_pattern) (some [.exit (some (.name "x"))])]⟩

theorem classify_local_numeric_scalar_residency_unsound :
    ¬ ∀ (program : Program) (normalized_program : NormalizedLoweringProgram),
      normalize_program_for_lowering program = .ok normalized_program →
      ∀ phase name,
        name ∈ classify_local_numeric_scalar_residency program normalized_program
          (infer_variable_types program) phase →
        (∀ unit ∈ lowered_units program, unit ≠ phase →
          ∀ path outcome, (path, outcome) ∈ unit_paths normalized_program unit →
            .read name ∉ path ∧ .write name ∉ path) ∧
        ∀ path outcome, (path, outcome) ∈ unit_paths normalized_program phase →
          ReadsAssigned name false path := by
  intro hsound
  have hkept := (hsound exit_value_program _ rfl .begin_phase "x" (by decide)).1 .end_phase
    (by simp [lowered_units]) (by simp) [.gap ["x"], .read "x"] .left
  exact (hkept (Or.inl ⟨Or.inl ⟨⟨⟨_, rfl, _, rfl, rfl⟩, rfl⟩, by decide⟩, by decide⟩)).1 (by decide)

end quawk
