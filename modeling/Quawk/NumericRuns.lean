import Quawk.NumericPrograms

namespace quawk

open StatefulRun (Result Run)
open StatefulRun.Run (Alike Coupled)

section Rules

variable {R : Runtime} (arithmetic : NumberArithmetic R) {tracked forgotten assigned : Finset Name}
  (htracked : forgotten ⊆ tracked) (fuel : Nat)

include htracked

theorem rule_action_insensitive (action : Option Action) (hheeds : heeds_action tracked forgotten action assigned = true)
    (h : AssignedFirst forgotten (analyze_optional_action tracked action assigned)) :
    InsensitiveStatement forgotten assigned (analyze_optional_action tracked action assigned).assigned_after true
      (rule_action arithmetic fuel action) := by
  cases action with
  | none =>
    have hprint : Insensitive (R := R) forgotten assigned assigned print_record :=
      (Insensitive.call _ _).bind fun _ => .call _ _
    exact hprint.statement
  | some action =>
    exact (interpret_all_insensitive arithmetic htracked fuel action assigned hheeds h).weaken _ _
      (fun _ _ hmem => .inl hmem) fun _ => rfl

theorem condition_insensitive (test : Expr) (hheeds : heeds_expression tracked forgotten test assigned = true)
    (h : AssignedFirst forgotten (analyze_expression tracked [] test assigned)) :
    Insensitive forgotten assigned (analyze_expression tracked [] test assigned).assigned_after
      (condition_of arithmetic test) :=
  truth_of_insensitive arithmetic (number_of_insensitive arithmetic htracked test assigned hheeds h)

/-- The action of a range rule is followed by its right pattern; what both assign counts for nothing. -/
theorem range_selected_insensitive (name : Name) {right : Expr} {action : Option Action}
    (hright : heeds_expression tracked forgotten right assigned = true)
    (haction : heeds_action tracked forgotten action assigned = true)
    (hright_settled : AssignedFirst forgotten (analyze_expression tracked [] right assigned))
    (haction_settled : AssignedFirst forgotten (analyze_optional_action tracked action assigned)) (selected : Bool) :
    InsensitiveStatement forgotten assigned assigned true
      (range_selected arithmetic fuel name right action selected) := by
  intro known hsubset
  refine .branch (fun _ => ?_) fun _ => InsensitiveStatement.skip known hsubset
  refine ((rule_action_insensitive arithmetic htracked fuel action haction haction_settled) known hsubset).bind
    fun completion => ?_
  cases completion with
  | normal =>
    refine Coupled.mono ?_ (fun _ _ hafter => hafter.1) (fun _ _ _ h => h) fun _ _ h => h
    refine ((condition_insensitive arithmetic htracked right hright hright_settled) _
      (hsubset.trans Finset.subset_union_left)).bind fun right_matches first second hagree => ?_
    have hknown : AgreeBut forgotten (known ∪ assigned) first second := hagree.mono fun _ _ hmem =>
      Finset.mem_union_left _ (Finset.mem_union_left _ ((Finset.mem_union.mp hmem).elim id fun hmem => hsubset hmem))
    exact .value ⟨⟨hknown.numbers, congrArg (Function.update · name _) hknown.active, hknown.world,
      hknown.exit_requested, hknown.exit_status⟩, fun heq => by cases heq⟩
  | broke | continued | left | returned _ => exact .pure fun _ _ hafter => hafter

theorem range_rule_insensitive (name : Name) {left right : Expr} {action : Option Action}
    (hleft : heeds_expression tracked forgotten left assigned = true)
    (hright : heeds_expression tracked forgotten right assigned = true)
    (haction : heeds_action tracked forgotten action assigned = true)
    (hleft_settled : AssignedFirst forgotten (analyze_expression tracked [] left assigned))
    (hright_settled : AssignedFirst forgotten (analyze_expression tracked [] right assigned))
    (haction_settled : AssignedFirst forgotten (analyze_optional_action tracked action assigned)) :
    InsensitiveStatement forgotten assigned assigned true (range_rule arithmetic fuel name left right action) := by
  have hselected := range_selected_insensitive arithmetic htracked fuel name hright haction hright_settled haction_settled
  intro known hsubset first second hagree
  have hmeaning (numeric : NumericState R) : range_rule arithmetic fuel name left right action numeric =
      (if numeric.active name then range_selected arithmetic fuel name right action true
      else condition_of arithmetic left >>= range_selected arithmetic fuel name right action) numeric := rfl
  rw [hmeaning, hmeaning, hagree.active]
  refine Coupled.branch (fun _ => hselected true known hsubset) (fun _ => ?_) first second hagree
  refine ((condition_insensitive arithmetic htracked left hleft hleft_settled) known hsubset).bind fun selected => ?_
  refine (hselected selected _ (hsubset.trans Finset.subset_union_left)).mono (fun _ _ h => h)
    (fun completion _ _ hafter => ⟨hafter.1.mono fun name _ hmem => ?_, hafter.2⟩) fun _ _ h => h
  cases completion with
  | normal =>
    exact Finset.mem_union_left _ (Finset.mem_union_left _
      ((Finset.mem_union.mp hmem).elim id fun hmem => hsubset hmem))
  | broke | continued | left | returned _ => exact Finset.mem_union_left _ hmem

theorem rule_insensitive (item : NormalizedRecordItem) (hheeds : heeds_rule tracked forgotten item assigned = true)
    (h : AssignedFirst forgotten (analyze_record_item tracked item assigned)) :
    InsensitiveStatement forgotten assigned (analyze_record_item tracked item assigned).assigned_after true
      (record_rule arithmetic fuel item) := by
  obtain ⟨pattern, action, range_state_name⟩ := item
  cases pattern with
  | none => exact rule_action_insensitive arithmetic htracked fuel action hheeds h
  | some pattern =>
    simp only [analyze_record_item, combine_results_after, AssignedFirst.combine, List.mem_cons, List.not_mem_nil, or_false,
      forall_eq_or_imp, forall_eq] at h ⊢
    cases pattern with
    | begin_pattern | end_pattern => exact .crash
    | expr test =>
      simp only [heeds_rule, Bool.and_eq_true] at hheeds
      rw [Finset.inter_comm]
      exact (condition_insensitive arithmetic htracked test hheeds.1 h.1).then_statement fun _ =>
        .branch (rule_action_insensitive arithmetic htracked fuel action hheeds.2 h.2) .skip
    | range left right =>
      cases left with
      | begin_pattern | end_pattern | range _ _ => exact .crash
      | expr left =>
        cases right with
        | begin_pattern | end_pattern | range _ _ => exact .crash
        | expr right =>
          cases range_state_name with
          | none => exact .crash
          | some name =>
            simp only [heeds_rule, Bool.and_eq_true] at hheeds
            simp only [analyze_pattern, combine_results_after, AssignedFirst.combine, List.mem_cons, List.not_mem_nil, or_false,
              forall_eq_or_imp, forall_eq] at h ⊢
            exact (range_rule_insensitive arithmetic htracked fuel name hheeds.1.1 hheeds.1.2 hheeds.2 h.1.1 h.1.2 h.2).weaken _ _
              (fun _ _ hmem => .inl (Finset.mem_inter.mp hmem).1) id

theorem actions_insensitive : (actions : List Action) → (assigned : Finset Name) →
    heeds_actions tracked forgotten actions assigned = true →
    AssignedFirst forgotten (analyze_action_sequence tracked actions assigned) →
    InsensitiveStatement forgotten assigned (analyze_action_sequence tracked actions assigned).assigned_after true
      (in_turn (interpret_all arithmetic fuel) actions)
  | [], _, _, _ => .skip
  | action :: rest, assigned, hheeds, h => by
    rw [heeds_actions, Bool.and_eq_true] at hheeds
    simp only [analyze_action_sequence, combine_results_after, AssignedFirst.combine, List.mem_cons, List.not_mem_nil, or_false,
      forall_eq_or_imp, forall_eq] at h ⊢
    have hfirst := (interpret_all_insensitive arithmetic htracked fuel action assigned hheeds.1 h.1).weaken _ true
      (fun _ _ hmem => .inl hmem) fun _ => rfl
    exact hfirst.seq (actions_insensitive rest _ hheeds.2 h.2)

theorem rules_insensitive : (items : List NormalizedRecordItem) → (assigned : Finset Name) →
    heeds_rules tracked forgotten items assigned = true →
    AssignedFirst forgotten (analyze_record_items tracked items assigned) →
    InsensitiveStatement forgotten assigned (analyze_record_items tracked items assigned).assigned_after true
      (in_turn (record_rule arithmetic fuel) items)
  | [], _, _, _ => .skip
  | item :: rest, assigned, hheeds, h => by
    rw [heeds_rules, Bool.and_eq_true] at hheeds
    simp only [analyze_record_items, combine_results_after, AssignedFirst.combine, List.mem_cons, List.not_mem_nil, or_false,
      forall_eq_or_imp, forall_eq] at h ⊢
    exact (rule_insensitive arithmetic htracked fuel item hheeds.1 h.1).seq (rules_insensitive rest _ hheeds.2 h.2)

end Rules

section Phases

variable {R : Runtime} (program : Program) (normalized_program : NormalizedLoweringProgram)

/-- Between two phases, the machine holds the state of the program, but for the names that are local to a phase. -/
def HoldsState (numeric : NumericState R) (machine : Machine R) : Prop :=
  AgreeBut (resident_names program normalized_program) ∅ numeric
    (reading (phase_state program normalized_program .begin_phase) machine)

variable {program normalized_program}

theorem HoldsState.of_same {numeric : NumericState R} {first second : Machine R}
    (h : HoldsState program normalized_program numeric first) (hstate : first.state = second.state)
    (hworld : first.world = second.world) (hrequested : first.exit_requested = second.exit_requested)
    (hstatus : first.exit_status = second.exit_status) : HoldsState program normalized_program numeric second :=
  AgreeBut.trans h (agree_readings .begin_phase .begin_phase rfl rfl hstate hworld hrequested hstatus)

/-- A phase of the program, whatever its local names held before. -/
theorem phase_coupled {unit : LoweredUnit} (hunit : unit.is_phase = true) {meaning : Meaning R Completion}
    {code : Exec R Completion} {gained : Finset Name}
    (hinsensitive : InsensitiveStatement (resident_names program normalized_program) ∅ gained true meaning)
    (hfollows : Implements (phase_state program normalized_program unit) meaning code) (phase : Phase) :
    Coupled (HoldsState program normalized_program) (meaning >>= fun _ => pure ()) (exec_phase phase code)
      (fun _ => HoldsState program normalized_program) (HoldsState program normalized_program) := by
  have hback (numeric : NumericState R) (before after : Machine R)
      (h : AgreeBut (resident_names program normalized_program) ∅ numeric
        (reading (phase_state program normalized_program unit) after)) :
      HoldsState program normalized_program numeric { after with locals := before.locals, params := before.params } :=
    AgreeBut.trans h (agree_readings unit .begin_phase hunit rfl rfl rfl rfl rfl)
  refine Coupled.after (HoldsState program normalized_program) (fun machine => rfl)
    (fun numeric machine h => h.of_same rfl rfl rfl rfl) ?_
  -- The phase runs in a frame of its own, whose local names are cleared.
  have hframe (numeric : NumericState R) (machine : Machine R) (h : HoldsState program normalized_program numeric machine) :
      Alike (fun _ numeric after => AgreeBut (resident_names program normalized_program) ∅ numeric
          (reading (phase_state program normalized_program unit) after))
        (fun numeric after => AgreeBut (resident_names program normalized_program) ∅ numeric
          (reading (phase_state program normalized_program unit) after))
        (meaning numeric) (code { machine with locals := fun _ => R.zero, params := fun _ => none }) := by
    have hcleared : AgreeBut (resident_names program normalized_program) ∅
        (reading (phase_state program normalized_program .begin_phase) machine)
        (reading (phase_state program normalized_program unit)
          { machine with locals := fun _ => R.zero, params := fun _ => none }) :=
      agree_readings .begin_phase unit rfl hunit rfl rfl rfl rfl
    exact ((hinsensitive ∅ (Finset.Subset.refl _) _ _ (AgreeBut.trans h hcleared)).trans (reading _) (hfollows _ _ rfl)).mono
      (fun _ _ _ hafter => hafter.1.forget) fun _ _ hafter => hafter
  have hrun : Coupled (HoldsState program normalized_program) meaning _ (fun _ => HoldsState program normalized_program)
      (HoldsState program normalized_program) :=
    .framed (fun machine => { machine with locals := fun _ => R.zero, params := fun _ => none })
      (fun before after => { after with locals := before.locals, params := before.params })
      hframe (fun _ => hback) hback
  exact hrun.bind fun _ numeric machine h => .value (h.of_same rfl rfl rfl rfl)

theorem Coupled.phase {unit : LoweredUnit} (hunit : unit.is_phase = true) {meaning : Meaning R Completion}
    {code : Exec R Completion} {gained : Finset Name} {α : Type} {next : Meaning R α} {following : Exec R α}
    {post : α → NumericState R → Machine R → Prop}
    (hinsensitive : InsensitiveStatement (resident_names program normalized_program) ∅ gained true meaning)
    (hfollows : Implements (phase_state program normalized_program unit) meaning code) (phase : Phase)
    (hnext : Coupled (HoldsState program normalized_program) next following post (HoldsState program normalized_program)) :
    Coupled (HoldsState program normalized_program) (meaning >>= fun _ => next) (exec_phase phase code >>= fun _ => following)
      post (HoldsState program normalized_program) := by
  have hphase := (phase_coupled hunit hinsensitive hfollows phase).bind fun _ => hnext
  rwa [Run.bind_assoc] at hphase

end Phases

section Programs

variable {R : Runtime} (arithmetic : NumberArithmetic R) {program : Program} {normalized_program : NormalizedLoweringProgram}
  {calls : Calls R} (fuel : Nat)

/-- What `is_numeric_program` says of the three phases. -/
structure NumericProgram (program : Program) (normalized_program : NormalizedLoweringProgram) : Prop where
  begin_actions : normalized_program.begin_actions.all
    (are_numeric_statements (phase_state program normalized_program .begin_phase) false) = true
  record_items : normalized_program.record_items.all
    (is_numeric_rule (phase_state program normalized_program .record_phase)) = true
  end_actions : normalized_program.end_actions.all
    (are_numeric_statements (phase_state program normalized_program .end_phase) false) = true
  begin_heeds : heeds_actions (tracked_names program normalized_program) (resident_names program normalized_program)
    normalized_program.begin_actions ∅ = true
  record_heeds : heeds_rules (tracked_names program normalized_program) (resident_names program normalized_program)
    normalized_program.record_items ∅ = true
  end_heeds : heeds_actions (tracked_names program normalized_program) (resident_names program normalized_program)
    normalized_program.end_actions ∅ = true

theorem NumericProgram.of_is_numeric (h : is_numeric_program program normalized_program = true) :
    NumericProgram program normalized_program := by
  simp only [is_numeric_program, Bool.and_eq_true] at h
  obtain ⟨⟨⟨⟨⟨⟨hbegin, hrecord⟩, hend⟩, hbegin_heeds⟩, hrecord_heeds⟩, hend_heeds⟩, _⟩ := h
  exact ⟨hbegin, hrecord, hend, hbegin_heeds, hrecord_heeds, hend_heeds⟩

variable (h : NumericProgram program normalized_program)

include h

/-- The record loop: every record is one run of the record phase. -/
theorem every_record_coupled (blocks : ProgramBlocks (Value R.Number))
    (hblocks : blocks.record_items = normalized_program.record_items.map
      (lower_runtime_record_item (phase_state program normalized_program .record_phase))) :
    Coupled (HoldsState program normalized_program) (every_record arithmetic fuel normalized_program.record_items)
      (record_loop blocks fuel) (fun _ => HoldsState program normalized_program) (HoldsState program normalized_program) := by
  have hasks : Coupled (HoldsState (R := R) program normalized_program) exit_was_requested should_exit
      (fun _ => HoldsState program normalized_program) (HoldsState program normalized_program) := by
    intro numeric machine htracks
    unfold exit_was_requested should_exit
    rw [show numeric.exit_requested = machine.exit_requested from htracks.exit_requested]
    exact .value htracks
  have hnext : Coupled (HoldsState (R := R) program normalized_program) take_record next_record
      (fun _ => HoldsState program normalized_program) (HoldsState program normalized_program) := by
    intro numeric machine htracks
    unfold take_record
    rw [show numeric.world = machine.world from htracks.world]
    exact .value ⟨htracks.numbers, htracks.active, rfl, htracks.exit_requested, htracks.exit_status⟩
  have hends : Coupled (HoldsState (R := R) program normalized_program)
      (exit_was_requested >>= fun requested => if requested then pure (.inr ()) else pure (.inl ()))
      (should_exit >>= fun requested => if requested then pure (.inr ()) else pure (.inl ()))
      (fun (_ : Unit ⊕ Unit) => HoldsState program normalized_program) (HoldsState program normalized_program) :=
    hasks.bind fun _ => .branch (fun _ => .pure fun _ _ h => h) fun _ => .pure fun _ _ h => h
  refine hasks.bind fun _ => .branch (fun _ => .pure fun _ _ h => h) fun _ => ?_
  refine Coupled.iterate (fun _ => HoldsState program normalized_program) (fun _ => ?_) (fun _ _ _ h => h) fuel ()
  have hmono {turn : Meaning R (Unit ⊕ Unit)} {code : Exec R (Unit ⊕ Unit)}
      (h : Coupled (HoldsState program normalized_program) turn code (fun _ => HoldsState program normalized_program)
        (HoldsState program normalized_program)) :
      Coupled (HoldsState program normalized_program) turn code
        (fun result => result.elim (fun _ => HoldsState program normalized_program) fun _ => HoldsState program normalized_program)
        (HoldsState program normalized_program) :=
    h.mono (fun _ _ h => h) (fun result _ _ h => by cases result <;> exact h) fun _ _ h => h
  refine hmono (hnext.bind fun _ => ?_)
  refine .branch (fun _ => ?_) fun _ => .pure fun _ _ h => h
  cases hitems : normalized_program.record_items with
  | nil =>
    rw [hitems] at hblocks
    rw [if_pos (by rw [hblocks]; rfl)]
    exact hends
  | cons item rest =>
    rw [if_neg (by rw [hblocks, hitems]; exact Bool.false_ne_true), hblocks, ← hitems]
    have hunit : (LoweredUnit.record_phase).is_phase = true := rfl
    exact Coupled.phase hunit (rules_insensitive arithmetic resident_tracked fuel _ ∅ h.record_heeds (residents_settled hunit))
      (rules_follow arithmetic fuel _ h.record_items) .record_phase hends

theorem run_program_coupled {blocks : ProgramBlocks (Value R.Number)}
    (hblocks : blocks = lower_reusable_program program normalized_program (infer_variable_types program)) :
    Coupled (HoldsState program normalized_program) (run_numeric_program arithmetic fuel normalized_program)
      (quawk_main blocks fuel) (fun _ => HoldsState program normalized_program) (HoldsState program normalized_program) := by
  have hbegin_unit : (LoweredUnit.begin_phase).is_phase = true := rfl
  have hend_unit : (LoweredUnit.end_phase).is_phase = true := rfl
  have hstatus : Coupled (HoldsState (R := R) program normalized_program) final_status exit_status
      (fun _ => HoldsState program normalized_program) (HoldsState program normalized_program) := by
    intro numeric machine htracks
    unfold final_status exit_status
    rw [show numeric.exit_requested = machine.exit_requested from htracks.exit_requested,
      show numeric.exit_status = machine.exit_status from htracks.exit_status]
    exact .value htracks
  have hend := Coupled.phase hend_unit
    (actions_insensitive arithmetic resident_tracked fuel _ ∅ h.end_heeds (residents_settled hend_unit))
    (actions_follow arithmetic (call_function blocks fuel) fuel _ h.end_actions) .end_phase hstatus
  have hrecords := every_record_coupled arithmetic fuel h blocks (by rw [hblocks]; rfl)
  have hempty : (blocks.record_items.isEmpty && blocks.end_actions.isEmpty) =
      (normalized_program.record_items.isEmpty && normalized_program.end_actions.isEmpty) := by
    rw [hblocks, lower_reusable_program, List.isEmpty_map, List.isEmpty_map]
  have hends : blocks.end_actions = normalized_program.end_actions.map
      (lower_action (phase_state program normalized_program .end_phase)) := by rw [hblocks]; rfl
  have hbegins : blocks.begin_actions = normalized_program.begin_actions.map
      (lower_action (phase_state program normalized_program .begin_phase)) := by rw [hblocks]; rfl
  unfold quawk_main
  rw [hempty, hends, hbegins]
  refine Coupled.phase hbegin_unit
    (actions_insensitive arithmetic resident_tracked fuel _ ∅ h.begin_heeds (residents_settled hbegin_unit))
    (actions_follow arithmetic _ fuel _ h.begin_actions) .begin_phase ?_
  exact .branch (fun _ => hend) fun _ => hrecords.bind fun _ => hend

omit h in
theorem lowered_blocks_eq (hnormal : normalize_program_for_lowering program = .ok normalized_program) :
    (lowered_blocks program : ProgramBlocks (Value R.Number)) =
      lower_reusable_program program normalized_program (infer_variable_types program) := by
  unfold lowered_blocks lower_to_llvm_ir
  rw [hnormal]

end Programs

/-- The records of one file, and the numbers printed so far. -/
structure Printer where
  records : Records
  printed : List Int

def int_compare : FloatPredicate → Int → Int → Bool
  | .olt, left, right => decide (left < right)
  | .ole, left, right => decide (left ≤ right)
  | .ogt, left, right => decide (right < left)
  | .oge, left, right => decide (right ≤ left)
  | .oeq, left, right => left == right
  | .one, left, right => left != right

/-- Whole numbers with their operators; fields are the whole record. -/
def printer_runtime : Runtime where
  Number := Int
  World := Printer
  zero := 0
  perform {_ type} f operands world :=
    match f, operands with
    | .number value, _ => (value.whole_number, world)
    | .fadd, (left, right, _) => (left + right, world)
    | .fsub, (left, right, _) => (left - right, world)
    | .fmul, (left, right, _) => (left * right, world)
    | .fdiv, (left, right, _) => (left / right, world)
    | .llvm_trunc, (value, _) => (value, world)
    | .llvm_pow, (left, right, _) => (Int.pow left right.toNat, world)
    | .fcmp predicate, (left, right, _) => (int_compare predicate left right, world)
    | .uitofp_i1, (flag, _) => (if flag then (1 : Int) else 0, world)
    | .select_double, (flag, left, right, _) => (if flag then left else right, world)
    | .select_i1, (flag, left, right, _) => (if flag then left else right, world)
    | .fptosi_i32, (value, _) => (value, world)
    | .fptosi_i64, (value, _) => (value, world)
    | .qk_get_field_inline, _ => (some world.records.current, world)
    | .qk_capture_string_arg_inline, (text, _) => (text, world)
    | .qk_parse_number_text, (text, _) => (whole_number (text.getD []), world)
    | .qk_print_number_fragment, (value, _) => ((), { world with printed := world.printed ++ [value] })
    | _, _ => (default_value type, world)
  next_record world :=
    match world.records.waiting with
    | [] => (false, world)
    | record :: waiting => (true, { world with records := ⟨waiting, record⟩ })
  nextfile world := { world with records := ⟨[], world.records.current⟩ }
  nonzero value := value != 0
  flag_number flag := if flag then 1 else 0
  nonzero_flag_number := whole_number_runtime.nonzero_flag_number

def printer_arithmetic : NumberArithmetic printer_runtime where
  constant := NumericConstant.whole_number
  add left right := (show Int from left) + (show Int from right)
  sub left right := (show Int from left) - (show Int from right)
  mul left right := (show Int from left) * (show Int from right)
  div left right := (show Int from left) / (show Int from right)
  pow left right := Int.pow (show Int from left) (show Int from right).toNat
  trunc value := value
  compare := int_compare
  of_bool flag := show Int from if flag then 1 else 0
  perform_number _ _ := rfl
  perform_fadd _ _ _ := rfl
  perform_fsub _ _ _ := rfl
  perform_fmul _ _ _ := rfl
  perform_fdiv _ _ _ := rfl
  perform_pow _ _ _ := rfl
  perform_trunc _ _ := rfl
  perform_fcmp _ _ _ _ := rfl
  perform_uitofp _ _ := rfl
  perform_select_double _ _ _ _ := rfl
  perform_select_i1 _ _ _ _ := rfl
  compare_of_bool flag := by cases flag <;> rfl

def printer_machine (records : List Text) : Machine printer_runtime where
  world := ⟨⟨records, []⟩, []⟩
  state := fun _ => (0 : Int)
  locals := fun _ => (0 : Int)
  params := fun _ => none
  exit_requested := false
  exit_status := 0
  log := []

/-- `{ s += $1; n += 1 } END { for (i = 0; i < n; i++) s += i; print s; exit n > 1 ? n : 0 }` -/
def sum_program : Program := ⟨[
  .pattern_action none (some [.assign (.name "s") .add (.field_at 1),
    .assign (.name "n") .add (.numeric_literal ['1'])]),
  .pattern_action (some .end_pattern) (some [
    .for_stmt [.assign (.name "i") .plain (.numeric_literal ['0'])] (some (.binary (.name "i") .less (.name "n")))
      [.postfix_op (.name "i") .post_inc] (.assign (.name "s") .add (.name "i")),
    .print [.name "s"] none,
    .exit (some (.conditional (.binary (.name "n") .greater (.numeric_literal ['1'])) (.name "n") (.numeric_literal ['0'])))])]⟩

end quawk
