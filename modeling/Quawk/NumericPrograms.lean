import Quawk.NumericStatements
import Quawk.NumericUnits

namespace quawk

open StatefulRun (Result Run)
open StatefulRun.Run (Alike Coupled)

section Core

variable (state : LoweringState)

def is_numeric_action (action : Option Action) : Bool := action.all (are_numeric_statements state false)

/-- A rule that works on numbers only. -/
def is_numeric_rule (item : NormalizedRecordItem) : Bool :=
  match item.pattern, item.range_state_name with
  | none, _ => is_numeric_action state item.action
  | some (.expr test), _ => is_numeric state true test && is_numeric_action state item.action
  | some (.range (.expr left) (.expr right)), some name =>
    (range_index state name).isSome && is_numeric state true left && is_numeric state true right &&
      is_numeric_action state item.action
  | _, _ => false

variable (tracked forgotten : Finset Name)

def heeds_action (action : Option Action) (assigned : Finset Name) : Bool :=
  action.all fun action => heeds_statements tracked forgotten action assigned

def heeds_actions : List Action → Finset Name → Bool
  | [], _ => true
  | action :: rest, assigned =>
    heeds_statements tracked forgotten action assigned &&
      heeds_actions rest (analyze_statement_sequence tracked action [] assigned).assigned_after

def heeds_rule (item : NormalizedRecordItem) (assigned : Finset Name) : Bool :=
  match item.pattern with
  | some (.expr test) =>
    heeds_expression tracked forgotten test assigned &&
      heeds_action tracked forgotten item.action (analyze_expression tracked [] test assigned).assigned_after
  | some (.range (.expr left) (.expr right)) =>
    heeds_expression tracked forgotten left assigned && heeds_expression tracked forgotten right assigned &&
      heeds_action tracked forgotten item.action assigned
  | _ => heeds_action tracked forgotten item.action assigned

def heeds_rules : List NormalizedRecordItem → Finset Name → Bool
  | [], _ => true
  | item :: rest, assigned =>
    heeds_rule tracked forgotten item assigned && heeds_rules rest (analyze_record_item tracked item assigned).assigned_after

end Core

/-- Programs without functions that work on numbers only, and leave no gap in the residency analysis that concerns a
resident name. -/
def is_numeric_program (program : Program) (normalized_program : NormalizedLoweringProgram) : Bool :=
  let tracked := tracked_names program normalized_program
  let residents := resident_names program normalized_program
  normalized_program.begin_actions.all (are_numeric_statements (phase_state program normalized_program .begin_phase) false) &&
    normalized_program.record_items.all (is_numeric_rule (phase_state program normalized_program .record_phase)) &&
    normalized_program.end_actions.all (are_numeric_statements (phase_state program normalized_program .end_phase) false) &&
    heeds_actions tracked residents normalized_program.begin_actions ∅ &&
    heeds_rules tracked residents normalized_program.record_items ∅ &&
    heeds_actions tracked residents normalized_program.end_actions ∅ && program.function_defs.isEmpty

section Code

variable {R : Runtime} (arithmetic : NumberArithmetic R) {state : LoweringState} {calls : Calls R} (fuel : Nat)

/-- A meaning that has no end but to leave the phase. -/
def OnlyLeaves (meaning : Meaning R Completion) : Prop :=
  ∀ numeric completion, (meaning numeric).1 = .value completion → completion = .left

theorem OnlyLeaves.bind {α : Type} (first : Meaning R α) {next : α → Meaning R Completion}
    (h : ∀ value, OnlyLeaves (next value)) : OnlyLeaves (first >>= next) := by
  intro numeric completion hresult
  change (Run.bind first next numeric).1 = _ at hresult
  unfold Run.bind at hresult
  cases hfirst : first numeric with
  | mk result after =>
    rw [hfirst] at hresult
    cases result with
    | value value => exact h value after completion hresult
    | timeout | raised _ | crashed => cases hresult

theorem ending_only_leaves {statement : Stmt} (h : ends_action statement = true) :
    OnlyLeaves (interpret arithmetic fuel statement) := by
  have hleft : OnlyLeaves (R := R) (pure .left) := fun _ _ hresult => (Result.value.inj hresult).symm
  cases statement with
  | next => exact hleft
  | nextfile => exact fun _ _ hresult => (Result.value.inj hresult).symm
  | exit status =>
    cases status with
    | none => exact .bind (set_exit 0) fun _ => hleft
    | some status =>
      exact .bind _ fun _ => .bind (runtime_call .fptosi_i32 (_, ())) fun status => .bind (set_exit status) fun _ => hleft
  | _ => cases h

/-- An action is lowered up to its first statement that leaves the phase; what follows is never reached. -/
theorem action_follows : (statements : List Stmt) → are_numeric_statements state false statements = true →
    Implements state (interpret_all arithmetic fuel statements)
      (exec calls false fuel (lower_until state ends_action in_phase statements))
  | [], _ => .pure _
  | statement :: rest, h => by
    rw [are_numeric_statements, Bool.and_eq_true] at h
    have hfirst : Implements state (interpret arithmetic fuel statement)
        (exec calls false fuel (lower_statement statement state (fun _ => none) in_phase)) :=
      statement_follows arithmetic fuel statement in_phase rfl h.1
    by_cases hends : ends_action statement = true
    · rw [lower_until, if_pos hends]
      intro numeric machine hmirrors
      have honly := ending_only_leaves arithmetic fuel hends numeric
      have hleaves : Coupled (fun s t => s = numeric ∧ Mirrors state s t) (interpret arithmetic fuel statement)
          (exec calls false fuel (lower_statement statement state (fun _ => none) in_phase))
          (fun completion s t => completion = .left ∧ Mirrors state s t) (Mirrors state) := by
        intro s t hstart
        obtain ⟨rfl, hstart⟩ := hstart
        have hrun := hfirst s t hstart
        generalize hs : interpret arithmetic fuel statement s = meaning at hrun honly
        generalize exec calls false fuel (lower_statement statement state (fun _ => none) in_phase) t = run at hrun
        cases hrun with
        | value hafter => exact .value ⟨honly _ rfl, hafter⟩
        | timeout hstopped => exact .timeout hstopped
        | crashed hstopped => exact .crashed hstopped
      refine hleaves.bind (fun completion s t hafter => ?_) numeric machine ⟨rfl, hmirrors⟩
      obtain ⟨rfl, hafter⟩ := hafter
      exact .value hafter
    · rw [lower_until, if_neg hends]
      refine hfirst.bind fun completion => ?_
      cases completion with
      | normal => exact action_follows rest h.2
      | broke | continued | left | returned _ => exact .pure _

theorem rule_action_follows (action : Option Action) (h : is_numeric_action state action = true) :
    Implements state (rule_action arithmetic fuel action) (exec calls false fuel (lower_runtime_action_or_default state action)) := by
  cases action with
  | some action => exact action_follows arithmetic fuel action h
  | none => exact print_record_follows.bind fun _ => .pure Completion.normal

variable {name : Name} {index : Nat}

theorem range_index_injective {other : Name} (h1 : range_index state name = some index)
    (h2 : range_index state other = some index) : name = other :=
  get_injective (range_index_cases h1).2 (range_index_cases h2).2

theorem reading_active (h : range_index state name = some index) (machine : Machine R) :
    (reading state machine).active name = R.nonzero (machine.state index) := by
  change ((range_index state name).map fun index => R.nonzero (machine.state index)).getD false = _
  rw [h]
  rfl

theorem reading_store_flag (h : range_index state name = some index) (machine : Machine R) (flag : Bool) :
    reading state (machine.store (R.flag_number flag) (.state_field index)) =
      { reading state machine with active := Function.update (reading state machine).active name flag } := by
  have hnumbers : (reading state (machine.store (R.flag_number flag) (.state_field index))).numbers =
      (reading state machine).numbers := by
    funext other
    change ((number_address state other).map _).getD _ = ((number_address state other).map _).getD _
    cases hother : number_address state other with
    | none => rfl
    | some address =>
      have hload := load_store machine (R.flag_number flag) (.state_field index) address
      rwa [if_neg (range_index_apart hother h)] at hload
  have hactive : (reading state (machine.store (R.flag_number flag) (.state_field index))).active =
      Function.update (reading state machine).active name flag := by
    funext other
    rw [Function.update_apply]
    change ((range_index state other).map _).getD false = _
    cases hother : range_index state other with
    | none =>
      rw [if_neg fun heq => by rw [heq, h] at hother; cases hother]
      change _ = ((range_index state other).map _).getD false
      rw [hother]
      rfl
    | some place =>
      rw [reading_active hother]
      change R.nonzero (Function.update machine.state index (R.flag_number flag) place) = _
      rw [Function.update_apply]
      by_cases heq : place = index
      · subst heq
        rw [if_pos rfl, if_pos (range_index_injective hother h), R.nonzero_flag_number]
      · have hname : other ≠ name := by
          rintro rfl
          exact heq (Option.some.inj (hother.symm.trans h))
        rw [if_neg heq, if_neg hname]
  change NumericState.mk _ _ _ _ _ = NumericState.mk _ _ _ _ _
  exact congrArg₂ (fun numbers active => NumericState.mk numbers active machine.world machine.exit_requested
    machine.exit_status) hnumbers hactive

variable (calls) in
theorem eval_range_address (h : range_index state name = some index) (machine : Machine R) :
    ∃ after, eval calls (variable_address state name) machine = (.value (.state_field index), after) ∧
      reading state after = reading state machine := by
  obtain ⟨hreusable, hindex⟩ := range_index_cases h
  have hlocal : runtime_name_uses_local_numeric_storage state name = false := by
    simp [runtime_name_uses_local_numeric_storage, runtime_name_uses_scalar_runtime, hreusable]
  unfold variable_address
  rw [hlocal, hindex]
  exact ⟨_, rfl, rfl⟩

theorem store_flag_follows (h : range_index state name = some index) (flag : Bool) :
    Implements (R := R) state (write_active name flag)
      (perform_op calls .store_double (R.flag_number flag, Address.state_field index, ())) := by
  intro numeric machine hmirrors
  cases hmirrors
  exact .value (reading_store_flag h machine flag)

variable (calls) in
theorem range_selected_follows (h : range_index state name = some index) {right : Expr} {action : Option Action}
    (hright : is_numeric state true right = true) (haction : is_numeric_action state action = true) (selected : Bool) :
    Implements state (range_selected arithmetic fuel name right action selected)
      (exec_selected calls fuel (lower_record_pattern state right) (lower_runtime_action_or_default state action)
        (.state_field index) selected) := by
  refine .branch ((rule_action_follows arithmetic fuel action haction).bind fun completion => ?_) (.pure _)
  cases completion with
  | normal =>
    exact ((views_follow right).condition hright).bind fun right_matches =>
      (store_flag_follows h !right_matches).bind fun _ => .pure _
  | broke | continued | left | returned _ => exact .pure _

theorem range_rule_follows (h : range_index state name = some index) {left right : Expr} {action : Option Action}
    (hleft : is_numeric state true left = true) (hright : is_numeric state true right = true)
    (haction : is_numeric_action state action = true) :
    Implements state (range_rule arithmetic fuel name left right action)
      (exec_record_item calls fuel (lower_runtime_range_record_item state (.expr left) (.expr right) action name)) := by
  have hselected := range_selected_follows arithmetic calls fuel h hright haction
  intro numeric machine hmirrors
  obtain ⟨middle, haddress, hmiddle⟩ := eval_range_address calls h machine
  have hload : perform_op calls .load_double (Address.state_field index, ()) middle =
      (.value (middle.state index), middle.note (.op _ _ .load_double)) := rfl
  have hstart : Mirrors state numeric (middle.note (.op _ _ .load_double)) := hmiddle.trans hmirrors
  have hactive : numeric.active name = R.nonzero (middle.state index) := by
    rw [← reading_active h, hmiddle, show reading state machine = numeric from hmirrors]
  have hmeaning : range_rule arithmetic fuel name left right action numeric =
      (if numeric.active name then range_selected arithmetic fuel name right action true
      else condition_of arithmetic left >>= range_selected arithmetic fuel name right action) numeric := rfl
  change Alike _ _ _ ((eval calls (variable_address state name) >>= fun slot_name =>
    perform_op calls .load_double (slot_name, ()) >>= fun active_value => _) machine)
  rw [Run.bind_of_ends haddress, Run.bind_of_ends hload, hmeaning, hactive]
  exact Implements.branch (hselected true) (((views_follow left).condition hleft).bind hselected) numeric _ hstart

theorem rule_follows (item : NormalizedRecordItem) (h : is_numeric_rule state item = true) :
    Implements state (record_rule arithmetic fuel item)
      (exec_record_item calls fuel (lower_runtime_record_item state item)) := by
  obtain ⟨pattern, action, range_state_name⟩ := item
  cases pattern with
  | none => exact rule_action_follows arithmetic fuel action h
  | some pattern =>
    cases pattern with
    | begin_pattern | end_pattern => cases h
    | expr test =>
      obtain ⟨htest, haction⟩ := Bool.and_eq_true_iff.mp
        (show (is_numeric state true test && is_numeric_action state action) = true from h)
      exact ((views_follow test).condition htest).bind fun _ =>
        .branch (rule_action_follows arithmetic fuel action haction) (.pure _)
    | range left right =>
      cases left with
      | begin_pattern | end_pattern | range _ _ => cases h
      | expr left =>
        cases right with
        | begin_pattern | end_pattern | range _ _ => cases h
        | expr right =>
          cases range_state_name with
          | none => cases h
          | some name =>
            have hparts : ((range_index state name).isSome && is_numeric state true left && is_numeric state true right &&
              is_numeric_action state action) = true := h
            simp only [Bool.and_eq_true] at hparts
            obtain ⟨⟨⟨hname, hleft⟩, hright⟩, haction⟩ := hparts
            obtain ⟨index, hindex⟩ := Option.isSome_iff_exists.mp hname
            exact range_rule_follows arithmetic fuel hindex hleft hright haction

variable (calls) in
theorem actions_follow : (actions : List Action) → actions.all (are_numeric_statements state false) = true →
    Implements state (in_turn (interpret_all arithmetic fuel) actions)
      (exec_actions calls fuel (actions.map (lower_action state)))
  | [], _ => .pure _
  | action :: rest, h => by
    rw [List.all_cons, Bool.and_eq_true] at h
    refine (action_follows arithmetic fuel action h.1).bind fun completion => ?_
    cases completion with
    | normal => exact actions_follow rest h.2
    | broke | continued | left | returned _ => exact .pure _

theorem rules_follow : (items : List NormalizedRecordItem) → items.all (is_numeric_rule state) = true →
    Implements state (in_turn (record_rule arithmetic fuel) items)
      (exec_record_items calls fuel (items.map (lower_runtime_record_item state)))
  | [], _ => .pure _
  | item :: rest, h => by
    rw [List.all_cons, Bool.and_eq_true] at h
    refine (rule_follows arithmetic fuel item h.1).bind fun completion => ?_
    cases completion with
    | normal => exact rules_follow rest h.2
    | broke | continued | left | returned _ => exact .pure _

end Code

end quawk
