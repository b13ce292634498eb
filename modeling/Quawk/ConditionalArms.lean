import Quawk.CodeRuns
import Quawk.Getline
import Quawk.Lib.CodeBlocks
import Quawk.ObservedRun

namespace quawk

open TracedRun (Traced Allowed Outcome)
open TracedRun.Traced (mark unmarked spelled part_marks)
open TracedRun.Allowed (exactly loosely)

inductive LoweringContext where
  | numeric | string | condition
  deriving DecidableEq, Repr

def LoweringContext.type : LoweringContext → Ty
  | .numeric => .double
  | .string => .ptr
  | .condition => .i1

section Contexts

variable {V : Ty → Type}

/-- The code of an expression in a context. -/
def Lowered.in_context (lowered : Lowered V) : (context : LoweringContext) → Code V (V context.type)
  | .numeric => lowered.numeric
  | .string => lowered.string
  | .condition => lowered.condition

/-- The code of an arm of a ternary in a context; the string of an arm is captured. -/
def Lowered.as_arm (lowered : Lowered V) : (context : LoweringContext) → Code V (V context.type)
  | .numeric => lowered.numeric
  | .string => lower_runtime_captured_string_expression lowered
  | .condition => lowered.condition

/-- Both arms of the ternary are evaluated, and a `select` takes one of the results. -/
def evaluates_both (state : LoweringState) (context : LoweringContext) (if_true if_false : Expr) : Bool :=
  context != .string && !(runtime_expression_has_side_effects state if_true) &&
    !(runtime_expression_has_side_effects state if_false)

end Contexts

inductive ConditionalPart where
  | test | if_true | if_false
  deriving DecidableEq, Repr

variable {R : ObservedRuntime} {α : Type}

/-- The runs a ternary is made of, one after the other. -/
def conditional_run {S E : Type} (both : Bool) (test : Traced S E Bool) (if_true if_false : Traced S E α) :
    Traced S E α :=
  test >>= fun selected =>
    if both then
      if_true >>= fun true_operand => if_false >>= fun false_operand =>
        pure (if selected then true_operand else false_operand)
    else if selected then if_true else if_false

/-- The run of a ternary, with every event marked by the part it comes from. -/
def marked_conditional_run {S E : Type} (both : Bool) (test : Traced S E Bool) (if_true if_false : Traced S E α) :
    Traced S (ConditionalPart × Option E) α :=
  conditional_run both (test.mark .test) (if_true.mark .if_true) (if_false.mark .if_false)

theorem spelled_marked_conditional_run {S E : Type} (both : Bool) (test : Traced S E Bool)
    (if_true if_false : Traced S E α) :
    spelled unmarked (marked_conditional_run both test if_true if_false) =
      conditional_run both test if_true if_false := by
  unfold marked_conditional_run conditional_run
  rw [Traced.spelled_bind, Traced.spelled_mark]
  congr 1
  funext selected
  cases both with
  | true => simp only [↓reduceIte, Traced.spelled_bind, Traced.spelled_mark, Traced.spelled_pure]
  | false => cases selected <;> exact Traced.spelled_mark _ _

/-- The test once, and then the arm it selects once, up to what the program cannot tell apart. -/
def one_arm {S E : Type} (same : S → S → Prop) (test : Traced S E Bool) (if_true if_false : Traced S E α) :
    Allowed S (ConditionalPart × Option E) α :=
  exactly (test.mark .test) >>= fun selected =>
    if selected then loosely same (if_true.mark .if_true) else loosely same (if_false.mark .if_false)

/-- The arm that is not selected ends with a value and without events where it is evaluated: the first arm before the
second, and the second after the first. -/
def IdleArmEffectless {S E : Type} (test : Traced S E Bool) (if_true if_false : Traced S E α) (start : S) : Prop :=
  ∀ selected, (test start).result = .value selected →
    if selected then
      (∃ value, (if_true (test start).state).result = .value value) →
        if_false.Effectless (if_true (test start).state).state
    else if_true.Effectless (test start).state

section Abstract

variable {S E : Type} {same : S → S → Prop} {test : Traced S E Bool} {if_true if_false : Traced S E α} {start : S}

/-- A part is effectless where its marks would be those of another part. -/
theorem effectless_of_marks (part other : ConditionalPart) {run : Traced S E α} {state : S} (hparts : part ≠ other)
    (h : ∀ found ∈ (run.mark part state).events, found.1 = other) : run.Effectless state := by
  have hnone : (run.mark part state).events = [] := by
    refine List.eq_nil_iff_forall_not_mem.mpr fun found hfound => ?_
    exact hparts ((Traced.part_of_mem_mark hfound).symm.trans (h found hfound))
  exact Traced.mark_events_eq_nil.mp hnone

theorem part_of_mem_loosely {part : ConditionalPart} {run : Traced S E α} {state : S}
    {outcome : Outcome S (ConditionalPart × Option E) α} (h : loosely same (run.mark part) state outcome)
    {found : ConditionalPart × Option E} (hfound : found ∈ outcome.events) : found.1 = part := by
  obtain ⟨other, -, -, hevents, -⟩ := h
  rw [hevents] at hfound
  exact Traced.part_of_mem_mark hfound

/-- The arms one after the other, where the test selects the first. -/
theorem both_arms_true (hsame : Equivalence same) (hquiet : if_false.Quiet same) (state : S) :
    loosely same (if_true.mark .if_true) state
        ((if_true.mark .if_true >>= fun true_operand => if_false.mark .if_false >>= fun _ =>
          (pure true_operand : Traced S (ConditionalPart × Option E) α)) state) ↔
      ((∃ value, (if_true state).result = .value value) → if_false.Effectless (if_true state).state) := by
  have hresult := Traced.mark_result ConditionalPart.if_true if_true state
  have hstate := Traced.mark_state ConditionalPart.if_true if_true state
  cases htrue : (if_true state).result with
  | value value =>
    rw [Traced.bind_of_value (hresult.trans htrue), hstate]
    constructor
    · intro h _
      refine effectless_of_marks .if_false .if_true (by decide) fun found hfound => ?_
      exact part_of_mem_loosely h (List.mem_append_right _ (Traced.mem_events_bind hfound))
    · intro h
      obtain ⟨⟨other, hother⟩, hevents⟩ := h ⟨value, rfl⟩
      have hmarks : (if_false.mark ConditionalPart.if_false (if_true state).state).events = [] :=
        Traced.mark_events_eq_nil.mpr ⟨⟨other, hother⟩, hevents⟩
      rw [Traced.bind_of_value ((Traced.mark_result ..).trans hother), hmarks]
      refine TracedRun.Allowed.loosely_of_same hsame (hresult.trans htrue).symm (List.append_nil _) ?_
      rw [hstate, Traced.mark_state]
      exact hquiet _ hevents
  | timeout | raised _ | crashed =>
    refine iff_of_true ?_ (by rintro ⟨_, h⟩; cases h)
    rw [Traced.bind_of_stop (by intro value h; cases (hresult.trans htrue).symm.trans h)]
    exact TracedRun.Allowed.loosely_of_same hsame rfl rfl (hsame.refl _)

/-- The arms one after the other, where the test selects the second. -/
theorem both_arms_false (hsame : Equivalence same) (hquiet : if_true.Quiet same) (state : S) :
    loosely same (if_false.mark ConditionalPart.if_false) state
        ((if_true.mark ConditionalPart.if_true >>= fun _ => if_false.mark ConditionalPart.if_false) state) ↔
      if_true.Effectless state := by
  constructor
  · intro h
    refine effectless_of_marks .if_true .if_false (by decide) fun found hfound => ?_
    exact part_of_mem_loosely h (Traced.mem_events_bind hfound)
  · rintro ⟨⟨value, htrue⟩, hevents⟩
    have hmarks : (if_true.mark ConditionalPart.if_true state).events = [] :=
      Traced.mark_events_eq_nil.mpr ⟨⟨value, htrue⟩, hevents⟩
    rw [Traced.bind_of_value ((Traced.mark_result ..).trans htrue), hmarks, Traced.mark_state]
    exact ⟨_, hquiet state hevents, rfl, rfl, hsame.refl _⟩

/-- The ternary is its test and then the arm it selects just if it evaluates no other arm, or the other arm is
effectless. -/
theorem one_arm_iff (hsame : Equivalence same) (hquiet_true : if_true.Quiet same) (hquiet_false : if_false.Quiet same)
    (both : Bool) (start : S) :
    one_arm same test if_true if_false start (marked_conditional_run both test if_true if_false start) ↔
      both = false ∨ IdleArmEffectless test if_true if_false start := by
  unfold one_arm marked_conditional_run conditional_run
  rw [TracedRun.Allowed.exactly_bind_iff, Traced.mark_state]
  simp only [Traced.mark_result]
  cases both with
  | false =>
    refine iff_of_true (fun selected _ => ?_) (.inl rfl)
    cases selected <;> exact TracedRun.Allowed.loosely_of_same hsame rfl rfl (hsame.refl _)
  | true =>
    rw [or_iff_right (by decide)]
    refine forall_congr' fun selected => imp_congr_right fun _ => ?_
    cases selected with
    | true => exact both_arms_true hsame hquiet_false _
    | false =>
      simp only [Bool.false_eq_true, ↓reduceIte, Traced.bind_pure]
      exact both_arms_false hsame hquiet_true _

end Abstract

/-- An expression as it is written, where an operand is a register. -/
def written (state : LoweringState) (keys : Name → Option (Value R.Number .ptr)) (expression : Expr) :
    Lowered fun _ => Unit :=
  lower_expression state (fun name => (keys name).map fun _ => ()) expression

/-- The ternary is written and is valid. Run in a context from this state, it is its test and then the arm it selects,
each evaluated once. -/
def EvaluatesOneArm (R : ObservedRuntime) (state : LoweringState) (keys : Name → Option (Value R.Number .ptr))
    (context : LoweringContext) (test if_true if_false : Expr) (start : R.State) : Prop :=
  let lowered := lower_expression state keys (.conditional test if_true if_false)
  let marked := marked_conditional_run (evaluates_both state context if_true if_false)
    (R.observe (lower_expression state keys test).condition)
    (R.observe ((lower_expression state keys if_true).as_arm context))
    (R.observe ((lower_expression state keys if_false).as_arm context))
  ((written state keys (.conditional test if_true if_false)).in_context context).accepted = true ∧
    R.observe (lowered.in_context context) = spelled unmarked marked ∧
    one_arm R.same_world (R.observe (lower_expression state keys test).condition)
      (R.observe ((lower_expression state keys if_true).as_arm context))
      (R.observe ((lower_expression state keys if_false).as_arm context)) start (marked start)

/-- The ternary takes one of two blocks, and each arm is written into one. -/
def TakesBlock (state : LoweringState) (keys : Name → Option (Value R.Number .ptr)) (context : LoweringContext)
    (if_true if_false : Expr) : Prop :=
  evaluates_both state context if_true if_false = false ∧
    ∀ arm ∈ [if_true, if_false], ((written state keys arm).as_arm context).completes = true ∧
      ((written state keys arm).as_arm context).one_block = true

/-- Both arms are evaluated and valid, and the one that is not selected is effectless. -/
def SelectsArm (R : ObservedRuntime) (state : LoweringState) (keys : Name → Option (Value R.Number .ptr))
    (context : LoweringContext) (test if_true if_false : Expr) (start : R.State) : Prop :=
  evaluates_both state context if_true if_false = true ∧
    (∀ arm ∈ [if_true, if_false], ((written state keys arm).as_arm context).accepted = true) ∧
    IdleArmEffectless (R.observe (lower_expression state keys test).condition)
      (R.observe ((lower_expression state keys if_true).as_arm context))
      (R.observe ((lower_expression state keys if_false).as_arm context)) start

section Lowered

variable {state : LoweringState} {keys : Name → Option (Value R.Number .ptr)}

/-- Two blocks that join are run as the one that is taken. -/
theorem observe_choice (type : Ty) (note : Expr) (test : Code (Value R.Number) Bool)
    (if_true if_false : Code (Value R.Number) (Value R.Number type)) :
    R.observe (test >>= fun selected => .choice note selected if_true if_false .done) =
      conditional_run false (R.observe test) (R.observe if_true) (R.observe if_false) := by
  rw [ObservedRuntime.observe_bind]
  unfold conditional_run
  congr 1
  funext selected
  exact Traced.bind_pure _

/-- A `select` takes the result of one of two operands. -/
theorem observe_select (type : Ty) {select : Op [.i1, type, type] type}
    (hselect : ∀ (test : Bool) (if_true if_false : Value R.Number type),
      R.perform select (test, if_true, if_false, ()) = pure (if test then if_true else if_false))
    (test : Code (Value R.Number) Bool) (if_true if_false : Code (Value R.Number) (Value R.Number type)) :
    R.observe (test >>= fun selected => if_true >>= fun true_operand => if_false >>= fun false_operand =>
        StructuredCode.Code.emit select (selected, true_operand, false_operand, ())) =
      conditional_run true (R.observe test) (R.observe if_true) (R.observe if_false) := by
  simp only [ObservedRuntime.observe_bind, ObservedRuntime.observe_emit, hselect]
  rfl

/-- The code of a ternary is run as its parts are. -/
theorem observe_conditional (context : LoweringContext) (test if_true if_false : Expr) :
    R.observe ((lower_expression state keys (.conditional test if_true if_false)).in_context context) =
      conditional_run (evaluates_both state context if_true if_false)
        (R.observe (lower_expression state keys test).condition)
        (R.observe ((lower_expression state keys if_true).as_arm context))
        (R.observe ((lower_expression state keys if_false).as_arm context)) := by
  rw [lower_expression]
  unfold evaluates_both
  cases context with
  | string => exact observe_choice ..
  | numeric =>
    change R.observe (if _ then _ else _) = _
    rw [lower_expression_expression, lower_expression_expression]
    cases runtime_expression_has_side_effects state if_true <;>
      cases runtime_expression_has_side_effects state if_false
    case false.false => exact observe_select .double R.select_double ..
    all_goals exact observe_choice .double ..
  | condition =>
    change R.observe (if _ then _ else _) = _
    rw [lower_expression_expression, lower_expression_expression]
    cases runtime_expression_has_side_effects state if_true <;>
      cases runtime_expression_has_side_effects state if_false
    case false.false => exact observe_select .i1 R.select_i1 ..
    all_goals exact observe_choice .i1 ..

theorem accepted_blocks {test if_true if_false : Code (fun _ => Unit) Unit} (type : Ty) (note : Expr) :
    (test >>= fun selected =>
        @StructuredCode.Code.choice Ty Op Expr .i1 (fun _ => Unit) Unit type note selected if_true if_false
          .done).accepted = true ↔
      test.accepted = true ∧ (if_true.completes = true ∧ if_true.one_block = true) ∧
        if_false.completes = true ∧ if_false.one_block = true :=
  StructuredCode.Code.accepted_bind.trans (and_congr_right fun _ => StructuredCode.Code.accepted_choice)

theorem accepted_operands {test if_true if_false : Code (fun _ => Unit) Unit} {type : Ty}
    (select : Op [.i1, type, type] type) :
    (test >>= fun selected => if_true >>= fun true_operand => if_false >>= fun false_operand =>
        (StructuredCode.Code.emit select (selected, true_operand, false_operand, ()) :
          Code (fun _ => Unit) Unit)).accepted = true ↔
      test.accepted = true ∧ if_true.accepted = true ∧ if_false.accepted = true := by
  refine StructuredCode.Code.accepted_bind.trans (and_congr_right fun _ => ?_)
  refine StructuredCode.Code.accepted_bind.trans (and_congr_right fun _ => ?_)
  exact StructuredCode.Code.accepted_bind.trans (and_iff_left (StructuredCode.Code.accepted_emit _ _))

/-- A ternary is written and valid just where its test is, and its arms are: two blocks that join must be the blocks of
the arms. -/
theorem accepted_conditional (context : LoweringContext) (test if_true if_false : Expr) :
    ((written state keys (.conditional test if_true if_false)).in_context context).accepted = true ↔
      (written state keys test).condition.accepted = true ∧
        if evaluates_both state context if_true if_false then
          ((written state keys if_true).as_arm context).accepted = true ∧
            ((written state keys if_false).as_arm context).accepted = true
        else
          (((written state keys if_true).as_arm context).completes = true ∧
              ((written state keys if_true).as_arm context).one_block = true) ∧
            ((written state keys if_false).as_arm context).completes = true ∧
              ((written state keys if_false).as_arm context).one_block = true := by
  unfold written
  rw [lower_expression]
  unfold evaluates_both
  cases context with
  | string => exact accepted_blocks .ptr _
  | numeric =>
    change (if _ then _ else _ : Code (fun _ => Unit) Unit).accepted = true ↔ _
    rw [lower_expression_expression, lower_expression_expression]
    cases runtime_expression_has_side_effects state if_true <;>
      cases runtime_expression_has_side_effects state if_false
    case false.false => exact accepted_operands .select_double
    all_goals exact accepted_blocks .double _
  | condition =>
    change (if _ then _ else _ : Code (fun _ => Unit) Unit).accepted = true ↔ _
    rw [lower_expression_expression, lower_expression_expression]
    cases runtime_expression_has_side_effects state if_true <;>
      cases runtime_expression_has_side_effects state if_false
    case false.false => exact accepted_operands .select_i1
    all_goals exact accepted_blocks .i1 _

end Lowered

end quawk
