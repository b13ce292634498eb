import Quawk.NumericResidency

namespace quawk

open StatefulRun (Result Run)
open StatefulRun.Run (Alike Coupled)

/-- Whether a statement may continue the loop it stands in. -/
def may_continue : Stmt → Bool
  | .continue_stmt => true
  | .block statements => any_continue statements
  | .if_stmt _ then_branch none => may_continue then_branch
  | .if_stmt _ then_branch (some else_branch) => may_continue then_branch || may_continue else_branch
  | _ => false
where
  any_continue : List Stmt → Bool
  | [] => false
  | statement :: rest => may_continue statement || any_continue rest

/-- A statement that ends without a jump has assigned what the analysis says. -/
def known_after (gained known : Finset Name) : Completion → Finset Name
  | .normal => known ∪ gained
  | _ => known

section Rules

variable {R : Runtime} {forgotten assigned gained later known : Finset Name} {continues : Bool}

/-- What is known after a completion, and that only some statements continue. -/
def AgreeAfter (forgotten gained known : Finset Name) (continues : Bool) (completion : Completion)
    (first second : NumericState R) : Prop :=
  AgreeBut forgotten (known_after gained known completion) first second ∧ (completion = .continued → continues = true)

/-- `Insensitive` for statements, which may end with a jump. -/
def InsensitiveStatement (forgotten assigned gained : Finset Name) (continues : Bool) (meaning : Meaning R Completion) : Prop :=
  ∀ known, assigned ⊆ known →
    Coupled (AgreeBut forgotten known) meaning meaning (AgreeAfter forgotten gained known continues) (AgreeBut forgotten ∅)

theorem Insensitive.statement {α : Type} {meaning : Meaning R α} (h : Insensitive forgotten assigned gained meaning) :
    InsensitiveStatement forgotten assigned gained continues (meaning >>= fun _ => Pure.pure Completion.normal) :=
  fun known hsubset => (h known hsubset).bind fun _ => .pure fun _ _ hagree => ⟨hagree, fun heq => by cases heq⟩

theorem InsensitiveStatement.crash :
    InsensitiveStatement (R := R) forgotten assigned gained continues Run.crash :=
  fun _ _ => .crash fun _ _ h => h.forget

/-- A jump leaves known what was. -/
theorem InsensitiveStatement.jump {completion : Completion} (h : completion ≠ .normal)
    (hcontinues : completion = .continued → continues = true) :
    InsensitiveStatement (R := R) forgotten assigned gained continues (pure completion) := by
  refine fun known _ => .pure fun first second hagree => ⟨?_, hcontinues⟩
  cases completion with
  | normal => cases h rfl
  | broke | continued | left | returned _ => exact hagree

theorem InsensitiveStatement.skip : InsensitiveStatement (R := R) forgotten assigned assigned continues (pure .normal) :=
  fun _ hsubset => .pure fun _ _ hagree => ⟨agree_of_subset hagree hsubset, fun heq => by cases heq⟩

theorem InsensitiveStatement.weaken (fewer : Finset Name) (more : Bool) {meaning : Meaning R Completion}
    (h : InsensitiveStatement forgotten assigned gained continues meaning)
    (hfewer : ∀ name ∈ forgotten, name ∈ fewer → name ∈ gained ∨ name ∈ assigned)
    (hmore : continues = true → more = true) : InsensitiveStatement forgotten assigned fewer more meaning := by
  intro known hsubset
  refine (h known hsubset).mono (fun _ _ h => h) (fun completion _ _ hafter => ?_) fun _ _ h => h
  refine ⟨hafter.1.mono fun name hforgotten hmem => ?_, fun heq => hmore (hafter.2 heq)⟩
  cases completion with
  | normal =>
    simp only [known_after, Finset.mem_union] at hmem ⊢
    obtain hknown | hmem := hmem
    · exact .inl hknown
    · exact (hfewer name hforgotten hmem).symm.imp_left fun hassigned => hsubset hassigned
  | broke | continued | left | returned _ => exact hmem

/-- Two statements in a row. -/
theorem InsensitiveStatement.seq {first second : Meaning R Completion}
    (h1 : InsensitiveStatement forgotten assigned gained continues first)
    (h2 : InsensitiveStatement forgotten gained later continues second) :
    InsensitiveStatement forgotten assigned later continues (do
      match ← first with
      | .normal => second
      | completion => pure completion) := by
  intro known hsubset
  refine (h1 known hsubset).bind fun completion => ?_
  cases completion with
  | normal =>
    refine (h2 (known ∪ gained) Finset.subset_union_right).mono (fun _ _ hafter => hafter.1)
      (fun completion _ _ hafter => ⟨hafter.1.mono fun name _ hmem => ?_, hafter.2⟩) fun _ _ h => h
    cases completion with
    | normal =>
      simp only [known_after, Finset.mem_union] at hmem ⊢
      tauto
    | broke | continued | left | returned _ => exact Finset.mem_union_left _ hmem
  | broke | continued | left | returned _ => exact .pure fun _ _ hafter => hafter

theorem InsensitiveStatement.branch {other : Finset Name} {condition : Prop} [Decidable condition]
    {first second : Meaning R Completion} (htrue : InsensitiveStatement forgotten assigned gained continues first)
    (hfalse : InsensitiveStatement forgotten assigned other continues second) :
    InsensitiveStatement forgotten assigned (gained ∩ other) continues (if condition then first else second) := by
  have hfirst := htrue.weaken (gained ∩ other) continues (fun _ _ hmem => .inl (Finset.mem_inter.mp hmem).1) id
  have hsecond := hfalse.weaken (gained ∩ other) continues (fun _ _ hmem => .inl (Finset.mem_inter.mp hmem).2) id
  exact fun known hsubset => .branch (fun _ => hfirst known hsubset) fun _ => hsecond known hsubset

/-- A statement after an expression. -/
theorem Insensitive.then_statement {α : Type} {meaning : Meaning R α} {next : α → Meaning R Completion}
    (h : Insensitive forgotten assigned gained meaning)
    (hnext : ∀ value, InsensitiveStatement forgotten gained later continues (next value)) :
    InsensitiveStatement forgotten assigned later continues (meaning >>= next) := by
  intro known hsubset
  refine (h known hsubset).bind fun value => ?_
  refine (hnext value (known ∪ gained) Finset.subset_union_right).mono (fun _ _ h => h)
    (fun completion _ _ hafter => ⟨hafter.1.mono fun name _ hmem => ?_, hafter.2⟩) fun _ _ h => h
  cases completion with
  | normal =>
    simp only [known_after, Finset.mem_union] at hmem ⊢
    tauto
  | broke | continued | left | returned _ => exact Finset.mem_union_left _ hmem

section Loops

variable {body : Meaning R Completion} {again : Meaning R (Unit ⊕ Completion)} {start finish : Finset Name}

/-- What holds between two rounds of a loop, and after it. -/
def AgreeRound (forgotten start finish : Finset Name) (result : Unit ⊕ Completion) (first second : NumericState R) : Prop :=
  result.elim (fun _ => AgreeBut forgotten start first second)
    fun completion => AgreeAfter forgotten finish start false completion first second

/-- One round of a loop: its body, then what comes before the next round. -/
theorem body_then_coupled (hbody : InsensitiveStatement forgotten assigned gained continues body) (hsubset : assigned ⊆ known)
    (hstart : start ⊆ known) (hfinish : finish ⊆ known)
    (hnormal : Coupled (AgreeBut forgotten (known ∪ gained)) again again (AgreeRound forgotten start finish) (AgreeBut forgotten ∅))
    (hcontinued : continues = true →
      Coupled (AgreeBut forgotten known) again again (AgreeRound forgotten start finish) (AgreeBut forgotten ∅)) :
    Coupled (AgreeBut forgotten known) (body_then body again) (body_then body again) (AgreeRound forgotten start finish)
      (AgreeBut forgotten ∅) := by
  refine (hbody known hsubset).bind fun completion => ?_
  cases completion with
  | normal => exact hnormal.mono (fun _ _ hafter => hafter.1) (fun _ _ _ h => h) fun _ _ h => h
  | continued =>
    intro first second hafter
    exact hcontinued (hafter.2 rfl) first second hafter.1
  | broke =>
    refine .pure fun _ _ hafter => ⟨hafter.1.mono fun name _ hmem => ?_, fun heq => by cases heq⟩
    exact (Finset.mem_union.mp hmem).elim (fun hmem => hstart hmem) fun hmem => hfinish hmem
  | left | returned _ =>
    exact .pure fun _ _ hafter => ⟨hafter.1.mono fun name _ hmem => hstart hmem, fun heq => by cases heq⟩

theorem loop_insensitive {step : Meaning R (Unit ⊕ Completion)}
    (hstep : Coupled (AgreeBut forgotten start) step step (AgreeRound forgotten start finish) (AgreeBut forgotten ∅)) (fuel : Nat) :
    Coupled (AgreeBut forgotten start) (Run.iterate (fun _ => step) fuel ()) (Run.iterate (fun _ => step) fuel ())
      (AgreeAfter forgotten finish start false) (AgreeBut forgotten ∅) := by
  refine Coupled.iterate (fun _ => AgreeBut forgotten start) (fun _ => hstep.mono (fun _ _ h => h)
    (fun result _ _ h => by cases result <;> exact h) fun _ _ h => h) (fun _ _ _ h => h.forget) fuel ()

/-- The end of a round: the next one, or the end of the loop. -/
theorem round_ends (hfinish : finish ⊆ known) (hstart : start ⊆ known) (holds : Bool) :
    Coupled (AgreeBut (R := R) forgotten known) (if holds then pure (.inl ()) else pure (.inr .normal))
      (if holds then pure (.inl ()) else pure (.inr .normal)) (AgreeRound forgotten start finish) (AgreeBut forgotten ∅) := by
  refine .branch (fun _ => .pure fun _ _ h => h.mono fun _ _ hmem => hstart hmem) fun _ => .pure fun _ _ h => ?_
  refine ⟨h.mono fun name _ hmem => ?_, fun heq => by cases heq⟩
  exact (Finset.mem_union.mp hmem).elim (fun hmem => hstart hmem) fun hmem => hfinish hmem

end Loops

end Rules

section Heeding

variable (tracked forgotten : Finset Name)

def heeds_expressions : List Expr → Finset Name → Bool
  | [], _ => true
  | expression :: rest, assigned =>
    heeds_expression tracked forgotten expression assigned &&
      heeds_expressions rest (analyze_expression tracked [] expression assigned).assigned_after

def heeds_option (expression : Option Expr) (assigned : Finset Name) : Bool :=
  expression.all fun expression => heeds_expression tracked forgotten expression assigned

mutual

/-- The analysis does not look at the value of `exit`, and takes the condition of a `do` loop and the updates of a `for`
loop as evaluated after the whole body, also where the body may continue the loop before. -/
def heeds_statement : Stmt → Finset Name → Bool
  | .assign (.name _) _ value, assigned | .expr value, assigned => heeds_expression tracked forgotten value assigned
  | .print arguments none, assigned => heeds_expressions tracked forgotten arguments assigned
  | .block statements, assigned => heeds_statements statements assigned
  | .if_stmt condition then_branch none, assigned =>
    heeds_expression tracked forgotten condition assigned &&
      heeds_statement then_branch (analyze_expression tracked [] condition assigned).assigned_after
  | .if_stmt condition then_branch (some else_branch), assigned =>
    heeds_expression tracked forgotten condition assigned &&
      heeds_statement then_branch (analyze_expression tracked [] condition assigned).assigned_after &&
      heeds_statement else_branch (analyze_expression tracked [] condition assigned).assigned_after
  | .while_stmt condition body, assigned =>
    heeds_expression tracked forgotten condition assigned &&
      heeds_statement body (analyze_expression tracked [] condition assigned).assigned_after
  | .do_while body condition, assigned =>
    heeds_statement body assigned &&
      heeds_expression tracked forgotten condition (analyze_statement tracked body [] assigned).assigned_after &&
      (!may_continue body || (heeds_expression tracked forgotten condition assigned &&
        decide (AssignedFirst forgotten (analyze_expression tracked [] condition assigned))))
  | .for_stmt init condition update body, assigned =>
    let after_init := (analyze_expression_sequence tracked [] init assigned).assigned_after
    let after_condition := (analyze_option tracked [] condition after_init).assigned_after
    heeds_expressions tracked forgotten init assigned && heeds_option tracked forgotten condition after_init &&
      heeds_statement body after_condition &&
      heeds_expressions tracked forgotten update (analyze_statement tracked body [] after_condition).assigned_after &&
      (!may_continue body || (heeds_expressions tracked forgotten update after_condition &&
        decide (AssignedFirst forgotten (analyze_expression_sequence tracked [] update after_condition))))
  | .exit (some status), assigned =>
    heeds_expression tracked forgotten status assigned &&
      decide (AssignedFirst forgotten (analyze_expression tracked [] status assigned))
  | _, _ => true

def heeds_statements : List Stmt → Finset Name → Bool
  | [], _ => true
  | statement :: rest, assigned =>
    heeds_statement statement assigned &&
      heeds_statements rest (analyze_statement tracked statement [] assigned).assigned_after

end

end Heeding

section Statements

variable {R : Runtime} (arithmetic : NumberArithmetic R) {tracked forgotten : Finset Name} (htracked : forgotten ⊆ tracked)

include htracked

theorem perform_expressions_insensitive : (expressions : List Expr) → (assigned : Finset Name) →
    heeds_expressions tracked forgotten expressions assigned = true →
    AssignedFirst forgotten (analyze_expression_sequence tracked [] expressions assigned) →
    Insensitive forgotten assigned (analyze_expression_sequence tracked [] expressions assigned).assigned_after
      (perform_expressions arithmetic expressions)
  | [], _, _, _ => .pure ()
  | expression :: rest, assigned, hheeds, h => by
    rw [heeds_expressions, Bool.and_eq_true] at hheeds
    simp only [analyze_expression_sequence, combine_results_after, AssignedFirst.combine, List.mem_cons, List.not_mem_nil,
      or_false, forall_eq_or_imp, forall_eq] at h ⊢
    exact (number_of_insensitive arithmetic htracked expression assigned hheeds.1 h.1).bind fun _ =>
      perform_expressions_insensitive rest _ hheeds.2 h.2

theorem print_argument_insensitive (argument : Expr) (assigned : Finset Name)
    (hheeds : heeds_expression tracked forgotten argument assigned = true)
    (h : AssignedFirst forgotten (analyze_expression tracked [] argument assigned)) :
    Insensitive forgotten assigned (analyze_expression tracked [] argument assigned).assigned_after
      (print_argument arithmetic argument) := by
  cases argument with
  | string_literal value => exact .call _ _
  | field_at index => exact (Insensitive.call _ _).bind fun _ => .call _ _
  | field index =>
    exact (number_of_insensitive arithmetic htracked index assigned hheeds h).bind fun _ => (Insensitive.call _ _).bind
      fun _ => (Insensitive.call _ _).bind fun _ => .call _ _
  | _ => exact (number_of_insensitive arithmetic htracked _ assigned hheeds h).bind fun _ => .call _ _

theorem print_arguments_insensitive : (arguments : List Expr) → (assigned : Finset Name) →
    heeds_expressions tracked forgotten arguments assigned = true →
    AssignedFirst forgotten (analyze_expression_sequence tracked [] arguments assigned) →
    Insensitive forgotten assigned (analyze_expression_sequence tracked [] arguments assigned).assigned_after
      (print_arguments arithmetic arguments)
  | [], _, _, _ => .pure ()
  | [argument], assigned, hheeds, h => by
    rw [heeds_expressions, Bool.and_eq_true] at hheeds
    simp only [analyze_expression_sequence, combine_results_after, AssignedFirst.combine, List.mem_cons, List.not_mem_nil,
      or_false, forall_eq_or_imp, forall_eq] at h ⊢
    exact print_argument_insensitive arithmetic htracked argument assigned hheeds.1 h.1
  | argument :: next :: rest, assigned, hheeds, h => by
    rw [heeds_expressions, Bool.and_eq_true] at hheeds
    rw [analyze_expression_sequence] at h ⊢
    simp only [combine_results_after, AssignedFirst.combine, List.mem_cons, List.not_mem_nil, or_false, forall_eq_or_imp,
      forall_eq] at h ⊢
    exact (print_argument_insensitive arithmetic htracked argument assigned hheeds.1 h.1).bind fun _ =>
      (Insensitive.call _ _).bind fun _ => print_arguments_insensitive (next :: rest) _ hheeds.2 h.2

theorem print_insensitive (arguments : List Expr) (assigned : Finset Name)
    (hheeds : heeds_expressions tracked forgotten arguments assigned = true)
    (h : AssignedFirst forgotten (analyze_expression_sequence tracked [] arguments assigned)) :
    Insensitive forgotten assigned (analyze_expression_sequence tracked [] arguments assigned).assigned_after
      (print_meaning arithmetic arguments) := by
  cases arguments with
  | nil => exact (Insensitive.call _ _).bind fun _ => .call _ _
  | cons argument rest =>
    exact (print_arguments_insensitive arithmetic htracked (argument :: rest) assigned hheeds h).bind fun _ => .call _ _

theorem for_condition_insensitive (condition : Option Expr) (assigned : Finset Name)
    (hheeds : heeds_option tracked forgotten condition assigned = true)
    (h : AssignedFirst forgotten (analyze_option tracked [] condition assigned)) :
    Insensitive forgotten assigned (analyze_option tracked [] condition assigned).assigned_after
      (for_condition arithmetic condition) := by
  cases condition with
  | none => exact .pure true
  | some condition =>
    exact truth_of_insensitive arithmetic (number_of_insensitive arithmetic htracked condition assigned hheeds h)

end Statements

section AllStatements

variable {R : Runtime} (arithmetic : NumberArithmetic R) {tracked forgotten : Finset Name}

mutual

/-- A statement does the same from any two states that agree on what the analysis takes for assigned. -/
theorem interpret_insensitive (htracked : forgotten ⊆ tracked) (fuel : Nat) : (statement : Stmt) → (assigned : Finset Name) →
    heeds_statement tracked forgotten statement assigned = true →
    AssignedFirst forgotten (analyze_statement tracked statement [] assigned) →
    InsensitiveStatement forgotten assigned (analyze_statement tracked statement [] assigned).assigned_after
      (may_continue statement) (interpret arithmetic fuel statement)
  | .assign (.name name) op value, assigned, hheeds, h => by
    simp only [analyze_statement, analyze_lvalue_indexes, assign_target, combine_results_after, AssignedFirst.combine,
      List.mem_cons, List.not_mem_nil, or_false, forall_eq_or_imp, forall_eq] at h ⊢
    exact (number_of_insensitive arithmetic htracked value assigned hheeds h.2.1).then_statement fun update =>
      (assign_number_insensitive arithmetic htracked update h.2.2).statement
  | .expr value, assigned, hheeds, h => (number_of_insensitive arithmetic htracked value assigned hheeds h).statement
  | .print arguments none, assigned, hheeds, h => by
    simp only [analyze_statement, Option.map_none, analyze_option, combine_results_after, AssignedFirst.combine,
      List.mem_cons, List.not_mem_nil, or_false, forall_eq_or_imp, forall_eq] at h ⊢
    exact (print_insensitive arithmetic htracked arguments assigned hheeds h.1).statement
  | .block statements, assigned, hheeds, h => interpret_all_insensitive htracked fuel statements assigned hheeds h
  | .if_stmt condition then_branch none, assigned, hheeds, h => by
    rw [heeds_statement, Bool.and_eq_true] at hheeds
    simp only [analyze_statement, combine_results_after, AssignedFirst.combine, List.mem_cons, List.not_mem_nil, or_false,
      forall_eq_or_imp, forall_eq] at h ⊢
    rw [Finset.inter_comm]
    exact (truth_of_insensitive arithmetic (number_of_insensitive arithmetic htracked condition assigned hheeds.1 h.1)).then_statement
      fun _ => .branch (interpret_insensitive htracked fuel then_branch _ hheeds.2 h.2) .skip
  | .if_stmt condition then_branch (some else_branch), assigned, hheeds, h => by
    rw [heeds_statement, Bool.and_eq_true, Bool.and_eq_true] at hheeds
    simp only [analyze_statement, combine_results_after, AssignedFirst.combine, List.mem_cons, List.not_mem_nil, or_false,
      forall_eq_or_imp, forall_eq] at h ⊢
    refine (truth_of_insensitive arithmetic
      (number_of_insensitive arithmetic htracked condition assigned hheeds.1.1 h.1)).then_statement fun _ => ?_
    have hfirst := (interpret_insensitive htracked fuel then_branch _ hheeds.1.2 h.2.1).weaken _
      (may_continue (.if_stmt condition then_branch (some else_branch))) (fun _ _ hmem => .inl hmem)
      fun heq => by simp [may_continue, heq]
    have hsecond := (interpret_insensitive htracked fuel else_branch _ hheeds.2 h.2.2).weaken _
      (may_continue (.if_stmt condition then_branch (some else_branch))) (fun _ _ hmem => .inl hmem)
      fun heq => by simp [may_continue, heq]
    exact hfirst.branch hsecond
  | .while_stmt condition body, assigned, hheeds, h => by
    rw [heeds_statement, Bool.and_eq_true] at hheeds
    simp only [analyze_statement, combine_results_after, AssignedFirst.combine, List.mem_cons, List.not_mem_nil, or_false,
      forall_eq_or_imp, forall_eq] at h ⊢
    intro known hsubset
    refine loop_insensitive ?_ fuel
    refine ((truth_of_insensitive arithmetic
      (number_of_insensitive arithmetic htracked condition assigned hheeds.1 h.1)) known hsubset).bind fun _ => ?_
    refine .branch (fun _ => ?_) fun _ => .pure fun _ _ hagree => ⟨hagree, fun heq => by cases heq⟩
    exact body_then_coupled (interpret_insensitive htracked fuel body _ hheeds.2 h.2) Finset.subset_union_right
      Finset.subset_union_left Finset.subset_union_right
      (.pure fun _ _ hagree => hagree.mono fun _ _ hmem => Finset.mem_union_left _ (Finset.mem_union_left _ hmem))
      fun _ => .pure fun _ _ hagree => hagree.mono fun _ _ hmem => Finset.mem_union_left _ hmem
  | .do_while body condition, assigned, hheeds, h => by
    simp only [heeds_statement, Bool.and_eq_true, Bool.or_eq_true, Bool.not_eq_true', decide_eq_true_eq] at hheeds
    simp only [analyze_statement, combine_results_after, AssignedFirst.combine, List.mem_cons, List.not_mem_nil, or_false,
      forall_eq_or_imp, forall_eq] at h ⊢
    intro known hsubset
    refine loop_insensitive ?_ fuel
    refine body_then_coupled (interpret_insensitive htracked fuel body assigned hheeds.1.1 h.1) hsubset (Finset.Subset.refl _)
      hsubset ?_ fun hcontinues => ?_
    · refine ((truth_of_insensitive arithmetic (number_of_insensitive arithmetic htracked condition _ hheeds.1.2 h.2))
        _ Finset.subset_union_right).bind fun holds => round_ends ?_ ?_ holds
      · exact hsubset.trans (Finset.subset_union_left.trans Finset.subset_union_left)
      · exact Finset.subset_union_left.trans Finset.subset_union_left
    · obtain ⟨hearly, hsettled⟩ := hheeds.2.resolve_left (by simp [hcontinues])
      exact ((truth_of_insensitive arithmetic (number_of_insensitive arithmetic htracked condition assigned hearly hsettled))
        known hsubset).bind fun holds => round_ends (hsubset.trans Finset.subset_union_left) Finset.subset_union_left holds
  | .for_stmt init condition update body, assigned, hheeds, h => by
    simp only [heeds_statement, Bool.and_eq_true, Bool.or_eq_true, Bool.not_eq_true', decide_eq_true_eq] at hheeds
    simp only [analyze_statement, combine_results_after, AssignedFirst.combine, List.mem_cons, List.not_mem_nil, or_false,
      forall_eq_or_imp, forall_eq] at h ⊢
    obtain ⟨⟨⟨⟨hinit, hcondition⟩, hbody⟩, hupdate⟩, hcontinue⟩ := hheeds
    obtain ⟨hinit_settled, hcondition_settled, hbody_settled, hupdate_settled⟩ := h
    refine (perform_expressions_insensitive arithmetic htracked init assigned hinit hinit_settled).then_statement fun _ => ?_
    intro known hsubset
    refine loop_insensitive ?_ fuel
    refine ((for_condition_insensitive arithmetic htracked condition _ hcondition hcondition_settled) known hsubset).bind
      fun _ => ?_
    refine .branch (fun _ => ?_) fun _ => .pure fun _ _ hagree => ⟨hagree, fun heq => by cases heq⟩
    refine body_then_coupled (interpret_insensitive htracked fuel body _ hbody hbody_settled) Finset.subset_union_right
      Finset.subset_union_left Finset.subset_union_right ?_ fun hcontinues => ?_
    · refine ((perform_expressions_insensitive arithmetic htracked update _ hupdate hupdate_settled) _
        Finset.subset_union_right).bind fun _ => .pure fun _ _ hagree => hagree.mono fun _ _ hmem => ?_
      exact Finset.mem_union_left _ (Finset.mem_union_left _ (Finset.mem_union_left _ hmem))
    · obtain ⟨hearly, hsettled⟩ := hcontinue.resolve_left (by simp [hcontinues])
      refine ((perform_expressions_insensitive arithmetic htracked update _ hearly hsettled) _
        Finset.subset_union_right).bind fun _ => .pure fun _ _ hagree => hagree.mono fun _ _ hmem => ?_
      exact Finset.mem_union_left _ (Finset.mem_union_left _ hmem)
  | .break_stmt, _, _, _ => .jump (by simp) fun heq => by cases heq
  | .continue_stmt, _, _, _ => .jump (by simp) fun _ => rfl
  | .next, _, _, _ => .jump (by simp) fun heq => by cases heq
  | .nextfile, _, _, _ => fun _ _ first second hagree =>
    .value ⟨⟨hagree.numbers, hagree.active, congrArg R.nextfile hagree.world, hagree.exit_requested, hagree.exit_status⟩,
      fun heq => by cases heq⟩
  | .exit none, _, _, _ => fun _ _ first second hagree =>
    .value ⟨⟨hagree.numbers, hagree.active, hagree.world, rfl, rfl⟩, fun heq => by cases heq⟩
  | .exit (some status), assigned, hheeds, _ => by
    simp only [heeds_statement, Bool.and_eq_true, decide_eq_true_eq] at hheeds
    intro known hsubset
    have hstatus := (number_of_insensitive arithmetic htracked status assigned hheeds.1 hheeds.2).bind fun status =>
      Insensitive.call .fptosi_i32 (status, ())
    have hmeaning : interpret arithmetic fuel (.exit (some status)) =
        (number_of arithmetic status >>= fun status => runtime_call .fptosi_i32 (status, ())) >>=
          fun status => set_exit status >>= fun _ => pure .left := (Run.bind_assoc _ _ _).symm
    rw [hmeaning]
    refine (hstatus known hsubset).bind fun status first second hagree => ?_
    exact .value ⟨⟨fun name hname => hagree.numbers name fun hmem => Finset.mem_union_left _ (hname hmem), hagree.active,
      hagree.world, rfl, rfl⟩, fun heq => by cases heq⟩
  | .print _ (some _), _, _, _ | .printf _ _, _, _, _ | .delete _, _, _, _ | .for_in _ _ _, _, _, _
  | .return_stmt _, _, _, _ | .assign (.array _ _) _ _, _, _, _ | .assign (.field _) _ _, _, _, _ => .crash

theorem interpret_all_insensitive (htracked : forgotten ⊆ tracked) (fuel : Nat) : (statements : List Stmt) → (assigned : Finset Name) →
    heeds_statements tracked forgotten statements assigned = true →
    AssignedFirst forgotten (analyze_statement_sequence tracked statements [] assigned) →
    InsensitiveStatement forgotten assigned (analyze_statement_sequence tracked statements [] assigned).assigned_after
      (may_continue.any_continue statements) (interpret_all arithmetic fuel statements)
  | [], _, _, _ => .skip
  | statement :: rest, assigned, hheeds, h => by
    rw [heeds_statements, Bool.and_eq_true] at hheeds
    simp only [analyze_statement_sequence, combine_results_after, AssignedFirst.combine, List.mem_cons, List.not_mem_nil,
      or_false, forall_eq_or_imp, forall_eq] at h ⊢
    have hfirst := (interpret_insensitive htracked fuel statement assigned hheeds.1 h.1).weaken _
      (may_continue.any_continue (statement :: rest)) (fun _ _ hmem => .inl hmem)
      fun heq => by simp [may_continue.any_continue, heq]
    have hrest := (interpret_all_insensitive htracked fuel rest _ hheeds.2 h.2).weaken _
      (may_continue.any_continue (statement :: rest)) (fun _ _ hmem => .inl hmem)
      fun heq => by simp [may_continue.any_continue, heq]
    exact hfirst.seq hrest

end

end AllStatements

end quawk
