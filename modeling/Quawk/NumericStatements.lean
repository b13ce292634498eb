import Quawk.NumericEvaluation

namespace quawk

open StructuredCode (Operands)
open StructuredCode.Code (emit)
open StatefulRun (Result Run)
open StatefulRun.Run (Alike Coupled)

section Core

variable (state : LoweringState)

/-- Expressions that are evaluated for what they do. -/
def is_numeric_effect (expression : Expr) : Bool :=
  is_numeric state false expression && !runtime_expression_has_string_result state expression

/-- Arguments of `print`: numbers, texts and fields. -/
def is_printable : Expr → Bool
  | .string_literal _ | .field_at _ => true
  | .field index => is_numeric state false index
  | expression => is_numeric_effect state expression

mutual

/-- Statements that work on numbers only, in a loop or not. -/
def is_numeric_statement (in_loop : Bool) : Stmt → Bool
  | .assign (.name name) _ value => is_number_name state name && is_numeric state false value
  | .expr value => is_numeric_effect state value
  | .print arguments none => arguments.all (is_printable state)
  | .block statements => are_numeric_statements in_loop statements
  | .if_stmt condition then_branch none =>
    is_numeric state true condition && is_numeric_statement in_loop then_branch
  | .if_stmt condition then_branch (some else_branch) =>
    is_numeric state true condition && is_numeric_statement in_loop then_branch &&
      is_numeric_statement in_loop else_branch
  | .while_stmt condition body => is_numeric state true condition && is_numeric_statement true body
  | .do_while body condition => is_numeric state true condition && is_numeric_statement true body
  | .for_stmt init condition update body =>
    init.all (is_numeric_effect state) && condition.all (is_numeric state true) && update.all (is_numeric_effect state) &&
      is_numeric_statement true body
  | .break_stmt | .continue_stmt => in_loop
  | .next | .nextfile | .exit none => true
  | .exit (some status) => is_numeric state false status
  | _ => false

def are_numeric_statements (in_loop : Bool) : List Stmt → Bool
  | [] => true
  | statement :: rest => is_numeric_statement in_loop statement && are_numeric_statements in_loop rest

end

end Core

section Statements

variable {R : Runtime} (arithmetic : NumberArithmetic R) {state : LoweringState} {calls : Calls R}
  {keys : Name → Option (Option Text)}

theorem Implements.call_void {types : List Ty} {f : Op types .unit} {operands : Operands (Value R.Number) types}
    (hperform : PerformedByRuntime calls f operands) :
    Implements state (runtime_call f operands) (eval calls (emit_void f operands)) := by
  intro numeric machine hmirrors
  rw [eval_emit_void, hperform machine]
  cases hmirrors
  exact .value rfl

variable (calls keys) in
theorem effect_follows {expression : Expr} (h : is_numeric_effect state expression = true) :
    Implements state (number_of arithmetic expression >>= fun _ => pure ())
      (eval calls (lower_runtime_side_effect_expression state (lower_expression state keys expression))) := by
  simp only [is_numeric_effect, Bool.and_eq_true, Bool.not_eq_true'] at h
  rw [lower_runtime_side_effect_expression, lower_expression_expression, if_neg (by simp [h.2]), eval]
  exact Coupled.bind (Coupled.attempt ((views_follow expression).number h.1)) fun _ => Implements.pure ()

theorem effects_follow : (expressions : List Expr) → expressions.all (is_numeric_effect state) = true →
    Implements state (perform_expressions arithmetic expressions)
      (eval calls (lower_runtime_side_effect_expressions state (lower_expressions state keys expressions)))
  | [], _ => .pure ()
  | expression :: rest, h => by
    rw [List.all_cons, Bool.and_eq_true] at h
    rw [lower_expressions, lower_runtime_side_effect_expressions, eval_bind, perform_expressions]
    have hfirst := (effect_follows arithmetic calls keys h.1).bind
      fun _ => effects_follow rest h.2
    rwa [Run.bind_assoc] at hfirst

theorem printed_number_follows {expression : Expr} (h : is_numeric_effect state expression = true) :
    Implements state (number_of arithmetic expression >>= fun value => runtime_call .qk_print_number_fragment (value, ()))
      (eval calls (lower_runtime_print_fragment state (lower_expression state keys expression))) := by
  simp only [is_numeric_effect, Bool.and_eq_true, Bool.not_eq_true'] at h
  rw [lower_runtime_print_fragment, lower_expression_expression, if_neg (by simp [h.2]), eval_bind]
  exact ((views_follow expression).number h.1).bind fun value => .call_void fun _ => rfl

theorem print_argument_follows (argument : Expr) (h : is_printable state argument = true) :
    Implements state (print_argument arithmetic argument)
      (eval calls (lower_runtime_print_fragment state (lower_expression state keys argument))) := by
  cases argument with
  | string_literal value =>
    rw [lower_runtime_print_fragment, lower_expression_expression, if_pos (by rfl), eval_bind]
    exact .step (f := .string_constant value) (fun machine => ⟨_, rfl, rfl⟩) (.call_void fun _ => rfl)
  | field_at index =>
    rw [lower_runtime_print_fragment, lower_expression_expression, if_pos (by rfl), eval_bind]
    change Implements state _ (eval calls (emit (Op.integer index) () >>= fun index => emit .qk_get_field_inline (index, ())) >>= _)
    rw [eval_bind, Run.bind_assoc]
    exact .step (f := .integer index) (fun machine => ⟨_, rfl, rfl⟩) <|
      (Implements.call fun _ => rfl).bind fun text => .call_void fun _ => rfl
  | field index =>
    rw [lower_runtime_print_fragment, lower_expression_expression, if_pos (by rfl), eval_bind]
    change Implements state _ (eval calls (lower_runtime_field_index (lower_expression state keys index) >>=
      fun index => emit .qk_get_field_inline (index, ())) >>= _)
    rw [eval_bind, Run.bind_assoc]
    have hviews : ViewsFollow state arithmetic calls keys index := views_follow index
    have hprint (index : Int) : Implements (R := R) state
        (runtime_call .qk_get_field_inline (index, ()) >>= fun text => runtime_call .qk_print_string_fragment (text, ()))
        (eval calls (emit .qk_get_field_inline (index, ())) >>= fun text =>
          eval calls (emit_void .qk_print_string_fragment (text, ()))) :=
      (Implements.call fun _ => rfl).bind fun text => .call_void fun _ => rfl
    have hfield := (field_index_follows hviews h).bind hprint
    rw [Run.bind_assoc] at hfield
    exact hfield
  | _ => exact printed_number_follows arithmetic h

theorem print_arguments_follow : (arguments : List Expr) → arguments.all (is_printable state) = true →
    Implements state (print_arguments arithmetic arguments)
      (eval calls (lower_runtime_print_fragments state (lower_expressions state keys arguments)))
  | [], _ => .pure ()
  | [argument], h => by
    rw [List.all_cons, Bool.and_eq_true] at h
    exact print_argument_follows arithmetic argument h.1
  | argument :: next :: rest, h => by
    rw [List.all_cons, Bool.and_eq_true] at h
    rw [lower_expressions, lower_expressions, lower_runtime_print_fragments, ← lower_expressions]
    · simp only [eval_bind]
      exact (print_argument_follows arithmetic argument h.1).bind fun _ =>
        (Implements.call_void fun _ => rfl).bind fun _ => print_arguments_follow (next :: rest) h.2
    · simp

theorem print_record_follows : Implements (R := R) state print_record (eval calls (do
    let field_ptr ← load_current_record
    emit_void .qk_print_string (field_ptr, ()))) := by
  simp only [load_current_record, eval_bind, Run.bind_assoc]
  exact .step (f := .integer 0) (fun machine => ⟨_, rfl, rfl⟩) <|
    (Implements.call fun _ => rfl).bind fun text => .call_void fun _ => rfl

theorem print_follows (arguments : List Expr) (h : arguments.all (is_printable state) = true) :
    Implements state (print_meaning arithmetic arguments)
      (eval calls (lower_runtime_print_statement state (lower_expressions state keys arguments) none)) := by
  cases arguments with
  | nil => exact print_record_follows
  | cons argument rest =>
    change Implements state _ (eval calls (lower_runtime_print_fragments state (lower_expressions state keys (argument :: rest)) >>=
      fun _ => emit_void .qk_print_output_record_separator ()))
    rw [eval_bind]
    exact (print_arguments_follow arithmetic (argument :: rest) h).bind fun _ => .call_void fun _ => rfl

theorem Implements.iterate {σ α : Type} {first : σ → Meaning R (σ ⊕ α)} {second : σ → Exec R (σ ⊕ α)}
    (hstep : ∀ position, Implements state (first position) (second position)) (fuel : Nat) (position : σ) :
    Implements state (Run.iterate first fuel position) (Run.iterate second fuel position) :=
  Coupled.iterate (fun _ => Mirrors state)
    (fun position => (hstep position).mono (fun _ _ h => h) (fun result _ _ h => by cases result <;> exact h) fun _ _ h => h)
    (fun _ _ _ h => h) fuel position

theorem body_follows {σ : Type} {body : Meaning R Completion} {code : Exec R Completion}
    {again : Meaning R (σ ⊕ Completion)} {going_on : Exec R (σ ⊕ Completion)} (hbody : Implements state body code)
    (hagain : Implements state again going_on) : Implements state (body_then body again) (loop_body code going_on) := by
  refine hbody.bind fun completion => ?_
  cases completion with
  | normal | continued => exact hagain
  | broke | left | returned _ => exact .pure _

theorem for_condition_follows {condition : Option Expr} (h : condition.all (is_numeric state true) = true) :
    Implements state (for_condition arithmetic condition)
      (eval calls (lower_for_condition (condition.map (lower_expression state keys)))) := by
  cases condition with
  | none => exact .computed (show Computes state calls (.truth true) () true from fun machine => ⟨_, rfl, rfl⟩)
  | some condition => exact (views_follow condition).condition h

theorem request_exit_follows (status : Int) (requested : Option Int) (h : requested.getD 0 = status) :
    Implements (R := R) state (set_exit status) (request_exit false requested) := by
  intro numeric machine hmirrors
  cases hmirrors
  cases h
  exact .value rfl

variable (calls keys) in
theorem exit_status_follows {status : Expr} (h : is_numeric state false status = true) :
    Implements state (number_of arithmetic status >>= fun status => runtime_call .fptosi_i32 (status, ()))
      (eval calls (lower_exit_status (lower_expression state keys status))) := by
  rw [lower_exit_status, eval_bind]
  exact ((views_follow status).number h).bind fun _ => .call fun _ => rfl

mutual

theorem statement_follows (fuel : Nat) : (statement : Stmt) → (place : Surroundings) → place.in_function = false →
    is_numeric_statement state place.in_loop statement = true →
    Implements state (interpret arithmetic fuel statement) (exec calls false fuel (lower_statement statement state keys place))
  | .assign (.name name) op value, _, _, h => by
    rw [is_numeric_statement, Bool.and_eq_true] at h
    obtain ⟨address, haddress⟩ := Option.isSome_iff_exists.mp h.1
    have hviews : ViewsFollow state arithmetic calls keys value := views_follow value
    have hassign := (assignment_statement_follows arithmetic calls op haddress (hviews.number h.2)).bind
      fun _ => Implements.pure Completion.normal
    rw [Run.bind_assoc] at hassign
    exact hassign
  | .expr value, _, _, h => by
    have heffect := (effect_follows arithmetic calls keys h).bind fun _ => .pure Completion.normal
    rw [Run.bind_assoc] at heffect
    exact heffect
  | .print arguments none, _, _, h => (print_follows arithmetic arguments h).bind fun _ => .pure Completion.normal
  | .block statements, place, hplace, h => statements_follow fuel statements place hplace h
  | .if_stmt condition then_branch none, place, hplace, h => by
    rw [is_numeric_statement, Bool.and_eq_true] at h
    exact ((views_follow condition).condition h.1).bind fun _ =>
      .branch (statement_follows fuel then_branch place hplace h.2) (.pure _)
  | .if_stmt condition then_branch (some else_branch), place, hplace, h => by
    rw [is_numeric_statement, Bool.and_eq_true, Bool.and_eq_true] at h
    exact ((views_follow condition).condition h.1.1).bind fun _ =>
      .branch (statement_follows fuel then_branch place hplace h.1.2) (statement_follows fuel else_branch place hplace h.2)
  | .while_stmt condition body, place, hplace, h => by
    rw [is_numeric_statement, Bool.and_eq_true] at h
    exact .iterate (fun _ => ((views_follow condition).condition h.1).bind fun _ =>
      .branch (body_follows (statement_follows fuel body { place with in_loop := true } hplace h.2) (.pure _)) (.pure _)) fuel ()
  | .do_while body condition, place, hplace, h => by
    rw [is_numeric_statement, Bool.and_eq_true] at h
    exact .iterate (fun _ => body_follows (statement_follows fuel body { place with in_loop := true } hplace h.2)
      (((views_follow condition).condition h.1).bind fun _ => .branch (.pure _) (.pure _))) fuel ()
  | .for_stmt init condition update body, place, hplace, h => by
    simp only [is_numeric_statement, Bool.and_eq_true] at h
    exact (effects_follow arithmetic init h.1.1.1).bind fun _ =>
      .iterate (fun _ => (for_condition_follows arithmetic h.1.1.2).bind fun _ =>
        .branch (body_follows (statement_follows fuel body { place with in_loop := true } hplace h.2)
          ((effects_follow arithmetic update h.1.2).bind fun _ => .pure _)) (.pure _)) fuel ()
  | .break_stmt, place, _, h => by
    rw [lower_statement, if_pos (show place.in_loop = true from h)]
    exact .pure _
  | .continue_stmt, place, _, h => by
    rw [lower_statement, if_pos (show place.in_loop = true from h)]
    exact .pure _
  | .next, place, hplace, _ => by
    rw [lower_statement, if_neg (by simp [hplace])]
    exact .pure _
  | .nextfile, place, hplace, _ => by
    rw [lower_statement, if_neg (by simp [hplace])]
    intro numeric machine hmirrors
    cases hmirrors
    exact .value rfl
  | .exit none, _, _, _ => (request_exit_follows 0 none rfl).bind fun _ => .pure _
  | .exit (some status), _, _, h => by
    have hexit := (exit_status_follows arithmetic calls keys h).bind fun status =>
      (request_exit_follows status (some status) rfl).bind fun _ => .pure Completion.left
    rw [Run.bind_assoc] at hexit
    exact hexit
  | .print _ (some _), _, _, h | .printf _ _, _, _, h | .delete _, _, _, h | .for_in _ _ _, _, _, h
  | .return_stmt _, _, _, h | .assign (.array _ _) _ _, _, _, h | .assign (.field _) _ _, _, _, h => by cases h

theorem statements_follow (fuel : Nat) : (statements : List Stmt) → (place : Surroundings) → place.in_function = false →
    are_numeric_statements state place.in_loop statements = true →
    Implements state (interpret_all arithmetic fuel statements)
      (exec calls false fuel (lower_statements statements state keys place))
  | [], _, _, _ => .pure _
  | statement :: rest, place, hplace, h => by
    rw [are_numeric_statements, Bool.and_eq_true] at h
    refine (statement_follows fuel statement place hplace h.1).bind fun completion => ?_
    cases completion with
    | normal => exact statements_follow fuel rest place hplace h.2
    | broke | continued | left | returned _ => exact .pure _

end

end Statements

end quawk
