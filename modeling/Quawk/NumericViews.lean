import Quawk.NumericExpressions

namespace quawk

open StructuredCode (Operands)
open StructuredCode.Code (emit)
open StatefulRun (Result Run)
open StatefulRun.Run (Alike Coupled)

section NumberArithmetic

variable {R : Runtime} (arithmetic : NumberArithmetic R) {state : LoweringState} {calls : Calls R}

theorem computes_number (value : NumericConstant) :
    Computes state calls (.number value) () (arithmetic.constant value) :=
  .of_law (fun _ => rfl) (arithmetic.perform_number value)

theorem computes_fadd (left right : R.Number) : Computes state calls .fadd (left, right, ()) (arithmetic.add left right) :=
  .of_law (fun _ => rfl) (arithmetic.perform_fadd left right)

theorem computes_fsub (left right : R.Number) : Computes state calls .fsub (left, right, ()) (arithmetic.sub left right) :=
  .of_law (fun _ => rfl) (arithmetic.perform_fsub left right)

theorem computes_fmul (left right : R.Number) : Computes state calls .fmul (left, right, ()) (arithmetic.mul left right) :=
  .of_law (fun _ => rfl) (arithmetic.perform_fmul left right)

theorem computes_fdiv (left right : R.Number) : Computes state calls .fdiv (left, right, ()) (arithmetic.div left right) :=
  .of_law (fun _ => rfl) (arithmetic.perform_fdiv left right)

theorem computes_pow (left right : R.Number) :
    Computes state calls .llvm_pow (left, right, ()) (arithmetic.pow left right) :=
  .of_law (fun _ => rfl) (arithmetic.perform_pow left right)

theorem computes_trunc (value : R.Number) : Computes state calls .llvm_trunc (value, ()) (arithmetic.trunc value) :=
  .of_law (fun _ => rfl) (arithmetic.perform_trunc value)

theorem computes_fcmp (predicate : FloatPredicate) (left right : R.Number) :
    Computes state calls (.fcmp predicate) (left, right, ()) (arithmetic.compare predicate left right) :=
  .of_law (fun _ => rfl) (arithmetic.perform_fcmp predicate left right)

/-- The remainder is the left operand less the whole quotients of the right one. -/
theorem modulo_follows (left right : R.Number) :
    Implements state (pure (arithmetic.modulo left right)) (do
      let quotient ← eval calls (emit .fdiv (left, right, ()))
      let truncated ← eval calls (emit .llvm_trunc (quotient, ()))
      let product ← eval calls (emit .fmul (truncated, right, ()))
      eval calls (emit Op.fsub (left, product, ()))) :=
  .step (computes_fdiv arithmetic left right) <| .step (computes_trunc arithmetic _) <|
    .step (computes_fmul arithmetic _ right) <| .computed (computes_fsub arithmetic left _)

variable (state calls) in
theorem combine_follows (op : AssignOp) (current update : R.Number) :
    Implements state (pure (arithmetic.combine op current update))
      (eval calls (combine_numeric_assignment op current update)) := by
  cases op with
  | plain => exact .pure update
  | mod =>
    simp only [combine_numeric_assignment, eval_bind]
    exact modulo_follows arithmetic current update
  | add =>
    exact .computed (computes_fadd arithmetic current update)
  | sub =>
    exact .computed (computes_fsub arithmetic current update)
  | mul =>
    exact .computed (computes_fmul arithmetic current update)
  | div =>
    exact .computed (computes_fdiv arithmetic current update)
  | pow =>
    exact .computed (computes_pow arithmetic current update)

variable (state calls) in
theorem incremented_follows (delta : Increment) (old : R.Number) :
    Implements state (pure (arithmetic.stepped delta old)) (eval calls (lower_runtime_incremented delta old)) := by
  simp only [lower_runtime_incremented, eval_bind]
  refine .step (computes_number arithmetic .one) ?_
  cases delta with
  | increment => exact .computed (computes_fadd arithmetic old _)
  | decrement => exact .computed (computes_fsub arithmetic old _)

section Views

variable {value : Meaning R R.Number} {condition : Meaning R Bool} {numeric : Code (Value R.Number) R.Number}
  {flag : Code (Value R.Number) Bool}

theorem truthiness_follows (h : Implements state value (eval calls numeric)) :
    Implements state (truth_of arithmetic value) (eval calls (lower_runtime_number_truthiness numeric)) := by
  simp only [lower_runtime_number_truthiness, eval_bind]
  exact h.bind fun number => .step (computes_number arithmetic .zero) (.computed (computes_fcmp arithmetic .one number _))

theorem condition_default_follows {expression : Expr} {string : Code (Value R.Number) (Option Text)}
    (hstring : runtime_expression_is_known_string state expression = false)
    (h : Implements state value (eval calls numeric)) :
    Implements state (truth_of arithmetic value) (eval calls (lower_condition_default state expression numeric string)) := by
  rw [lower_condition_default, hstring]
  exact truthiness_follows arithmetic h

theorem condition_number_follows (h : Implements state condition (eval calls flag)) :
    Implements state (condition >>= fun holds => pure (arithmetic.of_bool holds))
      (eval calls (lower_runtime_condition_number flag)) := by
  simp only [lower_runtime_condition_number, eval_bind]
  exact h.bind fun holds => .computed (.of_law (fun _ => rfl) (arithmetic.perform_uitofp holds))

theorem negated_follows (h : Implements state condition (eval calls flag)) :
    Implements state (condition >>= fun holds => pure (if holds then arithmetic.zero else arithmetic.one))
      (eval calls (lower_runtime_negated_number flag)) := by
  simp only [lower_runtime_negated_number, eval_bind]
  exact h.bind fun holds => .step (computes_number arithmetic .zero) <| .step (computes_number arithmetic .one) <|
    .computed (.of_law (fun _ => rfl) (arithmetic.perform_select_double holds _ _))

/-- A flag that is stored as a number holds as a condition where it is set. -/
theorem truth_of_flag (condition : Meaning R Bool) :
    truth_of arithmetic (condition >>= fun holds => pure (arithmetic.of_bool holds)) = condition := by
  have hflag (holds : Bool) : arithmetic.truth (arithmetic.of_bool holds) = holds := arithmetic.compare_of_bool holds
  rw [truth_of, Run.bind_assoc]
  simp only [Run.pure_bind, hflag]
  exact Run.bind_pure condition

end Views

section Operators

variable {left right : Lowered (Value R.Number)} {first second : Meaning R R.Number}

theorem arithmetic_follows {op : BinaryOp} (hop : is_arithmetic op = true)
    (hleft : Implements state first (eval calls left.numeric)) (hright : Implements state second (eval calls right.numeric)) :
    Implements state (operation arithmetic op first second) (eval calls (lower_runtime_arithmetic op left right)) := by
  simp only [lower_runtime_arithmetic, eval_bind]
  cases op with
  | add => exact hleft.bind fun l => hright.bind fun r => .computed (computes_fadd arithmetic l r)
  | sub => exact hleft.bind fun l => hright.bind fun r => .computed (computes_fsub arithmetic l r)
  | mul => exact hleft.bind fun l => hright.bind fun r => .computed (computes_fmul arithmetic l r)
  | div => exact hleft.bind fun l => hright.bind fun r => .computed (computes_fdiv arithmetic l r)
  | pow => exact hleft.bind fun l => hright.bind fun r => .computed (computes_pow arithmetic l r)
  | mod =>
    simp only [eval_bind]
    exact hleft.bind fun l => hright.bind fun r => modulo_follows arithmetic l r
  | _ => cases hop

/-- The condition a comparison is. -/
def comparison_meaning (op : BinaryOp) (left right : Meaning R R.Number) : Meaning R Bool := do
  let left ← left
  let right ← right
  pure (arithmetic.compare (comparison_codes op).2 left right)

theorem operation_comparison {op : BinaryOp} (hop : operator_of_numbers op = true) (harithmetic : is_arithmetic op = false) :
    operation arithmetic op first second =
      comparison_meaning arithmetic op first second >>= fun holds => pure (arithmetic.of_bool holds) := by
  cases op <;> first
    | exact absurd harithmetic (by decide)
    | exact absurd hop (by decide)
    | (simp only [comparison_meaning, Run.bind_assoc, Run.pure_bind]; rfl)

theorem numeric_comparison_follows (op : BinaryOp) (hforces : expression_forces_string_comparison left.expression = false)
    (hforces' : expression_forces_string_comparison right.expression = false)
    (hnumeric : runtime_expression_is_definitely_numeric state left.expression = true)
    (hnumeric' : runtime_expression_is_definitely_numeric state right.expression = true)
    (hleft : Implements state first (eval calls left.numeric)) (hright : Implements state second (eval calls right.numeric)) :
    Implements state (comparison_meaning arithmetic op first second)
      (eval calls (lower_runtime_comparison state op left right)) := by
  simp only [lower_runtime_comparison, hforces, hforces', hnumeric, hnumeric', Bool.or_false, Bool.false_eq_true,
    ↓reduceIte, Bool.and_self, eval_bind]
  exact hleft.bind fun l => hright.bind fun r => .computed (computes_fcmp arithmetic _ l r)

/-- The condition `&&` or `||` is. -/
def logical_meaning (decided : Bool) (left right : Meaning R Bool) : Meaning R Bool := do
  let left ← left
  if left = decided then pure decided else right

theorem logical_eq (decided : Bool) :
    logical arithmetic decided first second =
      logical_meaning decided (truth_of arithmetic first) (truth_of arithmetic second) >>=
        fun holds => pure (arithmetic.of_bool holds) := by
  rw [logical, logical_meaning, Run.bind_assoc]
  congr 1
  funext holds
  split <;> rfl

theorem logical_follows (decided : Bool) {test other : Meaning R Bool}
    (hleft : Implements state test (eval calls left.condition)) (hright : Implements state other (eval calls right.condition)) :
    Implements state (logical_meaning decided test other) (eval calls (lower_runtime_logical decided left right)) := by
  simp only [lower_runtime_logical, eval_bind]
  refine hleft.bind fun holds => ?_
  rw [eval]
  refine .branch (.pure decided) ?_
  have hother : Implements state (other >>= fun holds => pure holds) (eval calls right.condition >>= fun holds => pure holds) :=
    hright.bind fun holds => .pure holds
  rwa [Run.bind_pure other] at hother

end Operators

section Ternary

variable {α : Type} {test : Meaning R Bool} {first second : Meaning R α} {condition : Exec R Bool} {if_true if_false : Exec R α}

/-- Both arms are evaluated and one value is selected; without effects that is the meaning of the ternary. -/
theorem select_follows {value other : NumericState R → α} {select : Bool → α → α → Exec R α}
    (hselect : ∀ holds left right, Implements state (pure (if holds then left else right)) (select holds left right))
    (htest : Implements state test condition) (htrue : Implements state first if_true) (hfalse : Implements state second if_false)
    (hfirst : Observes first value) (hsecond : Observes second other) :
    Implements state (test >>= fun holds => if holds then first else second)
      (condition >>= fun holds => if_true >>= fun left => if_false >>= fun right => select holds left right) := by
  refine htest.bind fun holds => ?_
  intro numeric machine hmirrors
  obtain ⟨middle, hleft, hmiddle⟩ := htrue.of_observes hfirst hmirrors
  obtain ⟨after, hright, hafter⟩ := hfalse.of_observes hsecond hmiddle
  rw [Run.bind_of_ends hleft, Run.bind_of_ends hright]
  have hchosen := hselect holds (value numeric) (other numeric) numeric after hafter
  rwa [show (if holds then first else second) numeric =
      (Pure.pure (if holds then value numeric else other numeric) : Meaning R α) numeric by
    cases holds
    · exact hsecond numeric
    · exact hfirst numeric]

theorem truth_of_conditional (test : Meaning R Bool) (first second : Meaning R R.Number) :
    truth_of arithmetic (test >>= fun holds => if holds then first else second) =
      test >>= fun holds => if holds then truth_of arithmetic first else truth_of arithmetic second := by
  rw [truth_of, Run.bind_assoc]
  congr 1
  funext holds
  cases holds <;> rfl

/-- One of two blocks is taken. -/
theorem choice_follows (type : Ty) {first second : Meaning R (Value R.Number type)}
    {if_true if_false : Code (Value R.Number) (Value R.Number type)} (note : Expr) (holds : Bool)
    (htrue : Implements state first (eval calls if_true)) (hfalse : Implements state second (eval calls if_false)) :
    Implements state (if holds then first else second) (eval calls (.choice note holds if_true if_false .done)) := by
  rw [eval, show (fun result => eval calls (.done result)) =
    (Pure.pure : Value R.Number type → Exec R (Value R.Number type)) from rfl]
  split
  · next h =>
    subst h
    exact (Run.bind_pure (eval calls if_true)).symm ▸ htrue
  · next h =>
    rw [Bool.not_eq_true] at h
    subst h
    exact (Run.bind_pure (eval calls if_false)).symm ▸ hfalse

end Ternary

end NumberArithmetic

end quawk
