import Quawk.NumericVariables

namespace quawk

open StructuredCode (Operands)
open StructuredCode.Code (emit)
open StatefulRun (Result Run)
open StatefulRun.Run (Alike Coupled)

section Expressions

variable {R : Runtime} (state : LoweringState) (arithmetic : NumberArithmetic R) (calls : Calls R)
  (keys : Name → Option (Option Text))

/-- Both views of the code of an expression follow its meaning, where it is an expression of numbers. -/
structure ViewsFollow (expression : Expr) : Prop where
  number : is_numeric state false expression = true →
    Implements state (number_of arithmetic expression) (eval calls (lower_expression state keys expression).numeric)
  condition : is_numeric state true expression = true →
    Implements state (condition_of arithmetic expression) (eval calls (lower_expression state keys expression).condition)

variable {state arithmetic calls keys}

/-- An expression whose condition is that its number is not zero. -/
theorem ViewsFollow.of_number {expression : Expr}
    (hcondition : is_numeric state true expression = true →
      is_numeric state false expression = true ∧ runtime_expression_is_known_string state expression = false)
    (hdefault : (lower_expression (V := Value R.Number) state keys expression).condition =
      lower_condition_default state expression (lower_expression state keys expression).numeric
        (lower_expression state keys expression).string)
    (hnumber : is_numeric state false expression = true →
      Implements state (number_of arithmetic expression) (eval calls (lower_expression state keys expression).numeric)) :
    ViewsFollow state arithmetic calls keys expression where
  number := hnumber
  condition h := by
    obtain ⟨hnumeric, hstring⟩ := hcondition h
    rw [hdefault]
    exact condition_default_follows arithmetic hstring (hnumber hnumeric)

/-- An expression whose number is whether its condition holds. -/
theorem ViewsFollow.of_condition {expression : Expr} (condition : Meaning R Bool)
    (hmeaning : is_numeric state false expression = true →
      number_of arithmetic expression = condition >>= fun holds => pure (arithmetic.of_bool holds))
    (hsame : is_numeric state true expression = true → is_numeric state false expression = true)
    (hview : (lower_expression (V := Value R.Number) state keys expression).numeric =
      lower_runtime_condition_number (lower_expression state keys expression).condition)
    (hcondition : is_numeric state false expression = true →
      Implements state condition (eval calls (lower_expression state keys expression).condition)) :
    ViewsFollow state arithmetic calls keys expression where
  number h := by
    rw [hview, hmeaning h]
    exact condition_number_follows arithmetic (hcondition h)
  condition h := by
    rw [condition_of, hmeaning (hsame h), truth_of_flag]
    exact hcondition (hsame h)

theorem literal_views (raw_text : Text) : ViewsFollow state arithmetic calls keys (.numeric_literal raw_text) :=
  .of_number (fun h => ⟨h, rfl⟩) rfl fun _ => .computed (computes_number arithmetic (.literal raw_text))

theorem number_name_views {name : Name} {address : Address} (h : number_address state name = some address) :
    Implements state (read_number name) (eval calls (lower_runtime_numeric_name state name)) := by
  have hname := number_name_of_address h
  have hnot := hname.not_counter
  simp only [List.mem_cons, not_or] at hnot
  rw [lower_runtime_numeric_name, if_neg hnot.1, if_neg hnot.2.1, if_neg hnot.2.2.1, if_neg (by simp [hname.not_param]),
    if_pos (.inr hname.slot), eval_bind]
  exact read_number_follows h

theorem name_follows {name : Name} (h : ((counter name).isSome || is_number_name state name) = true) :
    Implements state (number_of arithmetic (.name name)) (eval calls (lower_runtime_numeric_name state name)) ∧
      runtime_name_uses_only_scalar_runtime state name = false := by
  rw [number_of]
  cases hcounter : counter name with
  | some f =>
    obtain ⟨hcode, hscalar, hperform⟩ := counter_eq_some (V := Value R.Number) state hcounter
    rw [hcode]
    exact ⟨.call (hperform calls), hscalar⟩
  | none =>
    rw [hcounter, Option.isSome_none, Bool.false_or] at h
    obtain ⟨address, haddress⟩ := Option.isSome_iff_exists.mp h
    exact ⟨number_name_views haddress, (number_name_of_address haddress).not_only_scalar⟩

theorem name_views (name : Name) : ViewsFollow state arithmetic calls keys (.name name) where
  number h := by
    rw [is_numeric, Bool.and_eq_true] at h
    exact (name_follows h.1).1
  condition h := by
    rw [is_numeric, Bool.and_eq_true, Bool.not_true, Bool.false_or, Bool.not_eq_true'] at h
    obtain ⟨hname, hstring⟩ := h
    obtain ⟨hfollows, hscalar⟩ := name_follows hname
    change Implements state _ (eval calls (lower_condition_name state keys name))
    rw [lower_condition_name, if_neg (by simp [hscalar])]
    exact condition_default_follows arithmetic hstring hfollows

/-- The number of a field is parsed from a copy of its text. -/
theorem field_number_follows {index : Meaning R Int} {code : Code (Value R.Number) Int}
    (hindex : Implements state index (eval calls code)) (expression : Expr)
    (hstring : runtime_expression_has_string_result state expression = true) :
    Implements state (index >>= field_number)
      (eval calls (lowered_field state expression code).numeric) := by
  simp only [lowered_field, lowered_string, lowered_views, lower_numeric_default, hstring, ↓reduceIte,
    lower_runtime_parsed_string, capture_string, eval_bind, Run.bind_assoc]
  refine hindex.bind fun index => ?_
  exact (Implements.call fun _ => rfl).bind fun text => (Implements.call fun _ => rfl).bind fun captured => .call fun _ => rfl

theorem field_at_views (index : Nat) : ViewsFollow state arithmetic calls keys (.field_at index) where
  number _ := by
    have hindex : Implements (R := R) state (pure (index : Int)) (eval calls (emit (Op.integer index) ())) :=
      .computed (show Computes state calls (.integer index) () (index : Int) from fun machine => ⟨_, rfl, rfl⟩)
    exact field_number_follows hindex (.field_at index) rfl
  condition h := by cases h

theorem field_index_follows {index : Expr} (h : ViewsFollow state arithmetic calls keys index)
    (hnumeric : is_numeric state false index = true) :
    Implements state (number_of arithmetic index >>= fun index => runtime_call .fptosi_i64 (index, ()))
      (eval calls (lower_runtime_field_index (lower_expression state keys index))) := by
  simp only [lower_runtime_field_index, eval_bind]
  exact (h.number hnumeric).bind fun _ => .call fun _ => rfl

theorem field_views {index : Expr} (h : ViewsFollow state arithmetic calls keys index) :
    ViewsFollow state arithmetic calls keys (.field index) where
  number hnumeric := by
    have hfield := field_number_follows (field_index_follows h hnumeric) (.field index) rfl
    rw [Run.bind_assoc] at hfield
    exact hfield
  condition h := by cases h

variable (calls) in
theorem numeric_function_code {function : Name} {f : Op [.double] .double} (h : numeric_function function = some f)
    (huser : state.is_user_function function = false) (expression : Expr) (argument : Lowered (Value R.Number))
    (third : Option (LoweredLValue (Value R.Number))) :
    lower_runtime_numeric_call state expression function [argument] third =
        (argument.numeric >>= fun value => emit f (value, ())) ∧
      runtime_expression_is_known_string state (.call function [argument.expression]) = false ∧
      ∀ value, PerformedByRuntime calls f (value, ()) := by
  unfold numeric_function at h
  split at h
  case h_7 => cases h
  all_goals
    cases h
    refine ⟨?_, ?_, fun _ _ => rfl⟩
    · simp [lower_runtime_numeric_call, huser, lower_runtime_unary_numeric_builtin]
    · simp [runtime_expression_is_known_string, huser, STRING_BUILTINS]

theorem call_views {function : Name} {argument : Expr} (h : ViewsFollow state arithmetic calls keys argument) :
    ViewsFollow state arithmetic calls keys (.call function [argument]) := by
  refine .of_number (fun hnumeric => ⟨hnumeric, ?_⟩) rfl fun hnumeric => ?_
  all_goals
    simp only [is_numeric, Bool.and_eq_true, Bool.not_eq_true'] at hnumeric
    obtain ⟨⟨hfunction, huser⟩, hargument⟩ := hnumeric
    obtain ⟨f, hfunction⟩ := Option.isSome_iff_exists.mp hfunction
  · exact (numeric_function_code calls hfunction huser (.call function [argument])
      (lower_expression state keys argument) none).2.1
  · obtain ⟨hcode, _, hperform⟩ := numeric_function_code calls hfunction huser (.call function [argument])
      (lower_expression state keys argument) (lower_third state keys [argument])
    change Implements state _ (eval calls (lower_runtime_numeric_call state (.call function [argument]) function
      [lower_expression state keys argument] (lower_third state keys [argument])))
    rw [hcode, eval_bind, number_of, hfunction]
    exact (h.number hargument).bind fun value => .call (hperform value)

theorem binary_numeric {as_condition : Bool} {left right : Expr} {op : BinaryOp} (hop : operator_of_numbers op = true)
    (h : is_numeric state as_condition (.binary left op right) = true) :
    is_numeric state false left = true ∧ is_numeric state false right = true ∧
      (is_arithmetic op = true ∨ runtime_expression_is_definitely_numeric state left = true ∧
        runtime_expression_is_definitely_numeric state right = true) := by
  cases op <;> first
    | exact absurd hop (by decide)
    | (simp only [is_numeric, Bool.and_eq_true, Bool.or_eq_true] at h
       exact ⟨h.1.1.2, h.1.2, h.2⟩)

/-- No expression of numbers makes a comparison one of strings. -/
theorem not_forces_string : (expression : Expr) → is_numeric state false expression = true →
    expression_forces_string_comparison expression = false
  | .name name, h => by
    rw [is_numeric, Bool.and_eq_true, Bool.or_eq_true] at h
    have hne : name ≠ "FILENAME" := by
      rintro rfl
      obtain hcounter | haddress := h.1
      · simp [counter] at hcounter
      · obtain ⟨address, haddress⟩ := Option.isSome_iff_exists.mp haddress
        exact (number_name_of_address haddress).not_counter (by simp)
    simpa [expression_forces_string_comparison] using hne
  | .call function [argument], h => by
    simp only [is_numeric, Bool.and_eq_true] at h
    have hnot : function ∉ STRING_BUILTINS := by
      intro hmem
      have hfunction := h.1.1
      simp only [STRING_BUILTINS, List.mem_cons, List.not_mem_nil, or_false] at hmem
      obtain rfl | rfl | rfl | rfl := hmem <;> simp [numeric_function] at hfunction
    simpa [expression_forces_string_comparison] using hnot
  | .binary _ op _, h => by
    cases op <;> first
      | rfl
      | cases h
  | .numeric_literal _, _ | .field_at _, _ | .field _, _ | .conditional _ _ _, _ | .assign _ _ _, _ | .unary _ _, _
  | .postfix_op _ _, _ => rfl
  | .string_literal _, h | .regex_literal _, h | .array_index _ _ _, h | .getline _ _, h | .call _ [], h
  | .call _ (_ :: _ :: _), h => by cases h

section Operators

variable {left right : Expr} (hleft : ViewsFollow state arithmetic calls keys left)
  (hright : ViewsFollow state arithmetic calls keys right)

include hleft hright

theorem arithmetic_views {op : BinaryOp} (hop : is_arithmetic op = true) :
    ViewsFollow state arithmetic calls keys (.binary left op right) := by
  have hnumbers : operator_of_numbers op = true := by
    cases op <;> first
      | rfl
      | cases hop
  refine .of_number (fun h => ⟨h, ?_⟩) ?_ fun h => ?_
  · cases op <;> first
      | rfl
      | cases hop
  · cases op <;> first
      | rfl
      | cases hop
  · obtain ⟨hnumber, hnumber', _⟩ := binary_numeric hnumbers h
    have hview : (lower_expression (V := Value R.Number) state keys (.binary left op right)).numeric =
        lower_runtime_arithmetic op (lower_expression state keys left) (lower_expression state keys right) := by
      cases op <;> first
        | rfl
        | cases hop
    rw [hview]
    exact arithmetic_follows arithmetic hop (hleft.number hnumber) (hright.number hnumber')

theorem comparison_views {op : BinaryOp} (hop : operator_of_numbers op = true) (harithmetic : is_arithmetic op = false) :
    ViewsFollow state arithmetic calls keys (.binary left op right) := by
  have hview : (lower_expression (V := Value R.Number) state keys (.binary left op right)) =
      lowered_condition (.binary left op right)
        (lower_runtime_comparison state op (lower_expression state keys left) (lower_expression state keys right)) := by
    cases op <;> first
      | exact absurd hop (by decide)
      | exact absurd harithmetic (by decide)
      | rfl
  have hsame (as_condition : Bool) : is_numeric state as_condition (.binary left op right) =
      is_numeric state false (.binary left op right) := by cases op <;> rfl
  refine .of_condition (comparison_meaning arithmetic op (number_of arithmetic left) (number_of arithmetic right))
    (fun _ => operation_comparison arithmetic hop harithmetic) (fun h => hsame true ▸ h) (by rw [hview]; rfl) fun h => ?_
  obtain ⟨hnumber, hnumber', hdefinite⟩ := binary_numeric hop h
  obtain ⟨hdefinite, hdefinite'⟩ := hdefinite.resolve_left (by simp [harithmetic])
  rw [hview]
  have hexpression (expression : Expr) :
      (lower_expression (V := Value R.Number) state keys expression).expression = expression :=
    lower_expression_expression (V := Value R.Number) keys expression
  refine numeric_comparison_follows arithmetic op ?_ ?_ ?_ ?_ (hleft.number hnumber) (hright.number hnumber') <;> rw [hexpression]
  · exact not_forces_string left hnumber
  · exact not_forces_string right hnumber'
  · exact hdefinite
  · exact hdefinite'

theorem logical_views {op : BinaryOp} (decided : Bool) (hop : op = if decided then .logical_or else .logical_and) :
    ViewsFollow state arithmetic calls keys (.binary left op right) := by
  have hmeaning : number_of arithmetic (.binary left op right) =
      logical arithmetic decided (number_of arithmetic left) (number_of arithmetic right) := by
    subst hop
    cases decided <;> rfl
  have hview : lower_expression (V := Value R.Number) state keys (.binary left op right) =
      lowered_condition (.binary left op right)
        (lower_runtime_logical decided (lower_expression state keys left) (lower_expression state keys right)) := by
    subst hop
    cases decided <;> rfl
  have hnumeric (as_condition : Bool) : is_numeric state as_condition (.binary left op right) =
      (is_numeric state true left && is_numeric state true right) := by
    subst hop
    cases decided <;> rfl
  refine .of_condition _ (fun _ => hmeaning.trans (logical_eq arithmetic decided))
    (fun h => (hnumeric false).trans ((hnumeric true).symm.trans h)) (by rw [hview]; rfl) fun h => ?_
  rw [hnumeric, Bool.and_eq_true] at h
  rw [hview]
  exact logical_follows decided (hleft.condition h.1) (hright.condition h.2)

theorem binary_views (op : BinaryOp) : ViewsFollow state arithmetic calls keys (.binary left op right) := by
  cases op with
  | logical_and => exact logical_views hleft hright false rfl
  | logical_or => exact logical_views hleft hright true rfl
  | add | sub | mul | div | mod | pow => exact arithmetic_views hleft hright rfl
  | less | less_equal | greater | greater_equal | equal | not_equal => exact comparison_views hleft hright rfl rfl
  | match_op | not_match | in_op | concat => exact ⟨fun h => absurd h Bool.false_ne_true, fun h => absurd h Bool.false_ne_true⟩

end Operators

section Ternary

variable {test if_true if_false : Expr} (htest : ViewsFollow state arithmetic calls keys test)
  (htrue : ViewsFollow state arithmetic calls keys if_true)
  (hfalse : ViewsFollow state arithmetic calls keys if_false)

include htest htrue hfalse

theorem conditional_views : ViewsFollow state arithmetic calls keys (.conditional test if_true if_false) := by
  have hcases {as_condition : Bool} (h : is_numeric state as_condition (.conditional test if_true if_false) = true) :
      is_numeric state true test = true ∧ is_numeric state as_condition if_true = true ∧
        is_numeric state as_condition if_false = true ∧
        ((runtime_expression_has_side_effects state if_true || runtime_expression_has_side_effects state if_false) = true ∨
          is_effect_free if_true = true ∧ is_effect_free if_false = true) := by
    simp only [is_numeric, Bool.and_eq_true] at h
    refine ⟨h.1.1.1, h.1.1.2, h.1.2, ?_⟩
    obtain ⟨_, harms⟩ := h
    unfold arms_agree at harms
    split at harms
    · next heffects => exact .inl heffects
    · exact .inr (Bool.and_eq_true _ _ ▸ harms)
  have hexpression (expression : Expr) :
      (lower_expression (V := Value R.Number) state keys expression).expression = expression :=
    lower_expression_expression (V := Value R.Number) keys expression
  refine ⟨fun h => ?_, fun h => ?_⟩ <;> obtain ⟨hcondition, hfirst, hsecond, harms⟩ := hcases h
  · change Implements state (truth_of arithmetic (number_of arithmetic test) >>= fun holds =>
      if holds then number_of arithmetic if_true else number_of arithmetic if_false) _
    simp only [lower_expression, lowered_conditional, hexpression]
    split
    · simp only [eval_bind]
      exact (htest.condition hcondition).bind fun holds =>
        choice_follows .double test holds (htrue.number hfirst) (hfalse.number hsecond)
    · next hnone =>
      obtain ⟨hfree, hfree'⟩ := harms.resolve_left hnone
      obtain ⟨_, hobserves⟩ := number_of_observes arithmetic if_true hfree
      obtain ⟨_, hobserves'⟩ := number_of_observes arithmetic if_false hfree'
      simp only [eval_bind]
      exact select_follows (fun holds left right => .computed (.of_law (fun _ => rfl)
        (arithmetic.perform_select_double holds left right))) (htest.condition hcondition) (htrue.number hfirst)
        (hfalse.number hsecond) hobserves hobserves'
  · rw [condition_of]
    change Implements state (truth_of arithmetic (truth_of arithmetic (number_of arithmetic test) >>= fun holds =>
      if holds then number_of arithmetic if_true else number_of arithmetic if_false)) _
    rw [truth_of_conditional]
    simp only [lower_expression, lowered_conditional, hexpression]
    split
    · simp only [eval_bind]
      exact (htest.condition hcondition).bind fun holds =>
        choice_follows .i1 test holds (htrue.condition hfirst) (hfalse.condition hsecond)
    · next hnone =>
      obtain ⟨hfree, hfree'⟩ := harms.resolve_left hnone
      obtain ⟨_, hobserves⟩ := condition_of_observes arithmetic hfree
      obtain ⟨_, hobserves'⟩ := condition_of_observes arithmetic hfree'
      simp only [eval_bind]
      exact select_follows (fun holds left right => .computed (.of_law (fun _ => rfl)
        (arithmetic.perform_select_i1 holds left right))) (htest.condition hcondition) (htrue.condition hfirst)
        (hfalse.condition hsecond) hobserves hobserves'

end Ternary

theorem assign_views {name : Name} {op : AssignOp} {value : Expr}
    (h : ViewsFollow state arithmetic calls keys value) :
    ViewsFollow state arithmetic calls keys (.assign (.name name) op value) := by
  have hcases {as_condition : Bool} (h : is_numeric state as_condition (.assign (.name name) op value) = true) :
      is_number_name state name = true ∧ is_numeric state false value = true ∧
        (op = .plain ∨ name ∉ assigned_numbers value) ∧
        (as_condition = false ∨ runtime_assignment_preserves_string state value = false) := by
    simp only [is_numeric, Bool.and_eq_true, Bool.or_eq_true, decide_eq_true_eq, Bool.not_eq_true', List.contains_eq_mem,
      decide_eq_false_iff_not] at h
    exact ⟨h.1.1.1, h.1.1.2, h.1.2, h.2⟩
  refine .of_number (fun hnumeric => ?_) rfl fun hnumeric => ?_
  · obtain ⟨hname, hvalue, hearly, hstring⟩ := hcases hnumeric
    refine ⟨?_, hstring.resolve_left (by simp)⟩
    simp only [is_numeric, Bool.and_eq_true, Bool.or_eq_true, decide_eq_true_eq, Bool.not_eq_true', List.contains_eq_mem,
      decide_eq_false_iff_not]
    exact ⟨⟨⟨hname, hvalue⟩, hearly⟩, by simp⟩
  · obtain ⟨hname, hvalue, hearly, _⟩ := hcases hnumeric
    obtain ⟨address, haddress⟩ := Option.isSome_iff_exists.mp hname
    exact assignment_expression_follows arithmetic haddress _ (h.number hvalue)
      (hearly.imp_right (number_of_keeps arithmetic value))

theorem increment_views {operand : Expr} (expression : Expr) (delta : Increment) (return_old : Bool)
    (h : (scalar_name operand).any (is_number_name state) = true) :
    Implements state (increment_number arithmetic (scalar_name operand) delta return_old)
      (eval calls (lower_runtime_increment_expression state expression (lower_increment_operand state keys operand) delta
        return_old)) := by
  cases operand with
  | name name =>
    obtain ⟨address, haddress⟩ := Option.isSome_iff_exists.mp (show is_number_name state name = true from h)
    exact increment_follows arithmetic haddress expression delta return_old
  | _ => cases h

theorem unary_views {operand : Expr} (op : UnaryOp) (h : ViewsFollow state arithmetic calls keys operand) :
    ViewsFollow state arithmetic calls keys (.unary op operand) := by
  refine .of_number (fun hnumeric => ⟨?_, rfl⟩) ?_ fun hnumeric => ?_
  · cases op <;> exact hnumeric
  · cases op <;> rfl
  · cases op with
    | uplus => exact h.number hnumeric
    | uminus =>
      change Implements state _ (eval calls ((lower_expression state keys operand).numeric >>= fun operand_value =>
        emit (.number .zero) () >>= fun zero => emit Op.fsub (zero, operand_value, ())))
      simp only [eval_bind]
      exact (h.number hnumeric).bind fun value =>
        .step (computes_number arithmetic .zero) (.computed (computes_fsub arithmetic _ value))
    | not => exact negated_follows arithmetic (h.condition hnumeric)
    | pre_inc => exact increment_views _ .increment false hnumeric
    | pre_dec => exact increment_views _ .decrement false hnumeric

theorem postfix_views (operand : Expr) (op : PostfixOp) :
    ViewsFollow state arithmetic calls keys (.postfix_op operand op) := by
  refine .of_number (fun hnumeric => ⟨hnumeric, rfl⟩) ?_ fun hnumeric => ?_
  · cases op <;> rfl
  · cases op with
    | post_inc => exact increment_views _ .increment true hnumeric
    | post_dec => exact increment_views _ .decrement true hnumeric

theorem views_follow : (expression : Expr) → ViewsFollow state arithmetic calls keys expression
  | .numeric_literal raw_text => literal_views raw_text
  | .name name => name_views name
  | .field_at index => field_at_views index
  | .field index => field_views (views_follow index)
  | .call _ [argument] => call_views (views_follow argument)
  | .binary left op right => binary_views (views_follow left) (views_follow right) op
  | .conditional test if_true if_false =>
    conditional_views (views_follow test) (views_follow if_true) (views_follow if_false)
  | .assign (.name _) _ value => assign_views (views_follow value)
  | .unary op operand => unary_views op (views_follow operand)
  | .postfix_op operand op => postfix_views operand op
  | .string_literal _ | .regex_literal _ | .array_index _ _ _ | .getline _ _ | .call _ [] | .call _ (_ :: _ :: _)
  | .assign (.array _ _) _ _ | .assign (.field _) _ _ => ⟨fun h => absurd h Bool.false_ne_true, fun h => absurd h Bool.false_ne_true⟩

end Expressions

end quawk
