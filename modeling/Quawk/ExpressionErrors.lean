import Quawk.LoweringErrors

open StructuredCode.Code (emit Within)

namespace quawk

variable {V : Ty → Type} {access : Name → Nat → Prop} {tolerated : Prop} {state : LoweringState}
  {keys : Name → Option (V .ptr)}

theorem combine_numeric_assignment_proper (op : AssignOp) (current_value update_value : V .double) :
    Proper access tolerated (combine_numeric_assignment op current_value update_value) := by
  cases op with
  | plain => trivial
  | mod =>
    exact .emit_bind trivial fun _ => .emit_bind trivial fun _ => .emit_bind trivial fun _ => .emit trivial
  | add | sub | mul | div | pow => exact .emit trivial

theorem current_number_proper (name : Name) (scalar_name : V .ptr) :
    Proper access tolerated (lower_runtime_current_number state name scalar_name) := by
  unfold lower_runtime_current_number
  split
  · split
    · exact .emit trivial
    · exact .emit trivial
  · exact .emit trivial

theorem store_runtime_number_proper (name : Name) (scalar_name : V .ptr) (numeric_value : V .double) :
    Proper access tolerated (store_runtime_number state name scalar_name numeric_value) := by
  unfold store_runtime_number
  split
  · split
    · exact emit_void_bind trivial (emit_void_proper trivial)
    · exact emit_void_proper trivial
  · exact emit_void_proper trivial

section Value

variable {value : Lowered V} (hvalue : value.Proper access tolerated) (expression : Expr) (op : AssignOp)
include hvalue

/-- The value of a compound assignment, and what is done with it. -/
theorem combined_proper {α : Type} (current_value : V .double) {next : V .double → Code V α}
    (hnext : ∀ numeric_value, Proper access tolerated (next numeric_value)) :
    Proper access tolerated (do
      let numeric_value ← value.numeric
      let numeric_value ← combine_numeric_assignment op current_value numeric_value
      next numeric_value) :=
  hvalue.numeric.bind fun _ => (combine_numeric_assignment_proper op _ _).bind hnext

theorem field_assignment_expression_proper {index : Code V (V .i64)} (hindex : Proper access tolerated index) :
    Proper access tolerated (lower_runtime_field_assignment_expression state expression index op value) := by
  refine hindex.bind fun _ => ?_
  split
  · exact raise_proper (not_misuse rfl rfl)
  · refine .emit_bind trivial fun _ => .emit_bind trivial fun _ => combined_proper hvalue op _ fun _ => ?_
    exact performs_bind (emit_void_bind trivial trivial)

theorem array_assignment_expression_proper (name : Name) {key : Code V (V .ptr)} (hkey : Proper access tolerated key) :
    Proper access tolerated (lower_runtime_array_assignment_expression state expression name key op value) := by
  refine (constant_string_proper _).bind fun _ => hkey.bind fun _ => ?_
  split
  · exact raise_proper (not_misuse rfl rfl)
  · refine .emit_bind trivial fun _ => combined_proper hvalue op _ fun _ => ?_
    exact performs_bind (emit_void_bind trivial trivial)

theorem param_assignment_expression_proper (name : Name) :
    Proper access tolerated (lower_runtime_param_assignment_expression state expression name op value) := by
  unfold lower_runtime_param_assignment_expression
  split
  · refine hvalue.string.bind fun _ => performs_bind ?_
    exact (store_parameter_proper name _).bind fun _ => (load_parameter_proper name).bind fun _ => .emit trivial
  · refine (load_parameter_proper name).bind fun _ => .emit_bind trivial fun _ => ?_
    refine combined_proper hvalue op _ fun _ => performs_bind ?_
    exact (string_from_numeric_value_proper _).bind fun _ => (store_parameter_proper name _).bind fun _ => trivial

theorem state_assignment_expression_proper {name : Name} (haccess : state.Accesses access)
    (hname : is_reusable_runtime_state_name name ∨ runtime_name_uses_numeric_slot_state state name) :
    Proper access tolerated (lower_runtime_state_assignment_expression state expression name op value) := by
  refine (variable_address_proper haccess hname).bind fun _ => .emit_bind trivial fun _ => ?_
  exact combined_proper hvalue op _ fun _ => performs_bind (emit_void_bind trivial trivial)

omit hvalue in
theorem copy_expression_proper (name source : Name) (scalar_name : V .ptr) :
    Proper access tolerated (lower_runtime_copy_expression state expression name source scalar_name) := by
  refine (constant_string_proper _).bind fun _ => performs_bind (emit_void_bind trivial ?_)
  split
  · exact .emit_bind trivial fun _ => emit_void_bind trivial trivial
  · exact .emit trivial

theorem string_to_scalar_expression_proper (name : Name) (scalar_name : V .ptr) :
    Proper access tolerated (lower_runtime_string_to_scalar_expression state expression name value scalar_name) := by
  refine hvalue.string.bind fun _ => performs_bind ?_
  split
  · split
    · exact emit_void_bind trivial (.emit_bind trivial fun _ => emit_void_bind trivial trivial)
    · exact emit_void_bind trivial (.emit_bind trivial fun _ => emit_void_bind trivial trivial)
  · exact emit_void_bind trivial (.emit trivial)

theorem scalar_assignment_expression_proper (name : Name) :
    Proper access tolerated (lower_runtime_scalar_assignment_expression state expression name op value) := by
  refine (constant_string_proper _).bind fun _ => ?_
  split
  · exact copy_expression_proper expression name _ _
  · split
    · exact string_to_scalar_expression_proper hvalue expression name _
    · refine (current_number_proper name _).bind fun _ => combined_proper hvalue op _ fun _ => performs_bind ?_
      exact (store_runtime_number_proper name _ _).bind fun _ => trivial

theorem assignment_expression_proper {target : LoweredLValue V} (htarget : target.Proper access tolerated)
    (haccess : state.Accesses access) :
    Proper access tolerated (lower_runtime_assignment_expression state expression target op value) := by
  cases target with
  | field index => exact field_assignment_expression_proper hvalue expression op htarget
  | array name key => exact array_assignment_expression_proper hvalue expression op name htarget
  | name name =>
    unfold lower_runtime_assignment_expression
    dsimp only
    split
    · exact param_assignment_expression_proper hvalue expression op name
    · split
      · rename_i hname
        exact state_assignment_expression_proper hvalue expression op haccess hname
      · exact scalar_assignment_expression_proper hvalue expression op name

omit hvalue in
theorem string_to_scalar_proper (name : Name) (string_value : V .ptr) :
    Proper access tolerated (lower_runtime_string_to_scalar state name string_value) := by
  unfold lower_runtime_string_to_scalar
  split
  · split
    · exact emit_void_bind trivial (.emit trivial)
    · refine (constant_string_proper _).bind fun _ => emit_void_bind trivial (emit_void_bind trivial ?_)
      split
      · exact .emit trivial
      · exact .emit trivial
  · exact (constant_string_proper _).bind fun _ => emit_void_bind trivial (.emit trivial)

theorem string_assignment_proper {target : LoweredLValue V} (htarget : target.Proper access tolerated) :
    Proper access tolerated (lower_runtime_string_assignment state expression target value) := by
  unfold lower_runtime_string_assignment
  split
  · trivial
  · cases target with
    | field index =>
      exact htarget.bind fun _ => hvalue.string.bind fun _ => performs_bind (emit_void_bind trivial (.emit trivial))
    | array name key =>
      exact (constant_string_proper _).bind fun _ => htarget.bind fun _ => hvalue.string.bind fun _ =>
        performs_bind (emit_void_bind trivial (.emit trivial))
    | name name =>
      dsimp only
      split
      · refine hvalue.string.bind fun _ => performs_bind ?_
        exact (store_parameter_proper name _).bind fun _ => load_parameter_proper name
      · split
        · exact raise_proper (not_misuse rfl rfl)
        · exact hvalue.string.bind fun _ => performs_bind (string_to_scalar_proper name _)

end Value

theorem incremented_proper (delta : Increment) (old_value : V .double) :
    Proper access tolerated (lower_runtime_incremented delta old_value) := by
  cases delta with
  | increment => exact .emit_bind trivial fun _ => .emit trivial
  | decrement => exact .emit_bind trivial fun _ => .emit trivial

theorem increment_expression_proper (expression : Expr) {operand : Option (LoweredLValue V)}
    (hoperand : ∀ target ∈ operand, target.Proper access tolerated) (haccess : state.Accesses access)
    (delta : Increment) (return_old : Bool) :
    Proper access tolerated (lower_runtime_increment_expression state expression operand delta return_old) := by
  match operand with
  | none => exact raise_proper (not_misuse rfl rfl)
  | some (.field index) =>
    refine (hoperand _ rfl : Proper access tolerated index).bind fun _ => .emit_bind trivial fun _ => ?_
    exact .emit_bind trivial fun _ => (incremented_proper delta _).bind fun _ =>
      performs_bind (emit_void_bind trivial trivial)
  | some (.array name key) =>
    refine (constant_string_proper _).bind fun _ => (hoperand _ rfl : Proper access tolerated key).bind fun _ => ?_
    exact .emit_bind trivial fun _ => (incremented_proper delta _).bind fun _ =>
      performs_bind (emit_void_bind trivial trivial)
  | some (.name name) =>
    unfold lower_runtime_increment_expression
    dsimp only
    split
    · refine (load_parameter_proper name).bind fun _ => .emit_bind trivial fun _ => ?_
      refine (incremented_proper delta _).bind fun _ => performs_bind ?_
      exact (string_from_numeric_value_proper _).bind fun _ => (store_parameter_proper name _).bind fun _ => trivial
    · split
      · rename_i hname
        refine (variable_address_proper haccess hname).bind fun _ => .emit_bind trivial fun _ => ?_
        exact (incremented_proper delta _).bind fun _ => performs_bind (emit_void_bind trivial trivial)
      · refine (constant_string_proper _).bind fun _ => (current_number_proper name _).bind fun _ => ?_
        refine (incremented_proper delta _).bind fun _ => performs_bind ?_
        exact (store_runtime_number_proper name _ _).bind fun _ => trivial

theorem formatted_number_proper {numeric : Code V (V .double)} (h : Proper access tolerated numeric) :
    Proper access tolerated (lower_runtime_formatted_number numeric) :=
  h.bind fun _ => .emit trivial

theorem number_truthiness_proper {numeric : Code V (V .double)} (h : Proper access tolerated numeric) :
    Proper access tolerated (lower_runtime_number_truthiness numeric) :=
  h.bind fun _ => .emit_bind trivial fun _ => .emit trivial

theorem condition_default_proper {expression : Expr} {numeric : Code V (V .double)} {string : Code V (V .ptr)}
    (hnumeric : Proper access tolerated numeric) (hstring : Proper access tolerated string) :
    Proper access tolerated (lower_condition_default state expression numeric string) := by
  unfold lower_condition_default
  split
  · exact string_truthiness_proper hstring
  · exact number_truthiness_proper hnumeric

theorem numeric_default_proper {expression : Expr} {string : Code V (V .ptr)} (h : Proper access tolerated string) :
    Proper access tolerated (lower_numeric_default state expression string) := by
  unfold lower_numeric_default
  split
  · exact h.bind fun _ => (capture_string_proper _).bind fun _ => .emit trivial
  · exact raise_proper (not_misuse rfl rfl)

theorem views_proper {expression : Expr} {numeric : Code V (V .double)} {string : Code V (V .ptr)}
    (hnumeric : Proper access tolerated numeric) (hstring : Proper access tolerated string) :
    (lowered_views state expression numeric string).Proper access tolerated :=
  ⟨hnumeric, hstring, condition_default_proper hnumeric hstring⟩

theorem number_proper {expression : Expr} {numeric : Code V (V .double)} (h : Proper access tolerated numeric) :
    (lowered_number state expression numeric).Proper access tolerated :=
  views_proper h (formatted_number_proper h)

theorem string_proper {expression : Expr} {string : Code V (V .ptr)} (h : Proper access tolerated string) :
    (lowered_string state expression string).Proper access tolerated :=
  views_proper (numeric_default_proper h) h

theorem condition_proper {expression : Expr} {condition : Code V (V .i1)} (h : Proper access tolerated condition) :
    (lowered_condition expression condition).Proper access tolerated :=
  have hnumeric : Proper access tolerated (lower_runtime_condition_number condition) := h.bind fun _ => .emit trivial
  ⟨hnumeric, formatted_number_proper hnumeric, h⟩

theorem numeric_name_proper (haccess : state.Accesses access) (name : Name) :
    Proper access tolerated (lower_runtime_numeric_name state name : Code V (V .double)) := by
  unfold lower_runtime_numeric_name
  split_ifs with hnr hfnr hnf hparam hname
  · exact .emit trivial
  · exact .emit trivial
  · exact .emit trivial
  · exact (load_parameter_proper name).bind fun _ => .emit trivial
  · exact (variable_address_proper haccess hname).bind fun _ => .emit trivial
  · exact (constant_string_proper _).bind fun _ => current_number_proper name _

theorem string_name_proper (haccess : state.Accesses access) (name : Name) :
    Proper access tolerated (lower_runtime_string_name state keys name) := by
  have hnumber : Proper access tolerated
      (lower_runtime_formatted_number (lower_runtime_numeric_name state name) : Code V (V .ptr)) :=
    formatted_number_proper (numeric_name_proper haccess name)
  have hscalar : Proper access tolerated (do
      let scalar_name ← lower_runtime_scalar_name name
      emit .qk_scalar_get_inline (scalar_name, ()) : Code V (V .ptr)) :=
    (constant_string_proper _).bind fun _ => .emit trivial
  unfold lower_runtime_string_name
  split
  · exact load_loop_string_proper name
  · split
    · exact load_parameter_proper name
    · split
      · exact .emit trivial
      · split
        · split_ifs
          · exact .emit trivial
          · exact hscalar
          · exact hnumber
        · split_ifs
          · exact hscalar
          · exact hnumber

theorem condition_name_proper (haccess : state.Accesses access) (name : Name) :
    Proper access tolerated (lower_condition_name state keys name) := by
  unfold lower_condition_name
  split
  · exact (constant_string_proper _).bind fun _ => .emit trivial
  · exact condition_default_proper (numeric_name_proper haccess name) (string_name_proper haccess name)

section Operators

variable {left right : Lowered V} (hleft : left.Proper access tolerated) (hright : right.Proper access tolerated)
include hleft hright

theorem comparison_proper (op : BinaryOp) :
    Proper access tolerated (lower_runtime_comparison state op left right) := by
  unfold lower_runtime_comparison
  dsimp only
  split
  · refine (captured_string_proper hleft).bind fun _ => (captured_string_proper hright).bind fun _ => ?_
    exact .emit_bind trivial fun _ => .emit trivial
  · split
    · exact hleft.numeric.bind fun _ => hright.numeric.bind fun _ => .emit trivial
    · refine (captured_string_proper hleft).bind fun _ => hleft.numeric.bind fun _ => ?_
      refine (captured_string_proper hright).bind fun _ => hright.numeric.bind fun _ => ?_
      exact .emit_bind trivial fun _ => .emit_bind trivial fun _ => .emit_bind trivial fun _ =>
        .emit_bind trivial fun _ => .emit_bind trivial fun _ => .emit trivial

theorem logical_proper (decided : Bool) : Proper access tolerated (lower_runtime_logical decided left right) :=
  hleft.condition.bind fun _ => ⟨hright.condition, fun _ => trivial⟩

theorem match_operator_proper (inverted : Bool) :
    Proper access tolerated (lower_runtime_match_operator inverted left right) := by
  refine (captured_string_proper hleft).bind fun _ => (regex_pattern_proper hright).bind fun _ => ?_
  refine .emit_bind trivial fun _ => ?_
  split
  · exact .emit trivial
  · trivial

omit hright in
theorem in_expression_proper : Proper access tolerated (lower_runtime_in_expression left right) := by
  unfold lower_runtime_in_expression
  split
  · exact (constant_string_proper _).bind fun _ => (captured_string_proper hleft).bind fun _ => .emit trivial
  · exact raise_proper (not_misuse rfl rfl)

theorem arithmetic_proper (op : BinaryOp) :
    Proper access tolerated (lower_runtime_arithmetic op left right) := by
  refine hleft.numeric.bind fun _ => hright.numeric.bind fun _ => ?_
  split
  · exact .emit trivial
  · exact .emit trivial
  · exact .emit trivial
  · exact .emit trivial
  · exact .emit_bind trivial fun _ => .emit_bind trivial fun _ => .emit_bind trivial fun _ => .emit trivial
  · exact .emit trivial

theorem concatenation_proper : Proper access tolerated (lower_runtime_concatenation state left right) := by
  unfold lower_runtime_concatenation
  split
  · exact hleft.string.bind fun _ => hright.string.bind fun _ => .emit trivial
  · exact (captured_string_proper hleft).bind fun _ => (captured_string_proper hright).bind fun _ => .emit trivial

theorem binary_proper (expression : Expr) (op : BinaryOp) :
    (lowered_binary state expression op left right).Proper access tolerated := by
  cases op with
  | add | sub | mul | div | mod | pow => exact number_proper (arithmetic_proper hleft hright _)
  | less | less_equal | greater | greater_equal | equal | not_equal =>
    exact condition_proper (comparison_proper hleft hright _)
  | logical_and => exact condition_proper (logical_proper hleft hright false)
  | logical_or => exact condition_proper (logical_proper hleft hright true)
  | match_op => exact condition_proper (match_operator_proper hleft hright false)
  | not_match => exact condition_proper (match_operator_proper hleft hright true)
  | in_op => exact condition_proper (in_expression_proper hleft)
  | concat => exact string_proper (concatenation_proper hleft hright)

theorem conditional_proper {test : Lowered V} (htest : test.Proper access tolerated) (expression : Expr) :
    (lowered_conditional state expression test left right).Proper access tolerated := by
  refine ⟨?_, ?_, ?_⟩
  · unfold lowered_conditional
    dsimp only
    split
    · exact htest.condition.bind fun _ => ⟨hleft.numeric, hright.numeric, fun _ => trivial⟩
    · exact htest.condition.bind fun _ => hleft.numeric.bind fun _ => hright.numeric.bind fun _ => .emit trivial
  · exact htest.condition.bind fun _ =>
      ⟨captured_string_proper hleft, captured_string_proper hright, fun _ => trivial⟩
  · unfold lowered_conditional
    dsimp only
    split
    · exact htest.condition.bind fun _ => ⟨hleft.condition, hright.condition, fun _ => trivial⟩
    · exact htest.condition.bind fun _ => hleft.condition.bind fun _ => hright.condition.bind fun _ => .emit trivial

end Operators

theorem unary_proper {operand : Lowered V} (h : operand.Proper access tolerated) (expression : Expr) (op : UnaryOp)
    {target : Option (LoweredLValue V)} (htarget : ∀ target' ∈ target, target'.Proper access tolerated)
    (haccess : state.Accesses access) :
    (lowered_unary state expression op operand target).Proper access tolerated := by
  cases op with
  | uplus => exact number_proper h.numeric
  | uminus => exact number_proper (h.numeric.bind fun _ => .emit_bind trivial fun _ => .emit trivial)
  | not =>
    exact number_proper (h.condition.bind fun _ => .emit_bind trivial fun _ => .emit_bind trivial fun _ =>
      .emit trivial)
  | pre_inc | pre_dec => exact number_proper (increment_expression_proper expression htarget haccess _ _)

theorem postfix_proper (expression : Expr) (op : PostfixOp) {target : Option (LoweredLValue V)}
    (htarget : ∀ target' ∈ target, target'.Proper access tolerated) (haccess : state.Accesses access) :
    ( lowered_postfix state expression op target).Proper access tolerated := by
  cases op with
  | post_inc | post_dec => exact number_proper (increment_expression_proper expression htarget haccess _ _)

theorem getline_target_proper (expression : Expr) {target : LoweredLValue V} (h : target.Proper access tolerated)
    (result_slot : V .slot) (result : V .double) :
    Proper access tolerated (lower_runtime_getline_target state expression target result_slot result) := by
  refine .emit_bind trivial fun _ => .emit_bind trivial fun _ => ⟨?_, trivial⟩
  exact .emit_bind trivial fun _ => assign_string_lvalue_proper h _

theorem getline_expression_proper (expression : Expr) {target : Option (LoweredLValue V)}
    {source : Option (Lowered V)} (htarget : ∀ target' ∈ target, target'.Proper access tolerated)
    (hsource : ∀ source' ∈ source, source'.Proper access tolerated) :
    Proper access tolerated (lower_runtime_getline_expression state expression target source) := by
  match target, source with
  | none, none => exact performs_bind (.emit trivial)
  | none, some source =>
    exact (captured_string_proper (hsource source rfl)).bind fun _ => performs_bind (.emit trivial)
  | some target, none =>
    refine .emit_bind trivial fun _ => performs_bind (.emit_bind trivial fun _ => ?_)
    exact getline_target_proper expression (htarget target rfl) _ _
  | some target, some source =>
    refine .emit_bind trivial fun _ => (captured_string_proper (hsource source rfl)).bind fun _ => ?_
    exact performs_bind (.emit_bind trivial fun _ => getline_target_proper expression (htarget target rfl) _ _)

/-- The builtins the numeric view of a call looks up before the user functions. -/
def NUMERIC_BUILTINS_FIRST : List Name :=
  ["split", "close", "gsub", "index", "int", "length", "log", "match", "rand", "sin", "sqrt", "srand", "sub", "system"]

/-- The builtins that one of the views of a call looks up before the user functions. -/
def BUILTINS_FIRST : List Name := NUMERIC_BUILTINS_FIRST ++ ["substr", "sprintf"]

/-- What lowering relies on where it lowers a call. -/
structure Callable (function_defs : List FunctionDef) (function : Name) (args : List Expr) : Prop where
  builtin : function ∈ BUILTINS_FIRST ∨ (∀ definition ∈ function_defs, definition.name ≠ function) →
    builtin_accepts_arity function args.length
  target : function = "sub" ∨ function = "gsub" → args.length = 3 → (substitute_target args).isSome
  params : function ≠ "length" → ∀ definition ∈ function_defs, definition.name = function →
    args.length ≤ definition.params.length

section Call

variable {function : Name} {arguments : List Expr} {args : List (Lowered V)} {third : Option (LoweredLValue V)}
  (h : ∀ argument ∈ args, argument.Proper access tolerated) (hlength : args.length = arguments.length)
  (hcall : tolerated ∨ Callable state.function_defs function arguments)
include h hlength hcall

theorem user_call_proper (expression : Expr) (huser : state.is_user_function function)
    (hlength' : function ≠ "length") :
    Proper access tolerated (lower_runtime_user_function_call state expression function args) := by
  refine user_function_call_proper h expression (hcall.imp_right fun hcallable => ?_)
  obtain ⟨definition, hdefinition⟩ := Option.isSome_iff_exists.mp huser
  have hname : definition.name = function := by simpa using List.find?_some hdefinition
  have hmem := List.mem_of_find?_eq_some hdefinition
  exact ⟨definition, hdefinition, hlength ▸ hcallable.params hlength' definition hmem hname⟩

omit h in
/-- The builtin a call is lowered to gets the arguments it takes. -/
theorem arity_accepted (hbuiltin : function ∈ BUILTINS_FIRST ∨ state.is_user_function function = false)
    {P : Prop} (hP : builtin_accepts_arity function args.length → P) : tolerated ∨ P := by
  refine hcall.imp_right fun hcallable => hP (hlength ▸ hcallable.builtin (hbuiltin.imp_right fun hnone => ?_))
  have hfind : state.function_def function = none := by
    simpa [LoweringState.is_user_function] using hnone
  simpa using List.find?_eq_none.mp hfind

omit h in
/-- A builtin that the table has gets a number of arguments the table allows. -/
theorem table_accepted {builtin : Name} {allowed : List Nat} (hfunction : function = builtin)
    (hbuiltin : builtin ∈ BUILTINS_FIRST ∨ state.is_user_function function = false) (hsprintf : builtin ≠ "sprintf")
    (hrule : BUILTIN_ARITY_RULES.lookup builtin = some allowed) {P : Prop} (hP : args.length ∈ allowed → P) :
    tolerated ∨ P := by
  subst hfunction
  refine arity_accepted hlength hcall hbuiltin fun haccepts => hP ?_
  rw [builtin_accepts_arity, if_neg hsprintf, hrule] at haccepts
  exact List.contains_iff_mem.mp haccepts

omit h in
theorem one_accepted {builtin : Name} {count : Nat} (hfunction : function = builtin)
    (hbuiltin : builtin ∈ BUILTINS_FIRST ∨ state.is_user_function function = false) (hsprintf : builtin ≠ "sprintf")
    (hrule : BUILTIN_ARITY_RULES.lookup builtin = some [count]) : tolerated ∨ args.length = count :=
  table_accepted hlength hcall hfunction hbuiltin hsprintf hrule List.mem_singleton.mp

theorem string_call_proper (expression : Expr) :
    ∀ string ∈ lower_runtime_string_call state expression function args, Proper access tolerated string := by
  unfold lower_runtime_string_call
  split_ifs with hsubstr hsprintf hlen huser htolower htoupper
  · rintro _ ⟨⟩
    exact substr_builtin_proper h
      (table_accepted hlength hcall hsubstr (.inl (by decide)) (by decide) (by rfl) (by simp))
  · rintro _ ⟨⟩
    exact sprintf_builtin_proper h (arity_accepted hlength hcall (.inl (by simp [hsprintf, BUILTINS_FIRST])) (by
      simp [hsprintf, builtin_accepts_arity]))
  · exact fun _ hmem => nomatch hmem
  · rintro _ ⟨⟩
    exact user_call_proper h hlength hcall expression huser hlen
  · rintro _ ⟨⟩
    exact case_builtin_proper h false
      (one_accepted hlength hcall htolower (.inr (by simpa using huser)) (by decide) (by rfl))
  · rintro _ ⟨⟩
    exact case_builtin_proper h true
      (one_accepted hlength hcall htoupper (.inr (by simpa using huser)) (by decide) (by rfl))
  · exact fun _ hmem => nomatch hmem

omit h in
/-- What `sub` and `gsub` are lowered with. -/
theorem substitution_accepted (hthird : third.isSome = (substitute_target arguments).isSome)
    (hfunction : function = "sub" ∨ function = "gsub") :
    tolerated ∨ args.length = 2 ∨ args.length = 3 ∧ third.isSome := by
  refine hcall.imp_right fun hcallable => ?_
  have hmem : function ∈ BUILTINS_FIRST := by
    obtain rfl | rfl := hfunction <;> simp [BUILTINS_FIRST, NUMERIC_BUILTINS_FIRST]
  have haccepts := hcallable.builtin (.inl hmem)
  have harity : arguments.length = 2 ∨ arguments.length = 3 := by
    obtain rfl | rfl := hfunction
    · simpa [builtin_accepts_arity, BUILTIN_ARITY_RULES, List.lookup_cons] using haccepts
    · simpa [builtin_accepts_arity, BUILTIN_ARITY_RULES, List.lookup_cons] using haccepts
  rw [hlength, hthird]
  exact harity.imp_right fun hthree => ⟨hthree, hcallable.target hfunction hthree⟩

omit h hlength hcall in
theorem ite_proper {α : Type} {condition : Prop} [Decidable condition] {first second : Code V α}
    (hfirst : condition → Proper access tolerated first) (hsecond : ¬ condition → Proper access tolerated second) :
    Proper access tolerated (if condition then first else second) := by
  split
  · exact hfirst ‹_›
  · exact hsecond ‹_›

theorem numeric_call_proper (expression : Expr) (hthird : ∀ target ∈ third, target.Proper access tolerated)
    (hsome : third.isSome = (substitute_target arguments).isSome) :
    Proper access tolerated (lower_runtime_numeric_call state expression function args third) := by
  have hfirst {builtin : Name} {count : Nat} (hfunction : function = builtin) (hmem : builtin ∈ NUMERIC_BUILTINS_FIRST)
      (hrule : BUILTIN_ARITY_RULES.lookup builtin = some [count]) : tolerated ∨ args.length = count :=
    one_accepted hlength hcall hfunction (.inl (List.mem_append_left _ hmem)) (by rintro rfl; cases hrule) hrule
  unfold lower_runtime_numeric_call
  refine ite_proper (fun hsplit => ?_) fun _ => ?_
  · exact split_builtin_proper h
      (table_accepted hlength hcall hsplit (.inl (by decide)) (by decide) (by rfl) (by simp))
  refine ite_proper (fun hclose => ?_) fun _ => ?_
  · exact close_builtin_proper h (hfirst hclose (by decide) (by rfl))
  refine ite_proper (fun hgsub => ?_) fun _ => ?_
  · exact substitute_builtin_proper h expression hthird true (substitution_accepted hlength hcall hsome (.inr hgsub))
  refine ite_proper (fun hindex => ?_) fun _ => ?_
  · exact index_builtin_proper h (hfirst hindex (by decide) (by rfl))
  refine ite_proper (fun hint => ?_) fun _ => ?_
  · exact unary_numeric_builtin_proper h trivial (hfirst hint (by decide) (by rfl))
  refine ite_proper (fun hlen => ?_) fun hlen => ?_
  · refine length_builtin_proper h
      (table_accepted hlength hcall hlen (.inl (by decide)) (by decide) (by rfl) fun hcount => ?_)
    obtain hcount | hcount : args.length = 0 ∨ args.length = 1 := by simpa using hcount
    all_goals omega
  refine ite_proper (fun hlog => ?_) fun _ => ?_
  · exact unary_numeric_builtin_proper h trivial (hfirst hlog (by decide) (by rfl))
  refine ite_proper (fun hmatch => ?_) fun _ => ?_
  · exact match_builtin_proper h (hfirst hmatch (by decide) (by rfl))
  refine ite_proper (fun hrand => ?_) fun _ => ?_
  · exact rand_builtin_proper expression (hfirst hrand (by decide) (by rfl))
  refine ite_proper (fun hsin => ?_) fun _ => ?_
  · exact unary_numeric_builtin_proper h trivial (hfirst hsin (by decide) (by rfl))
  refine ite_proper (fun hsqrt => ?_) fun _ => ?_
  · exact unary_numeric_builtin_proper h trivial (hfirst hsqrt (by decide) (by rfl))
  refine ite_proper (fun hsrand => ?_) fun _ => ?_
  · refine srand_builtin_proper h
      (table_accepted hlength hcall hsrand (.inl (by decide)) (by decide) (by rfl) fun hcount => ?_)
    obtain hcount | hcount : args.length = 0 ∨ args.length = 1 := by simpa using hcount
    all_goals omega
  refine ite_proper (fun hsub => ?_) fun _ => ?_
  · exact substitute_builtin_proper h expression hthird false (substitution_accepted hlength hcall hsome (.inl hsub))
  refine ite_proper (fun hsystem => ?_) fun _ => ?_
  · exact system_builtin_proper h expression (hfirst hsystem (by decide) (by rfl))
  refine ite_proper (fun huser => ?_) fun huser => ?_
  · exact (user_call_proper h hlength hcall expression huser hlen).bind fun _ => .emit trivial
  have hlate {builtin : Name} {count : Nat} (hfunction : function = builtin) (hsprintf : builtin ≠ "sprintf")
      (hrule : BUILTIN_ARITY_RULES.lookup builtin = some [count]) : tolerated ∨ args.length = count :=
    one_accepted hlength hcall hfunction (.inr (by simpa using huser)) hsprintf hrule
  refine ite_proper (fun hatan2 => ?_) fun _ => ?_
  · exact binary_numeric_builtin_proper h trivial (hlate hatan2 (by decide) (by rfl))
  refine ite_proper (fun hcos => ?_) fun _ => ?_
  · exact unary_numeric_builtin_proper h trivial (hlate hcos (by decide) (by rfl))
  refine ite_proper (fun hexp => ?_) fun _ => ?_
  · exact unary_numeric_builtin_proper h trivial (hlate hexp (by decide) (by rfl))
  split
  · rename_i string hstring
    exact numeric_default_proper (string_call_proper h hlength hcall expression string hstring)
  · exact raise_proper (not_misuse rfl rfl)

theorem call_proper (expression : Expr) (hthird : ∀ target ∈ third, target.Proper access tolerated)
    (hsome : third.isSome = (substitute_target arguments).isSome) :
    (lowered_call state expression function args third).Proper access tolerated := by
  have hnumeric := numeric_call_proper h hlength hcall expression hthird hsome
  refine views_proper hnumeric ?_
  cases hstring : lower_runtime_string_call state expression function args with
  | none => exact formatted_number_proper hnumeric
  | some string => exact string_call_proper h hlength hcall expression string hstring

end Call

mutual

/-- The calls of an expression, in every position. -/
def calls_in_expression : Expr → List (Name × List Expr)
  | .call function args => (function, args) :: calls_in_expressions args
  | .field index => calls_in_expression index
  | .array_index _ index extra_indexes => calls_in_expression index ++ calls_in_expressions extra_indexes
  | .getline (some target) (some source) => calls_in_lvalue target ++ calls_in_expression source
  | .getline (some target) none => calls_in_lvalue target
  | .getline none (some source) => calls_in_expression source
  | .binary left _ right => calls_in_expression left ++ calls_in_expression right
  | .conditional test if_true if_false =>
    calls_in_expression test ++ calls_in_expression if_true ++ calls_in_expression if_false
  | .assign target _ value => calls_in_lvalue target ++ calls_in_expression value
  | .unary _ operand => calls_in_expression operand
  | .postfix_op operand _ => calls_in_expression operand
  | _ => []

def calls_in_expressions : List Expr → List (Name × List Expr)
  | [] => []
  | expression :: rest => calls_in_expression expression ++ calls_in_expressions rest

def calls_in_lvalue : LValue → List (Name × List Expr)
  | .name _ => []
  | .array _ subscripts => calls_in_expressions subscripts
  | .field index => calls_in_expression index

end

/-- Lowering relies on nothing that fails for these calls, or their misuse is tolerated. -/
def CallsHold (tolerated : Prop) (function_defs : List FunctionDef) (calls : List (Name × List Expr)) : Prop :=
  ∀ call ∈ calls, tolerated ∨ Callable function_defs call.1 call.2

theorem callsHold_append {function_defs : List FunctionDef} {calls rest : List (Name × List Expr)} :
    CallsHold tolerated function_defs (calls ++ rest) ↔
      CallsHold tolerated function_defs calls ∧ CallsHold tolerated function_defs rest :=
  List.forall_mem_append

theorem lower_expressions_length (expressions : List Expr) :
    (lower_expressions state keys expressions).length = expressions.length := by
  induction expressions with
  | nil => rfl
  | cons expression rest ih => simp [lower_expressions, ih]

/-- `lower_third` is the third argument as an lvalue, lowered. -/
theorem lower_third_isSome (args : List Expr) :
    (lower_third state keys args).isSome = (substitute_target args).isSome := by
  match args with
  | [] | [_] | [_, _] => rfl
  | _ :: _ :: target :: [] | _ :: _ :: target :: _ :: _ => cases target <;> rfl

mutual

theorem expression_proper (haccess : state.Accesses access) : (expression : Expr) →
    CallsHold tolerated state.function_defs (calls_in_expression expression) →
    (lower_expression state keys expression).Proper access tolerated
  | .string_literal value, _ => views_proper (.emit trivial) (constant_string_proper value)
  | .numeric_literal raw_text, _ => number_proper (.emit trivial)
  | .regex_literal raw_text, _ =>
    ⟨raise_proper (not_misuse rfl rfl), raise_proper (not_misuse rfl rfl),
      (constant_string_proper _).bind fun _ => .emit trivial⟩
  | .name name, _ =>
    ⟨numeric_name_proper haccess name, string_name_proper haccess name, condition_name_proper haccess name⟩
  | .field_at index, _ => string_proper (.emit_bind trivial fun _ => .emit trivial)
  | .field index, h =>
    string_proper ((field_index_proper (expression_proper haccess index h)).bind fun _ => .emit trivial)
  | .array_index array_name index extra_indexes, h => by
    obtain ⟨hindex, hextra⟩ := callsHold_append.mp h
    have hkey : Proper access tolerated (lower_runtime_array_subscripts state
        (lower_expression state keys index :: lower_expressions state keys extra_indexes)) :=
      array_subscripts_proper (List.forall_mem_cons.mpr
        ⟨expression_proper haccess index hindex, expressions_proper haccess extra_indexes hextra⟩)
    exact views_proper ((constant_string_proper _).bind fun _ => hkey.bind fun _ => .emit trivial)
      ((constant_string_proper _).bind fun _ => hkey.bind fun _ => .emit trivial)
  | .call function args, h => by
    obtain ⟨hcall, hargs⟩ := List.forall_mem_cons.mp h
    exact call_proper (expressions_proper haccess args hargs) (lower_expressions_length args) hcall _
      (third_proper haccess args hargs) (lower_third_isSome args)
  | .getline none none, _ =>
    number_proper (getline_expression_proper _ (fun _ hmem => nomatch hmem) fun _ hmem => nomatch hmem)
  | .getline none (some source), h =>
    number_proper (getline_expression_proper _ (fun _ hmem => nomatch hmem) (by
      rintro _ ⟨⟩
      exact expression_proper haccess source h))
  | .getline (some target) none, h =>
    number_proper (getline_expression_proper _ (by
      rintro _ ⟨⟩
      exact lvalue_proper haccess target h) fun _ hmem => nomatch hmem)
  | .getline (some target) (some source), h => by
    obtain ⟨htarget, hsource⟩ := callsHold_append.mp h
    refine number_proper (getline_expression_proper _ ?_ ?_)
    · rintro _ ⟨⟩
      exact lvalue_proper haccess target htarget
    · rintro _ ⟨⟩
      exact expression_proper haccess source hsource
  | .binary left op right, h => by
    obtain ⟨hleft, hright⟩ := callsHold_append.mp h
    exact binary_proper (expression_proper haccess left hleft) (expression_proper haccess right hright) _ op
  | .conditional test if_true if_false, h => by
    obtain ⟨htest_true, hfalse⟩ := callsHold_append.mp h
    obtain ⟨htest, htrue⟩ := callsHold_append.mp htest_true
    exact conditional_proper (expression_proper haccess if_true htrue) (expression_proper haccess if_false hfalse)
      (expression_proper haccess test htest) _
  | .assign target op value, h => by
    obtain ⟨htarget, hvalue⟩ := callsHold_append.mp h
    have hlvalue := lvalue_proper haccess target htarget
    have hlowered := expression_proper haccess value hvalue
    have hnumeric := assignment_expression_proper hlowered (.assign target op value) op hlvalue haccess
    refine views_proper hnumeric ?_
    split
    · exact string_assignment_proper hlowered _ hlvalue
    · exact formatted_number_proper hnumeric
  | .unary op operand, h =>
    unary_proper (expression_proper haccess operand h) _ op (increment_operand_proper haccess operand h) haccess
  | .postfix_op operand op, h => postfix_proper _ op (increment_operand_proper haccess operand h) haccess

theorem expressions_proper (haccess : state.Accesses access) : (expressions : List Expr) →
    CallsHold tolerated state.function_defs (calls_in_expressions expressions) →
    ∀ lowered ∈ lower_expressions state keys expressions, lowered.Proper access tolerated
  | [], _ => fun _ hmem => nomatch hmem
  | expression :: rest, h => by
    obtain ⟨hfirst, hrest⟩ := callsHold_append.mp h
    exact List.forall_mem_cons.mpr ⟨expression_proper haccess expression hfirst, expressions_proper haccess rest hrest⟩

theorem lvalue_proper (haccess : state.Accesses access) : (target : LValue) →
    CallsHold tolerated state.function_defs (calls_in_lvalue target) →
    (lower_lvalue state keys target).Proper access tolerated
  | .name _, _ => trivial
  | .array _ subscripts, h => array_subscripts_proper (expressions_proper haccess subscripts h)
  | .field index, h => field_index_proper (expression_proper haccess index h)

theorem increment_operand_proper (haccess : state.Accesses access) : (operand : Expr) →
    CallsHold tolerated state.function_defs (calls_in_expression operand) →
    ∀ target ∈ lower_increment_operand state keys operand, target.Proper access tolerated
  | .name _, _ => by
    rintro _ ⟨⟩
    trivial
  | .array_index _ index extra_indexes, h => by
    obtain ⟨hindex, hextra⟩ := callsHold_append.mp h
    rintro _ ⟨⟩
    exact array_subscripts_proper (List.forall_mem_cons.mpr
      ⟨expression_proper haccess index hindex, expressions_proper haccess extra_indexes hextra⟩)
  | .field_at _, _ => by
    rintro _ ⟨⟩
    exact Within.emit trivial
  | .field index, h => by
    rintro _ ⟨⟩
    exact field_index_proper (expression_proper haccess index h)
  | .string_literal _, _ | .numeric_literal _, _ | .regex_literal _, _ | .call _ _, _ | .getline _ _, _
  | .binary _ _ _, _ | .conditional _ _ _, _ | .assign _ _ _, _ | .unary _ _, _ | .postfix_op _ _, _ =>
    fun _ hmem => nomatch hmem

theorem third_proper (haccess : state.Accesses access) : (args : List Expr) →
    CallsHold tolerated state.function_defs (calls_in_expressions args) →
    ∀ target ∈ lower_third state keys args, target.Proper access tolerated
  | [_, _, .name _], _ => by
    rintro _ ⟨⟩
    trivial
  | [_, _, .array_index _ index extra_indexes], h => by
    obtain ⟨_, h⟩ := callsHold_append.mp h
    obtain ⟨_, h⟩ := callsHold_append.mp h
    obtain ⟨h, _⟩ := callsHold_append.mp h
    obtain ⟨hindex, hextra⟩ := callsHold_append.mp h
    rintro _ ⟨⟩
    exact array_subscripts_proper (List.forall_mem_cons.mpr
      ⟨expression_proper haccess index hindex, expressions_proper haccess extra_indexes hextra⟩)
  | [_, _, .field_at _], _ => by
    rintro _ ⟨⟩
    exact Within.emit_bind trivial fun _ => Within.emit trivial
  | [_, _, .field index], h => by
    obtain ⟨_, h⟩ := callsHold_append.mp h
    obtain ⟨_, h⟩ := callsHold_append.mp h
    obtain ⟨hindex, _⟩ := callsHold_append.mp h
    rintro _ ⟨⟩
    exact field_index_proper (expression_proper haccess index hindex)
  | _ :: _ :: target :: _ :: _, _ => by cases target <;> exact fun _ hmem => nomatch hmem
  | [], _ | [_], _ | [_, _], _
  | [_, _, .string_literal _], _ | [_, _, .numeric_literal _], _ | [_, _, .regex_literal _], _
  | [_, _, .call _ _], _ | [_, _, .getline _ _], _ | [_, _, .binary _ _ _], _ | [_, _, .conditional _ _ _], _
  | [_, _, .assign _ _ _], _ | [_, _, .unary _ _], _ | [_, _, .postfix_op _ _], _ => fun _ hmem => nomatch hmem

end

end quawk
