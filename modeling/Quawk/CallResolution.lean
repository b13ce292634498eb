import Quawk.ExpressionErrors
import Quawk.Semantics

open StructuredCode.Code (emit)

namespace quawk

/-- What a call with a name is taken for. -/
inductive Callee where
  | user_function | builtin
  deriving DecidableEq, Repr

/-- Where a call is looked at. -/
inductive CallContext where
  | analysis | inference | numeric | string | condition | comparison
  deriving DecidableEq, Repr

def AnalysisScope.callee (scope : AnalysisScope) (function : Name) : Callee :=
  if scope.is_function function then .user_function else .builtin

/-- `infer_expression_type` gives the result types of builtins, and the other calls none. -/
def inferred_callee (function : Name) : Option Callee :=
  if function ∈ NUMERIC_RESULT_FUNCTIONS ∨ function ∈ STRING_RESULT_FUNCTIONS then some .builtin else none

section State

variable (state : LoweringState)

/-- The numeric view, as `lower_runtime_numeric_call` tries the names. -/
def numeric_callee (function : Name) : Callee :=
  if function ∈ NUMERIC_BUILTINS_FIRST then .builtin
  else if state.is_user_function function then .user_function
  else .builtin

/-- The string view, as `lower_runtime_string_call` tries the names; a number is formatted otherwise. -/
def string_callee (function : Name) : Callee :=
  if function = "substr" ∨ function = "sprintf" then .builtin
  else if function = "length" then numeric_callee state function
  else if state.is_user_function function then .user_function
  else if function = "tolower" ∨ function = "toupper" then .builtin
  else numeric_callee state function

/-- The view that decides a condition. -/
def condition_callee (function : Name) (args : List Expr) : Callee :=
  if runtime_expression_is_known_string state (.call function args) then string_callee state function
  else numeric_callee state function

/-- A comparison knows the kind of its operand if it is a call of a builtin. -/
def comparison_callee (function : Name) (args : List Expr) : Option Callee :=
  if expression_forces_string_comparison (.call function args) ∨
      runtime_expression_is_definitely_numeric state (.call function args) then some .builtin
  else none

/-- What a call is taken for in a context, where anything is assumed of it. -/
def assumed_callee (params : Option (List Name)) (function : Name) (args : List Expr) : CallContext → Option Callee
  | .analysis => some (AnalysisScope.callee ⟨state.function_defs, params⟩ function)
  | .inference => inferred_callee function
  | .numeric => some (numeric_callee state function)
  | .string => some (string_callee state function)
  | .condition => some (condition_callee state function args)
  | .comparison => comparison_callee state function args

/-- All contexts take the call for the same. -/
def ResolvedAlike (params : Option (List Name)) (function : Name) (args : List Expr) : Prop :=
  ∀ context other, ∀ callee ∈ assumed_callee state params function args context,
    ∀ callee' ∈ assumed_callee state params function args other, callee = callee'

end State

section Code

variable {V : Ty → Type} {state : LoweringState} {function : Name}

theorem numeric_callee_user :
    numeric_callee state function = .user_function ↔
      function ∉ NUMERIC_BUILTINS_FIRST ∧ state.is_user_function function = true := by
  unfold numeric_callee
  split_ifs <;> simp_all

theorem string_callee_user :
    string_callee state function = .user_function ↔
      function ∉ ["substr", "sprintf", "length"] ∧ state.is_user_function function = true := by
  have hlength : numeric_callee state "length" = .builtin := rfl
  unfold string_callee
  split_ifs with hfirst hlen huser
  · simp only [reduceCtorEq, List.mem_cons, List.not_mem_nil, or_false, false_iff, not_and]
    tauto
  · simp [hlen, hlength]
  · simp only [List.mem_cons, List.not_mem_nil, or_false, true_iff]
    tauto
  · simp [huser]
  · simp [numeric_callee, huser]

/-- Where the numeric view takes the call for one of a user function, it calls it. -/
theorem numeric_call_user (h : numeric_callee state function = .user_function) (expression : Expr)
    (args : List (Lowered V)) (third : Option (LoweredLValue V)) :
    lower_runtime_numeric_call state expression function args third = (do
      let string_value ← lower_runtime_user_function_call state expression function args
      emit .qk_parse_number_text (string_value, ())) := by
  obtain ⟨hfirst, huser⟩ := numeric_callee_user.mp h
  simp only [NUMERIC_BUILTINS_FIRST, List.mem_cons, List.not_mem_nil, or_false, not_or] at hfirst
  simp only [lower_runtime_numeric_call, hfirst, huser, if_true, if_false]

/-- So does the string view, and else it is none of the calls of user functions. -/
theorem string_call_user (h : string_callee state function = .user_function) (expression : Expr)
    (args : List (Lowered V)) :
    lower_runtime_string_call state expression function args =
      some (lower_runtime_user_function_call state expression function args) := by
  obtain ⟨hfirst, huser⟩ := string_callee_user.mp h
  simp only [List.mem_cons, List.not_mem_nil, or_false, not_or] at hfirst
  simp only [lower_runtime_string_call, hfirst, huser, if_true, if_false]

/-- The builtins that are looked up first are lowered as if there were no user function. -/
theorem numeric_call_builtin (h : function ∈ NUMERIC_BUILTINS_FIRST) (function_defs : List FunctionDef)
    (expression : Expr) (args : List (Lowered V)) (third : Option (LoweredLValue V)) :
    lower_runtime_numeric_call { state with function_defs } expression function args third =
      lower_runtime_numeric_call state expression function args third := by
  simp only [NUMERIC_BUILTINS_FIRST, List.mem_cons, List.not_mem_nil, or_false] at h
  rcases h with rfl | rfl | rfl | rfl | rfl | rfl | rfl | rfl | rfl | rfl | rfl | rfl | rfl | rfl <;> rfl

end Code

section Agreement

variable (state : LoweringState) (params : Option (List Name)) (function : Name) (args : List Expr)

/-- The builtins that no view looks up before the user functions, and that have no inferred type. -/
def LATE_BUILTINS : List Name := ["atan2", "cos", "exp"]

theorem is_user_function_eq : AnalysisScope.is_function ⟨state.function_defs, params⟩ function =
    state.is_user_function function := by
  unfold AnalysisScope.is_function LoweringState.is_user_function LoweringState.function_def
  rw [Bool.eq_iff_iff, List.find?_isSome, List.any_eq_true]

theorem early_builtins : ∀ name ∈ BUILTIN_FUNCTION_NAMES, name ∉ LATE_BUILTINS →
    name ∈ NUMERIC_BUILTINS_FIRST ∨ name ∈ ["substr", "sprintf", "length"] ∨ name ∈ STRING_RESULT_FUNCTIONS := by
  decide

theorem names_are_builtins :
    (∀ name ∈ NUMERIC_BUILTINS_FIRST, name ∈ BUILTIN_FUNCTION_NAMES ∧ name ∉ LATE_BUILTINS) ∧
    (∀ name ∈ ["substr", "sprintf", "length"], name ∈ BUILTIN_FUNCTION_NAMES ∧ name ∉ LATE_BUILTINS) ∧
    (∀ name ∈ NUMERIC_RESULT_FUNCTIONS, name ∈ BUILTIN_FUNCTION_NAMES ∧ name ∉ LATE_BUILTINS) ∧
    (∀ name ∈ STRING_RESULT_FUNCTIONS, name ∈ BUILTIN_FUNCTION_NAMES ∧ name ∉ LATE_BUILTINS) ∧
    (∀ name ∈ STRING_BUILTINS, name ∈ BUILTIN_FUNCTION_NAMES ∧ name ∉ LATE_BUILTINS) ∧
    ∀ name ∈ NUMERIC_BUILTINS, name ∈ BUILTIN_FUNCTION_NAMES := by
  decide

/-- With no user function of its name a call is taken for one of a builtin wherever anything is assumed of it. -/
theorem resolved_without_user (huser : state.is_user_function function = false) (context : CallContext) :
    ∀ callee ∈ assumed_callee state params function args context, callee = .builtin := by
  have hnumeric : numeric_callee state function = .builtin := by simp [numeric_callee, huser]
  have hstring : string_callee state function = .builtin := by simp [string_callee, huser, hnumeric]
  intro callee hcallee
  cases context with
  | analysis => simpa [assumed_callee, AnalysisScope.callee, is_user_function_eq, huser] using hcallee.symm
  | inference =>
    simp only [assumed_callee, inferred_callee] at hcallee
    split_ifs at hcallee
    · exact (Option.some.inj hcallee).symm
    · cases hcallee
  | numeric => exact (Option.some.inj hcallee).symm.trans hnumeric
  | string => exact (Option.some.inj hcallee).symm.trans hstring
  | condition =>
    refine (Option.some.inj hcallee).symm.trans ?_
    unfold condition_callee
    split_ifs
    · exact hstring
    · exact hnumeric
  | comparison =>
    simp only [assumed_callee, comparison_callee] at hcallee
    split_ifs at hcallee
    · exact (Option.some.inj hcallee).symm
    · cases hcallee

/-- With a user function of its name it is taken for a call of this function wherever the name is looked up late
enough. -/
theorem resolved_to_user (huser : state.is_user_function function = true)
    (h : function ∈ BUILTIN_FUNCTION_NAMES →
      function ∈ LATE_BUILTINS ∧ runtime_expressions_are_definitely_numeric state args = false)
    (context : CallContext) :
    ∀ callee ∈ assumed_callee state params function args context, callee = .user_function := by
  obtain ⟨hfirst, hstrings, hnumbers, htexts, hstring_builtins, hnumeric_builtins⟩ := names_are_builtins
  have hnot {names : List Name} (hnames : ∀ name ∈ names, name ∈ BUILTIN_FUNCTION_NAMES ∧ name ∉ LATE_BUILTINS) :
      function ∉ names := fun hmem => (hnames function hmem).2 (h (hnames function hmem).1).1
  have hnumeric := numeric_callee_user.mpr ⟨hnot hfirst, huser⟩
  have hstring := string_callee_user.mpr ⟨hnot hstrings, huser⟩
  intro callee hcallee
  cases context with
  | analysis => simpa [assumed_callee, AnalysisScope.callee, is_user_function_eq, huser] using hcallee.symm
  | inference =>
    simp [assumed_callee, inferred_callee, hnot hnumbers, hnot htexts] at hcallee
  | numeric => exact (Option.some.inj hcallee).symm.trans hnumeric
  | string => exact (Option.some.inj hcallee).symm.trans hstring
  | condition =>
    refine (Option.some.inj hcallee).symm.trans ?_
    unfold condition_callee
    split_ifs
    · exact hstring
    · exact hnumeric
  | comparison =>
    have hforced : expression_forces_string_comparison (.call function args) = false := by
      simp [expression_forces_string_comparison, hnot hstring_builtins]
    have hnumber : runtime_expression_is_definitely_numeric state (.call function args) = false := by
      rw [runtime_expression_is_definitely_numeric]
      by_cases hmem : function ∈ NUMERIC_BUILTINS
      · simp [(h (hnumeric_builtins function hmem)).2]
      · simp [hmem]
    simp [assumed_callee, comparison_callee, hforced, hnumber] at hcallee

/-- All contexts take a call for the same exactly if no user function has its name, or the name is not that of a
builtin, or it is that of `atan2`, `cos` or `exp` and its arguments are not known to be numbers. -/
theorem calls_resolved_iff :
    ResolvedAlike state params function args ↔
      (state.is_user_function function = true → function ∈ BUILTIN_FUNCTION_NAMES →
        function ∈ LATE_BUILTINS ∧ runtime_expressions_are_definitely_numeric state args = false) := by
  constructor
  · intro h huser hbuiltin
    have hanalysis : Callee.user_function ∈ assumed_callee state params function args .analysis := by
      simp [assumed_callee, AnalysisScope.callee, is_user_function_eq, huser]
    have hnever (context : CallContext) (hcallee : .builtin ∈ assumed_callee state params function args context) : False :=
      nomatch h .analysis context _ hanalysis _ hcallee
    have hlate : function ∈ LATE_BUILTINS := by
      by_contra hlate
      rcases early_builtins function hbuiltin hlate with hfirst | hfirst | htext
      · exact hnever .numeric (by simp [assumed_callee, numeric_callee, hfirst])
      · refine hnever .string ?_
        cases hcallee : string_callee state function with
        | builtin => simp [assumed_callee, hcallee]
        | user_function => exact absurd hfirst (string_callee_user.mp hcallee).1
      · exact hnever .inference (by simp [assumed_callee, inferred_callee, htext])
    refine ⟨hlate, ?_⟩
    by_contra hargs
    have hnumeric : function ∈ NUMERIC_BUILTINS := by
      have hall : ∀ name ∈ LATE_BUILTINS, name ∈ NUMERIC_BUILTINS := by decide
      exact hall function hlate
    refine hnever .comparison ?_
    simp [assumed_callee, comparison_callee, runtime_expression_is_definitely_numeric, hnumeric, hargs]
  · intro h context other callee hcallee callee' hcallee'
    cases huser : state.is_user_function function with
    | false =>
      rw [resolved_without_user state params function args huser context callee hcallee,
        resolved_without_user state params function args huser other callee' hcallee']
    | true =>
      rw [resolved_to_user state params function args huser (h huser) context callee hcallee,
        resolved_to_user state params function args huser (h huser) other callee' hcallee']

end Agreement

/-- A program with a user function `int` of one parameter. -/
def function_named_int : LoweringState where
  variable_indexes := []
  slot_allocation := ⟨[]⟩
  type_info := fun _ => .unknown
  array_names := []
  function_defs := [⟨"int", ["a"], []⟩]
  local_numeric_names := ∅
  function_param_strings := []
  loop_string_bindings := []

/-- The string view of `int(3)` calls it, and the numeric view is the builtin. -/
theorem calls_resolved_apart : ¬ResolvedAlike function_named_int none "int" [.numeric_literal ['3']] := by
  intro h
  have hagree := h .string .numeric .user_function (by decide) .builtin (by decide)
  exact nomatch hagree

end quawk
