import Quawk.Lib.CodeLimits
import Quawk.LowerViews

open StructuredCode (Limits)
open StructuredCode.Code (emit Within)

namespace quawk

/-- How the errors begin that lowering raises for a call or a statement out of place. -/
def MISUSE_ERRORS : List String :=
  ["unsupported function call in runtime-backed backend: ", "function ", "break statements are not supported",
    "continue statements are not supported", "return statements are not supported", "next is not supported",
    "nextfile is not supported"]

/-- Whether lowering raises this error for an undefined function, a wrong number of arguments, a
target of `sub` or `gsub` that cannot be assigned, or a statement outside its context. -/
def is_misuse_error (message : String) : Bool :=
  MISUSE_ERRORS.any (fun start => start.toList.isPrefixOf message.toList) ||
    "builtin ".toList.isPrefixOf message.toList &&
      message != "builtin split requires a named array target in the runtime-backed backend"

/-- Code that reads and writes only the given fields of `%quawk.state`; misuse is an error it may
raise only where that is `tolerated`. -/
def lowering_limits (access : Name → Nat → Prop) (tolerated : Prop) : Limits Op where
  op
    | .state_variable name index => access name index
    | _ => True
  error message := is_misuse_error message → tolerated

variable {V : Ty → Type} {access : Name → Nat → Prop} {tolerated : Prop}


/-- Lowered code within the limits. -/
abbrev Proper {α : Type} (access : Name → Nat → Prop) (tolerated : Prop) (code : Code V α) : Prop :=
  code.Within (lowering_limits access tolerated)

/-- The three views of an expression are within the limits. -/
structure Lowered.Proper (access : Name → Nat → Prop) (tolerated : Prop) (lowered : Lowered V) : Prop where
  numeric : quawk.Proper access tolerated lowered.numeric
  string : quawk.Proper access tolerated lowered.string
  condition : quawk.Proper access tolerated lowered.condition

def LoweredLValue.Proper (access : Name → Nat → Prop) (tolerated : Prop) : LoweredLValue V → Prop
  | .name _ => True
  | .array _ key => quawk.Proper access tolerated key
  | .field index => quawk.Proper access tolerated index

/-- The fields of `%quawk.state` that code lowered in this state may use. -/
def LoweringState.Accesses (access : Name → Nat → Prop) (state : LoweringState) : Prop :=
  ∀ name index, is_reusable_runtime_state_name name ∨ runtime_name_uses_numeric_slot_state state name →
    state.variable_indexes.get name = some index → access name index

theorem emit_void_proper {types : List Ty} {f : Op types .unit} {operands : StructuredCode.Operands V types}
    (h : (lowering_limits access tolerated).op f) : Proper access tolerated (emit_void f operands) :=
  ⟨h, fun _ => trivial⟩

theorem emit_void_bind {α : Type} {types : List Ty} {f : Op types .unit}
    {operands : StructuredCode.Operands V types} {next : Unit → Code V α}
    (h : (lowering_limits access tolerated).op f) (hnext : Proper access tolerated (next ())) :
    Proper access tolerated (emit_void f operands >>= next) :=
  ⟨h, fun _ => hnext⟩

theorem performs_bind {α : Type} {expression : Expr} {next : Unit → Code V α}
    (h : Proper access tolerated (next ())) : Proper access tolerated (performs expression >>= next) := h

/-- The beginnings as characters, which an error is compared with character by character. -/
def MISUSE_TEXTS : List Text :=
  [['u', 'n', 's', 'u', 'p', 'p', 'o', 'r', 't', 'e', 'd', ' ', 'f', 'u', 'n', 'c', 't', 'i', 'o', 'n', ' ', 'c',
     'a', 'l', 'l', ' ', 'i', 'n', ' ', 'r', 'u', 'n', 't', 'i', 'm', 'e', '-', 'b', 'a', 'c', 'k', 'e', 'd', ' ',
     'b', 'a', 'c', 'k', 'e', 'n', 'd', ':', ' '],
    ['f', 'u', 'n', 'c', 't', 'i', 'o', 'n', ' '],
    ['b', 'r', 'e', 'a', 'k', ' ', 's', 't', 'a', 't', 'e', 'm', 'e', 'n', 't', 's', ' ', 'a', 'r', 'e', ' ', 'n',
     'o', 't', ' ', 's', 'u', 'p', 'p', 'o', 'r', 't', 'e', 'd'],
    ['c', 'o', 'n', 't', 'i', 'n', 'u', 'e', ' ', 's', 't', 'a', 't', 'e', 'm', 'e', 'n', 't', 's', ' ', 'a', 'r',
     'e', ' ', 'n', 'o', 't', ' ', 's', 'u', 'p', 'p', 'o', 'r', 't', 'e', 'd'],
    ['r', 'e', 't', 'u', 'r', 'n', ' ', 's', 't', 'a', 't', 'e', 'm', 'e', 'n', 't', 's', ' ', 'a', 'r', 'e', ' ',
     'n', 'o', 't', ' ', 's', 'u', 'p', 'p', 'o', 'r', 't', 'e', 'd'],
    ['n', 'e', 'x', 't', ' ', 'i', 's', ' ', 'n', 'o', 't', ' ', 's', 'u', 'p', 'p', 'o', 'r', 't', 'e', 'd'],
    ['n', 'e', 'x', 't', 'f', 'i', 'l', 'e', ' ', 'i', 's', ' ', 'n', 'o', 't', ' ', 's', 'u', 'p', 'p', 'o', 'r',
     't', 'e', 'd']]

theorem misuse_errors_any (message : Text) : (MISUSE_ERRORS.any fun start => start.toList.isPrefixOf message) =
    MISUSE_TEXTS.any fun start => start.isPrefixOf message := by
  have heq : MISUSE_ERRORS = MISUSE_TEXTS.map String.ofList := rfl
  rw [heq, List.any_map]
  simp only [Function.comp_def, String.toList_ofList]

/-- An error that begins like none of misuse, nor with the name of a builtin. -/
theorem not_misuse {message : Text} (h : (MISUSE_TEXTS.any fun start => start.isPrefixOf message) = false)
    (hbuiltin : ['b', 'u', 'i', 'l', 't', 'i', 'n', ' '].isPrefixOf message = false) :
    is_misuse_error (String.ofList message) = false := by
  have hstart : "builtin ".toList = ['b', 'u', 'i', 'l', 't', 'i', 'n', ' '] := String.toList_ofList
  rw [is_misuse_error, String.toList_ofList, hstart, hbuiltin, Bool.false_and, Bool.or_false, misuse_errors_any, h]

/-- An error about an argument of `split`. -/
theorem split_not_misuse :
    is_misuse_error "builtin split requires a named array target in the runtime-backed backend" = false := by
  rw [is_misuse_error, bne_self_eq_false, Bool.and_false, Bool.or_false, misuse_errors_any,
    (String.toList_ofList : "builtin split requires a named array target in the runtime-backed backend".toList = _)]
  rfl

/-- An error that is no misuse. -/
theorem raise_proper {α : Type} {message : String} (h : is_misuse_error message = false) :
    Proper access tolerated (raise message : Code V α) := by
  intro hmisuse
  rw [h] at hmisuse
  cases hmisuse

/-- An error of misuse, where the misuse is excluded. -/
theorem misuse_proper {α : Type} {message : String} (h : tolerated) :
    Proper access tolerated (raise message : Code V α) := fun _ => h

theorem constant_string_proper (value : Text) :
    Proper access tolerated (lower_runtime_constant_string value : Code V (V .ptr)) :=
  .emit trivial

theorem capture_string_proper (string_value : V .ptr) :
    Proper access tolerated (capture_string string_value) :=
  .emit trivial

theorem string_from_numeric_value_proper (numeric_value : V .double) :
    Proper access tolerated (lower_runtime_string_from_numeric_value numeric_value) :=
  .emit_bind trivial fun _ => capture_string_proper _

theorem captured_string_proper {expression : Lowered V} (h : expression.Proper access tolerated) :
    Proper access tolerated (lower_runtime_captured_string_expression expression) :=
  h.string.bind fun _ => capture_string_proper _

theorem string_truthiness_proper {string : Code V (V .ptr)} (h : Proper access tolerated string) :
    Proper access tolerated (lower_runtime_string_truthiness string) :=
  h.bind fun _ => .emit_bind trivial fun _ => .emit trivial

section State

variable {state : LoweringState} {keys : Name → Option (V .ptr)}

theorem load_loop_string_proper (name : Name) :
    Proper access tolerated (load_loop_string_binding keys name) := by
  unfold load_loop_string_binding
  split
  · trivial
  · trivial

theorem load_parameter_proper (name : Name) :
    Proper access tolerated (load_runtime_function_param_string state name : Code V (V .ptr)) := by
  unfold load_runtime_function_param_string
  split
  · exact .emit trivial
  · trivial

theorem store_parameter_proper (name : Name) (string_value : V .ptr) :
    Proper access tolerated (store_runtime_function_param_string state name string_value) := by
  unfold store_runtime_function_param_string
  split
  · exact (capture_string_proper string_value).bind fun _ => emit_void_proper trivial
  · trivial

theorem undefined_slot_no_misuse (name : Name) :
    is_misuse_error ("undefined variable slot in reusable backend: " ++ name) = false := by
  simp [is_misuse_error, MISUSE_ERRORS, List.isPrefixOf]

theorem variable_address_proper {name : Name} (haccess : state.Accesses access)
    (hname : is_reusable_runtime_state_name name ∨ runtime_name_uses_numeric_slot_state state name) :
    Proper access tolerated (variable_address state name : Code V (V .addr)) := by
  unfold variable_address
  split
  · exact .emit trivial
  · split
    · rename_i index hindex
      exact .emit (haccess name index hname hindex)
    · exact raise_proper (undefined_slot_no_misuse name)

theorem argument_string_proper {expression : Lowered V} (h : expression.Proper access tolerated) :
    Proper access tolerated (lower_runtime_argument_string state expression) := by
  unfold lower_runtime_argument_string
  split
  · exact captured_string_proper h
  · exact h.numeric.bind fun _ => string_from_numeric_value_proper _

theorem array_key_proper {expression : Lowered V} (h : expression.Proper access tolerated) :
    Proper access tolerated (lower_runtime_array_key state expression) := by
  unfold lower_runtime_array_key
  split
  · exact constant_string_proper _
  · split
    · exact h.string
    · exact h.numeric.bind fun _ => .emit trivial

theorem joined_subscripts_proper {subscripts : List (Lowered V)} {subsep_value key_value : V .ptr}
    (h : ∀ subscript ∈ subscripts, subscript.Proper access tolerated) :
    Proper access tolerated (lower_runtime_joined_subscripts state subsep_value key_value subscripts) := by
  induction subscripts generalizing key_value with
  | nil => trivial
  | cons subscript subscripts ih =>
    refine (array_key_proper (h subscript List.mem_cons_self)).bind fun _ => ?_
    exact .emit_bind trivial fun _ => .emit_bind trivial fun _ =>
      ih fun other hmem => h other (List.mem_cons_of_mem _ hmem)

theorem array_subscripts_proper {subscripts : List (Lowered V)}
    (h : ∀ subscript ∈ subscripts, subscript.Proper access tolerated) :
    Proper access tolerated (lower_runtime_array_subscripts state subscripts) := by
  unfold lower_runtime_array_subscripts
  split
  · exact raise_proper (not_misuse rfl rfl)
  · exact array_key_proper (h _ List.mem_cons_self)
  · refine (array_key_proper (h _ List.mem_cons_self)).bind fun _ => ?_
    refine (constant_string_proper _).bind fun _ => .emit_bind trivial fun _ => ?_
    exact joined_subscripts_proper fun other hmem => h other (List.mem_cons_of_mem _ hmem)

theorem field_index_proper {index : Lowered V} (h : index.Proper access tolerated) :
    Proper access tolerated (lower_runtime_field_index index) :=
  h.numeric.bind fun _ => .emit trivial

theorem assign_string_lvalue_proper {target : LoweredLValue V} (h : target.Proper access tolerated)
    (string_value : V .ptr) :
    Proper access tolerated (lower_runtime_assign_string_lvalue state target string_value) := by
  cases target with
  | name name =>
    unfold lower_runtime_assign_string_lvalue
    dsimp only
    split
    · exact store_parameter_proper name string_value
    · split
      · split
        · exact emit_void_proper trivial
        · exact (constant_string_proper _).bind fun _ => emit_void_bind trivial (emit_void_proper trivial)
      · exact (constant_string_proper _).bind fun _ => emit_void_proper trivial
  | field index => exact h.bind fun _ => emit_void_proper trivial
  | array name key =>
    exact (constant_string_proper _).bind fun _ => h.bind fun _ => emit_void_proper trivial

theorem regex_pattern_proper {expression : Lowered V} (h : expression.Proper access tolerated) :
    Proper access tolerated (lower_runtime_regex_pattern expression) := by
  unfold lower_runtime_regex_pattern
  split
  · exact constant_string_proper _
  · exact captured_string_proper h

section Arguments

variable {args : List (Lowered V)} (h : ∀ argument ∈ args, argument.Proper access tolerated)
include h

theorem unary_numeric_builtin_proper {runtime_function : Op [.double] .double} {builtin_name : Name}
    (hfunction : (lowering_limits access tolerated).op runtime_function) (harity : tolerated ∨ args.length = 1) :
    Proper access tolerated (lower_runtime_unary_numeric_builtin args runtime_function builtin_name) := by
  match args with
  | [argument] => exact (h argument (by simp)).numeric.bind fun _ => .emit hfunction
  | [] | _ :: _ :: _ => exact misuse_proper (harity.resolve_right (by simp))

theorem binary_numeric_builtin_proper {runtime_function : Op [.double, .double] .double} {builtin_name : Name}
    (hfunction : (lowering_limits access tolerated).op runtime_function) (harity : tolerated ∨ args.length = 2) :
    Proper access tolerated (lower_runtime_binary_numeric_builtin args runtime_function builtin_name) := by
  match args with
  | [first, second] =>
    exact (h first (by simp)).numeric.bind fun _ => (h second (by simp)).numeric.bind fun _ => .emit hfunction
  | [] | [_] | _ :: _ :: _ :: _ => exact misuse_proper (harity.resolve_right (by simp))

theorem length_builtin_proper (harity : tolerated ∨ args.length ≤ 1) :
    Proper access tolerated (lower_runtime_length_builtin state args) := by
  match args with
  | [] =>
    exact .emit_bind trivial fun _ => .emit_bind trivial fun _ => .emit_bind trivial fun _ => .emit trivial
  | [argument] =>
    have hstring : Proper access tolerated (do let string_value ← argument.string; string_length string_value) :=
      (h argument (by simp)).string.bind fun _ => .emit_bind trivial fun _ => .emit trivial
    unfold lower_runtime_length_builtin
    dsimp only
    split
    · split
      · exact (constant_string_proper _).bind fun _ => .emit trivial
      · exact hstring
    · exact hstring
  | _ :: _ :: _ => exact misuse_proper (harity.resolve_right (by simp))

theorem split_builtin_proper (harity : tolerated ∨ args.length = 2 ∨ args.length = 3) :
    Proper access tolerated (lower_runtime_split_builtin args) := by
  match args with
  | [] | [_] => exact misuse_proper (harity.resolve_right (by simp))
  | text :: target :: separators =>
    unfold lower_runtime_split_builtin
    dsimp only
    split
    · exact misuse_proper (harity.resolve_right (by simp only [List.length_cons]; omega))
    · split
      · refine (h text (by simp)).string.bind fun _ => (constant_string_proper _).bind fun _ => ?_
        cases separators with
        | nil => exact .emit_bind trivial fun _ => .emit trivial
        | cons separator rest => exact (h separator (by simp)).string.bind fun _ => .emit trivial
      · exact raise_proper split_not_misuse

theorem close_builtin_proper (harity : tolerated ∨ args.length = 1) :
    Proper access tolerated (lower_runtime_close_builtin args) := by
  match args with
  | [target] => exact (h target (by simp)).string.bind fun _ => .emit trivial
  | [] | _ :: _ :: _ => exact misuse_proper (harity.resolve_right (by simp))

theorem substr_builtin_proper (harity : tolerated ∨ args.length = 2 ∨ args.length = 3) :
    Proper access tolerated (lower_runtime_substr_builtin args) := by
  match args with
  | [text, start] =>
    exact (h text (by simp)).string.bind fun _ => (h start (by simp)).numeric.bind fun _ =>
      .emit_bind trivial fun _ => .emit trivial
  | [text, start, length] =>
    refine (h text (by simp)).string.bind fun _ => (h start (by simp)).numeric.bind fun _ => ?_
    exact .emit_bind trivial fun _ => (h length (by simp)).numeric.bind fun _ =>
      .emit_bind trivial fun _ => .emit trivial
  | [] | [_] | _ :: _ :: _ :: _ :: _ => exact misuse_proper (harity.resolve_right (by simp))

theorem index_builtin_proper (harity : tolerated ∨ args.length = 2) :
    Proper access tolerated (lower_runtime_index_builtin args) := by
  match args with
  | [text, search] =>
    exact (captured_string_proper (h text (by simp))).bind fun _ =>
      (captured_string_proper (h search (by simp))).bind fun _ => .emit trivial
  | [] | [_] | _ :: _ :: _ :: _ => exact misuse_proper (harity.resolve_right (by simp))

theorem match_builtin_proper (harity : tolerated ∨ args.length = 2) :
    Proper access tolerated (lower_runtime_match_builtin args) := by
  match args with
  | [text, pattern] =>
    exact (captured_string_proper (h text (by simp))).bind fun _ =>
      (regex_pattern_proper (h pattern (by simp))).bind fun _ => .emit trivial
  | [] | [_] | _ :: _ :: _ :: _ => exact misuse_proper (harity.resolve_right (by simp))

omit h in
theorem rand_builtin_proper (expression : Expr) (harity : tolerated ∨ args.length = 0) :
    Proper access tolerated (lower_runtime_rand_builtin expression args) := by
  match args with
  | [] => exact performs_bind (.emit trivial)
  | _ :: _ => exact misuse_proper (harity.resolve_right (by simp))

theorem srand_builtin_proper (harity : tolerated ∨ args.length ≤ 1) :
    Proper access tolerated (lower_runtime_srand_builtin args) := by
  match args with
  | [] => exact .emit trivial
  | [argument] => exact (h argument (by simp)).numeric.bind fun _ => .emit trivial
  | _ :: _ :: _ => exact misuse_proper (harity.resolve_right (by simp))

theorem system_builtin_proper (expression : Expr) (harity : tolerated ∨ args.length = 1) :
    Proper access tolerated (lower_runtime_system_builtin expression args) := by
  match args with
  | [argument] =>
    exact (captured_string_proper (h argument (by simp))).bind fun _ => performs_bind (.emit trivial)
  | [] | _ :: _ :: _ => exact misuse_proper (harity.resolve_right (by simp))

omit h in
theorem replacement_proper {replacement : Lowered V} (h : replacement.Proper access tolerated) :
    Proper access tolerated (lower_runtime_replacement replacement) := by
  unfold lower_runtime_replacement
  split
  · exact h.string
  · exact captured_string_proper h

omit h in
theorem substitution_proper {expression : Expr} {global_replace : Bool}
    {pattern_ptr replacement_ptr target_value : V .ptr} {target : LoweredLValue V}
    (htarget : target.Proper access tolerated) :
    Proper access tolerated (lower_runtime_substitution state expression global_replace pattern_ptr replacement_ptr
      target_value target) := by
  refine .emit_bind trivial fun _ => .emit_bind trivial fun _ => .emit_bind trivial fun _ => ?_
  refine (capture_string_proper _).bind fun _ => performs_bind ?_
  exact (assign_string_lvalue_proper htarget _).bind fun _ => trivial

theorem substitute_builtin_proper (expression : Expr) {target_lvalue : Option (LoweredLValue V)}
    (htarget : ∀ target ∈ target_lvalue, target.Proper access tolerated) (global_replace : Bool)
    (harity : tolerated ∨ args.length = 2 ∨ args.length = 3 ∧ target_lvalue.isSome) :
    Proper access tolerated
      (lower_runtime_substitute_builtin state expression args target_lvalue global_replace) := by
  match args with
  | [] | [_] | _ :: _ :: _ :: _ :: _ => exact misuse_proper (harity.resolve_right (by simp))
  | [pattern, replacement] =>
    refine (regex_pattern_proper (h pattern (by simp))).bind fun _ => ?_
    refine (replacement_proper (h replacement (by simp))).bind fun _ => ?_
    refine .emit_bind trivial fun _ => .emit_bind trivial fun _ => substitution_proper ?_
    exact .emit_bind trivial fun _ => .emit trivial
  | [pattern, replacement, target] =>
    refine (regex_pattern_proper (h pattern (by simp))).bind fun _ => ?_
    refine (replacement_proper (h replacement (by simp))).bind fun _ => ?_
    cases target_lvalue with
    | none => exact misuse_proper (harity.resolve_right (by simp))
    | some target_lvalue =>
      exact (captured_string_proper (h target (by simp))).bind fun _ =>
        substitution_proper (htarget target_lvalue rfl)

theorem case_builtin_proper (upper : Bool) (harity : tolerated ∨ args.length = 1) :
    Proper access tolerated (lower_runtime_case_builtin args upper) := by
  match args with
  | [argument] =>
    refine (captured_string_proper (h argument (by simp))).bind fun _ => ?_
    split
    · exact .emit trivial
    · exact .emit trivial
  | [] | _ :: _ :: _ => exact misuse_proper (harity.resolve_right (by simp))

omit h in
/-- What the number of an argument raises is raised again, unless there is a string to read. -/
theorem argument_number_proper {argument : Lowered V} (h : argument.Proper access tolerated)
    (string_value : V .ptr) :
    Proper access tolerated (lower_runtime_argument_number state argument string_value) := by
  refine ⟨h.numeric, fun message hmessage => ?_, fun _ => trivial⟩
  split
  · exact .emit trivial
  · exact hmessage

theorem format_arguments_proper (count : Nat) (arrays : V .arrays) (index : Nat) :
    Proper access tolerated (lower_runtime_format_arguments state count arrays index args) := by
  induction args generalizing index with
  | nil => trivial
  | cons argument rest ih =>
    have hargument := h argument List.mem_cons_self
    refine (captured_string_proper hargument).bind fun _ => (argument_number_proper hargument _).bind fun _ => ?_
    exact emit_void_bind trivial (ih (fun other hmem => h other (List.mem_cons_of_mem _ hmem)) _)

theorem formatted_proper (format_ptr : V .ptr) :
    Proper access tolerated (lower_runtime_formatted state format_ptr args) := by
  unfold lower_runtime_formatted
  split
  · exact .emit trivial
  · exact .emit_bind trivial fun _ => (format_arguments_proper h _ _ 0).bind fun _ => .emit trivial

theorem sprintf_builtin_proper (harity : tolerated ∨ 1 ≤ args.length) :
    Proper access tolerated (lower_runtime_sprintf_builtin state args) := by
  match args with
  | [] => exact misuse_proper (harity.resolve_right (by simp))
  | format :: arguments =>
    exact (captured_string_proper (h format List.mem_cons_self)).bind fun _ =>
      formatted_proper (fun other hmem => h other (List.mem_cons_of_mem _ hmem)) _

theorem argument_strings_proper :
    Proper access tolerated (lower_runtime_argument_strings state args) := by
  induction args with
  | nil => trivial
  | cons argument rest ih =>
    refine (argument_string_proper (h argument List.mem_cons_self)).bind fun _ => ?_
    exact (ih fun other hmem => h other (List.mem_cons_of_mem _ hmem)).bind fun _ => trivial

omit h in
theorem missing_arguments_proper (missing : Nat) :
    Proper access tolerated (lower_runtime_missing_arguments missing : Code V (List (V .ptr))) := by
  induction missing with
  | zero => trivial
  | succ missing ih => exact (constant_string_proper []).bind fun _ => ih.bind fun _ => trivial

theorem user_function_call_proper (expression : Expr) {function_name : Name}
    (harity : tolerated ∨ ∃ definition, state.function_def function_name = some definition ∧
      args.length ≤ definition.params.length) :
    Proper access tolerated (lower_runtime_user_function_call state expression function_name args) := by
  unfold lower_runtime_user_function_call
  split
  · rename_i hnone
    exact misuse_proper (harity.resolve_right fun ⟨definition, hsome, _⟩ => by
      rw [hnone] at hsome
      cases hsome)
  · rename_i definition hdefinition
    split
    · rename_i hmore
      refine misuse_proper (harity.resolve_right fun ⟨other, hsome, hle⟩ => ?_)
      rw [hdefinition] at hsome
      cases hsome
      omega
    · refine (argument_strings_proper h).bind fun _ => (missing_arguments_proper _).bind fun _ => ?_
      exact performs_bind (.emit trivial)

end Arguments

end State

end quawk
