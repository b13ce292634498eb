import Quawk.Semantics
import Quawk.StatementErrors

open StructuredCode.Code (Within generate bind_eq_error bind_eq_ok)

namespace quawk

variable {V : Ty → Type} {access : Name → Nat → Prop} {tolerated : Prop}

theorem both_ok {first second : Analysis Unit} (h : (first >>= fun _ => second) = .ok ()) :
    first = .ok () ∧ second = .ok () := by
  cases first with
  | error error => cases h
  | ok value => exact ⟨rfl, h⟩

namespace AnalysisScope

variable {scope : AnalysisScope}

/-- The checks of one call. -/
structure CallValid (scope : AnalysisScope) (function : Name) (args : List Expr) : Prop where
  call : scope.validate_call function args.length = .ok ()
  target : scope.validate_substitute_target function args = .ok ()

def CallsValid (scope : AnalysisScope) (calls : List (Name × List Expr)) : Prop :=
  ∀ call ∈ calls, scope.CallValid call.1 call.2

theorem callsValid_append {calls rest : List (Name × List Expr)} :
    scope.CallsValid (calls ++ rest) ↔ scope.CallsValid calls ∧ scope.CallsValid rest :=
  List.forall_mem_append

theorem callsValid_nil : scope.CallsValid [] := fun _ hmem => nomatch hmem

mutual

/-- An accepted expression is accepted in every position. -/
theorem expression_valid : (expression : Expr) → scope.validate_expression expression = .ok () →
    scope.CallsValid (calls_in_expression expression)
  | .binary left _ right, h => by
    obtain ⟨hleft, hright⟩ := both_ok h
    exact callsValid_append.mpr ⟨expression_valid left hleft, expression_valid right hright⟩
  | .array_index _ index extra_indexes, h => by
    obtain ⟨hindex, hextra⟩ := both_ok h
    exact callsValid_append.mpr ⟨expression_valid index hindex, expressions_valid extra_indexes hextra⟩
  | .conditional test if_true if_false, h => by
    obtain ⟨htest, h⟩ := both_ok h
    obtain ⟨htrue, hfalse⟩ := both_ok h
    exact callsValid_append.mpr ⟨callsValid_append.mpr ⟨expression_valid test htest, expression_valid if_true htrue⟩,
      expression_valid if_false hfalse⟩
  | .field index, h => expression_valid index h
  | .call function args, h => by
    obtain ⟨hcall, h⟩ := both_ok h
    obtain ⟨hargs, htarget⟩ := both_ok h
    exact List.forall_mem_cons.mpr ⟨⟨hcall, htarget⟩, expressions_valid args hargs⟩
  | .getline (some target) (some source), h => by
    obtain ⟨htarget, hsource⟩ := both_ok h
    exact callsValid_append.mpr ⟨lvalue_valid target htarget, expression_valid source hsource⟩
  | .getline (some target) none, h => lvalue_valid target h
  | .getline none (some source), h => expression_valid source h
  | .assign target _ value, h => by
    obtain ⟨htarget, hvalue⟩ := both_ok h
    exact callsValid_append.mpr ⟨lvalue_valid target htarget, expression_valid value hvalue⟩
  | .unary op operand, h => expression_valid operand (both_ok h).1
  | .postfix_op operand _, h => expression_valid operand (both_ok h).1
  | .getline none none, _ | .string_literal _, _ | .numeric_literal _, _ | .regex_literal _, _ | .name _, _
  | .field_at _, _ => callsValid_nil

theorem expressions_valid : (expressions : List Expr) → scope.validate_expressions expressions = .ok () →
    scope.CallsValid (calls_in_expressions expressions)
  | [], _ => callsValid_nil
  | expression :: rest, h => by
    obtain ⟨hfirst, hrest⟩ := both_ok h
    exact callsValid_append.mpr ⟨expression_valid expression hfirst, expressions_valid rest hrest⟩

theorem lvalue_valid : (target : LValue) → scope.validate_lvalue target = .ok () →
    scope.CallsValid (calls_in_lvalue target)
  | .name _, _ => callsValid_nil
  | .array _ subscripts, h => expressions_valid subscripts (both_ok h).2
  | .field index, h => expression_valid index h

end

theorem option_valid {value : Option Expr} (h : scope.validate_option value = .ok ()) :
    scope.CallsValid (calls_in_option value) := by
  cases value with
  | none => exact callsValid_nil
  | some value => exact expression_valid value h

section Context

variable {inside_function in_record_action : Bool}

/-- Where a statement at this depth of loops stands. -/
def place_of (inside_function : Bool) (loop_depth : Nat) : Surroundings := ⟨inside_function, decide (loop_depth ≠ 0)⟩

mutual

/-- An accepted statement has accepted calls, and none of its statements is out of place. -/
theorem statement_valid (hcontext : in_record_action = true → inside_function = false) : (statement : Stmt) →
    (loop_depth : Nat) →
    scope.validate_statement inside_function in_record_action statement loop_depth = .ok () →
    scope.CallsValid (calls_in_statement statement) ∧
      misplaced_in_statement statement (place_of inside_function loop_depth) = false
  | .assign target _ value, _, h => by
    obtain ⟨_, h⟩ := both_ok h
    obtain ⟨htarget, hvalue⟩ := both_ok h
    exact ⟨callsValid_append.mpr ⟨lvalue_valid target htarget, expression_valid value hvalue⟩, rfl⟩
  | .block statements, loop_depth, h => statements_valid hcontext statements loop_depth h
  | .break_stmt, loop_depth, h => by
    refine ⟨callsValid_nil, ?_⟩
    cases loop_depth with
    | zero => cases h
    | succ loop_depth => rfl
  | .continue_stmt, loop_depth, h => by
    refine ⟨callsValid_nil, ?_⟩
    cases loop_depth with
    | zero => cases h
    | succ loop_depth => rfl
  | .next, _, h => by
    refine ⟨callsValid_nil, ?_⟩
    cases in_record_action with
    | false => cases h
    | true => exact hcontext rfl
  | .nextfile, _, h => by
    refine ⟨callsValid_nil, ?_⟩
    cases in_record_action with
    | false => cases h
    | true => exact hcontext rfl
  | .delete target, _, h => ⟨lvalue_valid target h, rfl⟩
  | .if_stmt condition then_branch none, loop_depth, h => by
    obtain ⟨hcondition, hthen⟩ := both_ok h
    obtain ⟨hcalls, hplace⟩ := statement_valid hcontext then_branch loop_depth hthen
    exact ⟨callsValid_append.mpr ⟨expression_valid condition hcondition, hcalls⟩, hplace⟩
  | .if_stmt condition then_branch (some else_branch), loop_depth, h => by
    obtain ⟨hcondition, h⟩ := both_ok h
    obtain ⟨hthen, helse⟩ := both_ok h
    obtain ⟨hcalls_then, hplace_then⟩ := statement_valid hcontext then_branch loop_depth hthen
    obtain ⟨hcalls_else, hplace_else⟩ := statement_valid hcontext else_branch loop_depth helse
    exact ⟨callsValid_append.mpr ⟨expression_valid condition hcondition,
      callsValid_append.mpr ⟨hcalls_then, hcalls_else⟩⟩, Bool.or_eq_false_iff.mpr ⟨hplace_then, hplace_else⟩⟩
  | .while_stmt condition body, loop_depth, h => by
    obtain ⟨hcondition, hbody⟩ := both_ok h
    obtain ⟨hcalls, hplace⟩ := statement_valid hcontext body (loop_depth + 1) hbody
    exact ⟨callsValid_append.mpr ⟨expression_valid condition hcondition, hcalls⟩, hplace⟩
  | .do_while body condition, loop_depth, h => by
    obtain ⟨hbody, hcondition⟩ := both_ok h
    obtain ⟨hcalls, hplace⟩ := statement_valid hcontext body (loop_depth + 1) hbody
    exact ⟨callsValid_append.mpr ⟨hcalls, expression_valid condition hcondition⟩, hplace⟩
  | .for_stmt init condition update body, loop_depth, h => by
    obtain ⟨hinit, h⟩ := both_ok h
    obtain ⟨hcondition, h⟩ := both_ok h
    obtain ⟨hupdate, hbody⟩ := both_ok h
    obtain ⟨hcalls, hplace⟩ := statement_valid hcontext body (loop_depth + 1) hbody
    exact ⟨callsValid_append.mpr ⟨expressions_valid init hinit, callsValid_append.mpr ⟨option_valid hcondition,
      callsValid_append.mpr ⟨expressions_valid update hupdate, hcalls⟩⟩⟩, hplace⟩
  | .for_in name iterable body, loop_depth, h => by
    obtain ⟨_, h⟩ := both_ok h
    obtain ⟨hiterable, h⟩ := both_ok h
    obtain ⟨_, hbody⟩ := both_ok h
    obtain ⟨hcalls, hplace⟩ := statement_valid hcontext body (loop_depth + 1) hbody
    exact ⟨callsValid_append.mpr ⟨expression_valid iterable hiterable, hcalls⟩, hplace⟩
  | .print arguments redirect, _, h => by
    obtain ⟨harguments, hredirect⟩ := both_ok h
    exact ⟨callsValid_append.mpr ⟨expressions_valid arguments harguments, option_valid hredirect⟩, rfl⟩
  | .printf arguments redirect, _, h => by
    obtain ⟨harguments, hredirect⟩ := both_ok h
    exact ⟨callsValid_append.mpr ⟨expressions_valid arguments harguments, option_valid hredirect⟩, rfl⟩
  | .expr value, _, h => ⟨expression_valid value h, rfl⟩
  | .exit value, _, h => ⟨option_valid h, rfl⟩
  | .return_stmt value, _, h => by
    obtain ⟨hplace, hvalue⟩ := both_ok h
    refine ⟨option_valid hvalue, ?_⟩
    cases inside_function with
    | false => cases hplace
    | true => rfl

theorem statements_valid (hcontext : in_record_action = true → inside_function = false) : (statements : List Stmt) →
    (loop_depth : Nat) →
    scope.validate_statements inside_function in_record_action statements loop_depth = .ok () →
    scope.CallsValid (calls_in_statements statements) ∧
      misplaced_in_statements statements (place_of inside_function loop_depth) = false
  | [], _, _ => ⟨callsValid_nil, rfl⟩
  | statement :: rest, loop_depth, h => by
    obtain ⟨hfirst, hrest⟩ := both_ok h
    obtain ⟨hcalls, hplace⟩ := statement_valid hcontext statement loop_depth hfirst
    obtain ⟨hcalls_rest, hplace_rest⟩ := statements_valid hcontext rest loop_depth hrest
    exact ⟨callsValid_append.mpr ⟨hcalls, hcalls_rest⟩, Bool.or_eq_false_iff.mpr ⟨hplace, hplace_rest⟩⟩

end

end Context

theorem pattern_valid : (pattern : Pattern) → scope.validate_pattern pattern = .ok () →
    scope.CallsValid (calls_in_pattern pattern)
  | .expr test, h => expression_valid test h
  | .range left right, h => by
    obtain ⟨hleft, hright⟩ := both_ok h
    exact callsValid_append.mpr ⟨pattern_valid left hleft, pattern_valid right hright⟩
  | .begin_pattern, _ | .end_pattern, _ => callsValid_nil

/-- A valid call is to a function of the program or to a builtin with the arguments it takes. -/
theorem CallValid.function_or_builtin {function : Name} {args : List Expr} (h : scope.CallValid function args) :
    scope.is_function function = true ∨
      builtin_accepts_arity function args.length = true ∧
        (function = "sub" ∨ function = "gsub" → args.length = 3 → (substitute_target args).isSome) := by
  obtain ⟨hcall, htarget⟩ := h
  unfold validate_call at hcall
  split at hcall
  · exact .inl ‹_›
  · rename_i hfunction
    right
    split_ifs at hcall with hbuiltin harity
    refine ⟨by simpa using harity, fun hsub hlength => ?_⟩
    unfold validate_substitute_target at htarget
    split_ifs at htarget with hmissing
    by_contra hnone
    exact hmissing ⟨by simpa using hfunction, hsub, hlength, by simpa using hnone⟩

end AnalysisScope

/-- What the analysis does not look at in a call: the arguments of a user function, and those of a
builtin that a user function has the name of. -/
structure Passable (function_defs : List FunctionDef) (function : Name) (args : List Expr) : Prop where
  params : function ≠ "length" → ∀ definition ∈ function_defs, definition.name = function →
    args.length ≤ definition.params.length
  builtin : function ∈ BUILTINS_FIRST → (∃ definition ∈ function_defs, definition.name = function) →
    builtin_accepts_arity function args.length ∧
      (function = "sub" ∨ function = "gsub" → args.length = 3 → (substitute_target args).isSome)

theorem Passable.callable {scope : AnalysisScope} {function : Name} {args : List Expr}
    (h : Passable scope.functions function args) (hvalid : scope.CallValid function args) :
    Callable scope.functions function args := by
  have hfunction : scope.is_function function = true ↔ ∃ definition ∈ scope.functions, definition.name = function := by
    simp [AnalysisScope.is_function]
  refine ⟨fun hbuiltin => ?_, fun hsub hlength => ?_, h.params⟩
  · obtain huser | hchecked := hvalid.function_or_builtin
    · obtain hfirst | hnone := hbuiltin
      · exact (h.builtin hfirst (hfunction.mp huser)).1
      · obtain ⟨definition, hmem, hname⟩ := hfunction.mp huser
        exact absurd hname (hnone definition hmem)
    · exact hchecked.1
  · obtain huser | hchecked := hvalid.function_or_builtin
    · have hfirst : function ∈ BUILTINS_FIRST := by
        obtain rfl | rfl := hsub <;> simp [BUILTINS_FIRST, NUMERIC_BUILTINS_FIRST]
      exact (h.builtin hfirst (hfunction.mp huser)).2 hsub hlength
    · exact hchecked.2 hsub hlength

/-- Nothing in the program is left unchecked that lowering relies on: its calls, and the calls in
the pattern of a rule without an action, which the analysis does not visit. -/
structure Program.Covered (program : Program) : Prop where
  calls : ∀ item ∈ program.items, ∀ call ∈ calls_in_item item, Passable program.function_defs call.1 call.2
  patterns : ∀ pattern, .pattern_action (some pattern) none ∈ program.items → ∀ call ∈ calls_in_pattern pattern,
    Callable program.function_defs call.1 call.2

theorem validate_items_mem {functions : List FunctionDef} {items : List Item}
    (h : validate_items functions items = .ok ()) : ∀ item ∈ items, validate_item functions item = .ok () := by
  induction items with
  | nil => exact fun _ hmem => nomatch hmem
  | cons item rest ih =>
    obtain ⟨hfirst, hrest⟩ := both_ok h
    exact List.forall_mem_cons.mpr ⟨hfirst, ih hrest⟩

/-- Without duplicates the functions collected are those lowering finds. -/
theorem collect_functions_eq {items : List Item} {functions result : List FunctionDef}
    (h : collect_functions items functions = .ok result) :
    result = (items.filterMap Item.definition).foldl insert_definition functions := by
  induction items generalizing functions with
  | nil =>
    cases h
    rfl
  | cons item rest ih =>
    cases item with
    | pattern_action pattern action => exact ih h
    | function definition =>
      unfold collect_functions at h
      split at h
      · cases h
      · rename_i hnew
        obtain ⟨_, _, h⟩ := bind_eq_ok h
        have hinsert : insert_definition functions definition = functions ++ [definition] := if_neg hnew
        rw [ih h, ← hinsert]
        rfl

/-- An accepted item: its calls are valid, except in the pattern of a rule without an action, and
no statement of it is out of place. -/
theorem item_valid {functions : List FunctionDef} {item : Item} (h : validate_item functions item = .ok ()) :
    misplaced_in_item item = false ∧
      ((∃ pattern, item = .pattern_action pattern none) ∨
        ∀ call ∈ calls_in_item item, ∃ params, AnalysisScope.CallValid ⟨functions, params⟩ call.1 call.2) := by
  match item with
  | .function definition =>
    obtain ⟨hcalls, hplace⟩ := AnalysisScope.statements_valid (by simp) definition.body 0 h
    exact ⟨hplace, .inr fun call hmem => ⟨_, hcalls call hmem⟩⟩
  | .pattern_action pattern none => exact ⟨rfl, .inl ⟨pattern, rfl⟩⟩
  | .pattern_action none (some action) =>
    obtain ⟨hcalls, hplace⟩ := AnalysisScope.statements_valid (by simp) action 0 h
    exact ⟨hplace, .inr fun call hmem => ⟨_, hcalls call hmem⟩⟩
  | .pattern_action (some pattern) (some action) =>
    obtain ⟨hpattern, haction⟩ := both_ok h
    obtain ⟨hcalls, hplace⟩ := AnalysisScope.statements_valid (by simp) action 0 haction
    refine ⟨hplace, .inr fun call hmem => ⟨none, ?_⟩⟩
    obtain hmem | hmem := List.mem_append.mp hmem
    · exact AnalysisScope.pattern_valid pattern hpattern call hmem
    · exact hcalls call hmem

/-- Every call of an accepted program that is covered is one lowering can rely on. -/
theorem accepted_calls {program : Program} {functions : List FunctionDef} (haccepted : analyze program = .ok functions)
    (hcovered : program.Covered) : ∀ item ∈ program.items,
    misplaced_in_item item = false ∧
      ∀ call ∈ calls_in_item item, Callable program.function_defs call.1 call.2 := by
  obtain ⟨collected, hcollect, haccepted⟩ := bind_eq_ok haccepted
  obtain ⟨_, hvalidate, _⟩ := bind_eq_ok haccepted
  obtain rfl : collected = program.function_defs := collect_functions_eq hcollect
  intro item hitem
  obtain ⟨hplace, hpattern | hvalid⟩ := item_valid (validate_items_mem hvalidate item hitem)
  · refine ⟨hplace, fun call hmem => ?_⟩
    obtain ⟨pattern, rfl⟩ := hpattern
    cases pattern with
    | none => cases hmem
    | some pattern =>
      have hmem' : call ∈ calls_in_pattern pattern := by simpa [calls_in_item] using hmem
      exact hcovered.patterns pattern hitem call hmem'
  · refine ⟨hplace, fun call hmem => ?_⟩
    obtain ⟨params, hcall⟩ := hvalid call hmem
    exact @Passable.callable ⟨program.function_defs, params⟩ _ _ (hcovered.calls item hitem call hmem) hcall

def RecordBlock.generate : RecordBlock (fun _ => Unit) → Except (Option String) Unit
  | .always action => action.generate
  | .on_match _ condition action => condition.generate >>= fun _ => action.generate
  | .on_range _ active _ _ left_condition right_condition action =>
    active.generate >>= fun _ => action.generate >>= fun _ => right_condition.generate >>= fun _ =>
      left_condition.generate >>= fun _ => .ok ()
  | .raise message => .error (some message)

/-- One part of a program after the other. -/
def generate_in_turn : List (Except (Option String) Unit) → Except (Option String) Unit
  | [] => .ok ()
  | part :: rest => part >>= fun _ => generate_in_turn rest

/-- Lowers a program: nothing, or the error that stops lowering. -/
def generate_program (program : Program) : Except (Option String) Unit :=
  match (lower_to_llvm_ir program : Lowering (ProgramBlocks fun _ => Unit)) with
  | .error message => .error (some message)
  | .ok blocks =>
    generate_in_turn (blocks.functions.map (fun function => function.body.generate) ++
      blocks.begin_actions.map Block.generate ++ blocks.record_items.map RecordBlock.generate ++
      blocks.end_actions.map Block.generate)

theorem RecordBlock.Proper.error_of_generate {block : RecordBlock fun _ => Unit} {message : String}
    (h : block.Proper access tolerated) (hgenerate : block.generate = .error (some message)) :
    is_misuse_error message → tolerated := by
  cases block with
  | always action => exact Block.Proper.error_of_generate h hgenerate
  | on_match test condition action =>
    obtain hcondition | ⟨_, _, haction⟩ := bind_eq_error hgenerate
    · exact Within.error_of_generate h.1 hcondition
    · exact Block.Proper.error_of_generate h.2 haction
  | on_range name active left right left_condition right_condition action =>
    obtain ⟨hactive, hleft, hright, haction⟩ := h
    obtain hstop | ⟨_, _, hgenerate⟩ := bind_eq_error hgenerate
    · exact Within.error_of_generate hactive hstop
    · obtain hstop | ⟨_, _, hgenerate⟩ := bind_eq_error hgenerate
      · exact Block.Proper.error_of_generate haction hstop
      · obtain hstop | ⟨_, _, hgenerate⟩ := bind_eq_error hgenerate
        · exact Within.error_of_generate hright hstop
        · obtain hstop | ⟨_, _, hdone⟩ := bind_eq_error hgenerate
          · exact Within.error_of_generate hleft hstop
          · cases hdone
  | raise other =>
    cases hgenerate
    exact h

theorem generate_in_turn_error {parts : List (Except (Option String) Unit)} {error : Option String}
    (h : generate_in_turn parts = .error error) : .error error ∈ parts := by
  induction parts with
  | nil => cases h
  | cons part rest ih =>
    obtain hpart | ⟨_, _, hrest⟩ := bind_eq_error h
    · exact hpart ▸ List.mem_cons_self
    · exact List.mem_cons_of_mem _ (ih hrest)

/-- The error that stops lowering a program is within the limits of its code. -/
theorem ProgramBlocks.Proper.error_of_generate {program : Program} {blocks : ProgramBlocks fun _ => Unit}
    (hlower : lower_to_llvm_ir program = .ok blocks) (h : blocks.Proper access tolerated) {message : String}
    (hgenerate : generate_program program = .error (some message)) : is_misuse_error message → tolerated := by
  unfold generate_program at hgenerate
  rw [hlower] at hgenerate
  have hmem := generate_in_turn_error hgenerate
  simp only [List.mem_append, List.mem_map] at hmem
  obtain ((⟨function, hfunction, herror⟩ | ⟨action, haction, herror⟩) | ⟨item, hitem, herror⟩) |
    ⟨action, haction, herror⟩ := hmem
  · exact (h.functions function hfunction).error_of_generate herror
  · exact (h.begin_actions action haction).error_of_generate herror
  · exact (h.record_items item hitem).error_of_generate herror
  · exact (h.end_actions action haction).error_of_generate herror

theorem normalize_item_error {phases : PhaseItems} {item : Item} {message : String}
    (h : normalize_item phases item = .error message) : is_misuse_error message = false := by
  match item with
  | .function _ | .pattern_action none (some _) | .pattern_action (some .begin_pattern) (some _)
  | .pattern_action (some .end_pattern) (some _) | .pattern_action (some (.expr _)) _
  | .pattern_action (some (.range _ _)) _ => cases h
  | .pattern_action none none | .pattern_action (some .begin_pattern) none
  | .pattern_action (some .end_pattern) none =>
    cases h
    exact not_misuse rfl rfl

theorem index_pattern_error {pattern : Pattern} {names : List Name} {message : String}
    (h : index_pattern pattern names = .error message) : is_misuse_error message = false := by
  induction pattern generalizing names with
  | begin_pattern | end_pattern =>
    cases h
    exact not_misuse rfl rfl
  | expr test => cases h
  | range left right ih_left ih_right =>
    obtain hleft | ⟨_, _, hright⟩ := bind_eq_error h
    · exact ih_left hleft
    · exact ih_right hright

theorem index_item_error {names : List Name} {item : Item} {message : String}
    (h : index_item item names = .error message) : is_misuse_error message = false := by
  match item with
  | .function _ | .pattern_action _ none | .pattern_action none (some _)
  | .pattern_action (some .begin_pattern) (some _) | .pattern_action (some .end_pattern) (some _)
  | .pattern_action (some (.expr _)) (some _) => cases h
  | .pattern_action (some (.range left right)) (some action) =>
    obtain hpattern | ⟨_, _, hdone⟩ := bind_eq_error h
    · exact index_pattern_error hpattern
    · cases hdone

theorem foldlM_error {α β : Type} {step : β → α → Lowering β} {message : String}
    (hstep : ∀ value item, step value item = .error message → is_misuse_error message = false) {items : List α}
    {value : β} (h : items.foldlM step value = .error message) : is_misuse_error message = false := by
  induction items generalizing value with
  | nil => cases h
  | cons item rest ih =>
    rw [List.foldlM_cons] at h
    obtain hitem | ⟨_, _, hrest⟩ := bind_eq_error h
    · exact hstep value item hitem
    · exact ih hrest

/-- Normalization raises no error of misuse. -/
theorem normalize_error {program : Program} {message : String}
    (h : normalize_program_for_lowering program = .error message) : is_misuse_error message = false := by
  obtain hphases | ⟨_, _, h⟩ := bind_eq_error h
  · exact foldlM_error (fun _ _ => normalize_item_error) hphases
  · obtain hindexes | ⟨_, _, hdone⟩ := bind_eq_error h
    · obtain hitems | ⟨_, _, hdone⟩ := bind_eq_error hindexes
      · exact foldlM_error (fun _ _ => index_item_error) hitems
      · cases hdone
    · cases hdone

theorem builtin_of_accepts {name : Name} {arg_count : Nat} (h : builtin_accepts_arity name arg_count = true) :
    is_builtin_function_name name = true := by
  unfold builtin_accepts_arity at h
  split at h
  · rename_i hname
    rw [hname]
    decide
  · split at h
    · rename_i allowed hlookup
      have hmem := List.lookup_eq_some_iff.mp hlookup
      obtain ⟨before, after, hsplit, _⟩ := hmem
      have hrule : (name, allowed) ∈ BUILTIN_ARITY_RULES := by simp [hsplit]
      have hnames : ∀ rule ∈ BUILTIN_ARITY_RULES, is_builtin_function_name rule.1 = true := by decide
      exact hnames _ hrule
    · cases h

/-- `function f(a) { return a } BEGIN { f(1) }` -/
def one_argument : Program :=
  ⟨[.function ⟨"f", ["a"], [.return_stmt (some (.name "a"))]⟩,
    .pattern_action (some .begin_pattern) (some [.expr (.call "f" [.numeric_literal ['1']])])]⟩

end quawk
