import Quawk.AnalysisSoundness

open StructuredCode.Code (bind_eq_ok bind_eq_error)

namespace quawk

/-- The name an lvalue assigns. -/
def lvalue_name : LValue → List Name
  | .name name | .array name _ => [name]
  | .field _ => []

/-- The name `++` and `--` assign. -/
def incremented_name (operand : Expr) : List Name :=
  match expression_to_lvalue operand with
  | some target => lvalue_name target
  | none => []

/-- The name a builtin assigns. -/
def builtin_target_name (function : Name) (args : List Expr) : List Name :=
  if function = "sub" ∨ function = "gsub" then
    match substitute_target args with
    | some target => lvalue_name target
    | none => []
  else if function = "split" then
    match args with
    | _ :: .name name :: _ => [name]
    | _ => []
  else []

section Names

-- Whether the forms that the analysis does not check are taken as well, and which names are functions.
variable (all : Bool) (is_function : Name → Bool)

mutual

/-- The names an expression assigns, in the order in which they are checked. -/
def assigned_in_expression : Expr → List Name
  | .binary left _ right => assigned_in_expression left ++ assigned_in_expression right
  | .array_index _ index extra_indexes => assigned_in_expression index ++ assigned_in_expressions extra_indexes
  | .conditional test if_true if_false =>
    assigned_in_expression test ++ (assigned_in_expression if_true ++ assigned_in_expression if_false)
  | .field index => assigned_in_expression index
  | .call function args =>
    assigned_in_expressions args ++ if all && !is_function function then builtin_target_name function args else []
  | .getline (some target) (some source) => assigned_in_lvalue target ++ assigned_in_expression source
  | .getline (some target) none => assigned_in_lvalue target
  | .getline none (some source) => assigned_in_expression source
  | .assign target _ value => assigned_in_lvalue target ++ assigned_in_expression value
  | .unary op operand =>
    assigned_in_expression operand ++ if all ∧ (op = .pre_inc ∨ op = .pre_dec) then incremented_name operand else []
  | .postfix_op operand _ => assigned_in_expression operand ++ if all then incremented_name operand else []
  | .getline none none | .string_literal _ | .numeric_literal _ | .regex_literal _ | .name _ | .field_at _ => []

def assigned_in_expressions : List Expr → List Name
  | [] => []
  | expression :: rest => assigned_in_expression expression ++ assigned_in_expressions rest

def assigned_in_lvalue : LValue → List Name
  | .name name => [name]
  | .array name subscripts => name :: assigned_in_expressions subscripts
  | .field index => assigned_in_expression index

end

def assigned_in_option : Option Expr → List Name
  | some expression => assigned_in_expression all is_function expression
  | none => []

mutual

/-- The names a statement assigns. -/
def assigned_in_statement : Stmt → List Name
  | .assign target _ value =>
    lvalue_name target ++ (assigned_in_lvalue all is_function target ++ assigned_in_expression all is_function value)
  | .block statements => assigned_in_statements statements
  | .delete target => assigned_in_lvalue all is_function target
  | .if_stmt condition then_branch none =>
    assigned_in_expression all is_function condition ++ assigned_in_statement then_branch
  | .if_stmt condition then_branch (some else_branch) =>
    assigned_in_expression all is_function condition ++
      (assigned_in_statement then_branch ++ assigned_in_statement else_branch)
  | .while_stmt condition body => assigned_in_expression all is_function condition ++ assigned_in_statement body
  | .do_while body condition => assigned_in_statement body ++ assigned_in_expression all is_function condition
  | .for_stmt init condition update body =>
    assigned_in_expressions all is_function init ++ (assigned_in_option all is_function condition ++
      (assigned_in_expressions all is_function update ++ assigned_in_statement body))
  | .for_in name iterable body =>
    name :: (assigned_in_expression all is_function iterable ++ assigned_in_statement body)
  | .print arguments redirect | .printf arguments redirect =>
    assigned_in_expressions all is_function arguments ++
      assigned_in_option all is_function (redirect.map OutputRedirect.target)
  | .expr value => assigned_in_expression all is_function value
  | .exit value | .return_stmt value => assigned_in_option all is_function value
  | .break_stmt | .continue_stmt | .next | .nextfile => []

def assigned_in_statements : List Stmt → List Name
  | [] => []
  | statement :: rest => assigned_in_statement statement ++ assigned_in_statements rest

end

def assigned_in_pattern : Pattern → List Name
  | .expr test => assigned_in_expression all is_function test
  | .range left right => assigned_in_pattern left ++ assigned_in_pattern right
  | .begin_pattern | .end_pattern => []

/-- The names an item assigns; the pattern of a rule without an action is not checked. -/
def assigned_in_item : Item → List Name
  | .function definition => assigned_in_statements all is_function definition.body
  | .pattern_action none (some action) => assigned_in_statements all is_function action
  | .pattern_action (some pattern) (some action) =>
    assigned_in_pattern all is_function pattern ++ assigned_in_statements all is_function action
  | .pattern_action (some pattern) none => if all then assigned_in_pattern all is_function pattern else []
  | .pattern_action none none => []

end Names

section Subset

variable {is_function : Name → Bool}

theorem append_mono {first second left right : List Name} (hleft : first ⊆ left) (hright : second ⊆ right) :
    first ++ second ⊆ left ++ right :=
  List.append_subset.mpr ⟨List.subset_append_of_subset_left _ hleft, List.subset_append_of_subset_right _ hright⟩

mutual

theorem expression_subset : (expression : Expr) →
    assigned_in_expression false is_function expression ⊆ assigned_in_expression true is_function expression
  | .binary left _ right => append_mono (expression_subset left) (expression_subset right)
  | .array_index _ index extra_indexes => append_mono (expression_subset index) (expressions_subset extra_indexes)
  | .conditional test if_true if_false =>
    append_mono (expression_subset test) (append_mono (expression_subset if_true) (expression_subset if_false))
  | .field index => expression_subset index
  | .call _ args => append_mono (expressions_subset args) (List.nil_subset _)
  | .getline (some target) (some source) => append_mono (lvalue_subset target) (expression_subset source)
  | .getline (some target) none => lvalue_subset target
  | .getline none (some source) => expression_subset source
  | .assign target _ value => append_mono (lvalue_subset target) (expression_subset value)
  | .unary _ operand => append_mono (expression_subset operand) (by simp)
  | .postfix_op operand _ => append_mono (expression_subset operand) (by simp)
  | .getline none none | .string_literal _ | .numeric_literal _ | .regex_literal _ | .name _ | .field_at _ =>
    List.Subset.refl _

theorem expressions_subset : (expressions : List Expr) →
    assigned_in_expressions false is_function expressions ⊆ assigned_in_expressions true is_function expressions
  | [] => List.Subset.refl _
  | expression :: rest => append_mono (expression_subset expression) (expressions_subset rest)

theorem lvalue_subset : (target : LValue) →
    assigned_in_lvalue false is_function target ⊆ assigned_in_lvalue true is_function target
  | .name _ => List.Subset.refl _
  | .array _ subscripts => List.cons_subset_cons _ (expressions_subset subscripts)
  | .field index => expression_subset index

end

theorem option_subset (value : Option Expr) :
    assigned_in_option false is_function value ⊆ assigned_in_option true is_function value := by
  cases value with
  | none => exact List.Subset.refl _
  | some expression => exact expression_subset expression

mutual

theorem statement_subset : (statement : Stmt) →
    assigned_in_statement false is_function statement ⊆ assigned_in_statement true is_function statement
  | .assign target _ value =>
    append_mono (List.Subset.refl _) (append_mono (lvalue_subset target) (expression_subset value))
  | .block statements => statements_subset statements
  | .delete target => lvalue_subset target
  | .if_stmt condition then_branch none => append_mono (expression_subset condition) (statement_subset then_branch)
  | .if_stmt condition then_branch (some else_branch) =>
    append_mono (expression_subset condition)
      (append_mono (statement_subset then_branch) (statement_subset else_branch))
  | .while_stmt condition body => append_mono (expression_subset condition) (statement_subset body)
  | .do_while body condition => append_mono (statement_subset body) (expression_subset condition)
  | .for_stmt init condition update body =>
    append_mono (expressions_subset init) (append_mono (option_subset condition)
      (append_mono (expressions_subset update) (statement_subset body)))
  | .for_in _ iterable body =>
    List.cons_subset_cons _ (append_mono (expression_subset iterable) (statement_subset body))
  | .print arguments redirect | .printf arguments redirect =>
    append_mono (expressions_subset arguments) (option_subset _)
  | .expr value => expression_subset value
  | .exit value | .return_stmt value => option_subset value
  | .break_stmt | .continue_stmt | .next | .nextfile => List.Subset.refl _

theorem statements_subset : (statements : List Stmt) →
    assigned_in_statements false is_function statements ⊆ assigned_in_statements true is_function statements
  | [] => List.Subset.refl _
  | statement :: rest => append_mono (statement_subset statement) (statements_subset rest)

end

theorem pattern_subset : (pattern : Pattern) →
    assigned_in_pattern false is_function pattern ⊆ assigned_in_pattern true is_function pattern
  | .expr test => expression_subset test
  | .range left right => append_mono (pattern_subset left) (pattern_subset right)
  | .begin_pattern | .end_pattern => List.Subset.refl _

theorem item_subset (item : Item) :
    assigned_in_item false is_function item ⊆ assigned_in_item true is_function item := by
  match item with
  | .function definition => exact statements_subset definition.body
  | .pattern_action none (some action) => exact statements_subset action
  | .pattern_action (some pattern) (some action) => exact append_mono (pattern_subset pattern) (statements_subset action)
  | .pattern_action (some _) none => exact List.nil_subset _
  | .pattern_action none none => exact List.Subset.refl _

end Subset

/-- The scope in which an item is analyzed. -/
def Item.scope (functions : List FunctionDef) : Item → AnalysisScope
  | .function definition => ⟨functions, some definition.params⟩
  | .pattern_action _ _ => ⟨functions, none⟩

/-- The name of a function that no parameter hides. -/
def AnalysisScope.Forbidden (scope : AnalysisScope) (name : Name) : Prop :=
  scope.is_function name = true ∧ scope.is_local_name name = false

/-- Some form assigns the name of a function; with `all`, also a form that is not checked. -/
def Program.AssignsFunction (all : Bool) (program : Program) : Prop :=
  ∃ item ∈ program.items, ∃ name ∈ assigned_in_item all (item.scope program.function_defs).is_function item,
    (item.scope program.function_defs).Forbidden name

/-- The checks of an item where all of these names are local, so that none of them is forbidden. -/
def validate_item_with_locals (functions : List FunctionDef) (names : List Name) : Item → Analysis Unit
  | .function definition => AnalysisScope.validate_action ⟨functions, some names⟩ true false definition.body
  | .pattern_action none (some action) => AnalysisScope.validate_action ⟨functions, some names⟩ false true action
  | .pattern_action (some pattern) (some action) => do
    AnalysisScope.validate_pattern ⟨functions, some names⟩ pattern
    AnalysisScope.validate_action ⟨functions, some names⟩ false (is_record_action pattern) action
  | .pattern_action _ none => .ok ()

/-- The names an item assigns in checked forms. -/
def Item.checked_names (functions : List FunctionDef) (item : Item) : List Name :=
  assigned_in_item false (item.scope functions).is_function item

/-- The program has an error that is not the assignment of a function name. -/
def Program.HasOtherError (program : Program) : Prop :=
  (∃ error, collect_functions program.items [] = .error error) ∨
    ∃ item ∈ program.items, ∃ error,
      validate_item_with_locals program.function_defs (item.checked_names program.function_defs) item = .error error

namespace AnalysisScope

/-- A check with and without the forbidden names: it is the same where none of the names is forbidden, fails where one
of them is, and without them no failure is about them. -/
structure Splits (scope : AnalysisScope) (names : List Name) (check other : Analysis Unit) : Prop where
  same : (∀ name ∈ names, ¬scope.Forbidden name) → check = other
  fails : (∃ name ∈ names, scope.Forbidden name) → ∃ error, check = .error error
  code : ∀ error, other = .error error → error.code ≠ .ASSIGN_TO_FUNCTION_NAME

variable {scope : AnalysisScope}

theorem Splits.bind {names more : List Name} {check other next next_other : Analysis Unit}
    (h : scope.Splits names check other) (hnext : scope.Splits more next next_other) :
    scope.Splits (names ++ more) (check >>= fun _ => next) (other >>= fun _ => next_other) := by
  constructor
  · intro hfree
    rw [h.same fun name hmem => hfree name (List.mem_append_left _ hmem),
      hnext.same fun name hmem => hfree name (List.mem_append_right _ hmem)]
  · rintro ⟨name, hmem, hforbidden⟩
    cases hcheck : check with
    | error error => exact ⟨error, rfl⟩
    | ok value =>
      rcases List.mem_append.mp hmem with hfirst | hsecond
      · obtain ⟨error, herror⟩ := h.fails ⟨name, hfirst, hforbidden⟩
        rw [hcheck] at herror
        cases herror
      · exact hnext.fails ⟨name, hsecond, hforbidden⟩
  · intro error herror
    cases hother : other with
    | error first =>
      rw [hother] at herror
      cases herror
      exact h.code _ hother
    | ok value =>
      rw [hother] at herror
      exact hnext.code error herror

/-- A check that does not look at assigned names. -/
theorem Splits.plain {check : Analysis Unit} (h : ∀ error, check = .error error → error.code ≠ .ASSIGN_TO_FUNCTION_NAME) :
    scope.Splits [] check check :=
  ⟨fun _ => rfl, fun ⟨_, hmem, _⟩ => (nomatch hmem), h⟩

theorem Splits.ok : scope.Splits [] (.ok ()) (.ok ()) := .plain fun _ h => nomatch h

theorem Splits.require {condition : Bool} {error : SemanticError} (h : error.code ≠ .ASSIGN_TO_FUNCTION_NAME) :
    scope.Splits [] (require condition error) (require condition error) :=
  .plain fun other herror => by
    unfold quawk.require at herror
    split_ifs at herror
    cases herror
    exact h

theorem Splits.name {locals : List Name} {name : Name} (h : name ∈ locals) :
    scope.Splits [name] (scope.validate_assigned_name name)
      (AnalysisScope.validate_assigned_name ⟨scope.functions, some locals⟩ name) := by
  have hlocal : AnalysisScope.is_local_name ⟨scope.functions, some locals⟩ name = true := by
    simp [is_local_name, h]
  have hother : AnalysisScope.validate_assigned_name ⟨scope.functions, some locals⟩ name = .ok () := by
    simp [validate_assigned_name, hlocal, quawk.require]
  rw [hother]
  refine ⟨fun hfree => ?_, ?_, fun _ herror => nomatch herror⟩
  · have hnot := hfree name (List.mem_singleton.mpr rfl)
    unfold Forbidden at hnot
    unfold validate_assigned_name quawk.require
    cases hfunction : scope.is_function name <;> cases hname : scope.is_local_name name <;> simp_all
  · rintro ⟨other, hmem, hfunction, hname⟩
    obtain rfl := List.mem_singleton.mp hmem
    exact ⟨_, by simp [validate_assigned_name, quawk.require, hfunction, hname]; rfl⟩

theorem validate_call_code (function : Name) (arg_count : Nat) (error : SemanticError)
    (h : scope.validate_call function arg_count = .error error) : error.code ≠ .ASSIGN_TO_FUNCTION_NAME := by
  unfold validate_call at h
  split_ifs at h <;> cases h <;> simp

theorem validate_substitute_target_code (function : Name) (args : List Expr) (error : SemanticError)
    (h : scope.validate_substitute_target function args = .error error) : error.code ≠ .ASSIGN_TO_FUNCTION_NAME := by
  unfold validate_substitute_target at h
  split_ifs at h
  cases h
  simp

theorem Splits.increment (operand : Expr) :
    scope.Splits [] (validate_increment operand) (validate_increment operand) := .require (by simp)

section Locals

variable (scope : AnalysisScope) (locals : List Name)

/-- The names of the functions, where all of the given names are local. -/
abbrev with_locals : AnalysisScope := ⟨scope.functions, some locals⟩

variable {scope locals}

mutual

theorem expression_splits : (expression : Expr) →
    (∀ name ∈ assigned_in_expression false scope.is_function expression, name ∈ locals) →
    scope.Splits (assigned_in_expression false scope.is_function expression) (scope.validate_expression expression)
      ((scope.with_locals locals).validate_expression expression)
  | .binary left _ right, h => by
    obtain ⟨hleft, hright⟩ := List.forall_mem_append.mp h
    exact (expression_splits left hleft).bind (expression_splits right hright)
  | .array_index _ index extra_indexes, h => by
    obtain ⟨hindex, hextra⟩ := List.forall_mem_append.mp h
    exact (expression_splits index hindex).bind (expressions_splits extra_indexes hextra)
  | .conditional test if_true if_false, h => by
    obtain ⟨htest, hrest⟩ := List.forall_mem_append.mp h
    obtain ⟨htrue, hfalse⟩ := List.forall_mem_append.mp hrest
    exact (expression_splits test htest).bind ((expression_splits if_true htrue).bind (expression_splits if_false hfalse))
  | .field index, h => expression_splits index h
  | .call function args, h => by
    obtain ⟨hargs, -⟩ := List.forall_mem_append.mp h
    have hcall : scope.Splits [] (scope.validate_call function args.length)
        ((scope.with_locals locals).validate_call function args.length) := .plain (validate_call_code _ _)
    exact hcall.bind ((expressions_splits args hargs).bind (.plain (validate_substitute_target_code _ _)))
  | .getline (some target) (some source), h => by
    obtain ⟨htarget, hsource⟩ := List.forall_mem_append.mp h
    exact (lvalue_splits target htarget).bind (expression_splits source hsource)
  | .getline (some target) none, h => lvalue_splits target h
  | .getline none (some source), h => expression_splits source h
  | .assign target _ value, h => by
    obtain ⟨htarget, hvalue⟩ := List.forall_mem_append.mp h
    exact (lvalue_splits target htarget).bind (expression_splits value hvalue)
  | .unary op operand, h => by
    obtain ⟨hoperand, -⟩ := List.forall_mem_append.mp h
    refine (expression_splits operand hoperand).bind ?_
    by_cases hop : op = .pre_inc ∨ op = .pre_dec
    · simp only [if_pos hop]
      exact Splits.increment operand
    · simp only [if_neg hop]
      exact Splits.ok
  | .postfix_op operand _, h => by
    obtain ⟨hoperand, -⟩ := List.forall_mem_append.mp h
    exact (expression_splits operand hoperand).bind (Splits.increment operand)
  | .getline none none, _ | .string_literal _, _ | .numeric_literal _, _ | .regex_literal _, _ | .name _, _
  | .field_at _, _ => Splits.ok

theorem expressions_splits : (expressions : List Expr) →
    (∀ name ∈ assigned_in_expressions false scope.is_function expressions, name ∈ locals) →
    scope.Splits (assigned_in_expressions false scope.is_function expressions) (scope.validate_expressions expressions)
      ((scope.with_locals locals).validate_expressions expressions)
  | [], _ => Splits.ok
  | expression :: rest, h => by
    obtain ⟨hfirst, hrest⟩ := List.forall_mem_append.mp h
    exact (expression_splits expression hfirst).bind (expressions_splits rest hrest)

theorem lvalue_splits : (target : LValue) →
    (∀ name ∈ assigned_in_lvalue false scope.is_function target, name ∈ locals) →
    scope.Splits (assigned_in_lvalue false scope.is_function target) (scope.validate_lvalue target)
      ((scope.with_locals locals).validate_lvalue target)
  | .name name, h => Splits.name (h name (List.mem_singleton.mpr rfl))
  | .array name subscripts, h => by
    obtain ⟨hname, hsubscripts⟩ := List.forall_mem_cons.mp h
    exact (Splits.name hname).bind (expressions_splits subscripts hsubscripts)
  | .field index, h => expression_splits index h

end

theorem option_splits : (value : Option Expr) →
    (∀ name ∈ assigned_in_option false scope.is_function value, name ∈ locals) →
    scope.Splits (assigned_in_option false scope.is_function value) (scope.validate_option value)
      ((scope.with_locals locals).validate_option value)
  | some expression, h => expression_splits expression h
  | none, _ => Splits.ok

theorem statement_name_splits (target : LValue) (h : ∀ name ∈ lvalue_name target, name ∈ locals) :
    scope.Splits (lvalue_name target) (scope.validate_statement_name target)
      ((scope.with_locals locals).validate_statement_name target) := by
  cases target with
  | name name | array name _ => exact Splits.name (h name (List.mem_singleton.mpr rfl))
  | field index => exact Splits.ok

section Context

variable (inside_function in_record_action : Bool)

mutual

theorem statement_splits : (statement : Stmt) → (loop_depth : Nat) →
    (∀ name ∈ assigned_in_statement false scope.is_function statement, name ∈ locals) →
    scope.Splits (assigned_in_statement false scope.is_function statement)
      (scope.validate_statement inside_function in_record_action statement loop_depth)
      ((scope.with_locals locals).validate_statement inside_function in_record_action statement loop_depth)
  | .assign target _ value, _, h => by
    obtain ⟨hname, hrest⟩ := List.forall_mem_append.mp h
    obtain ⟨htarget, hvalue⟩ := List.forall_mem_append.mp hrest
    exact (statement_name_splits target hname).bind
      ((lvalue_splits target htarget).bind (expression_splits value hvalue))
  | .block statements, loop_depth, h => statements_splits statements loop_depth h
  | .break_stmt, loop_depth, _ | .continue_stmt, loop_depth, _ | .next, loop_depth, _ | .nextfile, loop_depth, _ =>
    Splits.require (by simp)
  | .delete target, _, h => lvalue_splits target h
  | .if_stmt condition then_branch none, loop_depth, h => by
    obtain ⟨hcondition, hthen⟩ := List.forall_mem_append.mp h
    exact (expression_splits condition hcondition).bind (statement_splits then_branch loop_depth hthen)
  | .if_stmt condition then_branch (some else_branch), loop_depth, h => by
    obtain ⟨hcondition, hrest⟩ := List.forall_mem_append.mp h
    obtain ⟨hthen, helse⟩ := List.forall_mem_append.mp hrest
    exact (expression_splits condition hcondition).bind ((statement_splits then_branch loop_depth hthen).bind
      (statement_splits else_branch loop_depth helse))
  | .while_stmt condition body, loop_depth, h => by
    obtain ⟨hcondition, hbody⟩ := List.forall_mem_append.mp h
    exact (expression_splits condition hcondition).bind (statement_splits body (loop_depth + 1) hbody)
  | .do_while body condition, loop_depth, h => by
    obtain ⟨hbody, hcondition⟩ := List.forall_mem_append.mp h
    exact (statement_splits body (loop_depth + 1) hbody).bind (expression_splits condition hcondition)
  | .for_stmt init condition update body, loop_depth, h => by
    obtain ⟨hinit, hrest⟩ := List.forall_mem_append.mp h
    obtain ⟨hcondition, hrest⟩ := List.forall_mem_append.mp hrest
    obtain ⟨hupdate, hbody⟩ := List.forall_mem_append.mp hrest
    exact (expressions_splits init hinit).bind ((option_splits condition hcondition).bind
      ((expressions_splits update hupdate).bind (statement_splits body (loop_depth + 1) hbody)))
  | .for_in name iterable body, loop_depth, h => by
    obtain ⟨hname, hrest⟩ := List.forall_mem_cons.mp h
    obtain ⟨hiterable, hbody⟩ := List.forall_mem_append.mp hrest
    have harray : scope.Splits [] _ _ := @Splits.require scope (scalar_name iterable).isSome
      ⟨"for-in iteration requires an array name", .INVALID_FOR_IN_ITERABLE⟩ (by simp)
    exact (Splits.name hname).bind ((expression_splits iterable hiterable).bind
      (harray.bind (statement_splits body (loop_depth + 1) hbody)))
  | .print arguments redirect, _, h | .printf arguments redirect, _, h => by
    obtain ⟨harguments, hredirect⟩ := List.forall_mem_append.mp h
    exact (expressions_splits arguments harguments).bind (option_splits _ hredirect)
  | .expr value, _, h => expression_splits value h
  | .exit value, _, h => option_splits value h
  | .return_stmt value, _, h => by
    have hinside : scope.Splits [] _ _ := @Splits.require scope inside_function
      ⟨"return is only valid inside a function", .RETURN_OUTSIDE_FUNCTION⟩ (by simp)
    exact hinside.bind (option_splits value h)

theorem statements_splits : (statements : List Stmt) → (loop_depth : Nat) →
    (∀ name ∈ assigned_in_statements false scope.is_function statements, name ∈ locals) →
    scope.Splits (assigned_in_statements false scope.is_function statements)
      (scope.validate_statements inside_function in_record_action statements loop_depth)
      ((scope.with_locals locals).validate_statements inside_function in_record_action statements loop_depth)
  | [], _, _ => Splits.ok
  | statement :: rest, loop_depth, h => by
    obtain ⟨hfirst, hrest⟩ := List.forall_mem_append.mp h
    exact (statement_splits statement loop_depth hfirst).bind (statements_splits rest loop_depth hrest)

end

end Context

theorem pattern_splits : (pattern : Pattern) →
    (∀ name ∈ assigned_in_pattern false scope.is_function pattern, name ∈ locals) →
    scope.Splits (assigned_in_pattern false scope.is_function pattern) (scope.validate_pattern pattern)
      ((scope.with_locals locals).validate_pattern pattern)
  | .expr test, h => expression_splits test h
  | .range left right, h => by
    obtain ⟨hleft, hright⟩ := List.forall_mem_append.mp h
    exact (pattern_splits left hleft).bind (pattern_splits right hright)
  | .begin_pattern, _ | .end_pattern, _ => Splits.ok

end Locals

end AnalysisScope

theorem item_splits (functions : List FunctionDef) (item : Item) :
    (item.scope functions).Splits (item.checked_names functions) (validate_item functions item)
      (validate_item_with_locals functions (item.checked_names functions) item) := by
  match item with
  | .function definition => exact AnalysisScope.statements_splits true false definition.body 0 fun _ hmem => hmem
  | .pattern_action none (some action) => exact AnalysisScope.statements_splits false true action 0 fun _ hmem => hmem
  | .pattern_action (some pattern) (some action) =>
    exact (AnalysisScope.pattern_splits pattern fun _ hmem => List.mem_append_left _ hmem).bind
      (AnalysisScope.statements_splits false (is_record_action pattern) action 0 fun _ hmem =>
        List.mem_append_right _ hmem)
  | .pattern_action (some pattern) none => exact AnalysisScope.Splits.ok
  | .pattern_action none none => exact AnalysisScope.Splits.ok

/-- The first error of the items is that of one of them. -/
theorem validate_items_error {functions : List FunctionDef} {items : List Item} :
    (∀ error, validate_items functions items = .error error →
      ∃ item ∈ items, validate_item functions item = .error error) ∧
    ((∃ item ∈ items, ∃ error, validate_item functions item = .error error) →
      ∃ error, validate_items functions items = .error error) := by
  induction items with
  | nil => exact ⟨fun _ h => (nomatch h), fun ⟨_, hmem, _⟩ => (nomatch hmem)⟩
  | cons item items ih =>
    rw [validate_items]
    cases hitem : validate_item functions item with
    | error first => exact ⟨fun error h => ⟨item, List.mem_cons_self, by cases h; exact hitem⟩, fun _ => ⟨first, rfl⟩⟩
    | ok value =>
      constructor
      · intro error h
        obtain ⟨other, hmem, hother⟩ := ih.1 error h
        exact ⟨other, List.mem_cons_of_mem _ hmem, hother⟩
      · rintro ⟨other, hmem, error, hother⟩
        rcases List.mem_cons.mp hmem with rfl | hmem
        · rw [hitem] at hother
          cases hother
        · exact ih.2 ⟨other, hmem, error, hother⟩

theorem validate_parameters_code (function : Name) (params seen_params : List Name) (error : SemanticError)
    (h : validate_parameters function params seen_params = .error error) : error.code ≠ .ASSIGN_TO_FUNCTION_NAME := by
  induction params generalizing seen_params with
  | nil => cases h
  | cons param params ih =>
    rw [validate_parameters] at h
    split_ifs at h
    · cases h
      simp
    · cases h
      simp
    · exact ih _ h

theorem collect_functions_code {items : List Item} {functions : List FunctionDef} (error : SemanticError)
    (h : collect_functions items functions = .error error) : error.code ≠ .ASSIGN_TO_FUNCTION_NAME := by
  induction items generalizing functions with
  | nil => cases h
  | cons item items ih =>
    cases item with
    | pattern_action pattern action => exact ih h
    | function definition =>
      rw [collect_functions] at h
      split_ifs at h
      · cases h
        simp
      · cases hdefinition : validate_function_definition definition with
        | error first =>
          rw [hdefinition] at h
          cases h
          exact validate_parameters_code _ _ _ _ hdefinition
        | ok value =>
          rw [hdefinition] at h
          exact ih h

/-- The analysis fails exactly if a checked form assigns the name of a function, or for another reason. -/
theorem analyze_error_iff (program : Program) :
    (∃ error, analyze program = .error error) ↔ program.AssignsFunction false ∨ program.HasOtherError := by
  have hsplits := item_splits program.function_defs
  unfold analyze
  cases hcollect : collect_functions program.items [] with
  | error error => exact iff_of_true ⟨error, rfl⟩ (.inr (.inl ⟨error, hcollect⟩))
  | ok functions =>
    obtain rfl : functions = program.function_defs := collect_functions_eq hcollect
    constructor
    · rintro ⟨error, h⟩
      cases hitems : validate_items program.function_defs program.items with
      | ok value =>
        change (validate_items program.function_defs program.items >>= fun _ => pure program.function_defs) = _ at h
        rw [hitems] at h
        cases h
      | error first =>
        obtain ⟨item, hmem, hitem⟩ := validate_items_error.1 first hitems
        by_cases hfree : ∀ name ∈ item.checked_names program.function_defs,
            ¬(item.scope program.function_defs).Forbidden name
        · exact .inr (.inr ⟨item, hmem, first, ((hsplits item).same hfree).symm.trans hitem⟩)
        · push Not at hfree
          exact .inl ⟨item, hmem, hfree⟩
    · intro h
      obtain ⟨error, herror⟩ : ∃ error, validate_items program.function_defs program.items = .error error := by
        rcases h with ⟨item, hmem, hforbidden⟩ | ⟨error, herror⟩ | ⟨item, hmem, error, herror⟩
        · obtain ⟨error, hitem⟩ := (hsplits item).fails hforbidden
          exact validate_items_error.2 ⟨item, hmem, error, hitem⟩
        · rw [hcollect] at herror
          cases herror
        · refine validate_items_error.2 ⟨item, hmem, ?_⟩
          by_cases hfree : ∀ name ∈ item.checked_names program.function_defs,
              ¬(item.scope program.function_defs).Forbidden name
          · exact ⟨error, ((hsplits item).same hfree).trans herror⟩
          · push Not at hfree
            exact (hsplits item).fails hfree
      change ∃ error, (validate_items program.function_defs program.items >>= fun _ => pure program.function_defs) = _
      rw [herror]
      exact ⟨error, rfl⟩

/-- The error about the name of a function is raised only where a checked form assigns one. -/
theorem analyze_assign_error {program : Program} {error : SemanticError} (h : analyze program = .error error)
    (hcode : error.code = .ASSIGN_TO_FUNCTION_NAME) : program.AssignsFunction false := by
  unfold analyze at h
  cases hcollect : collect_functions program.items [] with
  | error first =>
    rw [hcollect] at h
    cases h
    exact absurd hcode (collect_functions_code _ hcollect)
  | ok functions =>
    obtain rfl : functions = program.function_defs := collect_functions_eq hcollect
    rw [hcollect] at h
    change (validate_items program.function_defs program.items >>= fun _ => pure program.function_defs) = _ at h
    cases hitems : validate_items program.function_defs program.items with
    | ok value =>
      rw [hitems] at h
      cases h
    | error first =>
      rw [hitems] at h
      cases h
      obtain ⟨item, hmem, hitem⟩ := validate_items_error.1 _ hitems
      by_contra hnone
      have hfree : ∀ name ∈ item.checked_names program.function_defs,
          ¬(item.scope program.function_defs).Forbidden name :=
        fun name hname hforbidden => hnone ⟨item, hmem, name, hname, hforbidden⟩
      have hsplit := item_splits program.function_defs item
      exact hsplit.code _ ((hsplit.same hfree).symm.trans hitem) hcode

/-- A program that assigns the name of a function is refused exactly if it does so in a form that is checked, or has
another error; and the error about such a name is raised only where a form does assign one that no parameter hides. -/
theorem function_names_protected (program : Program) :
    ((program.AssignsFunction true → ∃ error, analyze program = .error error) ↔
      (program.AssignsFunction true → program.AssignsFunction false ∨ program.HasOtherError)) ∧
    ∀ error, analyze program = .error error → error.code = .ASSIGN_TO_FUNCTION_NAME →
      program.AssignsFunction true := by
  refine ⟨forall_congr' fun _ => analyze_error_iff program, fun error h hcode => ?_⟩
  obtain ⟨item, hmem, name, hname, hforbidden⟩ := analyze_assign_error h hcode
  exact ⟨item, hmem, name, item_subset item hname, hforbidden⟩

/-- `function f() { }` -/
def function_f : Item := .function ⟨"f", [], []⟩

/-- Next to `function f() { }` the item assigns to the function's name, and the program is accepted. -/
def AcceptedAssignment (item : Item) : Prop :=
  Program.AssignsFunction true ⟨[function_f, item]⟩ ∧ (analyze ⟨[function_f, item]⟩).isOk = true

/-- `BEGIN { f++ }`, `BEGIN { sub(/x/, "y", f) }`, `BEGIN { split("a", f) }` and the pattern `f = 1` without an
action. -/
theorem function_names_unprotected :
    AcceptedAssignment (.pattern_action (some .begin_pattern) (some [.expr (.postfix_op (.name "f") .post_inc)])) ∧
      AcceptedAssignment (.pattern_action (some .begin_pattern)
        (some [.expr (.call "sub" [.regex_literal ['/', 'x', '/'], .string_literal ['y'], .name "f"])])) ∧
      AcceptedAssignment (.pattern_action (some .begin_pattern)
        (some [.expr (.call "split" [.string_literal ['a'], .name "f"])])) ∧
      AcceptedAssignment (.pattern_action (some (.expr (.assign (.name "f") .plain (.numeric_literal ['1'])))) none) := by
  refine ⟨⟨⟨_, List.mem_cons_of_mem _ List.mem_cons_self, "f", ?_, by decide, by decide⟩, by decide⟩,
    ⟨⟨_, List.mem_cons_of_mem _ List.mem_cons_self, "f", ?_, by decide, by decide⟩, by decide⟩,
    ⟨⟨_, List.mem_cons_of_mem _ List.mem_cons_self, "f", ?_, by decide, by decide⟩, by decide⟩,
    ⟨⟨_, List.mem_cons_of_mem _ List.mem_cons_self, "f", ?_, by decide, by decide⟩, by decide⟩⟩
  all_goals decide

end quawk
