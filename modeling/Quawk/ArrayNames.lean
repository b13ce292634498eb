import Quawk.ArrayRefinement
import Quawk.LowerBuiltins
import Quawk.Normalization

open StructuredCode.Code (emit)

namespace quawk

/-- The forms in which a name is used as an array. -/
inductive ArrayForm where
  | subscripted | for_in_source | deleted | split_target | membership
  deriving DecidableEq, Repr

/-- The places that the collection of array names does not enter. -/
inductive Unentered where
  | getline | exit | formal_subscript | bare_pattern | inner_range
  deriving DecidableEq, Repr

/-- A use of a name as an array, and the unentered places around it. -/
structure ArrayUse where
  name : Name
  form : ArrayForm
  inside : List Unentered
  deriving DecidableEq, Repr

/-- The uses that the collection comes by: a subscript or the source of a `for` loop, at no unentered place. -/
def ArrayUse.visited (use : ArrayUse) : Bool :=
  (use.form = .subscripted || use.form = .for_in_source) && use.inside.isEmpty

section Uses

-- The formals that are in scope; a formal is no array of the program.
variable (formals : List Name)

def array_use (inside : List Unentered) (form : ArrayForm) (name : Name) : List ArrayUse :=
  if name ∈ formals then [] else [⟨name, form, inside⟩]

def subscript_place (name : Name) (inside : List Unentered) : List Unentered :=
  if name ∈ formals then .formal_subscript :: inside else inside

def membership_use (inside : List Unentered) (op : BinaryOp) (right : Expr) : List ArrayUse :=
  match op, right with
  | .in_op, .name name => array_use formals inside .membership name
  | _, _ => []

def split_use (inside : List Unentered) (function : Name) (args : List Expr) : List ArrayUse :=
  match args with
  | _ :: .name name :: _ => if function = "split" then array_use formals inside .split_target name else []
  | _ => []

mutual

/-- The uses of arrays in an expression. -/
def uses_in_expression (inside : List Unentered) : Expr → List ArrayUse
  | .array_index array_name index extra_indexes =>
    array_use formals inside .subscripted array_name ++
      (uses_in_expression (subscript_place formals array_name inside) index ++
        uses_in_expressions (subscript_place formals array_name inside) extra_indexes)
  | .binary left op right =>
    uses_in_expression inside left ++ (uses_in_expression inside right ++ membership_use formals inside op right)
  | .conditional test if_true if_false =>
    uses_in_expression inside test ++ uses_in_expression inside if_true ++ uses_in_expression inside if_false
  | .assign target _ value => uses_in_lvalue inside target ++ uses_in_expression inside value
  | .unary _ operand | .postfix_op operand _ => uses_in_expression inside operand
  | .field index => uses_in_expression inside index
  | .call function args => uses_in_expressions inside args ++ split_use formals inside function args
  | .getline (some target) (some source) =>
    uses_in_lvalue (.getline :: inside) target ++ uses_in_expression (.getline :: inside) source
  | .getline (some target) none => uses_in_lvalue (.getline :: inside) target
  | .getline none (some source) => uses_in_expression (.getline :: inside) source
  | .getline none none | .string_literal _ | .numeric_literal _ | .regex_literal _ | .name _ | .field_at _ => []

def uses_in_expressions (inside : List Unentered) : List Expr → List ArrayUse
  | [] => []
  | expression :: rest => uses_in_expression inside expression ++ uses_in_expressions inside rest

def uses_in_lvalue (inside : List Unentered) : LValue → List ArrayUse
  | .name _ => []
  | .array name subscripts =>
    array_use formals inside .subscripted name ++ uses_in_expressions (subscript_place formals name inside) subscripts
  | .field index => uses_in_expression inside index

end

def uses_in_option (inside : List Unentered) : Option Expr → List ArrayUse
  | some expression => uses_in_expression formals inside expression
  | none => []

/-- The array that `delete` empties, or the array of the element it deletes. -/
def uses_in_deleted : LValue → List ArrayUse
  | .name name => array_use formals [] .deleted name
  | target => uses_in_lvalue formals [] target

/-- The array that a `for` loop goes through. -/
def uses_in_source : Expr → List ArrayUse
  | .name name => array_use formals [] .for_in_source name
  | source => uses_in_expression formals [] source

mutual

/-- The uses of arrays in a statement. -/
def uses_in_statement : Stmt → List ArrayUse
  | .assign target _ value => uses_in_lvalue formals [] target ++ uses_in_expression formals [] value
  | .expr value => uses_in_expression formals [] value
  | .block statements => uses_in_statements statements
  | .delete target => uses_in_deleted formals target
  | .if_stmt condition then_branch none => uses_in_expression formals [] condition ++ uses_in_statement then_branch
  | .if_stmt condition then_branch (some else_branch) =>
    uses_in_expression formals [] condition ++ uses_in_statement then_branch ++ uses_in_statement else_branch
  | .while_stmt condition body => uses_in_expression formals [] condition ++ uses_in_statement body
  | .do_while body condition => uses_in_statement body ++ uses_in_expression formals [] condition
  | .for_stmt init condition update body =>
    uses_in_expressions formals [] init ++ uses_in_option formals [] condition ++
      uses_in_expressions formals [] update ++ uses_in_statement body
  | .for_in _ iterable body => uses_in_source formals iterable ++ uses_in_statement body
  | .print arguments redirect | .printf arguments redirect =>
    uses_in_expressions formals [] arguments ++ uses_in_option formals [] (redirect.map OutputRedirect.target)
  | .exit value => uses_in_option formals [.exit] value
  | .return_stmt value => uses_in_option formals [] value
  | .break_stmt | .continue_stmt | .next | .nextfile => []

def uses_in_statements : List Stmt → List ArrayUse
  | [] => []
  | statement :: rest => uses_in_statement statement ++ uses_in_statements rest

end

end Uses

/-- The uses in a range pattern that is an end of another; the parser builds none. -/
def uses_in_inner_range (inside : List Unentered) : Pattern → List ArrayUse
  | .expr test => uses_in_expression [] inside test
  | .range left right => uses_in_inner_range inside left ++ uses_in_inner_range inside right
  | .begin_pattern | .end_pattern => []

def uses_in_endpoint (inside : List Unentered) : Pattern → List ArrayUse
  | .expr test => uses_in_expression [] inside test
  | pattern => uses_in_inner_range (.inner_range :: inside) pattern

def uses_in_pattern (inside : List Unentered) : Option Pattern → List ArrayUse
  | some (.expr test) => uses_in_expression [] inside test
  | some (.range left right) => uses_in_endpoint inside left ++ uses_in_endpoint inside right
  | _ => []

def uses_in_item : Item → List ArrayUse
  | .function definition => uses_in_statements definition.params definition.body
  | .pattern_action pattern none => uses_in_pattern [.bare_pattern] pattern
  | .pattern_action pattern (some action) => uses_in_pattern [] pattern ++ uses_in_statements [] action

/-- Where a program uses a name as an array, outside the scope of a formal of that name. -/
def Program.array_uses (program : Program) : List ArrayUse := program.items.flatMap uses_in_item

def visited_names (uses : List ArrayUse) : List Name := (uses.filter ArrayUse.visited).map ArrayUse.name

@[simp] theorem visited_names_nil : visited_names [] = [] := rfl

@[simp] theorem visited_names_append (first second : List ArrayUse) :
    visited_names (first ++ second) = visited_names first ++ visited_names second := by
  rw [visited_names, List.filter_append, List.map_append]
  rfl

theorem mem_visited_names {uses : List ArrayUse} {name : Name} :
    name ∈ visited_names uses ↔ ∃ use ∈ uses, use.visited ∧ use.name = name := by
  simp [visited_names, and_assoc]

section Visited

variable {formals : List Name}

theorem visited_array_use (inside : List Unentered) (form : ArrayForm) (name : Name) :
    visited_names (array_use formals inside form name) =
      if (form = .subscripted ∨ form = .for_in_source) ∧ inside = [] then add_name name formals else [] := by
  unfold array_use add_name visited_names
  by_cases hname : name ∈ formals <;> cases form <;> cases inside <;> simp [hname, ArrayUse.visited]

theorem visited_membership_use (inside : List Unentered) (op : BinaryOp) (right : Expr) :
    visited_names (membership_use formals inside op right) = [] := by
  unfold membership_use
  split
  · simp [visited_array_use]
  · rfl

theorem visited_split_use (inside : List Unentered) (function : Name) (args : List Expr) :
    visited_names (split_use formals inside function args) = [] := by
  unfold split_use
  split
  · split <;> simp [visited_array_use]
  · rfl

theorem subscript_place_ne_nil {inside : List Unentered} (h : inside ≠ []) (name : Name) :
    subscript_place formals name inside ≠ [] := by
  unfold subscript_place
  split
  · exact List.cons_ne_nil _ _
  · exact h

mutual

/-- Nothing is visited inside an unentered place. -/
theorem expression_unvisited : (expression : Expr) → {inside : List Unentered} → inside ≠ [] →
    visited_names (uses_in_expression formals inside expression) = []
  | .array_index array_name index extra_indexes, inside, h => by
    have hplace := @subscript_place_ne_nil formals inside h array_name
    simp [uses_in_expression, visited_array_use, h, expression_unvisited index hplace,
      expressions_unvisited extra_indexes hplace]
  | .binary left op right, inside, h => by
    simp [uses_in_expression, visited_membership_use, expression_unvisited left h, expression_unvisited right h]
  | .conditional test if_true if_false, inside, h => by
    simp [uses_in_expression, expression_unvisited test h, expression_unvisited if_true h,
      expression_unvisited if_false h]
  | .assign target _ value, inside, h => by
    simp [uses_in_expression, lvalue_unvisited target h, expression_unvisited value h]
  | .unary _ operand, inside, h | .postfix_op operand _, inside, h => by
    simp [uses_in_expression, expression_unvisited operand h]
  | .field index, inside, h => by simp [uses_in_expression, expression_unvisited index h]
  | .call function args, inside, h => by
    simp [uses_in_expression, visited_split_use, expressions_unvisited args h]
  | .getline (some target) (some source), inside, _ => by
    have hplace := List.cons_ne_nil Unentered.getline inside
    simp [uses_in_expression, lvalue_unvisited target hplace, expression_unvisited source hplace]
  | .getline (some target) none, inside, _ => by
    simp [uses_in_expression, lvalue_unvisited target (List.cons_ne_nil Unentered.getline inside)]
  | .getline none (some source), inside, _ => by
    simp [uses_in_expression, expression_unvisited source (List.cons_ne_nil Unentered.getline inside)]
  | .getline none none, _, _ | .string_literal _, _, _ | .numeric_literal _, _, _ | .regex_literal _, _, _
  | .name _, _, _ | .field_at _, _, _ => by simp [uses_in_expression]

theorem expressions_unvisited : (expressions : List Expr) → {inside : List Unentered} → inside ≠ [] →
    visited_names (uses_in_expressions formals inside expressions) = []
  | [], _, _ => rfl
  | expression :: rest, _, h => by
    simp [uses_in_expressions, expression_unvisited expression h, expressions_unvisited rest h]

theorem lvalue_unvisited : (target : LValue) → {inside : List Unentered} → inside ≠ [] →
    visited_names (uses_in_lvalue formals inside target) = []
  | .name _, _, _ => rfl
  | .array name subscripts, _, h => by
    simp [uses_in_lvalue, visited_array_use, h, expressions_unvisited subscripts (subscript_place_ne_nil h name)]
  | .field index, _, h => by simp [uses_in_lvalue, expression_unvisited index h]

end

theorem option_unvisited (value : Option Expr) {inside : List Unentered} (h : inside ≠ []) :
    visited_names (uses_in_option formals inside value) = [] := by
  cases value with
  | none => rfl
  | some expression => exact expression_unvisited expression h

/-- A use with a subscript is visited together with its subscripts, and neither is if the name is a formal. -/
theorem visited_subscripted {name : Name} {uses : List Unentered → List ArrayUse} {names : List Name}
    (hhidden : ∀ inside, inside ≠ [] → visited_names (uses inside) = []) (hvisited : visited_names (uses []) = names) :
    visited_names (array_use formals [] .subscripted name ++ uses (subscript_place formals name [])) =
      if name ∈ formals then [] else name :: names := by
  rw [visited_names_append, visited_array_use]
  by_cases hname : name ∈ formals
  · simp [hname, add_name, subscript_place, hhidden _ (List.cons_ne_nil Unentered.formal_subscript [])]
  · simp [hname, add_name, subscript_place, hvisited]

mutual

/-- The collection visits the uses that are at no unentered place. -/
theorem expression_visited : (expression : Expr) →
    visited_names (uses_in_expression formals [] expression) = array_names_in_expression formals expression
  | .array_index array_name index extra_indexes => by
    have hindex := expression_visited index
    have hextra := expressions_visited extra_indexes
    unfold uses_in_expression array_names_in_expression
    refine @visited_subscripted formals array_name
      (fun inside => uses_in_expression formals inside index ++ uses_in_expressions formals inside extra_indexes) _
      (fun inside h => ?_) ?_
    · simp [expression_unvisited index h, expressions_unvisited extra_indexes h]
    · simp [hindex, hextra]
  | .binary left op right => by
    simp [uses_in_expression, array_names_in_expression, visited_membership_use, expression_visited left,
      expression_visited right]
  | .conditional test if_true if_false => by
    simp [uses_in_expression, array_names_in_expression, expression_visited test, expression_visited if_true,
      expression_visited if_false]
  | .assign target _ value => by
    simp [uses_in_expression, array_names_in_expression, lvalue_visited target, expression_visited value]
  | .unary _ operand | .postfix_op operand _ => by
    simp [uses_in_expression, array_names_in_expression, expression_visited operand]
  | .field index => by simp [uses_in_expression, array_names_in_expression, expression_visited index]
  | .call function args => by
    simp [uses_in_expression, array_names_in_expression, visited_split_use, expressions_visited args]
  | .getline target source => by
    have hplace := List.cons_ne_nil Unentered.getline []
    cases target <;> cases source <;>
      simp [uses_in_expression, array_names_in_expression, lvalue_unvisited _ hplace, expression_unvisited _ hplace]
  | .string_literal _ | .numeric_literal _ | .regex_literal _ | .name _ | .field_at _ => by
    simp [uses_in_expression, array_names_in_expression]

theorem expressions_visited : (expressions : List Expr) →
    visited_names (uses_in_expressions formals [] expressions) = array_names_in_expressions formals expressions
  | [] => rfl
  | expression :: rest => by
    simp [uses_in_expressions, array_names_in_expressions, expression_visited expression, expressions_visited rest]

theorem lvalue_visited : (target : LValue) →
    visited_names (uses_in_lvalue formals [] target) = array_names_in_lvalue formals target
  | .name _ => rfl
  | .array name subscripts => by
    have hsubscripts := expressions_visited subscripts
    unfold uses_in_lvalue array_names_in_lvalue
    exact @visited_subscripted formals name (fun inside => uses_in_expressions formals inside subscripts) _
      (fun _ h => expressions_unvisited subscripts h) hsubscripts
  | .field index => by simp [uses_in_lvalue, array_names_in_lvalue, expression_visited index]

end

theorem option_visited (value : Option Expr) :
    visited_names (uses_in_option formals [] value) = array_names_in_option formals value := by
  cases value with
  | none => rfl
  | some expression => exact expression_visited expression

theorem deleted_visited (target : LValue) :
    visited_names (uses_in_deleted formals target) = array_names_in_lvalue formals target := by
  match target with
  | .name name => simp [uses_in_deleted, visited_array_use, array_names_in_lvalue]
  | .array name subscripts => exact lvalue_visited (.array name subscripts)
  | .field index => exact lvalue_visited (.field index)

/-- The source of a `for` loop, with the rest of its statement. -/
theorem source_visited (name : Name) (iterable : Expr) (body : Stmt) :
    array_names_in_statement formals (.for_in name iterable body) =
      visited_names (uses_in_source formals iterable) ++ array_names_in_statement formals body := by
  cases iterable with
  | name array_name => simp [array_names_in_statement, uses_in_source, visited_array_use]
  | _ => rw [array_names_in_statement, uses_in_source, expression_visited] <;> exact fun _ h => nomatch h

mutual

theorem statement_visited : (statement : Stmt) →
    visited_names (uses_in_statement formals statement) = array_names_in_statement formals statement
  | .assign target _ value => by
    simp [uses_in_statement, array_names_in_statement, lvalue_visited, expression_visited]
  | .expr value => by simp [uses_in_statement, array_names_in_statement, expression_visited]
  | .block statements => by simp [uses_in_statement, array_names_in_statement, statements_visited statements]
  | .delete target => by simp [uses_in_statement, array_names_in_statement, deleted_visited]
  | .if_stmt condition then_branch none => by
    simp [uses_in_statement, array_names_in_statement, expression_visited, statement_visited then_branch]
  | .if_stmt condition then_branch (some else_branch) => by
    simp [uses_in_statement, array_names_in_statement, expression_visited, statement_visited then_branch,
      statement_visited else_branch]
  | .while_stmt condition body => by
    simp [uses_in_statement, array_names_in_statement, expression_visited, statement_visited body]
  | .do_while body condition => by
    simp [uses_in_statement, array_names_in_statement, expression_visited, statement_visited body]
  | .for_stmt init condition update body => by
    simp [uses_in_statement, array_names_in_statement, expressions_visited, option_visited, statement_visited body]
  | .for_in name iterable body => by
    simp [uses_in_statement, source_visited, statement_visited body]
  | .print arguments redirect | .printf arguments redirect => by
    simp [uses_in_statement, array_names_in_statement, expressions_visited, option_visited]
  | .exit value => by
    simp [uses_in_statement, array_names_in_statement, option_unvisited value (List.cons_ne_nil Unentered.exit [])]
  | .return_stmt value => by simp [uses_in_statement, array_names_in_statement, option_visited]
  | .break_stmt | .continue_stmt | .next | .nextfile => by simp [uses_in_statement, array_names_in_statement]

theorem statements_visited : (statements : List Stmt) →
    visited_names (uses_in_statements formals statements) = array_names_in_statements formals statements
  | [] => rfl
  | statement :: rest => by
    simp [uses_in_statements, array_names_in_statements, statement_visited statement, statements_visited rest]

end

end Visited

theorem inner_range_unvisited {inside : List Unentered} (h : inside ≠ []) : (pattern : Pattern) →
    visited_names (uses_in_inner_range inside pattern) = []
  | .expr test => expression_unvisited test h
  | .range left right => by
    simp [uses_in_inner_range, inner_range_unvisited h left, inner_range_unvisited h right]
  | .begin_pattern | .end_pattern => rfl

theorem endpoint_visited (pattern : Pattern) :
    visited_names (uses_in_endpoint [] pattern) = array_names_in_endpoint pattern := by
  cases pattern with
  | expr test => exact expression_visited test
  | _ => exact inner_range_unvisited (List.cons_ne_nil _ _) _

theorem endpoint_unvisited {inside : List Unentered} (h : inside ≠ []) (pattern : Pattern) :
    visited_names (uses_in_endpoint inside pattern) = [] := by
  cases pattern with
  | expr test => exact expression_unvisited test h
  | _ => exact inner_range_unvisited (List.cons_ne_nil _ _) _

theorem pattern_unvisited {inside : List Unentered} (h : inside ≠ []) (pattern : Option Pattern) :
    visited_names (uses_in_pattern inside pattern) = [] := by
  match pattern with
  | some (.expr test) => exact expression_unvisited test h
  | some (.range left right) => simp [uses_in_pattern, endpoint_unvisited h]
  | none | some .begin_pattern | some .end_pattern => rfl

theorem item_visited (item : Item) : visited_names (uses_in_item item) = array_names_in_item item := by
  match item with
  | .function definition => exact statements_visited definition.body
  | .pattern_action pattern none => exact pattern_unvisited (List.cons_ne_nil _ _) pattern
  | .pattern_action (some (.expr test)) (some action) =>
    simp [uses_in_item, uses_in_pattern, array_names_in_item, expression_visited, statements_visited]
  | .pattern_action (some (.range left right)) (some action) =>
    simp [uses_in_item, uses_in_pattern, array_names_in_item, endpoint_visited, statements_visited]
  | .pattern_action none (some action) | .pattern_action (some .begin_pattern) (some action)
  | .pattern_action (some .end_pattern) (some action) =>
    simp [uses_in_item, uses_in_pattern, array_names_in_item, statements_visited]

theorem visited_names_flatMap (items : List Item) :
    visited_names (items.flatMap uses_in_item) = items.flatMap array_names_in_item := by
  induction items with
  | nil => rfl
  | cons item rest ih => rw [List.flatMap_cons, List.flatMap_cons, visited_names_append, item_visited, ih]

theorem mem_collect_array_names (program : Program) (name : Name) :
    name ∈ collect_array_names program ↔
      name ∈ BUILTIN_ARRAY_NAMES ∨ ∃ use ∈ program.array_uses, use.visited ∧ use.name = name := by
  rw [collect_array_names, List.mem_append, ← visited_names_flatMap, mem_visited_names]
  rfl

/-- `length` of the name is the number of elements of the array of that name. -/
structure CountsElements {Number : Type} (doubles : Doubles Number) (state : LoweringState) (name : Name) : Prop where
  lowered : ∀ (V : Ty → Type) (argument : Lowered V), argument.expression = .name name →
    lower_runtime_length_builtin state [argument] = (do
      let array_name_ptr ← lower_runtime_constant_string name.toList
      emit .qk_array_length (array_name_ptr, ()))
  counted : ∀ store : ArrayStore Number,
    store.qk_array_length name = {key | (store.maps doubles name key).isSome}.ncard

theorem counts_elements {Number : Type} (doubles : Doubles Number) {state : LoweringState} {name : Name}
    (h : name ∈ state.array_names) : CountsElements doubles state name where
  lowered V argument hargument := by simp only [lower_runtime_length_builtin, hargument, h, if_true]
  counted store := store.length_refines doubles name

/-- The collection of array names is complete, and `length` counts the elements of every array, exactly for the
programs that use each array where the collection comes by: a use as the target of `split`, as the right side of `in`
or in `delete` without a subscript is passed over, and so is every use in a `getline`, in `exit`, in a subscript of a
formal, in a pattern without an action or in a range pattern inside another. -/
theorem array_names_complete {Number : Type} (doubles : Doubles Number) (state : LoweringState) (program : Program) :
    (∀ use ∈ program.array_uses, use.name ∈ collect_array_names program ∧
      CountsElements doubles { state with array_names := collect_array_names program } use.name) ↔
    ∀ use ∈ program.array_uses, use.visited = false → use.name ∈ BUILTIN_ARRAY_NAMES ∨
      ∃ other ∈ program.array_uses, other.visited ∧ other.name = use.name := by
  constructor
  · intro h use huse _
    exact (mem_collect_array_names program use.name).mp (h use huse).1
  · intro h use huse
    have hcollected : use.name ∈ collect_array_names program := by
      rw [mem_collect_array_names]
      cases hvisited : use.visited with
      | true => exact Or.inr ⟨use, huse, hvisited, rfl⟩
      | false => exact h use huse hvisited
    exact ⟨hcollected, counts_elements doubles hcollected⟩

/-- `BEGIN { split("a b", A); print length(A) }` -/
def split_into_A : Program :=
  ⟨[.pattern_action (some .begin_pattern)
    (some [.expr (.call "split" [.string_literal ['a', ' ', 'b'], .name "A"]),
      .print [.call "length" [.name "A"]] none])]⟩

/-- The target of `split` is its only use of an array, and `A` is taken for a scalar. -/
theorem array_names_incomplete :
    ¬∀ use ∈ split_into_A.array_uses, use.name ∈ collect_array_names split_into_A := by
  decide

end quawk
