import Mathlib.Data.List.Dedup
import Mathlib.Logic.Function.Basic
import Quawk.Builtins
import Quawk.TypeInference

namespace quawk

/-- The two kinds of value an AWK scalar can hold. -/
inductive Kind where
  | number | string
  deriving DecidableEq, Repr

/-- What an assigning construct gives its target. -/
inductive Given where
  | expression (value : Expr)
  | number
  | string

/-- One assigning construct (`=`, `op=`, `sub`/`gsub` target, `getline` target, `for-in`
variable) with a scalar target that is not a formal. The types its name leaves can have depend
on the formals around it; `noted` says whether the type pass surely visits it. -/
structure Construct where
  target : Name
  given : Given
  formals : List Name
  noted : Bool

/-- Where a construct stands: the formals and for-in variables around it, and whether the type
pass surely comes there. -/
structure Scope where
  formals : List Name
  loop_names : List Name
  reached : Bool

def Scope.local_names (scope : Scope) : List Name := scope.loop_names ++ scope.formals

def Scope.in_loop_over (scope : Scope) (name : Name) : Scope :=
  { scope with loop_names := name :: scope.loop_names }

def Scope.restrict (scope : Scope) (reached : Bool) : Scope :=
  { scope with reached := scope.reached && reached }

def assigned_given (op : AssignOp) (value : Expr) : Given :=
  if op = .plain then .expression value else .number

def lvalue_construct (scope : Scope) (given : Given) : LValue → List Construct
  | .name name =>
    if name ∈ scope.formals then []
    else [⟨name, given, scope.formals, scope.reached && name ∉ scope.loop_names⟩]
  | _ => []

def substitute_construct (scope : Scope) (function : Name) (args : List Expr) : List Construct :=
  if function = "sub" ∨ function = "gsub" then
    match substitute_target args with
    | some lvalue => lvalue_construct scope .string lvalue
    | none => []
  else []

mutual

/-- The assigning constructs of an expression, in the order the type pass meets them. -/
def expression_constructs (scope : Scope) : Expr → List Construct
  | .assign target op value =>
    expression_constructs scope value ++ lvalue_index_constructs scope target ++
      lvalue_construct scope (assigned_given op value) target
  | .binary left _ right => expression_constructs scope left ++ expression_constructs scope right
  | .conditional test if_true if_false =>
    expression_constructs scope test ++ expression_constructs scope if_true ++
      expression_constructs scope if_false
  | .unary _ operand => expression_constructs scope operand
  | .postfix_op operand _ => expression_constructs scope operand
  | .call function args =>
    expressions_constructs scope args ++ substitute_construct scope function args
  | .array_index _ index extra_indexes =>
    expression_constructs scope index ++ expressions_constructs scope extra_indexes
  | .field index => expression_constructs scope index
  | .getline (some target) (some source) =>
    expression_constructs scope source ++ lvalue_index_constructs scope target ++
      lvalue_construct scope .string target
  | .getline (some target) none =>
    lvalue_index_constructs scope target ++ lvalue_construct scope .string target
  | .getline none (some source) => expression_constructs scope source
  | _ => []

def expressions_constructs (scope : Scope) : List Expr → List Construct
  | [] => []
  | expression :: rest => expression_constructs scope expression ++ expressions_constructs scope rest

def lvalue_index_constructs (scope : Scope) : LValue → List Construct
  | .name _ => []
  | .array _ subscripts => expressions_constructs scope subscripts
  | .field index => expression_constructs scope index

end

def option_constructs (scope : Scope) : Option Expr → List Construct
  | some expression => expression_constructs scope expression
  | none => []

/-- A loop assigning at most three names: each of its two-step chains of types is climbed
within the iterations the pass makes. -/
def loop_settles (constructs : List Construct) : Bool :=
  (constructs.map Construct.target).dedup.length ≤ 3

mutual

/-- The assigning constructs of a statement, in the order the type pass meets them. It never
visits exit values, and comes to the condition of a do-while loop and to the updates of a for
loop only once the body changes no type. -/
def statement_constructs : Stmt → Scope → List Construct
  | .assign target op value, scope =>
    expression_constructs scope value ++ lvalue_index_constructs scope target ++
      lvalue_construct scope (assigned_given op value) target
  | .expr value, scope => expression_constructs scope value
  | .print arguments redirect, scope | .printf arguments redirect, scope =>
    expressions_constructs scope arguments ++
      option_constructs scope (redirect.map OutputRedirect.target)
  | .block statements, scope => statements_constructs statements scope
  | .if_stmt condition then_branch none, scope =>
    expression_constructs scope condition ++ statement_constructs then_branch scope
  | .if_stmt condition then_branch (some else_branch), scope =>
    expression_constructs scope condition ++ statement_constructs then_branch scope ++
      statement_constructs else_branch scope
  | .while_stmt condition body, scope =>
    expression_constructs scope condition ++ statement_constructs body scope
  | .do_while body condition, scope =>
    statement_constructs body scope ++
      expression_constructs
        (scope.restrict
          (loop_settles (statement_constructs body scope ++ expression_constructs scope condition)))
        condition
  | .for_stmt init condition update body, scope =>
    expressions_constructs scope init ++ option_constructs scope condition ++
      statement_constructs body scope ++
      expressions_constructs
        (scope.restrict
          (loop_settles (statement_constructs body scope ++ expressions_constructs scope update ++
            option_constructs scope condition)))
        update
  | .for_in name iterable body, scope =>
    expression_constructs scope iterable ++ lvalue_construct scope .string (.name name) ++
      statement_constructs body (scope.in_loop_over name)
  | .delete target, scope => lvalue_index_constructs scope target
  | .return_stmt value, scope => option_constructs scope value
  | .exit value, scope => option_constructs (scope.restrict false) value
  | _, _ => []

def statements_constructs : List Stmt → Scope → List Construct
  | [], _ => []
  | statement :: rest, scope => statement_constructs statement scope ++ statements_constructs rest scope

end

def pattern_constructs : Pattern → List Construct
  | .expr test => expression_constructs ⟨[], [], true⟩ test
  | .range left right => pattern_constructs left ++ pattern_constructs right
  | _ => []

def item_constructs : Item → List Construct
  | .function definition => statements_constructs definition.body ⟨definition.params, [], true⟩
  | .pattern_action pattern action =>
    (match pattern with
      | some pattern => pattern_constructs pattern
      | none => []) ++
      (match action with
      | some action => statements_constructs action ⟨[], [], true⟩
      | none => [])

def items_constructs : List Item → List Construct
  | [] => []
  | item :: rest => item_constructs item ++ items_constructs rest

def assigning_constructs (program : Program) : List Construct :=
  items_constructs program.items

def Program.defines (program : Program) (function : Name) : Bool :=
  program.function_defs.any fun definition => definition.name == function

/-- The pass has no type to note for the value: it comes from an array element, a user function
or a builtin whose result is not listed. -/
def Expr.untyped : Expr → Bool
  | .array_index _ _ _ => true
  | .call function _ => function ∉ NUMERIC_RESULT_FUNCTIONS ∧ function ∉ STRING_RESULT_FUNCTIONS
  | .conditional _ if_true if_false => if_true.untyped && if_false.untyped
  | .assign _ .plain value => value.untyped
  | _ => false

def Given.untyped : Given → Bool
  | .expression value => value.untyped
  | _ => false

/-- No construct among these notes a type for the scalar. -/
def NotesNone (name : Name) (constructs : List Construct) : Prop :=
  ∀ construct ∈ constructs, construct.target = name → construct.given.untyped = true

theorem NotesNone.of_append {name : Name} {constructs constructs' : List Construct}
    (h : NotesNone name (constructs ++ constructs')) :
    NotesNone name constructs ∧ NotesNone name constructs' :=
  ⟨fun construct hmem => h construct (List.mem_append_left _ hmem),
    fun construct hmem => h construct (List.mem_append_right _ hmem)⟩

/-- The kinds a value can have, when a name can hold the kinds of `held` and a value no type is
known for (an element, a formal, the result of a user function) those of `untyped`. -/
def Expr.MayGive (defines : Name → Bool) (formals : List Name) (held : Name → Kind → Prop)
    (untyped : Kind → Prop) : Expr → Kind → Prop
  | .numeric_literal _, kind => kind = .number
  | .string_literal _, kind => kind = .string
  | .regex_literal _, kind => untyped kind
  | .name scalar, kind => if scalar ∈ formals then untyped kind else held scalar kind
  | .field_at _, _ | .field _, _ => True
  | .array_index _ _ _, kind => untyped kind
  | .getline _ _, kind | .unary _ _, kind | .postfix_op _ _, kind => kind = .number
  | .conditional _ if_true if_false, kind =>
    if_true.MayGive defines formals held untyped kind ∨ if_false.MayGive defines formals held untyped kind
  | .assign _ .plain value, kind => value.MayGive defines formals held untyped kind
  | .assign _ _ _, kind => kind = .number
  | .binary _ op _, kind => if op = .concat then kind = .string else kind = .number
  | .call function _, kind =>
    if defines function then untyped kind
    else if function ∈ STRING_RESULT_FUNCTIONS then kind = .string
    else if function ∈ NUMERIC_RESULT_FUNCTIONS then kind = .number
    else kind = .number ∧ untyped kind

def Given.MayGive (defines : Name → Bool) (formals : List Name) (held : Name → Kind → Prop)
    (untyped : Kind → Prop) : Given → Kind → Prop
  | .expression value, kind => value.MayGive defines formals held untyped kind
  | .number, kind => kind = .number
  | .string, kind => kind = .string

theorem Expr.MayGive.mono {defines : Name → Bool} {formals : List Name}
    {held held' : Name → Kind → Prop} {untyped : Kind → Prop} {kind : Kind}
    (hheld : ∀ name kind, held name kind → held' name kind) :
    ∀ {expression : Expr}, expression.MayGive defines formals held untyped kind →
      expression.MayGive defines formals held' untyped kind
  | .name scalar, h => by
    simp only [Expr.MayGive] at h ⊢
    split_ifs at h ⊢
    · exact h
    · exact hheld scalar kind h
  | .conditional _ _ _, h => h.imp (Expr.MayGive.mono hheld) (Expr.MayGive.mono hheld)
  | .assign _ .plain value, h => @Expr.MayGive.mono defines formals held held' untyped kind hheld value h
  | .numeric_literal _, h | .string_literal _, h | .regex_literal _, h | .field_at _, h
  | .field _, h | .array_index _ _ _, h | .getline _ _, h | .unary _ _, h | .postfix_op _ _, h
  | .assign _ .add _, h | .assign _ .sub _, h | .assign _ .mul _, h | .assign _ .div _, h
  | .assign _ .mod _, h | .assign _ .pow _, h | .binary _ _ _, h | .call _ _, h => h

theorem Given.MayGive.mono {defines : Name → Bool} {formals : List Name}
    {held held' : Name → Kind → Prop} {untyped : Kind → Prop} {kind : Kind} {given : Given}
    (h : given.MayGive defines formals held untyped kind)
    (hheld : ∀ name kind, held name kind → held' name kind) :
    given.MayGive defines formals held' untyped kind := by
  cases given with
  | expression value => exact Expr.MayGive.mono hheld h
  | number => exact h
  | string => exact h

/-- The value a scalar holds: its kind, and the assigning construct that gave it this kind, if
one did. -/
structure Held where
  kind : Kind
  source : Option Nat

abbrev KindStore := Name → Option Held

/-- An increment leaves a number, the one a construct gave when it was given as a number. -/
def incremented : Option Held → Held
  | some ⟨.number, source⟩ => ⟨.number, source⟩
  | _ => ⟨.number, none⟩

/-- An unset scalar is both the empty string and zero. -/
def KindStore.Holds (store : KindStore) (name : Name) (kind : Kind) : Prop :=
  ∀ held, store name = some held → held.kind = kind

/-- The scalar holds a value given by a construct standing before the `position`-th one. -/
def KindStore.HoldsFromBefore (store : KindStore) (position : Nat) (name : Name) (kind : Kind) : Prop :=
  ∃ source < position, store name = some ⟨kind, some source⟩

/-- What a run does to the values of scalars. Increments, and the runtime's own updates of
builtin variables, are not assigning constructs. -/
inductive Event where
  | assign (position : Nat) (kind : Kind)
  | increment (name : Name)
  | builtin (name : Name) (kind : Kind)

inductive KindStep (program : Program) : KindStore → Event → KindStore → Prop where
  | assign {store : KindStore} {position : Nat} {construct : Construct} {kind : Kind}
      (hconstruct : (assigning_constructs program)[position]? = some construct)
      (hgives : construct.given.MayGive program.defines construct.formals store.Holds (fun _ => True) kind) :
      KindStep program store (.assign position kind)
        (Function.update store construct.target (some ⟨kind, some position⟩))
  | increment {store : KindStore} {name : Name} :
      KindStep program store (.increment name)
        (Function.update store name (some (incremented (store name))))
  | builtin {store : KindStore} {name : Name} {kind : Kind} (hname : is_builtin_variable_name name) :
      KindStep program store (.builtin name kind) (Function.update store name (some ⟨kind, none⟩))

/-- The steps of a run, each with the store before it. Any order of the program's constructs is
a run, so whatever its control flow does is one. -/
inductive KindRun (program : Program) (initial : KindStore) :
    List (KindStore × Event) → KindStore → Prop where
  | start : KindRun program initial [] initial
  | step {steps : List (KindStore × Event)} {store store' : KindStore} {event : Event}
      (hrun : KindRun program initial steps store) (hstep : KindStep program store event store') :
      KindRun program initial (steps ++ [(store, event)]) store'

/-- Scalars preassigned before the run have values no construct gave. -/
def KindStore.Preassigned (store : KindStore) : Prop :=
  ∀ name held, store name = some held → held.source = none

end quawk
