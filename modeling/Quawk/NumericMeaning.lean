import Quawk.Execution
import Quawk.Lib.CoupledRun

namespace quawk

open StructuredCode (Operands)
open StatefulRun (Result Run)

/-- The arithmetic of a runtime: what its instructions on numbers compute, without a change of its state. -/
structure NumberArithmetic (R : Runtime) where
  constant : NumericConstant → R.Number
  add : R.Number → R.Number → R.Number
  sub : R.Number → R.Number → R.Number
  mul : R.Number → R.Number → R.Number
  div : R.Number → R.Number → R.Number
  pow : R.Number → R.Number → R.Number
  trunc : R.Number → R.Number
  compare : FloatPredicate → R.Number → R.Number → Bool
  of_bool : Bool → R.Number
  perform_number : ∀ value world, R.perform (.number value) () world = (constant value, world)
  perform_fadd : ∀ left right world, R.perform .fadd (left, right, ()) world = (add left right, world)
  perform_fsub : ∀ left right world, R.perform .fsub (left, right, ()) world = (sub left right, world)
  perform_fmul : ∀ left right world, R.perform .fmul (left, right, ()) world = (mul left right, world)
  perform_fdiv : ∀ left right world, R.perform .fdiv (left, right, ()) world = (div left right, world)
  perform_pow : ∀ left right world, R.perform .llvm_pow (left, right, ()) world = (pow left right, world)
  perform_trunc : ∀ value world, R.perform .llvm_trunc (value, ()) world = (trunc value, world)
  perform_fcmp : ∀ predicate left right world,
    R.perform (.fcmp predicate) (left, right, ()) world = (compare predicate left right, world)
  perform_uitofp : ∀ flag world, R.perform .uitofp_i1 (flag, ()) world = (of_bool flag, world)
  perform_select_double : ∀ flag left right world,
    R.perform .select_double (flag, left, right, ()) world = (if flag then left else right, world)
  perform_select_i1 : ∀ flag left right world,
    R.perform .select_i1 (flag, left, right, ()) world = (if flag then left else right, world)
  compare_of_bool : ∀ flag, compare .one (of_bool flag) (constant .zero) = flag

/-- What a program of numbers works on. Its variables are global; `active` is the state of its range rules. -/
structure NumericState (R : Runtime) where
  numbers : Name → R.Number
  active : Name → Bool
  world : R.World
  exit_requested : Bool
  exit_status : Int

abbrev Meaning (R : Runtime) (α : Type) : Type := Run (NumericState R) α

section Steps

variable {R : Runtime}

/-- A call of the runtime library. -/
def runtime_call {types : List Ty} {type : Ty} (f : Op types type) (operands : Operands (Value R.Number) types) :
    Meaning R (Value R.Number type) := fun state =>
  (.value (R.perform f operands state.world).1, { state with world := (R.perform f operands state.world).2 })

def read_number (name : Name) : Meaning R R.Number := fun state => (.value (state.numbers name), state)

def write_number (name : Name) (value : R.Number) : Meaning R Unit := fun state =>
  (.value (), { state with numbers := Function.update state.numbers name value })

def read_active (name : Name) : Meaning R Bool := fun state => (.value (state.active name), state)

def write_active (name : Name) (flag : Bool) : Meaning R Unit := fun state =>
  (.value (), { state with active := Function.update state.active name flag })

def set_exit (status : Int) : Meaning R Unit := fun state =>
  (.value (), { state with exit_requested := true, exit_status := status })

/-- The text of a field. -/
def field_text (index : Int) : Meaning R (Option Text) := runtime_call .qk_get_field_inline (index, ())

/-- The number of a field. -/
def field_number (index : Int) : Meaning R R.Number := do
  let text ← field_text index
  let captured ← runtime_call .qk_capture_string_arg_inline (text, ())
  runtime_call .qk_parse_number_text (captured, ())

end Steps

/-- The counts the runtime keeps. -/
def counter : Name → Option (Op [] .double)
  | "NR" => some .qk_get_nr_inline
  | "FNR" => some .qk_get_fnr_inline
  | "NF" => some .qk_get_nf_inline
  | _ => none

/-- The functions of one number. -/
def numeric_function : Name → Option (Op [.double] .double)
  | "int" => some .qk_int_builtin
  | "log" => some .qk_log
  | "sin" => some .qk_sin
  | "sqrt" => some .qk_sqrt
  | "cos" => some .qk_cos
  | "exp" => some .qk_exp
  | _ => none

section Expressions

variable {R : Runtime} (arithmetic : NumberArithmetic R)

namespace NumberArithmetic

def zero : R.Number := arithmetic.constant .zero

def one : R.Number := arithmetic.constant .one

def truth (value : R.Number) : Bool := arithmetic.compare .one value arithmetic.zero

def modulo (left right : R.Number) : R.Number :=
  arithmetic.sub left (arithmetic.mul (arithmetic.trunc (arithmetic.div left right)) right)

/-- The value a compound assignment stores. -/
def combine (op : AssignOp) (current update : R.Number) : R.Number :=
  match op with
  | .plain => update
  | .add => arithmetic.add current update
  | .sub => arithmetic.sub current update
  | .mul => arithmetic.mul current update
  | .div => arithmetic.div current update
  | .mod => arithmetic.modulo current update
  | .pow => arithmetic.pow current update

/-- What an operator gives for two numbers. -/
def binary (op : BinaryOp) (left right : R.Number) : R.Number :=
  match op with
  | .add => arithmetic.add left right
  | .sub => arithmetic.sub left right
  | .mul => arithmetic.mul left right
  | .div => arithmetic.div left right
  | .mod => arithmetic.modulo left right
  | .pow => arithmetic.pow left right
  | op => arithmetic.of_bool (arithmetic.compare (comparison_codes op).2 left right)

def stepped (delta : Increment) (value : R.Number) : R.Number :=
  match delta with
  | .increment => arithmetic.add value arithmetic.one
  | .decrement => arithmetic.sub value arithmetic.one

end NumberArithmetic

/-- Assign to a variable. -/
def assign_number (name : Name) (op : AssignOp) (update : R.Number) : Meaning R R.Number := do
  let current ← read_number name
  write_number name (arithmetic.combine op current update)
  pure (arithmetic.combine op current update)

/-- `++` and `--` of a variable. -/
def increment_number (target : Option Name) (delta : Increment) (return_old : Bool) : Meaning R R.Number :=
  match target with
  | none => Run.crash
  | some name => do
    let old ← read_number name
    write_number name (arithmetic.stepped delta old)
    pure (if return_old then old else arithmetic.stepped delta old)

/-- Whether an expression holds as a condition. -/
def truth_of (value : Meaning R R.Number) : Meaning R Bool := do
  let value ← value
  pure (arithmetic.truth value)

/-- `&&` and `||`: the right operand is only evaluated where the left one does not decide. -/
def logical (decided : Bool) (left right : Meaning R R.Number) : Meaning R R.Number := do
  let left ← truth_of arithmetic left
  if left = decided then pure (arithmetic.of_bool decided)
  else do
    let right ← truth_of arithmetic right
    pure (arithmetic.of_bool right)

def operator_of_numbers : BinaryOp → Bool
  | .logical_and | .logical_or | .match_op | .not_match | .in_op | .concat => false
  | _ => true

def operation (op : BinaryOp) (left right : Meaning R R.Number) : Meaning R R.Number :=
  match op with
  | .logical_and => logical arithmetic false left right
  | .logical_or => logical arithmetic true left right
  | op =>
    if operator_of_numbers op then do
      let left ← left
      let right ← right
      pure (arithmetic.binary op left right)
    else Run.crash

/-- The number of an expression, evaluated from left to right. -/
def number_of : Expr → Meaning R R.Number
  | .numeric_literal raw_text => pure (arithmetic.constant (.literal raw_text))
  | .name name =>
    match counter name with
    | some f => runtime_call f ()
    | none => read_number name
  | .field_at index => field_number index
  | .field index => do
    let index ← number_of index
    let index ← runtime_call .fptosi_i64 (index, ())
    field_number index
  | .call function [argument] =>
    match numeric_function function with
    | some f => do
      let argument ← number_of argument
      runtime_call f (argument, ())
    | none => Run.crash
  | .binary left op right => operation arithmetic op (number_of left) (number_of right)
  | .conditional test if_true if_false => do
    if ← truth_of arithmetic (number_of test) then number_of if_true else number_of if_false
  | .assign (.name name) op value => do
    let value ← number_of value
    assign_number arithmetic name op value
  | .unary op operand =>
    match op with
    | .uplus => number_of operand
    | .uminus => do
      let value ← number_of operand
      pure (arithmetic.sub arithmetic.zero value)
    | .not => do
      let condition ← truth_of arithmetic (number_of operand)
      pure (if condition then arithmetic.zero else arithmetic.one)
    | .pre_inc => increment_number arithmetic (scalar_name operand) .increment false
    | .pre_dec => increment_number arithmetic (scalar_name operand) .decrement false
  | .postfix_op operand op =>
    match op with
    | .post_inc => increment_number arithmetic (scalar_name operand) .increment true
    | .post_dec => increment_number arithmetic (scalar_name operand) .decrement true
  | _ => Run.crash

def condition_of (expression : Expr) : Meaning R Bool := truth_of arithmetic (number_of arithmetic expression)

end Expressions

section Statements

variable {R : Runtime} (arithmetic : NumberArithmetic R)

/-- Evaluate expressions for what they do. -/
def perform_expressions : List Expr → Meaning R Unit
  | [] => pure ()
  | expression :: rest => do
    let _ ← number_of arithmetic expression
    perform_expressions rest

/-- One argument of `print`: a number, a text, or a field as it is. -/
def print_argument : Expr → Meaning R Unit
  | .string_literal value => runtime_call .qk_print_string_fragment (some value, ())
  | .field_at index => do
    let text ← field_text index
    runtime_call .qk_print_string_fragment (text, ())
  | .field index => do
    let index ← number_of arithmetic index
    let index ← runtime_call .fptosi_i64 (index, ())
    let text ← field_text index
    runtime_call .qk_print_string_fragment (text, ())
  | expression => do
    let value ← number_of arithmetic expression
    runtime_call .qk_print_number_fragment (value, ())

def print_arguments : List Expr → Meaning R Unit
  | [] => pure ()
  | [argument] => print_argument arithmetic argument
  | argument :: rest => do
    print_argument arithmetic argument
    runtime_call .qk_print_output_separator ()
    print_arguments rest

def print_record : Meaning R Unit := do
  let record ← field_text 0
  runtime_call .qk_print_string (record, ())

def print_meaning (arguments : List Expr) : Meaning R Unit :=
  match arguments with
  | [] => print_record
  | arguments => do
    print_arguments arithmetic arguments
    runtime_call .qk_print_output_record_separator ()

/-- A loop body, then `again` where the loop goes on. -/
def body_then {σ : Type} (body : Meaning R Completion) (again : Meaning R (σ ⊕ Completion)) :
    Meaning R (σ ⊕ Completion) := do
  match ← body with
  | .normal | .continued => again
  | .broke => pure (.inr .normal)
  | completion => pure (.inr completion)

/-- The condition of a `for` loop; without one it holds. -/
def for_condition : Option Expr → Meaning R Bool
  | some condition => condition_of arithmetic condition
  | none => pure true

mutual

/-- What a statement does; a loop is followed for `fuel` rounds. -/
def interpret (fuel : Nat) : Stmt → Meaning R Completion
  | .assign (.name name) op value => do
    let value ← number_of arithmetic value
    let _ ← assign_number arithmetic name op value
    pure .normal
  | .expr value => do
    let _ ← number_of arithmetic value
    pure .normal
  | .print arguments none => do
    print_meaning arithmetic arguments
    pure .normal
  | .block statements => interpret_all fuel statements
  | .if_stmt condition then_branch none => do
    if ← condition_of arithmetic condition then interpret fuel then_branch else pure .normal
  | .if_stmt condition then_branch (some else_branch) => do
    if ← condition_of arithmetic condition then interpret fuel then_branch else interpret fuel else_branch
  | .while_stmt condition body =>
    Run.iterate (fun _ => do
      if ← condition_of arithmetic condition then body_then (interpret fuel body) (pure (.inl ()))
      else pure (.inr .normal)) fuel ()
  | .do_while body condition =>
    Run.iterate (fun _ => body_then (interpret fuel body) do
      if ← condition_of arithmetic condition then pure (.inl ()) else pure (.inr .normal)) fuel ()
  | .for_stmt init condition update body => do
    perform_expressions arithmetic init
    Run.iterate (fun _ => do
      if ← for_condition arithmetic condition then
        body_then (interpret fuel body) do
          perform_expressions arithmetic update
          pure (.inl ())
      else pure (.inr .normal)) fuel ()
  | .break_stmt => pure .broke
  | .continue_stmt => pure .continued
  | .next => pure .left
  | .nextfile => fun state => (.value .left, { state with world := R.nextfile state.world })
  | .exit none => do
    set_exit 0
    pure .left
  | .exit (some status) => do
    let status ← number_of arithmetic status
    let status ← runtime_call .fptosi_i32 (status, ())
    set_exit status
    pure .left
  | _ => Run.crash

def interpret_all (fuel : Nat) : List Stmt → Meaning R Completion
  | [] => pure .normal
  | statement :: rest => do
    match ← interpret fuel statement with
    | .normal => interpret_all fuel rest
    | completion => pure completion

end

end Statements

section Programs

variable {R : Runtime} (arithmetic : NumberArithmetic R) (fuel : Nat)

/-- The action of a rule; without one the record is printed. -/
def rule_action (action : Option Action) : Meaning R Completion :=
  match action with
  | some action => interpret_all arithmetic fuel action
  | none => do
    print_record
    pure .normal

/-- What is left of a range rule once it is known whether it selects the record: it stays active until its right
pattern holds. -/
def range_selected (name : Name) (right : Expr) (action : Option Action) (selected : Bool) : Meaning R Completion := do
  if selected then
    match ← rule_action arithmetic fuel action with
    | .normal => do
      let right_matches ← condition_of arithmetic right
      write_active name !right_matches
      pure .normal
    | completion => pure completion
  else pure .normal

/-- A range rule: it selects a record where it is active or its left pattern holds. -/
def range_rule (name : Name) (left right : Expr) (action : Option Action) : Meaning R Completion := do
  if ← read_active name then range_selected arithmetic fuel name right action true
  else do
    let selected ← condition_of arithmetic left
    range_selected arithmetic fuel name right action selected

/-- One record rule. -/
def record_rule (item : NormalizedRecordItem) : Meaning R Completion :=
  match item.pattern, item.range_state_name with
  | none, _ => rule_action arithmetic fuel item.action
  | some (.expr test), _ => do
    if ← condition_of arithmetic test then rule_action arithmetic fuel item.action else pure .normal
  | some (.range (.expr left) (.expr right)), some name => range_rule arithmetic fuel name left right item.action
  | _, _ => Run.crash

/-- Actions or rules one after the other, until one leaves the phase. -/
def in_turn {ι : Type} (meaning : ι → Meaning R Completion) : List ι → Meaning R Completion
  | [] => pure .normal
  | item :: rest => do
    match ← meaning item with
    | .normal => in_turn meaning rest
    | completion => pure completion

def exit_was_requested : Meaning R Bool := fun state => (.value state.exit_requested, state)

def take_record : Meaning R Bool := fun state =>
  (.value (R.next_record state.world).1, { state with world := (R.next_record state.world).2 })

/-- The rules, for every record until the input or the program ends. -/
def every_record (rules : List NormalizedRecordItem) : Meaning R Unit := do
  if ← exit_was_requested then pure ()
  else
    Run.iterate (fun _ => do
      if ← take_record then
        let _ ← in_turn (record_rule arithmetic fuel) rules
        if ← exit_was_requested then pure (.inr ()) else pure (.inl ())
      else pure (.inr ())) fuel ()

def final_status : Meaning R Int := fun state =>
  (.value (if state.exit_requested then state.exit_status else 0), state)

/-- A whole program: its BEGIN actions, its rules for every record, its END actions. -/
def run_numeric_program (program : NormalizedLoweringProgram) : Meaning R Int := do
  let _ ← in_turn (interpret_all arithmetic fuel) program.begin_actions
  if program.record_items.isEmpty && program.end_actions.isEmpty then pure ()
  else every_record arithmetic fuel program.record_items
  let _ ← in_turn (interpret_all arithmetic fuel) program.end_actions
  final_status

end Programs

end quawk
