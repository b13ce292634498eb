import Mathlib.Logic.Function.Basic
import Quawk.Lib.StatefulRun
import Quawk.LowerProgram

namespace quawk

open StructuredCode (Operands)
open StatefulRun (Result Run)

/-- The address of a number: an alloca of the running function or a field of `%quawk.state`. -/
inductive Address where
  | local_variable (name : Name)
  | state_field (index : Nat)
  deriving DecidableEq, Repr

/-- What operands stand for when the code is run; the null pointer is `none`. -/
abbrev Value (Number : Type) : Ty → Type
  | .double => Number
  | .i1 => Bool
  | .i8 => Option Char
  | .i32 | .i64 => Int
  | .ptr => Option Text
  | .addr => Address
  | .slot | .arrays | .handle => Nat
  | .unit => Unit

/-- The numbers and the runtime library a lowered program runs on: what an instruction gives, and
how it changes the state of the runtime. Of the numbers it is only known that a flag stored as a
number is nonzero when the flag is set. -/
structure Runtime where
  Number : Type
  World : Type
  zero : Number
  perform : {types : List Ty} → {type : Ty} → Op types type → Operands (Value Number) types → World →
    Value Number type × World
  next_record : World → Bool × World
  nextfile : World → World
  nonzero : Number → Bool
  flag_number : Bool → Number
  nonzero_flag_number : ∀ flag, nonzero (flag_number flag) = flag

inductive Phase where
  | begin_phase | record_phase | end_phase
  deriving DecidableEq, Repr

/-- What a run leaves in its log. -/
inductive TraceEvent where
  | op (types : List Ty) (type : Ty) (op : Op types type)
  | exit (in_function : Bool) (status : Option Int)
  | next_record (available : Bool)
  | enter (phase : Phase)
  | leave (phase : Phase)

structure Machine (R : Runtime) where
  world : R.World
  state : Nat → R.Number
  locals : Name → R.Number
  params : Nat → Option Text
  exit_requested : Bool
  exit_status : Int
  log : List TraceEvent

/-- Runs of lowered code. -/
abbrev Exec (R : Runtime) (α : Type) : Type := Run (Machine R) α

def Machine.note {R : Runtime} (machine : Machine R) (event : TraceEvent) : Machine R :=
  { machine with log := machine.log ++ [event] }

def note {R : Runtime} (event : TraceEvent) : Exec R Unit := fun machine => (.value (), machine.note event)

section Instructions

variable {R : Runtime}

def Machine.load (machine : Machine R) : Address → R.Number
  | .local_variable name => machine.locals name
  | .state_field index => machine.state index

def Machine.store (machine : Machine R) (value : R.Number) : Address → Machine R
  | .local_variable name => { machine with locals := Function.update machine.locals name value }
  | .state_field index => { machine with state := Function.update machine.state index value }

/-- Run one instruction that is no call of a user function. -/
def Machine.perform {types : List Ty} {type : Ty} (machine : Machine R) :
    Op types type → Operands (Value R.Number) types → Value R.Number type × Machine R
  | .integer value, _ => ((value : Int), machine)
  | .word value, _ => ((value : Int), machine)
  | .truth value, _ => (value, machine)
  | .null_ptr, _ => (none, machine)
  | .string_constant text, _ => (some text, machine)
  | .local_variable name, _ => (.local_variable name, machine)
  | .state_variable _ index, _ => (.state_field index, machine)
  | .load_double, (address, _) => (machine.load address, machine)
  | .store_double, (value, address, _) => ((), machine.store value address)
  | .load_parameter slot, _ => (machine.params slot, machine)
  | .store_parameter slot, (value, _) =>
    ((), { machine with params := Function.update machine.params slot value })
  | f, operands =>
    let (result, world) := R.perform f operands machine.world
    (result, { machine with world := world })

/-- The string operands of a call of a user function. -/
def list_of_operands {V : Ty → Type} : (arity : Nat) → Operands V (List.replicate arity .ptr) → List (V .ptr)
  | 0, _ => []
  | arity + 1, (operand, rest) => operand :: list_of_operands arity rest

/-- The user functions, as the code that calls them sees them. -/
abbrev Calls (R : Runtime) := Name → List (Option Text) → Exec R (Option Text)

def perform_op {types : List Ty} {type : Ty} (calls : Calls R) (f : Op types type)
    (operands : Operands (Value R.Number) types) : Exec R (Value R.Number type) := fun machine =>
  let machine := machine.note (.op types type f)
  match types, type, f, operands with
  | _, _, .qk_fn function arity, operands => calls function (list_of_operands arity operands) machine
  | _, _, f, operands =>
    let (result, machine) := machine.perform f operands
    (.value result, machine)

end Instructions

section Code

variable {R : Runtime} (calls : Calls R)

def eval {α : Type} : Code (Value R.Number) α → Exec R α
  | .done value => pure value
  | .op f operands next => do
    let result ← perform_op calls f operands
    eval (next result)
  | .note _ next => eval next
  | .choice _ condition if_true if_false next => do
    let result ← if condition then eval if_true else eval if_false
    eval (next result)
  | .short_circuit decided _ condition right next => do
    let result ← if condition = decided then pure decided else eval right
    eval (next result)
  | .guarded _ condition body next => do
    if condition then eval body else pure ()
    eval next
  | .attempt first handler next => do
    let result ← Run.attempt (eval first) fun message => eval (handler message)
    eval (next result)
  | .raise message => Run.raise message
  | .crash => Run.crash

/-- How control leaves a block. -/
inductive Completion where
  | normal | broke | continued
  /-- `next`, `nextfile` or `exit` in a phase. -/
  | left
  /-- `return` or `exit` in a function. -/
  | returned (value : Option Text)

/-- Run a loop body, then `again` where the loop goes on. -/
def loop_body {σ : Type} (body : Exec R Completion) (again : Exec R (σ ⊕ Completion)) :
    Exec R (σ ⊕ Completion) := do
  match ← body with
  | .normal | .continued => again
  | .broke => pure (.inr .normal)
  | completion => pure (.inr completion)

/-- `qk_request_exit`; an `exit` without an expression requests the status 0. -/
def request_exit (in_function : Bool) (status : Option Int) : Exec R Unit := fun machine =>
  (.value (),
    { machine with
      exit_requested := true
      exit_status := status.getD 0
      log := machine.log ++ [.exit in_function status] })

def exec (in_function : Bool) (fuel : Nat) : Block (Value R.Number) → Exec R Completion
  | .skip => pure .normal
  | .seq first second => do
    match ← exec in_function fuel first with
    | .normal => exec in_function fuel second
    | completion => pure completion
  | .code code => do
    eval calls code
    pure .normal
  | .if_statement _ condition then_branch => do
    if ← eval calls condition then exec in_function fuel then_branch else pure .normal
  | .if_else_statement _ condition then_branch else_branch => do
    if ← eval calls condition then exec in_function fuel then_branch
    else exec in_function fuel else_branch
  | .while_statement _ condition body =>
    Run.iterate (fun _ => do
      if ← eval calls condition then loop_body (exec in_function fuel body) (pure (.inl ()))
      else pure (.inr .normal)) fuel ()
  | .do_while_statement body _ condition =>
    Run.iterate (fun _ => loop_body (exec in_function fuel body) do
      if ← eval calls condition then pure (.inl ()) else pure (.inr .normal)) fuel ()
  | .for_statement init _ condition body update => do
    eval calls init
    Run.iterate (fun _ => do
      if ← eval calls condition then
        loop_body (exec in_function fuel body) do
          eval calls update
          pure (.inl ())
      else pure (.inr .normal)) fuel ()
  | .for_in_statement array_name body => do
    let first_key ← perform_op calls .qk_array_first_key (some array_name.toList, ())
    Run.iterate (fun key =>
      match key with
      | none => pure (.inr .normal)
      | some key => loop_body (exec in_function fuel (body (some key))) do
        let next_key ← perform_op calls .qk_array_next_key (some array_name.toList, some key, ())
        pure (.inl next_key)) fuel first_key
  | .break_statement => pure .broke
  | .continue_statement => pure .continued
  | .next_statement => pure .left
  | .nextfile_statement => fun machine =>
    (.value .left, { machine with world := R.nextfile machine.world })
  | .exit_statement none => do
    request_exit in_function none
    pure (if in_function then .returned (some []) else .left)
  | .exit_statement (some status) => do
    let status ← eval calls status
    request_exit in_function (some status)
    pure (if in_function then .returned (some []) else .left)
  | .return_statement value => do
    let value ← eval calls value
    pure (.returned value)
  | .raise message => Run.raise message

/-- One record item; a range rule keeps its flag in `%quawk.state`. -/
def exec_record_item (fuel : Nat) : RecordBlock (Value R.Number) → Exec R Completion
  | .always action => exec calls false fuel action
  | .on_match _ condition action => do
    if ← eval calls condition then exec calls false fuel action else pure .normal
  | .on_range _ active _ _ left_condition right_condition action => do
    let slot_name ← eval calls active
    let active_value ← perform_op calls .load_double (slot_name, ())
    let selected ← if R.nonzero active_value then pure true else eval calls left_condition
    if selected then
      match ← exec calls false fuel action with
      | .normal =>
        let right_matches ← eval calls right_condition
        let _ ← perform_op calls .store_double (R.flag_number !right_matches, slot_name, ())
        pure .normal
      | completion => pure completion
    else pure .normal
  | .raise message => Run.raise message

/-- What is left of a range rule once it is known whether it selects the record. -/
def exec_selected (fuel : Nat) (right_condition : Code (Value R.Number) Bool) (action : Block (Value R.Number))
    (slot_name : Address) (selected : Bool) : Exec R Completion := do
  if selected then
    match ← exec calls false fuel action with
    | .normal =>
      let right_matches ← eval calls right_condition
      let _ ← perform_op calls .store_double (R.flag_number !right_matches, slot_name, ())
      pure .normal
    | completion => pure completion
  else pure .normal

def exec_record_items (fuel : Nat) : List (RecordBlock (Value R.Number)) → Exec R Completion
  | [] => pure .normal
  | item :: rest => do
    match ← exec_record_item calls fuel item with
    | .normal => exec_record_items fuel rest
    | completion => pure completion

def exec_actions (fuel : Nat) : List (Block (Value R.Number)) → Exec R Completion
  | [] => pure .normal
  | action :: rest => do
    match ← exec calls false fuel action with
    | .normal => exec_actions fuel rest
    | completion => pure completion

/-- Run a body with allocas and parameters of its own, and give the caller its own back. -/
def in_frame {α : Type} (params : Nat → Option Text) (body : Exec R α) : Exec R α := fun machine =>
  let (result, after) := body { machine with locals := fun _ => R.zero, params := params }
  (result, { after with locals := machine.locals, params := machine.params })

/-- One call of `quawk_begin`, `quawk_record` or `quawk_end`. -/
def exec_phase (phase : Phase) (body : Exec R Completion) : Exec R Unit := do
  note (.enter phase)
  let _ ← in_frame (fun _ => none) body
  note (.leave phase)

end Code

section Driver

variable {R : Runtime} (blocks : ProgramBlocks (Value R.Number))

/-- What a function gives its caller; without a `return` it is the empty string. -/
def Completion.returned_value : Completion → Option Text
  | .returned value => value
  | _ => some []

/-- Call a user function. -/
def call_function : Nat → Calls R
  | 0, _, _ => Run.timeout
  | fuel + 1, function, args =>
    match blocks.functions.find? fun block => block.name == function with
    | none => Run.crash
    | some block => do
      let completion ← in_frame (fun slot => (args[slot]?).join)
        (exec (call_function fuel) true fuel block.body)
      pure completion.returned_value

def should_exit : Exec R Bool := fun machine => (.value machine.exit_requested, machine)

/-- `qk_next_record`. -/
def next_record : Exec R Bool := fun machine =>
  let (available, world) := R.next_record machine.world
  (.value available, { machine.note (.next_record available) with world := world })

/-- The per-record loop of the execution driver. -/
def record_loop (fuel : Nat) : Exec R Unit := do
  if ← should_exit then pure ()
  else
    Run.iterate (fun _ => do
      if ← next_record then
        if blocks.record_items.isEmpty then pure ()
        else exec_phase .record_phase (exec_record_items (call_function blocks fuel) fuel blocks.record_items)
        if ← should_exit then pure (.inr ()) else pure (.inl ())
      else pure (.inr ())) fuel ()

def exit_status : Exec R Int := fun machine =>
  (.value (if machine.exit_requested then machine.exit_status else 0), machine)

/-- `quawk_main`, after the state is set up. -/
def quawk_main (fuel : Nat) : Exec R Int := do
  exec_phase .begin_phase (exec_actions (call_function blocks fuel) fuel blocks.begin_actions)
  if blocks.record_items.isEmpty && blocks.end_actions.isEmpty then pure () else record_loop blocks fuel
  exec_phase .end_phase (exec_actions (call_function blocks fuel) fuel blocks.end_actions)
  exit_status

end Driver

/-- The records still to be read, and the current one. -/
structure Records where
  waiting : List Text
  current : Text

def whole_number (text : Text) : Int :=
  (text.takeWhile Char.isDigit).foldl (fun value digit => 10 * value + (digit.toNat - '0'.toNat)) 0

def NumericConstant.whole_number : NumericConstant → Int
  | .literal text | .leading_number text => quawk.whole_number text
  | .zero => 0
  | .one => 1

def default_value : (type : Ty) → Value Int type
  | .double | .i32 | .i64 => (0 : Int)
  | .i1 => false
  | .i8 | .ptr => none
  | .addr => .state_field 0
  | .slot | .arrays | .handle => (0 : Nat)
  | .unit => ()

/-- Whole numbers and the lines of one file, with nothing but the current record to read. -/
def whole_number_runtime : Runtime where
  Number := Int
  World := Records
  zero := 0
  perform {_ type} f operands world :=
    match f, operands with
    | .number value, _ => (value.whole_number, world)
    | .fadd, (left, right, _) => (left + right, world)
    | .fsub, (left, right, _) => (left - right, world)
    | .fptosi_i32, (value, _) => (value, world)
    | .fcmp .oeq, (left, right, _) => (left == right, world)
    | .fcmp .one, (left, right, _) => (left != right, world)
    | .qk_get_field_inline, _ => (some world.current, world)
    | .qk_parse_number_text, (text, _) => (whole_number (text.getD []), world)
    | _, _ => (default_value type, world)
  next_record world :=
    match world.waiting with
    | [] => (false, world)
    | record :: waiting => (true, ⟨waiting, record⟩)
  nextfile world := { world with waiting := [] }
  nonzero value := value != 0
  flag_number flag := if flag then 1 else 0
  nonzero_flag_number flag := by cases flag <;> rfl

/-- The machine a program is started on, with these records to read. -/
def start_machine (records : List Text) : Machine whole_number_runtime where
  world := ⟨records, []⟩
  state := fun _ => (0 : Int)
  locals := fun _ => (0 : Int)
  params := fun _ => none
  exit_requested := false
  exit_status := 0
  log := []

end quawk
