namespace StructuredCode

variable {Ty : Type}

/-- Operands of the given types, for one reading `V` of the types. -/
abbrev Operands (V : Ty → Type) : List Ty → Type
  | [] => Unit
  | type :: types => V type × Operands V types

/-- Straight instructions and structured control flow, as a code generator puts them down one
after the other. An operand is whatever `V` takes it to be: a register when the code is written
out, a value when it is run. `Note` marks places of the code without adding instructions to it;
`raise` is an error of the generator itself, which `attempt` catches and `crash` does not. -/
inductive Code (Op : List Ty → Ty → Type) (Note : Type) (bit : Ty) (V : Ty → Type) : Type → Type 1 where
  | done {α : Type} (value : α) : Code Op Note bit V α
  | op {α : Type} {types : List Ty} {type : Ty} (op : Op types type) (operands : Operands V types)
      (next : V type → Code Op Note bit V α) : Code Op Note bit V α
  | note {α : Type} (note : Note) (next : Code Op Note bit V α) : Code Op Note bit V α
  /-- Two arms that join in a phi. -/
  | choice {α : Type} {type : Ty} (test : Note) (condition : V bit) (if_true if_false : Code Op Note bit V (V type))
      (next : V type → Code Op Note bit V α) : Code Op Note bit V α
  /-- The right operand is evaluated only when the condition is not yet `decided`. -/
  | short_circuit {α : Type} (decided : Bool) (left : Note) (condition : V bit)
      (right : Code Op Note bit V (V bit)) (next : V bit → Code Op Note bit V α) : Code Op Note bit V α
  | guarded {α : Type} (test : Note) (condition : V bit) (body : Code Op Note bit V Unit)
      (next : Code Op Note bit V α) : Code Op Note bit V α
  | attempt {α : Type} {type : Ty} (first : Code Op Note bit V (V type))
      (handler : String → Code Op Note bit V (V type)) (next : V type → Code Op Note bit V α) :
      Code Op Note bit V α
  | raise {α : Type} (message : String) : Code Op Note bit V α
  | crash {α : Type} : Code Op Note bit V α

namespace Code

variable {Op : List Ty → Ty → Type} {Note : Type} {bit : Ty} {V : Ty → Type} {α β γ : Type}

def bind : Code Op Note bit V α → (α → Code Op Note bit V β) → Code Op Note bit V β
  | done value, next => next value
  | op f operands rest, next => op f operands fun value => (rest value).bind next
  | note mark rest, next => note mark (rest.bind next)
  | choice test condition if_true if_false rest, next =>
    choice test condition if_true if_false fun value => (rest value).bind next
  | short_circuit decided left condition right rest, next =>
    short_circuit decided left condition right fun value => (rest value).bind next
  | guarded test condition body rest, next => guarded test condition body (rest.bind next)
  | attempt first handler rest, next => attempt first handler fun value => (rest value).bind next
  | raise message, _ => raise message
  | crash, _ => crash

instance : Monad (Code Op Note bit V) where
  pure := done
  bind := bind

/-- One instruction. -/
def emit {types : List Ty} {type : Ty} (f : Op types type) (operands : Operands V types) :
    Code Op Note bit V (V type) :=
  op f operands done

end Code

end StructuredCode
