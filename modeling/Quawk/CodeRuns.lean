import Quawk.Execution
import Quawk.Lib.EndingRun

namespace quawk

open StructuredCode (Operands)
open StatefulRun (Result Run)

section Code

variable {R : Runtime} (calls : Calls R)

theorem eval_bind {α β : Type} (code : Code (Value R.Number) α)
    (next : α → Code (Value R.Number) β) :
    eval calls (code >>= next) = eval calls code >>= fun value => eval calls (next value) := by
  change eval calls (code.bind next) = _
  induction code with
  | done value => rfl
  | op f operands rest ih =>
    rw [StructuredCode.Code.bind, eval, eval, Run.bind_assoc]
    exact congrArg _ (funext fun value => ih value next)
  | note _ rest ih => exact ih next
  | choice _ condition if_true if_false rest _ _ ih =>
    rw [StructuredCode.Code.bind, eval, eval]
    split_ifs <;> rw [Run.bind_assoc] <;> exact congrArg _ (funext fun value => ih value next)
  | short_circuit decided _ condition right rest _ ih =>
    rw [StructuredCode.Code.bind, eval, eval]
    split_ifs <;> rw [Run.bind_assoc] <;> exact congrArg _ (funext fun value => ih value next)
  | guarded _ condition body rest _ ih =>
    rw [StructuredCode.Code.bind, eval, eval]
    split_ifs
    · rw [Run.bind_assoc]
      exact congrArg _ (funext fun _ => ih next)
    · exact ih next
  | attempt first handler rest _ _ ih =>
    rw [StructuredCode.Code.bind, eval, eval, Run.bind_assoc]
    exact congrArg _ (funext fun value => ih value next)
  | raise message => rfl
  | crash => rfl

theorem eval_emit {types : List Ty} {type : Ty} (f : Op types type) (operands : Operands (Value R.Number) types) :
    eval calls (StructuredCode.Code.emit f operands) = perform_op calls f operands := Run.bind_pure _

theorem eval_emit_void {types : List Ty} (f : Op types .unit) (operands : Operands (Value R.Number) types) :
    eval calls (emit_void f operands) = perform_op calls f operands := Run.bind_pure _

end Code

/-- A lowered expression keeps the expression it comes from. -/
theorem lower_expression_expression {state : LoweringState} {V : Ty → Type} (keys : Name → Option (V .ptr)) (expression : Expr) :
    (lower_expression state keys expression).expression = expression := by
  cases expression with
  | getline target source => cases target <;> cases source <;> rw [lower_expression] <;> rfl
  | binary left op right => rw [lower_expression]; cases op <;> rfl
  | unary op operand => rw [lower_expression]; cases op <;> rfl
  | postfix_op operand op => rw [lower_expression]; cases op <;> rfl
  | _ => rw [lower_expression] <;> rfl

end quawk
