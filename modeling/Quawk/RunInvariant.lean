import Quawk.Execution

namespace quawk

open StatefulRun (Result Run)
open StructuredCode (Operands)

variable {R : Runtime} {α β σ : Type}

/-- However the code ends, the property holds behind it if it did before. -/
def Respects (inv : Machine R → Prop) (code : Exec R α) : Prop := ∀ machine, inv machine → inv (code machine).2

namespace Respects

variable {inv : Machine R → Prop}

theorem unchanged {code : Exec R α} (h : ∀ machine, (code machine).2 = machine) : Respects inv code :=
  fun machine hinv => (h machine).symm ▸ hinv

theorem pure (value : α) : Respects inv (Pure.pure value : Exec R α) := .unchanged fun _ => rfl

theorem bind {first : Exec R α} {next : α → Exec R β} (h1 : Respects inv first) (h2 : ∀ value, Respects inv (next value)) :
    Respects inv (first >>= next) := by
  intro machine hinv
  have hfirst := h1 machine hinv
  have hbind : (first >>= next) machine = Run.bind first next machine := rfl
  rw [hbind]
  unfold Run.bind
  cases hresult : first machine with
  | mk result after =>
    rw [hresult] at hfirst
    cases result with
    | value value => exact h2 value after hfirst
    | timeout | raised _ | crashed => exact hfirst

theorem attempt {first : Exec R α} {handler : String → Exec R α} (h1 : Respects inv first)
    (h2 : ∀ message, Respects inv (handler message)) : Respects inv (Run.attempt first handler) := by
  intro machine hinv
  have hfirst := h1 machine hinv
  unfold Run.attempt
  cases hresult : first machine with
  | mk result after =>
    rw [hresult] at hfirst
    cases result with
    | raised message => exact h2 message after hfirst
    | value _ | timeout | crashed => exact hfirst

theorem iterate {step : σ → Exec R (σ ⊕ β)} (h : ∀ position, Respects inv (step position)) (fuel : Nat) (position : σ) :
    Respects inv (Run.iterate step fuel position) := by
  induction fuel generalizing position with
  | zero => exact .unchanged fun _ => rfl
  | succ fuel ih =>
    refine (h position).bind fun result => ?_
    cases result with
    | inl position => exact ih position
    | inr value => exact .pure value

end Respects

/-- A property of machines that nothing a run does changes. -/
structure Invariant (inv : Machine R → Prop) : Prop where
  op : ∀ {types : List Ty} {type : Ty} (f : Op types type) (operands : Operands (Value R.Number) types) machine,
    inv machine → inv ((machine.note (.op types type f)).perform f operands).2
  call : ∀ function arity machine, inv machine → inv (machine.note (.op _ _ (.qk_fn function arity)))
  frame : ∀ machine locals params, inv machine → inv { machine with locals := locals, params := params }
  request_exit : ∀ in_function status machine, inv machine → inv (request_exit in_function status machine).2
  nextfile : ∀ machine, inv machine → inv { machine with world := R.nextfile machine.world }
  next_record : ∀ machine, inv machine → inv (next_record machine).2
  phase : ∀ phase machine, inv machine → inv (machine.note (.enter phase)) ∧ inv (machine.note (.leave phase))

namespace Invariant

variable {inv : Machine R → Prop} {calls : Calls R}

theorem keeps_op (h : Invariant inv) (hcalls : ∀ function args, Respects inv (calls function args)) {types : List Ty}
    {type : Ty} (f : Op types type) (operands : Operands (Value R.Number) types) :
    Respects inv (perform_op calls f operands) := by
  intro machine hinv
  unfold perform_op
  split
  · exact hcalls _ _ _ (h.call _ _ machine hinv)
  · exact h.op f operands machine hinv

theorem keeps_eval (h : Invariant inv) (hcalls : ∀ function args, Respects inv (calls function args))
    (code : Code (Value R.Number) α) : Respects inv (eval calls code) := by
  induction code with
  | done value => exact .pure value
  | op f operands next ih =>
    rw [eval]
    exact (h.keeps_op hcalls f operands).bind ih
  | note _ next ih =>
    rw [eval]
    exact ih
  | choice _ condition if_true if_false next ih_true ih_false ih =>
    rw [eval]
    split_ifs
    · exact Respects.bind ih_true ih
    · exact Respects.bind ih_false ih
  | short_circuit decided _ condition right next ih_right ih =>
    rw [eval]
    split_ifs
    · exact Respects.bind (.pure decided) ih
    · exact Respects.bind ih_right ih
  | guarded _ condition body next ih_body ih =>
    rw [eval]
    split_ifs
    · exact Respects.bind ih_body fun _ => ih
    · exact ih
  | attempt first handler next ih_first ih_handler ih =>
    rw [eval]
    exact Respects.bind (.attempt ih_first ih_handler) ih
  | raise message => exact .unchanged fun _ => rfl
  | crash => exact .unchanged fun _ => rfl

theorem keeps_loop_body {body : Exec R Completion} {again : Exec R (σ ⊕ Completion)} (hbody : Respects inv body)
    (hagain : Respects inv again) : Respects inv (loop_body body again) := by
  refine hbody.bind fun completion => ?_
  cases completion with
  | normal | continued => exact hagain
  | broke | left | returned _ => exact .pure _

theorem keeps_exec (h : Invariant inv) (hcalls : ∀ function args, Respects inv (calls function args)) (in_function : Bool)
    (fuel : Nat) (block : Block (Value R.Number)) : Respects inv (exec calls in_function fuel block) := by
  have heval {α : Type} (code : Code (Value R.Number) α) : Respects inv (eval calls code) := h.keeps_eval hcalls code
  have hexit (status : Option Int) : Respects inv (quawk.request_exit in_function status : Exec R Unit) :=
    h.request_exit in_function status
  induction block with
  | skip => exact .pure _
  | seq first second ih_first ih_second =>
    rw [exec]
    refine ih_first.bind fun completion => ?_
    cases completion with
    | normal => exact ih_second
    | broke | continued | left | returned _ => exact .pure _
  | code code =>
    rw [exec]
    exact (heval code).bind fun _ => .pure _
  | if_statement _ condition then_branch ih_then =>
    rw [exec]
    refine (heval condition).bind fun holds => ?_
    split_ifs
    · exact ih_then
    · exact .pure _
  | if_else_statement _ condition then_branch else_branch ih_then ih_else =>
    rw [exec]
    refine (heval condition).bind fun holds => ?_
    split_ifs
    · exact ih_then
    · exact ih_else
  | while_statement _ condition body ih =>
    rw [exec]
    refine .iterate (fun _ => (heval condition).bind fun holds => ?_) fuel ()
    split_ifs
    · exact keeps_loop_body ih (.pure _)
    · exact .pure _
  | do_while_statement body _ condition ih =>
    rw [exec]
    refine .iterate (fun _ => keeps_loop_body ih ((heval condition).bind fun holds => ?_)) fuel ()
    split_ifs
    · exact .pure _
    · exact .pure _
  | for_statement init _ condition body update ih =>
    rw [exec]
    refine (heval init).bind fun _ => .iterate (fun _ => (heval condition).bind fun holds => ?_) fuel ()
    split_ifs
    · exact keeps_loop_body ih ((heval update).bind fun _ => .pure _)
    · exact .pure _
  | for_in_statement array_name body ih =>
    rw [exec]
    refine (h.keeps_op hcalls _ _).bind fun first_key => .iterate (fun key => ?_) fuel first_key
    cases key with
    | none => exact .pure _
    | some key => exact keeps_loop_body (ih _) ((h.keeps_op hcalls _ _).bind fun _ => .pure _)
  | break_statement => exact .pure _
  | continue_statement => exact .pure _
  | next_statement => exact .pure _
  | nextfile_statement => exact h.nextfile
  | exit_statement status =>
    cases status with
    | none => exact (hexit none).bind fun _ => .pure _
    | some status =>
      rw [exec]
      exact (heval status).bind fun status => (hexit (some status)).bind fun _ => .pure _
  | return_statement value =>
    rw [exec]
    exact (heval value).bind fun value => .pure _
  | raise message => exact .unchanged fun _ => rfl

theorem keeps_selected (h : Invariant inv) (hcalls : ∀ function args, Respects inv (calls function args)) (fuel : Nat)
    (right_condition : Code (Value R.Number) Bool) (action : Block (Value R.Number)) (slot_name : Address) (selected : Bool) :
    Respects inv (exec_selected calls fuel right_condition action slot_name selected) := by
  cases selected with
  | false => exact .pure _
  | true =>
    refine (h.keeps_exec hcalls false fuel action).bind fun completion => ?_
    cases completion with
    | normal =>
      exact (h.keeps_eval hcalls right_condition).bind fun _ => (h.keeps_op hcalls _ _).bind fun _ => .pure _
    | broke | continued | left | returned _ => exact .pure _

theorem keeps_record_item (h : Invariant inv) (hcalls : ∀ function args, Respects inv (calls function args)) (fuel : Nat)
    (item : RecordBlock (Value R.Number)) : Respects inv (exec_record_item calls fuel item) := by
  have hexec (action : Block (Value R.Number)) : Respects inv (exec calls false fuel action) :=
    h.keeps_exec hcalls false fuel action
  cases item with
  | always action => exact hexec action
  | on_match _ condition action =>
    refine (h.keeps_eval hcalls condition).bind fun holds => ?_
    split_ifs
    · exact hexec action
    · exact .pure _
  | on_range _ active _ _ left_condition right_condition action =>
    have hselected := h.keeps_selected hcalls fuel right_condition action
    refine (h.keeps_eval hcalls active).bind fun slot_name => (h.keeps_op hcalls _ _).bind fun active_value => ?_
    split_ifs
    · exact hselected slot_name true
    · exact (h.keeps_eval hcalls left_condition).bind fun selected => hselected slot_name selected
  | raise message => exact .unchanged fun _ => rfl

theorem keeps_record_items (h : Invariant inv) (hcalls : ∀ function args, Respects inv (calls function args)) (fuel : Nat)
    (items : List (RecordBlock (Value R.Number))) : Respects inv (exec_record_items calls fuel items) := by
  induction items with
  | nil => exact .pure _
  | cons item rest ih =>
    refine (h.keeps_record_item hcalls fuel item).bind fun completion => ?_
    cases completion with
    | normal => exact ih
    | broke | continued | left | returned _ => exact .pure _

theorem keeps_actions (h : Invariant inv) (hcalls : ∀ function args, Respects inv (calls function args)) (fuel : Nat)
    (actions : List (Block (Value R.Number))) : Respects inv (exec_actions calls fuel actions) := by
  induction actions with
  | nil => exact .pure _
  | cons action rest ih =>
    refine (h.keeps_exec hcalls false fuel action).bind fun completion => ?_
    cases completion with
    | normal => exact ih
    | broke | continued | left | returned _ => exact .pure _

theorem keeps_in_frame (h : Invariant inv) {body : Exec R α} (hbody : Respects inv body) (params : Nat → Option Text) :
    Respects inv (in_frame params body) :=
  fun machine hinv => h.frame _ _ _ (hbody _ (h.frame machine _ _ hinv))

variable (blocks : ProgramBlocks (Value R.Number))

theorem keeps_call (h : Invariant inv) (fuel : Nat) (function : Name) (args : List (Option Text)) :
    Respects inv (call_function blocks fuel function args) := by
  induction fuel generalizing function args with
  | zero => exact .unchanged fun _ => rfl
  | succ fuel ih =>
    unfold call_function
    split
    · exact .unchanged fun _ => rfl
    · exact (h.keeps_in_frame (h.keeps_exec ih true fuel _) _).bind fun _ => .pure _

theorem keeps_phase (h : Invariant inv) (phase : Phase) {body : Exec R Completion} (hbody : Respects inv body) :
    Respects inv (exec_phase phase body) := by
  have henter : Respects inv (note (.enter phase) : Exec R Unit) := fun machine hinv => (h.phase phase machine hinv).1
  have hleave : Respects inv (note (.leave phase) : Exec R Unit) := fun machine hinv => (h.phase phase machine hinv).2
  exact henter.bind fun _ => (h.keeps_in_frame hbody _).bind fun _ => hleave

theorem keeps_record_loop (h : Invariant inv) (fuel : Nat) : Respects inv (record_loop blocks fuel) := by
  have hcalls := h.keeps_call blocks fuel
  have hexit : Respects inv (should_exit : Exec R Bool) := .unchanged fun _ => rfl
  have hafter : Respects inv (do if ← should_exit then pure (.inr ()) else pure (.inl ()) : Exec R (Unit ⊕ Unit)) := by
    refine hexit.bind fun requested => ?_
    split_ifs
    · exact .pure _
    · exact .pure _
  refine hexit.bind fun requested => ?_
  cases requested with
  | true => exact .pure _
  | false =>
    refine .iterate (fun _ => Respects.bind h.next_record fun available => ?_) fuel ()
    cases available with
    | false => exact .pure _
    | true =>
      simp only [if_true]
      split_ifs
      · exact hafter
      · exact (h.keeps_phase .record_phase (h.keeps_record_items hcalls fuel blocks.record_items)).bind fun _ => hafter

/-- The whole run keeps what its steps keep. -/
theorem keeps_main (h : Invariant inv) (fuel : Nat) : Respects inv (quawk_main blocks fuel) := by
  have hcalls := h.keeps_call blocks fuel
  have hphase (phase : Phase) (actions : List (Block (Value R.Number))) :
      Respects inv (exec_phase phase (exec_actions (call_function blocks fuel) fuel actions)) :=
    h.keeps_phase phase (h.keeps_actions hcalls fuel actions)
  have hend : Respects inv (do
      exec_phase .end_phase (exec_actions (call_function blocks fuel) fuel blocks.end_actions)
      exit_status : Exec R Int) := (hphase .end_phase _).bind fun _ => .unchanged fun _ => rfl
  refine (hphase .begin_phase _).bind fun _ => ?_
  split_ifs
  · exact hend
  · exact (h.keeps_record_loop blocks fuel).bind fun _ => hend

end Invariant

end quawk
