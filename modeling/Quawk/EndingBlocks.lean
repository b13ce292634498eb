import Quawk.EndingCode

namespace quawk

open StatefulRun (Result Run)

variable {R : Runtime} {α β σ : Type}

section Blocks

variable {calls : Calls R}

theorem perform_op_neverEnds (hcalls : ∀ function args, NeverEnds (calls function args)) {types : List Ty}
    {type : Ty} (f : Op types type) (operands : StructuredCode.Operands (Value R.Number) types) :
    NeverEnds (perform_op calls f operands) := by
  refine .of_quiet fun machine => ?_
  have hagrees (h : Agrees machine) : Agrees (machine.note (.op types type f)) :=
    h.note fun _ _ heq => by cases heq
  unfold perform_op
  split
  · obtain ⟨events, hlog, hagrees', hquiet⟩ := (hcalls _ _).quiet _
    exact ⟨_ :: events, by rw [hlog, Machine.note_log, List.append_assoc]; rfl, hagrees' ∘ hagrees,
      (Quiet.op).append hquiet⟩
  · obtain ⟨hlog, hrequested, hstatus⟩ := Machine.perform_exit
      (machine.note (.op types type f)) f operands
    exact ⟨_, hlog, fun h => (hagrees h).of_eq hlog hrequested hstatus, Quiet.op⟩

theorem eval_neverEnds (hcalls : ∀ function args, NeverEnds (calls function args))
    (code : Code (Value R.Number) α) : NeverEnds (eval calls code) := by
  induction code with
  | done value => exact .pure value
  | op f operands next ih =>
    rw [eval]
    exact (perform_op_neverEnds hcalls f operands).bind ih
  | note _ next ih =>
    rw [eval]
    exact ih
  | choice _ condition if_true if_false next ih_true ih_false ih =>
    rw [eval]
    split_ifs
    · exact NeverEnds.bind ih_true ih
    · exact NeverEnds.bind ih_false ih
  | short_circuit decided _ condition right next ih_right ih =>
    rw [eval]
    split_ifs
    · exact NeverEnds.bind (.pure decided) ih
    · exact NeverEnds.bind ih_right ih
  | guarded _ condition body next ih_body ih =>
    rw [eval]
    split_ifs
    · exact NeverEnds.bind ih_body fun _ => ih
    · exact ih
  | attempt first handler next ih_first ih_handler ih =>
    rw [eval]
    exact NeverEnds.bind (EndsAt.attempt ih_first ih_handler) ih
  | raise message => exact .silent fun _ => rfl
  | crash => exact .silent fun _ => rfl

/-- How an exit leaves a block of a phase. In a function it does not end the phase. -/
def LeavesPhase (in_function : Bool) (completion : Completion) : Prop :=
  in_function = false ∧ completion = .left

theorem request_exit_endsAt (in_function : Bool) (status : Option Int) :
    EndsAt (LeavesPhase in_function)
      (do
        request_exit in_function status
        pure (if in_function then .returned (some []) else .left) : Exec R Completion) := by
  intro machine
  refine ⟨[.exit in_function status], rfl, fun _ => request_exit_agrees in_function status machine, ?_⟩
  cases in_function with
  | true => exact Or.inl (Quiet.singleton rfl)
  | false => exact Or.inr ⟨[], status, .left, rfl, Quiet.nil, rfl, rfl, rfl⟩

/-- How an exit leaves a step of a loop. -/
def LeavesLoop (in_function : Bool) (result : σ ⊕ Completion) : Prop :=
  ∃ completion, result = .inr completion ∧ LeavesPhase in_function completion

theorem EndsAt.loop_body {in_function : Bool} {body : Exec R Completion} {again : Exec R (σ ⊕ Completion)}
    (hbody : EndsAt (LeavesPhase in_function) body) (hagain : EndsAt (LeavesLoop in_function) again) :
    EndsAt (LeavesLoop in_function) (loop_body body again) := by
  refine hbody.bind (fun completion => ?_) ?_
  · cases completion with
    | normal | continued => exact hagain
    | broke | left | returned _ => exact .pure _
  · rintro _ ⟨hphase, rfl⟩
    exact ⟨.inr .left, rfl, .left, rfl, hphase, rfl⟩

theorem exec_endsAt (hcalls : ∀ function args, NeverEnds (calls function args)) (in_function : Bool)
    (fuel : Nat) (block : Block (Value R.Number)) :
    EndsAt (LeavesPhase in_function) (exec calls in_function fuel block) := by
  have heval {α : Type} (code : Code (Value R.Number) α) : NeverEnds (eval calls code) :=
    eval_neverEnds hcalls code
  induction block with
  | skip => exact .pure _
  | seq first second ih_first ih_second =>
    rw [exec]
    refine ih_first.bind (fun completion => ?_) ?_
    · cases completion with
      | normal => exact ih_second
      | broke | continued | left | returned _ => exact .pure _
    · rintro _ ⟨hphase, rfl⟩
      exact ⟨.left, rfl, hphase, rfl⟩
  | code code =>
    rw [exec]
    exact (heval code).bind fun _ => .pure _
  | if_statement _ condition then_branch ih_then =>
    rw [exec]
    refine (heval condition).bind fun holds => ?_
    split_ifs
    · exact ih_then
    · exact .pure _
  | if_else_statement _ condition then_branch else_branch ih_then ih_else =>
    rw [exec]
    refine (heval condition).bind fun holds => ?_
    split_ifs
    · exact ih_then
    · exact ih_else
  | while_statement _ condition body ih =>
    rw [exec]
    refine .iterate (fun _ => (heval condition).bind fun holds => ?_) fuel ()
    split_ifs
    · exact .loop_body ih (.pure _)
    · exact .pure _
  | do_while_statement body _ condition ih =>
    rw [exec]
    refine .iterate (fun _ => .loop_body ih ((heval condition).bind fun holds => ?_)) fuel ()
    split_ifs
    · exact .pure _
    · exact .pure _
  | for_statement init _ condition body update ih =>
    rw [exec]
    refine (heval init).bind fun _ => .iterate (fun _ => (heval condition).bind fun holds => ?_) fuel ()
    split_ifs
    · exact .loop_body ih ((heval update).bind fun _ => .pure _)
    · exact .pure _
  | for_in_statement array_name body ih =>
    rw [exec]
    refine (perform_op_neverEnds hcalls _ _).bind fun first_key => .iterate (fun key => ?_) fuel first_key
    cases key with
    | none => exact .pure _
    | some key => exact .loop_body (ih _) ((perform_op_neverEnds hcalls _ _).bind fun _ => .pure _)
  | break_statement => exact .pure _
  | continue_statement => exact .pure _
  | next_statement => exact .pure _
  | nextfile_statement =>
    exact .of_quiet fun _ => ⟨[], (List.append_nil _).symm, fun h => h.of_eq rfl rfl rfl, Quiet.nil⟩
  | exit_statement status =>
    cases status with
    | none => exact request_exit_endsAt in_function none
    | some status =>
      rw [exec]
      exact (heval status).bind fun status => request_exit_endsAt in_function (some status)
  | return_statement value =>
    rw [exec]
    exact (heval value).bind fun value => .pure _
  | raise message => exact .silent fun _ => rfl

theorem exec_selected_endsAt (hcalls : ∀ function args, NeverEnds (calls function args)) (fuel : Nat)
    (right_condition : Code (Value R.Number) Bool) (action : Block (Value R.Number)) (slot_name : Address) (selected : Bool) :
    EndsAt (LeavesPhase false) (exec_selected calls fuel right_condition action slot_name selected) := by
  cases selected with
  | false => exact .pure _
  | true =>
    refine (exec_endsAt hcalls false fuel action).bind (fun completion => ?_) ?_
    · cases completion with
      | normal =>
        exact (eval_neverEnds hcalls right_condition).bind fun _ =>
          (perform_op_neverEnds hcalls _ _).bind fun _ => .pure _
      | broke | continued | left | returned _ => exact .pure _
    · rintro _ ⟨hphase, rfl⟩
      exact ⟨.left, rfl, hphase, rfl⟩

theorem exec_record_item_endsAt (hcalls : ∀ function args, NeverEnds (calls function args)) (fuel : Nat)
    (item : RecordBlock (Value R.Number)) :
    EndsAt (LeavesPhase false) (exec_record_item calls fuel item) := by
  cases item with
  | always action => exact exec_endsAt hcalls false fuel action
  | on_match _ condition action =>
    refine (eval_neverEnds hcalls condition).bind fun holds => ?_
    split_ifs
    · exact exec_endsAt hcalls false fuel action
    · exact .pure _
  | on_range _ active _ _ left_condition right_condition action =>
    have hselected := exec_selected_endsAt hcalls fuel right_condition action
    refine (eval_neverEnds hcalls active).bind fun slot_name =>
      (perform_op_neverEnds hcalls _ _).bind fun active_value => ?_
    split_ifs
    · exact hselected slot_name true
    · exact (eval_neverEnds hcalls left_condition).bind fun selected => hselected slot_name selected
  | raise message => exact .silent fun _ => rfl

theorem exec_record_items_endsAt (hcalls : ∀ function args, NeverEnds (calls function args)) (fuel : Nat)
    (items : List (RecordBlock (Value R.Number))) :
    EndsAt (LeavesPhase false) (exec_record_items calls fuel items) := by
  induction items with
  | nil => exact .pure _
  | cons item rest ih =>
    refine (exec_record_item_endsAt hcalls fuel item).bind (fun completion => ?_) ?_
    · cases completion with
      | normal => exact ih
      | broke | continued | left | returned _ => exact .pure _
    · rintro _ ⟨hphase, rfl⟩
      exact ⟨.left, rfl, hphase, rfl⟩

theorem exec_actions_endsAt (hcalls : ∀ function args, NeverEnds (calls function args)) (fuel : Nat)
    (actions : List (Block (Value R.Number))) :
    EndsAt (LeavesPhase false) (exec_actions calls fuel actions) := by
  induction actions with
  | nil => exact .pure _
  | cons action rest ih =>
    refine (exec_endsAt hcalls false fuel action).bind (fun completion => ?_) ?_
    · cases completion with
      | normal => exact ih
      | broke | continued | left | returned _ => exact .pure _
    · rintro _ ⟨hphase, rfl⟩
      exact ⟨.left, rfl, hphase, rfl⟩

end Blocks

end quawk
