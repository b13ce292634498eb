import Quawk.DriverTrace

open StatefulRun (Result Run)
open StructuredCode.Code (bind_eq_ok)

namespace quawk

def Item.begin_action : Item → Option Action
  | .pattern_action (some .begin_pattern) action => action
  | _ => none

def Item.end_action : Item → Option Action
  | .pattern_action (some .end_pattern) action => action
  | _ => none

/-- The pattern and the action of a record item. -/
def Item.record_rule : Item → Option (Option Pattern × Option Action)
  | .function _ | .pattern_action (some .begin_pattern) _ | .pattern_action (some .end_pattern) _ => none
  | .pattern_action pattern action => some (pattern, action)

def NormalizedRecordItem.rule (item : NormalizedRecordItem) : Option Pattern × Option Action :=
  (item.pattern, item.action)

/-- The phases after some items of the program: those before, and what the items add in their order. -/
structure InSourceOrder (items : List Item) (before after : PhaseItems) : Prop where
  begin_actions : after.begin_actions = before.begin_actions ++ items.filterMap Item.begin_action
  record_items : after.record_items.map NormalizedRecordItem.rule =
    before.record_items.map NormalizedRecordItem.rule ++ items.filterMap Item.record_rule
  end_actions : after.end_actions = before.end_actions ++ items.filterMap Item.end_action

theorem InSourceOrder.nil (phases : PhaseItems) : InSourceOrder [] phases phases :=
  ⟨(List.append_nil _).symm, (List.append_nil _).symm, (List.append_nil _).symm⟩

theorem InSourceOrder.append {front back : List Item} {before middle after : PhaseItems}
    (h1 : InSourceOrder front before middle) (h2 : InSourceOrder back middle after) :
    InSourceOrder (front ++ back) before after where
  begin_actions := by rw [h2.begin_actions, h1.begin_actions, List.filterMap_append, List.append_assoc]
  record_items := by rw [h2.record_items, h1.record_items, List.filterMap_append, List.append_assoc]
  end_actions := by rw [h2.end_actions, h1.end_actions, List.filterMap_append, List.append_assoc]

theorem normalize_item_order {item : Item} {before after : PhaseItems} (h : normalize_item before item = .ok after) :
    InSourceOrder [item] before after := by
  match item with
  | .function _ | .pattern_action none (some action) | .pattern_action (some .begin_pattern) (some action)
  | .pattern_action (some .end_pattern) (some action) | .pattern_action (some (.expr test)) action
  | .pattern_action (some (.range left right)) action =>
    cases h
    constructor <;> simp [Item.begin_action, Item.record_rule, Item.end_action, NormalizedRecordItem.rule]
  | .pattern_action none none | .pattern_action (some .begin_pattern) none
  | .pattern_action (some .end_pattern) none => cases h

theorem normalize_items_order {items : List Item} {before after : PhaseItems}
    (h : items.foldlM normalize_item before = .ok after) : InSourceOrder items before after := by
  induction items generalizing before with
  | nil =>
    cases h
    exact .nil _
  | cons item rest ih =>
    rw [List.foldlM_cons] at h
    obtain ⟨middle, hitem, hrest⟩ := bind_eq_ok h
    exact (normalize_item_order hitem).append (ih hrest)

/-- The blocks of a program are its items, lowered one by one in source order. -/
structure LoweredInOrder {V : Ty → Type} (program : Program) (blocks : ProgramBlocks V) : Prop where
  begin_actions : ∃ state, blocks.begin_actions = (program.items.filterMap Item.begin_action).map (lower_action state)
  record_items : ∃ (state : LoweringState) (items : List NormalizedRecordItem),
    items.map NormalizedRecordItem.rule = program.items.filterMap Item.record_rule ∧
      blocks.record_items = items.map (lower_runtime_record_item state)
  end_actions : ∃ state, blocks.end_actions = (program.items.filterMap Item.end_action).map (lower_action state)

theorem lower_to_llvm_ir_order {V : Ty → Type} {program : Program} {blocks : ProgramBlocks V}
    (h : lower_to_llvm_ir program = .ok blocks) : LoweredInOrder program blocks := by
  unfold lower_to_llvm_ir at h
  cases hnormalize : normalize_program_for_lowering program with
  | error message =>
    rw [hnormalize] at h
    cases h
  | ok normalized_program =>
    rw [hnormalize] at h
    cases h
    obtain ⟨phases, hphases, hnormalize⟩ := bind_eq_ok hnormalize
    obtain ⟨variable_indexes, _, hnormalize⟩ := bind_eq_ok hnormalize
    cases hnormalize
    have horder := normalize_items_order hphases
    exact ⟨⟨_, congrArg _ horder.begin_actions⟩, ⟨_, _, horder.record_items, rfl⟩, ⟨_, congrArg _ horder.end_actions⟩⟩

section Placed

variable {V : Ty → Type}

/-- A block of a phase: `break` and `continue` stand in loops only, and `return` nowhere. -/
def Block.Placed : Block V → Bool → Prop
  | .skip, _ | .code _, _ | .next_statement, _ | .nextfile_statement, _ | .exit_statement _, _ | .raise _, _ => True
  | .seq first second, in_loop => first.Placed in_loop ∧ second.Placed in_loop
  | .if_statement _ _ then_branch, in_loop => then_branch.Placed in_loop
  | .if_else_statement _ _ then_branch else_branch, in_loop =>
    then_branch.Placed in_loop ∧ else_branch.Placed in_loop
  | .while_statement _ _ body, _ | .do_while_statement body _ _, _ | .for_statement _ _ _ body _, _ => body.Placed true
  | .for_in_statement _ body, _ => ∀ key, (body key).Placed true
  | .break_statement, in_loop | .continue_statement, in_loop => in_loop = true
  | .return_statement _, _ => False

mutual

theorem statement_placed : (statement : Stmt) → (state : LoweringState) → (keys : Name → Option (V .ptr)) →
    (place : Surroundings) → place.in_function = false →
    (lower_statement statement state keys place).Placed place.in_loop
  | .block statements, state, keys, place, h => statements_placed statements state keys place h
  | .break_stmt, state, keys, place, _ | .continue_stmt, state, keys, place, _ => by
    unfold lower_statement
    split
    · assumption
    · trivial
  | .if_stmt condition then_branch none, state, keys, place, h => statement_placed then_branch state keys place h
  | .if_stmt condition then_branch (some else_branch), state, keys, place, h =>
    ⟨statement_placed then_branch state keys place h, statement_placed else_branch state keys place h⟩
  | .while_stmt condition body, state, keys, place, h | .do_while body condition, state, keys, place, h
  | .for_stmt init condition update body, state, keys, place, h =>
    statement_placed body state keys { place with in_loop := true } h
  | .for_in name (.name array_name) body, state, keys, place, h => fun key =>
    statement_placed body (state.bind_loop_string name) (bind_key keys name key) { place with in_loop := true } h
  | .return_stmt value, state, keys, place, h => by
    unfold lower_statement
    rw [if_neg (by simp [h])]
    trivial
  | .next, state, keys, place, h | .nextfile, state, keys, place, h => by
    unfold lower_statement
    rw [if_neg (by simp [h])]
    trivial
  | .for_in _ (.string_literal _) _, _, _, _, _ | .for_in _ (.numeric_literal _) _, _, _, _, _
  | .for_in _ (.regex_literal _) _, _, _, _, _ | .for_in _ (.field_at _) _, _, _, _, _
  | .for_in _ (.field _) _, _, _, _, _ | .for_in _ (.call _ _) _, _, _, _, _
  | .for_in _ (.array_index _ _ _) _, _, _, _, _ | .for_in _ (.getline _ _) _, _, _, _, _
  | .for_in _ (.binary _ _ _) _, _, _, _, _ | .for_in _ (.conditional _ _ _) _, _, _, _, _
  | .for_in _ (.assign _ _ _) _, _, _, _, _ | .for_in _ (.unary _ _) _, _, _, _, _
  | .for_in _ (.postfix_op _ _) _, _, _, _, _ => trivial
  | .assign _ _ _, _, _, _, _ | .delete _, _, _, _, _ | .print _ _, _, _, _, _ | .printf _ _, _, _, _, _
  | .expr _, _, _, _, _ | .exit _, _, _, _, _ => trivial

theorem statements_placed : (statements : List Stmt) → (state : LoweringState) → (keys : Name → Option (V .ptr)) →
    (place : Surroundings) → place.in_function = false →
    (lower_statements statements state keys place).Placed place.in_loop
  | [], _, _, _, _ => trivial
  | statement :: rest, state, keys, place, h =>
    ⟨statement_placed statement state keys place h, statements_placed rest state keys place h⟩

end

theorem lower_action_placed (state : LoweringState) (action : Action) :
    (lower_action state action : Block V).Placed false := by
  unfold lower_action
  induction action with
  | nil => trivial
  | cons statement rest ih =>
    refine ⟨statement_placed statement state _ in_phase rfl, ?_⟩
    split
    · trivial
    · exact ih

theorem lower_runtime_action_or_default_placed (state : LoweringState) (action : Option Action) :
    (lower_runtime_action_or_default state action : Block V).Placed false := by
  cases action with
  | none => trivial
  | some action => exact lower_action_placed state action

def RecordBlock.Placed : RecordBlock V → Prop
  | .always action | .on_match _ _ action | .on_range _ _ _ _ _ _ action => action.Placed false
  | .raise _ => True

theorem lower_runtime_range_record_item_placed (state : LoweringState) (left right : Pattern) (action : Option Action)
    (range_state_name : Name) :
    (lower_runtime_range_record_item state left right action range_state_name : RecordBlock V).Placed := by
  unfold lower_runtime_range_record_item
  split
  · exact lower_runtime_action_or_default_placed state action
  · trivial

theorem lower_runtime_record_item_placed (state : LoweringState) (item : NormalizedRecordItem) :
    (lower_runtime_record_item state item : RecordBlock V).Placed := by
  unfold lower_runtime_record_item
  split
  · exact lower_runtime_action_or_default_placed state item.action
  · exact lower_runtime_action_or_default_placed state item.action
  · split
    · exact lower_runtime_range_record_item_placed state _ _ item.action _
    · trivial
  · trivial

end Placed

section Turns

variable {R : Runtime} {α β σ : Type} {ι : Type 1}

/-- Every value a run gives has `post`. -/
def Gives (post : α → Prop) (code : Exec R α) : Prop :=
  Run.Triple (fun _ => True) code (fun value _ => post value) fun _ => True

theorem Gives.always {code : Exec R α} : Gives (fun _ => True) code :=
  .intro (fun _ _ _ _ => trivial) fun _ _ _ => trivial

theorem Gives.pure {post : α → Prop} {value : α} (h : post value) : Gives post (Pure.pure value : Exec R α) :=
  Run.Triple.pure fun _ _ => h

theorem Gives.bind {post : α → Prop} {post' : β → Prop} {first : Exec R α} {next : α → Exec R β}
    (h1 : Gives post first) (h2 : ∀ value, post value → Gives post' (next value)) : Gives post' (first >>= next) :=
  Run.Triple.bind h1 fun value machine hvalue => h2 value hvalue machine trivial

/-- Code that does not matter for what the run gives. -/
theorem Gives.after {post : β → Prop} {first : Exec R α} {next : α → Exec R β} (h : ∀ value, Gives post (next value)) :
    Gives post (first >>= next) :=
  Gives.always.bind fun value _ => h value

/-- What the step gives where it ends the loop. -/
def EndsLoop (post : α → Prop) (result : σ ⊕ α) : Prop := ∀ value, result = .inr value → post value

theorem Gives.iterate {post : α → Prop} {step : σ → Exec R (σ ⊕ α)}
    (h : ∀ position, Gives (EndsLoop post) (step position)) (fuel : Nat) (position : σ) :
    Gives post (Run.iterate step fuel position) := by
  have hstep (position : σ) : Run.Triple (fun _ => True) (step position)
      (fun result => result.elim (fun _ _ => True) fun value _ => post value) fun _ => True := by
    refine (h position).mono (fun _ h => h) (fun result _ hends => ?_) fun _ h => h
    cases result with
    | inl _ => trivial
    | inr value => exact hends value rfl
  exact Run.Triple.iterate hstep (fun _ _ _ => trivial) fuel position

theorem endsLoop_inl {post : α → Prop} {position : σ} : EndsLoop post (.inl position) := fun _ heq => nomatch heq

theorem endsLoop_inr {post : α → Prop} {value : α} (h : post value) : EndsLoop post (.inr value : σ ⊕ α) := by
  rintro _ ⟨⟩
  exact h

/-- How a block of a phase may be left. -/
def Completion.Allowed (in_loop : Bool) : Completion → Prop
  | .normal | .left => True
  | .broke | .continued => in_loop = true
  | .returned _ => False

theorem Gives.loop_body {in_loop : Bool} {body : Exec R Completion} {again : Exec R (σ ⊕ Completion)}
    (hbody : Gives (Completion.Allowed true) body) (hagain : Gives (EndsLoop (Completion.Allowed in_loop)) again) :
    Gives (EndsLoop (Completion.Allowed in_loop)) (loop_body body again) := by
  refine hbody.bind fun completion hallowed => ?_
  cases completion with
  | normal | continued => exact hagain
  | broke | left => exact .pure (endsLoop_inr trivial)
  | returned value => exact hallowed.elim

variable (calls : Calls R) (fuel : Nat)

/-- A placed block is left by `break` or `continue` only in a loop, and never by `return`. -/
theorem exec_placed {block : Block (Value R.Number)} {in_loop : Bool} (h : block.Placed in_loop) :
    Gives (Completion.Allowed in_loop) (exec calls false fuel block) := by
  induction block generalizing in_loop with
  | skip => exact .pure trivial
  | seq first second ih_first ih_second =>
    rw [exec]
    refine (ih_first h.1).bind fun completion hallowed => ?_
    cases completion with
    | normal => exact ih_second h.2
    | broke | continued | left | returned _ => exact .pure hallowed
  | code code =>
    rw [exec]
    exact .after fun _ => .pure trivial
  | if_statement _ condition then_branch ih =>
    rw [exec]
    refine .after fun holds => ?_
    split_ifs
    · exact ih h
    · exact .pure trivial
  | if_else_statement _ condition then_branch else_branch ih_then ih_else =>
    rw [exec]
    refine .after fun holds => ?_
    split_ifs
    · exact ih_then h.1
    · exact ih_else h.2
  | while_statement _ condition body ih =>
    rw [exec]
    refine .iterate (fun _ => .after fun holds => ?_) fuel ()
    split_ifs
    · exact .loop_body (ih h) (.pure endsLoop_inl)
    · exact .pure (endsLoop_inr trivial)
  | do_while_statement body _ condition ih =>
    rw [exec]
    refine .iterate (fun _ => .loop_body (ih h) (.after fun holds => ?_)) fuel ()
    split_ifs
    · exact .pure endsLoop_inl
    · exact .pure (endsLoop_inr trivial)
  | for_statement init _ condition body update ih =>
    rw [exec]
    refine .after fun _ => .iterate (fun _ => .after fun holds => ?_) fuel ()
    split_ifs
    · exact .loop_body (ih h) (.after fun _ => .pure endsLoop_inl)
    · exact .pure (endsLoop_inr trivial)
  | for_in_statement array_name body ih =>
    rw [exec]
    refine .after fun first_key => .iterate (fun key => ?_) fuel first_key
    cases key with
    | none => exact .pure (endsLoop_inr trivial)
    | some key => exact .loop_body (ih _ (h _)) (.after fun _ => .pure endsLoop_inl)
  | break_statement | continue_statement => exact .pure h
  | next_statement => exact .pure trivial
  | nextfile_statement => exact fun _ _ => trivial
  | exit_statement status =>
    cases status with
    | none => exact .after fun _ => .pure trivial
    | some status =>
      rw [exec]
      exact .after fun _ => .after fun _ => .pure trivial
  | return_statement _ => exact h.elim
  | raise message => exact fun _ _ => trivial

theorem exec_selected_placed (right_condition : Code (Value R.Number) Bool) {action : Block (Value R.Number)}
    (h : action.Placed false) (slot_name : Address) (selected : Bool) :
    Gives (Completion.Allowed false) (exec_selected calls fuel right_condition action slot_name selected) := by
  cases selected with
  | false => exact .pure trivial
  | true =>
    refine (exec_placed calls fuel h).bind fun completion hallowed => ?_
    cases completion with
    | normal => exact .after fun _ => .after fun _ => .pure trivial
    | broke | continued | left | returned _ => exact .pure hallowed

theorem exec_record_item_placed {item : RecordBlock (Value R.Number)} (h : item.Placed) :
    Gives (Completion.Allowed false) (exec_record_item calls fuel item) := by
  cases item with
  | always action => exact exec_placed calls fuel h
  | on_match _ condition action =>
    refine .after fun holds => ?_
    split_ifs
    · exact exec_placed calls fuel h
    · exact .pure trivial
  | on_range _ active _ _ left_condition right_condition action =>
    have hselected := exec_selected_placed calls fuel right_condition h
    refine .after fun slot_name => .after fun active_value => ?_
    split_ifs
    · exact hselected slot_name true
    · exact .after fun selected => hselected slot_name selected
  | raise message => exact fun _ _ => trivial

/-- The items tried from one machine to another: each in its turn, none after one that is left by `next`,
`nextfile` or `exit`, or that does not return. It gives how they are left, if all of them return. -/
inductive TriedInTurn (try_item : ι → Exec R Completion) :
    List ι → Machine R → Option Completion → Machine R → Prop where
  | all (machine : Machine R) : TriedInTurn try_item [] machine (some .normal) machine
  | onward {item : ι} {rest : List ι} {machine middle after : Machine R} {outcome : Option Completion} :
    try_item item machine = (.value .normal, middle) → TriedInTurn try_item rest middle outcome after →
      TriedInTurn try_item (item :: rest) machine outcome after
  | left {item : ι} {rest : List ι} {machine after : Machine R} :
    try_item item machine = (.value .left, after) → TriedInTurn try_item (item :: rest) machine (some .left) after
  | stopped {item : ι} {rest : List ι} {machine after : Machine R} {result : Result Completion} :
    try_item item machine = (result, after) → (∀ completion, result ≠ .value completion) →
      TriedInTurn try_item (item :: rest) machine none after

/-- Go on with the next items where one completes normally. -/
def go_on (again : Exec R Completion) : Completion → Exec R Completion
  | .normal => again
  | completion => pure completion

/-- Items that are run until one is left are tried in turn. -/
theorem triedInTurn {try_item : ι → Exec R Completion} {run_items : List ι → Exec R Completion}
    (hnil : run_items [] = pure .normal)
    (hcons : ∀ item rest, run_items (item :: rest) = try_item item >>= go_on (run_items rest)) {items : List ι}
    (h : ∀ item ∈ items, Gives (Completion.Allowed false) (try_item item)) (machine : Machine R) :
    Run.Triple (· = machine) (run_items items) (fun completion => TriedInTurn try_item items machine (some completion))
      (TriedInTurn try_item items machine none) := by
  induction items generalizing machine with
  | nil =>
    rw [hnil]
    exact .pure fun after heq => by
      subst heq
      exact .all after
  | cons item rest ih =>
    have hitem := h item List.mem_cons_self machine trivial
    rw [hcons]
    have hfirst : Run.Triple (· = machine) (try_item item)
        (fun completion after => try_item item machine = (.value completion, after) ∧ completion.Allowed false)
        (TriedInTurn try_item (item :: rest) machine none) := by
      rintro start rfl
      cases heq : try_item item start with
      | mk result after =>
        rw [heq] at hitem
        cases result with
        | value completion => exact ⟨rfl, hitem⟩
        | timeout | raised _ | crashed => exact .stopped heq fun _ hvalue => nomatch hvalue
    refine hfirst.bind fun completion after hleft => ?_
    obtain ⟨heq, hallowed⟩ := hleft
    cases completion with
    | normal =>
      exact (ih (fun other hmem => h other (List.mem_cons_of_mem _ hmem)) after).mono (fun _ h => h)
        (fun _ _ hrest => .onward heq hrest) (fun _ hrest => .onward heq hrest) after rfl
    | left => exact .left heq
    | broke | continued => cases hallowed
    | returned _ => exact hallowed.elim

variable {program : Program} {blocks : ProgramBlocks (Value R.Number)}

theorem LoweredInOrder.begin_in_turn (h : LoweredInOrder program blocks) (machine : Machine R) :
    Run.Triple (· = machine) (exec_actions calls fuel blocks.begin_actions)
      (fun completion => TriedInTurn (exec calls false fuel) blocks.begin_actions machine (some completion))
      (TriedInTurn (exec calls false fuel) blocks.begin_actions machine none) := by
  obtain ⟨state, hactions⟩ := h.begin_actions
  refine triedInTurn rfl (fun _ _ => rfl) (fun block hmem => ?_) machine
  rw [hactions] at hmem
  obtain ⟨action, _, rfl⟩ := List.mem_map.mp hmem
  exact exec_placed calls fuel (lower_action_placed state action)

theorem LoweredInOrder.end_in_turn (h : LoweredInOrder program blocks) (machine : Machine R) :
    Run.Triple (· = machine) (exec_actions calls fuel blocks.end_actions)
      (fun completion => TriedInTurn (exec calls false fuel) blocks.end_actions machine (some completion))
      (TriedInTurn (exec calls false fuel) blocks.end_actions machine none) := by
  obtain ⟨state, hactions⟩ := h.end_actions
  refine triedInTurn rfl (fun _ _ => rfl) (fun block hmem => ?_) machine
  rw [hactions] at hmem
  obtain ⟨action, _, rfl⟩ := List.mem_map.mp hmem
  exact exec_placed calls fuel (lower_action_placed state action)

theorem LoweredInOrder.record_in_turn (h : LoweredInOrder program blocks) (machine : Machine R) :
    Run.Triple (· = machine) (exec_record_items calls fuel blocks.record_items)
      (fun completion => TriedInTurn (exec_record_item calls fuel) blocks.record_items machine (some completion))
      (TriedInTurn (exec_record_item calls fuel) blocks.record_items machine none) := by
  obtain ⟨state, items, _, hitems⟩ := h.record_items
  refine triedInTurn rfl (fun _ _ => rfl) (fun block hmem => ?_) machine
  rw [hitems] at hmem
  obtain ⟨item, _, rfl⟩ := List.mem_map.mp hmem
  exact exec_record_item_placed calls fuel (lower_runtime_record_item_placed state item)

end Turns

end quawk
