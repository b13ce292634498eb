import Quawk.NumericRuns
import Quawk.PhaseOrder

namespace quawk

open StatefulRun (Result Run)
open StatefulRun.Run (Alike)
open StructuredCode.Code (bind_eq_ok)

section Turns

variable {R : Runtime} {ι κ : Type}

def and_then (first next : Meaning R Completion) : Meaning R Completion := do
  match ← first with
  | .normal => next
  | completion => pure completion

theorem and_then_done (first : Meaning R Completion) : and_then first (pure .normal) = first := by
  refine (congrArg (first >>= ·) (funext fun completion => ?_)).trans (Run.bind_pure first)
  cases completion <;> rfl

theorem and_then_assoc (first second third : Meaning R Completion) :
    and_then (and_then first second) third = and_then first (and_then second third) := by
  unfold and_then
  rw [Run.bind_assoc]
  refine congrArg _ (funext fun completion => ?_)
  cases completion <;> rfl

theorem in_turn_cons (meaning : ι → Meaning R Completion) (item : ι) (rest : List ι) :
    in_turn meaning (item :: rest) = and_then (meaning item) (in_turn meaning rest) := rfl

theorem in_turn_append (meaning : ι → Meaning R Completion) (front back : List ι) :
    in_turn meaning (front ++ back) = and_then (in_turn meaning front) (in_turn meaning back) := by
  induction front with
  | nil => rfl
  | cons item rest ih => rw [List.cons_append, in_turn_cons, in_turn_cons, ih, and_then_assoc]

theorem in_turn_concat (meaning : ι → Meaning R Completion) (front : List ι) (item : ι) :
    in_turn meaning (front ++ [item]) = and_then (in_turn meaning front) (meaning item) :=
  (in_turn_append meaning front [item]).trans (congrArg _ (and_then_done (meaning item)))

/-- An item that means nothing is left out. -/
def if_some (meaning : κ → Meaning R Completion) : Option κ → Meaning R Completion
  | some part => meaning part
  | none => pure .normal

theorem in_turn_filterMap (meaning : κ → Meaning R Completion) (part : ι → Option κ) (items : List ι) :
    in_turn meaning (items.filterMap part) = in_turn (fun item => if_some meaning (part item)) items := by
  induction items with
  | nil => rfl
  | cons item rest ih =>
    cases hpart : part item with
    | none => rw [List.filterMap_cons_none hpart, in_turn_cons, hpart, ih]; rfl
    | some value => rw [List.filterMap_cons_some hpart, in_turn_cons, in_turn_cons, hpart, ih]; rfl

end Turns

section Source

variable {R : Runtime} (arithmetic : NumberArithmetic R) (fuel : Nat)

/-- What an item does with a record; `ranges` is the number of range rules before it. -/
def record_item (ranges : Nat) : Item → Meaning R Completion
  | .function _ | .pattern_action (some .begin_pattern) _ | .pattern_action (some .end_pattern) _ => pure .normal
  | .pattern_action none action => rule_action arithmetic fuel action
  | .pattern_action (some (.expr test)) action => do
    if ← condition_of arithmetic test then rule_action arithmetic fuel action else pure .normal
  | .pattern_action (some (.range (.expr left) (.expr right))) action =>
    range_rule arithmetic fuel (range_state_name ranges) left right action
  | .pattern_action (some (.range _ _)) _ => Run.crash

def Item.ranges : Item → Nat
  | .pattern_action (some (.range _ _)) _ => 1
  | _ => 0

/-- A record goes through the items of the program, in the order in which they are written. -/
def through_items : Nat → List Item → Meaning R Completion
  | _, [] => pure .normal
  | ranges, item :: rest => and_then (record_item arithmetic fuel ranges item) (through_items (ranges + item.ranges) rest)

/-- The items, for every record until the input or the program ends. -/
def items_for_every_record (items : List Item) : Meaning R Unit := do
  if ← exit_was_requested then pure ()
  else
    Run.iterate (fun _ => do
      if ← take_record then
        let _ ← through_items arithmetic fuel 0 items
        if ← exit_was_requested then pure (.inr ()) else pure (.inl ())
      else pure (.inr ())) fuel ()

/-- A program as it is written: its BEGIN actions; the input, if an item looks at it; its END actions. -/
def run_source (program : Program) : Meaning R Int := do
  let _ ← in_turn (fun item => if_some (interpret_all arithmetic fuel) (Item.begin_action item)) program.items
  if (program.items.filterMap Item.record_rule).isEmpty && (program.items.filterMap Item.end_action).isEmpty then pure ()
  else items_for_every_record arithmetic fuel program.items
  let _ ← in_turn (fun item => if_some (interpret_all arithmetic fuel) (Item.end_action item)) program.items
  final_status

/-- What normalising an item adds to the rules does with a record what the item does. -/
theorem normalize_item_means {item : Item} {before after : PhaseItems} (h : normalize_item before item = .ok after) :
    in_turn (record_rule arithmetic fuel) after.record_items =
        and_then (in_turn (record_rule arithmetic fuel) before.record_items)
          (record_item arithmetic fuel before.range_count item) ∧
      after.range_count = before.range_count + item.ranges := by
  cases item with
  | function =>
    cases h
    exact ⟨(and_then_done _).symm, rfl⟩
  | pattern_action pattern action =>
    cases pattern with
    | none =>
      cases action with
      | none => cases h
      | some action =>
        cases h
        exact ⟨in_turn_concat _ _ _, rfl⟩
    | some pattern =>
      cases pattern with
      | begin_pattern | end_pattern =>
        cases action with
        | none => cases h
        | some action =>
          cases h
          exact ⟨(and_then_done _).symm, rfl⟩
      | expr test =>
        cases h
        exact ⟨in_turn_concat _ _ _, rfl⟩
      | range left right =>
        cases h
        refine ⟨(in_turn_concat _ _ _).trans (congrArg _ ?_), rfl⟩
        cases left <;> cases right <;> rfl

theorem normalize_items_mean {items : List Item} {before after : PhaseItems}
    (h : items.foldlM normalize_item before = .ok after) :
    in_turn (record_rule arithmetic fuel) after.record_items =
      and_then (in_turn (record_rule arithmetic fuel) before.record_items)
        (through_items arithmetic fuel before.range_count items) := by
  induction items generalizing before with
  | nil =>
    cases h
    exact (and_then_done _).symm
  | cons item rest ih =>
    rw [List.foldlM_cons] at h
    obtain ⟨middle, hitem, hrest⟩ := bind_eq_ok h
    obtain ⟨hmeans, hcount⟩ := normalize_item_means arithmetic fuel hitem
    rw [ih hrest, hmeans, hcount, and_then_assoc]
    rfl

theorem run_source_eq {program : Program} {normalized_program : NormalizedLoweringProgram}
    (h : normalize_program_for_lowering program = .ok normalized_program) :
    run_source arithmetic fuel program = run_numeric_program arithmetic fuel normalized_program := by
  obtain ⟨phases, hphases, h⟩ := bind_eq_ok h
  obtain ⟨variable_indexes, _, h⟩ := bind_eq_ok h
  cases h
  have horder := normalize_items_order hphases
  have hbegin : phases.begin_actions = program.items.filterMap Item.begin_action := horder.begin_actions
  have hend : phases.end_actions = program.items.filterMap Item.end_action := horder.end_actions
  have hempty : phases.record_items.isEmpty = (program.items.filterMap Item.record_rule).isEmpty := by
    have hrules : phases.record_items.map NormalizedRecordItem.rule = program.items.filterMap Item.record_rule :=
      horder.record_items
    rw [← hrules, List.isEmpty_map]
  have hrecord : in_turn (record_rule arithmetic fuel) phases.record_items = through_items arithmetic fuel 0 program.items :=
    normalize_items_mean arithmetic fuel hphases
  unfold run_source run_numeric_program items_for_every_record every_record
  rw [← in_turn_filterMap, ← in_turn_filterMap, ← hbegin, ← hend, ← hempty, ← hrecord]

end Source

/-- Programs that have the same items for each phase, in whatever order the phases are mixed. -/
structure SamePhases (program other : Program) : Prop where
  begin_actions : program.items.filterMap Item.begin_action = other.items.filterMap Item.begin_action
  record_rules : program.items.filterMap Item.record_rule = other.items.filterMap Item.record_rule
  end_actions : program.items.filterMap Item.end_action = other.items.filterMap Item.end_action

/-- The rules for records, the range rules among them numbered. -/
def numbered_rules : Nat → List (Option Pattern × Option Action) → List NormalizedRecordItem
  | _, [] => []
  | ranges, (some (.range left right), action) :: rest =>
    ⟨some (.range left right), action, some (range_state_name ranges)⟩ :: numbered_rules (ranges + 1) rest
  | ranges, (pattern, action) :: rest => ⟨pattern, action, none⟩ :: numbered_rules ranges rest

theorem normalize_items_rules {items : List Item} {before after : PhaseItems}
    (h : items.foldlM normalize_item before = .ok after) :
    after.record_items = before.record_items ++ numbered_rules before.range_count (items.filterMap Item.record_rule) := by
  induction items generalizing before with
  | nil =>
    cases h
    exact (List.append_nil _).symm
  | cons item rest ih =>
    rw [List.foldlM_cons] at h
    obtain ⟨middle, hitem, hrest⟩ := bind_eq_ok h
    rw [ih hrest]
    cases item with
    | function =>
      cases hitem
      rfl
    | pattern_action pattern action =>
      cases pattern with
      | none =>
        cases action with
        | none => cases hitem
        | some action =>
          cases hitem
          exact List.append_assoc _ _ _
      | some pattern =>
        cases pattern with
        | begin_pattern | end_pattern =>
          cases action with
          | none => cases hitem
          | some action =>
            cases hitem
            rfl
        | expr test | range left right =>
          cases hitem
          exact List.append_assoc _ _ _

section Moved

variable {R : Runtime} {program other : Program} {normalized_program normalized_other : NormalizedLoweringProgram}

theorem SamePhases.run_eq (h : SamePhases program other)
    (hnormal : normalize_program_for_lowering program = .ok normalized_program)
    (hother : normalize_program_for_lowering other = .ok normalized_other) (arithmetic : NumberArithmetic R) (fuel : Nat) :
    run_numeric_program arithmetic fuel normalized_program = run_numeric_program arithmetic fuel normalized_other := by
  obtain ⟨phases, hphases, hnormal⟩ := bind_eq_ok hnormal
  obtain ⟨indexes, _, hnormal⟩ := bind_eq_ok hnormal
  obtain ⟨other_phases, hother_phases, hother⟩ := bind_eq_ok hother
  obtain ⟨other_indexes, _, hother⟩ := bind_eq_ok hother
  cases hnormal
  cases hother
  have hrules : phases.record_items = other_phases.record_items := by
    rw [normalize_items_rules hphases, normalize_items_rules hother_phases, h.record_rules]
  have hbegin : phases.begin_actions = other_phases.begin_actions := by
    rw [(normalize_items_order hphases).begin_actions, (normalize_items_order hother_phases).begin_actions, h.begin_actions]
  have hend : phases.end_actions = other_phases.end_actions := by
    rw [(normalize_items_order hphases).end_actions, (normalize_items_order hother_phases).end_actions, h.end_actions]
  unfold run_numeric_program
  rw [hrules, hbegin, hend]

/-- No variable has been given a value yet. -/
structure Cleared (machine : Machine R) : Prop where
  state : ∀ index, machine.state index = R.zero
  locals : ∀ name, machine.locals name = R.zero

theorem Cleared.reading_eq {machine : Machine R} (h : Cleared machine) (hzero : R.nonzero R.zero = false)
    (state : LoweringState) :
    reading state machine =
      ⟨fun _ => R.zero, fun _ => false, machine.world, machine.exit_requested, machine.exit_status⟩ := by
  have hload : ∀ address, machine.load address = R.zero := by
    intro address
    cases address with
    | local_variable name => exact h.locals name
    | state_field index => exact h.state index
  have hnumbers : (reading state machine).numbers = fun _ => R.zero := by
    funext name
    change ((number_address state name).map machine.load).getD R.zero = R.zero
    cases number_address state name with
    | none => rfl
    | some address => exact hload address
  have hactive : (reading state machine).active = fun _ => false := by
    funext name
    change ((range_index state name).map fun index => R.nonzero (machine.state index)).getD false = false
    cases range_index state name with
    | none => rfl
    | some index =>
      change R.nonzero (machine.state index) = false
      rw [h.state index, hzero]
  exact congrArg₂ (fun numbers active =>
    (⟨numbers, active, machine.world, machine.exit_requested, machine.exit_status⟩ : NumericState R)) hnumbers hactive

/-- What is seen of a run of a program from outside. -/
structure SeenAlike (first second : Result Int × Machine R) : Prop where
  result : first.1 = second.1
  world : first.2.world = second.2.world
  exit_requested : first.2.exit_requested = second.2.exit_requested
  exit_status : first.2.exit_status = second.2.exit_status

end Moved

/-- `sum_program` with its END action in front -/
def sum_program_moved : Program := ⟨[
  .pattern_action (some .end_pattern) (some [
    .for_stmt [.assign (.name "i") .plain (.numeric_literal ['0'])] (some (.binary (.name "i") .less (.name "n")))
      [.postfix_op (.name "i") .post_inc] (.assign (.name "s") .add (.name "i")),
    .print [.name "s"] none,
    .exit (some (.conditional (.binary (.name "n") .greater (.numeric_literal ['1'])) (.name "n") (.numeric_literal ['0'])))]),
  .pattern_action none (some [.assign (.name "s") .add (.field_at 1),
    .assign (.name "n") .add (.numeric_literal ['1'])])]⟩

end quawk
