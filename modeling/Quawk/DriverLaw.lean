import Quawk.PhaseOrder

open StatefulRun (Result Run)

namespace quawk

def Program.HasRecordItems (program : Program) : Prop := ∃ item ∈ program.items, item.record_rule.isSome

def Program.HasEndItems (program : Program) : Prop := ∃ item ∈ program.items, item.end_action.isSome

theorem filterMap_ne_nil {α β : Type} {f : α → Option β} {items : List α} :
    items.filterMap f ≠ [] ↔ ∃ item ∈ items, (f item).isSome := by
  rw [Ne, List.filterMap_eq_nil_iff]
  push Not
  simp only [Option.isSome_iff_ne_none]

section Phases

variable {R : Runtime} {program : Program} {blocks : ProgramBlocks (Value R.Number)}

theorem LoweredInOrder.hasRecordPhase (h : LoweredInOrder program blocks) :
    HasRecordPhase blocks ↔ program.HasRecordItems := by
  obtain ⟨state, items, hrules, hitems⟩ := h.record_items
  rw [HasRecordPhase, hitems, Program.HasRecordItems, ← filterMap_ne_nil, ← hrules, Ne, Ne, List.map_eq_nil_iff,
    List.map_eq_nil_iff]

theorem LoweredInOrder.hasEndPhase (h : LoweredInOrder program blocks) :
    HasEndPhase blocks ↔ program.HasEndItems := by
  obtain ⟨state, hactions⟩ := h.end_actions
  rw [HasEndPhase, hactions, Program.HasEndItems, ← filterMap_ne_nil, Ne, List.map_eq_nil_iff]

end Phases

section Runs

variable {R : Runtime} {ι : Type 1}

/-- The machine of a phase that starts, which has local variables of its own. -/
def Machine.enters (machine : Machine R) (phase : Phase) : Machine R :=
  { machine.note (.enter phase) with locals := fun _ => R.zero, params := fun _ => none }

def Machine.back_in (after caller : Machine R) : Machine R :=
  { after with locals := caller.locals, params := caller.params }

/-- One run of a phase, which tries its items in their turn; it returns or it stops in one of them. -/
inductive PhaseRun (phase : Phase) (try_item : ι → Exec R Completion) (items : List ι) (machine : Machine R) :
    Bool → Machine R → Prop where
  | returned {completion : Completion} {after : Machine R} :
    TriedInTurn try_item items (machine.enters phase) (some completion) after →
      PhaseRun phase try_item items machine true ((after.back_in machine).note (.leave phase))
  | stopped {after : Machine R} : TriedInTurn try_item items (machine.enters phase) none after →
      PhaseRun phase try_item items machine false (after.back_in machine)

section Records

variable (blocks : ProgramBlocks (Value R.Number)) (fuel : Nat)

/-- What is done with one record: the record phase is run once, where there are record items. -/
def RecordRun (machine : Machine R) (returned : Bool) (after : Machine R) : Prop :=
  if blocks.record_items = [] then returned = true ∧ after = machine
  else PhaseRun .record_phase (exec_record_item (call_function blocks fuel) fuel) blocks.record_items machine returned
    after

/-- The records are read one after the other, each is dealt with once, and the first exit ends it. -/
inductive RecordsRun : Machine R → Bool → Machine R → Prop where
  | exhausted {machine after : Machine R} : next_record machine = (.value false, after) →
      RecordsRun machine true after
  | exited {machine middle after : Machine R} : next_record machine = (.value true, middle) →
      RecordRun blocks fuel middle true after → Exits after.log → RecordsRun machine true after
  | again {machine middle next after : Machine R} {returned : Bool} : next_record machine = (.value true, middle) →
      RecordRun blocks fuel middle true next → ¬ Exits next.log → RecordsRun next returned after →
        RecordsRun machine returned after
  | stopped {machine middle after : Machine R} : next_record machine = (.value true, middle) →
      RecordRun blocks fuel middle false after → RecordsRun machine false after
  /-- The run is followed no further. -/
  | unfinished (machine : Machine R) : RecordsRun machine false machine

/-- Between BEGIN and END records are read where the program has record or END items and BEGIN executed no exit. -/
def BetweenRun (program : Program) (machine : Machine R) (returned : Bool) (after : Machine R) : Prop :=
  (program.HasRecordItems ∨ program.HasEndItems) ∧ ¬ Exits machine.log ∧
      RecordsRun blocks fuel machine returned after ∨
    (¬ (program.HasRecordItems ∨ program.HasEndItems) ∨ Exits machine.log) ∧ returned = true ∧ after = machine

/-- A run of the driver: the BEGIN actions, the records, the END actions. -/
inductive DriverRun (program : Program) (machine : Machine R) : Bool → Machine R → Prop where
  | stopped_in_begin {after : Machine R} :
      PhaseRun .begin_phase (exec (call_function blocks fuel) false fuel) blocks.begin_actions machine false after →
        DriverRun program machine false after
  | stopped_between {begun after : Machine R} :
      PhaseRun .begin_phase (exec (call_function blocks fuel) false fuel) blocks.begin_actions machine true begun →
        BetweenRun blocks fuel program begun false after → DriverRun program machine false after
  | ended {begun ended after : Machine R} {returned : Bool} :
      PhaseRun .begin_phase (exec (call_function blocks fuel) false fuel) blocks.begin_actions machine true begun →
        BetweenRun blocks fuel program begun true ended →
          PhaseRun .end_phase (exec (call_function blocks fuel) false fuel) blocks.end_actions ended returned after →
            DriverRun program machine returned after

end Records

variable {blocks : ProgramBlocks (Value R.Number)} {fuel : Nat} {machine : Machine R}

theorem exec_phase_run (phase : Phase) {body : Exec R Completion} {try_item : ι → Exec R Completion} {items : List ι}
    (hends : EndsAt (LeavesPhase false) body) (hagrees : Agrees machine)
    (hbody : ∀ machine, Run.Triple (· = machine) body
      (fun completion => TriedInTurn try_item items machine (some completion)) (TriedInTurn try_item items machine none)) :
    Run.Triple (· = machine) (exec_phase phase body)
      (fun _ after => PhaseRun phase try_item items machine true after ∧ Agrees after)
      (PhaseRun phase try_item items machine false) := by
  rintro start rfl
  obtain ⟨_, _, -, hafter, -⟩ := exec_phase_log phase hends start
  have hagrees := hafter hagrees
  have hturns := hbody (start.enters phase) _ rfl
  have hphase : exec_phase phase body start =
      Run.bind (in_frame (fun _ => none) body) (fun _ => note (.leave phase)) (start.note (.enter phase)) := rfl
  have hframe : in_frame (fun _ => none) body (start.note (.enter phase)) =
      ((body (start.enters phase)).1, (body (start.enters phase)).2.back_in start) := rfl
  rw [hphase, Run.bind, hframe] at hagrees ⊢
  cases hresult : body (start.enters phase) with
  | mk result after =>
    rw [hresult] at hturns hagrees
    cases result with
    | value completion => exact ⟨.returned hturns, hagrees⟩
    | timeout | raised _ | crashed => exact .stopped hturns

/-- Whether an exit was executed before the record is looked for. -/
theorem should_exit_run (hagrees : Agrees machine) :
    Run.Triple (· = machine) (should_exit : Exec R Bool)
      (fun requested after => after = machine ∧ (requested = true ↔ Exits machine.log)) (fun _ => False) := by
  rintro start rfl
  exact ⟨rfl, LogIs.exits ⟨rfl, hagrees⟩⟩

theorem next_record_run (hagrees : Agrees machine) :
    Run.Triple (· = machine) (next_record : Exec R Bool)
      (fun available after => next_record machine = (.value available, after) ∧ Agrees after) (fun _ => False) := by
  rintro start rfl
  have hnote : Agrees (start.note (.next_record (R.next_record start.world).1)) :=
    hagrees.note fun _ _ heq => nomatch heq
  exact ⟨rfl, hnote.of_eq rfl rfl rfl⟩

variable {program : Program}

theorem LoweredInOrder.record_run (h : LoweredInOrder program blocks) (hagrees : Agrees machine) :
    Run.Triple (· = machine)
      (if blocks.record_items.isEmpty then pure ()
        else exec_phase .record_phase (exec_record_items (call_function blocks fuel) fuel blocks.record_items) :
        Exec R Unit)
      (fun _ after => RecordRun blocks fuel machine true after ∧ Agrees after)
      (RecordRun blocks fuel machine false) := by
  have hends := exec_record_items_endsAt (call_function_neverEnds blocks fuel) fuel blocks.record_items
  unfold RecordRun
  by_cases hempty : blocks.record_items = []
  · rw [if_pos (List.isEmpty_iff.mpr hempty)]
    refine .pure fun after heq => ?_
    rw [if_pos hempty, heq]
    exact ⟨⟨rfl, rfl⟩, hagrees⟩
  · rw [if_neg (by rwa [List.isEmpty_iff])]
    simp only [if_neg hempty]
    exact exec_phase_run .record_phase hends hagrees (h.record_in_turn _ fuel)

theorem ite_bind {β : Type} {c : Bool} {first : Exec R Unit} {next : Unit → Exec R β} :
    (if c then next () else first >>= next) = (if c then pure () else first) >>= next := by
  cases c <;> rfl

/-- What is known of the run while records are read: it goes on as it would from where it stands. -/
structure ReadsOn (blocks : ProgramBlocks (Value R.Number)) (fuel : Nat) (machine current : Machine R) : Prop where
  agrees : Agrees current
  onward : ∀ returned after, RecordsRun blocks fuel current returned after → RecordsRun blocks fuel machine returned after

theorem LoweredInOrder.records_run (h : LoweredInOrder program blocks) (hagrees : Agrees machine)
    (hexit : ¬ Exits machine.log) :
    Run.Triple (· = machine) (record_loop blocks fuel)
      (fun _ after => RecordsRun blocks fuel machine true after ∧ Agrees after)
      (RecordsRun blocks fuel machine false) := by
  refine ((should_exit_run hagrees).mono (fun _ h => h) (fun _ _ h => h) fun _ h => h.elim).bind fun requested => ?_
  cases requested with
  | true => exact fun after ⟨_, hrequested⟩ => absurd (hrequested.mp rfl) hexit
  | false =>
    have hstep (position : Unit) : Run.Triple (ReadsOn blocks fuel machine)
        (do
          if ← next_record then
            if blocks.record_items.isEmpty then pure ()
            else exec_phase .record_phase (exec_record_items (call_function blocks fuel) fuel blocks.record_items)
            if ← should_exit then pure (.inr ()) else pure (.inl ())
          else pure (.inr ()) : Exec R (Unit ⊕ Unit))
        (fun result => result.elim (fun _ => ReadsOn blocks fuel machine)
          fun _ after => RecordsRun blocks fuel machine true after ∧ Agrees after)
        (RecordsRun blocks fuel machine false) := by
      intro current hcurrent
      refine ((next_record_run hcurrent.agrees).mono (fun _ h => h) (fun _ _ h => h) fun _ h => h.elim).bind
        (fun available => ?_) current rfl
      cases available with
      | false =>
        rintro after ⟨hnext, hafter⟩
        exact ⟨hcurrent.onward true after (.exhausted hnext), hafter⟩
      | true =>
        rintro middle ⟨hnext, hmiddle⟩
        let again : Unit → Exec R (Unit ⊕ Unit) := fun _ => do
          if ← should_exit then pure (.inr ()) else pure (.inl ())
        suffices hrest : Run.Triple (· = middle)
            (if blocks.record_items.isEmpty then again ()
              else exec_phase .record_phase
                (exec_record_items (call_function blocks fuel) fuel blocks.record_items) >>= again)
            (fun result => result.elim (fun _ => ReadsOn blocks fuel machine)
              fun _ after => RecordsRun blocks fuel machine true after ∧ Agrees after)
            (RecordsRun blocks fuel machine false) from hrest middle rfl
        rw [ite_bind]
        refine ((h.record_run hmiddle).mono (fun _ h => h) (fun _ _ h => h) fun after hstopped =>
          hcurrent.onward false after (.stopped hnext hstopped)).bind fun _ => ?_
        rintro next ⟨hrecord, hagrees⟩
        refine ((should_exit_run hagrees).mono (fun _ h => h) (fun _ _ h => h) fun _ h => h.elim).bind
          (fun requested => ?_) next rfl
        cases requested with
        | true =>
          rintro after ⟨rfl, hrequested⟩
          exact ⟨hcurrent.onward true after (.exited hnext hrecord (hrequested.mp rfl)), hagrees⟩
        | false =>
          rintro after ⟨rfl, hrequested⟩
          refine ⟨hagrees, fun returned last hlast => hcurrent.onward returned last ?_⟩
          refine .again hnext hrecord (fun hexits => ?_) hlast
          have hstop := hrequested.mpr hexits
          cases hstop
    refine Run.Triple.mono (Run.Triple.iterate hstep (fun _ current hcurrent => ?_) fuel ())
      (fun after hafter => ?_) (fun _ _ h => h) fun _ h => h
    · exact hcurrent.onward false current (.unfinished current)
    · obtain ⟨rfl, -⟩ := hafter
      exact ⟨hagrees, fun _ _ h => h⟩

theorem LoweredInOrder.between_run (h : LoweredInOrder program blocks) (hagrees : Agrees machine) :
    Run.Triple (· = machine)
      (if blocks.record_items.isEmpty && blocks.end_actions.isEmpty then pure () else record_loop blocks fuel :
        Exec R Unit)
      (fun _ after => BetweenRun blocks fuel program machine true after ∧ Agrees after)
      (BetweenRun blocks fuel program machine false) := by
  have hphases : (blocks.record_items.isEmpty && blocks.end_actions.isEmpty) = true ↔
      ¬ (program.HasRecordItems ∨ program.HasEndItems) := by
    rw [← h.hasRecordPhase, ← h.hasEndPhase]
    simp [HasRecordPhase, HasEndPhase]
  by_cases hitems : program.HasRecordItems ∨ program.HasEndItems
  · rw [if_neg fun hempty => hphases.mp hempty hitems]
    by_cases hexits : Exits machine.log
    · -- an exit in BEGIN: the loop is left at once
      rintro start rfl
      have hrequested : start.exit_requested = true := (LogIs.exits ⟨rfl, hagrees⟩).mpr hexits
      have hloop : record_loop blocks fuel start = (.value (), start) := by
        change (if start.exit_requested then pure () else _ : Exec R Unit) start = _
        rw [hrequested]
        rfl
      rw [hloop]
      exact ⟨.inr ⟨.inr hexits, rfl, rfl⟩, hagrees⟩
    · refine (h.records_run hagrees hexits).mono (fun _ h => h) ?_ ?_
      · rintro _ after ⟨hrecords, hafter⟩
        exact ⟨.inl ⟨hitems, hexits, hrecords⟩, hafter⟩
      · intro after hrecords
        exact .inl ⟨hitems, hexits, hrecords⟩
  · rw [if_pos (hphases.mpr hitems)]
    refine .pure fun after heq => ?_
    subst heq
    exact ⟨.inr ⟨.inl hitems, rfl, rfl⟩, hagrees⟩

/-- The driver runs as the program says. -/
theorem LoweredInOrder.driver_run (h : LoweredInOrder program blocks) (fuel : Nat) (hagrees : Agrees machine) :
    Run.Triple (· = machine) (quawk_main blocks fuel) (fun _ => DriverRun blocks fuel program machine true)
      (DriverRun blocks fuel program machine false) := by
  let ending : Unit → Exec R Int := fun _ => do
    exec_phase .end_phase (exec_actions (call_function blocks fuel) fuel blocks.end_actions)
    exit_status
  have hbegin := exec_phase_run .begin_phase
    (exec_actions_endsAt (call_function_neverEnds blocks fuel) fuel blocks.begin_actions) hagrees
    (h.begin_in_turn _ fuel)
  refine (hbegin.mono (fun _ h => h) (fun _ _ h => h) fun _ h => .stopped_in_begin h).bind fun _ => ?_
  rintro begun ⟨hbegun, hagrees⟩
  suffices hrest : Run.Triple (· = begun)
      (if blocks.record_items.isEmpty && blocks.end_actions.isEmpty then ending ()
        else record_loop blocks fuel >>= ending)
      (fun _ => DriverRun blocks fuel program machine true) (DriverRun blocks fuel program machine false) from
    hrest begun rfl
  rw [ite_bind]
  refine ((h.between_run hagrees).mono (fun _ h => h) (fun _ _ h => h) fun _ hbetween =>
    .stopped_between hbegun hbetween).bind fun _ => ?_
  rintro ended ⟨hbetween, hagrees⟩
  have hend := exec_phase_run .end_phase
    (exec_actions_endsAt (call_function_neverEnds blocks fuel) fuel blocks.end_actions) hagrees (h.end_in_turn _ fuel)
  refine (hend.mono (fun _ h => h) (fun _ _ h => h) fun _ hend => .ended hbegun hbetween hend).bind (fun _ => ?_)
    ended rfl
  rintro after ⟨hend, -⟩
  exact .ended hbegun hbetween hend

end Runs

def run_returns : Result Int → Bool
  | .value _ => true
  | .timeout | .raised _ | .crashed => false

/-- The items of each phase are those of the program, in source order. The run from the machine is one of the driver:
each phase tries its items in their turn, and the phases follow each other as `DriverTrace` has it, up to where the run
stops if it does not return. -/
structure DriverLaw {R : Runtime} (program : Program) (blocks : ProgramBlocks (Value R.Number)) (fuel : Nat)
    (machine : Machine R) (run : Result Int × Machine R) : Prop where
  source_order : LoweredInOrder program blocks
  runs : DriverRun blocks fuel program machine (run_returns run.1) run.2
  returned : ∀ status, run.1 = .value status → DriverTrace program.HasRecordItems program.HasEndItems run.2.log
  on_the_way : ∃ rest, DriverTrace program.HasRecordItems program.HasEndItems (run.2.log ++ rest)

theorem quawk_main_driver_law {R : Runtime} (program : Program) (blocks : ProgramBlocks (Value R.Number))
    (hlower : lower_to_llvm_ir program = .ok blocks) (fuel : Nat) (machine : Machine R) (hinitial : Initial machine) :
    DriverLaw program blocks fuel machine (quawk_main blocks fuel machine) := by
  have horder := lower_to_llvm_ir_order hlower
  have hdriver := horder.driver_run fuel hinitial.lawful.1.agrees machine rfl
  have hrun := quawk_main_trace blocks fuel machine ⟨hinitial.log, hinitial.lawful.1.agrees⟩
  have hrecords : HasRecordPhase blocks = program.HasRecordItems := propext horder.hasRecordPhase
  have hends : HasEndPhase blocks = program.HasEndItems := propext horder.hasEndPhase
  unfold StoppedOnTheWay at hrun
  rw [hrecords, hends] at hrun
  generalize quawk_main blocks fuel machine = run at *
  obtain ⟨result, after⟩ := run
  refine ⟨horder, ?_, ?_, ?_⟩
  · cases result with
    | value status => exact hdriver
    | timeout | raised _ | crashed => exact hdriver
  · rintro status ⟨⟩
    exact hrun
  · cases result with
    | value status => exact ⟨[], by rwa [List.append_nil]⟩
    | timeout | raised _ | crashed => exact hrun

/-- `BEGIN { n = 1 } $1 == n { next } { print } END { exit n }` -/
def numbered_record : Program := ⟨[
  .pattern_action (some .begin_pattern) (some [.assign (.name "n") .plain (.numeric_literal ['1'])]),
  .pattern_action (some (.expr (.binary (.field_at 1) .equal (.name "n")))) (some [.next]),
  .pattern_action none (some [.print [] none]),
  .pattern_action (some .end_pattern) (some [.exit (some (.name "n"))])]⟩

theorem quawk_main_driver_law_numbered_record :
    DriverLaw numbered_record (lowered_blocks numbered_record) 5 (start_machine [['1'], ['2']])
      (run_program numbered_record 5 [['1'], ['2']]) := by
  have hlower : lower_to_llvm_ir numbered_record =
      .ok (lowered_blocks numbered_record : ProgramBlocks (Value whole_number_runtime.Number)) :=
    lower_to_llvm_ir_eq (by decide +kernel)
  exact quawk_main_driver_law numbered_record (lowered_blocks numbered_record) hlower 5 (start_machine [['1'], ['2']])
    ⟨rfl, rfl⟩

end quawk
