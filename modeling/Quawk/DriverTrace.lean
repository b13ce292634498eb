import Quawk.ExitLaw
import Quawk.StatementErrors

open StatefulRun (Result Run)

namespace quawk

variable {R : Runtime} {α σ : Type}

/-- What may happen while a phase runs. -/
def TraceEvent.InPhase : TraceEvent → Prop
  | .op _ _ _ | .exit _ _ => True
  | .next_record _ | .enter _ | .leave _ => False

/-- A phase from its start to its end. -/
def PhaseTrace (phase : Phase) (events : List TraceEvent) : Prop :=
  ∃ inner, events = .enter phase :: inner ++ [.leave phase] ∧ ∀ event ∈ inner, event.InPhase

def Exits (events : List TraceEvent) : Prop := ∃ event ∈ events, event.IsExit

/-- What happens with one record: the record phase, where there are items. -/
def RecordTrace (has_record_phase : Prop) (events : List TraceEvent) : Prop :=
  has_record_phase ∧ PhaseTrace .record_phase events ∨ ¬ has_record_phase ∧ events = []

/-- The records delivered one after the other, until there is none or an exit is executed. -/
inductive RecordsTrace (has_record_phase : Prop) : List TraceEvent → Prop where
  | exhausted : RecordsTrace has_record_phase [.next_record false]
  | exited {events : List TraceEvent} : RecordTrace has_record_phase events → Exits events →
    RecordsTrace has_record_phase (.next_record true :: events)
  | again {events rest : List TraceEvent} : RecordTrace has_record_phase events → ¬ Exits events →
    RecordsTrace has_record_phase rest → RecordsTrace has_record_phase (.next_record true :: events ++ rest)

/-- BEGIN once; the records, where there are record or END items and BEGIN executed no exit; END once. -/
def DriverTrace (has_record_phase has_end_phase : Prop) (log : List TraceEvent) : Prop :=
  ∃ begin_events records end_events, log = begin_events ++ records ++ end_events ∧
    PhaseTrace .begin_phase begin_events ∧ PhaseTrace .end_phase end_events ∧
    ((has_record_phase ∨ has_end_phase) ∧ ¬ Exits begin_events ∧ RecordsTrace has_record_phase records ∨
      (¬ (has_record_phase ∨ has_end_phase) ∨ Exits begin_events) ∧ records = [])

theorem PhaseTrace.nothing (phase : Phase) : PhaseTrace phase [.enter phase, .leave phase] :=
  ⟨[], rfl, fun _ hmem => nomatch hmem⟩

theorem Quiet.inPhase {events : List TraceEvent} (h : Quiet events) : ∀ event ∈ events, event.InPhase := by
  intro event hmem
  have hquiet := h event hmem
  cases event with
  | op _ _ _ | exit _ _ => trivial
  | next_record _ | enter _ | leave _ => exact hquiet

theorem exits_append {front back : List TraceEvent} : Exits (front ++ back) ↔ Exits front ∨ Exits back := by
  simp only [Exits, List.mem_append, or_and_right, exists_or]

/-- The log of the machine so far, which its exit state agrees with. -/
structure LogIs (log : List TraceEvent) (machine : Machine R) : Prop where
  log : machine.log = log
  agrees : Agrees machine

theorem LogIs.exits {log : List TraceEvent} {machine : Machine R} (h : LogIs log machine) :
    machine.exit_requested = true ↔ Exits log := by
  rw [h.agrees.requested, last_request_isSome, h.log]
  rfl

/-- A phase adds its trace to the log, or part of one if it does not return. -/
theorem exec_phase_trace (phase : Phase) {body : Exec R Completion} (h : EndsAt (LeavesPhase false) body)
    (log : List TraceEvent) :
    Run.Triple (LogIs log) (exec_phase phase body)
      (fun _ machine => ∃ events, PhaseTrace phase events ∧ LogIs (log ++ events) machine)
      (fun machine => ∃ events rest, PhaseTrace phase (events ++ rest) ∧ machine.log = log ++ events) := by
  refine .intro (fun machine value hpre hvalue => ?_) fun machine hpre hnone => ?_
  all_goals
    obtain ⟨events, tail, hlog, hagrees, hquiet, htail⟩ := exec_phase_log phase h machine
    rw [hpre.log] at hlog
  · obtain ⟨_, hnone⟩ | ⟨_, rfl | ⟨status, rfl⟩⟩ := htail
    · exact absurd hvalue (hnone value)
    · exact ⟨.enter phase :: events ++ [.leave phase], ⟨events, rfl, hquiet.inPhase⟩, by simpa using hlog,
        hagrees hpre.agrees⟩
    · refine ⟨.enter phase :: (events ++ [.exit false status]) ++ [.leave phase], ⟨_, rfl, ?_⟩, by simpa using hlog,
        hagrees hpre.agrees⟩
      intro event hmem
      obtain hmem | hmem := List.mem_append.mp hmem
      · exact hquiet.inPhase event hmem
      · obtain rfl := List.mem_singleton.mp hmem
        trivial
  · obtain ⟨rfl, _⟩ | ⟨hvalue, _⟩ := htail
    · exact ⟨.enter phase :: events, [.leave phase], ⟨events, rfl, hquiet.inPhase⟩, by simpa using hlog⟩
    · exact absurd hvalue (hnone ())

section Run

variable (blocks : ProgramBlocks (Value R.Number)) (fuel : Nat) (log : List TraceEvent)

def HasRecordPhase : Prop := blocks.record_items ≠ []

def HasEndPhase : Prop := blocks.end_actions ≠ []

/-- What is added to the log by records that were dealt with, none of them with an exit. -/
structure RecordsSoFar (records : List TraceEvent) : Prop where
  no_exit : ¬ Exits records
  onward : ∀ rest, RecordsTrace (HasRecordPhase blocks) rest → RecordsTrace (HasRecordPhase blocks) (records ++ rest)

/-- A machine stopped while the records are read. -/
def StoppedInRecords (machine : Machine R) : Prop :=
  ∃ records rest, RecordsTrace (HasRecordPhase blocks) (records ++ rest) ∧ machine.log = log ++ records

variable {log}

theorem should_exit_trace :
    Run.Triple (LogIs log) (should_exit : Exec R Bool)
      (fun requested machine => LogIs log machine ∧ (requested = true ↔ Exits log)) (fun _ => False) :=
  fun _ hmachine => ⟨hmachine, hmachine.exits⟩

theorem next_record_trace :
    Run.Triple (LogIs log) (next_record : Exec R Bool)
      (fun available => LogIs (log ++ [.next_record available])) (fun _ => False) := by
  intro machine hmachine
  have hnote : Agrees (machine.note (.next_record (R.next_record machine.world).1)) :=
    hmachine.agrees.note fun _ _ heq => nomatch heq
  exact ⟨congrArg (· ++ [_]) hmachine.log, hnote.of_eq rfl rfl rfl⟩

/-- Where the record loop stands after one record. -/
def AfterRecord (log : List TraceEvent) (result : Unit ⊕ Unit) : Machine R → Prop :=
  result.elim (fun _ machine => ∃ records, RecordsSoFar blocks records ∧ LogIs (log ++ records) machine)
    fun _ machine => ∃ records, RecordsTrace (HasRecordPhase blocks) records ∧ LogIs (log ++ records) machine

variable {blocks} {records events : List TraceEvent}

theorem exits_after_record (hlog : ¬ Exits log) (hrecords : RecordsSoFar blocks records) :
    Exits (log ++ (records ++ .next_record true :: events)) ↔ Exits events := by
  have hcons : Exits (.next_record true :: events) ↔ Exits events := by
    simp only [Exits, List.exists_mem_cons_iff, TraceEvent.IsExit, false_or]
  rw [exits_append, exits_append, hcons]
  exact ⟨fun h => (h.resolve_left hlog).resolve_left hrecords.no_exit, fun h => .inr (.inr h)⟩

/-- Whether the record loop goes on after the events of one record. -/
theorem after_record_trace (hlog : ¬ Exits log) (hrecords : RecordsSoFar blocks records)
    (hevents : RecordTrace (HasRecordPhase blocks) events) :
    Run.Triple (LogIs (log ++ (records ++ .next_record true :: events)))
      (do if ← should_exit then pure (.inr ()) else pure (.inl ()) : Exec R (Unit ⊕ Unit))
      (AfterRecord blocks log) (StoppedInRecords blocks log) := by
  have hexits : Exits (log ++ (records ++ .next_record true :: events)) ↔ Exits events :=
    exits_after_record hlog hrecords
  refine (should_exit_trace.mono (fun _ h => h) (fun _ _ h => h) fun _ h => h.elim).bind fun requested => ?_
  cases requested with
  | true =>
    refine .pure fun machine ⟨hmachine, hrequested⟩ => ⟨_, ?_, hmachine⟩
    exact hrecords.onward _ (.exited hevents (hexits.mp (hrequested.mp rfl)))
  | false =>
    refine .pure fun machine ⟨hmachine, hrequested⟩ => ⟨_, ⟨fun h => ?_, fun rest hrest => ?_⟩, hmachine⟩
    · have hstop := hrequested.mpr ((exits_append).mpr (.inr h))
      cases hstop
    · have hnone : ¬ Exits events := fun h => by
        have hstop := hrequested.mpr (hexits.mpr h)
        cases hstop
      rw [List.append_assoc]
      exact hrecords.onward _ (.again hevents hnone hrest)

/-- One record, from reading it to asking whether to go on. -/
theorem record_trace (fuel : Nat) (hlog : ¬ Exits log) (hrecords : RecordsSoFar blocks records) :
    Run.Triple (LogIs (log ++ records))
      (do
        if ← next_record then
          if blocks.record_items.isEmpty then pure ()
          else exec_phase .record_phase (exec_record_items (call_function blocks fuel) fuel blocks.record_items)
          if ← should_exit then pure (.inr ()) else pure (.inl ())
        else pure (.inr ()) : Exec R (Unit ⊕ Unit))
      (AfterRecord blocks log) (StoppedInRecords blocks log) := by
  have hitems := exec_record_items_endsAt (call_function_neverEnds blocks fuel) fuel blocks.record_items
  refine (next_record_trace.mono (fun _ h => h) (fun _ _ h => h) fun _ h => h.elim).bind fun available => ?_
  cases available with
  | false =>
    refine .pure fun machine hmachine => ⟨records ++ [.next_record false], hrecords.onward _ .exhausted, ?_⟩
    rwa [← List.append_assoc]
  | true =>
    simp only [if_true]
    split
    · rename_i hempty
      have hno : ¬ HasRecordPhase blocks := fun h => h (List.isEmpty_iff.mp hempty)
      have hnothing : RecordTrace (HasRecordPhase blocks) [] := .inr ⟨hno, rfl⟩
      refine (after_record_trace hlog hrecords hnothing).mono (fun machine hmachine => ?_) (fun _ _ h => h) fun _ h => h
      rwa [← List.append_assoc]
    · rename_i hitem
      have hphase : HasRecordPhase blocks := fun h => hitem (List.isEmpty_iff.mpr h)
      have hstopped (machine : Machine R) : (∃ events rest, PhaseTrace .record_phase (events ++ rest) ∧
          machine.log = log ++ records ++ [.next_record true] ++ events) → StoppedInRecords blocks log machine := by
        rintro ⟨events, rest, htrace, hmachine⟩
        by_cases hexits : Exits (events ++ rest)
        · refine ⟨records ++ .next_record true :: events, rest, ?_, by simpa using hmachine⟩
          rw [List.append_assoc]
          exact hrecords.onward _ (.exited (.inl ⟨hphase, htrace⟩) hexits)
        · refine ⟨records ++ .next_record true :: events, rest ++ [.next_record false], ?_, by simpa using hmachine⟩
          have hagain := hrecords.onward _ (.again (.inl ⟨hphase, htrace⟩) hexits .exhausted)
          simpa using hagain
      refine ((exec_phase_trace .record_phase hitems _).mono (fun _ h => h) (fun _ _ h => h) hstopped).bind
        fun _ machine hran => ?_
      obtain ⟨events, htrace, hmachine⟩ := hran
      exact after_record_trace hlog hrecords (.inl ⟨hphase, htrace⟩) machine (by simpa using hmachine)

variable (blocks)

theorem record_loop_trace (hlog : ¬ Exits log) :
    Run.Triple (LogIs log) (record_loop blocks fuel : Exec R Unit)
      (fun _ machine => ∃ records, RecordsTrace (HasRecordPhase blocks) records ∧ LogIs (log ++ records) machine)
      (StoppedInRecords blocks log) := by
  refine (should_exit_trace.mono (fun _ h => h) (fun _ _ h => h) fun _ h => h.elim).bind fun requested => ?_
  cases requested with
  | true => exact fun machine ⟨_, hrequested⟩ => absurd (hrequested.mp rfl) hlog
  | false =>
    let inv : Unit → Machine R → Prop := fun _ machine =>
      ∃ records, RecordsSoFar blocks records ∧ LogIs (log ++ records) machine
    have hstep (position : Unit) : Run.Triple (inv position) _ (AfterRecord blocks log) (StoppedInRecords blocks log) :=
      fun machine ⟨records, hrecords, hmachine⟩ => record_trace fuel hlog hrecords machine hmachine
    refine Run.Triple.mono (Run.Triple.iterate hstep (fun _ machine ⟨records, hrecords, hmachine⟩ => ?_) fuel ())
      (fun machine hmachine => ?_) (fun _ _ h => h) fun _ h => h
    · exact ⟨records, [.next_record false], hrecords.onward _ .exhausted, hmachine.log⟩
    · refine ⟨[], ⟨(fun ⟨_, hmem, _⟩ => nomatch hmem), fun _ h => h⟩, ?_⟩
      simpa using hmachine.1

/-- A machine stopped on the way: what it did is the start of a lawful trace. -/
def StoppedOnTheWay (machine : Machine R) : Prop :=
  ∃ rest, DriverTrace (HasRecordPhase blocks) (HasEndPhase blocks) (machine.log ++ rest)

/-- What the driver does between BEGIN and END. -/
def BetweenTrace (begin_events records : List TraceEvent) : Prop :=
  (HasRecordPhase blocks ∨ HasEndPhase blocks) ∧ ¬ Exits begin_events ∧
      RecordsTrace (HasRecordPhase blocks) records ∨
    (¬ (HasRecordPhase blocks ∨ HasEndPhase blocks) ∨ Exits begin_events) ∧ records = []

theorem between_trace (begin_events : List TraceEvent) :
    Run.Triple (LogIs begin_events)
      (if blocks.record_items.isEmpty && blocks.end_actions.isEmpty then pure () else record_loop blocks fuel :
        Exec R Unit)
      (fun _ machine => ∃ records, BetweenTrace blocks begin_events records ∧ LogIs (begin_events ++ records) machine)
      (fun machine => ∃ records rest, BetweenTrace blocks begin_events (records ++ rest) ∧
        machine.log = begin_events ++ records) := by
  have hphases : (blocks.record_items.isEmpty && blocks.end_actions.isEmpty) = true ↔
      ¬ (HasRecordPhase blocks ∨ HasEndPhase blocks) := by
    simp [HasRecordPhase, HasEndPhase]
  split
  · rename_i hempty
    refine .pure fun machine hmachine => ⟨[], .inr ⟨.inl (hphases.mp hempty), rfl⟩, ?_⟩
    rwa [List.append_nil]
  · rename_i hsome
    have hsome : HasRecordPhase blocks ∨ HasEndPhase blocks := by
      by_contra h
      exact hsome (hphases.mpr h)
    by_cases hexits : Exits begin_events
    · -- an exit in BEGIN: the loop is left at once
      intro machine hmachine
      have hrequested := hmachine.exits.mpr hexits
      have hloop : record_loop blocks fuel machine = (.value (), machine) := by
        change (if machine.exit_requested then pure () else _ : Exec R Unit) machine = _
        rw [hrequested]
        rfl
      rw [hloop]
      refine ⟨[], .inr ⟨.inr hexits, rfl⟩, ?_⟩
      rwa [List.append_nil]
    · refine (record_loop_trace blocks fuel hexits).mono (fun _ h => h) ?_ ?_
      · rintro _ machine ⟨records, hrecords, hmachine⟩
        exact ⟨records, .inl ⟨hsome, hexits, hrecords⟩, hmachine⟩
      · rintro machine ⟨records, rest, hrecords, hmachine⟩
        exact ⟨records, rest, .inl ⟨hsome, hexits, hrecords⟩, hmachine⟩

/-- The END phase and the exit status, after what came before. -/
theorem end_trace (begin_events records : List TraceEvent) (hbegin : PhaseTrace .begin_phase begin_events)
    (hrecords : BetweenTrace blocks begin_events records) :
    Run.Triple (LogIs (begin_events ++ records))
      (do
        exec_phase .end_phase (exec_actions (call_function blocks fuel) fuel blocks.end_actions)
        exit_status : Exec R Int)
      (fun _ machine => DriverTrace (HasRecordPhase blocks) (HasEndPhase blocks) machine.log)
      (StoppedOnTheWay blocks) := by
  have hactions := exec_actions_endsAt (call_function_neverEnds blocks fuel) fuel blocks.end_actions
  refine ((exec_phase_trace .end_phase hactions _).mono (fun _ h => h) (fun _ _ h => h) ?_).bind fun _ => ?_
  · rintro machine ⟨events, rest, htrace, hmachine⟩
    refine ⟨rest, begin_events, records, events ++ rest, ?_, hbegin, htrace, hrecords⟩
    simp [hmachine]
  · rintro machine ⟨events, htrace, hmachine⟩
    exact ⟨begin_events, records, events, hmachine.log, hbegin, htrace, hrecords⟩

/-- The whole run: its log is a lawful trace, or the start of one if the run does not return. -/
theorem quawk_main_trace :
    Run.Triple (LogIs []) (quawk_main blocks fuel : Exec R Int)
      (fun _ machine => DriverTrace (HasRecordPhase blocks) (HasEndPhase blocks) machine.log)
      (StoppedOnTheWay blocks) := by
  have hactions := exec_actions_endsAt (call_function_neverEnds blocks fuel) fuel blocks.begin_actions
  refine ((exec_phase_trace .begin_phase hactions []).mono (fun _ h => h) (fun _ _ h => h) ?_).bind fun _ => ?_
  · rintro machine ⟨events, rest, htrace, hmachine⟩
    -- complete BEGIN, then go to END with an exit, or over no records
    by_cases hrecords : (HasRecordPhase blocks ∨ HasEndPhase blocks) ∧ ¬ Exits (events ++ rest)
    · refine ⟨rest ++ [.next_record false] ++ [.enter .end_phase, .leave .end_phase], events ++ rest, _, _, ?_, htrace,
        PhaseTrace.nothing .end_phase, .inl ⟨hrecords.1, hrecords.2, .exhausted⟩⟩
      simp [hmachine]
    · refine ⟨rest ++ [.enter .end_phase, .leave .end_phase], events ++ rest, [], _, ?_, htrace,
        PhaseTrace.nothing .end_phase, .inr ⟨?_, rfl⟩⟩
      · simp [hmachine]
      · by_contra h
        push Not at h
        exact hrecords h
  · rintro machine ⟨begin_events, hbegin, hmachine⟩
    rw [List.nil_append] at hmachine
    have hbetween := between_trace (R := R) blocks fuel begin_events
    split at hbetween
    · rename_i hempty
      rw [if_pos hempty]
      obtain ⟨records, hrecords, hmachine⟩ := hbetween machine hmachine
      exact end_trace blocks fuel begin_events records hbegin hrecords machine hmachine
    · rename_i hsome
      rw [if_neg hsome]
      refine (hbetween.mono (fun _ h => h) (fun _ _ h => h) ?_).bind (fun _ => ?_) machine hmachine
      · rintro machine ⟨records, rest, hrecords, hmachine⟩
        refine ⟨rest ++ [.enter .end_phase, .leave .end_phase], begin_events, records ++ rest, _, ?_, hbegin,
          PhaseTrace.nothing .end_phase, hrecords⟩
        simp [hmachine]
      · rintro machine ⟨records, hrecords, hmachine⟩
        exact end_trace blocks fuel begin_events records hbegin hrecords machine hmachine

end Run

end quawk
