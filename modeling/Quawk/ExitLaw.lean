import Quawk.EndingBlocks

namespace quawk

open StatefulRun (Result Run)

variable {R : Runtime} {α β σ : Type}

theorem call_function_neverEnds (blocks : ProgramBlocks (Value R.Number)) (fuel : Nat) (function : Name)
    (args : List (Option Text)) : NeverEnds (call_function blocks fuel function args : Exec R _) := by
  induction fuel generalizing function args with
  | zero => exact .silent fun _ => rfl
  | succ fuel ih =>
    rw [call_function]
    split
    · exact .silent fun _ => rfl
    · rename_i block _
      have hbody : NeverEnds (exec (call_function blocks fuel) true fuel block.body) :=
        (exec_endsAt ih true fuel block.body).neverEnds fun _ hleaves => nomatch hleaves.1
      exact NeverEnds.bind (EndsAt.in_frame hbody _) fun _ => .pure _

def TraceEvent.IsExit : TraceEvent → Prop
  | .exit _ _ => True
  | _ => False

/-- Reading a record, or giving it to the rules. -/
def TraceEvent.IsRecord : TraceEvent → Prop
  | .next_record _ | .enter .record_phase => True
  | _ => False

def TraceEvent.enters_end : TraceEvent → Bool
  | .enter .end_phase => true
  | _ => false

/-- Every exit leaves the phase at once and is the last time records are looked at. -/
def ExitsStop (log : List TraceEvent) : Prop :=
  ∀ before in_function status after, log = before ++ .exit in_function status :: after →
    (∃ phase rest, after = .leave phase :: rest) ∧ ∀ event ∈ after, ¬ event.IsRecord

/-- No exit is executed by a user function. -/
def ExitsInPhases (log : List TraceEvent) : Prop :=
  ∀ in_function status, .exit in_function status ∈ log → in_function = false

/-- An exit without an expression is executed only while the status is 0. -/
def ValuelessExitsKeepZero (log : List TraceEvent) : Prop :=
  ∀ before in_function after, log = before ++ .exit in_function none :: after →
    (last_request before).getD 0 = 0

/-- An event of a log made of two pieces stands in one of them. -/
theorem event_position {log events before after : List TraceEvent} {event : TraceEvent}
    (h : log ++ events = before ++ event :: after) :
    (∃ middle, log = before ++ event :: middle ∧ after = middle ++ events) ∨
      ∃ middle, before = log ++ middle ∧ events = middle ++ event :: after := by
  obtain ⟨rest, hbefore, hevents⟩ | ⟨rest, hlog, hrest⟩ := List.append_eq_append_iff.mp h
  · exact Or.inr ⟨rest, hbefore, hevents⟩
  · cases rest with
    | nil => exact Or.inr ⟨[], by simpa using hlog.symm, by simpa using hrest.symm⟩
    | cons event' middle =>
      obtain ⟨rfl, rfl⟩ := List.cons.inj hrest
      exact Or.inl ⟨middle, hlog, rfl⟩

theorem ExitsStop.append {log events : List TraceEvent} (h : ExitsStop log)
    (hevents : ∀ event ∈ events, ¬ event.IsExit)
    (hrecords : (∃ event ∈ log, event.IsExit) → ∀ event ∈ events, ¬ event.IsRecord) :
    ExitsStop (log ++ events) := by
  intro before in_function status after heq
  obtain ⟨middle, rfl, rfl⟩ | ⟨middle, rfl, rfl⟩ := event_position heq
  · obtain ⟨⟨phase, rest, rfl⟩, hnone⟩ := h before in_function status middle rfl
    refine ⟨⟨phase, rest ++ events, rfl⟩, fun event hmem => ?_⟩
    obtain hmem | hmem := List.mem_append.mp hmem
    · exact hnone event hmem
    · exact hrecords ⟨.exit in_function status, by simp, trivial⟩ event hmem
  · exact absurd trivial (hevents (.exit in_function status) (by simp))

theorem ExitsStop.append_exit {log : List TraceEvent} (h : ExitsStop log) (in_function : Bool)
    (status : Option Int) (phase : Phase) :
    ExitsStop (log ++ [.exit in_function status, .leave phase]) := by
  intro before in_function' status' after heq
  obtain ⟨middle, rfl, rfl⟩ | ⟨middle, rfl, hmiddle⟩ := event_position heq
  · obtain ⟨⟨phase', rest, rfl⟩, hnone⟩ := h before in_function' status' middle rfl
    refine ⟨⟨phase', rest ++ _, rfl⟩, fun event hmem => ?_⟩
    obtain hmem | hmem := List.mem_append.mp hmem
    · exact hnone event hmem
    · have hmem : event = .exit in_function status ∨ event = .leave phase := by simpa using hmem
      obtain rfl | rfl := hmem <;> exact id
  · obtain _ | ⟨_, _ | ⟨_, _⟩⟩ := middle
    · obtain ⟨hexit, rfl⟩ := List.cons.inj hmiddle
      refine ⟨⟨phase, [], rfl⟩, fun event hmem => ?_⟩
      obtain rfl := List.mem_singleton.mp hmem
      exact id
    · simp at hmiddle
    · simp at hmiddle

theorem last_request_isSome (log : List TraceEvent) :
    (last_request log).isSome ↔ ∃ event ∈ log, event.IsExit := by
  induction log using List.reverseRecOn with
  | nil => simp [last_request]
  | append_singleton log event ih =>
    cases event with
    | exit _ _ => simp [last_request, TraceEvent.IsExit, or_and_right, exists_or]
    | op _ _ _ | next_record _ | enter _ | leave _ =>
      simpa [last_request, TraceEvent.IsExit, or_and_right, exists_or] using ih

/-- While exits without an expression leave the status as it is, the runtime's status is that of the
last exit with one. -/
theorem ValuelessExitsKeepZero.last_status {log : List TraceEvent} (h : ValuelessExitsKeepZero log) :
    (last_request log).getD 0 = quawk.last_status log := by
  induction log using List.reverseRecOn with
  | nil => rfl
  | append_singleton log event ih =>
    have hlog : ValuelessExitsKeepZero log := fun before in_function after heq =>
      h before in_function (after ++ [event]) (by rw [heq, List.append_assoc]; rfl)
    cases event with
    | exit in_function status =>
      cases status with
      | some status => simp [last_request, quawk.last_status]
      | none =>
        have hzero := ih hlog
        rw [h log in_function [] rfl] at hzero
        simpa [last_request, quawk.last_status] using hzero
    | op _ _ _ | next_record _ | enter _ | leave _ =>
      simpa [last_request, quawk.last_status] using ih hlog

/-- What holds between the phases when the END actions have been started `ends` times. -/
structure Lawful (ends : Nat) (machine : Machine R) : Prop where
  agrees : Agrees machine
  ends_entered : machine.log.countP TraceEvent.enters_end = ends
  stops : ExitsInPhases machine.log → ExitsStop machine.log

theorem Lawful.exits {ends : Nat} {machine : Machine R} (h : Lawful ends machine) :
    machine.exit_requested ↔ ∃ event ∈ machine.log, event.IsExit := by
  rw [h.agrees.requested, last_request_isSome]

/-- Before any exit of a phase. -/
def Running (machine : Machine R) : Prop :=
  ExitsInPhases machine.log → machine.exit_requested = false

theorem ExitsInPhases.of_append {log events : List TraceEvent} (h : ExitsInPhases (log ++ events)) :
    ExitsInPhases log := fun in_function status hmem => h in_function status (List.mem_append_left _ hmem)

theorem Quiet.not_record {events : List TraceEvent} (h : Quiet events) : ∀ event ∈ events, ¬ event.IsRecord := by
  intro event hmem hrecord
  have hquiet := h event hmem
  cases event with
  | op _ _ _ | exit _ _ => exact hrecord
  | next_record _ | enter _ | leave _ => exact hquiet

/-- Outside functions nothing quiet is an exit. -/
theorem Quiet.not_exit {events : List TraceEvent} (h : Quiet events) (hphases : ExitsInPhases events) :
    ∀ event ∈ events, ¬ event.IsExit := by
  intro event hmem hexit
  have hquiet := h event hmem
  cases event with
  | exit in_function status =>
    obtain rfl := hphases in_function status hmem
    exact Bool.false_ne_true hquiet
  | op _ _ _ | next_record _ | enter _ | leave _ => exact hexit

theorem Quiet.enters_end {events : List TraceEvent} (h : Quiet events) :
    events.countP TraceEvent.enters_end = 0 := by
  rw [List.countP_eq_zero]
  intro event hmem
  have hquiet := h event hmem
  cases event with
  | op _ _ _ | exit _ _ => exact Bool.false_ne_true
  | next_record _ | enter _ | leave _ => exact hquiet.elim

/-- The log of one phase, and how it ends. -/
theorem exec_phase_log (phase : Phase) {body : Exec R Completion} (h : EndsAt (LeavesPhase false) body)
    (machine : Machine R) :
    ∃ events tail, (exec_phase phase body machine).2.log = machine.log ++ .enter phase :: events ++ tail ∧
      (Agrees machine → Agrees (exec_phase phase body machine).2) ∧ Quiet events ∧
      (tail = [] ∧ (∀ value, (exec_phase phase body machine).1 ≠ .value value) ∨
        (exec_phase phase body machine).1 = .value () ∧
          (tail = [.leave phase] ∨ ∃ status, tail = [.exit false status, .leave phase])) := by
  let start := machine.note (.enter phase)
  have hstart (h : Agrees machine) : Agrees start := h.note fun _ _ heq => by cases heq
  have hphase : exec_phase phase body machine =
      Run.bind (in_frame (fun _ => none) body) (fun _ => note (.leave phase)) start := rfl
  obtain ⟨events, hlog, hagrees, hevents⟩ := h.in_frame (fun _ => none) start
  rw [hphase]
  unfold Run.bind
  cases hresult : in_frame (fun _ => none) body start with
  | mk result after =>
    rw [hresult] at hlog hagrees hevents
    have hlog' : after.log = machine.log ++ .enter phase :: events := by
      rw [hlog, Machine.note_log, List.append_assoc]
      rfl
    cases result with
    | value value =>
      have hleave (h : Agrees after) : Agrees (after.note (.leave phase)) :=
        h.note fun _ _ heq => by cases heq
      obtain hquiet | ⟨front, status, _, rfl, hfront, _, _⟩ := hevents
      · exact ⟨events, [.leave phase], congrArg (· ++ _) hlog', hleave ∘ hagrees ∘ hstart, hquiet,
          Or.inr ⟨rfl, Or.inl rfl⟩⟩
      · refine ⟨front, [.exit false status, .leave phase], ?_, hleave ∘ hagrees ∘ hstart, hfront,
          Or.inr ⟨rfl, Or.inr ⟨status, rfl⟩⟩⟩
        change after.log ++ [.leave phase] = _
        simp [hlog']
    | timeout | raised _ | crashed =>
      obtain hquiet | ⟨_, _, _, _, _, hvalue, _⟩ := hevents
      · exact ⟨events, [], by rw [List.append_nil]; exact hlog', hagrees ∘ hstart, hquiet,
          Or.inl ⟨rfl, fun _ heq => by cases heq⟩⟩
      · cases hvalue

/-- One phase. Before an exit it may be any phase, after one it must not be the record phase. -/
theorem exec_phase_lawful (phase : Phase) {body : Exec R Completion} (h : EndsAt (LeavesPhase false) body)
    {ends : Nat} {machine : Machine R} (hlawful : Lawful ends machine)
    (hrecord : phase = .record_phase → Running machine) :
    Lawful (ends + if phase = .end_phase then 1 else 0) (exec_phase phase body machine).2 ∧
      (Running machine → (∀ value, (exec_phase phase body machine).1 ≠ .value value) →
        Running (exec_phase phase body machine).2) := by
  obtain ⟨events, tail, hlog, hagrees, hquiet, htail⟩ := exec_phase_log phase h machine
  have hnot_exit : ExitsInPhases (machine.log ++ .enter phase :: events) →
      ∀ event ∈ TraceEvent.enter phase :: events, ¬ event.IsExit := by
    intro hphases event hmem
    obtain rfl | hmem := List.mem_cons.mp hmem
    · exact id
    · exact hquiet.not_exit (fun in_function status hmem => hphases in_function status (by simp [hmem])) event hmem
  have hcount : (TraceEvent.enter phase :: events).countP TraceEvent.enters_end =
      if phase = .end_phase then 1 else 0 := by
    rw [List.countP_cons, hquiet.enters_end]
    cases phase <;> rfl
  have htail_count : tail.countP TraceEvent.enters_end = 0 := by
    obtain ⟨rfl, _⟩ | ⟨_, rfl | ⟨_, rfl⟩⟩ := htail <;> rfl
  have hafter : Agrees (exec_phase phase body machine).2 := hagrees hlawful.agrees
  refine ⟨⟨hafter, ?_, fun hphases => ?_⟩, fun hrunning hnone hphases => ?_⟩
  · rw [hlog, List.countP_append, List.countP_append, hlawful.ends_entered, hcount, htail_count]
    rfl
  · rw [hlog] at hphases ⊢
    have hfront := hphases.of_append
    have hstops : ExitsStop (machine.log ++ .enter phase :: events) := by
      refine (hlawful.stops hfront.of_append).append (hnot_exit hfront) fun hexit event hmem => ?_
      obtain rfl | hmem := List.mem_cons.mp hmem
      · intro hphase
        have hrecord_phase : phase = .record_phase := by
          cases phase with
          | record_phase => rfl
          | begin_phase | end_phase => exact hphase.elim
        have hrequested := hlawful.exits.mpr hexit
        rw [hrecord hrecord_phase hfront.of_append] at hrequested
        cases hrequested
      · exact hquiet.not_record event hmem
    obtain ⟨rfl, _⟩ | ⟨_, rfl | ⟨status, rfl⟩⟩ := htail
    · rwa [List.append_nil]
    · refine hstops.append ?_ fun _ => ?_ <;>
      · intro event hmem
        obtain rfl := List.mem_singleton.mp hmem
        exact id
    · exact hstops.append_exit false status phase
  · obtain ⟨rfl, _⟩ | ⟨hvalue, _⟩ := htail
    · rw [hlog, List.append_nil] at hphases
      have hnone_before := hrunning hphases.of_append
      rw [hafter.requested, hlog, List.append_nil]
      by_contra hsome
      obtain ⟨event, hmem, hexit⟩ := (last_request_isSome _).mp (Bool.not_eq_false _ ▸ hsome)
      obtain hmem | hmem := List.mem_append.mp hmem
      · have hrequested := hlawful.exits.mpr ⟨event, hmem, hexit⟩
        rw [hnone_before] at hrequested
        cases hrequested
      · exact hnot_exit hphases event hmem hexit
    · exact (hnone () hvalue).elim

section Run

variable (blocks : ProgramBlocks (Value R.Number)) (fuel : Nat)

/-- A phase that is run before any exit. -/
theorem exec_phase_running (phase : Phase) {body : Exec R Completion} (hphase : phase ≠ .end_phase)
    (h : EndsAt (LeavesPhase false) body) :
    Run.Triple (fun machine => Lawful 0 machine ∧ Running machine) (exec_phase phase body)
      (fun _ => Lawful 0) (fun machine => Lawful 0 machine ∧ Running machine) := by
  refine .intro (fun machine _ hpre _ => ?_) (fun machine hpre hnone => ?_)
  all_goals
    obtain ⟨hlawful, hrunning⟩ := hpre
    have hafter := exec_phase_lawful phase h hlawful fun _ => hrunning
    simp only [if_neg hphase, Nat.add_zero] at hafter
  · exact hafter.1
  · exact ⟨hafter.1, hafter.2 hrunning hnone⟩

theorem end_phase_lawful {body : Exec R Completion} (h : EndsAt (LeavesPhase false) body) :
    Run.Triple (Lawful 0) (exec_phase .end_phase body) (fun _ => Lawful 1) (Lawful 1) := by
  refine .intro (fun machine _ hpre _ => ?_) (fun machine hpre _ => ?_) <;>
  · exact (exec_phase_lawful .end_phase h hpre fun heq => nomatch heq).1

theorem should_exit_lawful :
    Run.Triple (Lawful 0) (should_exit : Exec R Bool)
      (fun requested machine => Lawful 0 machine ∧ (requested = false → Running machine))
      (fun machine => Lawful 0 machine ∧ Running machine) :=
  fun _ hlawful => ⟨hlawful, fun hrequested _ => hrequested⟩

theorem next_record_lawful :
    Run.Triple (fun machine => Lawful 0 machine ∧ Running machine) (next_record : Exec R Bool)
      (fun _ machine => Lawful 0 machine ∧ Running machine)
      (fun machine => Lawful 0 machine ∧ Running machine) := by
  intro machine ⟨hlawful, hrunning⟩
  let event := TraceEvent.next_record (R.next_record machine.world).1
  have hnote : Agrees (machine.note event) := hlawful.agrees.note fun _ _ heq => nomatch heq
  refine ⟨⟨hnote.of_eq rfl rfl rfl, ?_, fun hphases => ?_⟩, fun hphases => ?_⟩
  · change (machine.log ++ [event]).countP TraceEvent.enters_end = 0
    rw [List.countP_append, hlawful.ends_entered]
    rfl
  · have hphases : ExitsInPhases (machine.log ++ [event]) := hphases
    refine (hlawful.stops hphases.of_append).append (fun event' hmem => ?_) fun hexit => ?_
    · obtain rfl := List.mem_singleton.mp hmem
      exact id
    · have hrequested := hlawful.exits.mpr hexit
      rw [hrunning hphases.of_append] at hrequested
      cases hrequested
  · exact hrunning (ExitsInPhases.of_append hphases)

/-- Whether the record loop goes on. -/
theorem after_record_lawful :
    Run.Triple (Lawful 0)
      (do if ← should_exit then pure (.inr ()) else pure (.inl ()) : Exec R (Unit ⊕ Unit))
      (fun result => result.elim (fun _ machine => Lawful 0 machine ∧ Running machine) fun _ => Lawful 0)
      (fun machine => Lawful 0 machine ∧ Running machine) := by
  refine should_exit_lawful.bind fun requested => ?_
  cases requested with
  | true => exact .pure fun _ h => h.1
  | false => exact .pure fun _ h => ⟨h.1, h.2 rfl⟩

theorem record_loop_lawful :
    Run.Triple (Lawful 0) (record_loop blocks fuel : Exec R Unit) (fun _ => Lawful 0)
      (fun machine => Lawful 0 machine ∧ Running machine) := by
  have hitems := exec_record_items_endsAt (call_function_neverEnds blocks fuel) fuel blocks.record_items
  refine should_exit_lawful.bind fun requested => ?_
  cases requested with
  | true => exact .pure fun _ h => h.1
  | false =>
    refine Run.Triple.mono (.iterate (fun _ => next_record_lawful.bind fun available => ?_)
      (fun _ _ h => h) fuel ()) (fun machine h => ⟨h.1, h.2 rfl⟩) (fun _ _ h => h) (fun _ h => h)
    cases available with
    | false => exact .pure fun _ h => h.1
    | true =>
      simp only [if_true]
      split_ifs
      · exact after_record_lawful.mono (fun _ h => h.1) (fun _ _ h => h) (fun _ h => h)
      · exact (exec_phase_running .record_phase (fun heq => nomatch heq) hitems).bind fun _ => after_record_lawful

/-- The whole run: it returns with the END actions started once, or stops before an exit or in END. -/
theorem quawk_main_lawful :
    Run.Triple (fun machine => Lawful 0 machine ∧ Running machine) (quawk_main blocks fuel : Exec R Int)
      (fun status machine => Lawful 1 machine ∧ status = (last_request machine.log).getD 0)
      (fun machine => Lawful 0 machine ∧ Running machine ∨ Lawful 1 machine) := by
  have hcalls := call_function_neverEnds blocks fuel
  have hend : Run.Triple (Lawful 0) (do
        exec_phase .end_phase (exec_actions (call_function blocks fuel) fuel blocks.end_actions)
        exit_status : Exec R Int)
      (fun status machine => Lawful 1 machine ∧ status = (last_request machine.log).getD 0)
      (fun machine => Lawful 0 machine ∧ Running machine ∨ Lawful 1 machine) := by
    refine ((end_phase_lawful (exec_actions_endsAt hcalls fuel blocks.end_actions)).mono
      (fun _ h => h) (fun _ _ h => h) fun _ => Or.inr).bind fun _ machine hlawful => ⟨hlawful, ?_⟩
    cases hrequest : last_request machine.log with
    | none => simp [hlawful.agrees.requested, hrequest]
    | some status => simp [hlawful.agrees.requested, hrequest, hlawful.agrees.status status hrequest]
  have hbegin := exec_phase_running .begin_phase (fun heq => nomatch heq)
    (exec_actions_endsAt hcalls fuel blocks.begin_actions)
  refine (hbegin.mono (fun _ h => h) (fun _ _ h => h) fun _ => Or.inl).bind fun _ => ?_
  split_ifs
  · exact hend
  · exact ((record_loop_lawful blocks fuel).mono (fun _ h => h) (fun _ _ h => h) fun _ => Or.inl).bind
      fun _ => hend

end Run

/-- Exits end their phase, no record is looked at after one, the END actions are started once, and the
status returned is that of the last exit that had an expression. -/
structure ExitLaw (run : Result Int × Machine R) : Prop where
  stops : ExitsStop run.2.log
  end_once : (∃ event ∈ run.2.log, event.IsExit) → run.2.log.countP TraceEvent.enters_end = 1
  status : ∀ status, run.1 = .value status → status = last_status run.2.log

/-- The machine `quawk_main` starts on. -/
structure Initial (machine : Machine R) : Prop where
  log : machine.log = []
  no_exit : machine.exit_requested = false

theorem Initial.lawful {machine : Machine R} (h : Initial machine) : Lawful 0 machine ∧ Running machine := by
  refine ⟨⟨⟨by rw [h.log, h.no_exit]; rfl, by rw [h.log]; exact fun _ heq => nomatch heq⟩,
    by rw [h.log]; rfl, fun _ before in_function status after heq => ?_⟩, fun _ => h.no_exit⟩
  rw [h.log] at heq
  simp at heq

theorem quawk_main_exit_law (program : Program) (blocks : ProgramBlocks (Value R.Number))
    (_ : lower_to_llvm_ir program = .ok blocks) (fuel : Nat) (machine : Machine R) (hinitial : Initial machine)
    (hphases : ExitsInPhases (quawk_main blocks fuel machine).2.log)
    (hvalueless : ValuelessExitsKeepZero (quawk_main blocks fuel machine).2.log) :
    ExitLaw (quawk_main blocks fuel machine) := by
  have hrun := quawk_main_lawful blocks fuel machine hinitial.lawful
  generalize quawk_main blocks fuel machine = run at *
  obtain ⟨result, after⟩ := run
  have hend (hlawful : Lawful 0 after ∧ Running after ∨ Lawful 1 after) :
      ExitsStop after.log ∧ ((∃ event ∈ after.log, event.IsExit) → after.log.countP TraceEvent.enters_end = 1) := by
    obtain ⟨hlawful, hrunning⟩ | hlawful := hlawful
    · refine ⟨hlawful.stops hphases, fun hexit => ?_⟩
      have hrequested := hlawful.exits.mpr hexit
      rw [hrunning hphases] at hrequested
      cases hrequested
    · exact ⟨hlawful.stops hphases, fun _ => hlawful.ends_entered⟩
  cases result with
  | value status =>
    obtain ⟨hlawful, hstatus⟩ := hrun
    obtain ⟨hstops, honce⟩ := hend (Or.inr hlawful)
    refine ⟨hstops, honce, fun _ heq => ?_⟩
    obtain rfl := Result.value.inj heq
    rw [hstatus, hvalueless.last_status]
  | timeout | raised _ | crashed =>
    obtain ⟨hstops, honce⟩ := hend hrun
    exact ⟨hstops, honce, fun _ heq => nomatch heq⟩

/-- `BEGIN { exit 3 } END { print }` -/
def exit_in_begin : Program := ⟨[
  .pattern_action (some .begin_pattern) (some [.exit (some (.numeric_literal ['3']))]),
  .pattern_action (some .end_pattern) (some [.print [] none])]⟩

def run_program (program : Program) (fuel : Nat) (records : List Text) :
    Result Int × Machine whole_number_runtime :=
  quawk_main (lowered_blocks program) fuel (start_machine records)

def TraceEvent.exits_phase_with_value : TraceEvent → Bool
  | .exit in_function status => !in_function && status.isSome
  | _ => true

theorem exits_of_all {log : List TraceEvent} (hall : log.all TraceEvent.exits_phase_with_value = true) :
    ExitsInPhases log ∧ ValuelessExitsKeepZero log := by
  rw [List.all_eq_true] at hall
  refine ⟨fun in_function status hmem => ?_, fun before in_function after heq => ?_⟩
  · have hexit := hall _ hmem
    simp only [TraceEvent.exits_phase_with_value, Bool.and_eq_true, Bool.not_eq_true'] at hexit
    exact hexit.1
  · have hexit := hall (.exit in_function none) (by simp [heq])
    simp [TraceEvent.exits_phase_with_value] at hexit

theorem quawk_main_exit_law_begin : ExitLaw (run_program exit_in_begin 5 []) := by
  have hlower : lower_to_llvm_ir exit_in_begin =
      .ok (lowered_blocks exit_in_begin : ProgramBlocks (Value whole_number_runtime.Number)) :=
    lower_to_llvm_ir_eq (by decide +kernel)
  have hall : (run_program exit_in_begin 5 []).2.log.all TraceEvent.exits_phase_with_value = true := by
    decide +kernel
  have hexits := exits_of_all hall
  unfold run_program at *
  exact quawk_main_exit_law exit_in_begin (lowered_blocks exit_in_begin) hlower 5 (start_machine []) ⟨rfl, rfl⟩
    hexits.1 hexits.2

/-- `function f() { exit 1 } BEGIN { f(); print }` -/
def exit_in_function : Program := ⟨[
  .function ⟨"f", [], [.exit (some (.numeric_literal ['1']))]⟩,
  .pattern_action (some .begin_pattern) (some [.expr (.call "f" []), .print [] none])]⟩

def TraceEvent.is_leave : TraceEvent → Bool
  | .leave _ => true
  | _ => false

theorem ExitsStop.is_leave {log : List TraceEvent} (h : ExitsStop log) {position : Nat}
    (hexit : log[position]?.any fun event => !event.exits_phase_with_value) :
    log[position + 1]?.any TraceEvent.is_leave := by
  obtain ⟨event, hget, hexit⟩ := (Option.any_eq_true _ _).mp hexit
  obtain ⟨hlt, hevent⟩ := List.getElem?_eq_some_iff.mp hget
  cases event with
  | exit in_function status =>
    have hsplit : log = log.take position ++ .exit in_function status :: log.drop (position + 1) := by
      rw [← hevent, ← List.drop_eq_getElem_cons hlt, List.take_append_drop]
    obtain ⟨⟨phase, rest, hrest⟩, _⟩ := h _ _ _ _ hsplit
    have hnext : log[position + 1]? = (log.drop (position + 1))[0]? := by rw [List.getElem?_drop, Nat.add_zero]
    rw [hnext, hrest]
    rfl
  | op _ _ _ | next_record _ | enter _ | leave _ => cases hexit

/-- The exit of the function lets BEGIN go on. -/
theorem quawk_main_breaks_exit_law :
    ¬ ∀ (program : Program) (blocks : ProgramBlocks (Value whole_number_runtime.Number)),
      lower_to_llvm_ir program = .ok blocks → ∀ fuel (machine : Machine whole_number_runtime), Initial machine →
        ExitLaw (quawk_main blocks fuel machine) := by
  intro h
  have hlaw := h exit_in_function (lowered_blocks exit_in_function) (lower_to_llvm_ir_eq (by decide +kernel)) 5
    (start_machine []) ⟨rfl, rfl⟩
  have hexit : (run_program exit_in_function 5 []).2.log[4]?.any fun event => !event.exits_phase_with_value := by
    decide +kernel
  have hgoes_on : ¬ (run_program exit_in_function 5 []).2.log[5]?.any TraceEvent.is_leave := by
    decide +kernel
  unfold run_program at *
  exact hgoes_on (hlaw.stops.is_leave hexit)

end quawk
