import Quawk.ExitLaw
import Quawk.InputStream

namespace quawk

open StructuredCode (Operands)
open StatefulRun (Result Run)

/-- A runtime that reads its main input as the functions above do; of its other parts nothing is asked. -/
structure InputRuntime extends Runtime where
  fopen : Text → Option Stream
  input : World → InputState
  next_record_input : ∀ world, (next_record world).1 = (qk_next_record fopen (input world)).1 ∧
    input (next_record world).2 = (qk_next_record fopen (input world)).2
  nextfile_input : ∀ world, input (nextfile world) = qk_nextfile (input world)
  getline_input : ∀ world, input (perform .qk_getline_main_record () world).2 =
    (qk_getline_main_record fopen (input world)).2
  getline_string_input : ∀ operands world, input (perform .qk_getline_main_string operands world).2 =
    (qk_getline_main_string fopen (input world)).2
  failures_stay : ∀ {types : List Ty} {type : Ty} (f : Op types type) operands world,
    (input world).failures <+: (input (perform f operands world).2).failures

section Status

variable {R : Runtime}

/-- An exit with an expression was executed. -/
def ExitsWithValue (log : List TraceEvent) : Prop :=
  ∃ in_function status, TraceEvent.exit in_function (some status) ∈ log

theorem last_request_valueless {log : List TraceEvent} (h : ¬ ExitsWithValue log) :
    (last_request log).getD 0 = 0 := by
  induction log using List.reverseRecOn with
  | nil => rfl
  | append_singleton front event ih =>
    have hfront := ih fun ⟨in_function, status, hmem⟩ =>
      h ⟨in_function, status, List.mem_append_left _ hmem⟩
    cases event with
    | exit in_function status =>
      cases status with
      | none => simp [last_request]
      | some status => exact absurd ⟨in_function, status, List.mem_append_right _ List.mem_cons_self⟩ h
    | op _ _ _ | next_record _ | enter _ | leave _ => simpa [last_request] using hfront

/-- The status of a run that executed no exit with an expression is 0. -/
theorem quawk_main_status_zero {blocks : ProgramBlocks (Value R.Number)} {fuel : Nat} {machine : Machine R}
    (hinitial : Initial machine) {status : Int} (hstatus : (quawk_main blocks fuel machine).1 = .value status)
    (hvalueless : ¬ ExitsWithValue (quawk_main blocks fuel machine).2.log) : status = 0 := by
  have hrun := quawk_main_lawful blocks fuel machine hinitial.lawful
  generalize quawk_main blocks fuel machine = run at *
  obtain ⟨result, after⟩ := run
  dsimp only at hstatus hvalueless
  subst hstatus
  obtain ⟨_, hlast⟩ := hrun
  rw [hlast, last_request_valueless hvalueless]

end Status

/-- An operand was reached that could not be opened or failed while it was read. -/
def InputFailed (R : InputRuntime) (machine : Machine R.toRuntime) : Prop :=
  (R.input machine.world).failures ≠ []

/-- A failure of the input shows in the status exactly where there was none, or an exit with an expression
gave the status: without one the status is 0. -/
theorem input_failure_visible_iff (R : InputRuntime) (program : Program)
    (blocks : ProgramBlocks (Value R.Number)) (_ : lower_to_llvm_ir program = .ok blocks) (fuel : Nat)
    (machine : Machine R.toRuntime) (hinitial : Initial machine) (status : Int)
    (hstatus : (quawk_main blocks fuel machine).1 = .value status) :
    (InputFailed R (quawk_main blocks fuel machine).2 →
        status ≠ 0 ∨ ExitsWithValue (quawk_main blocks fuel machine).2.log) ↔
      ¬ InputFailed R (quawk_main blocks fuel machine).2 ∨
        ExitsWithValue (quawk_main blocks fuel machine).2.log := by
  constructor
  · intro hvisible
    by_cases hvalue : ExitsWithValue (quawk_main blocks fuel machine).2.log
    · exact Or.inr hvalue
    · refine Or.inl fun hfailed => ?_
      have hzero := quawk_main_status_zero hinitial hstatus hvalue
      exact (hvisible hfailed).elim (fun hne => hne hzero) hvalue
  · intro hor hfailed
    exact Or.inr (hor.resolve_left fun hnot => hnot hfailed)

theorem advance_failures (input : InputState) (handle : Handle) (rest : Option Text) :
    input.failures <+: (input.advance handle rest).failures := by
  cases handle <;> simp only [InputState.advance] <;> split_ifs <;> simp

theorem open_next_input_failures {fopen : Text → Option Stream} {input after : InputState} {available : Bool}
    (hopen : qk_open_next_input fopen input = (available, after)) : input.failures <+: after.failures := by
  unfold qk_open_next_input at hopen
  split_ifs at hopen
  · obtain ⟨_, rfl⟩ := Prod.mk.inj hopen
    exact List.prefix_rfl
  · obtain ⟨_, rfl⟩ := Prod.mk.inj hopen
    exact List.prefix_rfl
  · split at hopen
    · obtain ⟨_, rfl⟩ := Prod.mk.inj hopen
      exact List.prefix_rfl
    · dsimp only at hopen
      split_ifs at hopen
      · obtain ⟨_, rfl⟩ := Prod.mk.inj hopen
        exact List.prefix_rfl
      · split at hopen
        · obtain ⟨_, rfl⟩ := Prod.mk.inj hopen
          exact List.prefix_rfl
        · obtain ⟨_, rfl⟩ := Prod.mk.inj hopen
          exact List.prefix_append _ _

theorem main_read_failures {fopen : Text → Option Stream} {update_record : Bool} {input : InputState}
    {outcome : Int × InputState} (hread : MainRead fopen update_record input outcome) :
    input.failures <+: outcome.2.failures := by
  induction hread with
  | ended _ hopen => exact open_next_input_failures hopen
  | opened _ hopen _ ih => exact (open_next_input_failures hopen).trans ih
  | @record input handle line rest _ _ =>
    have hadvance := advance_failures (prepare_buffer update_record input) handle rest
    cases update_record <;> exact hadvance
  | closed _ _ _ ih => cases update_record <;> exact ih

/-- Whole numbers, and a main input of files. -/
def file_runtime (fopen : Text → Option Stream) : InputRuntime where
  Number := Int
  World := InputState
  zero := 0
  perform f operands input :=
    match f, operands with
    | .qk_getline_main_record, _ => qk_getline_main_record fopen input
    | .qk_getline_main_string, _ => qk_getline_main_string fopen input
    | f, operands => ((whole_number_runtime.perform f operands ⟨[], qk_get_field input.record 0⟩).1, input)
  next_record := qk_next_record fopen
  nextfile := qk_nextfile
  nonzero := whole_number_runtime.nonzero
  flag_number := whole_number_runtime.flag_number
  nonzero_flag_number := whole_number_runtime.nonzero_flag_number
  fopen := fopen
  input := id
  next_record_input _ := ⟨rfl, rfl⟩
  nextfile_input _ := rfl
  getline_input _ := rfl
  getline_string_input _ _ := rfl
  failures_stay f operands input := by
    cases f <;> first
      | exact List.prefix_rfl
      | exact main_read_failures (main_read _ input)

/-- `{ print }` -/
def print_records : Program := ⟨[.pattern_action none (some [.print [] none])]⟩

def file_machine (fopen : Text → Option Stream) (argv : List Text) : Machine (file_runtime fopen).toRuntime where
  world := input_start argv ⟨[], false⟩
  state := fun _ => (0 : Int)
  locals := fun _ => (0 : Int)
  params := fun _ => none
  exit_requested := false
  exit_status := 0
  log := []

def run_files (program : Program) (fopen : Text → Option Stream) (argv : List Text) (fuel : Nat) :
    Result Int × Machine (file_runtime fopen).toRuntime :=
  quawk_main (lowered_blocks program) fuel (file_machine fopen argv)

def TraceEvent.exits_with_value : TraceEvent → Bool
  | .exit _ (some _) => true
  | _ => false

theorem not_exits_with_value {log : List TraceEvent} (h : log.any TraceEvent.exits_with_value = false) :
    ¬ ExitsWithValue log := by
  intro ⟨in_function, status, hmem⟩
  have hany : log.any TraceEvent.exits_with_value = true := List.any_eq_true.mpr ⟨_, hmem, rfl⟩
  rw [hany] at h
  cases h

def Result.has_value (result : Result Int) (status : Int) : Bool :=
  match result with
  | .value value => value == status
  | _ => false

theorem Result.eq_value {result : Result Int} {status : Int} (h : Result.has_value result status = true) :
    result = .value status := by
  cases result with
  | value value => rw [eq_of_beq h]
  | timeout | raised _ | crashed => cases h

/-- A missing operand and an exit with an expression. -/
theorem input_failure_visible_iff_exit :
    (InputFailed (file_runtime fun _ => none) (run_files exit_in_begin (fun _ => none) [['m']] 5).2 →
        (3 : Int) ≠ 0 ∨ ExitsWithValue (run_files exit_in_begin (fun _ => none) [['m']] 5).2.log) ↔
      ¬ InputFailed (file_runtime fun _ => none) (run_files exit_in_begin (fun _ => none) [['m']] 5).2 ∨
        ExitsWithValue (run_files exit_in_begin (fun _ => none) [['m']] 5).2.log := by
  have hlower : lower_to_llvm_ir exit_in_begin =
      .ok (lowered_blocks exit_in_begin : ProgramBlocks (Value (file_runtime fun _ => none).Number)) :=
    lower_to_llvm_ir_eq (by decide +kernel)
  have hstatus : (run_files exit_in_begin (fun _ => none) [['m']] 5).1 = .value 3 :=
    Result.eq_value (by decide +kernel)
  unfold run_files at *
  exact input_failure_visible_iff (file_runtime fun _ => none) exit_in_begin (lowered_blocks exit_in_begin) hlower 5
    (file_machine (fun _ => none) [['m']]) ⟨rfl, rfl⟩ 3 hstatus

/-- The only operand is missing, and the status is 0. -/
theorem input_failure_hidden :
    ¬ ∀ (program : Program) (blocks : ProgramBlocks (Value (file_runtime fun _ => none).Number)),
      lower_to_llvm_ir program = .ok blocks → ∀ fuel (machine : Machine (file_runtime fun _ => none).toRuntime),
        Initial machine → ∀ status, (quawk_main blocks fuel machine).1 = .value status →
          InputFailed (file_runtime fun _ => none) (quawk_main blocks fuel machine).2 →
            status ≠ 0 ∨ ExitsWithValue (quawk_main blocks fuel machine).2.log := by
  intro h
  have hstatus : (run_files print_records (fun _ => none) [['m']] 5).1 = .value 0 :=
    Result.eq_value (by decide +kernel)
  have hread : ((file_runtime fun _ => none).input
      (run_files print_records (fun _ => none) [['m']] 5).2.world).failures ≠ [] := by decide +kernel
  have hfailed : InputFailed (file_runtime fun _ => none) (run_files print_records (fun _ => none) [['m']] 5).2 :=
    hread
  have hexits : (run_files print_records (fun _ => none) [['m']] 5).2.log.any TraceEvent.exits_with_value = false := by
    decide +kernel
  unfold run_files at *
  obtain hne | hvalue := h print_records (lowered_blocks print_records) (lower_to_llvm_ir_eq (by decide +kernel)) 5
    (file_machine (fun _ => none) [['m']]) ⟨rfl, rfl⟩ 0 hstatus hfailed
  · exact hne rfl
  · exact not_exits_with_value hexits hvalue

end quawk
