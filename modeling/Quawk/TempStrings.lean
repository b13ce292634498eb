import Quawk.ExitLaw
import Quawk.RunInvariant

namespace quawk

open StatefulRun (Result Run)
open StructuredCode (Operands)

/-- The temporary strings, which are freed when the runtime is destroyed. -/
structure TempStrings where
  temp_strings : List Text
  temp_string_capacity : Nat

/-- The copy is entered in the table, whose capacity is doubled when it is full. -/
def TempStrings.qk_capture_string_arg (temps : TempStrings) (text : Option Text) : Option Text × TempStrings :=
  let copy := text.getD []
  let capacity :=
    if temps.temp_strings.length = temps.temp_string_capacity then
      if temps.temp_string_capacity = 0 then 8 else temps.temp_string_capacity * 2
    else temps.temp_string_capacity
  (some copy, ⟨temps.temp_strings ++ [copy], capacity⟩)

/-- The state of a runtime with its table, and how many strings were in it when each record was read. -/
structure TempWorld (R : Runtime) where
  world : R.World
  temps : TempStrings
  at_records : List Nat

variable (R : Runtime)

/-- What an instruction does; the table is used by `qk_capture_string_arg_inline` alone. -/
def perform_with_temps {types : List Ty} {type : Ty} (f : Op types type) (operands : Operands (Value R.Number) types)
    (world : TempWorld R) : Value R.Number type × TempWorld R :=
  match types, type, f, operands with
  | _, _, .qk_capture_string_arg_inline, (text, _) =>
    let (copy, temps) := world.temps.qk_capture_string_arg text
    (copy, { world with temps := temps })
  | _, _, f, operands =>
    let (result, inner) := R.perform f operands world.world
    (result, { world with world := inner })

/-- A runtime with its table of captured strings. -/
def with_temps : Runtime where
  Number := R.Number
  World := TempWorld R
  zero := R.zero
  perform := perform_with_temps R
  next_record world :=
    let (available, inner) := R.next_record world.world
    (available, { world with
      world := inner
      at_records := world.at_records ++ if available then [world.temps.temp_strings.length] else [] })
  nextfile world := { world with world := R.nextfile world.world }
  nonzero := R.nonzero
  flag_number := R.flag_number
  nonzero_flag_number := R.nonzero_flag_number

def TraceEvent.is_capture : TraceEvent → Bool
  | .op _ _ .qk_capture_string_arg_inline => true
  | _ => false

def TraceEvent.starts_record : TraceEvent → Bool
  | .next_record available => available
  | _ => false

/-- How many strings were captured when each record was read. -/
def captures_at_records (count : Nat) : List TraceEvent → List Nat
  | [] => []
  | event :: later =>
    (if event.starts_record then [count] else []) ++
      captures_at_records (count + if event.is_capture then 1 else 0) later

theorem captures_at_records_append (count : Nat) (log : List TraceEvent) (event : TraceEvent) :
    captures_at_records count (log ++ [event]) =
      captures_at_records count log ++
        if event.starts_record then [count + log.countP TraceEvent.is_capture] else [] := by
  induction log generalizing count with
  | nil => simp [captures_at_records]
  | cons first log ih =>
    rw [List.cons_append, captures_at_records, ih, captures_at_records, List.append_assoc, List.countP_cons,
      Nat.add_assoc, Nat.add_comm (if first.is_capture = true then 1 else 0)]

theorem mem_captures_at_records (count amount : Nat) (log : List TraceEvent) :
    amount ∈ captures_at_records count log ↔ ∃ before event after, log = before ++ event :: after ∧
      event.starts_record = true ∧ amount = count + before.countP TraceEvent.is_capture := by
  induction log generalizing count with
  | nil => simp [captures_at_records]
  | cons first log ih =>
    rw [captures_at_records, List.mem_append, ih]
    constructor
    · rintro (hhere | ⟨before, event, after, rfl, hstarts, rfl⟩)
      · split_ifs at hhere with hstarts
        · exact ⟨[], first, log, rfl, hstarts, List.mem_singleton.mp hhere⟩
        · cases hhere
      · refine ⟨first :: before, event, after, rfl, hstarts, ?_⟩
        rw [List.countP_cons]
        omega
    · rintro ⟨before, event, after, heq, hstarts, rfl⟩
      cases before with
      | nil =>
        obtain ⟨rfl, rfl⟩ := List.cons.inj heq
        exact .inl (by simp [hstarts])
      | cons other before =>
        obtain ⟨rfl, rfl⟩ := List.cons.inj heq
        refine .inr ⟨before, event, after, rfl, hstarts, ?_⟩
        rw [List.countP_cons]
        omega

/-- No string is captured between the start of one record and that of another. -/
def QuietRecords (log : List TraceEvent) : Prop :=
  ∀ before event middle event' after, log = before ++ event :: (middle ++ event' :: after) →
    event.starts_record = true → event'.starts_record = true → ∀ step ∈ middle, step.is_capture = false

theorem record_is_no_capture {event : TraceEvent} (h : event.starts_record = true) : event.is_capture = false := by
  cases event with
  | next_record _ => rfl
  | op _ _ _ | exit _ _ | enter _ | leave _ => cases h

theorem countP_between {before middle : List TraceEvent} {event : TraceEvent} (h : event.starts_record = true) :
    (before ++ event :: middle).countP TraceEvent.is_capture =
      before.countP TraceEvent.is_capture + middle.countP TraceEvent.is_capture := by
  rw [List.countP_append, List.countP_cons, record_is_no_capture h]
  rfl

theorem same_at_records_iff (log : List TraceEvent) :
    (∀ amount ∈ captures_at_records 0 log, ∀ other ∈ captures_at_records 0 log, amount = other) ↔
      QuietRecords log := by
  constructor
  · intro hsame before event middle event' after heq hstarts hstarts' step hstep
    have hfirst : before.countP TraceEvent.is_capture ∈ captures_at_records 0 log :=
      (mem_captures_at_records ..).mpr ⟨before, event, _, heq, hstarts, (Nat.zero_add _).symm⟩
    have hsecond : (before ++ event :: middle).countP TraceEvent.is_capture ∈ captures_at_records 0 log :=
      (mem_captures_at_records ..).mpr ⟨before ++ event :: middle, event', after,
        by rw [heq, List.append_assoc]; rfl, hstarts', (Nat.zero_add _).symm⟩
    have hcount := hsame _ hfirst _ hsecond
    rw [countP_between hstarts] at hcount
    have hnone : middle.countP TraceEvent.is_capture = 0 := by omega
    exact Bool.eq_false_iff.mpr (List.countP_eq_zero.mp hnone step hstep)
  · intro hquiet amount hamount other hother
    obtain ⟨before, event, after, heq, hstarts, rfl⟩ := (mem_captures_at_records ..).mp hamount
    obtain ⟨before', event', after', heq', hstarts', rfl⟩ := (mem_captures_at_records ..).mp hother
    have hzero {middle : List TraceEvent} (h : ∀ step ∈ middle, step.is_capture = false) :
        middle.countP TraceEvent.is_capture = 0 :=
      List.countP_eq_zero.mpr fun step hstep => Bool.eq_false_iff.mp (h step hstep)
    obtain ⟨between, rfl, hrest⟩ | ⟨between, rfl, hrest⟩ := List.append_eq_append_iff.mp (heq.symm.trans heq')
    all_goals
      cases between with
      | nil => rw [List.append_nil]
      | cons first middle =>
        obtain ⟨rfl, rfl⟩ := List.cons.inj hrest
        rw [countP_between (by assumption), hzero (hquiet _ _ middle _ _ (by assumption) (by assumption) (by assumption))]
        rfl

section Runs

variable {R : Runtime}

def Machine.temp_strings (machine : Machine (with_temps R)) : List Text := machine.world.temps.temp_strings

theorem perform_temps {types : List Ty} {type : Ty} (f : Op types type)
    (operands : Operands (Value (with_temps R).Number) types) (machine : Machine (with_temps R)) :
    (machine.perform f operands).2.world.at_records = machine.world.at_records ∧
      machine.temp_strings <+: (machine.perform f operands).2.temp_strings ∧
      (machine.perform f operands).2.temp_strings.length =
        machine.temp_strings.length + if (TraceEvent.op types type f).is_capture then 1 else 0 := by
  cases f with
  | qk_capture_string_arg_inline => exact ⟨rfl, List.prefix_append _ _, List.length_append⟩
  | store_double =>
    obtain ⟨value, address, _⟩ := operands
    cases address <;> exact ⟨rfl, List.prefix_rfl, rfl⟩
  | _ => exact ⟨rfl, List.prefix_rfl, rfl⟩

/-- The table holds a string for each capture, and at each record for each capture before it. -/
structure Tracked (machine : Machine (with_temps R)) : Prop where
  count : machine.temp_strings.length = machine.log.countP TraceEvent.is_capture
  at_records : machine.world.at_records = captures_at_records 0 machine.log

theorem Tracked.note {machine : Machine (with_temps R)} (h : Tracked machine) {event : TraceEvent}
    (hcapture : event.is_capture = false) (hstarts : event.starts_record = false) : Tracked (machine.note event) := by
  refine ⟨?_, ?_⟩
  · rw [Machine.note_log, List.countP_append, List.countP_singleton, hcapture]
    exact h.count
  · rw [Machine.note_log, captures_at_records_append, hstarts]
    exact h.at_records.trans (List.append_nil _).symm

theorem tracked_invariant : Invariant (Tracked : Machine (with_temps R) → Prop) where
  op {types type} f operands machine h := by
    obtain ⟨hrecords, _, hlength⟩ := perform_temps f operands (machine.note (.op types type f))
    obtain ⟨hlog, _⟩ := Machine.perform_exit (machine.note (.op types type f)) f operands
    refine ⟨?_, ?_⟩
    · rw [hlength, hlog, Machine.note_log, List.countP_append, List.countP_singleton]
      exact congrArg (· + _) h.count
    · rw [hrecords, hlog, Machine.note_log, captures_at_records_append]
      exact h.at_records.trans (List.append_nil _).symm
  call function arity machine h := h.note rfl rfl
  frame machine locals params h := ⟨h.count, h.at_records⟩
  request_exit in_function status machine h := by
    have hnote : Tracked (machine.note (.exit in_function status)) := h.note rfl rfl
    exact ⟨hnote.count, hnote.at_records⟩
  nextfile machine h := ⟨h.count, h.at_records⟩
  next_record machine h := by
    refine ⟨?_, ?_⟩
    · change machine.temp_strings.length = (machine.log ++ [_]).countP _
      rw [List.countP_append, ← h.count]
      rfl
    · change machine.world.at_records ++ _ = captures_at_records 0 (machine.log ++ [_])
      rw [captures_at_records_append, ← h.at_records, Nat.zero_add, ← h.count]
      rfl
  phase phase machine h := ⟨h.note rfl rfl, h.note rfl rfl⟩

/-- No captured string is released. -/
theorem kept_invariant (kept : List Text) :
    Invariant fun machine : Machine (with_temps R) => kept <+: machine.temp_strings where
  op {types type} f operands machine h :=
    List.IsPrefix.trans h (perform_temps f operands (machine.note (.op types type f))).2.1
  call _ _ _ h := h
  frame _ _ _ h := h
  request_exit _ _ _ h := h
  nextfile _ h := h
  next_record _ h := h
  phase _ _ h := ⟨h, h⟩

/-- What the code of a block has captured is there behind it, so that what is captured before a block can be used
behind it. -/
def CapturesStay (blocks : ProgramBlocks (Value (with_temps R).Number)) (fuel : Nat) : Prop :=
  ∀ in_function block (machine : Machine (with_temps R)),
    machine.temp_strings <+: (exec (call_function blocks fuel) in_function fuel block machine).2.temp_strings

theorem captures_stay (blocks : ProgramBlocks (Value (with_temps R).Number)) (fuel : Nat) : CapturesStay blocks fuel :=
  fun in_function block machine =>
    (kept_invariant machine.temp_strings).keeps_exec ((kept_invariant _).keeps_call blocks fuel) in_function fuel block
      machine List.prefix_rfl

/-- The table is as long at the start of each record, and nothing in it is released. -/
def TempsBounded (blocks : ProgramBlocks (Value (with_temps R).Number)) (fuel : Nat) (after : Machine (with_temps R)) :
    Prop :=
  (∀ amount ∈ after.world.at_records, ∀ other ∈ after.world.at_records, amount = other) ∧ CapturesStay blocks fuel

/-- The machine `quawk_main` starts on, with an empty table. -/
structure FreshTemps (machine : Machine (with_temps R)) : Prop where
  log : machine.log = []
  temps : machine.temp_strings = []
  at_records : machine.world.at_records = []

/-- The table does not grow from record to record exactly if no string is captured between two of them. -/
theorem temps_bounded_iff (program : Program) (blocks : ProgramBlocks (Value (with_temps R).Number))
    (_ : lower_to_llvm_ir program = .ok blocks) (fuel : Nat) (machine : Machine (with_temps R))
    (hfresh : FreshTemps machine) :
    TempsBounded blocks fuel (quawk_main blocks fuel machine).2 ↔
      QuietRecords (quawk_main blocks fuel machine).2.log := by
  have hstart : Tracked machine :=
    ⟨by rw [hfresh.temps, hfresh.log]; rfl, by rw [hfresh.at_records, hfresh.log]; rfl⟩
  have htracked := tracked_invariant.keeps_main blocks fuel machine hstart
  unfold TempsBounded
  rw [htracked.at_records, same_at_records_iff]
  exact and_iff_left (captures_stay blocks fuel)

end Runs

/-- A machine with these records to read. -/
def temps_machine (records : List Text) : Machine (with_temps whole_number_runtime) where
  world := ⟨⟨records, []⟩, ⟨[], 0⟩, []⟩
  state := fun _ => (0 : Int)
  locals := fun _ => (0 : Int)
  params := fun _ => none
  exit_requested := false
  exit_status := 0
  log := []

def run_with_temps (program : Program) (records : List Text) (fuel : Nat) :
    Result Int × Machine (with_temps whole_number_runtime) :=
  quawk_main (lowered_blocks program) fuel (temps_machine records)

/-- `{ print }` -/
def print_each : Program := ⟨[.pattern_action none (some [.print [] none])]⟩

theorem quiet_of_all {log : List TraceEvent} (h : log.all (!·.is_capture) = true) : QuietRecords log := by
  rintro before event middle event' after rfl _ _ step hstep
  rw [List.all_eq_true] at h
  have hquiet := h step (by simp [hstep])
  simpa using hquiet

theorem temps_bounded_print : TempsBounded (lowered_blocks print_each) 5 (run_with_temps print_each [['a'], ['b']] 5).2 := by
  have hlower : lower_to_llvm_ir print_each =
      .ok (lowered_blocks print_each : ProgramBlocks (Value (with_temps whole_number_runtime).Number)) :=
    lower_to_llvm_ir_eq (by decide +kernel)
  have hall : (run_with_temps print_each [['a'], ['b']] 5).2.log.all (!·.is_capture) = true := by decide +kernel
  unfold run_with_temps at *
  exact (temps_bounded_iff print_each (lowered_blocks print_each) hlower 5 (temps_machine [['a'], ['b']])
    ⟨rfl, rfl, rfl⟩).mpr (quiet_of_all hall)

/-- `function f(x) { return x } { f($0) }` -/
def call_on_records : Program := ⟨[
  .function ⟨"f", ["x"], [.return_stmt (some (.name "x"))]⟩,
  .pattern_action none (some [.expr (.call "f" [.field_at 0])])]⟩

/-- Each record leaves a captured argument in the table. -/
theorem temps_grow : ¬ ∀ (program : Program)
    (blocks : ProgramBlocks (Value (with_temps whole_number_runtime).Number)), lower_to_llvm_ir program = .ok blocks →
      ∀ fuel (machine : Machine (with_temps whole_number_runtime)), FreshTemps machine →
        TempsBounded blocks fuel (quawk_main blocks fuel machine).2 := by
  intro h
  have hgrown : (run_with_temps call_on_records [['a'], ['b']] 5).2.world.at_records = [0, 1] := by decide +kernel
  have hbounded := h call_on_records (lowered_blocks call_on_records) (lower_to_llvm_ir_eq (by decide +kernel)) 5
    (temps_machine [['a'], ['b']]) ⟨rfl, rfl, rfl⟩
  unfold run_with_temps at hgrown
  have hsame := hbounded.1
  rw [hgrown] at hsame
  exact absurd (hsame 0 (by simp) 1 (by simp)) (by decide)

end quawk
