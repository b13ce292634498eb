import Mathlib.Algebra.BigOperators.Group.List.Basic
import Mathlib.Algebra.GroupWithZero.Nat
import Quawk.InputStream

namespace quawk

/-- What an action does to the main input: it reads a line, into the record or not, skips the rest of the
file, or sets `RS`. -/
inductive InputOperation where
  | read_main_line (update_record : Bool)
  | nextfile
  | update_record_separator (separator : Char)
  deriving DecidableEq, Repr

section Loop

variable (fopen : Text → Option Stream)

def InputOperation.apply (input : InputState) : InputOperation → InputState
  | .read_main_line update_record => (qk_read_main_line fopen update_record input).2
  | .nextfile => qk_nextfile input
  | .update_record_separator separator => { input with record_separator := separator }

def run_operations (operations : List InputOperation) (input : InputState) : InputState :=
  operations.foldl (InputOperation.apply fopen) input

/-- The record actions: what they do to the input, and whether they end the loop by an `exit`. -/
abbrev RecordActions := InputState → List InputOperation × Bool

/-- `render_driver_record_loop`: the state after the loop, if it ends within `fuel` records. -/
def driver_record_loop (actions : RecordActions) : Nat → InputState → Option InputState
  | 0, _ => none
  | fuel + 1, input =>
    let (has_record, input) := qk_next_record fopen input
    if has_record then
      let (operations, should_exit) := actions input
      let input := run_operations fopen operations input
      if should_exit then some input else driver_record_loop actions fuel input
    else some input

/-- The loop ends, whatever `BEGIN` did before it. -/
def LoopEnds (argv : List Text) (stdin : Stream) (begin_operations : List InputOperation)
    (actions : RecordActions) : Prop :=
  ∃ fuel, (driver_record_loop fopen actions fuel
    (run_operations fopen begin_operations (input_start argv stdin))).isSome

/-- The next read reports the error of the file being read and gives it up. -/
def Abandons (input : InputState) : Prop :=
  (qk_read_main_line fopen true input).1 = -1 ∧ (qk_read_main_line fopen true input).2.had_error = true ∧
    (qk_read_main_line fopen true input).2.current_handle = none

/-- The current handle is where reading on reports an error. -/
def AtError (input : InputState) : Prop :=
  ∃ handle, input.current_handle = some handle ∧ (input.stream handle).failing = true ∧ (input.stream handle).rest = []

/-- No read error keeps the loop from ending, and each is reported. -/
structure HandlesReadErrors (argv : List Text) (stdin : Stream) : Prop where
  ends : ∀ begin_operations actions, LoopEnds fopen argv stdin begin_operations actions
  abandons : ∀ operations, AtError (run_operations fopen operations (input_start argv stdin)) →
    Abandons fopen (run_operations fopen operations (input_start argv stdin))

/-- No operand that can be opened fails while it is read; without operands it is the standard input. -/
structure NoReadError (argv : List Text) (stdin : Stream) : Prop where
  stdin : argv = [] ∨ ['-'] ∈ argv → stdin.failing = false
  files : ∀ path ∈ argv, path ≠ ['-'] → ∀ stream, fopen path = some stream → stream.failing = false

end Loop

section Readable

variable {fopen : Text → Option Stream}

/-- Nothing that is still to be read fails. -/
structure Sound (fopen : Text → Option Stream) (input : InputState) : Prop where
  stdin : input.argc = 0 ∨ ['-'] ∈ input.unopened → input.stdin.failing = false
  files : ∀ path ∈ input.unopened, path ≠ ['-'] → ∀ stream, fopen path = some stream → stream.failing = false
  handle : ∀ handle, input.current_handle = some handle → (input.stream handle).failing = false

/-- How much an operand holds. -/
def operand_length (fopen : Text → Option Stream) (path : Text) : Nat :=
  if path = ['-'] then 0 else ((fopen path).map fun stream => stream.rest.length).getD 0

def Handle.length : Handle → Nat
  | .stdin => 0
  | .file stream => stream.rest.length

/-- How much is still to be read. -/
def InputState.remaining (fopen : Text → Option Stream) (input : InputState) : Nat :=
  input.stdin.rest.length + (input.current_handle.map Handle.length).getD 0 +
    (input.unopened.map (operand_length fopen)).sum

theorem read_record_shorter {separator : Char} {stream : Stream} {line : Text} {rest : Option Text}
    (hsound : stream.failing = false) (h : qk_read_record separator stream = some (line, rest)) :
    (rest.getD []).length < stream.rest.length := by
  have hloop (text buffer : Text) {line : Text} {rest : Option Text}
      (hread : qk_read_record_loop separator false buffer text = some (line, rest)) :
      (rest.getD []).length < text.length ∨ (text = [] ∧ buffer ≠ [] ∧ rest = none) := by
    induction text generalizing buffer with
    | nil =>
      unfold qk_read_record_loop at hread
      split_ifs at hread with hend
      obtain ⟨rfl, rfl⟩ := Prod.mk.inj (Option.some.inj hread)
      exact Or.inr ⟨rfl, by simpa using hend, rfl⟩
    | cons next_char text ih =>
      unfold qk_read_record_loop at hread
      apply Or.inl
      split_ifs at hread
      · obtain ⟨rfl, rfl⟩ := Prod.mk.inj (Option.some.inj hread)
        simp
      · obtain hshorter | ⟨_, _, rfl⟩ := ih _ hread
        · exact Nat.lt_succ_of_lt hshorter
        · simp
  unfold qk_read_record at h
  rw [hsound] at h
  cases hread : qk_read_record_loop separator false [] stream.rest with
  | none => simp [hread] at h
  | some result =>
    obtain ⟨buffer, rest'⟩ := result
    simp only [hread, Option.map_some, Option.some.injEq, Prod.mk.injEq] at h
    obtain ⟨_, rfl⟩ := h
    obtain hshorter | ⟨_, hne, _⟩ := hloop _ _ hread
    · exact hshorter
    · exact absurd rfl hne

variable {input after : InputState}

theorem Sound.open_next_input (h : Sound fopen input) {available : Bool}
    (hnone : input.current_handle = none) (hopen : qk_open_next_input fopen input = (available, after)) :
    Sound fopen after ∧ after.remaining fopen ≤ input.remaining fopen := by
  unfold qk_open_next_input at hopen
  split_ifs at hopen with hargc hconsumed
  · obtain ⟨_, rfl⟩ := Prod.mk.inj hopen
    exact ⟨h, Nat.le_refl _⟩
  · obtain ⟨_, rfl⟩ := Prod.mk.inj hopen
    refine ⟨⟨h.stdin, h.files, ?_⟩, ?_⟩
    · intro handle hhandle
      obtain rfl : Handle.stdin = handle := Option.some.inj hhandle
      exact h.stdin (Or.inl hargc)
    · simp [InputState.remaining, open_stdin, hnone, Handle.length]
  · split at hopen
    · obtain ⟨_, rfl⟩ := Prod.mk.inj hopen
      exact ⟨h, Nat.le_refl _⟩
    · rename_i path unopened hunopened
      have hstdin : input.argc = 0 ∨ ['-'] ∈ unopened → input.stdin.failing = false := fun hor =>
        h.stdin (hor.imp_right fun hmem => by rw [hunopened]; exact List.mem_cons_of_mem _ hmem)
      have hfiles : ∀ other ∈ unopened, other ≠ ['-'] → ∀ stream, fopen other = some stream →
          stream.failing = false := fun other hmem =>
        h.files other (by rw [hunopened]; exact List.mem_cons_of_mem _ hmem)
      dsimp only at hopen
      split_ifs at hopen with hdash
      · obtain ⟨_, rfl⟩ := Prod.mk.inj hopen
        refine ⟨⟨hstdin, hfiles, ?_⟩, ?_⟩
        · intro handle hhandle
          obtain rfl : Handle.stdin = handle := Option.some.inj hhandle
          exact h.stdin (Or.inr (by rw [hunopened, hdash]; exact List.mem_cons_self))
        · simp [InputState.remaining, open_stdin, hnone, hunopened, Handle.length]
      · split at hopen
        · rename_i stream hstream
          obtain ⟨_, rfl⟩ := Prod.mk.inj hopen
          refine ⟨⟨hstdin, hfiles, ?_⟩, ?_⟩
          · intro handle hhandle
            obtain rfl : Handle.file stream = handle := Option.some.inj hhandle
            exact h.files path (by rw [hunopened]; exact List.mem_cons_self) hdash stream hstream
          · simp [InputState.remaining, hnone, hunopened, Handle.length, operand_length, hdash, hstream]
            omega
        · obtain ⟨_, rfl⟩ := Prod.mk.inj hopen
          refine ⟨⟨hstdin, hfiles, fun handle hhandle => ?_⟩, ?_⟩
          · rw [hnone] at hhandle
            cases hhandle
          · simp [InputState.remaining, hnone, hunopened]

theorem Sound.prepare_buffer (h : Sound fopen input) (update_record : Bool) :
    Sound fopen (quawk.prepare_buffer update_record input) ∧
      (quawk.prepare_buffer update_record input).remaining fopen = input.remaining fopen := by
  obtain ⟨hhandle, _, _, hstream⟩ := prepare_buffer_same update_record input
  refine ⟨⟨?_, ?_, fun handle => ?_⟩, ?_⟩
  · cases update_record <;> exact h.stdin
  · cases update_record <;> exact h.files
  · rw [hhandle, hstream]
    exact h.handle handle
  · cases update_record <;> rfl

theorem Sound.close (h : Sound fopen input) : Sound fopen (qk_close_current_handle input) ∧
    (qk_close_current_handle input).remaining fopen ≤ input.remaining fopen := by
  refine ⟨⟨h.stdin, h.files, fun _ hhandle => nomatch hhandle⟩, ?_⟩
  simp only [InputState.remaining, qk_close_current_handle, Option.map_none, Option.getD_none]
  omega

theorem Sound.advance (h : Sound fopen input) {handle : Handle} (hhandle : input.current_handle = some handle)
    {line : Text} {rest : Option Text}
    (hread : qk_read_record input.record_separator (input.stream handle) = some (line, rest))
    (update_record : Bool) :
    Sound fopen (deliver update_record line (input.advance handle rest)) ∧
      (deliver update_record line (input.advance handle rest)).remaining fopen < input.remaining fopen := by
  have hfailing := h.handle handle hhandle
  have hshorter := read_record_shorter hfailing hread
  cases handle with
  | stdin =>
    have hstdin : input.stdin.failing = false := hfailing
    have hrest : (rest.getD []).length < input.stdin.rest.length := hshorter
    constructor
    · refine ⟨?_, ?_, ?_⟩
      · cases update_record <;> simp [deliver, InputState.advance, InputState.stream, hstdin]
      · cases update_record <;> simpa [deliver, InputState.advance, InputState.stream, hstdin] using h.files
      · cases update_record <;> simp [deliver, InputState.advance, InputState.stream, hstdin, hhandle]
    · cases update_record <;>
        simp [deliver, InputState.advance, InputState.stream, InputState.remaining, hstdin, hhandle, Handle.length,
          hrest]
  | file stream =>
    have hstream : stream.failing = false := hfailing
    have hrest : (rest.getD []).length < stream.rest.length := hshorter
    constructor
    · refine ⟨?_, ?_, ?_⟩
      · cases update_record <;> simpa [deliver, InputState.advance, InputState.stream, hstream] using h.stdin
      · cases update_record <;> simpa [deliver, InputState.advance, InputState.stream, hstream] using h.files
      · cases update_record <;> simp [deliver, InputState.advance, InputState.stream, hstream]
    · cases update_record <;>
        simp [deliver, InputState.advance, InputState.stream, InputState.remaining, hstream, hhandle, Handle.length,
          hrest]

theorem main_read_sound {update_record : Bool} {outcome : Int × InputState}
    (hread : MainRead fopen update_record input outcome) (h : Sound fopen input) :
    Sound fopen outcome.2 ∧ outcome.2.remaining fopen ≤ input.remaining fopen ∧
      (outcome.1 = 1 → outcome.2.remaining fopen < input.remaining fopen) := by
  induction hread with
  | ended hnone hopen =>
    obtain ⟨hsound, hremaining⟩ := h.open_next_input hnone hopen
    refine ⟨hsound, hremaining, fun hresult => ?_⟩
    dsimp only at hresult
    split_ifs at hresult
    omega
  | opened hnone hopen _ ih =>
    obtain ⟨hsound, hremaining⟩ := h.open_next_input hnone hopen
    obtain ⟨hafter, hle, hlt⟩ := ih hsound
    exact ⟨hafter, Nat.le_trans hle hremaining, fun hresult => Nat.lt_of_lt_of_le (hlt hresult) hremaining⟩
  | @record input handle line rest hhandle hline =>
    obtain ⟨hsame, hseparator, _, hstream⟩ := prepare_buffer_same update_record input
    obtain ⟨hprepared, hremaining⟩ := h.prepare_buffer update_record
    rw [← hseparator, ← hstream] at hline
    obtain ⟨hsound, hlt⟩ := hprepared.advance (hsame.trans hhandle) hline update_record
    rw [hremaining] at hlt
    exact ⟨hsound, Nat.le_of_lt hlt, fun _ => hlt⟩
  | @closed input handle outcome hhandle hline _ ih =>
    obtain ⟨hprepared, hremaining⟩ := h.prepare_buffer update_record
    obtain ⟨hclosed, hle⟩ := hprepared.close
    rw [hremaining] at hle
    obtain ⟨hafter, hle', hlt⟩ := ih hclosed
    exact ⟨hafter, Nat.le_trans hle' hle, fun hresult => Nat.lt_of_lt_of_le (hlt hresult) hle⟩

theorem Sound.run_operations (h : Sound fopen input) (operations : List InputOperation) :
    Sound fopen (quawk.run_operations fopen operations input) ∧
      (quawk.run_operations fopen operations input).remaining fopen ≤ input.remaining fopen := by
  induction operations generalizing input with
  | nil => exact ⟨h, Nat.le_refl _⟩
  | cons operation operations ih =>
    have hstep : Sound fopen (operation.apply fopen input) ∧
        (operation.apply fopen input).remaining fopen ≤ input.remaining fopen := by
      cases operation with
      | read_main_line update_record =>
        obtain ⟨hsound, hle, _⟩ := main_read_sound (main_read update_record input) h
        exact ⟨hsound, hle⟩
      | nextfile => exact h.close
      | update_record_separator separator =>
        refine ⟨⟨h.stdin, h.files, fun handle hhandle => ?_⟩, Nat.le_refl _⟩
        cases handle <;> exact h.handle _ hhandle
    obtain ⟨hsound, hle⟩ := ih hstep.1
    exact ⟨hsound, Nat.le_trans hle hstep.2⟩

theorem main_read_result {update_record : Bool} {outcome : Int × InputState}
    (hread : MainRead fopen update_record input outcome) : outcome.1 = 1 ∨ outcome.1 ≤ 0 := by
  induction hread with
  | @ended input after hnone hopen =>
    apply Or.inr
    by_cases herror : after.had_error <;> simp [herror]
  | opened _ _ _ ih => exact ih
  | record _ _ => exact Or.inl rfl
  | closed _ _ _ ih => exact ih

/-- Every record shortens what is left to be read. -/
theorem driver_record_loop_ends (actions : RecordActions) (fuel : Nat) (h : Sound fopen input)
    (hfuel : input.remaining fopen < fuel) : (driver_record_loop fopen actions fuel input).isSome := by
  induction fuel generalizing input with
  | zero => exact absurd hfuel (Nat.not_lt_zero _)
  | succ fuel ih =>
    obtain ⟨hsound, _, hlt⟩ := main_read_sound (main_read true input) h
    unfold driver_record_loop qk_next_record
    dsimp only
    split_ifs with havailable hexit
    · rfl
    · obtain ⟨hafter, hle⟩ := hsound.run_operations (actions (qk_read_main_line fopen true input).2).1
      have hread : MainRead fopen true input (qk_read_main_line fopen true input) := main_read true input
      obtain hone | hle' := main_read_result hread
      · exact ih hafter (by have hshorter := hlt hone; omega)
      · have hpositive : 0 < (qk_read_main_line fopen true input).1 := by simpa using havailable
        omega
    · rfl

theorem NoReadError.sound {argv : List Text} {stdin : Stream} (h : NoReadError fopen argv stdin) :
    Sound fopen (input_start argv stdin) :=
  ⟨fun hor => h.stdin (hor.imp_left List.length_eq_zero_iff.mp), h.files, fun _ hhandle => nomatch hhandle⟩

theorem NoReadError.handles {argv : List Text} {stdin : Stream} (h : NoReadError fopen argv stdin) :
    HandlesReadErrors fopen argv stdin := by
  constructor
  · intro begin_operations actions
    obtain ⟨hsound, _⟩ := h.sound.run_operations begin_operations
    exact ⟨_, driver_record_loop_ends actions _ hsound (Nat.lt_succ_self _)⟩
  · intro operations ⟨handle, hhandle, hfailing, _⟩
    obtain ⟨hsound, _⟩ := h.sound.run_operations operations
    rw [hsound.handle handle hhandle] at hfailing
    cases hfailing

end Readable

section Failing

variable {fopen : Text → Option Stream} {input after : InputState}

/-- The current handle will report an error. -/
def ReadsFailing (input : InputState) : Prop :=
  ∃ handle, input.current_handle = some handle ∧ (input.stream handle).failing = true

/-- A file that is still to be opened will report an error, and the current one will not. -/
structure FailingWaiting (fopen : Text → Option Stream) (input : InputState) : Prop where
  handle : ∀ handle, input.current_handle = some handle → (input.stream handle).failing = false
  stdin : input.argc = 0 → input.stdin_consumed = false ∧ input.stdin.failing = true
  files : input.argc ≠ 0 → ∃ path ∈ input.unopened, (path = ['-'] ∧ input.stdin.failing = true) ∨
    (path ≠ ['-'] ∧ ∃ stream, fopen path = some stream ∧ stream.failing = true)

theorem advance_failing {handle : Handle} (rest : Option Text) (hhandle : input.current_handle = some handle) :
    ∃ next, (input.advance handle rest).current_handle = some next ∧
      ((input.advance handle rest).stream next).failing = (input.stream handle).failing := by
  cases handle with
  | stdin =>
    refine ⟨.stdin, ?_, ?_⟩
    · simp only [InputState.advance]
      split_ifs <;> exact hhandle
    · by_cases hend : rest.isNone && input.stdin.failing <;> simp [InputState.advance, InputState.stream, hend]
  | file stream => exact ⟨.file { stream with rest := rest.getD [] }, rfl, rfl⟩

theorem main_read_failing {outcome : Int × InputState} (hread : MainRead fopen true input outcome)
    (h : ReadsFailing input) : outcome.1 = 1 ∧ ReadsFailing outcome.2 := by
  obtain ⟨handle, hhandle, hfailing⟩ := h
  cases hread with
  | ended hnone _ => cases hnone.symm.trans hhandle
  | opened hnone _ _ => cases hnone.symm.trans hhandle
  | @record input handle' line rest hhandle' _ =>
    obtain rfl : handle = handle' := Option.some.inj (hhandle.symm.trans hhandle')
    obtain ⟨hsame, _, _, hstream⟩ := prepare_buffer_same true input
    obtain ⟨next, hnext, hsame'⟩ := advance_failing rest (hsame.trans hhandle)
    rw [hstream, hfailing] at hsame'
    exact ⟨rfl, next, hnext, hsame'⟩
  | @closed input handle' outcome hhandle' hline _ =>
    obtain rfl : handle = handle' := Option.some.inj (hhandle.symm.trans hhandle')
    have hend := (feof_of_read_none hline).1
    simp [Stream.feof, hfailing] at hend

/-- The loop over such a file never ends, if the actions do not end it. -/
theorem driver_record_loop_failing (h : ReadsFailing input) (fuel : Nat) :
    driver_record_loop fopen (fun _ => ([], false)) fuel input = none := by
  induction fuel generalizing input with
  | zero => rfl
  | succ fuel ih =>
    have hread : MainRead fopen true input (qk_read_main_line fopen true input) := main_read true input
    obtain ⟨hresult, hfailing⟩ := main_read_failing hread h
    simp [driver_record_loop, qk_next_record, hresult, run_operations, ih hfailing]

theorem FailingWaiting.open_next_input (h : FailingWaiting fopen input) {available : Bool}
    (hnone : input.current_handle = none) (hopen : qk_open_next_input fopen input = (available, after)) :
    ReadsFailing after ∨ FailingWaiting fopen after ∧ after.openable < input.openable := by
  unfold qk_open_next_input at hopen
  by_cases hargc : input.argc = 0
  · obtain ⟨hconsumed, hfailing⟩ := h.stdin hargc
    simp only [hargc, hconsumed, if_true, Bool.false_eq_true, if_false] at hopen
    obtain ⟨_, rfl⟩ := Prod.mk.inj hopen
    exact Or.inl ⟨.stdin, rfl, hfailing⟩
  · obtain ⟨path, hmem, hpath⟩ := h.files hargc
    rw [if_neg hargc] at hopen
    split at hopen
    · rename_i hunopened
      simp [hunopened] at hmem
    · rename_i first unopened hunopened
      rw [hunopened, List.mem_cons] at hmem
      have hrest (hne : path ≠ first) (next : InputState) (hhandle : ∀ handle, next.current_handle = some handle →
          (next.stream handle).failing = false) (hnext : next.unopened = unopened)
          (hcount : next.argc = input.argc) (hstdin : next.stdin = input.stdin) :
          FailingWaiting fopen next ∧ next.openable < input.openable := by
        refine ⟨⟨hhandle, fun hzero => absurd (hcount ▸ hzero) hargc, fun _ => ⟨path, ?_, ?_⟩⟩, ?_⟩
        · rw [hnext]
          exact hmem.resolve_left hne
        · rw [hstdin]
          exact hpath
        · simp [InputState.openable, hcount, hargc, hnext, hunopened]
      dsimp only at hopen
      split_ifs at hopen with hdash
      · obtain ⟨_, rfl⟩ := Prod.mk.inj hopen
        cases hfailing : input.stdin.failing with
        | true => exact Or.inl ⟨.stdin, rfl, hfailing⟩
        | false =>
          refine Or.inr (hrest ?_ _ ?_ rfl rfl rfl)
          · rintro rfl
            obtain ⟨_, hstdin⟩ | ⟨hne, _⟩ := hpath
            · rw [hfailing] at hstdin
              cases hstdin
            · exact hne hdash
          · intro handle hhandle
            obtain rfl : Handle.stdin = handle := Option.some.inj hhandle
            exact hfailing
      · split at hopen
        · rename_i stream hstream
          obtain ⟨_, rfl⟩ := Prod.mk.inj hopen
          cases hfailing : stream.failing with
          | true => exact Or.inl ⟨.file stream, rfl, hfailing⟩
          | false =>
            refine Or.inr (hrest ?_ _ ?_ rfl rfl rfl)
            · rintro rfl
              obtain ⟨heq, _⟩ | ⟨_, other, hother, hfails⟩ := hpath
              · exact hdash heq
              · obtain rfl : stream = other := Option.some.inj (hstream.symm.trans hother)
                rw [hfailing] at hfails
                cases hfails
            · intro handle hhandle
              obtain rfl : Handle.file stream = handle := Option.some.inj hhandle
              exact hfailing
        · rename_i hstream
          obtain ⟨_, rfl⟩ := Prod.mk.inj hopen
          refine Or.inr (hrest ?_ _ ?_ rfl rfl rfl)
          · rintro rfl
            obtain ⟨heq, _⟩ | ⟨_, other, hother, _⟩ := hpath
            · exact hdash heq
            · rw [hstream] at hother
              cases hother
          · intro handle hhandle
            rw [hnone] at hhandle
            cases hhandle

theorem FailingWaiting.close (h : FailingWaiting fopen input) (update_record : Bool) :
    FailingWaiting fopen (qk_close_current_handle (prepare_buffer update_record input)) := by
  cases update_record <;> exact ⟨fun _ hhandle => (nomatch hhandle), h.stdin, h.files⟩

theorem FailingWaiting.advance (h : FailingWaiting fopen input) {handle : Handle}
    (hhandle : input.current_handle = some handle) (line : Text) (rest : Option Text) :
    FailingWaiting fopen (deliver true line ((prepare_buffer true input).advance handle rest)) ∧
      (deliver true line ((prepare_buffer true input).advance handle rest)).openable = input.openable := by
  have hfailing := h.handle handle hhandle
  cases handle with
  | stdin =>
    have hstdin : input.stdin.failing = false := hfailing
    refine ⟨⟨?_, ?_, ?_⟩, ?_⟩
    · simp [deliver, InputState.advance, InputState.stream, prepare_buffer, hstdin, hhandle]
    · intro hargc
      have hwaiting := (h.stdin (by simpa [deliver, InputState.advance, InputState.stream, prepare_buffer, hstdin]
        using hargc)).2
      rw [hstdin] at hwaiting
      cases hwaiting
    · simpa [deliver, InputState.advance, InputState.stream, prepare_buffer, hstdin] using h.files
    · simp [deliver, InputState.advance, InputState.stream, prepare_buffer, hstdin, InputState.openable]
  | file stream =>
    have hstream : stream.failing = false := hfailing
    refine ⟨⟨?_, ?_, ?_⟩, ?_⟩
    · simp [deliver, InputState.advance, InputState.stream, prepare_buffer, hstream]
    · simpa [deliver, InputState.advance, InputState.stream, prepare_buffer, hstream] using h.stdin
    · simpa [deliver, InputState.advance, InputState.stream, prepare_buffer, hstream] using h.files
    · simp [deliver, InputState.advance, InputState.stream, prepare_buffer, hstream, InputState.openable]

theorem main_read_waiting {outcome : Int × InputState} (hread : MainRead fopen true input outcome)
    (h : FailingWaiting fopen input) : ReadsFailing outcome.2 ∨ FailingWaiting fopen outcome.2 ∧
      outcome.2.openable ≤ input.openable ∧
      (input.current_handle = none → outcome.2.openable < input.openable) := by
  induction hread with
  | ended hnone hopen =>
    obtain hfailing | ⟨hwaiting, hlt⟩ := h.open_next_input hnone hopen
    · exact Or.inl hfailing
    · exact Or.inr ⟨hwaiting, Nat.le_of_lt hlt, fun _ => hlt⟩
  | opened hnone hopen hread ih =>
    obtain hfailing | ⟨hwaiting, hlt⟩ := h.open_next_input hnone hopen
    · exact Or.inl (main_read_failing hread hfailing).2
    · obtain hfailing | ⟨hafter, hle, _⟩ := ih hwaiting
      · exact Or.inl hfailing
      · have hless := Nat.lt_of_le_of_lt hle hlt
        exact Or.inr ⟨hafter, Nat.le_of_lt hless, fun _ => hless⟩
  | record hhandle _ =>
    obtain ⟨hwaiting, heq⟩ := h.advance hhandle _ _
    refine Or.inr ⟨hwaiting, Nat.le_of_eq heq, fun hnone => ?_⟩
    cases hnone.symm.trans hhandle
  | @closed input handle outcome hhandle _ _ ih =>
    obtain hfailing | ⟨hafter, hle, _⟩ := ih (h.close true)
    · exact Or.inl hfailing
    · refine Or.inr ⟨hafter, Nat.le_trans hle (Nat.le_of_eq (prepare_buffer_same true input).2.2.1), ?_⟩
      intro hnone
      cases hnone.symm.trans hhandle

/-- Reading a line and skipping the rest of the file, often enough, gets to the file that fails. -/
theorem FailingWaiting.reached (count : Nat) (h : FailingWaiting fopen input) (hnone : input.current_handle = none)
    (hcount : input.openable < count) : ∃ operations, ReadsFailing (run_operations fopen operations input) := by
  induction count generalizing input with
  | zero => exact absurd hcount (Nat.not_lt_zero _)
  | succ count ih =>
    obtain hfailing | ⟨hwaiting, _, hlt⟩ := main_read_waiting (main_read true input) h
    · exact ⟨[.read_main_line true], hfailing⟩
    · have hless := hlt hnone
      have hclosed : FailingWaiting fopen (qk_nextfile (qk_read_main_line fopen true input).2) :=
        ⟨fun _ hhandle => (nomatch hhandle), hwaiting.stdin, hwaiting.files⟩
      obtain ⟨operations, hfailing⟩ := ih hclosed rfl (Nat.lt_of_lt_of_le hless (Nat.le_of_lt_succ hcount))
      exact ⟨.read_main_line true :: .nextfile :: operations, hfailing⟩

theorem failing_waiting_start {argv : List Text} {stdin : Stream} (h : ¬ NoReadError fopen argv stdin) :
    FailingWaiting fopen (input_start argv stdin) := by
  refine ⟨fun _ hhandle => (nomatch hhandle), fun hargc => ⟨rfl, ?_⟩, fun hargc => ?_⟩
  · have hargv : argv = [] := List.length_eq_zero_iff.mp hargc
    by_contra hfailing
    exact h ⟨fun _ => eq_false_of_ne_true hfailing, fun path hmem => by simp [hargv] at hmem⟩
  · by_contra hnone
    refine h ⟨fun hor => ?_, fun path hmem hne stream hstream => ?_⟩
    · obtain hargv | hmem := hor
      · exact absurd (List.length_eq_zero_iff.mpr hargv) hargc
      · by_contra hfailing
        exact hnone ⟨['-'], hmem, Or.inl ⟨rfl, eq_true_of_ne_false hfailing⟩⟩
    · by_contra hfailing
      exact hnone ⟨path, hmem, Or.inr ⟨hne, stream, hstream, by simpa using hfailing⟩⟩

theorem HandlesReadErrors.no_read_error {argv : List Text} {stdin : Stream}
    (h : HandlesReadErrors fopen argv stdin) : NoReadError fopen argv stdin := by
  by_contra hfails
  obtain ⟨operations, hfailing⟩ := (failing_waiting_start hfails).reached _ rfl (Nat.lt_succ_self _)
  obtain ⟨fuel, hends⟩ := h.ends operations fun _ => ([], false)
  rw [driver_record_loop_failing hfailing fuel] at hends
  cases hends

end Failing

/-- The record loop ends and read errors are reported, for every program, exactly where no operand fails while
it is read. -/
theorem read_errors_handled_iff (fopen : Text → Option Stream) (argv : List Text) (stdin : Stream) :
    HandlesReadErrors fopen argv stdin ↔ NoReadError fopen argv stdin := by
  constructor
  · exact HandlesReadErrors.no_read_error
  · exact NoReadError.handles

/-- A directory as the only operand: reading it fails at once. -/
theorem read_error_repeats :
    ¬ HandlesReadErrors (fun _ => some ⟨[], true⟩) [['d']] ⟨[], false⟩ := by
  intro h
  have hreads := h.no_read_error.files ['d'] (by decide) (by decide) ⟨[], true⟩ rfl
  cases hreads

end quawk
