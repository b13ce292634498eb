import Quawk.Lib.Pieces
import Quawk.RuntimeRecord

namespace quawk

/-- An open file for reading: what is left of it, and whether reading on at its end reports an error
instead of the end of the file. -/
structure Stream where
  rest : Text
  failing : Bool
  deriving DecidableEq, Repr

/-- `feof`, after a read that got nothing. -/
def Stream.feof (stream : Stream) : Bool := stream.rest.isEmpty && !stream.failing

/-- Read up to a separator; no rest is left where the end came first. -/
def qk_read_record_loop (separator : Char) (ferror : Bool) (buffer : Text) : Text → Option (Text × Option Text)
  | [] => if ferror || !buffer.isEmpty then some (buffer, none) else none
  | next_char :: rest =>
    if next_char = separator then some (buffer, some rest)
    else qk_read_record_loop separator ferror (buffer ++ [next_char]) rest

def strip_carriage_return (separator : Char) (line : Text) : Text :=
  if separator = '\n' ∧ line.getLast? = some '\r' then line.dropLast else line

/-- A record, and what the handle still holds. -/
def qk_read_record (separator : Char) (stream : Stream) : Option (Text × Option Text) :=
  (qk_read_record_loop separator stream.failing [] stream.rest).map fun (buffer, rest) =>
    (strip_carriage_return separator buffer, rest)

inductive Handle where
  | stdin
  | file (stream : Stream)
  deriving DecidableEq, Repr

/-- An open input file. -/
structure InputEntry where
  name : Text
  stream : Stream
  deriving DecidableEq, Repr

def qk_find_input (inputs : List InputEntry) (name : Text) : Option InputEntry :=
  inputs.find? fun entry => entry.name == name

/-- The table with the file in it, opened if it is not yet; `opened` is what opening it gives. -/
def qk_open_input (inputs : List InputEntry) (target : Text) (opened : Option Stream) :
    Option (List InputEntry) :=
  match qk_find_input inputs target with
  | some _ => some inputs
  | none => opened.map fun stream => ⟨target, stream⟩ :: inputs

/-- A file that is opened was open before, or is added as it is on disk. -/
theorem open_input_cases {inputs inputs' : List InputEntry} {file : Text} {opened : Option Stream}
    (hopen : qk_open_input inputs file opened = some inputs') :
    (∃ entry, qk_find_input inputs file = some entry ∧ inputs' = inputs) ∨
      ∃ stream, qk_find_input inputs file = none ∧ opened = some stream ∧ inputs' = ⟨file, stream⟩ :: inputs := by
  unfold qk_open_input at hopen
  cases hfind : qk_find_input inputs file with
  | some entry =>
    simp only [hfind, Option.some.injEq] at hopen
    exact Or.inl ⟨entry, rfl, hopen.symm⟩
  | none =>
    simp only [hfind] at hopen
    obtain ⟨stream, hstream, rfl⟩ := Option.map_eq_some_iff.mp hopen
    exact Or.inr ⟨stream, rfl, hstream, rfl⟩

/-- The file found under this name, read up to where `rest` is left. -/
def read_on (target rest : Text) : List InputEntry → List InputEntry
  | [] => []
  | entry :: inputs =>
    if entry.name == target then { entry with stream := { entry.stream with rest } } :: inputs
    else entry :: read_on target rest inputs

def qk_close_input (inputs : List InputEntry) (target : Text) : List InputEntry :=
  inputs.eraseP fun entry => entry.name == target

/-- The main input, the named input files and what reading them changes. -/
structure InputState where
  argc : Nat
  /-- The operands from `next_input_index` on. -/
  unopened : List Text
  stdin : Stream
  stdin_consumed : Bool
  current_handle : Option Handle
  current_filename : Option Text
  record_separator : Char
  nr : Nat
  fnr : Nat
  had_error : Bool
  record : RecordState
  scratch_buffer : Text
  inputs : List InputEntry
  /-- The operands that could not be opened or read, for the specification only. -/
  failures : List Text

/-- `qk_runtime_create`, with the operands and the standard input. -/
def input_start (argv : List Text) (stdin : Stream) : InputState where
  argc := argv.length
  unopened := argv
  stdin := stdin
  stdin_consumed := false
  current_handle := none
  current_filename := none
  record_separator := '\n'
  nr := 0
  fnr := 0
  had_error := false
  record := record_start []
  scratch_buffer := []
  inputs := []
  failures := []

def InputState.stream (input : InputState) : Handle → Stream
  | .stdin => input.stdin
  | .file stream => stream

/-- The current handle, read up to where `rest` is left. -/
def InputState.advance (input : InputState) (handle : Handle) (rest : Option Text) : InputState :=
  let input :=
    if rest.isNone && (input.stream handle).failing then
      { input with failures := input.failures ++ [input.current_filename.getD []] }
    else input
  match handle with
  | .stdin => { input with stdin := { input.stdin with rest := rest.getD [] } }
  | .file stream => { input with current_handle := some (.file { stream with rest := rest.getD [] }) }

def qk_close_current_handle (input : InputState) : InputState := { input with current_handle := none }

/-- Standard input is closed by forgetting it: a later `-` reads on where it stopped. -/
def open_stdin (input : InputState) : InputState :=
  { input with current_handle := some .stdin, fnr := 0, current_filename := some ['-'] }

section MainInput

variable (fopen : Text → Option Stream)

def qk_open_next_input (input : InputState) : Bool × InputState :=
  if input.argc = 0 then
    if input.stdin_consumed then (false, input)
    else (true, { open_stdin input with stdin_consumed := true })
  else match input.unopened with
    | [] => (false, input)
    | path :: unopened =>
      let input := { input with unopened }
      if path = ['-'] then (true, open_stdin input)
      else match fopen path with
        | some stream =>
          (true, { input with current_handle := some (.file stream), fnr := 0, current_filename := some path })
        | none => (false, { input with had_error := true, failures := input.failures ++ [path] })

/-- The record read counts, and becomes the current one or the scratch text. -/
def deliver (update_record : Bool) (line : Text) (input : InputState) : InputState :=
  let input := { input with nr := input.nr + 1, fnr := input.fnr + 1 }
  if update_record then { input with record := set_record input.record line }
  else { input with scratch_buffer := line }

/-- Reading into a record there is not yet gives it the empty text first. -/
def prepare_buffer (update_record : Bool) (input : InputState) : InputState :=
  if update_record then
    { input with
      record := { input.record with
        current_record := some (input.record.current_record.getD [])
        no_fields := fun h => nomatch h } }
  else input

/-- One turn of the loop of `qk_read_main_line` with a file open; `again` is the next turn. -/
def main_line_turn (update_record : Bool) (again : InputState → Int × InputState) (handle : Handle)
    (input : InputState) : Int × InputState :=
  let input := prepare_buffer update_record input
  match qk_read_record input.record_separator (input.stream handle) with
  | some (line, rest) => (1, deliver update_record line (input.advance handle rest))
  | none =>
    if (input.stream handle).feof then again (qk_close_current_handle input)
    else (-1, { qk_close_current_handle input with had_error := true })

/-- The loop of `qk_read_main_line`: every further turn opens an operand. -/
def qk_read_main_line_loop (update_record : Bool) : Nat → InputState → Int × InputState
  | 0, input => (0, input)
  | fuel + 1, input =>
    let (available, input) :=
      if input.current_handle.isSome then (true, input) else qk_open_next_input fopen input
    match available, input.current_handle with
    | true, some handle => main_line_turn update_record (qk_read_main_line_loop update_record fuel) handle input
    | _, _ => (if input.had_error then -1 else 0, input)

/-- How many operands can still be opened. -/
def InputState.openable (input : InputState) : Nat :=
  if input.argc = 0 then (if input.stdin_consumed then 0 else 1) else input.unopened.length

/-- How often the loop of `qk_read_main_line` can turn. -/
def InputState.turns (input : InputState) : Nat :=
  input.openable + if input.current_handle.isSome then 1 else 0

def qk_read_main_line (update_record : Bool) (input : InputState) : Int × InputState :=
  qk_read_main_line_loop fopen update_record (input.turns + 1) input

def qk_next_record (input : InputState) : Bool × InputState :=
  let (result, input) := qk_read_main_line fopen true input
  (0 < result, input)

def qk_getline_main_record (input : InputState) : Int × InputState := qk_read_main_line fopen true input

def qk_getline_main_string (input : InputState) : Int × InputState := qk_read_main_line fopen false input

def qk_nextfile (input : InputState) : InputState := qk_close_current_handle input

def qk_read_file_line (update_record : Bool) (target : Text) (input : InputState) : Int × InputState :=
  match qk_open_input input.inputs target (fopen target) with
  | none => (-1, input)
  | some inputs =>
    let input := { input with inputs }
    match qk_find_input inputs target with
    | none => (-1, input)
    | some entry =>
      match qk_read_record input.record_separator entry.stream with
      | none => (if entry.stream.feof then 0 else -1, input)
      | some (line, rest) =>
        let input := { input with inputs := read_on target (rest.getD []) inputs, scratch_buffer := line }
        (1, if update_record then { input with record := set_record input.record line } else input)

theorem feof_of_read_none {separator : Char} {stream : Stream} (h : qk_read_record separator stream = none) :
    stream.feof = true ∧ stream.rest = [] := by
  have hloop (text buffer : Text) (hnone : qk_read_record_loop separator stream.failing buffer text = none) :
      text = [] ∧ stream.failing = false := by
    induction text generalizing buffer with
    | nil =>
      refine ⟨rfl, ?_⟩
      by_contra hfailing
      simp [qk_read_record_loop, hfailing] at hnone
    | cons next_char rest ih =>
      unfold qk_read_record_loop at hnone
      split_ifs at hnone
      obtain ⟨hrest, hfailing⟩ := ih _ hnone
      subst hrest
      simp [qk_read_record_loop, hfailing] at hnone
  obtain ⟨hrest, hfailing⟩ := hloop _ _ (by simpa [qk_read_record] using h)
  exact ⟨by simp [Stream.feof, hrest, hfailing], hrest⟩

/-- What `qk_read_main_line` does, turn by turn. -/
inductive MainRead (update_record : Bool) : InputState → Int × InputState → Prop
  | ended {input after : InputState} (hnone : input.current_handle = none)
      (hopen : qk_open_next_input fopen input = (false, after)) :
      MainRead update_record input (if after.had_error then -1 else 0, after)
  | opened {input after : InputState} {outcome : Int × InputState} (hnone : input.current_handle = none)
      (hopen : qk_open_next_input fopen input = (true, after)) (hread : MainRead update_record after outcome) :
      MainRead update_record input outcome
  | record {input : InputState} {handle : Handle} {line : Text} {rest : Option Text}
      (hhandle : input.current_handle = some handle)
      (hread : qk_read_record input.record_separator (input.stream handle) = some (line, rest)) :
      MainRead update_record input
        (1, deliver update_record line ((prepare_buffer update_record input).advance handle rest))
  | closed {input : InputState} {handle : Handle} {outcome : Int × InputState}
      (hhandle : input.current_handle = some handle)
      (hread : qk_read_record input.record_separator (input.stream handle) = none)
      (hrest : MainRead update_record (qk_close_current_handle (prepare_buffer update_record input)) outcome) :
      MainRead update_record input outcome

variable {fopen}

theorem open_next_input_true {input after : InputState} (h : qk_open_next_input fopen input = (true, after)) :
    after.current_handle.isSome ∧ after.openable + 1 = input.openable := by
  unfold qk_open_next_input at h
  split_ifs at h with hargc hconsumed
  · simp at h
  · obtain rfl : _ = after := (Prod.mk.inj h).2
    simp [open_stdin, InputState.openable, hargc, hconsumed]
  · split at h
    · simp at h
    · rename_i path unopened hunopened
      dsimp only at h
      split_ifs at h
      · obtain rfl : _ = after := (Prod.mk.inj h).2
        simp [open_stdin, InputState.openable, hargc, hunopened]
      · split at h
        · obtain rfl : _ = after := (Prod.mk.inj h).2
          simp [InputState.openable, hargc, hunopened]
        · simp at h

theorem prepare_buffer_same (update_record : Bool) (input : InputState) :
    (prepare_buffer update_record input).current_handle = input.current_handle ∧
    (prepare_buffer update_record input).record_separator = input.record_separator ∧
    (prepare_buffer update_record input).openable = input.openable ∧
    (∀ handle, (prepare_buffer update_record input).stream handle = input.stream handle) := by
  unfold prepare_buffer
  split_ifs
  · exact ⟨rfl, rfl, rfl, fun handle => by cases handle <;> rfl⟩
  · exact ⟨rfl, rfl, rfl, fun _ => rfl⟩

theorem main_line_turn_read {update_record : Bool} {again : InputState → Int × InputState} {handle : Handle}
    {input : InputState} (hhandle : input.current_handle = some handle)
    (hagain : MainRead fopen update_record (qk_close_current_handle (prepare_buffer update_record input))
      (again (qk_close_current_handle (prepare_buffer update_record input)))) :
    MainRead fopen update_record input (main_line_turn update_record again handle input) := by
  obtain ⟨_, hseparator, _, hstream⟩ := prepare_buffer_same update_record input
  simp only [main_line_turn, hseparator, hstream handle]
  cases hread : qk_read_record input.record_separator (input.stream handle) with
  | some result => exact .record hhandle hread
  | none =>
    simp only [(feof_of_read_none hread).1, if_true]
    exact .closed hhandle hread hagain

theorem closed_turns (update_record : Bool) {input : InputState} (h : input.current_handle.isSome) :
    (qk_close_current_handle (prepare_buffer update_record input)).turns + 1 = input.turns := by
  have hopenable : (qk_close_current_handle (prepare_buffer update_record input)).openable = input.openable :=
    (prepare_buffer_same update_record input).2.2.1
  unfold InputState.turns
  rw [hopenable]
  simp [qk_close_current_handle, h]

theorem main_read_loop (update_record : Bool) (fuel : Nat) (input : InputState) (hfuel : input.turns < fuel) :
    MainRead fopen update_record input (qk_read_main_line_loop fopen update_record fuel input) := by
  induction fuel generalizing input with
  | zero => exact absurd hfuel (Nat.not_lt_zero _)
  | succ fuel ih =>
    have hturn (input : InputState) (handle : Handle) (hhandle : input.current_handle = some handle)
        (hfuel : input.turns < fuel + 1) : MainRead fopen update_record input
          (main_line_turn update_record (qk_read_main_line_loop fopen update_record fuel) handle input) := by
      have hsome : input.current_handle.isSome := by
        rw [hhandle]
        rfl
      have hclosed := closed_turns update_record hsome
      exact main_line_turn_read hhandle (ih _ (by omega))
    cases hhandle : input.current_handle with
    | some handle =>
      simp only [qk_read_main_line_loop, hhandle, Option.isSome_some, if_true]
      exact hturn input handle hhandle hfuel
    | none =>
      simp only [qk_read_main_line_loop, hhandle, Option.isSome_none, Bool.false_eq_true, if_false]
      cases hopen : qk_open_next_input fopen input with
      | mk available after =>
        cases available with
        | false => exact .ended hhandle hopen
        | true =>
          obtain ⟨hsome, hopenable⟩ := open_next_input_true hopen
          obtain ⟨handle, hafter⟩ := Option.isSome_iff_exists.mp hsome
          have hturns : after.turns = input.turns := by
            simp only [InputState.turns, hhandle, hafter, Option.isSome_some, Option.isSome_none, if_true,
              Bool.false_eq_true, if_false]
            omega
          simp only [hafter]
          exact .opened hhandle hopen (hturn after handle hafter (by omega))

theorem main_read (update_record : Bool) (input : InputState) :
    MainRead fopen update_record input (qk_read_main_line fopen update_record input) :=
  main_read_loop update_record _ input (Nat.lt_succ_self _)

end MainInput

end quawk
