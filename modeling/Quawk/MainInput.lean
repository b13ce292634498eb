import Mathlib.Data.List.TakeWhile
import Quawk.InputStream

namespace quawk

open Pieces (pieces)

/-- A record as the main input is to deliver it: its file, its number in the file, and its text. -/
structure FileRecord where
  file : Nat
  filename : Text
  fnr : Nat
  text : Text
  deriving DecidableEq, Repr

/-- The pieces of one file, numbered from `fnr`. -/
def numbered_records (separator : Char) (file : Nat) (filename : Text) : Nat → List Text → List FileRecord
  | _, [] => []
  | fnr, piece :: rest =>
    ⟨file, filename, fnr, strip_carriage_return separator piece⟩ ::
      numbered_records separator file filename (fnr + 1) rest

/-- The records of files with these names and contents, the first of them numbered `file`. -/
def files_records (separator : Char) : Nat → List (Text × Text) → List FileRecord
  | _, [] => []
  | file, (filename, contents) :: rest =>
    numbered_records separator file filename 1 (pieces separator contents) ++ files_records separator (file + 1) rest

/-- What a program does with the main input: the driver loop and a plain `getline` read the next record. -/
inductive MainOperation where
  | next_record
  | getline
  | nextfile
  deriving DecidableEq, Repr

def MainOperation.reads : MainOperation → Bool
  | .next_record | .getline => true
  | .nextfile => false

/-- The records the operations are to deliver with their `NR`: each read gives the next one waiting, and
`nextfile` skips those of the file last read from. -/
def deliveries : Nat → Option Nat → List FileRecord → List MainOperation → List (Option (Nat × FileRecord))
  | _, _, _, [] => []
  | nr, current, waiting, .nextfile :: operations =>
    deliveries nr none (waiting.dropWhile fun record => some record.file == current) operations
  | nr, _, [], _ :: operations => none :: deliveries nr none [] operations
  | nr, _, record :: waiting, _ :: operations =>
    some (nr + 1, record) :: deliveries (nr + 1) (some record.file) waiting operations

section Runs

variable (fopen : Text → Option Stream)

/-- The outcome of an operation, as a number above 0 for a record; `nextfile` has none. -/
def MainOperation.perform (input : InputState) : MainOperation → Int × InputState
  | .next_record =>
    let (available, input) := qk_next_record fopen input
    (if available then 1 else 0, input)
  | .getline => qk_getline_main_record fopen input
  | .nextfile => (0, qk_nextfile input)

/-- The states before and after every read, and the outcome of the read. -/
def main_run : InputState → List MainOperation → List (InputState × Int × InputState)
  | _, [] => []
  | input, operation :: operations =>
    let outcome := operation.perform fopen input
    if operation.reads then (input, outcome) :: main_run outcome.2 operations
    else main_run outcome.2 operations

/-- What a program sees of a read: the result, `NR`, `FNR`, `FILENAME` and `$0`. -/
def IsDelivery (result : Int) (input : InputState) (nr : Nat) (record : FileRecord) : Prop :=
  result = 1 ∧ input.nr = nr ∧ input.fnr = record.fnr ∧ input.current_filename = some record.filename ∧
    qk_get_field input.record 0 = record.text

/-- The record a read gives is the one expected, and without one the fields stay as they were. -/
def ReadMatches (read : InputState × Int × InputState) : Option (Nat × FileRecord) → Prop
  | some (nr, record) => IsDelivery read.2.1 read.2.2 nr record
  | none => read.2.1 = 0 ∧ qk_get_nf read.2.2.record = qk_get_nf read.1.record ∧
      ∀ index, qk_get_field read.2.2.record index = qk_get_field read.1.record index

/-- The files the operands name; without operands it is the standard input. -/
def input_files (argv : List Text) (stdin : Stream) : List (Text × Text) :=
  if argv = [] then [(['-'], stdin.rest)]
  else argv.map fun path => (path, ((fopen path).map Stream.rest).getD [])

/-- An operand that names a file that can be opened and read to its end. -/
def Readable (path : Text) : Prop := path ≠ ['-'] ∧ ∃ contents, fopen path = some ⟨contents, false⟩

end Runs

theorem read_record_loop_pieces (separator : Char) (text buffer : Text) (hbuffer : separator ∉ buffer) :
    pieces separator (buffer ++ text) =
      match qk_read_record_loop separator false buffer text with
      | none => []
      | some (line, rest) => line :: pieces separator (rest.getD []) := by
  induction text generalizing buffer with
  | nil =>
    by_cases hempty : buffer = []
    · simp [qk_read_record_loop, hempty]
    · simp [qk_read_record_loop, hempty, Pieces.pieces_of_not_mem hbuffer hempty]
  | cons next_char rest ih =>
    unfold qk_read_record_loop
    split_ifs with hseparator
    · subst hseparator
      exact Pieces.pieces_append_cons hbuffer rest
    · have hnext := ih (buffer ++ [next_char]) (by
        simp only [List.mem_append, List.mem_singleton, not_or]
        exact ⟨hbuffer, fun heq => hseparator heq.symm⟩)
      rw [List.append_assoc, List.singleton_append] at hnext
      exact hnext

theorem read_record_some {separator : Char} {contents line : Text} {rest : Option Text}
    (h : qk_read_record separator ⟨contents, false⟩ = some (line, rest)) :
    ∃ piece, line = strip_carriage_return separator piece ∧
      pieces separator contents = piece :: pieces separator (rest.getD []) := by
  unfold qk_read_record at h
  have hpieces := read_record_loop_pieces separator contents [] (by simp)
  cases hloop : qk_read_record_loop separator false [] contents with
  | none => simp [hloop] at h
  | some result =>
    obtain ⟨piece, rest'⟩ := result
    simp only [hloop, Option.map_some, Option.some.injEq, Prod.mk.injEq] at h
    obtain ⟨rfl, rfl⟩ := h
    rw [hloop] at hpieces
    exact ⟨piece, rfl, hpieces⟩

section Tracking

variable {fopen : Text → Option Stream} {separator : Char}

/-- The files no handle was opened for yet. -/
def unopened_files (fopen : Text → Option Stream) (input : InputState) : List (Text × Text) :=
  if input.argc = 0 then if input.stdin_consumed then [] else [(['-'], input.stdin.rest)]
  else input.unopened.map fun path => (path, ((fopen path).map Stream.rest).getD [])

/-- The records the current handle and the unopened operands, the first of them numbered `opened`, still
hold. -/
def waiting_records (fopen : Text → Option Stream) (separator : Char) (input : InputState) (opened : Nat) :
    List FileRecord :=
  match input.current_handle with
  | none => files_records separator opened (unopened_files fopen input)
  | some handle =>
    numbered_records separator (opened - 1) (input.current_filename.getD []) (input.fnr + 1)
        (pieces separator (input.stream handle).rest) ++
      files_records separator opened (unopened_files fopen input)

/-- The input is in order, and these records are waiting. -/
structure InOrder (fopen : Text → Option Stream) (separator : Char) (input : InputState) (opened : Nat)
    (waiting : List FileRecord) : Prop where
  reads_to : input.record_separator = separator
  no_error : input.had_error = false
  stdin : input.argc = 0 → input.stdin.failing = false
  operands : input.argc ≠ 0 → ∀ path ∈ input.unopened, Readable fopen path
  consumed : input.argc = 0 → input.current_handle.isSome → input.stdin_consumed = true
  handle : ∀ handle, input.current_handle = some handle → (input.stream handle).failing = false ∧
    input.current_filename.isSome ∧ 0 < opened
  waiting : waiting = waiting_records fopen separator input opened

variable {input after : InputState} {opened : Nat} {waiting : List FileRecord}

theorem InOrder.open_false (h : InOrder fopen separator input opened waiting) (hnone : input.current_handle = none)
    (hopen : qk_open_next_input fopen input = (false, after)) : after = input ∧ waiting = [] := by
  have hwaiting := h.waiting
  simp only [waiting_records, hnone] at hwaiting
  unfold qk_open_next_input at hopen
  split_ifs at hopen with hargc hconsumed
  · exact ⟨(Prod.mk.inj hopen).2.symm, by simpa [unopened_files, hargc, hconsumed, files_records] using hwaiting⟩
  · simp at hopen
  · split at hopen
    · rename_i hunopened
      exact ⟨(Prod.mk.inj hopen).2.symm, by simpa [unopened_files, hargc, hunopened, files_records] using hwaiting⟩
    · rename_i path rest hunopened
      obtain ⟨hdash, contents, hcontents⟩ := h.operands hargc path (by rw [hunopened]; exact List.mem_cons_self)
      simp [hdash, hcontents] at hopen

theorem InOrder.open_true (h : InOrder fopen separator input opened waiting) (hnone : input.current_handle = none)
    (hopen : qk_open_next_input fopen input = (true, after)) :
    InOrder fopen separator after (opened + 1) waiting ∧ after.nr = input.nr ∧ after.record = input.record := by
  have hwaiting := h.waiting
  simp only [waiting_records, hnone] at hwaiting
  unfold qk_open_next_input at hopen
  split_ifs at hopen with hargc hconsumed
  · simp at hopen
  · obtain rfl : _ = after := (Prod.mk.inj hopen).2
    refine ⟨⟨h.reads_to, h.no_error, h.stdin, h.operands, fun _ _ => rfl, ?_, ?_⟩, rfl, rfl⟩
    · intro handle hhandle
      obtain rfl : Handle.stdin = handle := Option.some.inj hhandle
      exact ⟨h.stdin hargc, rfl, Nat.succ_pos _⟩
    · rw [hwaiting]
      simp [waiting_records, open_stdin, unopened_files, hargc, hconsumed, files_records, InputState.stream]
  · split at hopen
    · simp at hopen
    · rename_i path rest hunopened
      obtain ⟨hdash, contents, hcontents⟩ := h.operands hargc path (by rw [hunopened]; exact List.mem_cons_self)
      simp only [hdash, hcontents, if_false] at hopen
      obtain rfl : _ = after := (Prod.mk.inj hopen).2
      refine ⟨⟨h.reads_to, h.no_error, h.stdin, fun _ other hmem => ?_, fun hzero => absurd hzero hargc, ?_, ?_⟩,
        rfl, rfl⟩
      · exact h.operands hargc other (by rw [hunopened]; exact List.mem_cons_of_mem _ hmem)
      · intro handle hhandle
        obtain rfl : Handle.file ⟨contents, false⟩ = handle := Option.some.inj hhandle
        exact ⟨rfl, rfl, Nat.succ_pos _⟩
      · rw [hwaiting]
        simp [waiting_records, unopened_files, hargc, hunopened, hcontents, files_records, InputState.stream]

/-- Only the operands, the handle and what is known of the file read are looked at. -/
theorem InOrder.congr (h : InOrder fopen separator input opened waiting) (hargc : after.argc = input.argc)
    (hunopened : after.unopened = input.unopened) (hstdin : after.stdin = input.stdin)
    (hconsumed : after.stdin_consumed = input.stdin_consumed)
    (hhandle : after.current_handle = input.current_handle)
    (hfilename : after.current_filename = input.current_filename)
    (hseparator : after.record_separator = input.record_separator) (hfnr : after.fnr = input.fnr)
    (herror : after.had_error = input.had_error) : InOrder fopen separator after opened waiting := by
  have hstream (handle : Handle) : after.stream handle = input.stream handle := by
    cases handle
    · exact hstdin
    · rfl
  refine ⟨by rw [hseparator, h.reads_to], by rw [herror, h.no_error], ?_, ?_, ?_, ?_, ?_⟩
  · rw [hargc, hstdin]
    exact h.stdin
  · rw [hargc, hunopened]
    exact h.operands
  · rw [hargc, hhandle, hconsumed]
    exact h.consumed
  · intro handle
    rw [hhandle, hstream, hfilename]
    exact h.handle handle
  · rw [h.waiting]
    simp only [waiting_records, unopened_files, hargc, hunopened, hstdin, hconsumed, hhandle, hfilename, hfnr,
      hstream]

theorem InOrder.prepare_buffer (h : InOrder fopen separator input opened waiting) (update_record : Bool) :
    InOrder fopen separator (quawk.prepare_buffer update_record input) opened waiting := by
  cases update_record
  · exact h
  · exact h.congr rfl rfl rfl rfl rfl rfl rfl rfl rfl

/-- A file read to its end is closed, and the records of the other files are waiting. -/
theorem InOrder.close (h : InOrder fopen separator input opened waiting) {handle : Handle}
    (hhandle : input.current_handle = some handle) (hread : qk_read_record separator (input.stream handle) = none) :
    InOrder fopen separator (qk_close_current_handle input) opened waiting := by
  refine ⟨h.reads_to, h.no_error, h.stdin, h.operands, fun _ hsome => (nomatch hsome),
    fun _ hsome => (nomatch hsome), ?_⟩
  rw [h.waiting]
  simp only [waiting_records, hhandle, (feof_of_read_none hread).2, Pieces.pieces_nil, numbered_records,
    List.nil_append]
  rfl

theorem advance_same (input : InputState) (rest : Option Text) {handle : Handle}
    (hhandle : input.current_handle = some handle) :
    (input.advance handle rest).nr = input.nr ∧ (input.advance handle rest).fnr = input.fnr ∧
    (input.advance handle rest).current_filename = input.current_filename ∧
    (input.advance handle rest).current_handle.isSome := by
  cases handle <;> simp only [InputState.advance] <;> split_ifs <;> simp [hhandle]

/-- Reading a record leaves those after it waiting. -/
theorem InOrder.advance (h : InOrder fopen separator input opened waiting) {handle : Handle} {line : Text}
    {rest : Option Text} (hhandle : input.current_handle = some handle)
    (hread : qk_read_record separator (input.stream handle) = some (line, rest)) (update_record : Bool) :
    ∃ record waiting', waiting = record :: waiting' ∧ record.file + 1 = opened ∧ record.fnr = input.fnr + 1 ∧
      input.current_filename = some record.filename ∧ record.text = line ∧
      InOrder fopen separator (deliver update_record line (input.advance handle rest)) opened waiting' := by
  obtain ⟨hfailing, hfilename, hopened⟩ := h.handle handle hhandle
  obtain ⟨filename, hfilename⟩ := Option.isSome_iff_exists.mp hfilename
  obtain ⟨piece, rfl, hpieces⟩ : ∃ piece, line = strip_carriage_return separator piece ∧
      pieces separator (input.stream handle).rest = piece :: pieces separator (rest.getD []) := by
    refine read_record_some ?_
    rw [← hfailing]
    exact hread
  have hwaiting := h.waiting
  simp only [waiting_records, hhandle, hpieces, numbered_records, List.cons_append] at hwaiting
  have hadvance : InOrder fopen separator { input.advance handle rest with fnr := input.fnr + 1 } opened
      (numbered_records separator (opened - 1) (input.current_filename.getD []) (input.fnr + 1 + 1)
          (pieces separator (rest.getD [])) ++ files_records separator opened (unopened_files fopen input)) := by
    cases handle with
    | stdin =>
      have hstdin : input.stdin.failing = false := hfailing
      have hunopened (stdin : Stream) :
          unopened_files fopen { input with stdin } = unopened_files fopen input := by
        by_cases hargc : input.argc = 0
        · simp [unopened_files, hargc, h.consumed hargc (by rw [hhandle]; rfl)]
        · simp [unopened_files, hargc]
      simp only [InputState.advance, InputState.stream, hstdin, Bool.and_false, Bool.false_eq_true, if_false]
      refine ⟨h.reads_to, h.no_error, fun _ => rfl, h.operands, h.consumed, ?_, ?_⟩
      · intro other hother
        obtain rfl : Handle.stdin = other := Option.some.inj (hhandle.symm.trans hother)
        exact ⟨rfl, by simp [hfilename], hopened⟩
      · simp only [waiting_records, hhandle]
        exact congrArg _ (congrArg _ (hunopened _)).symm
    | file stream =>
      have hstream : stream.failing = false := hfailing
      simp only [InputState.advance, InputState.stream, hstream, Bool.and_false, Bool.false_eq_true, if_false]
      refine ⟨h.reads_to, h.no_error, h.stdin, h.operands,
        fun hargc _ => h.consumed hargc (by rw [hhandle]; rfl), ?_, rfl⟩
      intro other hother
      obtain rfl : Handle.file _ = other := Option.some.inj hother
      exact ⟨rfl, by simp [hfilename], hopened⟩
  refine ⟨_, _, hwaiting, Nat.sub_add_cancel hopened, rfl, by rw [hfilename]; rfl, rfl, ?_⟩
  have hfnr := (advance_same input rest hhandle).2.1
  cases update_record
  · exact hadvance.congr rfl rfl rfl rfl rfl rfl rfl (by simp [deliver, hfnr]) rfl
  · exact hadvance.congr rfl rfl rfl rfl rfl rfl rfl (by simp [deliver, hfnr]) rfl

/-- The fields read the same in both states. -/
def KeepsFields (before after : InputState) : Prop :=
  qk_get_nf after.record = qk_get_nf before.record ∧
    ∀ index, qk_get_field after.record index = qk_get_field before.record index

theorem prepare_buffer_keeps_fields (update_record : Bool) (input : InputState) :
    KeepsFields input (prepare_buffer update_record input) ∧ (prepare_buffer update_record input).nr = input.nr := by
  cases update_record with
  | false => exact ⟨⟨rfl, fun _ => rfl⟩, rfl⟩
  | true =>
    refine ⟨⟨rfl, fun index => ?_⟩, rfl⟩
    cases hrecord : input.record.current_record with
    | some text => simp [prepare_buffer, qk_get_field, hrecord]
    | none =>
      have hfields := input.record.no_fields hrecord
      simp [prepare_buffer, qk_get_field, hrecord, hfields]

/-- What the read leaves: the next record delivered and those after it waiting, or nothing at all. -/
def ReadGives (fopen : Text → Option Stream) (separator : Char) (update_record : Bool) (input : InputState)
    (outcome : Int × InputState) : List FileRecord → Prop
  | [] => outcome.1 = 0 ∧ KeepsFields input outcome.2 ∧ outcome.2.nr = input.nr ∧
      outcome.2.current_handle = none ∧ ∃ opened, InOrder fopen separator outcome.2 opened []
  | record :: waiting =>
    outcome.1 = 1 ∧ outcome.2.nr = input.nr + 1 ∧ outcome.2.fnr = record.fnr ∧
      outcome.2.current_filename = some record.filename ∧
      (if update_record then qk_get_field outcome.2.record 0 else outcome.2.scratch_buffer) = record.text ∧
      outcome.2.current_handle.isSome ∧ InOrder fopen separator outcome.2 (record.file + 1) waiting

theorem main_read_gives {update_record : Bool} {outcome : Int × InputState}
    (hread : MainRead fopen update_record input outcome) (h : InOrder fopen separator input opened waiting) :
    ReadGives fopen separator update_record input outcome waiting := by
  induction hread generalizing opened with
  | ended hnone hopen =>
    obtain ⟨rfl, rfl⟩ := h.open_false hnone hopen
    exact ⟨by simp [h.no_error], ⟨rfl, fun _ => rfl⟩, rfl, hnone, opened, h⟩
  | @opened input after outcome hnone hopen _ ih =>
    obtain ⟨horder, hnr, hrecord⟩ := h.open_true hnone hopen
    have hgives := ih horder
    cases waiting with
    | nil =>
      obtain ⟨hresult, hkeeps, hcount, hend⟩ := hgives
      unfold KeepsFields at hkeeps
      rw [hrecord] at hkeeps
      exact ⟨hresult, hkeeps, hcount.trans hnr, hend⟩
    | cons record waiting =>
      obtain ⟨hresult, hcount, hrest⟩ := hgives
      exact ⟨hresult, by rw [hcount, hnr], hrest⟩
  | @record input handle line rest hhandle hline =>
    obtain ⟨hsame, hseparator, _, hstream⟩ := prepare_buffer_same update_record input
    rw [h.reads_to, ← hstream] at hline
    obtain ⟨record, waiting', rfl, rfl, hfnr, hfilename, rfl, horder⟩ :=
      (h.prepare_buffer update_record).advance (hsame.trans hhandle) hline update_record
    obtain ⟨hnr, hfnr', hfilename', hsome⟩ := advance_same (prepare_buffer update_record input) rest
      (hsame.trans hhandle)
    refine ⟨rfl, ?_, ?_, ?_, ?_, ?_, horder⟩
    · cases update_record <;> simp only [deliver, hnr] <;> rfl
    · cases update_record <;> simp only [deliver, hfnr'] <;> exact hfnr.symm
    · cases update_record <;> simp only [deliver, hfilename'] <;> exact hfilename
    · cases update_record <;> rfl
    · cases update_record <;> exact hsome
  | @closed input handle outcome hhandle hline _ ih =>
    obtain ⟨hsame, hseparator, _, hstream⟩ := prepare_buffer_same update_record input
    rw [h.reads_to, ← hstream] at hline
    obtain ⟨⟨hnf, hfield⟩, hnr⟩ := prepare_buffer_keeps_fields update_record input
    have hgives := ih ((h.prepare_buffer update_record).close (hsame.trans hhandle) hline)
    cases waiting with
    | nil =>
      obtain ⟨hresult, ⟨hnf', hfield'⟩, hcount, hend⟩ := hgives
      exact ⟨hresult, ⟨hnf'.trans hnf, fun index => (hfield' index).trans (hfield index)⟩, hcount.trans hnr, hend⟩
    | cons record waiting =>
      obtain ⟨hresult, hcount, hrest⟩ := hgives
      exact ⟨hresult, hcount.trans (congrArg (· + 1) hnr), hrest⟩

/-- The number of the file the current handle reads. -/
def current_file (input : InputState) (opened : Nat) : Option Nat :=
  if input.current_handle.isSome then some (opened - 1) else none

theorem numbered_records_file {file fnr : Nat} {filename : Text} {texts : List Text} :
    ∀ record ∈ numbered_records separator file filename fnr texts, record.file = file := by
  induction texts generalizing fnr with
  | nil => simp [numbered_records]
  | cons text rest ih =>
    intro record hmem
    obtain rfl | hmem := List.mem_cons.mp hmem
    · rfl
    · exact ih record hmem

theorem files_records_file {file : Nat} {files : List (Text × Text)} :
    ∀ record ∈ files_records separator file files, file ≤ record.file := by
  induction files generalizing file with
  | nil => simp [files_records]
  | cons entry rest ih =>
    intro record hmem
    obtain hmem | hmem := List.mem_append.mp hmem
    · exact (numbered_records_file record hmem).symm.le
    · exact Nat.le_of_succ_le (ih record hmem)

theorem InOrder.nextfile (h : InOrder fopen separator input opened waiting) :
    InOrder fopen separator (qk_nextfile input) opened
      (waiting.dropWhile fun record => some record.file == current_file input opened) := by
  refine ⟨h.reads_to, h.no_error, h.stdin, h.operands, fun _ hsome => (nomatch hsome),
    fun _ hsome => (nomatch hsome), ?_⟩
  have hclosed : waiting_records fopen separator (qk_nextfile input) opened =
      files_records separator opened (unopened_files fopen input) := rfl
  have hkept {current : Option Nat} (hcurrent : ∀ file, opened ≤ file → some file ≠ current) :
      (files_records separator opened (unopened_files fopen input)).dropWhile
        (fun record => some record.file == current) =
      files_records separator opened (unopened_files fopen input) := by
    rw [List.dropWhile_eq_self_iff]
    intro hne
    simpa using hcurrent _ (files_records_file _ (List.getElem_mem hne))
  rw [hclosed, h.waiting]
  cases hhandle : input.current_handle with
  | none =>
    simp only [waiting_records, current_file, hhandle, Option.isSome_none, Bool.false_eq_true, if_false]
    exact hkept fun _ _ heq => nomatch heq
  | some handle =>
    have hopened := (h.handle handle hhandle).2.2
    simp only [waiting_records, current_file, hhandle, Option.isSome_some, if_true]
    rw [List.dropWhile_append_of_pos]
    · refine hkept fun file hle heq => ?_
      have hfile : file = opened - 1 := Option.some.inj heq
      omega
    · intro record hmem
      simp [numbered_records_file record hmem]

end Tracking

section Correctness

variable {fopen : Text → Option Stream} {separator : Char}

theorem in_order_start {argv : List Text} {stdin : Stream} (hoperands : ∀ path ∈ argv, Readable fopen path)
    (hstdin : argv = [] → stdin.failing = false) :
    InOrder fopen separator { input_start argv stdin with record_separator := separator } 0
      (files_records separator 0 (input_files fopen argv stdin)) := by
  refine ⟨rfl, rfl, fun hargc => hstdin (List.length_eq_zero_iff.mp hargc), fun _ => hoperands,
    fun _ hsome => (nomatch hsome), fun _ hsome => (nomatch hsome), ?_⟩
  by_cases hargv : argv = []
  · simp [hargv, waiting_records, input_start, input_files, unopened_files]
  · simp [hargv, waiting_records, input_start, input_files, unopened_files]

theorem main_operation_matches {input : InputState} {opened : Nat} {waiting : List FileRecord}
    (h : InOrder fopen separator input opened waiting) {operation : MainOperation} (hreads : operation.reads = true) :
    ReadGives fopen separator true input (operation.perform fopen input) waiting := by
  have hgives := main_read_gives (main_read true input) h
  cases operation with
  | getline => exact hgives
  | nextfile => cases hreads
  | next_record =>
    have hresult : (qk_read_main_line fopen true input).1 = 1 ∨ (qk_read_main_line fopen true input).1 = 0 := by
      cases waiting with
      | nil => exact Or.inr hgives.1
      | cons record waiting => exact Or.inl hgives.1
    have houtcome : MainOperation.next_record.perform fopen input = qk_read_main_line fopen true input := by
      refine Prod.ext ?_ rfl
      obtain hresult | hresult := hresult <;> simp [MainOperation.perform, qk_next_record, hresult]
    rw [houtcome]
    exact hgives

theorem main_run_matches (operations : List MainOperation) {input : InputState} {opened : Nat}
    {waiting : List FileRecord} (h : InOrder fopen separator input opened waiting) :
    List.Forall₂ ReadMatches (main_run fopen input operations)
      (deliveries input.nr (current_file input opened) waiting operations) := by
  induction operations generalizing input opened waiting with
  | nil => exact List.Forall₂.nil
  | cons operation operations ih =>
    cases hreads : operation.reads with
    | false =>
      obtain rfl : operation = .nextfile := by cases operation <;> first | rfl | cases hreads
      exact ih h.nextfile
    | true =>
      have hgives := main_operation_matches h hreads
      have hrun : main_run fopen input (operation :: operations) =
          (input, operation.perform fopen input) :: main_run fopen (operation.perform fopen input).2 operations := by
        simp only [main_run, hreads, if_true]
      rw [hrun]
      cases waiting with
      | nil =>
        obtain ⟨hresult, ⟨hnf, hfield⟩, hnr, hnone, opened', horder⟩ := hgives
        have hdeliveries : deliveries input.nr (current_file input opened) [] (operation :: operations) =
            none :: deliveries input.nr none [] operations := by
          cases operation <;> first | rfl | cases hreads
        rw [hdeliveries]
        refine List.Forall₂.cons ⟨hresult, hnf, hfield⟩ ?_
        have hrest := ih horder
        rw [hnr, current_file, hnone] at hrest
        exact hrest
      | cons record waiting =>
        obtain ⟨hresult, hnr, hfnr, hfilename, htext, hsome, horder⟩ := hgives
        have hdeliveries : deliveries input.nr (current_file input opened) (record :: waiting)
              (operation :: operations) =
            some (input.nr + 1, record) :: deliveries (input.nr + 1) (some record.file) waiting operations := by
          cases operation <;> first | rfl | cases hreads
        rw [hdeliveries]
        refine List.Forall₂.cons ⟨hresult, hnr, hfnr, hfilename, htext⟩ ?_
        have hrest := ih horder
        rw [hnr, current_file, hsome] at hrest
        exact hrest

/-- In every run over readable files the reads deliver the records the files hold, in order and with their
numbers; `nextfile` skips the rest of the current file, and at the end of the input `$0` and `NF` stay. -/
theorem main_input_delivers (fopen : Text → Option Stream) (separator : Char) (argv : List Text) (stdin : Stream)
    (operations : List MainOperation)
    (hoperands : ∀ path ∈ argv, Readable fopen path) (hstdin : argv = [] → stdin.failing = false) :
    List.Forall₂ ReadMatches
      (main_run fopen { input_start argv stdin with record_separator := separator } operations)
      (deliveries 0 none (files_records separator 0 (input_files fopen argv stdin)) operations) := by
  exact main_run_matches operations (in_order_start hoperands hstdin)

/-- Two files and a `nextfile` between them: the first has a carriage return and a rest that is skipped, the
second no final separator. -/
theorem main_input_delivers_two_files :
    List.Forall₂ ReadMatches
      (main_run (fun path => if path = ['a'] then some ⟨['x', '\r', '\n', 'y', '\n'], false⟩
          else some ⟨['z'], false⟩)
        { input_start [['a'], ['b']] ⟨[], false⟩ with record_separator := '\n' }
        [.next_record, .nextfile, .getline, .next_record])
      [some (1, ⟨0, ['a'], 1, ['x']⟩), some (2, ⟨1, ['b'], 1, ['z']⟩), none] := by
  have hrun := main_input_delivers
    (fun path => if path = ['a'] then some ⟨['x', '\r', '\n', 'y', '\n'], false⟩ else some ⟨['z'], false⟩)
    '\n' [['a'], ['b']] ⟨[], false⟩ [.next_record, .nextfile, .getline, .next_record] (by simp [Readable]) (by decide)
  exact hrun

end Correctness

end quawk
