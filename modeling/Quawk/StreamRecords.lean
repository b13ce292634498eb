import Quawk.MainInput
import Quawk.ReadErrors

namespace quawk

open Pieces (pieces)

/-- The records of a text. -/
def text_records (separator : Char) (contents : Text) : List Text :=
  (pieces separator contents).map (strip_carriage_return separator)

section Records

variable (fopen : Text → Option Stream) (separator : Char)

/-- The records of these operands, with this left of the standard input; an operand that cannot be opened
has none. -/
def operand_records : Text → List Text → List Text
  | _, [] => []
  | stdin, path :: rest =>
    if path = ['-'] then text_records separator stdin ++ operand_records [] rest
    else text_records separator (((fopen path).map Stream.rest).getD []) ++ operand_records stdin rest

def unopened_records (input : InputState) (stdin : Text) : List Text :=
  if input.argc = 0 then if input.stdin_consumed then [] else text_records separator stdin
  else operand_records fopen separator stdin input.unopened

/-- The records left in the current handle. -/
def handle_records (input : InputState) : List Text :=
  match input.current_handle with
  | none => []
  | some handle => text_records separator (input.stream handle).rest

/-- What is left of the standard input for a later `-`. -/
def later_stdin (input : InputState) : Text :=
  match input.current_handle with
  | some .stdin => []
  | _ => input.stdin.rest

/-- The records the main input still gives. -/
def main_records (input : InputState) : List Text :=
  handle_records separator input ++ unopened_records fopen separator input (later_stdin input)

/-- The records a named file still gives. -/
def named_records (input : InputState) (file : Text) : List Text :=
  text_records separator
    (match qk_find_input input.inputs file with
    | some entry => entry.stream.rest
    | none => ((fopen file).map Stream.rest).getD [])

end Records

section MainInput

variable {fopen : Text → Option Stream} {separator : Char} {input after : InputState}

@[simp]
theorem text_records_nil : text_records separator [] = [] := rfl

theorem read_record_text {stream : Stream} (hsound : stream.failing = false) {line : Text} {rest : Option Text}
    (h : qk_read_record separator stream = some (line, rest)) :
    text_records separator stream.rest = line :: text_records separator (rest.getD []) := by
  obtain ⟨contents, failing⟩ := stream
  obtain rfl : failing = false := hsound
  obtain ⟨piece, rfl, hpieces⟩ := read_record_some h
  simp [text_records, hpieces]

theorem open_next_input_same {available : Bool} (hopen : qk_open_next_input fopen input = (available, after)) :
    after.inputs = input.inputs ∧ after.record_separator = input.record_separator ∧
      after.record = input.record ∧ after.nr = input.nr := by
  unfold qk_open_next_input at hopen
  split_ifs at hopen
  · obtain ⟨_, rfl⟩ := Prod.mk.inj hopen
    exact ⟨rfl, rfl, rfl, rfl⟩
  · obtain ⟨_, rfl⟩ := Prod.mk.inj hopen
    exact ⟨rfl, rfl, rfl, rfl⟩
  · split at hopen
    · obtain ⟨_, rfl⟩ := Prod.mk.inj hopen
      exact ⟨rfl, rfl, rfl, rfl⟩
    · dsimp only at hopen
      split_ifs at hopen
      · obtain ⟨_, rfl⟩ := Prod.mk.inj hopen
        exact ⟨rfl, rfl, rfl, rfl⟩
      · split at hopen <;> obtain ⟨_, rfl⟩ := Prod.mk.inj hopen <;> exact ⟨rfl, rfl, rfl, rfl⟩

/-- Opening the next operand takes no record. -/
theorem open_next_input_records (separator : Char) {available : Bool} (hnone : input.current_handle = none)
    (hopen : qk_open_next_input fopen input = (available, after)) :
    main_records fopen separator after = main_records fopen separator input ∧
      (if available then after.fnr = 0
      else after.current_handle = none ∧
        (after.had_error = false → main_records fopen separator input = [])) := by
  unfold qk_open_next_input at hopen
  split_ifs at hopen with hargc hconsumed
  · obtain ⟨rfl, rfl⟩ := Prod.mk.inj hopen
    refine ⟨rfl, hnone, fun _ => ?_⟩
    simp [main_records, handle_records, unopened_records, hnone, hargc, hconsumed]
  · obtain ⟨rfl, rfl⟩ := Prod.mk.inj hopen
    refine ⟨?_, rfl⟩
    simp [main_records, handle_records, unopened_records, later_stdin, open_stdin, hnone, hargc, hconsumed,
      InputState.stream]
  · split at hopen
    · rename_i hunopened
      obtain ⟨rfl, rfl⟩ := Prod.mk.inj hopen
      refine ⟨rfl, hnone, fun _ => ?_⟩
      simp [main_records, handle_records, unopened_records, hnone, hargc, hunopened, operand_records]
    · rename_i path unopened hunopened
      dsimp only at hopen
      split_ifs at hopen with hdash
      · obtain ⟨rfl, rfl⟩ := Prod.mk.inj hopen
        refine ⟨?_, rfl⟩
        simp [main_records, handle_records, unopened_records, later_stdin, open_stdin, hnone, hargc, hunopened,
          operand_records, hdash, InputState.stream]
      · split at hopen
        · rename_i stream hstream
          obtain ⟨rfl, rfl⟩ := Prod.mk.inj hopen
          refine ⟨?_, rfl⟩
          simp [main_records, handle_records, unopened_records, later_stdin, hnone, hargc, hunopened,
            operand_records, hdash, hstream, InputState.stream]
        · rename_i hstream
          obtain ⟨rfl, rfl⟩ := Prod.mk.inj hopen
          refine ⟨?_, hnone, fun hno => (Bool.false_ne_true hno.symm).elim⟩
          simp [main_records, handle_records, unopened_records, later_stdin, hnone, hargc, hunopened,
            operand_records, hdash, hstream]

theorem prepare_buffer_records (fopen : Text → Option Stream) (separator : Char) (update_record : Bool)
    (input : InputState) :
    main_records fopen separator (prepare_buffer update_record input) = main_records fopen separator input ∧
      handle_records separator (prepare_buffer update_record input) = handle_records separator input := by
  cases update_record <;> exact ⟨rfl, rfl⟩

theorem advance_records (rest : Option Text) {handle : Handle} (hhandle : input.current_handle = some handle)
    (hsound : (input.stream handle).failing = false) :
    main_records fopen separator (input.advance handle rest) =
        text_records separator (rest.getD []) ++ unopened_records fopen separator input (later_stdin input) := by
  cases handle with
  | stdin =>
    have hfailing : input.stdin.failing = false := hsound
    simp [main_records, handle_records, unopened_records, later_stdin, InputState.advance, InputState.stream,
      hfailing, hhandle]
  | file stream =>
    have hfailing : stream.failing = false := hsound
    simp [main_records, handle_records, unopened_records, later_stdin, InputState.advance, InputState.stream,
      hfailing, hhandle]

theorem advance_record (input : InputState) (handle : Handle) (rest : Option Text) :
    (input.advance handle rest).record = input.record := by
  cases handle <;> simp only [InputState.advance] <;> split_ifs <;> rfl

/-- A handle read to its end is closed, and takes no record with it. -/
theorem close_records (fopen : Text → Option Stream) (separator : Char) {input : InputState} {handle : Handle}
    (hhandle : input.current_handle = some handle) (hrest : (input.stream handle).rest = []) :
    main_records fopen separator (qk_close_current_handle input) = main_records fopen separator input ∧
      handle_records separator input = [] := by
  cases handle with
  | stdin =>
    have hstdin : input.stdin.rest = [] := hrest
    simp [main_records, handle_records, unopened_records, later_stdin, qk_close_current_handle, hhandle, hstdin,
      InputState.stream]
  | file stream =>
    have hempty : handle_records separator input = [] := by
      simp only [handle_records, hhandle, hrest, text_records_nil]
    refine ⟨?_, hempty⟩
    rw [main_records, main_records, hempty]
    simp only [later_stdin, hhandle]
    rfl

/-- What a read of the main input may do: it gives the next record, or there is none to be had. -/
inductive MainTakes (fopen : Text → Option Stream) (update_record : Bool) (input : InputState) :
    Int × InputState → Prop
  | record {after : InputState} (text : Text)
      (hrecords : main_records fopen input.record_separator input =
        text :: main_records fopen input.record_separator after)
      (hnr : after.nr = input.nr + 1)
      (hfnr : after.fnr = if handle_records input.record_separator input = [] then 1 else input.fnr + 1)
      (hfilename : handle_records input.record_separator input ≠ [] → after.current_filename = input.current_filename)
      (hdelivered : if update_record then after.record = set_record input.record text
        else after.record = input.record ∧ after.scratch_buffer = text) :
      MainTakes fopen update_record input (1, after)
  | nothing {result : Int} {after : InputState}
      (hresult : result = 0 ∧ main_records fopen input.record_separator input = [] ∨ result = -1)
      (hrecords : main_records fopen input.record_separator after =
        main_records fopen input.record_separator input)
      (hfields : KeepsFields input after) (hnr : after.nr = input.nr) :
      MainTakes fopen update_record input (result, after)

/-- What a read takes that opens the next input first. -/
theorem MainTakes.opened {update_record : Bool} {outcome : Int × InputState} (hnone : input.current_handle = none)
    (hopen : qk_open_next_input fopen input = (true, after)) (h : MainTakes fopen update_record after outcome) :
    MainTakes fopen update_record input outcome := by
  obtain ⟨_, hseparator, hrecord, hnr⟩ := open_next_input_same hopen
  obtain ⟨hrecords, hfnr⟩ := open_next_input_records input.record_separator hnone hopen
  simp only [if_true] at hfnr
  have hempty : handle_records input.record_separator input = [] := by simp [handle_records, hnone]
  cases h with
  | record text hnext hnr' hfnr' _ hdelivered =>
    rw [hseparator, hrecords] at hnext
    rw [hrecord] at hdelivered
    refine .record text hnext (by rw [hnr', hnr]) ?_ (fun hnonempty => absurd hempty hnonempty) hdelivered
    rw [hfnr', hfnr, hempty]
    simp
  | nothing hresult hnext hfields hnr' =>
    rw [hseparator, hrecords] at hnext
    rw [hseparator, hrecords] at hresult
    refine .nothing hresult hnext ?_ (hnr'.trans hnr)
    unfold KeepsFields at hfields ⊢
    rw [hrecord] at hfields
    exact hfields

/-- What a read takes of the current input. -/
theorem MainTakes.current {handle : Handle} {line : Text} {rest : Option Text} (update_record : Bool)
    (hsound : Sound fopen input) (hhandle : input.current_handle = some handle)
    (hline : qk_read_record input.record_separator (input.stream handle) = some (line, rest)) :
    MainTakes fopen update_record input
      (1, deliver update_record line ((prepare_buffer update_record input).advance handle rest)) := by
  have hfailing := hsound.handle handle hhandle
  obtain ⟨hsame, _, _, hstream⟩ := prepare_buffer_same update_record input
  have htext := read_record_text hfailing hline
  have hhandles : handle_records input.record_separator input =
      line :: text_records input.record_separator (rest.getD []) := by
    simp [handle_records, hhandle, htext]
  obtain ⟨hnr, hfnr, hfilename, _⟩ := advance_same (prepare_buffer update_record input) rest (hsame.trans hhandle)
  have hadvance : main_records fopen input.record_separator ((prepare_buffer update_record input).advance handle rest) =
      text_records input.record_separator (rest.getD []) ++
        unopened_records fopen input.record_separator input (later_stdin input) := by
    rw [advance_records rest (hsame.trans hhandle) (by rw [hstream]; exact hfailing)]
    cases update_record <;> rfl
  refine .record line ?_ ?_ ?_ (fun _ => ?_) ?_
  · rw [main_records, hhandles, List.cons_append, ← hadvance]
    cases update_record <;> rfl
  · cases update_record <;> simp only [deliver, hnr] <;> rfl
  · rw [hhandles]
    cases update_record <;> simp only [deliver, hfnr] <;> rfl
  · cases update_record <;> simp only [deliver, hfilename] <;> rfl
  · have hrecord := advance_record (prepare_buffer update_record input) handle rest
    cases update_record
    · simp only [deliver, Bool.false_eq_true, if_false]
      exact ⟨hrecord, trivial⟩
    · simp only [deliver, if_true, hrecord]
      rfl

/-- What a read takes that finds the current input at its end, and closes it. -/
theorem MainTakes.closed {update_record : Bool} {outcome : Int × InputState} {handle : Handle}
    (hhandle : input.current_handle = some handle)
    (hline : qk_read_record input.record_separator (input.stream handle) = none)
    (h : MainTakes fopen update_record (qk_close_current_handle (prepare_buffer update_record input)) outcome) :
    MainTakes fopen update_record input outcome := by
  obtain ⟨hsame, hseparator, _, hstream⟩ := prepare_buffer_same update_record input
  obtain ⟨⟨hnf, hfield⟩, hnr⟩ := prepare_buffer_keeps_fields update_record input
  have hrest : ((prepare_buffer update_record input).stream handle).rest = [] := by
    rw [hstream]
    exact (feof_of_read_none hline).2
  obtain ⟨hclosed, hempty⟩ := close_records fopen input.record_separator (hsame.trans hhandle) hrest
  obtain ⟨hprepared, hhandles⟩ := prepare_buffer_records fopen input.record_separator update_record input
  rw [hprepared] at hclosed
  rw [hhandles] at hempty
  have hseparator' : (qk_close_current_handle (prepare_buffer update_record input)).record_separator =
      input.record_separator := hseparator
  cases h with
  | record text hnext hnr' hfnr' _ hdelivered =>
    rw [hseparator', hclosed] at hnext
    refine .record text hnext (hnr'.trans (congrArg (· + 1) hnr)) ?_ (fun hnonempty => absurd hempty hnonempty) ?_
    · rw [hfnr', hempty]
      simp [handle_records, qk_close_current_handle]
    · cases update_record <;> exact hdelivered
  | nothing hresult hnext hfields hnr' =>
    rw [hseparator', hclosed] at hnext
    rw [hseparator', hclosed] at hresult
    exact .nothing hresult hnext
      ⟨hfields.1.trans hnf, fun index => (hfields.2 index).trans (hfield index)⟩ (hnr'.trans hnr)

theorem main_read_takes {update_record : Bool} {outcome : Int × InputState}
    (hread : MainRead fopen update_record input outcome) (hsound : Sound fopen input) :
    MainTakes fopen update_record input outcome := by
  induction hread with
  | @ended input after hnone hopen =>
    obtain ⟨_, _, hrecord, hnr⟩ := open_next_input_same hopen
    obtain ⟨hrecords, hend⟩ := open_next_input_records input.record_separator hnone hopen
    simp only [Bool.false_eq_true, if_false] at hend
    refine .nothing ?_ hrecords ⟨by rw [hrecord], fun _ => by rw [hrecord]⟩ hnr
    cases herror : after.had_error with
    | false => exact Or.inl ⟨rfl, hend.2 herror⟩
    | true => exact Or.inr rfl
  | opened hnone hopen _ ih => exact .opened hnone hopen (ih (hsound.open_next_input hnone hopen).1)
  | record hhandle hline => exact .current _ hsound hhandle hline
  | closed hhandle hline _ ih => exact .closed hhandle hline (ih (hsound.prepare_buffer _).1.close.1)

/-- A read of the main input leaves the named files and the separator alone. -/
theorem main_read_same {update_record : Bool} {outcome : Int × InputState}
    (hread : MainRead fopen update_record input outcome) :
    outcome.2.inputs = input.inputs ∧ outcome.2.record_separator = input.record_separator := by
  induction hread with
  | ended hnone hopen => exact ⟨(open_next_input_same hopen).1, (open_next_input_same hopen).2.1⟩
  | opened hnone hopen _ ih =>
    obtain ⟨hinputs, hseparator, _⟩ := open_next_input_same hopen
    exact ⟨ih.1.trans hinputs, ih.2.trans hseparator⟩
  | @record input handle line rest hhandle hline =>
    cases update_record <;> cases handle <;> simp only [InputState.advance] <;> split_ifs <;> exact ⟨rfl, rfl⟩
  | closed hhandle hline _ ih => cases update_record <;> exact ih

end MainInput

section NamedFiles

variable {fopen : Text → Option Stream} {separator : Char} {input : InputState} {inputs inputs' : List InputEntry}
  {file : Text}

/-- No named file that is open fails while it is read. -/
def NamedSound (input : InputState) : Prop := ∀ entry ∈ input.inputs, entry.stream.failing = false

/-- A named file does not fail while it is read. -/
def FileSound (fopen : Text → Option Stream) (file : Text) : Prop :=
  ∀ stream, fopen file = some stream → stream.failing = false

theorem find_read_on (rest : Text) (other : Text) :
    qk_find_input (read_on file rest inputs) other =
      if other = file then (qk_find_input inputs file).map fun entry =>
        { entry with stream := { entry.stream with rest } }
      else qk_find_input inputs other := by
  induction inputs with
  | nil => simp [read_on, qk_find_input]
  | cons entry inputs ih =>
    unfold qk_find_input at ih ⊢
    by_cases hname : entry.name = file
    · subst hname
      by_cases hother : other = entry.name
      · simp [read_on, hother]
      · simp [read_on, hother, Ne.symm hother]
    · by_cases hother : other = file
      · subst hother
        simpa [read_on, hname] using ih
      · by_cases hfound : entry.name = other
        · subst hfound
          simp [read_on, hother]
        · simpa [read_on, hname, hfound] using ih

theorem mem_read_on {rest : Text} {entry : InputEntry} (h : entry ∈ read_on file rest inputs) :
    ∃ original ∈ inputs, entry.stream.failing = original.stream.failing := by
  induction inputs with
  | nil => simp [read_on] at h
  | cons first inputs ih =>
    unfold read_on at h
    split_ifs at h
    · obtain rfl | hmem := List.mem_cons.mp h
      · exact ⟨first, List.mem_cons_self, rfl⟩
      · exact ⟨entry, List.mem_cons_of_mem _ hmem, rfl⟩
    · obtain rfl | hmem := List.mem_cons.mp h
      · exact ⟨entry, List.mem_cons_self, rfl⟩
      · obtain ⟨original, horiginal, heq⟩ := ih hmem
        exact ⟨original, List.mem_cons_of_mem _ horiginal, heq⟩

theorem open_input_none {opened : Option Stream} (hopen : qk_open_input inputs file opened = none) :
    qk_find_input inputs file = none ∧ opened = none := by
  unfold qk_open_input at hopen
  cases hfind : qk_find_input inputs file <;> simp [hfind] at hopen
  exact ⟨rfl, hopen⟩

theorem open_input_found {opened : Option Stream} (hopen : qk_open_input inputs file opened = some inputs') :
    ∃ entry, qk_find_input inputs' file = some entry := by
  obtain ⟨entry, hfind, rfl⟩ | ⟨stream, -, -, rfl⟩ := open_input_cases hopen
  · exact ⟨entry, hfind⟩
  · exact ⟨⟨file, stream⟩, by simp [qk_find_input]⟩

theorem NamedSound.open_input {input : InputState} (hsound : NamedSound input) (hfile : FileSound fopen file)
    (hopen : qk_open_input input.inputs file (fopen file) = some inputs') :
    ∀ entry ∈ inputs', entry.stream.failing = false := by
  obtain ⟨_, -, rfl⟩ | ⟨stream, -, hstream, rfl⟩ := open_input_cases hopen
  · exact hsound
  · intro entry hmem
    obtain rfl | hmem := List.mem_cons.mp hmem
    · exact hfile stream hstream
    · exact hsound entry hmem

/-- Opening a file takes no record of any file. -/
theorem open_input_records (separator : Char) {input : InputState}
    (hopen : qk_open_input input.inputs file (fopen file) = some inputs') (other : Text) :
    named_records fopen separator { input with inputs := inputs' } other =
      named_records fopen separator input other := by
  obtain ⟨_, -, rfl⟩ | ⟨stream, hfind, hstream, rfl⟩ := open_input_cases hopen
  · rfl
  · by_cases hother : other = file
    · subst hother
      unfold qk_find_input at hfind
      simp [named_records, hfind, hstream, qk_find_input]
    · have hne : ¬ file = other := fun h => hother h.symm
      simp [named_records, qk_find_input, hne]

/-- What a read of a named file may do. -/
inductive FileTakes (fopen : Text → Option Stream) (update_record : Bool) (file : Text) (input : InputState) :
    Int × InputState → Prop
  | record (inputs : List InputEntry) (text : Text)
      (hrecords : named_records fopen input.record_separator input file =
        text :: named_records fopen input.record_separator { input with inputs } file)
      (hothers : ∀ other, other ≠ file → named_records fopen input.record_separator { input with inputs } other =
        named_records fopen input.record_separator input other) :
      FileTakes fopen update_record file input
        (1, { input with
          inputs
          scratch_buffer := text
          record := if update_record then set_record input.record text else input.record })
  | nothing {inputs : List InputEntry} {result : Int}
      (hresult : result = 0 ∨ result = -1)
      (hempty : named_records fopen input.record_separator input file = [])
      (hrecords : ∀ other, named_records fopen input.record_separator { input with inputs } other =
        named_records fopen input.record_separator input other) :
      FileTakes fopen update_record file input (result, { input with inputs })

/-- Reading a file on takes its records, and no others. -/
theorem read_on_records (fopen : Text → Option Stream) (separator : Char) (input : InputState) (rest : Text) {entry : InputEntry}
    (hfind : qk_find_input inputs file = some entry) (other : Text) :
    named_records fopen separator { input with inputs := read_on file rest inputs } other =
      if other = file then text_records separator rest
      else named_records fopen separator { input with inputs } other := by
  simp only [named_records, find_read_on]
  split_ifs
  · simp only [hfind, Option.map_some]
  · rfl

theorem read_file_line_takes (update_record : Bool) (file : Text) (hsound : NamedSound input)
    (hfile : FileSound fopen file) :
    FileTakes fopen update_record file input (qk_read_file_line fopen update_record file input) ∧
      NamedSound (qk_read_file_line fopen update_record file input).2 := by
  unfold qk_read_file_line
  cases hopen : qk_open_input input.inputs file (fopen file) with
  | none =>
    obtain ⟨hfind, hmissing⟩ := open_input_none hopen
    refine ⟨.nothing (Or.inr rfl) ?_ fun _ => rfl, hsound⟩
    simp [named_records, hfind, hmissing]
  | some inputs =>
    have hopened := open_input_records input.record_separator hopen
    have hfailing := hsound.open_input hfile hopen
    obtain ⟨entry, hfind⟩ := open_input_found hopen
    have hcontents : named_records fopen input.record_separator input file =
        text_records input.record_separator entry.stream.rest := by
      rw [← hopened file]
      simp only [named_records, hfind]
    cases hread : qk_read_record input.record_separator entry.stream with
    | none =>
      simp only [hfind, hread]
      refine ⟨.nothing (by split_ifs <;> simp) ?_ hopened, hfailing⟩
      rw [hcontents, (feof_of_read_none hread).2, text_records_nil]
    | some result =>
      obtain ⟨line, rest⟩ := result
      simp only [hfind, hread]
      have hline := read_record_text (hfailing entry (List.mem_of_find?_eq_some hfind)) hread
      have htaken (other : Text) := read_on_records fopen input.record_separator input (rest.getD []) hfind other
      simp only [hopened] at htaken
      refine ⟨?_, ?_⟩
      · have htakes : FileTakes fopen update_record file input _ :=
          .record (read_on file (rest.getD []) inputs) line (by rw [htaken file, if_pos rfl, hcontents, hline])
            fun other hother => by rw [htaken other, if_neg hother]
        cases update_record <;> exact htakes
      · have hafter : ∀ entry ∈ read_on file (rest.getD []) inputs, entry.stream.failing = false := by
          intro entry' hmem
          obtain ⟨original, horiginal, heq⟩ := mem_read_on hmem
          rw [heq]
          exact hfailing original horiginal
        cases update_record <;> exact hafter

end NamedFiles

end quawk
