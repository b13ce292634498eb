import Mathlib.Data.List.Induction
import Mathlib.Data.List.Nodup
import Quawk.InputStream

namespace quawk

inductive OutputMode where
  | write | append | pipe
  deriving DecidableEq, Repr

/-- An open output; every handle ever opened has a number of its own. -/
structure OutputEntry where
  name : Text
  mode : OutputMode
  handle : Nat
  deriving DecidableEq, Repr

/-- A redirected `print` that is being executed, with the handle it got; there is none if its target could not
be opened. -/
structure RunningPrint where
  target : Text
  mode : OutputMode
  handle : Option Nat
  deriving DecidableEq, Repr

structure StreamTables where
  outputs : List OutputEntry
  inputs : List InputEntry
  running : List RunningPrint
  next_handle : Nat
  /-- What was written, and through which handle. -/
  written : List (Nat × Text)

def stream_tables_start : StreamTables := ⟨[], [], [], 0, []⟩

def qk_find_output (tables : StreamTables) (name : Text) (mode : OutputMode) : Option OutputEntry :=
  tables.outputs.find? fun entry => entry.mode == mode && entry.name == name

/-- The handle for a target; `opens` tells whether a target that is not open yet can be opened. -/
def qk_open_output (tables : StreamTables) (target : Text) (mode : OutputMode) (opens : Bool) :
    Option Nat × StreamTables :=
  match qk_find_output tables target mode with
  | some entry => (some entry.handle, tables)
  | none =>
    if opens then
      (some tables.next_handle,
        { tables with
          outputs := ⟨target, mode, tables.next_handle⟩ :: tables.outputs
          next_handle := tables.next_handle + 1 })
    else (none, tables)

/-- Every output of that name is closed, and only if there was none an input. -/
def qk_close_output (tables : StreamTables) (target : Text) : StreamTables :=
  if tables.outputs.any fun entry => entry.name == target then
    { tables with outputs := tables.outputs.filter fun entry => !(entry.name == target) }
  else { tables with inputs := quawk.qk_close_input tables.inputs target }

/-- What a program does to its streams. A redirected `print` opens its target, then evaluates and writes its
arguments, which may do anything here, and then is over. -/
inductive StreamOperation where
  | open_output (target : Text) (mode : OutputMode) (opens : Bool)
  | write_output (text : Text)
  | print_done
  | getline_file (separator : Char) (target : Text) (opened : Option Stream)
  | close (target : Text)
  deriving Repr

def StreamOperation.apply (tables : StreamTables) : StreamOperation → StreamTables
  | .open_output target mode opens =>
    let (handle, tables) := qk_open_output tables target mode opens
    { tables with running := ⟨target, mode, handle⟩ :: tables.running }
  | .write_output text =>
    match tables.running with
    | ⟨_, _, some handle⟩ :: _ => { tables with written := tables.written ++ [(handle, text)] }
    | _ => tables
  | .print_done => { tables with running := tables.running.tail }
  | .getline_file separator target opened =>
    match qk_open_input tables.inputs target opened with
    | none => tables
    | some inputs =>
      match (qk_find_input inputs target).bind fun entry => qk_read_record separator entry.stream with
      | none => { tables with inputs }
      | some (_, rest) => { tables with inputs := read_on target (rest.getD []) inputs }
  | .close target => qk_close_output tables target

def run_streams (operations : List StreamOperation) : StreamTables :=
  operations.foldl StreamOperation.apply stream_tables_start

/-- At most one entry for each target and mode, and at most one for each input name. -/
structure UniqueEntries (tables : StreamTables) : Prop where
  outputs : (tables.outputs.map fun entry => (entry.name, entry.mode)).Nodup
  inputs : (tables.inputs.map InputEntry.name).Nodup

/-- An input or output is open under this name. -/
def OpenUnder (tables : StreamTables) (target : Text) : Prop :=
  (∃ entry ∈ tables.outputs, entry.name = target) ∨ ∃ entry ∈ tables.inputs, entry.name = target

/-- The law of one operation: a target that is open is used as it is, another is opened afresh; a write goes to
the handle open for the target of its `print`, after all earlier ones; nothing of a name closed stays open. -/
def StreamLaw (tables : StreamTables) : StreamOperation → Prop
  | .open_output target mode opens =>
    (∀ entry ∈ tables.outputs, entry.name = target → entry.mode = mode →
      qk_open_output tables target mode opens = (some entry.handle, tables)) ∧
    ((∀ entry ∈ tables.outputs, entry.name = target → entry.mode ≠ mode) →
      (qk_open_output tables target mode opens).1 = (if opens then some tables.next_handle else none) ∧
        ∀ write ∈ tables.written, write.1 ≠ tables.next_handle)
  | .write_output text => ∀ print handle, tables.running.head? = some print → print.handle = some handle →
      ⟨print.target, print.mode, handle⟩ ∈ tables.outputs ∧
      ((StreamOperation.write_output text).apply tables).written = tables.written ++ [(handle, text)]
  | .print_done => True
  | .getline_file separator target opened =>
    let after := (StreamOperation.getline_file separator target opened).apply tables
    (∀ entry ∈ tables.inputs, entry.name = target → ∃ stream, ⟨target, stream⟩ ∈ after.inputs ∧
      stream.rest = (((qk_read_record separator entry.stream).map fun read => read.2.getD []).getD entry.stream.rest)) ∧
    ((∀ entry ∈ tables.inputs, entry.name ≠ target) → ∀ contents, opened = some contents →
      ∃ stream, ⟨target, stream⟩ ∈ after.inputs ∧
        stream.rest = (((qk_read_record separator contents).map fun read => read.2.getD []).getD contents.rest))
  | .close target =>
    ¬ OpenUnder ((StreamOperation.close target).apply tables) target ∧
    (∀ entry ∈ tables.outputs, entry.name ≠ target → entry ∈ ((StreamOperation.close target).apply tables).outputs) ∧
    (∀ entry ∈ tables.inputs, entry.name ≠ target → entry ∈ ((StreamOperation.close target).apply tables).inputs)

/-- A name is closed while no `print` to it is being executed, and while it is not open for both output and
input. -/
def ClosesSafely (tables : StreamTables) : StreamOperation → Prop
  | .close target => (∀ print ∈ tables.running, print.target ≠ target) ∧
      ¬ ((∃ entry ∈ tables.outputs, entry.name = target) ∧ ∃ entry ∈ tables.inputs, entry.name = target)
  | _ => True

section Find

variable {tables : StreamTables} {target : Text} {mode : OutputMode} {inputs : List InputEntry}

theorem find_output_some {entry : OutputEntry} (h : qk_find_output tables target mode = some entry) :
    entry ∈ tables.outputs ∧ entry.name = target ∧ entry.mode = mode := by
  have hfound := List.find?_some h
  simp only [Bool.and_eq_true, beq_iff_eq] at hfound
  exact ⟨List.mem_of_find?_eq_some h, hfound.2, hfound.1⟩

theorem find_output_none (h : qk_find_output tables target mode = none) :
    ∀ entry ∈ tables.outputs, entry.name = target → entry.mode ≠ mode := by
  intro entry hmem hname hmode
  have hfound := List.find?_eq_none.mp h entry hmem
  simp [hname, hmode] at hfound

theorem find_input_some {entry : InputEntry} (h : qk_find_input inputs target = some entry) :
    entry ∈ inputs ∧ entry.name = target :=
  ⟨List.mem_of_find?_eq_some h, by simpa using List.find?_some h⟩

theorem find_input_none (h : qk_find_input inputs target = none) : ∀ entry ∈ inputs, entry.name ≠ target := by
  intro entry hmem hname
  have hfound := List.find?_eq_none.mp h entry hmem
  simp [hname] at hfound

theorem UniqueEntries.find_output (h : UniqueEntries tables) {entry : OutputEntry} (hmem : entry ∈ tables.outputs)
    (hname : entry.name = target) (hmode : entry.mode = mode) : qk_find_output tables target mode = some entry := by
  cases hfind : qk_find_output tables target mode with
  | none => exact absurd hmode (find_output_none hfind entry hmem hname)
  | some found =>
    obtain ⟨hfound, hname', hmode'⟩ := find_output_some hfind
    have hsame : found = entry := List.inj_on_of_nodup_map h.outputs hfound hmem (by
      rw [hname, hname', hmode, hmode'])
    rw [hsame]

theorem find_input_unique (h : (inputs.map InputEntry.name).Nodup) {entry : InputEntry} (hmem : entry ∈ inputs)
    (hname : entry.name = target) : qk_find_input inputs target = some entry := by
  cases hfind : qk_find_input inputs target with
  | none => exact absurd hname (find_input_none hfind entry hmem)
  | some found =>
    obtain ⟨hfound, hname'⟩ := find_input_some hfind
    have hsame : found = entry := List.inj_on_of_nodup_map h hfound hmem (by rw [hname, hname'])
    rw [hsame]

@[simp]
theorem read_on_names (rest : Text) :
    (read_on target rest inputs).map InputEntry.name = inputs.map InputEntry.name := by
  induction inputs with
  | nil => rfl
  | cons entry inputs ih =>
    unfold read_on
    split_ifs
    · rfl
    · rw [List.map_cons, List.map_cons, ih]

theorem read_on_mem {rest : Text} {entry : InputEntry} (h : qk_find_input inputs target = some entry) :
    ⟨target, { entry.stream with rest }⟩ ∈ read_on target rest inputs := by
  induction inputs with
  | nil => cases h
  | cons first inputs ih =>
    unfold read_on
    unfold qk_find_input at h
    split_ifs with hname
    · rw [List.find?_cons, hname] at h
      obtain rfl := Option.some.inj h
      have htarget : first.name = target := by simpa using hname
      rw [← htarget]
      exact List.mem_cons_self
    · rw [List.find?_cons, eq_false_of_ne_true hname] at h
      exact List.mem_cons_of_mem _ (ih h)

theorem open_input_some {opened : Option Stream} {inputs' : List InputEntry}
    (h : qk_open_input inputs target opened = some inputs') (hunique : (inputs.map InputEntry.name).Nodup) :
    (inputs'.map InputEntry.name).Nodup ∧ ∃ entry, qk_find_input inputs' target = some entry := by
  obtain ⟨entry, hfind, rfl⟩ | ⟨stream, hfind, -, rfl⟩ := open_input_cases h
  · exact ⟨hunique, entry, hfind⟩
  · refine ⟨?_, ⟨target, stream⟩, by simp [qk_find_input]⟩
    rw [List.map_cons, List.nodup_cons]
    refine ⟨fun hmem => ?_, hunique⟩
    obtain ⟨entry, hentry, hname⟩ := List.mem_map.mp hmem
    exact find_input_none hfind entry hentry hname

end Find

theorem UniqueEntries.apply {tables : StreamTables} (h : UniqueEntries tables) (operation : StreamOperation) :
    UniqueEntries (operation.apply tables) := by
  cases operation with
  | open_output target mode opens =>
    simp only [StreamOperation.apply, qk_open_output]
    cases hfind : qk_find_output tables target mode with
    | some entry => exact ⟨h.outputs, h.inputs⟩
    | none =>
      cases opens with
      | false => exact ⟨h.outputs, h.inputs⟩
      | true =>
        refine ⟨?_, h.inputs⟩
        simp only [if_true, List.map_cons, List.nodup_cons]
        refine ⟨fun hmem => ?_, h.outputs⟩
        obtain ⟨entry, hentry, hkey⟩ := List.mem_map.mp hmem
        obtain ⟨hname, hmode⟩ := Prod.mk.inj hkey
        exact find_output_none hfind entry hentry hname hmode
  | write_output text =>
    simp only [StreamOperation.apply]
    split <;> exact ⟨h.outputs, h.inputs⟩
  | print_done => exact ⟨h.outputs, h.inputs⟩
  | getline_file separator target opened =>
    simp only [StreamOperation.apply]
    cases hopen : qk_open_input tables.inputs target opened with
    | none => exact h
    | some inputs =>
      have hunique := (open_input_some hopen h.inputs).1
      dsimp only
      split
      · exact ⟨h.outputs, hunique⟩
      · exact ⟨h.outputs, by simpa using hunique⟩
  | close target =>
    simp only [StreamOperation.apply, qk_close_output]
    split_ifs
    · exact ⟨h.outputs.sublist (List.filter_sublist.map _), h.inputs⟩
    · exact ⟨h.outputs, h.inputs.sublist (List.eraseP_sublist.map _)⟩

theorem unique_entries_run (operations : List StreamOperation) : UniqueEntries (run_streams operations) := by
  induction operations using List.reverseRecOn with
  | nil => exact ⟨List.nodup_nil, List.nodup_nil⟩
  | append_singleton front operation ih =>
    rw [run_streams, List.foldl_append]
    exact ih.apply operation

/-- The handles are below the next one, and every `print` that is being executed has the handle of an entry. -/
structure HandlesOpen (tables : StreamTables) : Prop where
  outputs : ∀ entry ∈ tables.outputs, entry.handle < tables.next_handle
  written : ∀ write ∈ tables.written, write.1 < tables.next_handle
  running : ∀ print ∈ tables.running, ∀ handle, print.handle = some handle →
    ⟨print.target, print.mode, handle⟩ ∈ tables.outputs

theorem HandlesOpen.open_output {tables : StreamTables} (h : HandlesOpen tables) (target : Text)
    (mode : OutputMode) (opens : Bool) :
    HandlesOpen ((StreamOperation.open_output target mode opens).apply tables) := by
  simp only [StreamOperation.apply, qk_open_output]
  cases hfind : qk_find_output tables target mode with
  | some entry =>
    obtain ⟨hmem, rfl, rfl⟩ := find_output_some hfind
    refine ⟨h.outputs, h.written, fun print hprint handle hhandle => ?_⟩
    obtain rfl | hprint := List.mem_cons.mp hprint
    · obtain rfl := Option.some.inj hhandle
      exact hmem
    · exact h.running print hprint handle hhandle
  | none =>
    cases opens with
    | false =>
      refine ⟨h.outputs, h.written, fun print hprint handle hhandle => ?_⟩
      obtain rfl | hprint := List.mem_cons.mp hprint
      · cases hhandle
      · exact h.running print hprint handle hhandle
    | true =>
      refine ⟨fun entry hentry => ?_, fun write hwrite => Nat.lt_succ_of_lt (h.written write hwrite),
        fun print hprint handle hhandle => ?_⟩
      · obtain rfl | hentry := List.mem_cons.mp hentry
        · exact Nat.lt_succ_self _
        · exact Nat.lt_succ_of_lt (h.outputs entry hentry)
      · obtain rfl | hprint := List.mem_cons.mp hprint
        · obtain rfl := Option.some.inj hhandle
          exact List.mem_cons_self
        · exact List.mem_cons_of_mem _ (h.running print hprint handle hhandle)

theorem HandlesOpen.close {tables : StreamTables} (h : HandlesOpen tables) {target : Text}
    (hrunning : ∀ print ∈ tables.running, print.target ≠ target) :
    HandlesOpen ((StreamOperation.close target).apply tables) := by
  simp only [StreamOperation.apply, qk_close_output]
  split_ifs
  · refine ⟨fun entry hentry => h.outputs entry (List.mem_of_mem_filter hentry), h.written,
      fun print hprint handle hhandle => ?_⟩
    refine List.mem_filter.mpr ⟨h.running print hprint handle hhandle, ?_⟩
    simpa using hrunning print hprint
  · exact ⟨h.outputs, h.written, h.running⟩

theorem HandlesOpen.apply {tables : StreamTables} (h : HandlesOpen tables) {operation : StreamOperation}
    (hsafe : ClosesSafely tables operation) : HandlesOpen (operation.apply tables) := by
  cases operation with
  | open_output target mode opens => exact h.open_output target mode opens
  | close target => exact h.close hsafe.1
  | print_done => exact ⟨h.outputs, h.written, fun print hprint => h.running print (List.mem_of_mem_tail hprint)⟩
  | getline_file separator target opened =>
    simp only [StreamOperation.apply]
    split
    · exact h
    · split <;> exact ⟨h.outputs, h.written, h.running⟩
  | write_output text =>
    simp only [StreamOperation.apply]
    split
    · rename_i target mode handle rest hrunning
      refine ⟨h.outputs, fun write hwrite => ?_, h.running⟩
      obtain hwrite | hwrite := List.mem_append.mp hwrite
      · exact h.written write hwrite
      · obtain rfl := List.mem_singleton.mp hwrite
        have hentry := h.running ⟨target, mode, some handle⟩ (by rw [hrunning]; exact List.mem_cons_self) handle rfl
        exact h.outputs _ hentry
    · exact h

/-- What is read next from a file that was found. -/
theorem getline_reads {tables : StreamTables} {separator : Char} {target : Text} {opened : Option Stream}
    {inputs : List InputEntry} {entry : InputEntry} (hopen : qk_open_input tables.inputs target opened = some inputs)
    (hfind : qk_find_input inputs target = some entry) :
    ∃ stream, ⟨target, stream⟩ ∈ ((StreamOperation.getline_file separator target opened).apply tables).inputs ∧
      stream.rest =
        (((qk_read_record separator entry.stream).map fun read => read.2.getD []).getD entry.stream.rest) := by
  simp only [StreamOperation.apply, hopen, hfind, Option.bind_some]
  cases hread : qk_read_record separator entry.stream with
  | none =>
    obtain ⟨hmem, hname⟩ := find_input_some hfind
    exact ⟨entry.stream, hname ▸ hmem, rfl⟩
  | some read => exact ⟨_, read_on_mem hfind, rfl⟩

theorem close_input_unique {inputs : List InputEntry} (h : (inputs.map InputEntry.name).Nodup) (target : Text) :
    ∀ entry ∈ quawk.qk_close_input inputs target, entry.name ≠ target := by
  induction inputs with
  | nil => exact fun _ hmem => nomatch hmem
  | cons first inputs ih =>
    rw [List.map_cons, List.nodup_cons] at h
    unfold quawk.qk_close_input
    intro entry hmem
    by_cases hname : first.name = target
    · rw [List.eraseP_cons_of_pos (by simpa using hname)] at hmem
      exact fun heq => h.1 (by rw [hname, ← heq]; exact List.mem_map_of_mem hmem)
    · rw [List.eraseP_cons_of_neg (by simpa using hname)] at hmem
      obtain rfl | hmem := List.mem_cons.mp hmem
      · exact hname
      · exact ih h.2 entry hmem

/-- Closing a name leaves nothing open under it exactly where it is not open for both output and input. -/
theorem close_law_iff {tables : StreamTables} (h : UniqueEntries tables) (target : Text) :
    StreamLaw tables (.close target) ↔
      ¬ ((∃ entry ∈ tables.outputs, entry.name = target) ∧ ∃ entry ∈ tables.inputs, entry.name = target) := by
  by_cases hany : tables.outputs.any fun entry => entry.name == target
  · have hafter : (StreamOperation.close target).apply tables =
        { tables with outputs := tables.outputs.filter fun entry => !(entry.name == target) } := by
      simp only [StreamOperation.apply, qk_close_output, hany, if_true]
    obtain ⟨output, houtput, hname⟩ := List.any_eq_true.mp hany
    have hname : output.name = target := by simpa using hname
    simp only [StreamLaw, OpenUnder, hafter]
    constructor
    · intro ⟨hclosed, _⟩ ⟨_, hinput⟩
      exact hclosed (Or.inr hinput)
    · intro hboth
      refine ⟨?_, fun entry hmem hne => List.mem_filter.mpr ⟨hmem, by simpa using hne⟩, fun _ hmem _ => hmem⟩
      intro hopen
      obtain ⟨entry, hmem, heq⟩ | hinput := hopen
      · simpa [heq] using (List.mem_filter.mp hmem).2
      · exact hboth ⟨⟨output, houtput, hname⟩, hinput⟩
  · have hafter : (StreamOperation.close target).apply tables =
        { tables with inputs := quawk.qk_close_input tables.inputs target } := by
      simp only [StreamOperation.apply, qk_close_output, hany, Bool.false_eq_true, if_false]
    have hnone : ∀ entry ∈ tables.outputs, entry.name ≠ target := fun entry hmem heq =>
      hany (List.any_eq_true.mpr ⟨entry, hmem, by simpa using heq⟩)
    simp only [StreamLaw, OpenUnder, hafter]
    refine iff_of_true ⟨?_, fun _ hmem _ => hmem, fun entry hmem hne => ?_⟩ ?_
    · intro hopen
      obtain ⟨entry, hmem, heq⟩ | ⟨entry, hmem, heq⟩ := hopen
      · exact hnone entry hmem heq
      · exact close_input_unique h.inputs target entry hmem heq
    · exact (List.mem_eraseP_of_neg (by simpa using hne)).mpr hmem
    · exact fun hboth => hboth.1.elim fun entry hentry => hnone entry hentry.1 hentry.2

theorem stream_law {tables : StreamTables} (hunique : UniqueEntries tables) (hhandles : HandlesOpen tables)
    {operation : StreamOperation} (hsafe : ClosesSafely tables operation) : StreamLaw tables operation := by
  cases operation with
  | close target => exact (close_law_iff hunique target).mpr hsafe.2
  | print_done => trivial
  | open_output target mode opens =>
    refine ⟨fun entry hmem hname hmode => ?_, fun hnone => ⟨?_, fun write hwrite => ?_⟩⟩
    · simp only [qk_open_output, hunique.find_output hmem hname hmode]
    · cases hfind : qk_find_output tables target mode with
      | some entry =>
        obtain ⟨hmem, hname, hmode⟩ := find_output_some hfind
        exact absurd hmode (hnone entry hmem hname)
      | none => cases opens <;> simp [qk_open_output, hfind]
    · exact Nat.ne_of_lt (hhandles.written write hwrite)
  | write_output text =>
    intro print handle hhead hhandle
    obtain ⟨target, mode, handle'⟩ := print
    obtain rfl : handle' = some handle := hhandle
    obtain ⟨rest, hrunning⟩ : ∃ rest, tables.running = ⟨target, mode, some handle⟩ :: rest := by
      obtain ⟨rest, hrest⟩ := List.head?_eq_some_iff.mp hhead
      exact ⟨rest, hrest⟩
    refine ⟨hhandles.running _ (by rw [hrunning]; exact List.mem_cons_self) handle rfl, ?_⟩
    simp only [StreamOperation.apply, hrunning]
  | getline_file separator target opened =>
    refine ⟨fun entry hmem hname => ?_, fun hnone contents hcontents => ?_⟩
    · have hfind := find_input_unique hunique.inputs hmem hname
      have hopen : qk_open_input tables.inputs target opened = some tables.inputs := by
        simp only [qk_open_input, hfind]
      exact getline_reads hopen hfind
    · have hfind : qk_find_input tables.inputs target = none :=
        List.find?_eq_none.mpr fun entry hmem => by simpa using hnone entry hmem
      have hopen : qk_open_input tables.inputs target opened = some (⟨target, contents⟩ :: tables.inputs) := by
        simp only [qk_open_input, hfind, hcontents, Option.map_some]
      have hfound : qk_find_input (⟨target, contents⟩ :: tables.inputs) target = some ⟨target, contents⟩ := by
        simp [qk_find_input]
      exact getline_reads hopen hfound

/-- Every step of the run closes safely. -/
def SafeRun (operations : List StreamOperation) : Prop :=
  ∀ front operation back, operations = front ++ operation :: back → ClosesSafely (run_streams front) operation

theorem SafeRun.of_append {front back : List StreamOperation} (h : SafeRun (front ++ back)) : SafeRun front := by
  intro before operation after heq
  exact h before operation (after ++ back) (by rw [heq, List.append_assoc, List.cons_append])

theorem handles_open_run (operations : List StreamOperation) (h : SafeRun operations) :
    HandlesOpen (run_streams operations) := by
  induction operations using List.reverseRecOn with
  | nil => exact ⟨fun _ hmem => (nomatch hmem), fun _ hmem => (nomatch hmem), fun _ hmem => (nomatch hmem)⟩
  | append_singleton front operation ih =>
    have hopen := (ih h.of_append).apply (h front operation [] rfl)
    rw [run_streams, List.foldl_append]
    exact hopen

/-- In every run the entries are unique, and closing a name closes all of it exactly where it is not open for
both output and input; a run whose steps all close safely obeys the law at every step. -/
theorem stream_tables_law (operations : List StreamOperation) :
    UniqueEntries (run_streams operations) ∧
    (∀ target, StreamLaw (run_streams operations) (.close target) ↔
      ¬ ((∃ entry ∈ (run_streams operations).outputs, entry.name = target) ∧
        ∃ entry ∈ (run_streams operations).inputs, entry.name = target)) ∧
    (SafeRun operations → ∀ front operation back, operations = front ++ operation :: back →
      StreamLaw (run_streams front) operation) := by
  refine ⟨unique_entries_run operations, close_law_iff (unique_entries_run operations), ?_⟩
  intro hsafe front operation back heq
  have hfront : SafeRun front := by
    rw [heq] at hsafe
    exact hsafe.of_append
  exact stream_law (unique_entries_run front) (handles_open_run front hfront) (hsafe front operation back heq)

/-- A print to `o`. -/
theorem stream_tables_law_print :
    StreamLaw (run_streams [.open_output ['o'] .write true]) (.write_output ['x']) := by
  refine (stream_tables_law [.open_output ['o'] .write true, .write_output ['x']]).2.2 ?_ _ _ [] rfl
  intro front operation back heq
  have hmem : operation ∈ [StreamOperation.open_output ['o'] .write true, .write_output ['x']] := by
    rw [heq]
    exact List.mem_append_right _ List.mem_cons_self
  obtain rfl | hmem := List.mem_cons.mp hmem
  · trivial
  · obtain rfl := List.mem_singleton.mp hmem
    trivial

/-- `t` is written and then read: closing it leaves the input open. -/
theorem close_leaves_input :
    ¬ ∀ operations target, StreamLaw (run_streams operations) (.close target) := by
  intro h
  have hlaw := (h [.open_output ['t'] .write true, .print_done, .getline_file '\n' ['t'] (some ⟨['x'], false⟩)]
    ['t']).1
  exact hlaw (Or.inr ⟨⟨['t'], ⟨[], false⟩⟩, List.mem_cons_self, rfl⟩)

end quawk
