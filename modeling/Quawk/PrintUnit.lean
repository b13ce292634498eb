import Quawk.PrintSteps

namespace quawk

open TracedRun (Traced Allowed Outcome)
open TracedRun.Allowed (loosely)

section Statement

variable (R : ObservedRuntime) (state : LoweringState) (keys : Name → Option (Value R.Number .ptr))

/-- The value of an argument: the string or the number that is written. -/
inductive PrintedValue (Number : Type) where
  | text (text : Option Text)
  | number (number : Number)

/-- The code of an argument. -/
def argument_code (argument : Lowered (Value R.Number)) : Code (Value R.Number) (PrintedValue R.Number) :=
  if runtime_expression_has_string_result state argument.expression then
    argument.string >>= fun string_value => pure (.text string_value)
  else argument.numeric >>= fun numeric_value => pure (.number numeric_value)

def argument_run (argument : Expr) : Traced R.State R.Event (PrintedValue R.Number) :=
  R.observe (argument_code R state (lower_expression state keys argument))

/-- The current record, which is printed where there are no arguments. -/
def record_run : Traced R.State R.Event (Option Text) := R.observe (load_current_record : Code (Value R.Number) (Option Text))

/-- Writing to the standard output. -/
def print_output : PrintStep (PrintedValue R.Number) → Traced R.State R.Event Unit
  | .opening _ => pure ()
  | .record text => R.perform .qk_print_string (text, ())
  | .value (.text text) => R.perform .qk_print_string_fragment (text, ())
  | .value (.number number) => R.perform .qk_print_number_fragment (number, ())
  | .separator => R.perform .qk_print_output_separator ()
  | .record_separator => R.perform .qk_print_output_record_separator ()

/-- Writing to a redirected stream. -/
def write_output (handle : Value R.Number .handle) : PrintStep (PrintedValue R.Number) → Traced R.State R.Event Unit
  | .opening _ => pure ()
  | .record text => R.perform .qk_write_output_string (handle, text, ())
  | .value (.text text) => R.perform .qk_write_output_string (handle, text, ())
  | .value (.number number) => R.perform .qk_write_output_number (handle, number, ())
  | .separator => R.perform .qk_write_output_separator (handle, ())
  | .record_separator => R.perform .qk_write_output_record_separator (handle, ())

def open_output_run (kind : OutputRedirectKind) (name : Option Text) : Traced R.State R.Event Nat :=
  R.perform (.qk_open_output (output_redirect_mode_value kind)) (name, ())

/-- The runs of the arguments; without arguments there is the current record. -/
def argument_runs : List Expr → List (Traced R.State R.Event (PrintedValue R.Number))
  | [] => [record_run R >>= fun text => pure (.text text)]
  | arguments => arguments.map (argument_run R state keys)

/-- The run of a `print` statement, with every event marked by the part it comes from. -/
def marked_print (arguments : List Expr) :
    Option OutputRedirect → Traced R.State (PrintMark (PrintedValue R.Number) R.Event) Unit
  | some redirect =>
    redirected_run (open_output_run R redirect.kind) (R.observe (lower_expression state keys redirect.target).string)
      (write_output R) (argument_runs R state keys arguments)
  | none =>
    match arguments with
    | [] => (record_run R).mark .argument >>= fun text => write_step (print_output R) (.record text)
    | arguments => line_run (print_output R) (argument_runs R state keys arguments)

/-- A `print` statement as one unit. -/
def unit_print (arguments : List Expr) :
    Option OutputRedirect → Allowed R.State (PrintMark (PrintedValue R.Number) R.Event) Unit
  | some redirect =>
    unit_redirected R.same_world (open_output_run R redirect.kind)
      (R.observe (lower_expression state keys redirect.target).string) (write_output R)
      (argument_runs R state keys arguments)
  | none =>
    match arguments with
    | [] =>
      loosely R.same_world ((record_run R).mark .argument) >>= fun text =>
        loosely R.same_world (write_step (print_output R) (.record text))
    | arguments => unit_line R.same_world (print_output R) (argument_runs R state keys arguments)

/-- The statement evaluates all its arguments and its target, and then writes their values. -/
def PrintsAsUnit (arguments : List Expr) (redirect : Option OutputRedirect) (start : R.State) : Prop :=
  R.observe (lower_runtime_print_statement state (lower_expressions state keys arguments)
      (redirect.map fun redirect => (redirect.kind, lower_expression state keys redirect.target))) =
    Traced.spelled Traced.unmarked (marked_print R state keys arguments redirect) ∧
  unit_print R state keys arguments redirect start (marked_print R state keys arguments redirect start)

/-- The arguments that are evaluated between the writes are without effects, and of a redirected line they give the
same before the target is evaluated. -/
def QuietArguments (arguments : List Expr) (redirect : Option OutputRedirect) (start : R.State) : Prop :=
  match redirect, arguments with
  | none, [] => True
  | none, argument :: rest => ∀ value, (argument_run R state keys argument start).result = .value value →
      ∃ values, MoreGive (print_output R) (rest.map (argument_run R state keys))
        (print_output R (.value value) (argument_run R state keys argument start).state).state values
  | some redirect, arguments =>
    let target := R.observe (lower_expression state keys redirect.target).string
    ∃ values, ArgumentsGive R.same_world (argument_runs R state keys arguments) start values ∧
      ∀ name handle, (target start).result = .value name →
        (open_output_run R redirect.kind name (target start).state).result = .value handle →
          LineGives (write_output R handle) (argument_runs R state keys arguments)
            (open_output_run R redirect.kind name (target start).state).state values

variable {R} {state} {keys}

theorem observe_emit_void {types : List Ty} (f : Op types .unit)
    (operands : StructuredCode.Operands (Value R.Number) types) :
    R.observe (emit_void f operands) = R.perform f operands := Traced.bind_pure _

/-- The lines of the generated code, for one way of writing. -/
theorem observe_fragment {write : PrintStep (PrintedValue R.Number) → Traced R.State R.Event Unit}
    {write_string : Option Text → Code (Value R.Number) Unit} {write_number : R.Number → Code (Value R.Number) Unit}
    (hstring : ∀ text, R.observe (write_string text) = write (.value (.text text)))
    (hnumber : ∀ number, R.observe (write_number number) = write (.value (.number number))) (argument : Expr) :
    R.observe (if runtime_expression_has_string_result state (lower_expression state keys argument).expression then
        (lower_expression state keys argument).string >>= write_string
      else (lower_expression state keys argument).numeric >>= write_number) =
      argument_run R state keys argument >>= fun value => write (.value value) := by
  unfold argument_run argument_code
  split
  · simp only [ObservedRuntime.observe_bind, Traced.bind_assoc, hstring]
    rfl
  · simp only [ObservedRuntime.observe_bind, Traced.bind_assoc, hnumber]
    rfl

theorem observe_print_fragments (arguments : List Expr) :
    R.observe (lower_runtime_print_fragments state (lower_expressions state keys arguments)) =
      Traced.spelled Traced.unmarked (fragments (print_output R) (arguments.map (argument_run R state keys))) := by
  have hfragment : ∀ argument, R.observe (lower_runtime_print_fragment state (lower_expression state keys argument)) =
      argument_run R state keys argument >>= fun value => print_output R (.value value) := fun argument =>
    observe_fragment (fun _ => observe_emit_void ..) (fun _ => observe_emit_void ..) argument
  induction arguments with
  | nil => rfl
  | cons argument rest ih =>
    cases rest with
    | nil => exact (hfragment argument).trans (spelled_fragments_singleton _).symm
    | cons other rest =>
      rw [List.map_cons, List.map_cons, spelled_fragments_cons, ← List.map_cons, ← ih]
      simp only [lower_expressions, lower_runtime_print_fragments, ObservedRuntime.observe_bind, hfragment,
        observe_emit_void, Traced.bind_assoc]
      rfl

theorem observe_output_fragments (handle : Nat) (arguments : List Expr) :
    R.observe (lower_runtime_output_fragments state handle (lower_expressions state keys arguments)) =
      Traced.spelled Traced.unmarked (fragments (write_output R handle) (arguments.map (argument_run R state keys))) := by
  have hfragment : ∀ argument,
      R.observe (lower_runtime_output_fragment state handle (lower_expression state keys argument)) =
        argument_run R state keys argument >>= fun value => write_output R handle (.value value) := fun argument =>
    observe_fragment (fun _ => observe_emit_void ..) (fun _ => observe_emit_void ..) argument
  induction arguments with
  | nil => rfl
  | cons argument rest ih =>
    cases rest with
    | nil => exact (hfragment argument).trans (spelled_fragments_singleton _).symm
    | cons other rest =>
      rw [List.map_cons, List.map_cons, spelled_fragments_cons, ← List.map_cons, ← ih]
      simp only [lower_expressions, lower_runtime_output_fragments, ObservedRuntime.observe_bind, hfragment,
        observe_emit_void, Traced.bind_assoc]
      rfl

/-- The code of a `print` statement is run as its parts are. -/
theorem observe_print (arguments : List Expr) (redirect : Option OutputRedirect) :
    R.observe (lower_runtime_print_statement state (lower_expressions state keys arguments)
      (redirect.map fun redirect => (redirect.kind, lower_expression state keys redirect.target))) =
    Traced.spelled Traced.unmarked (marked_print R state keys arguments redirect) := by
  cases redirect with
  | none =>
    cases arguments with
    | nil =>
      simp only [marked_print, lower_expressions, lower_runtime_print_statement, Option.map_none,
        ObservedRuntime.observe_bind, observe_emit_void, Traced.spelled_bind, Traced.spelled_mark, spelled_write_step]
      rfl
    | cons argument rest =>
      simp only [marked_print, lower_expressions, lower_runtime_print_statement, Option.map_none, line_run,
        ObservedRuntime.observe_bind, observe_emit_void, Traced.spelled_bind, spelled_write_step]
      rw [← lower_expressions, observe_print_fragments]
      rfl
  | some redirect =>
    have hopen : ∀ name, R.observe (StructuredCode.Code.emit
        (Op.qk_open_output (output_redirect_mode_value redirect.kind)) (name, ())) =
          open_output_run R redirect.kind name := fun name => ObservedRuntime.observe_emit ..
    cases arguments with
    | nil =>
      simp only [marked_print, lower_expressions, lower_runtime_print_statement, Option.map_some, redirected_run, line_run,
        argument_runs, ObservedRuntime.observe_bind, observe_emit_void, Traced.spelled_bind, Traced.spelled_mark,
        Traced.spelled_announce, spelled_write_step, spelled_fragments_singleton, hopen, Traced.bind_assoc]
      rfl
    | cons argument rest =>
      simp only [marked_print, lower_expressions, lower_runtime_print_statement, Option.map_some, redirected_run, line_run,
        argument_runs, ObservedRuntime.observe_bind, observe_emit_void, Traced.spelled_bind, Traced.spelled_mark,
        Traced.spelled_announce, spelled_write_step, hopen]
      rw [← lower_expressions]
      simp only [observe_output_fragments]
      rfl

theorem writes_out_returns {types : List Ty} (f : Op types .unit)
    (operands : StructuredCode.Operands (Value R.Number) types) (hf : f.writes_out = true) (before : R.State) :
    (R.perform f operands before).result = .value () ∧ R.same_world before (R.perform f operands before).state := by
  obtain ⟨⟨value, hvalue⟩, hstate⟩ := R.writes_return f operands before hf
  exact ⟨hvalue, hstate⟩

theorem print_output_returns : WritesReturn R.same_world (print_output R) := by
  intro step before
  cases step with
  | opening target => exact ⟨rfl, rfl⟩
  | value value => cases value <;> exact writes_out_returns _ _ rfl before
  | _ => exact writes_out_returns _ _ rfl before

theorem write_output_returns (handle : Nat) : WritesReturn R.same_world (write_output R handle) := by
  intro step before
  cases step with
  | opening target => exact ⟨rfl, rfl⟩
  | value value => cases value <;> exact writes_out_returns _ _ rfl before
  | _ => exact writes_out_returns _ _ rfl before

theorem argument_runs_quiet (arguments : List Expr) :
    ∀ run ∈ argument_runs R state keys arguments, run.Quiet R.same_world := by
  intro run hrun
  cases arguments with
  | nil =>
    obtain rfl := List.mem_singleton.mp hrun
    exact (ObservedRuntime.observe_quiet _).bind ObservedRuntime.same_world_equivalence fun _ =>
      .pure ObservedRuntime.same_world_equivalence _
  | cons argument rest =>
    obtain ⟨other, -, rfl⟩ := List.mem_map.mp hrun
    exact ObservedRuntime.observe_quiet _

end Statement

/-- A program with a function `f`. -/
def one_function : LoweringState := { no_variables with function_defs := [⟨"f", [], []⟩] }

example : (small_runtime.observe (lower_runtime_print_statement one_function
    (lower_expressions one_function (fun _ => none) [.string_literal ['a'], .call "f" []]) none) ([], ())).events =
      [['a'], [' '], ['x'], ['1'], ['\n']] := rfl

end quawk
