import Quawk.LowerStmt
import Quawk.StorageCoherence

open StructuredCode.Code (emit)

namespace quawk

open Numeral (qk_is_full_numeric_string qk_parse_awk_numeric_prefix)

section Loop

variable (formats : NumberFormats) (arithmetic : Arithmetic) (state : LoweringState) (name : Name)

/-- A moment of a run: the cells, the keys of the loops over the variable that are running, the innermost first, as far
as their entries are not freed; the value the variable was given last, and whether it was given one since the innermost
loop gave it its key. -/
structure Moment where
  cells : ScalarCells
  keys : List (Option Text)
  given : CellContent
  assigned : Bool

/-- What the pointer of the innermost loop points to. -/
def Moment.key (moment : Moment) : Option Text := moment.keys.head?.join

/-- Some entries are freed, and the pointers of the loops that stand at them have no key any more. -/
def FreesSome (keys after : List (Option Text)) : Prop :=
  List.Forall₂ (fun before now => now = before ∨ now = none) keys after

/-- A run of a program in which the name is the variable of loops, from any moment before them. -/
inductive LoopRun : Moment → Prop where
  | before (cells : ScalarCells) (given : CellContent) : LoopRun ⟨cells, [], given, true⟩
  /-- A loop starts, in the body of another one or not, and gives its variable the first key. -/
  | enter {moment : Moment} (key : Text) (hrun : LoopRun moment) :
    LoopRun { moment with keys := some key :: moment.keys, given := .string key, assigned := false }
  /-- The innermost loop gives its variable the next key. -/
  | turn {moment : Moment} {current : Option Text} {outer : List (Option Text)} (key : Text) (hrun : LoopRun moment)
    (hkeys : moment.keys = current :: outer) :
    LoopRun { moment with keys := some key :: outer, given := .string key, assigned := false }
  /-- The body gives the variable a value. -/
  | body {moment : Moment} (form : WriteForm) {value : CellContent} {after : ScalarCells}
    (hrun : LoopRun moment) (hkeys : moment.keys ≠ [])
    (hgives : form.Gives formats arithmetic (state.bind_loop_string name) name moment.cells (fun _ => none) value)
    (hwrite : run_cells formats arithmetic (form.code (state.bind_loop_string name) name) moment.cells =
      some ((), after)) :
    LoopRun { moment with cells := after, given := value, assigned := true }
  /-- A function, or the code before or behind the loop, gives the variable a value. -/
  | elsewhere {moment : Moment} (writer : LoweringState) (form : WriteForm) {value : CellContent}
    {after : ScalarCells} (hrun : LoopRun moment)
    (hgives : form.Gives formats arithmetic writer name moment.cells (fun _ => none) value)
    (hwrite : run_cells formats arithmetic (form.code writer name) moment.cells = some ((), after)) :
    LoopRun { moment with cells := after, given := value, assigned := true }
  /-- Something else is done; it may delete entries the loops stand at. -/
  | other {moment : Moment} (after : ScalarCells) {keys : List (Option Text)} (hrun : LoopRun moment)
    (hsame : ∀ cell ∈ name_cells state name, after cell = moment.cells cell) (hkeys : FreesSome moment.keys keys) :
    LoopRun { moment with cells := after, keys := keys }
  /-- The innermost loop ends; the one around it did not give the variable its value. -/
  | leave {moment : Moment} {current : Option Text} {outer : List (Option Text)} (hrun : LoopRun moment)
    (hkeys : moment.keys = current :: outer) : LoopRun { moment with keys := outer, assigned := true }

/-- Where the variable is read: by the body, or by other code (of a function that is called, or behind the loop). -/
inductive ReadPlace where
  | body
  | elsewhere (reader : LoweringState)

/-- What a read is used for. A subscript, an argument and an operand of a concatenation are strings; a comparison
reads both views. -/
inductive ReadUse where
  | string | numeric | truth | comparison

/-- The code of a read, with the pointer to the key of the loop. -/
def ReadPlace.code (key : Option Text) : ReadPlace → Lowered ReadValue
  | .body => lower_expression (state.bind_loop_string name) (fun other => if other = name then key else none) (.name name)
  | .elsewhere reader => lower_expression reader (fun _ => none) (.name name)

/-- The read sees the value. -/
def Sees (cells : ScalarCells) (lowered : Lowered ReadValue) (value : CellContent) : ReadUse → Prop
  | .string => run_read formats cells lowered.string [] = some (value.string_view formats, [])
  | .numeric => run_read formats cells lowered.numeric [] = some (value.number_view, [])
  | .truth =>
    (run_read formats cells lowered.condition []).map (fun result => (result.1.differs, result.2)) =
      some (value.truthy, [])
  | .comparison =>
    (∀ output, run_read formats cells lowered.string output = some (value.string_view formats, output)) ∧
      ∀ output, run_read formats cells lowered.numeric output = some (value.number_view, output)

/-- The number the body reads: that of the parameter, or of the scalar table, which the loop does not write. -/
def body_number (cells : ScalarCells) : Numeral.Value :=
  match state.param_slot name with
  | some slot => qk_parse_awk_numeric_prefix ((cells (.parameter slot)).string_view formats)
  | none => (cells (.entry name.toList)).number_view

/-- In the body, the pointer must have its key yet, which is the value's text unless another one was assigned, and the
number that was stored must be the value's; elsewhere, what was stored must be the value. -/
def ReadKept (moment : Moment) : ReadPlace → ReadUse → Prop
  | .body, .string =>
    ∃ key, moment.key = some key ∧ (moment.assigned = true → key = moment.given.string_view formats)
  | .body, .numeric => body_number formats state name moment.cells = moment.given.number_view
  | .body, .truth =>
    ∃ key, moment.key = some key ∧ (moment.assigned = true → (!key.isEmpty) = moment.given.truthy)
  | .body, .comparison =>
    (∃ key, moment.key = some key ∧ (moment.assigned = true → key = moment.given.string_view formats)) ∧
      body_number formats state name moment.cells = moment.given.number_view
  | .elsewhere reader, .string => home_text formats reader name moment.cells = moment.given.string_view formats
  | .elsewhere reader, .numeric => home_number formats reader name moment.cells = moment.given.number_view
  | .elsewhere reader, .truth => home_truth formats reader name moment.cells = moment.given.truthy
  | .elsewhere reader, .comparison =>
    home_text formats reader name moment.cells = moment.given.string_view formats ∧
      home_number formats reader name moment.cells = moment.given.number_view

/-- The body reads while a loop runs; other code knows the variable as one of the program. -/
def ReadPlace.Reads (moment : Moment) : ReadPlace → Prop
  | .body => moment.keys ≠ []
  | .elsewhere reader => ProgramScalar reader name

end Loop

variable {formats : NumberFormats} {arithmetic : Arithmetic} {state : LoweringState} {name : Name} {moment : Moment}

/-- Where nothing was assigned since, the variable has the key the innermost loop gave it. -/
theorem LoopRun.given_key (hrun : LoopRun formats arithmetic state name moment) (hassigned : moment.assigned = false) :
    ∃ key outer, moment.given = .string key ∧ (moment.keys = some key :: outer ∨ moment.keys = none :: outer) := by
  induction hrun with
  | before => cases hassigned
  | enter key => exact ⟨key, _, rfl, .inl rfl⟩
  | turn key => exact ⟨key, _, rfl, .inl rfl⟩
  | body => cases hassigned
  | elsewhere => cases hassigned
  | other after _ _ hkeys ih =>
    obtain ⟨key, outer, hgiven, hbefore⟩ := ih hassigned
    refine ⟨key, ?_⟩
    obtain hbefore | hbefore := hbefore <;> rw [hbefore] at hkeys
    all_goals
      obtain ⟨now, rest, hnow, -, hafter⟩ := List.forall₂_cons_left_iff.mp hkeys
      obtain rfl | rfl := hnow
      all_goals
        exact ⟨rest, hgiven, by simp [hafter]⟩
  | leave => cases hassigned

theorem bound_is_loop_string : (state.bind_loop_string name).is_loop_string_binding name = true := by
  simp [LoweringState.is_loop_string_binding, LoweringState.bind_loop_string]

theorem bound_not_scalar_runtime : runtime_name_uses_scalar_runtime (state.bind_loop_string name) name = false := by
  simp [runtime_name_uses_scalar_runtime, bound_is_loop_string]

theorem body_string (cells : ScalarCells) (key output : Text) :
    run_read formats cells (ReadPlace.body.code state name (some key)).string output = some (key, output) := by
  simp only [ReadPlace.code, lower_expression_name, lower_runtime_string_name, bound_is_loop_string, if_true,
    load_loop_string_binding]
  rfl

theorem body_numeric (hscalar : ProgramScalar state name) (cells : ScalarCells) (key : Option Text) (output : Text) :
    run_read formats cells (ReadPlace.body.code state name key).numeric output =
      some (body_number formats state name cells, output) := by
  obtain ⟨hnr, hfnr, hnf, -⟩ := hscalar.names
  simp only [ReadPlace.code, lower_expression_name]
  unfold lower_runtime_numeric_name body_number
  rw [if_neg hnr, if_neg hfnr, if_neg hnf]
  have hparams : (state.bind_loop_string name).param_slot name = state.param_slot name := rfl
  cases hslot : state.param_slot name with
  | some slot =>
    rw [if_pos (by simp [LoweringState.is_function_param_string, hparams, hslot]), run_read_bind,
      param_read (hparams.trans hslot), Option.bind_some]
    exact run_read_emit rfl rfl output
  | none =>
    have hindex : runtime_name_slot_index (state.bind_loop_string name) name = none := by
      simp [runtime_name_slot_index, bound_is_loop_string]
    rw [if_neg (by simp [LoweringState.is_function_param_string, hparams, hslot]),
      if_neg (by simp [hscalar.reusable, runtime_name_uses_numeric_slot_state, bound_not_scalar_runtime])]
    unfold lower_runtime_scalar_name lower_runtime_constant_string lower_runtime_current_number
    rw [run_read_emit_bind rfl rfl, hindex]
    exact run_read_emit rfl rfl output

/-- A pointer to a key that was freed gives no text. -/
theorem body_freed (cells : ScalarCells) (output : Text) :
    run_read formats cells (ReadPlace.body.code state name none).string output = none := by
  simp only [ReadPlace.code, lower_expression_name, lower_runtime_string_name, bound_is_loop_string, if_true,
    load_loop_string_binding]
  rfl

theorem body_freed_truth (cells : ScalarCells) :
    run_read formats cells (ReadPlace.body.code state name none).condition [] = none := by
  have htext : run_read formats cells (ReadPlace.body.code state name none).string [] = none := body_freed cells []
  simp only [ReadPlace.code, lower_expression_name] at htext ⊢
  unfold lower_condition_name lower_condition_default
  rw [if_neg (by simp [runtime_name_uses_only_scalar_runtime, bound_not_scalar_runtime]),
    if_pos (by simp [runtime_expression_is_known_string, bound_is_loop_string])]
  unfold lower_runtime_string_truthiness
  rw [run_read_bind, htext]
  rfl

theorem body_truth (cells : ScalarCells) (key : Text) :
    (run_read formats cells (ReadPlace.body.code state name (some key)).condition []).map
      (fun result => (result.1.differs, result.2)) = some (!key.isEmpty, []) := by
  have htext : run_read formats cells (ReadPlace.body.code state name (some key)).string [] = some (key, []) :=
    body_string cells key []
  simp only [ReadPlace.code, lower_expression_name] at htext ⊢
  unfold lower_condition_name lower_condition_default
  rw [if_neg (by simp [runtime_name_uses_only_scalar_runtime, bound_not_scalar_runtime]),
    if_pos (by simp [runtime_expression_is_known_string, bound_is_loop_string])]
  exact run_string_truth htext

/-- Nothing was assigned to `x`, and the loop `for (x in A)` gives it the key `5`. -/
def key_moment : Moment := ⟨initial_cells, [some ['5']], .string ['5'], false⟩

theorem key_run : LoopRun whole_formats sums mixed_scalars "x" key_moment := by
  have hbefore : LoopRun whole_formats sums mixed_scalars "x" ⟨initial_cells, [], .unset, true⟩ :=
    .before initial_cells .unset
  exact hbefore.enter ['5']

end quawk
