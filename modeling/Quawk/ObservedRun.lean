import Quawk.Execution
import Quawk.Lib.TracedRun

namespace quawk

open StructuredCode (Operands)
open TracedRun (Traced)

/-- The operations that only write out. -/
def Op.writes_out : {types : List Ty} → {type : Ty} → Op types type → Bool
  | _, _, .qk_print_string | _, _, .qk_print_string_fragment | _, _, .qk_print_number_fragment
  | _, _, .qk_print_output_separator | _, _, .qk_print_output_record_separator | _, _, .qk_open_output _
  | _, _, .qk_write_output_string | _, _, .qk_write_output_number | _, _, .qk_write_output_separator
  | _, _, .qk_write_output_record_separator => true
  | _, _, _ => false

/-- The runtime library and the user functions, as the code sees them that calls them: what an operation gives, what
it changes, and the events that are noticed of it. `World` is all that the program can tell apart, and an operation
without events leaves it as it is; `Scratch` is memory of the code's own, such as result slots and the argument arrays
of `qk_sprintf`, and the output streams with what has been written to them. -/
structure ObservedRuntime where
  Number : Type
  World : Type
  Scratch : Type
  Event : Type
  perform : {types : List Ty} → {type : Ty} → Op types type → Operands (Value Number) types →
    Traced (World × Scratch) Event (Value Number type)
  silent : ∀ {types : List Ty} {type : Ty} (f : Op types type) (operands : Operands (Value Number) types),
    Traced.Quiet (fun before after => before.1 = after.1) (perform f operands)
  writes_return : ∀ {types : List Ty} {type : Ty} (f : Op types type) (operands : Operands (Value Number) types)
    (state : World × Scratch), f.writes_out = true →
      (∃ value, (perform f operands state).result = .value value) ∧ state.1 = (perform f operands state).state.1
  select_double : ∀ (test : Bool) (if_true if_false : Number),
    perform .select_double (test, if_true, if_false, ()) = pure (if test then if_true else if_false)
  select_i1 : ∀ test if_true if_false : Bool,
    perform .select_i1 (test, if_true, if_false, ()) = pure (if test then if_true else if_false)

namespace ObservedRuntime

variable (R : ObservedRuntime)

abbrev State : Type := R.World × R.Scratch

/-- Two states the program cannot tell apart. -/
def same_world (before after : R.State) : Prop := before.1 = after.1

/-- Run code, and keep its events. -/
def observe {α : Type} : Code (Value R.Number) α → Traced R.State R.Event α
  | .done value => pure value
  | .op f operands next => R.perform f operands >>= fun result => observe (next result)
  | .note _ next => observe next
  | .choice _ condition if_true if_false next =>
    (if condition then observe if_true else observe if_false) >>= fun result => observe (next result)
  | .short_circuit decided _ condition right next =>
    (if condition = decided then pure decided else observe right) >>= fun result => observe (next result)
  | .guarded _ condition body next => (if condition then observe body else pure ()) >>= fun _ => observe next
  | .attempt first handler next =>
    ((observe first).attempt fun message => observe (handler message)) >>= fun result => observe (next result)
  | .raise message => Traced.stop (.raised message)
  | .crash => Traced.stop .crashed

variable {R} {α β : Type}

theorem observe_bind (code : Code (Value R.Number) α) (next : α → Code (Value R.Number) β) :
    R.observe (code >>= next) = R.observe code >>= fun value => R.observe (next value) := by
  change R.observe (code.bind next) = _
  induction code with
  | done value => rfl
  | note mark rest ih => exact ih next
  | op f operands rest ih
  | choice test condition if_true if_false rest _ _ ih
  | short_circuit decided left condition right rest _ ih
  | attempt first handler rest _ _ ih =>
    simp only [StructuredCode.Code.bind, observe, ih]
    exact (Traced.bind_assoc ..).symm
  | guarded test condition body rest _ ih =>
    simp only [StructuredCode.Code.bind, observe, ih]
    exact (Traced.bind_assoc ..).symm
  | raise | crash => rfl

theorem observe_emit {types : List Ty} {type : Ty} (f : Op types type) (operands : Operands (Value R.Number) types) :
    R.observe (StructuredCode.Code.emit f operands) = R.perform f operands := Traced.bind_pure _

theorem same_world_equivalence : Equivalence R.same_world :=
  ⟨fun _ => rfl, fun h => h.symm, fun h1 h2 => h1.trans h2⟩

/-- Code without events leaves the world as it is. -/
theorem observe_quiet (code : Code (Value R.Number) α) : Traced.Quiet R.same_world (R.observe code) := by
  have hpure {γ : Type} (value : γ) : Traced.Quiet R.same_world (Pure.pure value : Traced R.State R.Event γ) :=
    Traced.Quiet.pure same_world_equivalence value
  induction code with
  | done value => exact hpure value
  | op f operands next ih => exact (R.silent f operands).bind same_world_equivalence ih
  | note mark next ih => exact ih
  | choice test condition if_true if_false next ih_true ih_false ih =>
    refine Traced.Quiet.bind same_world_equivalence ?_ ih
    cases condition with
    | true => exact ih_true
    | false => exact ih_false
  | short_circuit decided left condition right next ih_right ih =>
    refine Traced.Quiet.bind same_world_equivalence ?_ ih
    by_cases h : condition = decided
    · rw [if_pos h]
      exact hpure decided
    · rw [if_neg h]
      exact ih_right
  | guarded test condition body next ih_body ih =>
    refine Traced.Quiet.bind same_world_equivalence ?_ fun _ => ih
    cases condition with
    | true => exact ih_body
    | false => exact hpure ()
  | attempt first handler next ih_first ih_handler ih =>
    exact (ih_first.attempt same_world_equivalence ih_handler).bind same_world_equivalence ih
  | raise message => exact fun state _ => same_world_equivalence.refl state
  | crash => exact fun state _ => same_world_equivalence.refl state

end ObservedRuntime

/-- Whole numbers, the records `getline` has still to read, and functions that print an `x` and return `1`. -/
def small_runtime : ObservedRuntime where
  Number := Int
  World := List Text
  Scratch := Unit
  Event := Text
  perform {_ type} f operands :=
    match f, operands with
    | .number value, _ => pure value.whole_number
    | .string_constant text, _ => pure (some text)
    | .fcmp .one, (left, right, _) => pure (left != right)
    | .select_double, (test, if_true, if_false, _) => pure (if test then if_true else if_false)
    | .select_i1, (test, if_true, if_false, _) => pure (if test then if_true else if_false)
    | .qk_fn _ _, _ => fun state => ⟨.value (some ['1']), state, [['x']]⟩
    | .qk_getline_main_record, _ => fun state =>
      match state.1 with
      | [] => ⟨.value (0 : Int), state, []⟩
      | record :: waiting => ⟨.value (1 : Int), (waiting, ()), [record]⟩
    | .qk_print_string_fragment, (text, _) => fun state => ⟨.value (), state, text.toList⟩
    | .qk_print_output_separator, _ => fun state => ⟨.value (), state, [[' ']]⟩
    | .qk_print_output_record_separator, _ => fun state => ⟨.value (), state, [['\n']]⟩
    | _, _ => pure (default_value type)
  silent f operands state hevents := by
    cases f
    case qk_getline_main_record =>
      obtain ⟨records, _⟩ := state
      cases records with
      | nil => rfl
      | cons record waiting => cases hevents
    case fcmp predicate => cases predicate <;> rfl
    all_goals rfl
  writes_return f _ _ hwrites := by
    cases f
    case qk_getline_main_record => cases hwrites
    case fcmp => cases hwrites
    all_goals exact ⟨⟨_, rfl⟩, rfl⟩
  select_double _ _ _ := rfl
  select_i1 _ _ _ := rfl

end quawk
