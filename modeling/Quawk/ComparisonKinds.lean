import Quawk.LowerViews
import Quawk.NumeralSyntax

open StructuredCode (Operands)

namespace quawk

open Numeral (qk_is_full_numeric_string)

/-- The ordered comparison of the code, which is false where an operand is no number. -/
def fcmp_one (left right : Numeral.Value) : Bool := left != .nan && right != .nan && left != right

/-- The numbers that are no different from 0 for the ordered comparison. -/
theorem fcmp_one_zero (value : Numeral.Value) : fcmp_one value (.finite 0) = false ↔ value = .finite 0 ∨ value = .nan := by
  cases value <;> simp [fcmp_one]

/-- A comparison that was made, with what it compared. -/
inductive Comparison where
  | numbers (left right : Numeral.Value)
  | strings (left right : Text)
  deriving DecidableEq

def qk_compare_values (left_string : Text) (left_number : Numeral.Value) (left_needs_numeric_check left_force_string : Bool)
    (right_string : Text) (right_number : Numeral.Value) (right_needs_numeric_check right_force_string : Bool) : Comparison :=
  if left_force_string || right_force_string then .strings left_string right_string
  else
    let left_numeric := !left_needs_numeric_check || qk_is_full_numeric_string left_string
    let right_numeric := !right_needs_numeric_check || qk_is_full_numeric_string right_string
    if left_numeric && right_numeric then .numbers left_number right_number
    else .strings left_string right_string

/-- A bit is a constant of the code, or what a comparison gave. -/
inductive ComparisonBit where
  | constant (value : Bool)
  | compared (comparison : Comparison)
  deriving DecidableEq

/-- The values of the code of a comparison. -/
abbrev ComparisonValue : Ty → Type
  | .ptr => Text
  | .double => Numeral.Value
  | .i1 => ComparisonBit
  | _ => Unit

/-- The instructions of a comparison; the operator itself does not matter here. -/
def comparison_op : {types : List Ty} → {type : Ty} → Op types type → Operands ComparisonValue types →
    Option (ComparisonValue type)
  | _, _, .qk_capture_string_arg_inline, (text, ()) => some text
  | _, _, .truth value, () => some (.constant value)
  | _, _, .word _, () => some ()
  | _, _, .fcmp _, (left, right, ()) => some (.compared (.numbers left right))
  | _, _, .qk_compare_strings_inline, (left, right, _, ()) => some (.compared (.strings left right))
  | _, _, .qk_compare_values_inline, (left_string, left_number, .constant left_check, .constant left_force,
      right_string, right_number, .constant right_check, .constant right_force, _, ()) =>
    some (.compared (qk_compare_values left_string left_number left_check left_force right_string right_number
      right_check right_force))
  | _, _, _, _ => none

def run_comparison {α : Type} : Code ComparisonValue α → Option α
  | .done value => some value
  | .op f operands next => (comparison_op f operands).bind fun value => run_comparison (next value)
  | .note _ next => run_comparison next
  | _ => none

/-- A value as a program got it: a number, a text that came from input (a field, a record, `getline`, a piece of
`split`, `-v`, `ENVIRON`, `ARGV`), or a string the program built (a constant, what a string operator or builtin
gives). Storing a value does not change what it is. -/
inductive ScalarValue where
  | number (value : Numeral.Value)
  | input (text : Text)
  | built (text : Text)

/-- The values that compare as numbers. -/
def ScalarValue.isNumeric : ScalarValue → Bool
  | .number _ => true
  | .input text => qk_is_full_numeric_string text
  | .built _ => false

/-- An operand of a comparison: the value that reaches it, the expression it comes from (a literal, an operator,
or a variable, element, parameter or function result it was stored in), and its two views. A string is kept as
it is; the text of a number is what `CONVFMT` makes of it. -/
structure ComparisonOperand where
  value : ScalarValue
  expression : Expr
  text : Text
  number : Numeral.Value
  keeps_text : match value with
    | .number _ => True
    | .input original | .built original => text = original

def ComparisonOperand.lowered (operand : ComparisonOperand) : Lowered ComparisonValue where
  expression := operand.expression
  numeric := pure operand.number
  string := pure operand.text
  condition := raise ""

section Kinds

variable (state : LoweringState)

/-- The comparison is numeric exactly when both operands are. -/
def KindsKept (op : BinaryOp) (left right : ComparisonOperand) : Prop :=
  run_comparison (lower_runtime_comparison state op left.lowered right.lowered) =
    some (.compared (if left.value.isNumeric && right.value.isNumeric then .numbers left.number right.number
      else .strings left.text right.text))

/-- What the code takes for a number: no expression that forces a string comparison, and one that is lowered as
a number, or has a text that looks numeric; between two operands it knows to be numeric it does not look. -/
def TakenForNumber (operand other : ComparisonOperand) : Bool :=
  !expression_forces_string_comparison operand.expression &&
    (!runtime_expression_has_string_result state operand.expression || qk_is_full_numeric_string operand.text ||
      (runtime_expression_is_definitely_numeric state operand.expression &&
        runtime_expression_is_definitely_numeric state other.expression))

/-- A built string, or input that does not look numeric, that is taken for a number. -/
def Blurred (operand other : ComparisonOperand) : Prop :=
  match operand.value with
  | .number _ => False
  | .input text => ¬ qk_is_full_numeric_string text ∧ TakenForNumber state operand other
  | .built _ => TakenForNumber state operand other

/-- A number, or input that looks numeric, that is not. -/
def Unreadable (operand other : ComparisonOperand) : Prop :=
  match operand.value with
  | .number _ => ¬ TakenForNumber state operand other
  | .input text => qk_is_full_numeric_string text ∧ ¬ TakenForNumber state operand other
  | .built _ => False

end Kinds

variable {state : LoweringState}

theorem blurred_iff {operand other : ComparisonOperand} :
    Blurred state operand other ↔ operand.value.isNumeric = false ∧ TakenForNumber state operand other = true := by
  unfold Blurred
  cases operand.value <;> simp [ScalarValue.isNumeric]

theorem unreadable_iff {operand other : ComparisonOperand} :
    Unreadable state operand other ↔ operand.value.isNumeric = true ∧ TakenForNumber state operand other = false := by
  unfold Unreadable
  cases operand.value <;> simp [ScalarValue.isNumeric]

/-- Which comparison the code makes, decided half when it is lowered and half when it is run. -/
theorem run_lower_runtime_comparison (op : BinaryOp) (left right : ComparisonOperand) :
    run_comparison (lower_runtime_comparison state op left.lowered right.lowered) =
      some (.compared
        (if expression_forces_string_comparison left.expression || expression_forces_string_comparison right.expression
        then .strings left.text right.text
        else if runtime_expression_is_definitely_numeric state left.expression &&
            runtime_expression_is_definitely_numeric state right.expression then .numbers left.number right.number
        else qk_compare_values left.text left.number (runtime_expression_has_string_result state left.expression)
          (expression_forces_string_comparison left.expression) right.text right.number
          (runtime_expression_has_string_result state right.expression)
          (expression_forces_string_comparison right.expression))) := by
  unfold lower_runtime_comparison
  change run_comparison
    (if (expression_forces_string_comparison left.expression ||
        expression_forces_string_comparison right.expression) = true then _
    else if (runtime_expression_is_definitely_numeric state left.expression &&
        runtime_expression_is_definitely_numeric state right.expression) = true then _ else _) = _
  by_cases hforced : (expression_forces_string_comparison left.expression ||
      expression_forces_string_comparison right.expression) = true
  · rw [if_pos hforced, if_pos hforced]
    rfl
  · rw [if_neg hforced, if_neg hforced]
    by_cases hdefinite : (runtime_expression_is_definitely_numeric state left.expression &&
        runtime_expression_is_definitely_numeric state right.expression) = true
    · rw [if_pos hdefinite, if_pos hdefinite]
      rfl
    · rw [if_neg hdefinite, if_neg hdefinite]
      rfl

theorem run_comparison_taken (op : BinaryOp) (left right : ComparisonOperand) :
    run_comparison (lower_runtime_comparison state op left.lowered right.lowered) =
      some (.compared (if TakenForNumber state left right && TakenForNumber state right left
        then .numbers left.number right.number else .strings left.text right.text)) := by
  rw [run_lower_runtime_comparison]
  unfold TakenForNumber qk_compare_values
  cases expression_forces_string_comparison left.expression
  · cases expression_forces_string_comparison right.expression
    · cases runtime_expression_is_definitely_numeric state left.expression <;>
        cases runtime_expression_is_definitely_numeric state right.expression <;> simp
    · simp
  · simp

/-- The places a value of any kind is stored in as a text: an element, a field, a parameter or variable that is not
kept as a number, and what a function returns. -/
inductive StoredAsText (state : LoweringState) : Expr → Prop
  | element (array_name : Name) (index : Expr) (extra_indexes : List Expr) :
      StoredAsText state (.array_index array_name index extra_indexes)
  | field (index : Expr) : StoredAsText state (.field index)
  | field_at (index : Nat) : StoredAsText state (.field_at index)
  | scalar {name : Name} (hname : name ∉ ["FILENAME", "NR", "FNR", "NF"])
      (hreusable : is_reusable_runtime_state_name name = false)
      (hnumeric : runtime_name_is_inferred_numeric state name = false ∨ state.is_function_param_string name = true)
      (htext : runtime_expression_has_string_result state (.name name) = true) : StoredAsText state (.name name)
  | call {function : Name} (args : List Expr) (huser : state.is_user_function function = true)
      (hbuiltin : function ∉ STRING_BUILTINS ++ NUMERIC_BUILTINS) : StoredAsText state (.call function args)

theorem StoredAsText.shape {expression : Expr} (h : StoredAsText state expression) :
    expression_forces_string_comparison expression = false ∧
      runtime_expression_has_string_result state expression = true ∧
      runtime_expression_is_definitely_numeric state expression = false := by
  cases h with
  | element | field | field_at => exact ⟨rfl, rfl, rfl⟩
  | @scalar name hname hreusable hnumeric htext =>
    simp only [List.mem_cons, List.not_mem_nil, or_false, not_or] at hname
    obtain ⟨hfilename, hnr, hfnr, hnf⟩ := hname
    refine ⟨by simp [expression_forces_string_comparison, hfilename], htext, ?_⟩
    obtain hnumeric | hparam := hnumeric
    · simp [runtime_expression_is_definitely_numeric, hnr, hfnr, hnf, hreusable, hnumeric]
    · simp [runtime_expression_is_definitely_numeric, hnr, hfnr, hnf, hreusable, runtime_name_uses_scalar_runtime,
        hparam]
  | @call function args huser hbuiltin =>
    rw [List.mem_append, not_or] at hbuiltin
    refine ⟨?_, ?_, ?_⟩
    · simpa [expression_forces_string_comparison] using hbuiltin.1
    · simp [runtime_expression_has_string_result, huser]
    · simp [runtime_expression_is_definitely_numeric, hbuiltin.2]

/-- Of a stored value only the text is left: a built string that looks numeric is blurred, no other value. -/
theorem StoredAsText.blurred_iff {operand other : ComparisonOperand}
    (h : StoredAsText state operand.expression) :
    Blurred state operand other ↔ ∃ text, operand.value = .built text ∧ qk_is_full_numeric_string text := by
  obtain ⟨hforces, hstring, hdefinite⟩ := h.shape
  have hkeeps := operand.keeps_text
  unfold Blurred TakenForNumber
  rw [hforces, hstring, hdefinite]
  cases hvalue : operand.value with
  | number value => simp
  | input text =>
    rw [hvalue] at hkeeps
    simp only at hkeeps
    simp [hkeeps]
  | built text =>
    rw [hvalue] at hkeeps
    simp only at hkeeps
    simp [hkeeps]

/-- A concatenation, the result of a string builtin and a constant that does not look numeric are no numbers. -/
theorem forced_not_blurred {operand other : ComparisonOperand}
    (h : expression_forces_string_comparison operand.expression = true) : ¬ Blurred state operand other := by
  rw [quawk.blurred_iff]
  simp [TakenForNumber, h]

/-- The kinds are kept exactly where no blurred operand meets one that is taken for a number, and no unreadable
one meets one that is a number. -/
theorem comparison_kinds_iff (state : LoweringState) (op : BinaryOp) (left right : ComparisonOperand) :
    KindsKept state op left right ↔
      (Blurred state left right → TakenForNumber state right left = false) ∧
      (Blurred state right left → TakenForNumber state left right = false) ∧
      (Unreadable state left right → right.value.isNumeric = false) ∧
      (Unreadable state right left → left.value.isNumeric = false) := by
  unfold KindsKept
  rw [run_comparison_taken, Option.some.injEq, ComparisonBit.compared.injEq]
  simp only [blurred_iff, unreadable_iff]
  cases left.value.isNumeric <;> cases right.value.isNumeric <;> cases TakenForNumber state left right <;>
    cases TakenForNumber state right left <;> simp

/-- A program with one variable, inferred to be a string. -/
def string_variable : LoweringState where
  variable_indexes := ["x"]
  slot_allocation := ⟨[⟨"x", 0, .slot⟩]⟩
  type_info := fun name => if name = "x" then .string else .unknown
  array_names := []
  function_defs := []
  local_numeric_names := ∅
  function_param_strings := []
  loop_string_bindings := []

/-- `BEGIN { x = "10"; print (x < 9) }` compares numbers. -/
theorem built_string_compares_numeric :
    ¬ ∀ (state : LoweringState) (op : BinaryOp) (left right : ComparisonOperand), KindsKept state op left right := by
  intro h
  have hkept := h string_variable .less ⟨.built ['1', '0'], .name "x", ['1', '0'], .finite 10, rfl⟩
    ⟨.number (.finite 9), .numeric_literal ['9'], ['9'], .finite 9, trivial⟩
  unfold KindsKept at hkept
  rw [run_comparison_taken] at hkept
  have htaken : (TakenForNumber string_variable ⟨.built ['1', '0'], .name "x", ['1', '0'], .finite 10, rfl⟩
      ⟨.number (.finite 9), .numeric_literal ['9'], ['9'], .finite 9, trivial⟩ &&
    TakenForNumber string_variable ⟨.number (.finite 9), .numeric_literal ['9'], ['9'], .finite 9, trivial⟩
      ⟨.built ['1', '0'], .name "x", ['1', '0'], .finite 10, rfl⟩) = true := by decide +kernel
  rw [htaken] at hkept
  simp [ScalarValue.isNumeric] at hkept

end quawk
