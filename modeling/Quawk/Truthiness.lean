import Quawk.ComparisonKinds

open StructuredCode (Operands)

namespace quawk

open Numeral (qk_is_full_numeric_string qk_parse_awk_numeric_prefix)

/-- The value of an expression, assigned or computed as a number or a string. A number is a double: one that is
finite, an infinity, or no number. -/
inductive KnownValue where
  | number (value : Numeral.Value)
  | string (text : Text)

/-- `qk_scalar_truthy`, for the entry a scalar has in the scalar table. -/
def KnownValue.truthy : KnownValue → Bool
  | .number value => value != .finite 0
  | .string text => !text.isEmpty

/-- An expression with its value: wherever it is kept, it is read as this number and this text. A number is read as
the number it is, its text is what `CONVFMT` makes of it; a string is read as the text it is, and as the double nearest
to the number it starts with. -/
structure ValuedExpr (round : Numeral.Value → Numeral.Value) where
  expression : Expr
  value : KnownValue
  number : Numeral.Value
  text : Text
  coherent : match value with
    | .number original => number = original
    | .string original => text = original ∧ number = round ( qk_parse_awk_numeric_prefix original)

abbrev TruthValue : Ty → Type
  | .double => Numeral.Value
  | .i1 => Bool
  | .i8 => Option Char
  | .ptr => Text
  | _ => Unit

variable {round : Numeral.Value → Numeral.Value}

/-- The instructions a condition is read with. -/
def truth_op (valued : ValuedExpr round) : {types : List Ty} → {type : Ty} → Op types type → Operands TruthValue types →
    Option (TruthValue type)
  | _, _, .number .zero, () => some (.finite 0)
  | _, _, .string_constant text, () => some text
  | _, _, .local_variable _, () => some ()
  | _, _, .state_variable _ _, () => some ()
  | _, _, .load_char, (text, ()) => some text.head?
  | _, _, .icmp_char, (first_char, ()) => some first_char.isSome
  | _, _, .fcmp .one, (left, right, ()) => some (fcmp_one left right)
  | _, _, .load_double, _ => some valued.number
  | _, _, .qk_slot_get_number _, _ => some valued.number
  | _, _, .qk_scalar_get_number_inline, _ => some valued.number
  | _, _, .qk_get_nr_inline, _ => some valued.number
  | _, _, .qk_get_fnr_inline, _ => some valued.number
  | _, _, .qk_get_nf_inline, _ => some valued.number
  | _, _, .load_parameter _, _ => some valued.text
  | _, _, .qk_slot_get_string _, _ => some valued.text
  | _, _, .qk_scalar_get_inline, _ => some valued.text
  | _, _, .qk_get_filename_inline, _ => some valued.text
  | _, _, .qk_format_number, _ => some valued.text
  | _, _, .qk_scalar_truthy, _ => some valued.value.truthy
  | _, _, _, _ => none

def run_truth {α : Type} (valued : ValuedExpr round) : Code TruthValue α → Option α
  | .done value => some value
  | .op f operands next => (truth_op valued f operands).bind fun value => run_truth valued (next value)
  | .note _ next => run_truth valued next
  | _ => none

section Condition

variable (state : LoweringState)

/-- `lower_condition_expression`, where the value of the expression is known: a name is read from where it is kept, an
element, a field, a call, an assignment and a literal by their two views. -/
def condition_code (valued : ValuedExpr round) : Code TruthValue Bool :=
  match valued.expression with
  | .name name => lower_condition_name state (fun _ => some valued.text) name
  | expression => lower_condition_default state expression (pure valued.number) (pure valued.text)

/-- The code reads a condition of its own from the scalar table. -/
def reads_scalar_table (expression : Expr) : Bool :=
  match expression with
  | .name name => runtime_name_uses_only_scalar_runtime state name
  | _ => false

/-- A number is false exactly when it is 0, a string that does not look numeric exactly when it is empty. -/
def TruthKept (valued : ValuedExpr round) : Prop :=
  (match valued.value with
    | .number _ => True
    | .string text => qk_is_full_numeric_string text = false) →
  run_truth valued (condition_code state valued) = some valued.value.truthy

end Condition

variable {state : LoweringState} {valued : ValuedExpr round}

theorem run_truth_bind {α β : Type} (code : Code TruthValue α) (next : α → Code TruthValue β) :
    run_truth valued (code >>= next) = (run_truth valued code).bind fun value => run_truth valued (next value) := by
  change run_truth valued (code.bind next) = _
  induction code with
  | done | choice | short_circuit | guarded | attempt | raise | crash => rfl
  | op f operands rest ih =>
    simp only [StructuredCode.Code.bind, run_truth, ih, Option.bind_assoc]
  | note mark rest ih => exact ih next

theorem run_string_truthiness (string : Code TruthValue Text) :
    run_truth valued (lower_runtime_string_truthiness string) =
      (run_truth valued string).map fun text => !text.isEmpty := by
  unfold lower_runtime_string_truthiness
  rw [run_truth_bind]
  cases run_truth valued string with
  | none => rfl
  | some text => cases text <;> rfl

theorem run_number_truthiness (numeric : Code TruthValue Numeral.Value) :
    run_truth valued (lower_runtime_number_truthiness numeric) =
      (run_truth valued numeric).map fun number => fcmp_one number (.finite 0) := by
  unfold lower_runtime_number_truthiness
  rw [run_truth_bind]
  cases run_truth valued numeric <;> rfl

/-- A name is read as its number, if it can be read. -/
theorem run_numeric_name (valued : ValuedExpr round) {name : Name} (hparam : state.is_function_param_string name = false) :
    run_truth valued (lower_runtime_numeric_name state name) = some valued.number ∨
      run_truth valued (lower_runtime_numeric_name state name) = none := by
  unfold lower_runtime_numeric_name
  split_ifs
  · exact Or.inl rfl
  · exact Or.inl rfl
  · exact Or.inl rfl
  · rename_i htrue
    rw [hparam] at htrue
    cases htrue
  · unfold variable_address
    split_ifs
    · exact Or.inl rfl
    · split
      · exact Or.inl rfl
      · exact Or.inr rfl
  · unfold lower_runtime_current_number
    split
    · split_ifs <;> exact Or.inl rfl
    · exact Or.inl rfl

theorem run_formatted_name (valued : ValuedExpr round) {name : Name} (hparam : state.is_function_param_string name = false) :
    run_truth valued (lower_runtime_formatted_number (lower_runtime_numeric_name state name)) = some valued.text ∨
      run_truth valued (lower_runtime_formatted_number (lower_runtime_numeric_name state name)) = none := by
  unfold lower_runtime_formatted_number
  rw [run_truth_bind]
  obtain hread | hread := run_numeric_name valued hparam
  · rw [hread]
    exact Or.inl rfl
  · rw [hread]
    exact Or.inr rfl

/-- A name is read as its text, if it can be read. -/
theorem run_string_name (state : LoweringState) (valued : ValuedExpr round) (name : Name) :
    run_truth valued (lower_runtime_string_name state (fun _ => some valued.text) name) = some valued.text ∨
      run_truth valued (lower_runtime_string_name state (fun _ => some valued.text) name) = none := by
  unfold lower_runtime_string_name
  by_cases hloop : state.is_loop_string_binding name = true
  · rw [if_pos hloop]
    exact Or.inl rfl
  · rw [if_neg hloop]
    by_cases hparam : state.is_function_param_string name = true
    · rw [if_pos hparam]
      obtain ⟨slot, hslot⟩ := Option.isSome_iff_exists.mp hparam
      unfold load_runtime_function_param_string
      rw [hslot]
      exact Or.inl rfl
    · rw [if_neg hparam]
      have hformatted := run_formatted_name valued (Bool.eq_false_iff.mpr hparam)
      cases runtime_name_slot_index state name <;> dsimp only <;> split_ifs <;>
        first | exact hformatted | exact Or.inl rfl

/-- What the condition of an expression is: that of the scalar table, of the text, or of the number. -/
theorem run_condition_code (hlowers : (run_truth valued (condition_code state valued)).isSome) :
    run_truth valued (condition_code state valued) =
      some (if reads_scalar_table state valued.expression then valued.value.truthy
        else if runtime_expression_is_known_string state valued.expression then !valued.text.isEmpty
        else fcmp_one valued.number (.finite 0)) := by
  obtain ⟨result, hresult⟩ := Option.isSome_iff_exists.mp hlowers
  unfold condition_code reads_scalar_table at *
  cases hexpression : valued.expression with
  | name name =>
    simp only [hexpression, lower_condition_name, lower_condition_default] at hresult ⊢
    by_cases htable : runtime_name_uses_only_scalar_runtime state name = true
    · rw [if_pos htable, if_pos htable]
      rfl
    · rw [if_neg htable] at hresult ⊢
      rw [if_neg htable]
      by_cases hknown : runtime_expression_is_known_string state (.name name) = true
      · rw [if_pos hknown, run_string_truthiness] at hresult ⊢
        rw [if_pos hknown]
        obtain hread | hread := run_string_name state valued name
        · rw [hread]
          rfl
        · rw [hread] at hresult
          cases hresult
      · rw [if_neg hknown, run_number_truthiness] at hresult ⊢
        rw [if_neg hknown]
        have hparam : state.is_function_param_string name = false := by
          rw [Bool.eq_false_iff]
          intro hparam
          exact hknown (by simp [runtime_expression_is_known_string, hparam])
        obtain hread | hread := run_numeric_name valued hparam
        · rw [hread]
          rfl
        · rw [hread] at hresult
          cases hresult
  | _ =>
    simp only [lower_condition_default, Bool.false_eq_true, if_false]
    split_ifs
    · rw [run_string_truthiness]
      rfl
    · rw [run_number_truthiness]
      rfl

/-- The forms whose condition is made from their two views. -/
def has_default_condition : Expr → Bool
  | .string_literal _ | .numeric_literal _ | .field_at _ | .field _ | .array_index _ _ _ | .call _ _
  | .assign _ _ _ => true
  | _ => false

theorem lower_expression_condition {V : Ty → Type} (keys : Name → Option (V .ptr)) {expression : Expr}
    (h : has_default_condition expression = true) :
    (lower_expression state keys expression).condition = lower_condition_default state expression
      (lower_expression state keys expression).numeric (lower_expression state keys expression).string := by
  cases expression with
  | string_literal | numeric_literal | field_at | field | array_index | call | assign =>
    simp only [lower_expression]
    rfl
  | _ => cases h

theorem lower_expression_name_condition {V : Ty → Type} (keys : Name → Option (V .ptr)) (name : Name) :
    (lower_expression state keys (.name name)).condition = lower_condition_name state keys name := by
  simp only [lower_expression]

/-- A program with one array. -/
def one_array : LoweringState where
  variable_indexes := []
  slot_allocation := ⟨[]⟩
  type_info := fun _ => .unknown
  array_names := ["A"]
  function_defs := []
  local_numeric_names := ∅
  function_param_strings := []
  loop_string_bindings := []

end quawk
