import Mathlib.Algebra.Order.Ring.Rat
import Mathlib.Data.Char
import Quawk.ComparisonKinds
import Quawk.NumeralSyntax

open StructuredCode (Operands)

namespace quawk

namespace Numeral

/-- How two doubles are ordered; a NaN is not ordered. -/
def order : Value → Value → Option Ordering
  | .nan, _ | _, .nan => none
  | .finite left, .finite right => some (cmp left right)
  | .finite _, .infinity negative => some (if negative then .gt else .lt)
  | .infinity negative, .finite _ => some (if negative then .lt else .gt)
  | .infinity left, .infinity right => some (if left = right then .eq else if left then .lt else .gt)

/-- The predicates of `fcmp` that the backend uses: the ordered ones. -/
def fcmp (predicate : FloatPredicate) (left right : Value) : Bool :=
  match predicate with
  | .olt => order left right == some .lt
  | .ole => order left right == some .lt || order left right == some .eq
  | .ogt => order left right == some .gt
  | .oge => order left right == some .gt || order left right == some .eq
  | .oeq => order left right == some .eq
  | .one => order left right == some .lt || order left right == some .gt

def qk_compare_numbers (left right : Value) (op : Nat) : Bool :=
  match op with
  | 0 => order left right == some .lt
  | 1 => order left right == some .lt || order left right == some .eq
  | 2 => order left right == some .gt
  | 3 => order left right == some .gt || order left right == some .eq
  | 4 => order left right == some .eq
  | 5 => order left right != some .eq
  | _ => false

/-- `strcmp` compares bytes, which for UTF-8 is to compare code points. -/
def strcmp : Text → Text → Ordering
  | [], [] => .eq
  | [], _ :: _ => .lt
  | _ :: _, [] => .gt
  | left :: left_rest, right :: right_rest => (cmp left right).then (strcmp left_rest right_rest)

def qk_compare_strings_impl (left right : Text) (op : Nat) : Bool :=
  let cmp := strcmp left right
  match op with
  | 0 => cmp == .lt
  | 1 => cmp != .gt
  | 2 => cmp == .gt
  | 3 => cmp != .lt
  | 4 => cmp == .eq
  | 5 => cmp != .eq
  | _ => false

def qk_compare_values (left_string : Text) (left_number : Value) (left_needs_numeric_check left_force_string : Bool)
    (right_string : Text) (right_number : Value) (right_needs_numeric_check right_force_string : Bool) (op : Nat) : Bool :=
  if left_force_string || right_force_string then qk_compare_strings_impl left_string right_string op
  else
    let left_numeric := !left_needs_numeric_check || qk_is_full_numeric_string left_string
    let right_numeric := !right_needs_numeric_check || qk_is_full_numeric_string right_string
    if left_numeric && right_numeric then qk_compare_numbers left_number right_number op
    else qk_compare_strings_impl left_string right_string op

/-- The values of the code of a comparison, with all that doubles can be. -/
abbrev OrderedValue : Ty → Type
  | .ptr => Text
  | .double => Value
  | .i1 => Bool
  | .i32 => Nat
  | _ => Unit

def ordered_op : {types : List Ty} → {type : Ty} → Op types type → Operands OrderedValue types →
    Option (OrderedValue type)
  | _, _, .qk_capture_string_arg_inline, (text, ()) => some text
  | _, _, .truth value, () => some value
  | _, _, .word value, () => some value
  | _, _, .fcmp predicate, (left, right, ()) => some (fcmp predicate left right)
  | _, _, .qk_compare_strings_inline, (left, right, op, ()) => some (qk_compare_strings_impl left right op)
  | _, _, .qk_compare_values_inline, (left_string, left_number, left_check, left_force, right_string, right_number,
      right_check, right_force, op, ()) =>
    some (qk_compare_values left_string left_number left_check left_force right_string right_number right_check
      right_force op)
  | _, _, _, _ => none

def run_ordered {α : Type} : Code OrderedValue α → Option α
  | .done value => some value
  | .op f operands next => (ordered_op f operands).bind fun value => run_ordered (next value)
  | .note _ next => run_ordered next
  | _ => none

/-- A value that is compared: a number that arithmetic gave, a string constant, a text that came from input, or none. -/
inductive OperandValue where
  | number (value : Value) (computed : value ≠ .nan)
  | constant (text : Text)
  | input (text : Text)
  | unset

/-- What is read from a text as a double. -/
def rounded (round : Rat → Value) : Value → Value
  | .finite spelled => round spelled
  | special => special

/-- A value with its views: the text of a number is what `CONVFMT` makes of it, and the number of a text what is read
from it. The number of a constant depends on the expression it is compared in: a literal is folded by the compiler, to
the double LLVM reads from the digits it prints, and a variable is read by the runtime. -/
structure Operand (round : Rat → Value) (read_literal : Value → Value) where
  value : OperandValue
  text : Text
  number : Expr → Value
  keeps_text : match value with
    | .number _ _ => True
    | .constant original | .input original => text = original
    | .unset => text = []
  keeps_number : ∀ expression, match value with
    | .number original _ => number expression = original
    | .constant original => number expression = read_literal (rounded round ( awk_numeric_prefix original)) ∨
      number expression = rounded round ( qk_parse_awk_numeric_prefix original)
    | .input original => number expression = rounded round ( qk_parse_awk_numeric_prefix original)
    | .unset => number expression = .finite 0

variable {round : Rat → Value} {read_literal : Value → Value}

def Operand.lowered (operand : Operand round read_literal) (expression : Expr) : Lowered OrderedValue where
  expression := expression
  numeric := pure (operand.number expression)
  string := pure operand.text
  condition := raise ""

/-- What a comparison answers whose operands are lowered from two expressions. -/
def answer (state : LoweringState) (left_expression right_expression : Expr) (left right : Operand round read_literal) (op : BinaryOp) :
    Option Bool :=
  run_ordered (lower_runtime_comparison state op (left.lowered left_expression) (right.lowered right_expression))

/-- Whether numbers are compared: no operand forces a comparison of texts, and both are known to be numeric when they
are lowered, or each is lowered as a number or has a text that is one. -/
def compares_numbers (state : LoweringState) (left_expression right_expression : Expr)
    (left right : Operand round read_literal) : Bool :=
  !(expression_forces_string_comparison left_expression || expression_forces_string_comparison right_expression) &&
    ((runtime_expression_is_definitely_numeric state left_expression &&
        runtime_expression_is_definitely_numeric state right_expression) ||
      ((!runtime_expression_has_string_result state left_expression || qk_is_full_numeric_string left.text) &&
        (!runtime_expression_has_string_result state right_expression || qk_is_full_numeric_string right.text)))

/-- Just one of smaller, equal and greater holds, each of the other three operators negates one of them, and swapped
operands are compared the other way round. -/
structure OrderLaws (answers swapped : BinaryOp → Option Bool) : Prop where
  one_of_three : ∃ less equal greater, answers .less = some less ∧ answers .equal = some equal ∧
    answers .greater = some greater ∧ [less, equal, greater].count true = 1
  less_equal : answers .less_equal = (answers .greater).map not
  greater_equal : answers .greater_equal = (answers .less).map not
  not_equal : answers .not_equal = (answers .equal).map not
  swap : answers .less = swapped .greater

def COMPARISONS : List BinaryOp := [.less, .less_equal, .greater, .greater_equal, .equal, .not_equal]

/-- The answer of an operator where the operands are ordered. -/
def holds (op : BinaryOp) (ordering : Ordering) : Bool :=
  match op with
  | .less => ordering == .lt
  | .less_equal => ordering != .gt
  | .greater => ordering == .gt
  | .greater_equal => ordering != .lt
  | .equal => ordering == .eq
  | _ => ordering != .eq

theorem order_eq_none {left right : Value} : order left right = none ↔ left = .nan ∨ right = .nan := by
  cases left with
  | finite left =>
    cases right with
    | finite right => exact iff_of_false (Option.some_ne_none _) (by simp)
    | nan | infinity _ => simp [order]
  | nan | infinity _ => cases right <;> simp [order]

theorem order_swap (left right : Value) : order right left = (order left right).map Ordering.swap := by
  cases left with
  | nan => cases right <;> rfl
  | finite left =>
    cases right with
    | nan => rfl
    | finite right => exact congrArg some (cmp_swap left right).symm
    | infinity negative => cases negative <;> rfl
  | infinity negative =>
    cases right with
    | nan => rfl
    | finite right => cases negative <;> rfl
    | infinity other => cases negative <;> cases other <;> rfl

theorem strcmp_swap (left right : Text) : strcmp right left = (strcmp left right).swap := by
  induction left generalizing right with
  | nil => cases right <;> rfl
  | cons char rest ih =>
    cases right with
    | nil => rfl
    | cons other others =>
      change (cmp other char).then (strcmp others rest) = ((cmp char other).then (strcmp rest others)).swap
      rw [ih, ← cmp_swap char other, Ordering.swap_then]

theorem compare_numbers_holds {left right : Value} {ordering : Ordering} (h : order left right = some ordering)
    (op : BinaryOp) : fcmp (comparison_codes op).2 left right = holds op ordering ∧
      qk_compare_numbers left right (comparison_codes op).1 = holds op ordering := by
  unfold fcmp qk_compare_numbers
  rw [h]
  cases op <;> cases ordering <;> exact ⟨rfl, rfl⟩

theorem compare_strings_holds (left right : Text) (op : BinaryOp) :
    qk_compare_strings_impl left right (comparison_codes op).1 = holds op (strcmp left right) := by
  cases op <;> rfl

theorem answer_eq (state : LoweringState) (left_expression right_expression : Expr) (left right : Operand round read_literal)
    (op : BinaryOp) :
    answer state left_expression right_expression left right op =
      some (if compares_numbers state left_expression right_expression left right = true then
          if (runtime_expression_is_definitely_numeric state left_expression &&
            runtime_expression_is_definitely_numeric state right_expression) = true then
            fcmp (comparison_codes op).2 (left.number left_expression) (right.number right_expression)
          else qk_compare_numbers (left.number left_expression) (right.number right_expression) (comparison_codes op).1
        else qk_compare_strings_impl left.text right.text (comparison_codes op).1) := by
  unfold answer lower_runtime_comparison
  change run_ordered
    (if (expression_forces_string_comparison left_expression ||
        expression_forces_string_comparison right_expression) = true then _
    else if (runtime_expression_is_definitely_numeric state left_expression &&
        runtime_expression_is_definitely_numeric state right_expression) = true then _ else _) = _
  unfold compares_numbers
  by_cases hforced : (expression_forces_string_comparison left_expression ||
      expression_forces_string_comparison right_expression) = true
  · rw [if_pos hforced, hforced]
    rfl
  · rw [if_neg hforced]
    by_cases hdefinite : (runtime_expression_is_definitely_numeric state left_expression &&
        runtime_expression_is_definitely_numeric state right_expression) = true
    · rw [if_pos hdefinite, hdefinite, Bool.eq_false_of_not_eq_true hforced]
      rfl
    · rw [if_neg hdefinite, Bool.eq_false_of_not_eq_true hdefinite, Bool.eq_false_of_not_eq_true hforced]
      rw [Bool.or_eq_true, not_or] at hforced
      change some (qk_compare_values left.text (left.number left_expression)
        (runtime_expression_has_string_result state left_expression)
        (expression_forces_string_comparison left_expression) right.text (right.number right_expression)
        (runtime_expression_has_string_result state right_expression)
        (expression_forces_string_comparison right_expression) (comparison_codes op).1) = _
      unfold qk_compare_values
      rw [Bool.eq_false_of_not_eq_true hforced.1, Bool.eq_false_of_not_eq_true hforced.2]
      simp

section Answers

variable {state state' : LoweringState} {left_expression right_expression left_expression' right_expression' : Expr}
  {left right : Operand round read_literal}

theorem compares_numbers_swap : compares_numbers state right_expression left_expression right left =
    compares_numbers state left_expression right_expression left right := by
  unfold compares_numbers
  rw [Bool.or_comm (expression_forces_string_comparison right_expression), Bool.and_comm
    (runtime_expression_is_definitely_numeric state right_expression), Bool.and_comm
    (!runtime_expression_has_string_result state right_expression || _)]

theorem answer_strings (h : compares_numbers state left_expression right_expression left right = false) (op : BinaryOp) :
    answer state left_expression right_expression left right op = some (holds op (strcmp left.text right.text)) := by
  rw [answer_eq, h, if_neg Bool.false_ne_true, compare_strings_holds]

theorem answer_numbers (h : compares_numbers state left_expression right_expression left right = true)
    {ordering : Ordering} (horder : order (left.number left_expression) (right.number right_expression) = some ordering)
    (op : BinaryOp) :
    answer state left_expression right_expression left right op = some (holds op ordering) := by
  obtain ⟨hfcmp, hcompare⟩ := compare_numbers_holds horder op
  rw [answer_eq, h, if_pos rfl, hfcmp, hcompare, ite_self]

/-- The operator that holds of operands in an order. -/
def order_op : Ordering → BinaryOp
  | .lt => .less
  | .eq => .equal
  | .gt => .greater

theorem holds_order_op (expected ordering : Ordering) : holds (order_op expected) ordering = (ordering == expected) := by
  cases expected <;> rfl

theorem answer_order_op (h : compares_numbers state left_expression right_expression left right = true)
    (ordering : Ordering) : answer state left_expression right_expression left right (order_op ordering) =
      some (order (left.number left_expression) (right.number right_expression) == some ordering) := by
  rw [answer_eq, h, if_pos rfl]
  cases ordering <;> exact congrArg some (ite_self _)

theorem order_laws_of_holds {answers swapped : BinaryOp → Option Bool} {ordering : Ordering}
    (hanswers : ∀ op, answers op = some (holds op ordering)) (hswapped : ∀ op, swapped op = some (holds op ordering.swap)) :
    OrderLaws answers swapped where
  one_of_three := ⟨_, _, _, hanswers .less, hanswers .equal, hanswers .greater, by cases ordering <;> rfl⟩
  less_equal := by rw [hanswers, hanswers]; cases ordering <;> rfl
  greater_equal := by rw [hanswers, hanswers]; cases ordering <;> rfl
  not_equal := by rw [hanswers, hanswers]; cases ordering <;> rfl
  swap := by rw [hanswers, hswapped]; cases ordering <;> rfl

/-- Comparisons are lawful just where no NaN is compared as a number. -/
theorem order_laws_iff : OrderLaws (answer state left_expression right_expression left right)
    (answer state right_expression left_expression right left) ↔
      (compares_numbers state left_expression right_expression left right = true →
        left.number left_expression ≠ .nan ∧ right.number right_expression ≠ .nan) := by
  cases hnumbers : compares_numbers state left_expression right_expression left right with
  | false =>
    have hswapped := compares_numbers_swap.trans hnumbers
    refine ⟨fun _ h => (by cases h), fun _ => order_laws_of_holds (answer_strings hnumbers) fun op => ?_⟩
    rw [answer_strings hswapped, strcmp_swap]
  | true =>
    have hswapped := compares_numbers_swap.trans hnumbers
    cases horder : order (left.number left_expression) (right.number right_expression) with
    | none =>
      have hnan := order_eq_none.mp horder
      constructor
      · intro h
        obtain ⟨less, equal, greater, hless, hequal, hgreater, hone⟩ := h.one_of_three
        have hnever : ∀ ordering, answer state left_expression right_expression left right (order_op ordering) = some false := by
          intro ordering
          rw [answer_order_op hnumbers, horder]
          rfl
        obtain rfl := Option.some.inj (hless.symm.trans (hnever .lt))
        obtain rfl := Option.some.inj (hequal.symm.trans (hnever .eq))
        obtain rfl := Option.some.inj (hgreater.symm.trans (hnever .gt))
        cases hone
      · exact fun h => absurd hnan (not_or.mpr (h rfl))
    | some ordering =>
      have hsome : ¬ ((left.number left_expression) = .nan ∨ (right.number right_expression) = .nan) := by
        rw [← order_eq_none, horder]
        exact nofun
      refine ⟨fun _ _ => not_or.mp hsome, fun _ => order_laws_of_holds (answer_numbers hnumbers horder) fun op => ?_⟩
      exact answer_numbers hswapped (by rw [order_swap, horder]; rfl) op

/-- Numbers and texts answer alike just where they are ordered alike. -/
theorem same_answers_iff_order (h : compares_numbers state left_expression right_expression left right = true)
    (h' : compares_numbers state' left_expression' right_expression' left right = false) :
    (∀ op ∈ COMPARISONS, answer state left_expression right_expression left right op =
      answer state' left_expression' right_expression' left right op) ↔
      order (left.number left_expression) (right.number right_expression) = some (strcmp left.text right.text) := by
  constructor
  · intro hsame
    have hop := hsame (order_op (strcmp left.text right.text)) (by cases strcmp left.text right.text <;> decide)
    rw [answer_order_op h, answer_strings h', holds_order_op, Option.some.injEq] at hop
    simpa using hop
  · intro horder op _
    rw [answer_numbers h horder, answer_strings h']

variable (state state' left_expression right_expression left_expression' right_expression' left right)

/-- Two lowerings order the operands alike: both compare texts, or both numbers that are ordered alike, or one compares
numbers that are ordered as the texts are. -/
def OrderedAlike : Prop :=
  match compares_numbers state left_expression right_expression left right,
    compares_numbers state' left_expression' right_expression' left right with
  | false, false => True
  | true, true => order (left.number left_expression) (right.number right_expression) =
      order (left.number left_expression') (right.number right_expression')
  | true, false => order (left.number left_expression) (right.number right_expression) =
      some (strcmp left.text right.text)
  | false, true => order (left.number left_expression') (right.number right_expression') =
      some (strcmp left.text right.text)

end Answers

/-- A text of input that reads as a number. -/
def input_operand (text : Text) : Operand (fun spelled => .finite spelled) id :=
  ⟨.input text, text, fun _ => rounded (fun spelled => .finite spelled) ( qk_parse_awk_numeric_prefix text), rfl,
    fun _ => rfl⟩

end Numeral

end quawk
