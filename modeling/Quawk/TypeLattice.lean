import Mathlib.Order.Lattice
import Quawk.AssigningConstructs

namespace quawk

instance : SemilatticeSup LatticeType where
  sup := join
  le left right := join left right = right
  le_refl type := by cases type <;> decide
  le_trans a b c := by cases a <;> cases b <;> cases c <;> decide
  le_antisymm a b := by cases a <;> cases b <;> decide
  le_sup_left a b := by cases a <;> cases b <;> decide
  le_sup_right a b := by cases a <;> cases b <;> decide
  sup_le a b c := by cases a <;> cases b <;> cases c <;> decide

namespace LatticeType

/-- A value of the kind belongs to the type: anything does at `mixed` and `unknown`. -/
def Admits : LatticeType → Kind → Prop
  | .numeric, kind => kind = .number
  | .string, kind => kind = .string
  | _, _ => True

/-- The type accounts for a value of the kind: `unknown` accounts for none. -/
def Covers : LatticeType → Kind → Prop
  | .unknown, _ => False
  | .numeric, kind => kind = .number
  | .string, kind => kind = .string
  | .mixed, _ => True

theorem Covers.admits {type : LatticeType} {kind : Kind} (hcovers : type.Covers kind) :
    type.Admits kind := by
  cases type <;> simp_all [Covers, Admits]

theorem Covers.mono {left right : LatticeType} {kind : Kind} (hcovers : left.Covers kind)
    (hle : left ≤ right) : right.Covers kind := by
  have hjoin : join left right = right := hle
  cases left <;> cases right <;> simp_all [Covers, join]

/-- The distance of a type from the bottom of the lattice. -/
def height : LatticeType → Nat
  | .unknown => 0
  | .numeric | .string => 1
  | .mixed => 2

theorem height_le_two (type : LatticeType) : type.height ≤ 2 := by
  cases type <;> decide

theorem height_lt {left right : LatticeType} (hle : left ≤ right) (hne : left ≠ right) :
    left.height < right.height := by
  have hjoin : join left right = right := hle
  cases left <;> cases right <;> simp_all [height, join]

theorem height_mono {left right : LatticeType} (hle : left ≤ right) : left.height ≤ right.height := by
  by_cases heq : left = right
  · rw [heq]
  · exact (height_lt hle heq).le

end LatticeType

def Given.type : Given → VariableTypes → LatticeType
  | .expression value, types => infer_expression_type types value
  | .number, _ => .numeric
  | .string, _ => .string

theorem assigned_given_type (op : AssignOp) (value : Expr) :
    (assigned_given op value).type = assigned_type op value := by
  funext types
  unfold assigned_given assigned_type
  split_ifs <;> rfl

theorem infer_expression_type_of_untyped (types : VariableTypes) :
    ∀ expression : Expr, expression.untyped = true → infer_expression_type types expression = .unknown
  | .array_index _ _ _, _ => rfl
  | .call function _, h => by
    simp only [Expr.untyped, Bool.decide_and, Bool.and_eq_true, decide_eq_true_eq] at h
    simp only [infer_expression_type, if_neg h.1, if_neg h.2]
  | .conditional _ if_true if_false, h => by
    simp only [Expr.untyped, Bool.and_eq_true] at h
    simp only [infer_expression_type, infer_expression_type_of_untyped types if_true h.1,
      infer_expression_type_of_untyped types if_false h.2]
    rfl
  | .assign _ .plain value, h => infer_expression_type_of_untyped types value h

theorem Given.type_of_untyped (given : Given) (h : given.untyped = true) (types : VariableTypes) :
    given.type types = .unknown := by
  cases given with
  | expression value => exact infer_expression_type_of_untyped types value h
  | number => cases h
  | string => cases h

theorem numeric_result_not_string :
    ∀ function ∈ NUMERIC_RESULT_FUNCTIONS, function ∉ STRING_RESULT_FUNCTIONS := by
  decide

/-- The inferred type accounts for every kind of value an expression has through leaves whose
own kinds are accounted for. -/
theorem infer_expression_type_covers {defines : Name → Bool} {formals : List Name}
    {held : Name → Kind → Prop} {types : VariableTypes}
    (hheld : ∀ name kind, held name kind → (types name).Covers kind) :
    ∀ (expression : Expr) (kind : Kind), expression.MayGive defines formals held (fun _ => False) kind →
      (infer_expression_type types expression).Covers kind
  | .numeric_literal _, kind, h | .string_literal _, kind, h => h
  | .regex_literal _, kind, h => h.elim
  | .name name, kind, h => by
    simp only [Expr.MayGive] at h
    split_ifs at h
    exact hheld name kind h
  | .field_at _, kind, _ | .field _, kind, _ => trivial
  | .array_index _ _ _, kind, h => h.elim
  | .getline _ _, kind, h | .postfix_op _ _, kind, h => h
  | .unary _ operand, kind, h => by
    simp only [infer_expression_type]
    split_ifs
    · trivial
    · exact h
  | .conditional _ if_true if_false, kind, h => by
    obtain h | h := h
    · exact (infer_expression_type_covers hheld if_true kind h).mono
        (@le_sup_left _ _ (infer_expression_type types if_true) _)
    · exact (infer_expression_type_covers hheld if_false kind h).mono
        (@le_sup_right _ _ (infer_expression_type types if_true) _)
  | .assign _ .plain value, kind, h => infer_expression_type_covers hheld value kind h
  | .assign _ .add _, kind, h | .assign _ .sub _, kind, h | .assign _ .mul _, kind, h
  | .assign _ .div _, kind, h | .assign _ .mod _, kind, h | .assign _ .pow _, kind, h => h
  | .binary left op right, kind, h => by
    by_cases hconcat : op = .concat
    · subst hconcat
      exact h
    · have hnumber : kind = .number := by simpa [Expr.MayGive, hconcat] using h
      simp only [infer_expression_type, if_neg hconcat]
      split_ifs
      · trivial
      · exact hnumber
      · exact hnumber
  | .call function _, kind, h => by
    simp only [Expr.MayGive] at h
    simp only [infer_expression_type]
    split_ifs at h with _ hstring hnumeric
    · by_cases hnumeric : function ∈ NUMERIC_RESULT_FUNCTIONS
      · exact absurd hstring (numeric_result_not_string function hnumeric)
      · rw [if_neg hnumeric, if_pos hstring]
        exact h
    · rw [if_pos hnumeric]
      exact h
    · exact h.2.elim

end quawk
