import Mathlib.Data.List.Basic

namespace Spans

variable {α : Type}

/-- Spans in order from a position on: none reaches over the next one or over the end. -/
inductive Ordered (size : Nat) : Nat → List (Nat × Nat) → Prop where
  | nil {position : Nat} (hend : position ≤ size) : Ordered size position []
  | cons {position first last : Nat} {spans : List (Nat × Nat)} (hfirst : position ≤ first) (hspan : first ≤ last)
      (hrest : Ordered size last spans) : Ordered size position ((first, last) :: spans)

/-- The items from a position on with every span replaced by what `replacement` makes of it. -/
def replaced (replacement : List α → List α) (items : List α) : Nat → List (Nat × Nat) → List α
  | position, [] => items.drop position
  | position, (first, last) :: spans =>
    items.extract position first ++ (replacement (items.extract first last) ++ replaced replacement items last spans)

/-- The pieces before, between and behind the spans. -/
def between (items : List α) : Nat → List (Nat × Nat) → List (List α)
  | position, [] => [items.drop position]
  | position, (first, last) :: spans => items.extract position first :: between items last spans

/-- The items of every span. -/
def within (items : List α) (spans : List (Nat × Nat)) : List (List α) :=
  spans.map fun (first, last) => items.extract first last

/-- A piece, and after it a separator and a piece for each of the rest. -/
def interleave : List (List α) → List (List α) → List α
  | piece :: pieces, separator :: separators => piece ++ (separator ++ interleave pieces separators)
  | pieces, _ => pieces.flatten

variable {size position : Nat} {spans : List (Nat × Nat)} {items : List α}

theorem Ordered.of_le {before : Nat} (h : Ordered size position spans) (hle : before ≤ position) :
    Ordered size before spans := by
  cases h with
  | nil hend => exact .nil (Nat.le_trans hle hend)
  | cons hfirst hspan hrest => exact .cons (Nat.le_trans hle hfirst) hspan hrest

theorem drop_eq_extract {first last : Nat} (h : first ≤ last) (items : List α) :
    items.drop first = items.extract first last ++ items.drop last := by
  rw [List.extract_eq_take_drop]
  have hlast : last = first + (last - first) := by omega
  conv_rhs => rw [hlast, ← List.drop_drop, Nat.add_sub_cancel_left]
  exact (List.take_append_drop _ _).symm

theorem extract_append {first middle last : Nat} (h : first ≤ middle) (h' : middle ≤ last) :
    items.extract first middle ++ items.extract middle last = items.extract first last := by
  have hlast : last - first = middle - first + (last - middle) := by omega
  have hmiddle : middle = first + (middle - first) := by omega
  rw [List.extract_eq_take_drop, List.extract_eq_take_drop, List.extract_eq_take_drop, hlast, List.take_add]
  conv_lhs => rw [hmiddle, ← List.drop_drop, Nat.add_sub_cancel_left]
  rw [← hmiddle]

/-- Spans replaced by themselves leave the items as they are. -/
theorem replaced_self (h : Ordered items.length position spans) :
    replaced (fun matched => matched) items position spans = items.drop position := by
  induction h with
  | nil => rfl
  | cons hfirst hspan _ ih =>
    rw [replaced, ih, ← drop_eq_extract hspan, ← drop_eq_extract hfirst]

/-- The items before the first span are kept. -/
theorem replaced_skip {replacement : List α → List α} {next : Nat} (h : Ordered items.length next spans)
    (hnext : position ≤ next) :
    replaced replacement items position spans =
      items.extract position next ++ replaced replacement items next spans := by
  cases h with
  | nil => exact drop_eq_extract hnext items
  | cons hfirst _ _ =>
    rw [replaced, replaced, ← extract_append hnext hfirst, List.append_assoc]

theorem extract_drop (items : List α) (offset first last : Nat) :
    (items.drop offset).extract first last = items.extract (offset + first) (offset + last) := by
  rw [List.extract_eq_take_drop, List.extract_eq_take_drop, List.drop_drop, Nat.add_sub_add_left]

end Spans
