import Mathlib.Data.List.Basic

namespace Pieces

variable {α : Type*}

def without_final_empty : List (List α) → List (List α)
  | [] => []
  | [piece] => if piece.isEmpty then [] else [piece]
  | piece :: next :: rest => piece :: without_final_empty (next :: rest)

theorem without_final_empty_cons (piece : List α) {rest : List (List α)} (h : rest ≠ []) :
    without_final_empty (piece :: rest) = piece :: without_final_empty rest := by
  obtain ⟨next, rest, rfl⟩ := List.exists_cons_of_ne_nil h
  rfl

variable [BEq α] [LawfulBEq α]

/-- The pieces between separators; an empty one after the last separator does not count. -/
def pieces (separator : α) (elements : List α) : List (List α) :=
  without_final_empty (elements.splitOn separator)

omit [LawfulBEq α] in
@[simp]
theorem pieces_nil (separator : α) : pieces separator [] = [] := by
  simp [pieces, List.splitOn_nil, without_final_empty]

theorem not_separator {separator : α} {elements : List α} (h : separator ∉ elements) :
    ∀ element ∈ elements, (element == separator) = false := by
  intro element hmem
  by_contra htrue
  have heq : element = separator := by simpa using htrue
  rw [heq] at hmem
  exact h hmem

theorem pieces_of_not_mem {separator : α} {elements : List α} (h : separator ∉ elements)
    (hne : elements ≠ []) : pieces separator elements = [elements] := by
  have hempty : elements.isEmpty = false := by simpa using hne
  rw [pieces, List.splitOn_eq_splitOnP, List.splitOnP_eq_singleton (not_separator h)]
  simp [without_final_empty, hempty]

theorem pieces_append_cons {separator : α} {piece : List α} (h : separator ∉ piece) (rest : List α) :
    pieces separator (piece ++ separator :: rest) = piece :: pieces separator rest := by
  unfold pieces
  rw [List.splitOn_eq_splitOnP, List.splitOnP_append_cons_of_forall_mem (not_separator h) separator (by simp),
    without_final_empty_cons _ (List.splitOnP_ne_nil _ _), List.splitOn_eq_splitOnP]

end Pieces
