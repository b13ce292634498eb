import Mathlib.Data.List.Basic

namespace Bisect

variable {α : Type} [LT α] [DecidableLT α]

/-- The turns of a bisection between two indexes: an entry in the middle that is beyond `x` ends the part that is left,
and any other entry begins it. -/
def bisect_turns (entries : List α) (x : α) : Nat → Nat → Nat → Nat
  | 0, lo, _ => lo
  | fuel + 1, lo, hi =>
    if lo < hi then
      let mid := (lo + hi) / 2
      match entries[mid]? with
      | none => lo
      | some entry => if x < entry then bisect_turns entries x fuel lo mid else bisect_turns entries x fuel (mid + 1) hi
    else lo

/-- The place behind the entries that are not beyond `x`. -/
def bisect_right (entries : List α) (x : α) : Nat := bisect_turns entries x entries.length 0 entries.length

/-- The turns end where the entries beyond `x` begin. -/
theorem bisect_turns_append {before after : List α} {x : α} (hbefore : ∀ entry ∈ before, ¬ x < entry)
    (hafter : ∀ entry ∈ after, x < entry) (fuel : Nat) {lo hi : Nat} (hfuel : hi ≤ lo + fuel)
    (hlo : lo ≤ before.length) (hle : before.length ≤ hi) (hhi : hi ≤ (before ++ after).length) :
    bisect_turns (before ++ after) x fuel lo hi = before.length := by
  induction fuel generalizing lo hi with
  | zero => exact Nat.le_antisymm hlo (Nat.le_trans hle hfuel)
  | succ fuel ih =>
    unfold bisect_turns
    by_cases hless : lo < hi
    · have hmid : (lo + hi) / 2 < (before ++ after).length := by omega
      rw [if_pos hless]
      dsimp only
      rw [List.getElem?_eq_getElem hmid]
      dsimp only
      by_cases hside : (lo + hi) / 2 < before.length
      · have hentry : ¬ x < (before ++ after)[(lo + hi) / 2] := by
          rw [List.getElem_append_left hside]
          exact hbefore _ (List.getElem_mem _)
        rw [if_neg hentry]
        exact ih (by omega) hside hle hhi
      · have hentry : x < (before ++ after)[(lo + hi) / 2] := by
          rw [List.getElem_append_right (Nat.le_of_not_lt hside)]
          exact hafter _ (List.getElem_mem _)
        rw [if_pos hentry]
        exact ih (by omega) hlo (Nat.le_of_not_lt hside) (Nat.le_of_lt hmid)
    · rw [if_neg hless]
      omega

theorem bisect_right_append {before after : List α} {x : α} (hbefore : ∀ entry ∈ before, ¬ x < entry)
    (hafter : ∀ entry ∈ after, x < entry) : bisect_right (before ++ after) x = before.length :=
  bisect_turns_append hbefore hafter _ (Nat.le_add_left _ _) (Nat.zero_le _)
    (List.length_append ▸ Nat.le_add_right _ _) (Nat.le_refl _)

end Bisect
