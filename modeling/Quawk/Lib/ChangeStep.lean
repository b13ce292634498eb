import Mathlib.Order.Basic

/-- A pass over a value of `α` that reports whether it changed the value. -/
abbrev ChangeStep (α : Type) := α → Bool × α

namespace ChangeStep

variable {α : Type}

def skip : ChangeStep α := fun value => (false, value)

/-- Two passes, both made; the result changed when either did. -/
def seq (first second : ChangeStep α) : ChangeStep α := fun value =>
  let (first_changed, value) := first value
  let (second_changed, value) := second value
  (second_changed || first_changed, value)

/-- The second pass is made only when the first changed nothing. -/
def or_else (first second : ChangeStep α) : ChangeStep α := fun value =>
  match first value with
  | (true, value) => (true, value)
  | (false, value) => second value

/-- Repeat a pass until it changes nothing, at most `iterations` times. -/
def converge (step : ChangeStep α) : Nat → ChangeStep α
  | 0 => skip
  | iterations + 1 => fun value =>
    match step value with
    | (true, value) => (true, (converge step iterations value).2)
    | (false, value) => (false, value)

theorem or_else_of_changed {first second : ChangeStep α} {value : α} (h : (first value).1 = true) :
    first.or_else second value = first value := by
  unfold or_else
  split
  · next heq => rw [heq]
  · next heq => rw [heq] at h; cases h

theorem or_else_of_unchanged {first second : ChangeStep α} {value : α}
    (h : (first value).1 = false) : first.or_else second value = second (first value).2 := by
  unfold or_else
  split
  · next heq => rw [heq] at h; cases h
  · next heq => rw [heq]

theorem seq_assoc (first second third : ChangeStep α) :
    (first.seq second).seq third = first.seq (second.seq third) := by
  funext value
  simp only [seq, Bool.or_assoc]

theorem or_else_assoc (first second third : ChangeStep α) :
    (first.or_else second).or_else third = first.or_else (second.or_else third) := by
  funext value
  cases hflag : (first value).1 with
  | true => rw [or_else_of_changed (by rw [or_else_of_changed hflag, hflag]), or_else_of_changed hflag,
      or_else_of_changed hflag]
  | false =>
    rw [or_else_of_unchanged hflag]
    unfold or_else
    rw [show first value = (false, (first value).2) from Prod.ext hflag rfl]

theorem converge_succ_of_changed {step : ChangeStep α} {iterations : Nat} {value : α}
    (h : (step value).1 = true) :
    converge step (iterations + 1) value = (true, (converge step iterations (step value).2).2) := by
  simp only [converge]
  split
  · next heq => rw [heq]
  · next heq => rw [heq] at h; cases h

theorem converge_succ_of_unchanged {step : ChangeStep α} {iterations : Nat} {value : α}
    (h : (step value).1 = false) : converge step (iterations + 1) value = step value := by
  simp only [converge]
  split
  · next heq => rw [heq] at h; cases h
  · next heq => rw [heq]

/-- Every value is related to what the pass makes of it. -/
def Keeps (related : α → α → Prop) (step : ChangeStep α) : Prop :=
  ∀ value, related value (step value).2

section Keeps

variable {related : α → α → Prop} [IsPreorder α related] {first second step : ChangeStep α}

theorem keeps_skip : Keeps related (skip : ChangeStep α) := fun value => refl value

theorem Keeps.seq (h1 : Keeps related first) (h2 : Keeps related second) :
    Keeps related (first.seq second) := fun value => IsTrans.trans _ _ _ (h1 value) (h2 _)

theorem Keeps.or_else (h1 : Keeps related first) (h2 : Keeps related second) :
    Keeps related (first.or_else second) := by
  intro value
  cases hflag : (first value).1 with
  | true => rw [or_else_of_changed hflag]; exact h1 value
  | false => rw [or_else_of_unchanged hflag]; exact IsTrans.trans _ _ _ (h1 value) (h2 _)

theorem Keeps.converge (h : Keeps related step) (iterations : Nat) :
    Keeps related (step.converge iterations) := by
  induction iterations with
  | zero => exact keeps_skip
  | succ iterations ih =>
    intro value
    cases hflag : (step value).1 with
    | true => rw [converge_succ_of_changed hflag]; exact IsTrans.trans _ _ _ (h value) (ih _)
    | false => rw [converge_succ_of_unchanged hflag]; exact h value

end Keeps

/-- A pass that only goes up, and whose report is exact. -/
structure Inflationary [PartialOrder α] (step : ChangeStep α) : Prop where
  le : ∀ value, value ≤ (step value).2
  changed_iff : ∀ value, (step value).1 = true ↔ (step value).2 ≠ value

section Inflationary

variable [PartialOrder α] {first second step : ChangeStep α}

theorem Inflationary.unchanged (h : Inflationary step) {value : α} (hflag : (step value).1 = false) :
    (step value).2 = value := by
  by_contra hne
  rw [(h.changed_iff value).mpr hne] at hflag
  cases hflag

theorem inflationary_skip : Inflationary (skip : ChangeStep α) where
  le value := le_refl value
  changed_iff value := by simp [skip]

theorem Inflationary.seq (h1 : Inflationary first) (h2 : Inflationary second) :
    Inflationary (first.seq second) where
  le value := (h1.le value).trans (h2.le _)
  changed_iff value := by
    show ((second (first value).2).1 || (first value).1) = true ↔ (second (first value).2).2 ≠ value
    rw [Bool.or_eq_true, h1.changed_iff, h2.changed_iff]
    constructor
    · rintro (hsecond | hfirst) heq
      · have hmid : (first value).2 = value := le_antisymm ((h2.le _).trans_eq heq) (h1.le value)
        exact hsecond (heq.trans hmid.symm)
      · exact hfirst (le_antisymm ((h2.le _).trans_eq heq) (h1.le value))
    · intro hne
      by_cases hfirst : (first value).2 = value
      · exact Or.inl fun heq => hne (heq.trans hfirst)
      · exact Or.inr hfirst

theorem Inflationary.or_else (h1 : Inflationary first) (h2 : Inflationary second) :
    Inflationary (first.or_else second) where
  le value := by
    cases hflag : (first value).1 with
    | true => rw [or_else_of_changed hflag]; exact h1.le value
    | false => rw [or_else_of_unchanged hflag]; exact (h1.le value).trans (h2.le _)
  changed_iff value := by
    cases hflag : (first value).1 with
    | true => rw [or_else_of_changed hflag]; exact h1.changed_iff value
    | false => rw [or_else_of_unchanged hflag, h1.unchanged hflag]; exact h2.changed_iff value

theorem Inflationary.converge (h : Inflationary step) (iterations : Nat) :
    Inflationary (step.converge iterations) := by
  induction iterations with
  | zero => exact inflationary_skip
  | succ iterations ih =>
    refine ⟨fun value => ?_, fun value => ?_⟩
    · cases hflag : (step value).1 with
      | true => rw [converge_succ_of_changed hflag]; exact (h.le value).trans (ih.le _)
      | false => rw [converge_succ_of_unchanged hflag]; exact h.le value
    · cases hflag : (step value).1 with
      | true =>
        rw [converge_succ_of_changed hflag]
        have hne := (h.changed_iff value).mp hflag
        have hlt : ((step.converge iterations) (step value).2).2 ≠ value := fun heq =>
          hne (le_antisymm ((ih.le _).trans_eq heq) (h.le value))
        exact ⟨fun _ => hlt, fun _ => rfl⟩
      | false => rw [converge_succ_of_unchanged hflag]; exact h.changed_iff value

theorem Inflationary.le_or_else (h2 : Inflationary second) (value : α) :
    (first value).2 ≤ (first.or_else second value).2 := by
  cases hflag : (first value).1 with
  | true => rw [or_else_of_changed hflag]
  | false => rw [or_else_of_unchanged hflag]; exact h2.le _

theorem Inflationary.le_converge_succ (h : Inflationary step) (iterations : Nat) (value : α) :
    (step value).2 ≤ (step.converge (iterations + 1) value).2 := by
  cases hflag : (step value).1 with
  | true => rw [converge_succ_of_changed hflag]; exact (h.converge iterations).le _
  | false => rw [converge_succ_of_unchanged hflag]

/-- Two passes under `or` that change nothing are both made, and change nothing. -/
theorem Inflationary.of_or_else_eq (h1 : Inflationary first) {value : α}
    (h : first.or_else second value = (false, value)) :
    first value = (false, value) ∧ second value = (false, value) := by
  cases hflag : (first value).1 with
  | true => rw [or_else_of_changed hflag] at h; rw [h] at hflag; cases hflag
  | false =>
    rw [or_else_of_unchanged hflag, h1.unchanged hflag] at h
    exact ⟨Prod.ext hflag (h1.unchanged hflag), h⟩

/-- With more iterations than the height of the value can grow by, a repeated
pass ends on a value it leaves unchanged. -/
theorem Inflationary.converge_settles (h : Inflationary step) (height : α → Nat) (bound : Nat)
    (hstep : ∀ value, (step value).2 ≠ value → height value < height (step value).2)
    (hbound : ∀ value, height value ≤ bound) {iterations : Nat} {value : α}
    (hmany : bound < height value + iterations) :
    step (step.converge iterations value).2 = (false, (step.converge iterations value).2) := by
  induction iterations generalizing value with
  | zero => exact absurd (hbound value) (by omega)
  | succ iterations ih =>
    cases hflag : (step value).1 with
    | true =>
      rw [converge_succ_of_changed hflag]
      have hlt := hstep value ((h.changed_iff value).mp hflag)
      exact ih (by omega)
    | false =>
      rw [converge_succ_of_unchanged hflag, h.unchanged hflag]
      exact Prod.ext hflag (h.unchanged hflag)

end Inflationary

end ChangeStep
