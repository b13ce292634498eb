import Mathlib.Data.List.Basic

namespace Matching

variable {α : Type}

/-- What a pattern matches: a piece of a text, which may stand at its start, at its end or at none of them. What is
matched away from the start is matched there, too. -/
structure Matcher (α : Type) where
  accepts : Bool → Bool → List α → Bool
  at_start : ∀ at_end piece, accepts false at_end piece = true → accepts true at_end piece = true

variable (pattern : Matcher α)

/-- The pattern matches the text between two positions; `is_start` tells whether the text starts where it starts. -/
def matches_at (is_start : Bool) (text : List α) (first last : Nat) : Bool :=
  decide (first ≤ last) && decide (last ≤ text.length) &&
    pattern.accepts (is_start && first == 0) (last == text.length) (text.extract first last)

/-- The end of the longest match at a position. -/
def longest (is_start : Bool) (text : List α) (first : Nat) : Option Nat :=
  ((List.range (text.length + 1)).find? fun back => matches_at pattern is_start text first (text.length - back)).map
    (text.length - ·)

/-- The leftmost match, and of those the longest. -/
def exec (is_start : Bool) (text : List α) : Option (Nat × Nat) :=
  ((List.range (text.length + 1)).find? fun first => (longest pattern is_start text first).isSome).bind fun first =>
    (longest pattern is_start text first).map (first, ·)

variable {pattern} {is_start : Bool} {text : List α} {first last : Nat}

theorem matches_at_bounds (h : matches_at pattern is_start text first last = true) : first ≤ last ∧ last ≤ text.length := by
  unfold matches_at at h
  rw [Bool.and_eq_true, Bool.and_eq_true, decide_eq_true_eq, decide_eq_true_eq] at h
  exact h.1

theorem longest_eq_some (h : longest pattern is_start text first = some last) :
    matches_at pattern is_start text first last = true ∧
      ∀ other, matches_at pattern is_start text first other = true → other ≤ last := by
  obtain ⟨back, hback, rfl⟩ := Option.map_eq_some_iff.mp h
  obtain ⟨hmatch, _, hleast⟩ := List.find?_range_eq_some.mp hback
  refine ⟨hmatch, fun other hother => ?_⟩
  have hbound := (matches_at_bounds hother).2
  by_contra hmore
  have hfails := hleast (text.length - other) (by omega)
  have hsub : text.length - (text.length - other) = other := by omega
  rw [hsub, hother] at hfails
  cases hfails

theorem longest_isSome (h : matches_at pattern is_start text first last = true) :
    (longest pattern is_start text first).isSome = true := by
  have hbound := (matches_at_bounds h).2
  unfold longest
  rw [Option.isSome_map, List.find?_isSome]
  have hsub : text.length - (text.length - last) = last := by omega
  exact ⟨text.length - last, List.mem_range.mpr (by omega), by rw [hsub]; exact h⟩

theorem exec_eq_some (h : exec pattern is_start text = some (first, last)) :
    matches_at pattern is_start text first last = true ∧
      ∀ other other_last, matches_at pattern is_start text other other_last = true →
        first < other ∨ first = other ∧ other_last ≤ last := by
  obtain ⟨found, hfound, hlongest⟩ := Option.bind_eq_some_iff.mp h
  obtain ⟨found_last, hlast, heq⟩ := Option.map_eq_some_iff.mp hlongest
  obtain ⟨rfl, rfl⟩ := Prod.mk.inj heq
  obtain ⟨_, _, hleast⟩ := List.find?_range_eq_some.mp hfound
  obtain ⟨hmatch, hmost⟩ := longest_eq_some hlast
  refine ⟨hmatch, fun other other_last hother => ?_⟩
  rcases Nat.lt_trichotomy found other with hlt | rfl | hgt
  · exact .inl hlt
  · exact .inr ⟨rfl, hmost other_last hother⟩
  · have hfails := hleast other hgt
    rw [longest_isSome hother] at hfails
    cases hfails

theorem exec_isSome (h : matches_at pattern is_start text first last = true) :
    ∃ found found_last, exec pattern is_start text = some (found, found_last) := by
  have hbounds := matches_at_bounds h
  have hfind : ((List.range (text.length + 1)).find? fun first => (longest pattern is_start text first).isSome).isSome := by
    rw [List.find?_isSome]
    exact ⟨first, List.mem_range.mpr (by omega), longest_isSome h⟩
  obtain ⟨found, hfound⟩ := Option.isSome_iff_exists.mp hfind
  obtain ⟨found_last, hlast⟩ := Option.isSome_iff_exists.mp (List.find?_range_eq_some.mp hfound).1
  exact ⟨found, found_last, by unfold exec; rw [hfound, Option.bind_some, hlast, Option.map_some]⟩

theorem exec_bounds (h : exec pattern is_start text = some (first, last)) : first ≤ last ∧ last ≤ text.length :=
  matches_at_bounds (exec_eq_some h).1

/-- A match of the rest of a text is one of the whole text; the rest starts where the text does only if it is all. -/
theorem matches_at_drop {offset : Nat} (hoffset : offset ≤ text.length) :
    matches_at pattern (offset == 0) (text.drop offset) first last =
      matches_at pattern true text (offset + first) (offset + last) := by
  have hextract : (text.drop offset).extract first last = text.extract (offset + first) (offset + last) := by
    rw [List.extract_eq_take_drop, List.extract_eq_take_drop, List.drop_drop, Nat.add_sub_add_left]
  have hle : decide (first ≤ last) = decide (offset + first ≤ offset + last) :=
    decide_eq_decide.mpr (by omega)
  have hend : decide (last ≤ (text.drop offset).length) = decide (offset + last ≤ text.length) := by
    rw [List.length_drop]
    exact decide_eq_decide.mpr (by omega)
  have hstart : (offset == 0 && first == 0) = (true && offset + first == 0) := by
    rw [Bool.true_and, Bool.eq_iff_iff, Bool.and_eq_true]
    simp only [beq_iff_eq]
    omega
  have hlast : (last == (text.drop offset).length) = (offset + last == text.length) := by
    rw [List.length_drop, Bool.eq_iff_iff]
    simp only [beq_iff_eq]
    omega
  unfold matches_at
  rw [hextract, hle, hend, hstart, hlast]

theorem matches_at_start (h : matches_at pattern false text first last = true) :
    matches_at pattern true text first last = true := by
  unfold matches_at at h ⊢
  rw [Bool.and_eq_true] at h ⊢
  refine ⟨h.1, ?_⟩
  rw [Bool.true_and]
  cases hfirst : (first == 0) with
  | false => exact h.2
  | true => exact pattern.at_start _ _ h.2

/-- A match that may be taken behind the end of the one before: not an empty one right at that end. -/
def Allowed (pattern : Matcher α) (text : List α) (previous : Option Nat) (first last : Nat) : Prop :=
  matches_at pattern true text first last = true ∧
    ∀ position, previous = some position → position ≤ first ∧ ¬ (first = position ∧ last = position)

/-- The leftmost of the matches that may be taken, and of those the longest. -/
structure Next (pattern : Matcher α) (text : List α) (previous : Option Nat) (first last : Nat) : Prop where
  allowed : Allowed pattern text previous first last
  least : ∀ other other_last, Allowed pattern text previous other other_last →
    first < other ∨ first = other ∧ other_last ≤ last

/-- The leftmost longest matches that do not overlap. -/
inductive Successive (pattern : Matcher α) (text : List α) : Option Nat → List (Nat × Nat) → Prop where
  | done {previous : Option Nat} (hnone : ∀ first last, ¬ Allowed pattern text previous first last) :
      Successive pattern text previous []
  | next {previous : Option Nat} {first last : Nat} {spans : List (Nat × Nat)}
      (hnext : Next pattern text previous first last) (hrest : Successive pattern text (some last) spans) :
      Successive pattern text previous ((first, last) :: spans)

variable {previous : Option Nat}

theorem Next.unique {other other_last : Nat} (h : Next pattern text previous first last)
    (h' : Next pattern text previous other other_last) : first = other ∧ last = other_last := by
  have hle := h.least _ _ h'.allowed
  have hle' := h'.least _ _ h.allowed
  omega

/-- There is one list of such matches. -/
theorem Successive.unique {spans spans' : List (Nat × Nat)} (h : Successive pattern text previous spans)
    (h' : Successive pattern text previous spans') : spans = spans' := by
  induction h generalizing spans' with
  | done hnone =>
    cases h' with
    | done => rfl
    | next hnext => exact absurd hnext.allowed (hnone _ _)
  | next hnext _ ih =>
    cases h' with
    | done hnone => exact absurd hnext.allowed (hnone _ _)
    | next hnext' hrest' =>
      obtain ⟨rfl, rfl⟩ := hnext.unique hnext'
      rw [ih hrest']

theorem Next.bounds (h : Next pattern text previous first last) : first ≤ last ∧ last ≤ text.length :=
  matches_at_bounds h.allowed.1

/-- Behind an empty match at the end there is no other. -/
theorem not_allowed_end : ¬ Allowed pattern text (some text.length) first last := by
  intro h
  have hbounds := matches_at_bounds h.1
  have hposition := h.2 text.length rfl
  omega

/-- The leftmost longest match of the whole text is the first that is taken. -/
theorem next_of_exec (h : exec pattern true text = some (first, last)) : Next pattern text none first last := by
  obtain ⟨hmatch, hleast⟩ := exec_eq_some h
  exact ⟨⟨hmatch, nofun⟩, fun other other_last hother => hleast other other_last hother.1⟩

theorem not_allowed_of_exec (h : exec pattern true text = none) : ¬ Allowed pattern text none first last := by
  intro hallowed
  obtain ⟨_, _, hsome⟩ := exec_isSome hallowed.1
  rw [h] at hsome
  cases hsome

/-- Where the search goes on behind a match: at its end, or a character further if it is empty. -/
def restart (first last : Nat) : Nat := if first = last then last + 1 else last

theorem restart_pos (h : first ≤ last) : 0 < restart first last := by
  unfold restart
  split <;> omega

theorem le_restart (first last : Nat) : last ≤ restart first last := by
  unfold restart
  split <;> omega

/-- What may be taken behind a match is found from the restart on. -/
theorem restart_le_of_allowed {other other_last : Nat} (h : Next pattern text previous first last)
    (hother : Allowed pattern text (some last) other other_last) : restart first last ≤ other := by
  obtain ⟨hmatch, hposition⟩ := hother
  obtain ⟨hle, hempty⟩ := hposition last rfl
  have hbounds := matches_at_bounds hmatch
  unfold restart
  split
  · next heq =>
    by_contra hless
    have hsame : other = first := by omega
    have hallowed : Allowed pattern text previous first other_last := by
      refine ⟨hsame ▸ hmatch, fun position hprevious => ⟨(h.allowed.2 position hprevious).1, ?_⟩⟩
      rintro ⟨hfirst, hlast⟩
      omega
    have hleast := h.least _ _ hallowed
    omega
  · exact hle

section Restart

variable (hnext : Next pattern text previous first last) (hrestart : restart first last ≤ text.length)
include hnext hrestart

theorem matches_at_restart {other other_last : Nat} :
    matches_at pattern false (text.drop (restart first last)) other other_last =
      matches_at pattern true text (restart first last + other) (restart first last + other_last) := by
  have hpos := restart_pos hnext.bounds.1
  rw [← matches_at_drop hrestart, beq_false_of_ne (Nat.ne_of_gt hpos)]

/-- What the search finds from the restart on is taken next, unless it is empty and right behind a match. -/
theorem next_of_restart {other other_last : Nat}
    (hexec : exec pattern false (text.drop (restart first last)) = some (other, other_last))
    (hempty : first < last → ¬ (other = 0 ∧ other_last = 0)) :
    Next pattern text (some last) (restart first last + other) (restart first last + other_last) := by
  obtain ⟨hmatch, hleast⟩ := exec_eq_some hexec
  have hbounds := matches_at_bounds hmatch
  rw [matches_at_restart hnext hrestart] at hmatch
  have hlast := le_restart first last
  refine ⟨⟨hmatch, fun position hposition => ?_⟩, fun another another_last hanother => ?_⟩
  · obtain rfl := Option.some.inj hposition
    refine ⟨by omega, fun ⟨hfirst, hlast'⟩ => ?_⟩
    have heq : restart first last = last := by omega
    have hless : first < last := by
      unfold restart at heq
      have := hnext.bounds.1
      split at heq <;> omega
    exact hempty hless ⟨by omega, by omega⟩
  · have hle := restart_le_of_allowed hnext hanother
    obtain ⟨more, rfl⟩ := Nat.exists_eq_add_of_le hle
    have hbounds' := matches_at_bounds hanother.1
    obtain ⟨more_last, rfl⟩ : ∃ more_last, another_last = restart first last + more_last :=
      ⟨another_last - restart first last, by omega⟩
    have hfound := hleast more more_last (by rw [matches_at_restart hnext hrestart]; exact hanother.1)
    omega

theorem not_allowed_of_restart (hexec : exec pattern false (text.drop (restart first last)) = none)
    (other other_last : Nat) : ¬ Allowed pattern text (some last) other other_last := by
  intro hallowed
  have hle := restart_le_of_allowed hnext hallowed
  have hbounds := matches_at_bounds hallowed.1
  obtain ⟨more, rfl⟩ := Nat.exists_eq_add_of_le hle
  obtain ⟨more_last, rfl⟩ : ∃ more_last, other_last = restart first last + more_last :=
    ⟨other_last - restart first last, by omega⟩
  have hmatch : matches_at pattern false (text.drop (restart first last)) more more_last = true := by
    rw [matches_at_restart hnext hrestart]
    exact hallowed.1
  obtain ⟨_, _, hsome⟩ := exec_isSome hmatch
  rw [hexec] at hsome
  cases hsome

end Restart

end Matching
