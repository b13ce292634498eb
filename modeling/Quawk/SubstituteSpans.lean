import Quawk.Substitution

open Matching (Matcher exec exec_bounds exec_eq_some exec_isSome matches_at matches_at_start Allowed Next Successive
  restart restart_pos restart_le_of_allowed next_of_exec not_allowed_of_exec next_of_restart not_allowed_of_restart
  not_allowed_end matches_at_restart)

namespace quawk

/-- A matcher as `regexec` is: it takes the text it is given to be a whole one. -/
def posix_regex (pattern : Matcher Char) : Regex where
  exec := exec pattern true
  bounds _ _ _ := exec_bounds

/-- From where the search goes on behind a match, a `^` finds nothing that it would not find in the whole text, and
nothing empty is found right behind the match. -/
def RestartsAlike (pattern : Matcher Char) (text : Text) (first last : Nat) : Prop :=
  restart first last ≤ text.length →
    exec pattern true (text.drop (restart first last)) = exec pattern false (text.drop (restart first last)) ∧
      (first < last → exec pattern false (text.drop last) ≠ some (0, 0))

/-- The search from an offset finds the match that is taken next. -/
def FindsNext (pattern : Matcher Char) (text : Text) (previous : Option Nat) (offset : Nat) : Prop :=
  match exec pattern true (text.drop offset) with
  | none => ∀ first last, ¬ Allowed pattern text previous first last
  | some (first, last) => Next pattern text previous (offset + first) (offset + last)

variable {pattern : Matcher Char} {text : Text} {previous : Option Nat} {offset first last : Nat}
  {spans : List (Nat × Nat)}

theorem finds_first (pattern : Matcher Char) (text : Text) : FindsNext pattern text none 0 := by
  unfold FindsNext
  split
  · next hnone => exact fun first last => not_allowed_of_exec hnone
  · next hsome =>
    rw [Nat.zero_add, Nat.zero_add]
    exact next_of_exec hsome

theorem restart_add (offset first last : Nat) : restart (offset + first) (offset + last) = offset + restart first last := by
  unfold restart
  simp only [Nat.add_left_cancel_iff]
  split <;> rfl

/-- A match that is not the last one is followed by a search within the text. -/
theorem restart_within (hbounds : first ≤ last ∧ last ≤ (text.drop offset).length) (hoffset : offset ≤ text.length) :
    is_last_match true (text.drop offset) first last = false ↔ restart (offset + first) (offset + last) ≤ text.length := by
  rw [List.length_drop] at hbounds
  rw [restart_add]
  unfold is_last_match restart
  rw [Bool.not_true, Bool.false_or, Bool.and_eq_false_iff, beq_eq_false_iff_ne, beq_eq_false_iff_ne, List.length_drop]
  split <;> omega

theorem finds_next_of_alike (hnext : Next pattern text previous first last)
    (hrestart : restart first last ≤ text.length) (halike : RestartsAlike pattern text first last) :
    FindsNext pattern text (some last) (restart first last) := by
  obtain ⟨hsame, hempty⟩ := halike hrestart
  unfold FindsNext
  rw [hsame]
  cases hexec : exec pattern false (text.drop (restart first last)) with
  | none => exact not_allowed_of_restart hnext hrestart hexec
  | some span =>
    obtain ⟨other, other_last⟩ := span
    refine next_of_restart hnext hrestart hexec fun hless hzero => hempty hless ?_
    have hposition : restart first last = last := if_neg (Nat.ne_of_lt hless)
    rw [hposition] at hexec
    rw [hexec, hzero.1, hzero.2]

theorem successive_end (h : Successive pattern text (some text.length) spans) : spans = [] := by
  cases h with
  | done => rfl
  | next hnext => exact absurd hnext.allowed not_allowed_end

/-- The match at the end of the text, if it is empty, is the last. -/
theorem successive_last (h : Successive pattern text (some last) spans) (hnext : Next pattern text previous first last)
    (hend : ¬ restart first last ≤ text.length) : spans = [] := by
  have hbounds := hnext.bounds
  have hlast : last = text.length := by
    unfold restart at hend
    split at hend <;> omega
  exact successive_end (hlast ▸ h)

/-- The search finds the matches that are to be taken as long as it finds the same behind every one of them. -/
theorem replaced_spans_of_successive (h : Successive pattern text previous spans) {offset : Nat}
    (hoffset : offset ≤ text.length) (hfinds : FindsNext pattern text previous offset)
    (halike : ∀ span ∈ spans, RestartsAlike pattern text span.1 span.2) :
    replaced_spans (posix_regex pattern) true offset (text.drop offset) = spans := by
  induction h generalizing offset with
  | done hnone =>
    unfold FindsNext at hfinds
    cases hexec : exec pattern true (text.drop offset) with
    | none => exact replaced_spans_none hexec offset
    | some span =>
      rw [hexec] at hfinds
      exact absurd hfinds.allowed (hnone _ _)
  | @next _ first last spans hnext hrest ih =>
    unfold FindsNext at hfinds
    cases hexec : exec pattern true (text.drop offset) with
    | none =>
      rw [hexec] at hfinds
      exact absurd hnext.allowed (hfinds _ _)
    | some span =>
      obtain ⟨front, back⟩ := span
      rw [hexec] at hfinds
      obtain ⟨rfl, rfl⟩ := hnext.unique hfinds
      have hwithin := restart_within (exec_bounds hexec) hoffset
      rw [replaced_spans_some hexec]
      by_cases hend : restart (offset + front) (offset + back) ≤ text.length
      · rw [hwithin.mpr hend, if_neg Bool.false_ne_true, List.drop_drop, ← restart_add]
        have hsame := halike _ List.mem_cons_self
        rw [ih hend (finds_next_of_alike hnext hend hsame) fun span hspan => halike span (List.mem_cons_of_mem _ hspan)]
      · have hlast : is_last_match true (text.drop offset) front back = true := by
          by_contra hnot
          exact hend (hwithin.mp (Bool.eq_false_of_not_eq_true hnot))
        rw [hlast, if_pos rfl, successive_last hrest hnext hend]

theorem replaced_spans_cons {regex : Regex} {global : Bool} {span : Nat × Nat}
    (h : replaced_spans regex global offset text = span :: spans) :
    ∃ first last, regex.exec text = some (first, last) ∧ span = (offset + first, offset + last) := by
  cases hexec : regex.exec text with
  | none =>
    rw [replaced_spans_none hexec] at h
    cases h
  | some found =>
    obtain ⟨first, last⟩ := found
    rw [replaced_spans_some hexec] at h
    exact ⟨first, last, rfl, (List.cons.inj h).1.symm⟩

/-- If the matches that are found are the ones to be taken, the search finds the same behind the first of them. -/
theorem alike_of_successive (hnext : Next pattern text previous first last) (hrest : Successive pattern text (some last) spans)
    (hspans : restart first last ≤ text.length →
      replaced_spans (posix_regex pattern) true (restart first last) (text.drop (restart first last)) = spans) :
    RestartsAlike pattern text first last := by
  intro hrestart
  have hspans := hspans hrestart
  cases hexec : exec pattern false (text.drop (restart first last)) with
  | none =>
    have hnone := not_allowed_of_restart hnext hrestart hexec
    obtain rfl : spans = [] := by
      cases hrest with
      | done => rfl
      | next hafter => exact absurd hafter.allowed (hnone _ _)
    refine ⟨?_, fun hless => ?_⟩
    · cases hfound : exec pattern true (text.drop (restart first last)) with
      | none => rfl
      | some span =>
        have hcons : replaced_spans (posix_regex pattern) true (restart first last) (text.drop (restart first last)) = _ :=
          replaced_spans_some hfound _
        rw [hspans] at hcons
        cases hcons
    · have hposition : restart first last = last := if_neg (Nat.ne_of_lt hless)
      rw [hposition] at hexec
      rw [hexec]
      exact nofun
  | some span =>
    obtain ⟨other, other_last⟩ := span
    by_cases hempty : first < last ∧ other = 0 ∧ other_last = 0
    · -- an empty match right behind this one is found, though it is not to be taken
      obtain ⟨hless, rfl, rfl⟩ := hempty
      have hposition : restart first last = last := if_neg (Nat.ne_of_lt hless)
      obtain ⟨hmatch, hmost⟩ := exec_eq_some hexec
      obtain ⟨found, found_last, hfound⟩ := exec_isSome (matches_at_start hmatch)
      have hstart := (exec_eq_some hfound).2 0 0 (matches_at_start hmatch)
      obtain rfl : found = 0 := by omega
      rw [replaced_spans_some (show (posix_regex pattern).exec _ = some (0, found_last) from hfound)] at hspans
      subst hspans
      cases hrest with
      | next hafter _ =>
        have hallowed := hafter.allowed
        have hwithin := hallowed.1
        rw [← matches_at_restart hnext hrestart] at hwithin
        have hshort := hmost 0 found_last hwithin
        exact absurd ⟨by omega, by omega⟩ (hallowed.2 last rfl).2
    · have htaken := next_of_restart hnext hrestart hexec fun hless hzero => hempty ⟨hless, hzero⟩
      cases hrest with
      | done hnone => exact absurd htaken.allowed (hnone _ _)
      | @next _ found found_last _ hafter _ =>
        obtain ⟨rfl, rfl⟩ := htaken.unique hafter
        obtain ⟨front, back, hfound, hspan⟩ := replaced_spans_cons hspans
        obtain ⟨hfront, hback⟩ := Prod.mk.inj hspan
        obtain rfl := Nat.add_left_cancel hfront
        obtain rfl := Nat.add_left_cancel hback
        refine ⟨hfound, fun hless heq => ?_⟩
        have hposition : restart first last = last := if_neg (Nat.ne_of_lt hless)
        rw [hposition] at hexec
        rw [hexec] at heq
        obtain ⟨rfl, rfl⟩ := Prod.mk.inj (Option.some.inj heq)
        exact hempty ⟨hless, rfl, rfl⟩

theorem restarts_alike_of_successive (h : Successive pattern text previous spans) {offset : Nat}
    (hoffset : offset ≤ text.length) (hfinds : FindsNext pattern text previous offset)
    (hspans : replaced_spans (posix_regex pattern) true offset (text.drop offset) = spans) :
    ∀ span ∈ spans, RestartsAlike pattern text span.1 span.2 := by
  induction h generalizing offset with
  | done => exact fun span hspan => absurd hspan List.not_mem_nil
  | @next _ first last spans hnext hrest ih =>
    obtain ⟨front, back, hexec, hspan⟩ := replaced_spans_cons hspans
    obtain ⟨rfl, rfl⟩ := Prod.mk.inj hspan
    have hwithin := restart_within (exec_bounds hexec) hoffset
    rw [replaced_spans_some hexec, List.cons.injEq] at hspans
    have hbehind : restart (offset + front) (offset + back) ≤ text.length →
        replaced_spans (posix_regex pattern) true (restart (offset + front) (offset + back))
          (text.drop (restart (offset + front) (offset + back))) = spans := by
      intro hend
      rw [← hspans.2, hwithin.mpr hend, if_neg Bool.false_ne_true, List.drop_drop, restart_add]
    have halike := alike_of_successive hnext hrest hbehind
    intro span hspan
    obtain rfl | hspan := List.mem_cons.mp hspan
    · exact halike
    · by_cases hend : restart (offset + front) (offset + back) ≤ text.length
      · exact ih hend (finds_next_of_alike hnext hend halike) (hbehind hend) span hspan
      · rw [successive_last hrest hnext hend] at hspan
        cases hspan

/-- Every match that is taken is found, and nothing else, just where the search finds the same behind each of them. -/
theorem replaced_spans_successive_iff (pattern : Matcher Char) (text : Text) :
    Successive pattern text none (replaced_spans (posix_regex pattern) true 0 text) ↔
      ∃ spans, Successive pattern text none spans ∧ ∀ span ∈ spans, RestartsAlike pattern text span.1 span.2 := by
  have hfinds := finds_first pattern text
  constructor
  · intro h
    exact ⟨_, h, restarts_alike_of_successive h (Nat.zero_le _) hfinds rfl⟩
  · rintro ⟨spans, h, halike⟩
    have hspans := replaced_spans_of_successive h (Nat.zero_le _) hfinds halike
    rw [List.drop_zero] at hspans
    exact hspans ▸ h

/-- The matches that are to be replaced: the leftmost longest one, or all that follow each other. -/
def ReferenceSpans (pattern : Matcher Char) (text : Text) (global : Bool) (spans : List (Nat × Nat)) : Prop :=
  if global then Successive pattern text none spans
  else spans = [] ∧ (∀ first last, ¬ Allowed pattern text none first last) ∨
    ∃ first last, spans = [(first, last)] ∧ Next pattern text none first last

/-- The one match of `sub` is the leftmost longest one. -/
theorem sub_reference_spans (pattern : Matcher Char) (text : Text) :
    ReferenceSpans pattern text false (replaced_spans (posix_regex pattern) false 0 text) := by
  unfold ReferenceSpans
  rw [if_neg Bool.false_ne_true]
  cases hexec : exec pattern true text with
  | none => exact .inl ⟨replaced_spans_none hexec 0, fun first last => not_allowed_of_exec hexec⟩
  | some span =>
    obtain ⟨first, last⟩ := span
    refine .inr ⟨first, last, ?_, next_of_exec hexec⟩
    rw [replaced_spans_some (show (posix_regex pattern).exec text = some (first, last) from hexec), Nat.zero_add, Nat.zero_add]
    rfl

theorem replaced_spans_eq_nil {regex : Regex} {global : Bool} {offset : Nat} {text : Text} :
    replaced_spans regex global offset text = [] ↔ regex.exec text = none := by
  cases hexec : regex.exec text with
  | none => simp [replaced_spans_none hexec]
  | some span =>
    obtain ⟨first, last⟩ := span
    simp [replaced_spans_some hexec]

/-- There is one list of the matches that are to be replaced. -/
theorem referenceSpans_unique {text : Text} {global : Bool} {spans spans' : List (Nat × Nat)}
    (h : ReferenceSpans pattern text global spans) (h' : ReferenceSpans pattern text global spans') : spans = spans' := by
  unfold ReferenceSpans at h h'
  cases global with
  | true => exact h.unique h'
  | false =>
    rw [if_neg Bool.false_ne_true] at h h'
    obtain ⟨rfl, hnone⟩ | ⟨first, last, rfl, hnext⟩ := h
    · obtain ⟨rfl, -⟩ | ⟨first, last, -, hnext⟩ := h'
      · rfl
      · exact absurd hnext.allowed (hnone first last)
    · obtain ⟨-, hnone⟩ | ⟨first', last', rfl, hnext'⟩ := h'
      · exact absurd hnext.allowed (hnone first last)
      · obtain ⟨rfl, rfl⟩ := hnext.unique hnext'
        rfl

end quawk
