import Quawk.Substitution
import Quawk.Substrings

namespace quawk

namespace StringFunctions

section Slices

variable (scratch : Scratch) (text : Text)

/-- `substr` from behind the first characters on, up to a later position. -/
theorem substr3_extract {first last : Nat} (h : first ≤ last) (hlast : last ≤ text.length) :
    (scratch.qk_substr3 (some text) (first + 1) ((last : Int) - first)).1 = text.extract first last := by
  have hstart : (if ((first : Int) + 1) ≤ 1 then 0 else ((first : Int) + 1 - 1).toNat) = first := by
    split <;> omega
  unfold Scratch.qk_substr3
  simp only [hstart]
  split
  · next hempty =>
    have heq : first = last := by omega
    rw [heq, List.extract_eq_take_drop, Nat.sub_self, List.take_zero]
  · have hlength : ((last : Int) - first).toNat = last - first := by omega
    rw [if_neg (by omega), hlength, if_neg (by omega), Scratch.qk_store_scratch_buffer, List.extract_eq_take_drop]

theorem substr2_drop {first : Nat} (h : first ≤ text.length) :
    (scratch.qk_substr2 (some text) (first + 1)).1 = text.drop first := by
  have hstart : (if ((first : Int) + 1) ≤ 1 then 0 else ((first : Int) + 1 - 1).toNat) = first := by
    split <;> omega
  unfold Scratch.qk_substr2
  simp only [hstart]
  rw [if_neg (by omega), Scratch.qk_store_scratch_buffer, ← List.length_drop, List.take_length]

theorem extract_parts {first last : Nat} (h : first ≤ last) :
    text.extract 0 first ++ text.extract first last ++ text.drop last = text := by
  rw [List.extract_eq_take_drop, List.extract_eq_take_drop, List.drop_zero, Nat.sub_zero]
  have hdrop : text.drop last = (text.drop first).drop (last - first) := by rw [List.drop_drop, Nat.add_sub_cancel' h]
  rw [hdrop, List.append_assoc, List.take_append_drop, List.take_append_drop]

end Slices

/-- Where a text first has another one in it, as `strstr` of the C library finds it. -/
def strstr (search : Text) : Text → Option Nat
  | [] => if search.isEmpty then some 0 else none
  | char :: rest => if search.isPrefixOf (char :: rest) then some 0 else (strstr search rest).map (· + 1)

theorem strstr_eq_some {search text : Text} {position : Nat} (h : strstr search text = some position) :
    position ≤ text.length ∧ search <+: text.drop position ∧ ∀ other < position, ¬search <+: text.drop other := by
  induction text generalizing position with
  | nil =>
    rw [strstr] at h
    split at h
    · next hempty =>
      cases h
      rw [List.isEmpty_iff.mp hempty]
      exact ⟨Nat.le_refl 0, List.nil_prefix, fun _ hother => absurd hother (Nat.not_lt_zero _)⟩
    · cases h
  | cons char rest ih =>
    rw [strstr] at h
    split at h
    · next hprefix =>
      cases h
      exact ⟨Nat.zero_le _, List.isPrefixOf_iff_prefix.mp hprefix, fun _ hother => absurd hother (Nat.not_lt_zero _)⟩
    · next hprefix =>
      obtain ⟨found, hfound, rfl⟩ := Option.map_eq_some_iff.mp h
      obtain ⟨hle, hmatch, hleast⟩ := ih hfound
      refine ⟨Nat.succ_le_succ hle, hmatch, fun other hother => ?_⟩
      cases other with
      | zero => exact fun hzero => hprefix (List.isPrefixOf_iff_prefix.mpr hzero)
      | succ other => exact hleast other (Nat.lt_of_succ_lt_succ hother)

theorem strstr_eq_none {search text : Text} (h : strstr search text = none) : ¬search <:+: text := by
  induction text with
  | nil =>
    rw [strstr] at h
    split at h
    · cases h
    · next hempty => exact fun hinfix => hempty (List.isEmpty_iff.mpr (List.infix_nil.mp hinfix))
  | cons char rest ih =>
    rw [strstr] at h
    split at h
    · cases h
    · next hprefix =>
      intro hinfix
      obtain hstart | hlater := List.infix_cons_iff.mp hinfix
      · exact hprefix (List.isPrefixOf_iff_prefix.mpr hstart)
      · exact ih (Option.map_eq_none_iff.mp h) hlater

/-- `index`: the position of the searched text, from 1 on, or 0. -/
def qk_index (text search : Option Text) : Nat :=
  match text, search with
  | some text, some search =>
    if search.isEmpty then 1
    else match strstr search text with
      | none => 0
      | some position => position + 1
  | _, _ => 0

/-- The empty text is found at the start. -/
theorem qk_index_eq (text search : Text) :
    qk_index (some text) (some search) = (strstr search text).elim 0 (· + 1) := by
  unfold qk_index
  by_cases hempty : search.isEmpty = true
  · have hfound : strstr search text = some 0 := by
      rw [List.isEmpty_iff.mp hempty]
      cases text <;> rfl
    simp only [hempty, if_true, hfound]
    rfl
  · simp only [hempty]
    cases strstr search text <;> rfl

/-- Where `index` finds nothing, the searched text is nowhere in the text. Where it finds something, the position is one
that `substr` gives the searched text at, none before it is, and the three slices make up the text. -/
theorem index_locates (scratch : Scratch) (text search : Text) :
    (qk_index (some text) (some search) = 0 ∧ ¬search <:+: text) ∨
    ∃ position : Nat, qk_index (some text) (some search) = position ∧ 1 ≤ position ∧
      (scratch.qk_substr3 (some text) position search.length).1 = search ∧
      (∀ start : Nat, 1 ≤ start → start < position → (scratch.qk_substr3 (some text) start search.length).1 ≠ search) ∧
      (scratch.qk_substr3 (some text) 1 (position - 1)).1 ++ search ++
        (scratch.qk_substr2 (some text) (position + search.length)).1 = text := by
  rw [qk_index_eq]
  cases hfound : strstr search text with
  | none => exact .inl ⟨rfl, strstr_eq_none hfound⟩
  | some found =>
    obtain ⟨hle, hmatch, hleast⟩ := strstr_eq_some hfound
    have hlength := hmatch.length_le
    rw [List.length_drop] at hlength
    -- A slice as long as the searched text, from behind these characters on.
    have hslice (before : Nat) (hbefore : before + search.length ≤ text.length) :
        (scratch.qk_substr3 (some text) ((before : Int) + 1) search.length).1 = (text.drop before).take search.length := by
      have hextract := substr3_extract scratch text (Nat.le_add_right before search.length) hbefore
      rwa [Nat.cast_add, add_sub_cancel_left, List.extract_eq_take_drop, Nat.add_sub_cancel_left] at hextract
    have hsearch : (text.drop found).take search.length = search := List.prefix_iff_eq_take.mp hmatch |>.symm
    refine .inr ⟨found + 1, rfl, Nat.le_add_left 1 found, ?_, fun start hpos hless => ?_, ?_⟩
    · rw [Nat.cast_add, Nat.cast_one, hslice found (by omega), hsearch]
    · obtain ⟨before, rfl⟩ : ∃ before, start = before + 1 := ⟨start - 1, by omega⟩
      rw [Nat.cast_add, Nat.cast_one, hslice before (by omega)]
      exact fun heq => hleast before (by omega) (heq ▸ List.take_prefix _ _)
    · have hfirst := substr3_extract scratch text (Nat.zero_le found) hle
      have hrest := substr2_drop scratch text (show found + search.length ≤ text.length by omega)
      rw [Nat.cast_zero, zero_add, sub_zero] at hfirst
      rw [Nat.cast_add] at hrest
      rw [Nat.cast_add, Nat.cast_one, add_sub_cancel_right, add_right_comm, hfirst, hrest]
      have hparts := extract_parts text (Nat.le_add_right found search.length)
      rwa [show text.extract found (found + search.length) = search by
        rw [List.extract_eq_take_drop, Nat.add_sub_cancel_left, hsearch]] at hparts

/-- What `match` leaves in its two variables. -/
structure MatchVariables where
  rstart : Int
  rlength : Int
  deriving DecidableEq

/-- `match`: the variables and the result; a null operand or a pattern that `regcomp` rejects finds nothing. -/
def qk_match (text : Option Text) (regex : Option Regex) : MatchVariables × Int :=
  let cleared : MatchVariables := ⟨0, -1⟩
  match text, regex with
  | some text, some regex =>
    match regex.exec text with
    | none => (cleared, 0)
    | some (first, last) => (⟨first + 1, (last : Int) - first⟩, first + 1)
  | _, _ => (cleared, 0)

/-- What `sub` and `gsub` do where `match` finds something: the slices that `RSTART` and `RLENGTH` describe make up the
text, `sub` replaces the one in the middle, and `gsub` replaces it first. -/
structure SubstitutesLocated (scratch : Scratch) (regex : Regex) (replacement text : Text) (turns : Nat)
    (located : MatchVariables) : Prop where
  rstart_pos : 1 ≤ located.rstart
  rlength_nonneg : 0 ≤ located.rlength
  parts : (scratch.qk_substr3 (some text) 1 (located.rstart - 1)).1 ++
    (scratch.qk_substr3 (some text) located.rstart located.rlength).1 ++
    (scratch.qk_substr2 (some text) (located.rstart + located.rlength)).1 = text
  sub : qk_substitute regex replacement false turns text =
    some (1, (scratch.qk_substr3 (some text) 1 (located.rstart - 1)).1 ++ qk_append_substitute_replacement replacement
        (scratch.qk_substr3 (some text) located.rstart located.rlength).1 ++
      (scratch.qk_substr2 (some text) (located.rstart + located.rlength)).1)
  gsub : ∃ more rest, qk_substitute regex replacement true turns text =
    some (more + 1, (scratch.qk_substr3 (some text) 1 (located.rstart - 1)).1 ++
      qk_append_substitute_replacement replacement (scratch.qk_substr3 (some text) located.rstart located.rlength).1 ++ rest)

theorem match_located (scratch : Scratch) {regex : Regex} {text : Text} {first last : Nat}
    (h : regex.exec text = some (first, last)) (replacement : Text) {turns : Nat} (hturns : text.length + 2 ≤ turns) :
    SubstitutesLocated scratch regex replacement text turns ⟨first + 1, (last : Int) - first⟩ := by
  obtain ⟨hfirst, hlast⟩ := regex.bounds text first last h
  have hbefore := substr3_extract scratch text (Nat.zero_le first) (hfirst.trans hlast)
  rw [Nat.cast_zero, zero_add, sub_zero] at hbefore
  have hmatched := substr3_extract scratch text hfirst hlast
  have hrest := substr2_drop scratch text hlast
  have hbehind : (first : Int) + 1 + (last - first) = last + 1 := by omega
  refine ⟨show (1 : Int) ≤ first + 1 by omega, show (0 : Int) ≤ last - first by omega, ?_, ?_, ?_⟩ <;>
    rw [add_sub_cancel_right, hbefore, hmatched]
  · rw [hbehind, hrest]
    exact extract_parts text hfirst
  · rw [hbehind, hrest, qk_substitute_spans regex replacement false text hturns, replaced_spans_some h]
    simp only [is_last_match, Bool.not_false, Bool.true_or, if_true, Nat.zero_add, Spans.replaced, List.append_assoc]
    rfl
  · rw [qk_substitute_spans regex replacement true text hturns, replaced_spans_some h, Nat.zero_add, Nat.zero_add,
      Spans.replaced, List.length_cons, ← List.append_assoc]
    exact ⟨_, _, rfl⟩

/-- `match`, `sub`, `gsub` and `substr` agree, whatever the matcher finds: either `match` gives 0 and neither function
replaces anything, or it gives `RSTART` and they replace what `RSTART` and `RLENGTH` describe. -/
theorem match_locates (scratch : Scratch) (regex : Regex) (replacement text : Text) (more : Nat) :
    (qk_match (some text) (some regex) = (⟨0, -1⟩, 0) ∧
      ∀ global, qk_substitute regex replacement global (text.length + 2 + more) text = some (0, text)) ∨
    ((qk_match (some text) (some regex)).2 = (qk_match (some text) (some regex)).1.rstart ∧
      SubstitutesLocated scratch regex replacement text (text.length + 2 + more)
        (qk_match (some text) (some regex)).1) := by
  have hturns : text.length + 2 ≤ text.length + 2 + more := Nat.le_add_right _ _
  cases hexec : regex.exec text with
  | none =>
    refine .inl ⟨by simp only [qk_match, hexec], fun global => ?_⟩
    rw [qk_substitute_spans regex replacement global text hturns, replaced_spans_none hexec]
    rfl
  | some span =>
    obtain ⟨first, last⟩ := span
    have hmatch : qk_match (some text) (some regex) = (MatchVariables.mk (first + 1) ((last : Int) - first), (first : Int) + 1) := by
      simp only [qk_match, hexec]
    rw [hmatch]
    exact .inr ⟨rfl, match_located scratch hexec replacement hturns⟩

end StringFunctions

end quawk
