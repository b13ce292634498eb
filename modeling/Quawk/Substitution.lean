import Quawk.ArrayStore
import Quawk.Lib.Matching
import Quawk.Lib.Spans

open Matching (restart restart_pos le_restart)
open Spans (Ordered replaced replaced_self extract_drop)

namespace quawk

/-- What the replacement adds for a match: `&` is the matched text, unless a backslash is before it. -/
def qk_append_substitute_replacement (replacement matched : Text) : Text :=
  match replacement with
  | [] => []
  | '&' :: rest => matched ++ qk_append_substitute_replacement rest matched
  | '\\' :: '&' :: rest => '&' :: qk_append_substitute_replacement rest matched
  | '\\' :: '\\' :: rest => '\\' :: qk_append_substitute_replacement rest matched
  | char :: rest => char :: qk_append_substitute_replacement rest matched

/-- The state of the loop: the text from the cursor on, what the scratch buffer has got, and the count. -/
structure SubstituteState where
  cursor : Text
  buffer : Text
  count : Nat

section Loop

variable (regex : Regex) (replacement : Text) (global : Bool)

/-- One turn: a state to go on with, or the one that the loop is left in. An empty match takes the next character on. -/
def substitute_turn (state : SubstituteState) : SubstituteState ⊕ SubstituteState :=
  match regex.exec state.cursor with
  | none => .inr state
  | some (first, last) =>
    let buffer := state.buffer ++ (state.cursor.take first ++
      qk_append_substitute_replacement replacement (state.cursor.extract first last))
    let count := state.count + 1
    if !global then .inr ⟨state.cursor.drop last, buffer, count⟩
    else if first = last then
      match state.cursor.drop last with
      | [] => .inr ⟨[], buffer, count⟩
      | char :: rest => .inl ⟨rest, buffer ++ [char], count⟩
    else .inl ⟨state.cursor.drop last, buffer, count⟩

/-- The loop for at most so many turns. -/
def substitute_loop : Nat → SubstituteState → Option SubstituteState
  | 0, _ => none
  | turns + 1, state =>
    match substitute_turn regex replacement global state with
    | .inl next => substitute_loop turns next
    | .inr final => some final

/-- The number of replacements and the new text, if the loop ends within `turns`. -/
def qk_substitute (turns : Nat) (text : Text) : Option (Nat × Text) :=
  (substitute_loop regex replacement global turns ⟨text, [], 0⟩).map fun final => (final.count, final.buffer ++ final.cursor)

end Loop

/-- The match that the loop makes last: the only one of `sub`, or an empty one at the end. -/
def is_last_match (global : Bool) (text : Text) (first last : Nat) : Bool :=
  !global || first == last && last == text.length

theorem restart_le {global : Bool} {text : Text} {first last : Nat} (h : last ≤ text.length)
    (hlast : is_last_match global text first last = false) : restart first last ≤ text.length := by
  unfold is_last_match at hlast
  unfold restart
  split
  · next heq =>
    have hend : last ≠ text.length := fun hend => by simp [heq, hend] at hlast
    omega
  · exact h

/-- Where the loop finds its matches, behind a cursor at `offset`. -/
def replaced_spans (regex : Regex) (global : Bool) (offset : Nat) (text : Text) : List (Nat × Nat) :=
  match hexec : regex.exec text with
  | none => []
  | some (first, last) =>
    (offset + first, offset + last) ::
      if hlast : is_last_match global text first last = true then []
      else replaced_spans regex global (offset + restart first last) (text.drop (restart first last))
termination_by text.length
decreasing_by
  obtain ⟨hfirst, hend⟩ := regex.bounds text first last hexec
  have hle := restart_le hend (Bool.eq_false_of_not_eq_true hlast)
  have hpos := restart_pos hfirst
  rw [List.length_drop]
  omega

variable {regex : Regex} {global : Bool} {text : Text} {first last : Nat}

theorem replaced_spans_none (h : regex.exec text = none) (offset : Nat) :
    replaced_spans regex global offset text = [] := by
  unfold replaced_spans
  split
  · rfl
  · next hsome => rw [h] at hsome; cases hsome

theorem replaced_spans_some (h : regex.exec text = some (first, last)) (offset : Nat) :
    replaced_spans regex global offset text = (offset + first, offset + last) ::
      if is_last_match global text first last = true then []
      else replaced_spans regex global (offset + restart first last) (text.drop (restart first last)) := by
  conv_lhs => unfold replaced_spans
  split
  · next hnone => rw [h] at hnone; cases hnone
  · next hsome =>
    rw [h] at hsome
    cases hsome
    rfl

/-- Every match but the last takes the cursor on by a character. -/
theorem replaced_spans_length (regex : Regex) (global : Bool) (offset : Nat) (text : Text) :
    (replaced_spans regex global offset text).length ≤ text.length + 1 := by
  induction hsize : text.length using Nat.strong_induction_on generalizing text offset with
  | _ size ih =>
    cases hexec : regex.exec text with
    | none => simp [replaced_spans_none hexec]
    | some span =>
      obtain ⟨first, last⟩ := span
      obtain ⟨hfirst, hend⟩ := regex.bounds text first last hexec
      rw [replaced_spans_some hexec, List.length_cons]
      split_ifs with hlast
      · simp
      · have hle := restart_le hend (Bool.eq_false_of_not_eq_true hlast)
        have hpos := restart_pos hfirst
        have hrest := ih _ (by rw [List.length_drop]; omega) (offset + restart first last)
          (text.drop (restart first last)) rfl
        rw [List.length_drop] at hrest
        omega

/-- The matches are in order, and none reaches over another. -/
theorem replaced_spans_ordered (regex : Regex) (global : Bool) (whole : Text) (offset : Nat) (text : Text)
    (htext : text = whole.drop offset) (hoffset : offset ≤ whole.length) :
    Ordered whole.length offset (replaced_spans regex global offset text) := by
  induction hsize : text.length using Nat.strong_induction_on generalizing text offset with
  | _ size ih =>
    have hlength : text.length = whole.length - offset := by rw [htext, List.length_drop]
    cases hexec : regex.exec text with
    | none =>
      rw [replaced_spans_none hexec]
      exact .nil hoffset
    | some span =>
      obtain ⟨first, last⟩ := span
      obtain ⟨hfirst, hend⟩ := regex.bounds text first last hexec
      rw [replaced_spans_some hexec]
      refine .cons (Nat.le_add_right _ _) (Nat.add_le_add_left hfirst _) ?_
      split_ifs with hlast
      · exact .nil (by omega)
      · have hle := restart_le hend (Bool.eq_false_of_not_eq_true hlast)
        have hpos := restart_pos hfirst
        have hbehind := le_restart first last
        refine (ih _ ?_ (offset + restart first last) (text.drop (restart first last)) ?_ (by omega) rfl).of_le
          (Nat.add_le_add_left hbehind _)
        · rw [List.length_drop]; omega
        · rw [htext, List.drop_drop]

theorem substitute_turn_some {replacement : Text} (h : regex.exec text = some (first, last)) (buffer : Text)
    (count : Nat) :
    substitute_turn regex replacement global ⟨text, buffer, count⟩ =
      if is_last_match global text first last = true then
        .inr ⟨text.drop last, buffer ++ (text.take first ++
          qk_append_substitute_replacement replacement (text.extract first last)), count + 1⟩
      else
        .inl ⟨text.drop (restart first last), buffer ++ (text.take first ++
          qk_append_substitute_replacement replacement (text.extract first last)) ++ text.extract last (restart first last),
          count + 1⟩ := by
  obtain ⟨_, hend⟩ := regex.bounds text first last h
  unfold substitute_turn is_last_match restart
  rw [h]
  cases global with
  | false => rfl
  | true =>
    by_cases hempty : first = last
    · subst hempty
      simp only [Bool.not_true, Bool.false_or, beq_self_eq_true, Bool.true_and, Bool.false_eq_true, if_false, if_true,
        beq_iff_eq]
      by_cases hlast : first = text.length
      · rw [if_pos hlast, List.drop_eq_nil_of_le (Nat.le_of_eq hlast.symm)]
      · have hcons := List.drop_eq_getElem_cons (show first < text.length by omega)
        have hextract : text.extract first (first + 1) = [text[first]] := by
          rw [List.extract_eq_take_drop, hcons, Nat.add_sub_cancel_left, List.take_succ_cons, List.take_zero]
        rw [if_neg hlast, hextract, hcons]
    · simp [hempty]

/-- The loop comes to an end, with every match replaced and everything else as it was. -/
theorem substitute_loop_run (regex : Regex) (replacement : Text) (global : Bool) {whole : Text} (turns offset : Nat)
    (state : SubstituteState) (hcursor : state.cursor = whole.drop offset) (hoffset : offset ≤ whole.length)
    (hturns : state.cursor.length + 2 ≤ turns) :
    ∃ final, substitute_loop regex replacement global turns state = some final ∧
      final.count = state.count + (replaced_spans regex global offset state.cursor).length ∧
      final.buffer ++ final.cursor = state.buffer ++ replaced (qk_append_substitute_replacement replacement) whole offset
        (replaced_spans regex global offset state.cursor) := by
  induction turns generalizing offset state with
  | zero => omega
  | succ turns ih =>
    obtain ⟨cursor, buffer, count⟩ := state
    simp only at hcursor hturns ⊢
    have hlength : cursor.length = whole.length - offset := by rw [hcursor, List.length_drop]
    unfold substitute_loop
    cases hexec : regex.exec cursor with
    | none =>
      have hturn : substitute_turn regex replacement global ⟨cursor, buffer, count⟩ = .inr ⟨cursor, buffer, count⟩ := by
        unfold substitute_turn
        rw [hexec]
      refine ⟨⟨cursor, buffer, count⟩, by rw [hturn], ?_, ?_⟩
      · rw [replaced_spans_none hexec]; rfl
      · rw [replaced_spans_none hexec, hcursor]; rfl
    | some span =>
      obtain ⟨first, last⟩ := span
      obtain ⟨hfirst, hend⟩ := regex.bounds cursor first last hexec
      have hkept : cursor.take first = whole.extract offset (offset + first) := by
        rw [hcursor, List.extract_eq_take_drop, Nat.add_sub_cancel_left]
      have hmatched : cursor.extract first last = whole.extract (offset + first) (offset + last) := by
        rw [hcursor, extract_drop]
      rw [substitute_turn_some hexec, replaced_spans_some hexec, hkept, hmatched]
      by_cases hlast : is_last_match global cursor first last = true
      · rw [if_pos hlast, if_pos hlast]
        refine ⟨_, rfl, rfl, ?_⟩
        rw [replaced, replaced, hcursor, List.drop_drop]
        simp only [List.append_assoc]
      · rw [if_neg hlast, if_neg hlast]
        have hle := restart_le hend (Bool.eq_false_of_not_eq_true hlast)
        have hpos := restart_pos hfirst
        have hbehind := le_restart first last
        have hdrop : cursor.drop (restart first last) = whole.drop (offset + restart first last) := by
          rw [hcursor, List.drop_drop]
        obtain ⟨final, hrun, hcount, hresult⟩ := ih (offset + restart first last) ⟨cursor.drop (restart first last), _, _⟩
          hdrop (by omega) (by simp only [List.length_drop]; omega)
        refine ⟨final, hrun, ?_, ?_⟩
        · rw [hcount, List.length_cons]
          simp only
          omega
        · have hordered := replaced_spans_ordered regex global whole (offset + restart first last) _ hdrop (by omega)
          rw [hresult, replaced, Spans.replaced_skip hordered (Nat.add_le_add_left hbehind _), hcursor, extract_drop]
          simp only [List.append_assoc]

theorem drop_zero_symm (text : Text) : text = text.drop 0 := rfl

/-- The count is the number of matches, and the text has every one of them replaced. -/
theorem qk_substitute_spans (regex : Regex) (replacement : Text) (global : Bool) (text : Text) {turns : Nat}
    (hturns : text.length + 2 ≤ turns) :
    qk_substitute regex replacement global turns text =
      some ((replaced_spans regex global 0 text).length,
        replaced (qk_append_substitute_replacement replacement) text 0 (replaced_spans regex global 0 text)) := by
  obtain ⟨final, hrun, hcount, hresult⟩ := substitute_loop_run regex replacement global turns 0 ⟨text, [], 0⟩
    (drop_zero_symm text) (Nat.zero_le text.length) hturns
  unfold qk_substitute
  rw [hrun, Option.map_some, hcount, hresult, Nat.zero_add]
  rfl

theorem replacement_matched (matched : Text) : qk_append_substitute_replacement ['&'] matched = matched :=
  List.append_nil matched

/-- Whatever the matcher finds, the loop makes at most one match more than there are characters, and replaces spans
that are in order and apart from each other; with `&` as the replacement the text stays as it is. -/
theorem qk_substitute_conservative (regex : Regex) (replacement text : Text) (global : Bool) :
    ∃ spans, Ordered text.length 0 spans ∧ spans.length ≤ text.length + 1 ∧ ∀ more,
      qk_substitute regex replacement global (text.length + 2 + more) text =
        some (spans.length, replaced (qk_append_substitute_replacement replacement) text 0 spans) ∧
      qk_substitute regex ['&'] global (text.length + 2 + more) text = some (spans.length, text) := by
  have hordered := replaced_spans_ordered regex global text 0 text (drop_zero_symm text) (Nat.zero_le text.length)
  refine ⟨replaced_spans regex global 0 text, hordered, replaced_spans_length regex global 0 text, fun more => ?_⟩
  have hturns : text.length + 2 ≤ text.length + 2 + more := Nat.le_add_right _ _
  refine ⟨qk_substitute_spans regex replacement global text hturns, ?_⟩
  have hmatched : qk_append_substitute_replacement ['&'] = fun matched => matched := funext replacement_matched
  rw [qk_substitute_spans regex ['&'] global text hturns, hmatched, replaced_self hordered]
  rfl

end quawk
