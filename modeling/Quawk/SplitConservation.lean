import Quawk.Lib.Spans
import Quawk.SplitAgreement

open Spans (interleave extract_drop drop_eq_extract)

namespace quawk

open ArrayStore (regex_pieces_none c_string_self points_into)

/-- For every match: where the text begins that is left, and where in it the match begins and ends. -/
def regex_turns (regex : Regex) (offset : Nat) (text : Text) : List (Nat × Nat × Nat) :=
  match hexec : regex.exec text with
  | none => []
  | some (first, last) =>
    (offset, first, last) ::
      if first = last then
        if last = text.length then [] else regex_turns regex (offset + (last + 1)) (text.drop (last + 1))
      else regex_turns regex (offset + last) (text.drop last)
termination_by text.length
decreasing_by
  · obtain ⟨_, hlast⟩ := regex.bounds text first last hexec
    simp only [List.length_drop]
    omega
  · obtain ⟨hfirst, hlast⟩ := regex.bounds text first last hexec
    simp only [List.length_drop]
    omega

/-- The text a match of a turn is found in. -/
def matched_text (text : Text) : Nat × Nat × Nat → Text
  | (offset, first, last) => text.extract (offset + first) (offset + last)

/-- The texts of the separators. -/
def matched_separators (regex : Regex) (text : Text) : List Text := (regex_turns regex 0 text).map (matched_text text)

/-- A match that is empty only at the end. -/
def LosesNothing (size : Nat) : Nat × Nat × Nat → Prop
  | (offset, first, last) => first < last ∨ offset + last = size

/-- The piece before the match is not longer than the text before the piece. -/
def FitsBefore : Nat × Nat × Nat → Prop
  | (offset, first, _) => first ≤ offset

section Turns

variable {regex : Regex} {text : Text} {offset first last : Nat}

theorem regex_turns_none (h : regex.exec text = none) (offset : Nat) : regex_turns regex offset text = [] := by
  rw [regex_turns]
  split
  · rfl
  · next hsome => rw [h] at hsome; cases hsome

theorem regex_turns_some (h : regex.exec text = some (first, last)) (offset : Nat) :
    regex_turns regex offset text = (offset, first, last) ::
      if first = last then
        if last = text.length then [] else regex_turns regex (offset + (last + 1)) (text.drop (last + 1))
      else regex_turns regex (offset + last) (text.drop last) := by
  conv_lhs => rw [regex_turns]
  split
  · next hnone => rw [h] at hnone; cases hnone
  · next hsome =>
    rw [h] at hsome
    obtain ⟨rfl, rfl⟩ := Prod.mk.inj (Option.some.inj hsome)
    rfl

/-- One way to go through the turns and the pieces of a text: no match, an empty one at the end, an empty one before it,
and another one. -/
theorem turns_induction (regex : Regex) {motive : Nat → Text → Prop}
    (none : ∀ offset text, regex.exec text = none → motive offset text)
    (final : ∀ offset text, regex.exec text = some (text.length, text.length) → motive offset text)
    (empty : ∀ offset text last, regex.exec text = some (last, last) → last < text.length →
      motive (offset + (last + 1)) (text.drop (last + 1)) → motive offset text)
    (more : ∀ offset text first last, regex.exec text = some (first, last) → first < last → last ≤ text.length →
      motive (offset + last) (text.drop last) → motive offset text) (offset : Nat) (text : Text) : motive offset text := by
  generalize hlength : text.length = length
  induction length using Nat.strong_induction_on generalizing offset text with
  | _ length ih =>
    cases hexec : regex.exec text with
    | none => exact none offset text hexec
    | some span =>
      obtain ⟨first, last⟩ := span
      obtain ⟨hfirst, hlast⟩ := regex.bounds text first last hexec
      by_cases hempty : first = last
      · subst hempty
        by_cases hend : first = text.length
        · rw [hend] at hexec
          exact final offset text hexec
        · refine empty offset text first hexec (by omega) (ih _ ?_ _ _ rfl)
          rw [List.length_drop]
          omega
      · refine more offset text first last hexec (by omega) hlast (ih _ ?_ _ _ rfl)
        rw [List.length_drop]
        omega

theorem pieces_final (h : regex.exec text = some (text.length, text.length)) (offset : Nat) :
    regex_pieces regex text = [text, []] ∧ regex_turns regex offset text = [(offset, text.length, text.length)] := by
  rw [regex_pieces_some h, regex_turns_some h, if_pos rfl, if_pos rfl, if_pos rfl, if_pos rfl, List.take_length]
  exact ⟨rfl, rfl⟩

theorem pieces_empty (h : regex.exec text = some (last, last)) (hlast : last < text.length) (offset : Nat) :
    regex_pieces regex text = text.take last :: regex_pieces regex (text.drop (last + 1)) ∧
      regex_turns regex offset text = (offset, last, last) :: regex_turns regex (offset + (last + 1)) (text.drop (last + 1)) := by
  rw [regex_pieces_some h, regex_turns_some h, if_pos rfl, if_pos rfl, if_neg (Nat.ne_of_lt hlast),
    if_neg (Nat.ne_of_lt hlast)]
  exact ⟨rfl, rfl⟩

theorem pieces_more (h : regex.exec text = some (first, last)) (hfirst : first < last) (offset : Nat) :
    regex_pieces regex text = text.take first :: regex_pieces regex (text.drop last) ∧
      regex_turns regex offset text = (offset, first, last) :: regex_turns regex (offset + last) (text.drop last) := by
  rw [regex_pieces_some h, regex_turns_some h, if_neg (Nat.ne_of_lt hfirst), if_neg (Nat.ne_of_lt hfirst)]
  exact ⟨rfl, rfl⟩

/-- There is a piece more than there are matches. -/
theorem regex_pieces_length (regex : Regex) (offset : Nat) (text : Text) :
    (regex_pieces regex text).length = (regex_turns regex offset text).length + 1 := by
  induction offset, text using turns_induction regex with
  | none offset text hexec => rw [regex_pieces_none hexec, regex_turns_none hexec]; rfl
  | final offset text hexec =>
    obtain ⟨hpieces, hturns⟩ := pieces_final hexec offset
    rw [hpieces, hturns]
    rfl
  | empty offset text last hexec hlast ih =>
    obtain ⟨hpieces, hturns⟩ := pieces_empty hexec hlast offset
    rw [hpieces, hturns, List.length_cons, List.length_cons, ih]
  | more offset text first last hexec hfirst hlast ih =>
    obtain ⟨hpieces, hturns⟩ := pieces_more hexec hfirst offset
    rw [hpieces, hturns, List.length_cons, List.length_cons, ih]

end Turns

section Conservation

variable {regex : Regex} {whole : Text}

/-- The match within the whole text. -/
theorem matched_text_drop {offset first last : Nat} :
    matched_text whole (offset, first, last) = (whole.drop offset).extract first last := (extract_drop ..).symm

theorem interleave_cons (piece separator : Text) (pieces separators : List Text) :
    interleave (piece :: pieces) (separator :: separators) = piece ++ (separator ++ interleave pieces separators) := rfl

theorem take_extract_drop (text : Text) {first last : Nat} (hfirst : first ≤ last) :
    text.take first ++ (text.extract first last ++ text.drop last) = text := by
  rw [← drop_eq_extract hfirst, List.take_append_drop]

/-- The pieces and separators of a rest are no longer than the rest. -/
theorem interleave_length_le (regex : Regex) (whole : Text) (offset : Nat) :
    (interleave (regex_pieces regex (whole.drop offset))
      ((regex_turns regex offset (whole.drop offset)).map (matched_text whole))).length ≤ (whole.drop offset).length := by
  generalize hrest : whole.drop offset = rest
  induction offset, rest using turns_induction regex with
  | none offset rest hexec => simp [regex_pieces_none hexec, regex_turns_none hexec, interleave]
  | final offset rest hexec =>
    obtain ⟨hpieces, hturns⟩ := pieces_final hexec offset
    rw [hpieces, hturns, List.map_cons, interleave_cons, matched_text_drop, hrest]
    simp [interleave]
  | empty offset rest last hexec hlast ih =>
    obtain ⟨hpieces, hturns⟩ := pieces_empty hexec hlast offset
    have hshort := ih (by rw [← hrest, List.drop_drop])
    rw [List.length_drop] at hshort
    rw [hpieces, hturns, List.map_cons, interleave_cons, matched_text_drop, hrest]
    simp only [List.length_append, List.length_take, List.extract_eq_take_drop, Nat.sub_self, List.take_zero, List.length_nil]
    omega
  | more offset rest first last hexec hfirst hlast ih =>
    obtain ⟨hpieces, hturns⟩ := pieces_more hexec hfirst offset
    have hshort := ih (by rw [← hrest, List.drop_drop])
    have hwhole := congrArg List.length (take_extract_drop rest hfirst.le)
    rw [hpieces, hturns, List.map_cons, interleave_cons, matched_text_drop, hrest]
    simp only [List.length_append] at hwhole hshort ⊢
    omega

/-- The pieces and separators of a rest are the rest just where no match loses a character. -/
theorem interleave_pieces_iff (regex : Regex) (whole : Text) (offset : Nat) (hoffset : offset ≤ whole.length) :
    interleave (regex_pieces regex (whole.drop offset))
      ((regex_turns regex offset (whole.drop offset)).map (matched_text whole)) = whole.drop offset ↔
      ∀ turn ∈ regex_turns regex offset (whole.drop offset), LosesNothing whole.length turn := by
  generalize hrest : whole.drop offset = rest
  induction offset, rest using turns_induction regex with
  | none offset rest hexec => simp [regex_pieces_none hexec, regex_turns_none hexec, interleave]
  | final offset rest hexec =>
    obtain ⟨hpieces, hturns⟩ := pieces_final hexec offset
    have hsize : offset + rest.length = whole.length := by
      rw [← hrest, List.length_drop]
      omega
    rw [hpieces, hturns, List.map_cons, interleave_cons, matched_text_drop, hrest]
    simp [interleave, LosesNothing, hsize]
  | empty offset rest last hexec hlast ih =>
    obtain ⟨hpieces, hturns⟩ := pieces_empty hexec hlast offset
    have hsize : rest.length = whole.length - offset := by rw [← hrest, List.length_drop]
    have hnext : whole.drop (offset + (last + 1)) = rest.drop (last + 1) := by rw [← hrest, List.drop_drop]
    have hshort := interleave_length_le regex whole (offset + (last + 1))
    rw [hnext, List.length_drop] at hshort
    constructor
    · -- the character behind the empty match is missing
      intro heq
      have hlength := congrArg List.length heq
      rw [hpieces, hturns, List.map_cons, interleave_cons, matched_text_drop, hrest] at hlength
      simp only [List.length_append, List.length_take, List.extract_eq_take_drop, Nat.sub_self, List.take_zero,
        List.length_nil] at hlength
      omega
    · intro h
      have hkept := h _ (hturns ▸ List.mem_cons_self)
      unfold LosesNothing at hkept
      omega
  | more offset rest first last hexec hfirst hlast ih =>
    obtain ⟨hpieces, hturns⟩ := pieces_more hexec hfirst offset
    have hsize : rest.length = whole.length - offset := by rw [← hrest, List.length_drop]
    have hnext : whole.drop (offset + last) = rest.drop last := by rw [← hrest, List.drop_drop]
    have hkept : LosesNothing whole.length (offset, first, last) := .inl hfirst
    rw [hpieces, hturns, List.map_cons, interleave_cons, matched_text_drop, hrest, List.forall_mem_cons,
      and_iff_right hkept, ← ih (by omega) hnext]
    conv_lhs => rhs; rw [← take_extract_drop rest hfirst.le]
    rw [List.append_cancel_left_eq, List.append_cancel_left_eq]

end Conservation

section Scratch

variable {regex : Regex} {memory : List (Option Char)} {offset : Nat} {rest : Text}

theorem c_string_drop (h : c_string memory offset = rest) {count : Nat} (hcount : count ≤ rest.length) :
    c_string memory (offset + count) = rest.drop count := by
  subst h
  induction count generalizing offset with
  | zero => rfl
  | succ count ih =>
    unfold c_string at hcount ih ⊢
    cases hdrop : memory.drop offset with
    | nil => rw [hdrop] at hcount; cases hcount
    | cons cell cells =>
      cases cell with
      | none => rw [hdrop] at hcount; cases hcount
      | some char =>
        have hnext : memory.drop (offset + 1) = cells := by rw [← List.drop_drop, hdrop]; rfl
        have hshift := @ih (offset + 1)
        rw [hnext] at hshift
        rw [hdrop] at hcount
        simp only [List.takeWhile_cons, Option.isSome_some, if_true, List.reduceOption_cons_of_some,
          List.length_cons, List.drop_succ_cons] at hcount hshift ⊢
        rw [show offset + (count + 1) = offset + 1 + count by omega, hshift (Nat.le_of_succ_le_succ hcount)]

/-- A piece copied to the start of the buffer, with its terminator, leaves what comes after them. -/
theorem c_string_copied {piece : Text} {position : Nat} (hposition : piece.length + 1 ≤ position) :
    c_string (piece.map some ++ none :: memory.drop (piece.length + 1)) position = c_string memory position := by
  obtain ⟨more, rfl⟩ := Nat.exists_eq_add_of_le hposition
  have hcells : piece.map some ++ none :: memory.drop (piece.length + 1) =
      (piece.map some ++ [none]) ++ memory.drop (piece.length + 1) := by simp
  have hlength : (piece.map some ++ [(none : Option Char)]).length = piece.length + 1 := by simp
  unfold c_string
  rw [hcells, ← List.drop_drop, ← hlength, List.drop_left, hlength, List.drop_drop]

/-- The buffer after a piece was copied to its start. -/
def copied (memory : List (Option Char)) (piece : Text) : List (Option Char) :=
  piece.map some ++ none :: memory.drop (piece.length + 1)

theorem scratch_pieces_none {fuel : Nat} (h : regex.exec (c_string memory offset) = none) :
    scratch_pieces regex (fuel + 1) memory offset = some ([c_string memory offset], memory) := by
  simp only [scratch_pieces, h]

theorem scratch_pieces_overlaps {fuel first last : Nat} (h : regex.exec (c_string memory offset) = some (first, last))
    (hoverlap : 0 < first ∧ offset < first) : scratch_pieces regex (fuel + 1) memory offset = none := by
  simp only [scratch_pieces, h, if_pos hoverlap]

theorem scratch_pieces_some {fuel first last : Nat} (h : regex.exec (c_string memory offset) = some (first, last))
    (hfits : first ≤ offset) :
    scratch_pieces regex (fuel + 1) memory offset =
      (if first = last then
        if c_string (copied memory ((c_string memory offset).take first)) (offset + last) = [] then
          some ([[]], copied memory ((c_string memory offset).take first))
        else scratch_pieces regex fuel (copied memory ((c_string memory offset).take first)) (offset + last + 1)
      else scratch_pieces regex fuel (copied memory ((c_string memory offset).take first)) (offset + last)).map
        fun result => ((c_string memory offset).take first :: result.1, result.2) := by
  obtain ⟨hfirst, hlast⟩ := regex.bounds _ _ _ h
  have hlength : ((c_string memory offset).take first).length = first := by
    rw [List.length_take]
    omega
  have hnot : ¬ (0 < first ∧ offset < first) := by omega
  simp only [scratch_pieces, h, if_neg hnot, copied, hlength]

/-- The text that is left is still there when a piece before it was copied. -/
theorem c_string_rest (hoffset : 1 ≤ offset) (hrest : c_string memory offset = rest) {first last count : Nat}
    (hexec : regex.exec rest = some (first, last)) (hfits : first ≤ offset) (hcount : last ≤ count)
    (hlength : count ≤ rest.length) : c_string (copied memory (rest.take first)) (offset + count) = rest.drop count := by
  have hbounds := regex.bounds _ _ _ hexec
  rw [copied, c_string_copied (by rw [List.length_take]; omega)]
  exact c_string_drop hrest hlength

theorem exists_some_cons {next : Option (List Text × List (Option Char))} {piece : Text} {pieces : List Text} :
    (∃ after, (next.map fun result => (piece :: result.1, result.2)) = some (pieces, after)) ↔
      ∃ others, piece :: others = pieces ∧ ∃ after, next = some (others, after) := by
  constructor
  · rintro ⟨after, h⟩
    obtain ⟨⟨others, memory⟩, hnext, hcons⟩ := Option.map_eq_some_iff.mp h
    exact ⟨others, congrArg Prod.fst hcons, memory, hnext⟩
  · rintro ⟨others, rfl, after, rfl⟩
    exact ⟨after, rfl⟩

/-- Behind the start of the buffer the loop finds the pieces of the text that is left, unless a piece overlaps its copy. -/
theorem scratch_pieces_iff {fuel : Nat} (hoffset : 1 ≤ offset) (hrest : c_string memory offset = rest)
    (hfuel : rest.length < fuel) (pieces : List Text) :
    (∃ after, scratch_pieces regex fuel memory offset = some (pieces, after)) ↔
      regex_pieces regex rest = pieces ∧ ∀ turn ∈ regex_turns regex offset rest, FitsBefore turn := by
  induction offset, rest using turns_induction regex generalizing memory fuel pieces with
  | none offset rest hexec =>
    obtain ⟨fuel, rfl⟩ := Nat.exists_eq_add_one_of_ne_zero (Nat.ne_zero_of_lt hfuel)
    subst hrest
    rw [scratch_pieces_none hexec, regex_pieces_none hexec, regex_turns_none hexec]
    simp
  | final offset rest hexec =>
    obtain ⟨fuel, rfl⟩ := Nat.exists_eq_add_one_of_ne_zero (Nat.ne_zero_of_lt hfuel)
    obtain ⟨hpieces, hturns⟩ := pieces_final hexec offset
    rw [hpieces, hturns, List.forall_mem_singleton]
    by_cases hfits : rest.length ≤ offset
    · have hleft := c_string_rest hoffset hrest hexec hfits (Nat.le_refl _) (Nat.le_refl _)
      have hfits' : FitsBefore (offset, rest.length, rest.length) := hfits
      subst hrest
      rw [List.drop_length] at hleft
      rw [scratch_pieces_some hexec hfits, if_pos rfl, if_pos hleft, exists_some_cons, List.take_length, and_iff_left hfits']
      simp
    · subst hrest
      rw [scratch_pieces_overlaps hexec (by omega)]
      exact ⟨fun ⟨_, h⟩ => (by cases h), fun ⟨_, h⟩ => absurd h hfits⟩
  | empty offset rest last hexec hlast ih =>
    obtain ⟨fuel, rfl⟩ := Nat.exists_eq_add_one_of_ne_zero (Nat.ne_zero_of_lt hfuel)
    obtain ⟨hpieces, hturns⟩ := pieces_empty hexec hlast offset
    rw [hpieces, hturns, List.forall_mem_cons]
    by_cases hfits : last ≤ offset
    · have hleft := c_string_rest hoffset hrest hexec hfits (Nat.le_refl _) hlast.le
      have hnext := c_string_rest hoffset hrest hexec hfits (Nat.le_succ _) hlast
      have hfits' : FitsBefore (offset, last, last) := hfits
      subst hrest
      have hmore : ¬ c_string (copied memory ((c_string memory offset).take last)) (offset + last) = [] := by
        rw [hleft, ← List.length_eq_zero_iff, List.length_drop]
        omega
      have hshort : ((c_string memory offset).drop (last + 1)).length < fuel := by
        rw [List.length_drop]
        omega
      rw [scratch_pieces_some hexec hfits, if_pos rfl, if_neg hmore, exists_some_cons, and_iff_right hfits', Nat.add_assoc]
      simp only [ih (Nat.le_add_right_of_le hoffset) hnext hshort]
      exact ⟨fun ⟨_, hcons, hrest, hturns⟩ => ⟨hrest ▸ hcons, hturns⟩, fun ⟨hcons, hturns⟩ => ⟨_, hcons, rfl, hturns⟩⟩
    · subst hrest
      rw [scratch_pieces_overlaps hexec (by omega)]
      exact ⟨fun ⟨_, h⟩ => (by cases h), fun ⟨_, h, _⟩ => absurd h hfits⟩
  | more offset rest first last hexec hfirst hlast ih =>
    obtain ⟨fuel, rfl⟩ := Nat.exists_eq_add_one_of_ne_zero (Nat.ne_zero_of_lt hfuel)
    obtain ⟨hpieces, hturns⟩ := pieces_more hexec hfirst offset
    rw [hpieces, hturns, List.forall_mem_cons]
    by_cases hfits : first ≤ offset
    · have hnext := c_string_rest hoffset hrest hexec hfits (Nat.le_refl _) hlast
      have hfits' : FitsBefore (offset, first, last) := hfits
      subst hrest
      have hshort : ((c_string memory offset).drop last).length < fuel := by
        rw [List.length_drop]
        omega
      rw [scratch_pieces_some hexec hfits, if_neg (Nat.ne_of_lt hfirst), exists_some_cons, and_iff_right hfits']
      simp only [ih (Nat.le_add_right_of_le hoffset) hnext hshort]
      exact ⟨fun ⟨_, hcons, hrest, hturns⟩ => ⟨hrest ▸ hcons, hturns⟩, fun ⟨hcons, hturns⟩ => ⟨_, hcons, rfl, hturns⟩⟩
    · subst hrest
      rw [scratch_pieces_overlaps hexec (by omega)]
      exact ⟨fun ⟨_, h⟩ => (by cases h), fun ⟨_, h, _⟩ => absurd h hfits⟩

end Scratch

section Split

variable {Number : Type}

/-- The texts under `1`, `2` and so on. -/
def array_pieces (array : Text → Option (Text × Number)) (count : Nat) : List Text :=
  (List.range count).map fun position => ((array (Nat.toDigits 10 (position + 1))).map Prod.fst).getD []

/-- An array has no keys but the numbers up to a count, and its texts with the separators between them are a text. -/
structure Conserved (array : Text → Option (Text × Number)) (count : Nat) (separators : List Text) (text : Text) : Prop where
  keys : ∀ key, (array key).isSome ↔ ∃ number, 1 ≤ number ∧ number ≤ count ∧ key = Nat.toDigits 10 number
  one_more : separators.length + 1 = count
  reconstructs : interleave (array_pieces array count) separators = text

variable (doubles : Doubles Number) (regcomp : Text → Option Regex)

/-- A split at a separator returns, and what it leaves in the array conserves the text. -/
def SplitConserves (regex : Regex) (store : ArrayStore Number) (text : StringPointer) (array_name : Name)
    (separator : Text) : Prop :=
  ∃ count after, store.qk_split_into_array doubles regcomp (store.taken text) array_name (some (.owned separator)) =
      some (count, after) ∧
    Conserved (after.maps doubles array_name) count (matched_separators regex (store.argument_text text))
      (store.argument_text text)

variable {doubles regcomp} {regex : Regex} {store : ArrayStore Number} {array_name : Name} {separator : Text}

theorem numbered_isSome (count : Nat) (pieces : List Text) (key : Text) :
    (numbered count pieces key).isSome ↔ ∃ position, position < pieces.length ∧ key = Nat.toDigits 10 (count + position) := by
  induction pieces generalizing count with
  | nil => simp [numbered]
  | cons piece pieces ih =>
    rw [numbered]
    by_cases hkey : key = Nat.toDigits 10 count
    · rw [if_pos hkey]
      exact ⟨fun _ => ⟨0, Nat.succ_pos _, hkey⟩, fun _ => rfl⟩
    · rw [if_neg hkey, ih]
      constructor
      · rintro ⟨position, hposition, rfl⟩
        exact ⟨position + 1, Nat.succ_lt_succ hposition, by rw [Nat.add_right_comm, Nat.add_assoc]⟩
      · rintro ⟨position, hposition, rfl⟩
        cases position with
        | zero => exact absurd rfl hkey
        | succ position =>
          exact ⟨position, Nat.lt_of_succ_lt_succ hposition, by rw [Nat.add_right_comm, Nat.add_assoc]⟩

/-- For the pieces under their numbers there is only to show that they and the separators are the text. -/
theorem conserved_iff {array : Text → Option (Text × Number)} {pieces : List Text}
    (harray : array = fun key => (numbered 1 pieces key).map doubles.element) (separators : List Text) (text : Text) :
    Conserved array pieces.length separators text ↔
      separators.length + 1 = pieces.length ∧ interleave pieces separators = text := by
  have hpieces : array_pieces array pieces.length = pieces := by
    refine List.ext_getElem (by simp [array_pieces]) fun position _ hposition => ?_
    have hnumbered := numbered_getElem? 1 pieces position
    rw [List.getElem?_eq_getElem hposition, Nat.add_comm] at hnumbered
    simp only [array_pieces, List.getElem_map, List.getElem_range, harray, hnumbered]
    rfl
  have hkeys : ∀ key, (array key).isSome ↔ ∃ number, 1 ≤ number ∧ number ≤ pieces.length ∧ key = Nat.toDigits 10 number := by
    intro key
    rw [harray, Option.isSome_map, numbered_isSome]
    constructor
    · rintro ⟨position, hposition, rfl⟩
      exact ⟨1 + position, by omega, by omega, rfl⟩
    · rintro ⟨number, hpos, hle, rfl⟩
      exact ⟨number - 1, by omega, by rw [Nat.add_sub_cancel' hpos]⟩
  constructor
  · exact fun h => ⟨h.one_more, hpieces ▸ h.reconstructs⟩
  · exact fun h => ⟨hkeys, h.1, hpieces.symm ▸ h.2⟩

theorem matched_separators_length (regex : Regex) (text : Text) :
    (matched_separators regex text).length + 1 = (regex_pieces regex text).length := by
  rw [matched_separators, List.length_map, regex_pieces_length regex 0 text]

/-- The pieces between the matches and the matches are the text if no match loses a character. -/
theorem interleave_matched_iff (regex : Regex) (text : Text) :
    interleave (regex_pieces regex text) (matched_separators regex text) = text ↔
      ∀ turn ∈ regex_turns regex 0 text, LosesNothing text.length turn :=
  interleave_pieces_iff regex text 0 (Nat.zero_le _)

theorem conserves_of_copied {text : StringPointer} (hregcomp : regcomp separator = some regex) (hseparator : separator ≠ [])
    (hapart : ¬ points_into array_name (store.taken text)) (htext : text ≠ .scratch) :
    SplitConserves doubles regcomp regex store text array_name separator ↔
      ∀ turn ∈ regex_turns regex 0 (store.argument_text text), LosesNothing (store.argument_text text).length turn := by
  have hsafe : store.SplitsSafely regcomp text array_name (some (.owned separator)) :=
    ⟨hapart, fun pointer hpointer => Option.some.inj hpointer ▸ fun h => h, fun hscratch => absurd hscratch htext⟩
  obtain ⟨after, hrun, hmaps⟩ := ArrayStore.split_refines doubles regcomp store hsafe
  have hpieces : split_pieces regcomp (store.argument_text text) ((some (StringPointer.owned separator)).map store.argument_text) =
      regex_pieces regex (store.argument_text text) := by
    refine (split_pieces_of_ne_nil regcomp _ hseparator).trans ?_
    rw [hregcomp]
    rfl
  rw [hpieces] at hrun hmaps
  change store.qk_split_into_array doubles regcomp (store.taken text) array_name (some (.owned separator)) = _ at hrun
  have harray := congrFun hmaps array_name
  rw [Function.update_self] at harray
  rw [← interleave_matched_iff]
  constructor
  · rintro ⟨count, other, hother, hconserved⟩
    rw [hrun] at hother
    obtain ⟨rfl, rfl⟩ := Prod.mk.inj (Option.some.inj hother)
    exact ((conserved_iff harray _ _).mp hconserved).2
  · exact fun h => ⟨_, after, hrun, (conserved_iff harray _ _).mpr ⟨matched_separators_length regex _, h⟩⟩

/-- A split of the scratch buffer stores the pieces its loop finds. -/
theorem conserves_of_scratch (hregcomp : regcomp separator = some regex) (hseparator : separator ≠ []) :
    SplitConserves doubles regcomp regex store .scratch array_name separator ↔
      ∃ pieces, (∃ after, scratch_pieces regex (store.scratch.length + 1) (store.scratch.map some) 0 = some (pieces, after)) ∧
        (matched_separators regex store.scratch).length + 1 = pieces.length ∧
        interleave pieces (matched_separators regex store.scratch) = store.scratch := by
  have hrun : store.qk_split_into_array doubles regcomp .scratch array_name (some (.owned separator)) =
      (scratch_pieces regex (store.scratch.length + 1) (store.scratch.map some) 0).bind fun result =>
        some (result.1.length, { (store.make_clear array_name).store_pieces doubles array_name 1 result.1 with
          scratch := c_string result.2 0 }) := by
    have hread : (store.make_clear array_name).read .scratch = some store.scratch := rfl
    have howned : (store.make_clear array_name).read (.owned separator) = some separator := rfl
    simp only [ArrayStore.qk_split_into_array, hread, howned, hseparator, hregcomp, if_false, Option.bind_eq_bind,
      Option.bind_some]
    rfl
  have harray : ∀ pieces (memory : List (Option Char)),
      ({ (store.make_clear array_name).store_pieces doubles array_name 1 pieces with
        scratch := c_string memory 0 } : ArrayStore Number).maps doubles array_name =
        fun key => (numbered 1 pieces key).map doubles.element := by
    intro pieces memory
    have hsplit := store.split_maps doubles array_name pieces
    refine (congrFun ((ArrayStore.maps_of_arrays doubles _ rfl).trans hsplit) array_name).trans ?_
    rw [Function.update_self]
  have htext : store.argument_text .scratch = store.scratch := rfl
  have htaken : store.taken .scratch = .scratch := rfl
  unfold SplitConserves
  rw [htext, htaken, hrun]
  constructor
  · rintro ⟨count, after, hsplit, hconserved⟩
    obtain ⟨⟨pieces, memory⟩, hpieces, hresult⟩ := Option.bind_eq_some_iff.mp hsplit
    obtain ⟨rfl, rfl⟩ := Prod.mk.inj (Option.some.inj hresult)
    exact ⟨pieces, ⟨memory, hpieces⟩, (conserved_iff (harray pieces memory) _ _).mp hconserved⟩
  · rintro ⟨pieces, ⟨memory, hpieces⟩, hconserved⟩
    refine ⟨pieces.length, _, ?_, (conserved_iff (harray pieces memory) _ _).mpr hconserved⟩
    rw [hpieces]
    rfl

/-- The loop over a text in the scratch buffer gives back the text just where every piece fits before its text and no
match loses a character. At the start a piece must be empty, and so must be the text if the match is. -/
theorem scratch_conserves_iff (regex : Regex) (text : Text) :
    (∃ pieces, (∃ after, scratch_pieces regex (text.length + 1) (text.map some) 0 = some (pieces, after)) ∧
        (matched_separators regex text).length + 1 = pieces.length ∧
        interleave pieces (matched_separators regex text) = text) ↔
      (∀ turn ∈ regex_turns regex 0 text, LosesNothing text.length turn) ∧ ∀ turn ∈ regex_turns regex 0 text, FitsBefore turn := by
  have hcursor := c_string_self text
  have hmatched := interleave_matched_iff regex text
  have hcount := matched_separators_length regex text
  cases hexec : regex.exec text with
  | none =>
    have hrun : scratch_pieces regex (text.length + 1) (text.map some) 0 = _ :=
      scratch_pieces_none (hcursor.symm ▸ hexec)
    rw [regex_pieces_none hexec] at hmatched hcount
    rw [hcursor] at hrun
    rw [hrun]
    constructor
    · rintro ⟨pieces, ⟨after, hpieces⟩, _, _⟩
      rw [regex_turns_none hexec]
      simp
    · rintro ⟨hloses, _⟩
      exact ⟨[text], ⟨_, rfl⟩, hcount, hmatched.mpr hloses⟩
  | some span =>
    obtain ⟨first, last⟩ := span
    obtain ⟨hfirst, hlast⟩ := regex.bounds _ _ _ hexec
    have hexec' : regex.exec (c_string (text.map some) 0) = some (first, last) := hcursor.symm ▸ hexec
    have hturn : (0, first, last) ∈ regex_turns regex 0 text := by
      rw [regex_turns_some hexec]
      exact List.mem_cons_self
    by_cases hpos : 0 < first
    · rw [scratch_pieces_overlaps hexec' ⟨hpos, hpos⟩]
      constructor
      · rintro ⟨_, ⟨_, h⟩, _⟩
        cases h
      · rintro ⟨_, hfits⟩
        have hzero : first ≤ 0 := hfits _ hturn
        omega
    · obtain rfl : first = 0 := by omega
      rw [scratch_pieces_some hexec' (Nat.le_refl 0), hcursor, List.take_zero]
      simp only [exists_some_cons, Nat.zero_add]
      by_cases hend : last = 0
      · subst hend
        have hnothing : c_string (copied (text.map some) []) 0 = [] := rfl
        rw [if_pos rfl, if_pos hnothing]
        cases text with
        | nil =>
          obtain ⟨hpieces, hturns⟩ := pieces_final hexec 0
          rw [hpieces] at hmatched hcount
          constructor
          · rintro ⟨pieces, ⟨others, rfl, after, hothers⟩, _, hsame⟩
            obtain rfl := (Prod.mk.inj (Option.some.inj hothers)).1
            refine ⟨hmatched.mp hsame, ?_⟩
            rw [hturns]
            exact List.forall_mem_singleton.mpr (Nat.le_refl 0)
          · exact fun h => ⟨[[], []], ⟨[[]], rfl, _, rfl⟩, hcount, hmatched.mpr h.1⟩
        | cons char rest =>
          -- the terminator of the empty piece ended the text
          constructor
          · rintro ⟨pieces, ⟨others, rfl, after, hothers⟩, hlength, hsame⟩
            obtain rfl := (Prod.mk.inj (Option.some.inj hothers)).1
            obtain ⟨separator, hseparators⟩ := List.length_eq_one_iff.mp (Nat.succ.inj hlength)
            have hempty : matched_text (char :: rest) (0, 0, 0) = [] := by simp [matched_text]
            have hfirst : separator = [] := by
              unfold matched_separators at hseparators
              rw [regex_turns_some hexec, List.map_cons, hempty] at hseparators
              exact (List.cons.inj hseparators).1.symm
            rw [hseparators, hfirst] at hsame
            cases hsame
          · rintro ⟨hloses, _⟩
            have hnone : 0 < 0 ∨ 0 + 0 = (char :: rest).length := hloses _ hturn
            rw [List.length_cons] at hnone
            omega
      · have hmore : 0 < last := by omega
        obtain ⟨hpieces, hturns⟩ := pieces_more hexec hmore 0
        have hrest : c_string (copied (text.map some) []) last = text.drop last := by
          have hdrop := c_string_drop hcursor hlast
          rw [Nat.zero_add] at hdrop
          rw [← hdrop]
          exact c_string_copied hmore
        have hshort : (text.drop last).length < text.length := by
          rw [List.length_drop]
          omega
        rw [List.take_zero] at hpieces
        rw [Nat.zero_add] at hturns
        have hfits : FitsBefore (0, 0, last) := Nat.le_refl 0
        rw [if_neg (Nat.ne_of_lt hmore), ← hmatched, hturns, List.forall_mem_cons, and_iff_right hfits]
        simp only [scratch_pieces_iff hmore hrest hshort]
        constructor
        · rintro ⟨pieces, ⟨others, rfl, rfl, hothers⟩, _, hsame⟩
          exact ⟨hpieces ▸ hsame, hothers⟩
        · exact fun h => ⟨regex_pieces regex text, ⟨_, hpieces.symm, rfl, h.2⟩, hcount, h.1⟩

/-- A split conserves its text just where the text is not in the array, where only the match at the end is empty, and
where, in the scratch buffer, no piece before a match is longer than the text before the piece. -/
theorem split_conserves_iff (hregcomp : regcomp separator = some regex) (hseparator : separator ≠ [])
    (store : ArrayStore Number) (text : StringPointer) (array_name : Name) :
    SplitConserves doubles regcomp regex store text array_name separator ↔
      ¬ points_into array_name (store.taken text) ∧
      (∀ turn ∈ regex_turns regex 0 (store.argument_text text), LosesNothing (store.argument_text text).length turn) ∧
      (text = .scratch → ∀ turn ∈ regex_turns regex 0 (store.argument_text text), FitsBefore turn) := by
  by_cases hapart : points_into array_name (store.taken text)
  · constructor
    · rintro ⟨count, after, hrun, _⟩
      rw [ArrayStore.split_freed doubles regcomp store hapart] at hrun
      cases hrun
    · exact fun h => absurd hapart h.1
  · rw [and_iff_right hapart]
    by_cases htext : text = .scratch
    · subst htext
      rw [conserves_of_scratch hregcomp hseparator, scratch_conserves_iff]
      exact ⟨fun h => ⟨h.1, fun _ => h.2⟩, fun h => ⟨h.1, h.2 rfl⟩⟩
    · rw [conserves_of_copied hregcomp hseparator hapart htext]
      exact ⟨fun h => ⟨h, fun hscratch => absurd hscratch htext⟩, fun h => h.1⟩

/-- `split("a,b", A, ",")` -/
theorem split_conserves_comma : SplitConserves .rational (fun _ => some ArrayStore.comma) ArrayStore.comma
    ⟨LinkedTable.empty, []⟩ (.owned ['a', ',', 'b']) "A" [','] := by
  refine (split_conserves_iff rfl (List.cons_ne_nil _ _) _ _ _).mpr ⟨fun h => h, ?_, nofun⟩
  have hturns : regex_turns ArrayStore.comma 0 ['a', ',', 'b'] = [(0, 1, 2)] := by
    rw [regex_turns_some (show ArrayStore.comma.exec ['a', ',', 'b'] = some (1, 2) by decide), if_neg (by decide)]
    exact congrArg ((0, 1, 2) :: ·) (regex_turns_none (show ArrayStore.comma.exec ['b'] = none by decide) 2)
  change ∀ turn ∈ regex_turns ArrayStore.comma 0 ['a', ',', 'b'], LosesNothing 3 turn
  rw [hturns, List.forall_mem_singleton]
  exact .inl (by decide)

/-- `x*` where there is no `x` -/
def nothing : Regex where
  exec _ := some (0, 0)
  bounds text first last h := by
    obtain ⟨rfl, rfl⟩ := Prod.mk.inj (Option.some.inj h)
    exact ⟨Nat.le_refl 0, Nat.zero_le _⟩

/-- `split("a", A, "x*")` loses the character, `split(A[1], A, ",")` reads a text that was freed, and a text in the
scratch buffer is copied onto itself. -/
theorem split_conserves_diverges :
    ¬ SplitConserves .rational (fun _ => some nothing) nothing ⟨LinkedTable.empty, []⟩ (.owned ['a']) "A" ['x', '*'] ∧
      ¬ SplitConserves .rational (fun _ => some ArrayStore.comma) ArrayStore.comma
        ((⟨LinkedTable.empty, []⟩ : ArrayStore Rat).set_array "A" (LinkedTable.empty.put ['1'] ⟨['a', ',', 'b'], none⟩))
        (.element "A" ['1']) "A" [','] ∧
      ¬ SplitConserves .rational (fun _ => some ArrayStore.comma) ArrayStore.comma ⟨LinkedTable.empty, ['a', ',', 'b']⟩
        .scratch "A" [','] := by
  refine ⟨?_, ?_, ?_⟩
  · intro h
    have hkept : ∀ turn ∈ regex_turns nothing 0 ['a'], LosesNothing 1 turn := by
      refine (conserves_of_copied rfl (List.cons_ne_nil _ _) ?_ ?_).mp h
      · exact fun hpoints => hpoints
      · exact nofun
    have hturn : (0, 0, 0) ∈ regex_turns nothing 0 ['a'] := by
      rw [regex_turns_some (show nothing.exec ['a'] = some (0, 0) from rfl)]
      exact List.mem_cons_self
    have hloses : 0 < 0 ∨ 0 + 0 = 1 := hkept _ hturn
    omega
  · rintro ⟨_, _, hrun, _⟩
    cases hrun
  · rintro ⟨_, _, hrun, _⟩
    cases hrun

end Split

end quawk
