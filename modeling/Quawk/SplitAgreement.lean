import Quawk.ArrayRefinement
import Quawk.FieldSplitting

open Words (words words_nil words_of_run mem_words flatten_words)

namespace quawk

open ArrayStore (regex_pieces_none split_refines SplitsSafely)

/-- A regular expression without special characters finds where it first occurs in a text. -/
structure FindsLiterally (separator : Text) (regex : Regex) : Prop where
  absent : ∀ text, ¬ separator <:+: text → regex.exec text = none
  found : ∀ front rest, (∀ position < front.length, ¬ separator <+: (front ++ (separator ++ rest)).drop position) →
    regex.exec (front ++ (separator ++ rest)) = some (front.length, front.length + separator.length)

/-- Blanks stand for themselves in a regular expression. -/
def TakesBlanksLiterally (regcomp : Text → Option Regex) : Prop :=
  ∀ separator, separator ≠ [] → (∀ char ∈ separator, is_space char = true) →
    ∃ regex, regcomp separator = some regex ∧ FindsLiterally separator regex

section Literal

variable {separator front rest field_start text : Text} {fuel : Nat} {regex : Regex}

theorem split_literal_fuel (hne : separator ≠ []) {fuel' : Nat} (hfuel : text.length ≤ fuel) (hfuel' : text.length ≤ fuel') :
    qk_split_literal_separator_fields separator fuel field_start text =
      qk_split_literal_separator_fields separator fuel' field_start text := by
  induction fuel generalizing field_start text fuel' with
  | zero =>
    rw [List.length_eq_zero_iff.mp (Nat.le_zero.mp hfuel)]
    cases fuel' <;> rfl
  | succ fuel ih =>
    cases text with
    | nil => cases fuel' <;> rfl
    | cons char rest =>
      cases fuel' with
      | zero => cases hfuel'
      | succ fuel' =>
        rw [qk_split_literal_separator_fields, qk_split_literal_separator_fields,
          ih (drop_separator_length hne hfuel) (drop_separator_length hne hfuel'),
          ih (Nat.le_of_succ_le_succ hfuel) (Nat.le_of_succ_le_succ hfuel')]

/-- The first field ends where the separator first occurs. -/
theorem split_literal_first (hne : separator ≠ [])
    (hfirst : ∀ position < front.length, ¬ separator <+: (front ++ (separator ++ rest)).drop position)
    (hfuel : (front ++ (separator ++ rest)).length ≤ fuel) :
    qk_split_literal_separator_fields separator fuel field_start (front ++ (separator ++ rest)) =
      (field_start ++ front) :: qk_split_literal_separator_fields separator rest.length [] rest := by
  induction front generalizing field_start fuel with
  | nil =>
    obtain ⟨char, others, hseparator⟩ := List.exists_cons_of_ne_nil hne
    rw [List.nil_append] at hfuel ⊢
    cases fuel with
    | zero => rw [hseparator] at hfuel; cases hfuel
    | succ fuel =>
      have htext : separator ++ rest = char :: (others ++ rest) := by rw [hseparator]; rfl
      have hmatch : separator.isPrefixOf (char :: (others ++ rest)) = true :=
        List.isPrefixOf_iff_prefix.mpr ⟨rest, htext⟩
      have hbehind : (char :: (others ++ rest)).drop separator.length = rest := by rw [← htext, List.drop_left]
      rw [htext] at hfuel ⊢
      have hshorter := drop_separator_length hne hfuel
      rw [hbehind] at hshorter
      rw [qk_split_literal_separator_fields, if_pos hmatch, hbehind, List.append_nil,
        split_literal_fuel hne hshorter (Nat.le_refl _)]
  | cons char front ih =>
    cases fuel with
    | zero => cases hfuel
    | succ fuel =>
      have hmatch : ¬ separator.isPrefixOf (char :: (front ++ (separator ++ rest))) = true :=
        fun h => hfirst 0 (Nat.succ_pos _) ( List.isPrefixOf_iff_prefix.mp h)
      rw [List.cons_append, qk_split_literal_separator_fields, if_neg hmatch,
        ih (fun position hposition => hfirst (position + 1) (Nat.succ_lt_succ hposition)) (Nat.le_of_succ_le_succ hfuel),
        List.append_assoc, List.singleton_append]

theorem split_fields_first (hne : separator ≠ [])
    (hfirst : ∀ position < front.length, ¬ separator <+: (front ++ (separator ++ rest)).drop position) :
    split_fields separator (front ++ (separator ++ rest)) = front :: split_fields separator rest := by
  unfold split_fields
  rw [List.isEmpty_eq_false_iff.mpr hne, if_neg Bool.false_ne_true, if_neg Bool.false_ne_true]
  exact split_literal_first hne hfirst (Nat.le_refl _)

theorem split_fields_absent (hne : separator ≠ []) (h : ¬ separator <:+: text) : split_fields separator text = [text] := by
  obtain ⟨hjoined, _, hfields⟩ := split_fields_literal hne text
  obtain ⟨first, others, hsplit⟩ := List.exists_cons_of_ne_nil hfields
  rw [hsplit] at hjoined ⊢
  cases others with
  | nil =>
    rw [List.intercalate_singleton] at hjoined
    rw [hjoined]
  | cons second others =>
    rw [intercalate_cons_cons] at hjoined
    exact absurd ⟨first, List.intercalate separator (second :: others), by rw [List.append_assoc, hjoined]⟩ h

/-- A separator that occurs in a text first occurs somewhere. -/
theorem exists_first (h : separator <:+: text) : ∃ front rest, text = front ++ (separator ++ rest) ∧
    ∀ position < front.length, ¬ separator <+: (front ++ (separator ++ rest)).drop position := by
  obtain ⟨before, after, hoccurs⟩ := h
  have hexists : ∃ position, separator <+: text.drop position :=
    ⟨before.length, after, by rw [← hoccurs, List.append_assoc, List.drop_left]⟩
  classical
  obtain ⟨rest, hrest⟩ := Nat.find_spec hexists
  have htext : text = text.take (Nat.find hexists) ++ (separator ++ rest) := by rw [hrest, List.take_append_drop]
  refine ⟨text.take (Nat.find hexists), rest, htext, fun position hposition => ?_⟩
  rw [← htext]
  rw [List.length_take] at hposition
  exact Nat.find_min hexists (by omega)

theorem regex_pieces_some {first last : Nat} (h : regex.exec text = some (first, last)) :
    regex_pieces regex text = text.take first ::
      if first = last then if last = text.length then [[]] else regex_pieces regex (text.drop (last + 1))
      else regex_pieces regex (text.drop last) := by
  conv_lhs => rw [regex_pieces]
  split
  · next hnone => rw [h] at hnone; cases hnone
  · next hsome =>
    rw [h] at hsome
    obtain ⟨rfl, rfl⟩ := Prod.mk.inj (Option.some.inj hsome)
    rfl

theorem regex_pieces_ne_nil (regex : Regex) (text : Text) : regex_pieces regex text ≠ [] := by
  cases hexec : regex.exec text with
  | none => rw [regex_pieces_none hexec]; exact List.cons_ne_nil _ _
  | some span => rw [regex_pieces_some hexec]; exact List.cons_ne_nil _ _

theorem regex_pieces_eq_singleton : regex_pieces regex text = [text] ↔ regex.exec text = none := by
  constructor
  · intro h
    cases hexec : regex.exec text with
    | none => rfl
    | some span =>
      rw [regex_pieces_some hexec, List.cons.injEq] at h
      have hrest := h.2
      split_ifs at hrest
      · exact absurd hrest (regex_pieces_ne_nil _ _)
      · exact absurd hrest (regex_pieces_ne_nil _ _)
  · exact regex_pieces_none

/-- Where the separator stands for itself, the pieces are the fields. -/
theorem regex_pieces_literal (hne : separator ≠ []) (hfinds : FindsLiterally separator regex) (text : Text) :
    regex_pieces regex text = split_fields separator text := by
  generalize hlength : text.length = length
  induction length using Nat.strong_induction_on generalizing text with
  | _ length ih =>
    by_cases hoccurs : separator <:+: text
    · obtain ⟨front, rest, rfl, hfirst⟩ := exists_first hoccurs
      have hpos := List.length_pos_of_ne_nil hne
      have hshorter : rest.length < length := by
        rw [← hlength, List.length_append, List.length_append]
        omega
      have hrest : (front ++ (separator ++ rest)).drop (front.length + separator.length) = rest := by
        rw [← List.drop_drop, List.drop_left, List.drop_left]
      rw [regex_pieces_some (hfinds.found front rest hfirst), if_neg (by omega), List.take_left, hrest,
        ih rest.length hshorter rest rfl, split_fields_first hne hfirst]
    · rw [regex_pieces_none (hfinds.absent text hoccurs), split_fields_absent hne hoccurs]

end Literal

section Blanks

variable {separator text : Text}

theorem intercalate_countP (counted : Char → Bool) (separator first : Text) (rest : List Text) :
    (List.intercalate separator (first :: rest)).countP counted =
      (first :: rest).flatten.countP counted + rest.length * separator.countP counted := by
  induction rest generalizing first with
  | nil => simp
  | cons second rest ih =>
    rw [intercalate_cons_cons, List.countP_append, List.countP_append, ih second]
    simp only [List.flatten_cons, List.countP_append, List.length_cons, Nat.succ_mul]
    omega

/-- Blanks around words are found as separators. -/
theorem split_fields_words (hne : separator ≠ []) (hblank : ∀ char ∈ separator, is_space char = true) {pieces : List Text}
    (hpieces : ∀ piece ∈ pieces, ∀ char ∈ piece, is_space char = false) (hnonempty : pieces ≠ []) :
    split_fields separator (List.intercalate separator pieces) = pieces := by
  obtain ⟨blank, others, hseparator⟩ := List.exists_cons_of_ne_nil hne
  have hfirst : is_space blank = true := hblank blank (hseparator ▸ List.mem_cons_self)
  have hnot : ∀ piece ∈ pieces, ∀ rest position, position < piece.length → ¬ separator <+: (piece ++ rest).drop position := by
    rintro piece hpiece rest position hposition ⟨behind, hprefix⟩
    have hhead := congrArg (fun text : Text => text[0]?) hprefix
    rw [hseparator] at hhead
    simp only [List.cons_append, List.getElem?_cons_zero, List.getElem?_drop, Nat.add_zero,
      List.getElem?_append_left hposition] at hhead
    have hmem := List.mem_of_getElem? hhead.symm
    rw [hpieces piece hpiece blank hmem] at hfirst
    cases hfirst
  induction pieces with
  | nil => exact absurd rfl hnonempty
  | cons piece rest ih =>
    cases rest with
    | nil =>
      rw [List.intercalate_singleton]
      have happart := hnot piece List.mem_cons_self []
      exact split_fields_absent hne (not_infix_of_positions hne happart)
    | cons second rest =>
      rw [intercalate_cons_cons, split_fields_first hne fun position hposition =>
          hnot piece List.mem_cons_self _ position hposition,
        ih (fun other hother => hpieces other (List.mem_cons_of_mem _ hother)) (List.cons_ne_nil _ _)
          (fun other hother => hnot other (List.mem_cons_of_mem _ hother))]

/-- What a separator separates are the words just if there is one word without the separator in it, or all separators
are blank and between words. -/
theorem split_fields_eq_words (hne : separator ≠ []) : split_fields separator text = words is_space text ↔
    text ≠ [] ∧ ((∀ char ∈ text, is_space char = false) ∧ ¬ separator <:+: text ∨
      (∀ char ∈ separator, is_space char = true) ∧ text = List.intercalate separator (words is_space text)) := by
  obtain ⟨hjoined, happart, hfields⟩ := split_fields_literal hne text
  constructor
  · intro h
    rw [h] at hjoined happart hfields
    refine ⟨fun hempty => hfields (by rw [hempty, words_nil]), ?_⟩
    obtain ⟨first, rest, hwords⟩ := List.exists_cons_of_ne_nil hfields
    rw [hwords] at hjoined happart
    cases rest with
    | nil =>
      rw [List.intercalate_singleton] at hjoined
      have hword := mem_words (hwords ▸ List.mem_cons_self : first ∈ words is_space text)
      exact .inl ⟨hjoined ▸ hword.2, hjoined ▸ happart first List.mem_cons_self⟩
    | cons second rest =>
      -- the separators between the words have nothing that counts as part of a word
      have hcount := intercalate_countP (fun char => !is_space char) separator first (second :: rest)
      have hflatten : (words is_space text).flatten = _ := flatten_words text
      rw [hwords] at hflatten
      rw [hjoined, List.countP_eq_length_filter, hflatten, List.countP_filter] at hcount
      simp only [Bool.and_self, ← List.countP_eq_length_filter, List.length_cons] at hcount
      have hnone : separator.countP (fun char => !is_space char) = 0 := by
        by_contra hsome
        have hpos : 0 < (rest.length + 1) * separator.countP fun char => !is_space char :=
          Nat.mul_pos (Nat.succ_pos rest.length) (Nat.pos_of_ne_zero hsome)
        omega
      refine .inr ⟨fun char hchar => ?_, by rw [hwords, hjoined]⟩
      simpa using List.countP_eq_zero.mp hnone char hchar
  · rintro ⟨hnonempty, ⟨hrun, habsent⟩ | ⟨hblank, htext⟩⟩
    · rw [split_fields_absent hne habsent, words_of_run hnonempty hrun]
    · have hwords : words is_space text ≠ [] := fun hnone => hnonempty (by rw [htext, hnone]; rfl)
      conv_lhs => rw [htext]
      exact split_fields_words hne hblank (fun piece hpiece => (mem_words hpiece).2) hwords

end Blanks

section Agreement

variable {Number : Type} {doubles : Doubles Number} {regcomp : Text → Option Regex}

theorem numbered_getElem? (count : Nat) (pieces : List Text) (position : Nat) :
    numbered count pieces (Nat.toDigits 10 (count + position)) = pieces[position]? := by
  induction pieces generalizing count position with
  | nil => rfl
  | cons piece pieces ih =>
    rw [numbered]
    cases position with
    | zero => rw [Nat.add_zero, if_pos rfl, List.getElem?_cons_zero]
    | succ position =>
      have hne : Nat.toDigits 10 (count + (position + 1)) ≠ Nat.toDigits 10 count := fun heq => by
        have hsame := ArrayStore.toDigits_injective heq
        omega
      have hnext := ih (count + 1) position
      rw [if_neg hne, List.getElem?_cons_succ, ← hnext]
      congr 2
      omega

theorem numbered_injective {pieces pieces' : List Text} (h : numbered 1 pieces = numbered 1 pieces') :
    pieces = pieces' := by
  refine List.ext_getElem? fun position => ?_
  rw [← numbered_getElem? 1 pieces position, ← numbered_getElem? 1 pieces' position, h]

variable (doubles regcomp)

/-- `split` returns the number of some pieces and leaves just them in the array. -/
def SplitsInto (store : ArrayStore Number) (array_name : Name) (text : Text) (separator : Option Text)
    (pieces : List Text) : Prop :=
  ∃ after, store.qk_split_into_array doubles regcomp (.owned text) array_name (separator.map .owned) =
      some (pieces.length, after) ∧
    after.maps doubles array_name = fun key => (numbered 1 pieces key).map doubles.element

/-- With a text in `FS`, the record is split into the same fields as `split` finds with no separator and with that one. -/
def SplitsAlike (runtime : RuntimeState Number) (store : ArrayStore Number) (array_name : Name) (fs text : Text) : Prop :=
  ∃ pieces, read_fields (doubles.split_record runtime fs text).record = pieces ∧
    (doubles.split_record runtime fs text).value "NF" = .number (doubles.of_int pieces.length) ∧
    SplitsInto doubles regcomp store array_name text none pieces ∧
    SplitsInto doubles regcomp store array_name text (some fs) pieces

variable {doubles regcomp}

theorem splits_into_iff {store : ArrayStore Number} {array_name : Name} {text : Text} {separator : Option Text}
    {pieces : List Text} :
    SplitsInto doubles regcomp store array_name text separator pieces ↔ split_pieces regcomp text separator = pieces := by
  have hapart : ∀ text : Text, ¬ ArrayStore.points_into array_name (.owned text) := fun _ h => h
  have hsafe : store.SplitsSafely regcomp (.owned text) array_name (separator.map .owned) := by
    refine ⟨hapart text, fun pointer hpointer => ?_, fun h => by cases h⟩
    obtain ⟨other, _, rfl⟩ := Option.map_eq_some_iff.mp hpointer
    exact hapart other
  obtain ⟨after, hrun, hmaps⟩ := split_refines doubles regcomp store hsafe
  have htexts : (separator.map StringPointer.owned).map store.argument_text = separator := by cases separator <;> rfl
  have htaken : (separator.map StringPointer.owned).map store.taken = separator.map .owned := by cases separator <;> rfl
  have htext : store.argument_text (.owned text) = text := rfl
  rw [htexts, htext] at hrun hmaps
  rw [htaken] at hrun
  change store.qk_split_into_array doubles regcomp (.owned text) array_name (separator.map .owned) = _ at hrun
  have harray := congrFun hmaps array_name
  rw [Function.update_self] at harray
  constructor
  · rintro ⟨other, hother, hpieces⟩
    rw [hrun] at hother
    obtain ⟨_, rfl⟩ := Prod.mk.inj (Option.some.inj hother)
    refine numbered_injective (funext fun key => ?_)
    have hkey := congrArg (Option.map Prod.fst) (congrFun (harray.symm.trans hpieces) key)
    have hfst : Prod.fst ∘ doubles.element = id := rfl
    simpa only [Option.map_map, hfst, Option.map_id, id_eq] using hkey
  · rintro rfl
    exact ⟨after, hrun, harray⟩

/-- The three ways agree just on a text that is one word in which the separator is neither found as a text nor as a
regular expression, and on words with one blank separator between any two of them. -/
theorem splits_alike_iff (hregcomp : TakesBlanksLiterally regcomp) {fs : Text} (hfs : fs ≠ []) (runtime : RuntimeState Number)
    (store : ArrayStore Number) (array_name : Name) (text : Text) :
    SplitsAlike doubles regcomp runtime store array_name fs text ↔ text ≠ [] ∧
      ((∀ char ∈ text, is_space char = false) ∧ ¬ fs <:+: text ∧
          (∃ regex, regcomp fs = some regex ∧ regex.exec text = none) ∨
        (∀ char ∈ fs, is_space char = true) ∧ text = List.intercalate fs (words is_space text)) := by
  obtain ⟨hfields, hcount⟩ := doubles.split_record_fields runtime fs text
  have hpieces := split_pieces_of_ne_nil regcomp text hfs
  have hblank : (∀ char ∈ fs, is_space char = true) →
      split_pieces regcomp text (some fs) = split_fields fs text := by
    intro hspaces
    obtain ⟨regex, hregex, hliteral⟩ := hregcomp fs hfs hspaces
    rw [hpieces, hregex]
    exact regex_pieces_literal hfs hliteral text
  have hagree : SplitsAlike doubles regcomp runtime store array_name fs text ↔
      split_fields fs text = words is_space text ∧ split_pieces regcomp text (some fs) = words is_space text := by
    simp only [SplitsAlike, splits_into_iff, exists_eq_left', hfields, hcount, true_and]
    rw [split_pieces, split_whitespace_words]
    unfold qk_update_field_separator
    by_cases hdefault : fs = [' ']
    · have hsame := hblank (by rw [hdefault]; exact List.forall_mem_singleton.mpr rfl)
      rw [if_pos hdefault, split_fields_blank, hsame]
      exact ⟨fun h => ⟨h.2, h.2⟩, fun h => ⟨rfl, h.1⟩⟩
    · rw [if_neg hdefault]
      exact ⟨fun h => ⟨h.1.symm, h.2.trans h.1.symm⟩, fun h => ⟨h.1.symm, h.2.trans h.1.symm⟩⟩
  rw [hagree, split_fields_eq_words hfs]
  constructor
  · rintro ⟨⟨hnonempty, ⟨hrun, habsent⟩ | hwords⟩, hsplit⟩
    · refine ⟨hnonempty, .inl ⟨hrun, habsent, ?_⟩⟩
      rw [hpieces, words_of_run hnonempty hrun] at hsplit
      cases hregex : regcomp fs with
      | none => rw [hregex] at hsplit; cases hsplit
      | some regex =>
        rw [hregex] at hsplit
        exact ⟨regex, rfl, regex_pieces_eq_singleton.mp hsplit⟩
    · exact ⟨hnonempty, .inr hwords⟩
  · rintro ⟨hnonempty, ⟨hrun, habsent, regex, hregex, hnone⟩ | hwords⟩
    · refine ⟨⟨hnonempty, .inl ⟨hrun, habsent⟩⟩, ?_⟩
      rw [hpieces, hregex, words_of_run hnonempty hrun]
      exact regex_pieces_none hnone
    · refine ⟨⟨hnonempty, .inr hwords⟩, ?_⟩
      rw [hblank hwords.1]
      exact (split_fields_eq_words hfs).mpr ⟨hnonempty, .inr hwords⟩

end Agreement

/-- The regular expression that finds a text. -/
def literal_regex (separator : Text) : Regex where
  exec text := ((List.range (text.length + 1)).find? fun first => separator.isPrefixOf (text.drop first)).map fun first =>
    (first, first + separator.length)
  bounds text first last h := by
    obtain ⟨found, hfound, hspan⟩ := Option.map_eq_some_iff.mp h
    obtain ⟨rfl, rfl⟩ := Prod.mk.inj hspan
    have hoccurs : separator.isPrefixOf (text.drop found) = true :=
      List.find?_some (p := fun first => separator.isPrefixOf (text.drop first)) hfound
    have hprefix := ( List.isPrefixOf_iff_prefix.mp hoccurs).length_le
    have hmem := List.mem_range.mp (List.mem_of_find?_eq_some hfound)
    rw [List.length_drop] at hprefix
    omega

theorem literal_regex_finds {separator : Text} : FindsLiterally separator (literal_regex separator) := by
  constructor
  · intro text habsent
    refine Option.map_eq_none_iff.mpr (List.find?_eq_none.mpr fun position _ hprefix => habsent ?_)
    exact ( List.isPrefixOf_iff_prefix.mp hprefix).isInfix.trans (List.drop_suffix position text).isInfix
  · intro front rest hfirst
    refine Option.map_eq_some_iff.mpr ⟨front.length, List.find?_range_eq_some.mpr ⟨?_, ?_, ?_⟩, rfl⟩
    · rw [List.drop_left]
      exact List.isPrefixOf_iff_prefix.mpr ⟨rest, rfl⟩
    · rw [List.mem_range, List.length_append]
      omega
    · intro position hposition
      rw [Bool.not_eq_true', Bool.eq_false_iff]
      exact fun h => hfirst position hposition ( List.isPrefixOf_iff_prefix.mp h)

/-- `a b` is split alike at the default separator. -/
theorem splits_alike_blank : SplitsAlike .rational (fun separator => some (literal_regex separator))
    ( Doubles.qk_runtime_initialize .rational 0 none) ⟨LinkedTable.empty, []⟩ "A" [' '] ['a', ' ', 'b'] :=
  (splits_alike_iff (fun separator _ _ => ⟨literal_regex separator, rfl, literal_regex_finds⟩) (List.cons_ne_nil _ _)
    _ _ _ _).mpr ⟨List.cons_ne_nil _ _, .inr ⟨List.forall_mem_singleton.mpr rfl, by decide⟩⟩

/-- `a:b` is split at a colon in `FS` and by `split` with a colon, but not by `split` alone; two blanks are one default
separator in `FS`, and two separators of `split`. -/
theorem splits_alike_diverges :
    ¬ SplitsAlike .rational (fun separator => some (literal_regex separator))
        ( Doubles.qk_runtime_initialize .rational 0 none) ⟨LinkedTable.empty, []⟩ "A" [':'] ['a', ':', 'b'] ∧
      ¬ SplitsAlike .rational (fun separator => some (literal_regex separator))
        ( Doubles.qk_runtime_initialize .rational 0 none) ⟨LinkedTable.empty, []⟩ "A" [' '] ['a', ' ', ' ', 'b'] := by
  constructor
  · rintro ⟨pieces, hfields, _, hnone, _⟩
    rw [(Doubles.split_record_fields ..).1] at hfields
    rw [splits_into_iff] at hnone
    exact absurd (hfields.trans hnone.symm) (by decide)
  · rintro ⟨pieces, hfields, _, _, hsome⟩
    rw [(Doubles.split_record_fields ..).1] at hfields
    rw [splits_into_iff] at hsome
    have hpieces := regex_pieces_literal (List.cons_ne_nil ' ' []) literal_regex_finds ['a', ' ', ' ', 'b']
    exact absurd (hfields.trans (hsome.symm.trans hpieces)) (by decide)

end quawk
