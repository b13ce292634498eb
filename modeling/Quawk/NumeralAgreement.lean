import Quawk.NumeralDigits

namespace quawk

namespace Numeral

theorem skip_sign_eq (text : Text) : skip_sign text = (read_sign text).2 := by
  unfold skip_sign read_sign
  split <;> simp_all

/-- An exponent is skipped only with a digit behind its mark and sign. -/
theorem skip_exponent_marked {mark : Char} (hmark : mark = 'e' ∨ mark = 'E') (rest : Text) :
    skip_exponent (mark :: rest) = if (skip_sign rest).takeWhile is_decimal_digit = [] then mark :: rest
      else (skip_sign rest).dropWhile is_decimal_digit := by
  unfold skip_exponent
  split
  · next heq =>
    obtain ⟨rfl, rfl⟩ := List.cons.inj heq
    rw [List.span_eq_takeWhile_dropWhile]
    cases (skip_sign rest).takeWhile is_decimal_digit <;> rfl
  · next heq =>
    obtain ⟨rfl, rfl⟩ := List.cons.inj heq
    rw [List.span_eq_takeWhile_dropWhile]
    cases (skip_sign rest).takeWhile is_decimal_digit <;> rfl
  · next hlower hupper =>
    obtain rfl | rfl := hmark
    · exact (hlower rest rfl).elim
    · exact (hupper rest rfl).elim

theorem skip_exponent_eq (text : Text) : skip_exponent text = (read_power is_decimal_digit text).2 := by
  cases text with
  | nil => rfl
  | cons mark rest =>
    by_cases hmark : mark = 'e' ∨ mark = 'E'
    · rw [skip_exponent_marked hmark, skip_sign_eq]
      simp only [read_power, digits_of, hmark, true_and]
      cases (read_sign rest).2.takeWhile is_decimal_digit <;> rfl
    · have hskip : skip_exponent (mark :: rest) = mark :: rest := by
        unfold skip_exponent
        split
        · next heq => exact absurd (Or.inl (List.cons.inj heq).1) hmark
        · next heq => exact absurd (Or.inr (List.cons.inj heq).1) hmark
        · rfl
      simp [hskip, read_power, hmark]

theorem skip_mantissa_eq (text : Text) : skip_mantissa text =
    if (digits_of is_decimal_digit text).1 = [] ∧
        (read_point is_decimal_digit (digits_of is_decimal_digit text).2).1 = [] then none
    else some (read_point is_decimal_digit (digits_of is_decimal_digit text).2).2 := by
  unfold skip_mantissa read_point digits_of
  rw [List.span_eq_takeWhile_dropWhile]
  cases htake : text.takeWhile is_decimal_digit with
  | nil =>
    cases hdrop : text.dropWhile is_decimal_digit with
    | nil => simp
    | cons mark rest =>
      by_cases hmark : mark = '.'
      · subst hmark
        cases hfraction : rest.takeWhile is_decimal_digit <;> simp [List.span_eq_takeWhile_dropWhile, hfraction]
      · simp [hmark]
  | cons digit digits =>
    cases hdrop : text.dropWhile is_decimal_digit with
    | nil => simp
    | cons mark rest =>
      by_cases hmark : mark = '.'
      · subst hmark
        simp
      · simp [hmark]

/-- A string is numeric if only blanks follow its numeral. -/
theorem awk_string_is_numeric_eq (text : Text) : awk_string_is_numeric text =
    match numeric_prefix text with
    | none => false
    | some (_, rest) => rest.all is_space := by
  unfold awk_string_is_numeric numeric_prefix
  rw [skip_mantissa_eq, read_decimal_eq, skip_sign_eq, ← numeric_space_eq]
  unfold read_rest
  dsimp only
  by_cases hempty : (digits_of is_decimal_digit (read_sign (text.dropWhile is_numeric_space)).2).1 = [] ∧
      (read_point is_decimal_digit
        (digits_of is_decimal_digit (read_sign (text.dropWhile is_numeric_space)).2).2).1 = []
  · rw [if_pos hempty, if_pos hempty]
  · rw [if_neg hempty, if_neg hempty]
    dsimp only
    rw [skip_exponent_eq]

/-- The compiler reads a hexadecimal numeral as far as its `0`. -/
theorem read_hexadecimal_prefix {text : Text} {value : Rat} {rest : Text}
    (h : read_hexadecimal (read_sign text).2 = some (value, rest)) :
    ∃ mark tail, read_decimal is_decimal_digit text = some (0, mark :: tail) ∧ is_space mark = false ∧
      rest.length ≤ tail.length := by
  unfold read_hexadecimal at h
  split at h
  · next mark tail hunsigned =>
    split_ifs at h with hmark
    dsimp only at h
    split_ifs at h
    obtain ⟨_, rfl⟩ := Prod.mk.inj (Option.some.inj h)
    have hwhole : digits_of is_decimal_digit ('0' :: mark :: tail) = (['0'], mark :: tail) := by
      obtain rfl | rfl := hmark <;> rfl
    have hpoint : read_point is_decimal_digit (mark :: tail) = ([], mark :: tail) := by
      obtain rfl | rfl := hmark <;> rfl
    have hpower : read_power is_decimal_digit (mark :: tail) = (0, mark :: tail) := by
      obtain rfl | rfl := hmark <;> simp [read_power]
    have hread : read_decimal is_decimal_digit text = some (0, mark :: tail) := by
      rw [read_decimal_eq, hunsigned, hwhole, read_rest, hpoint]
      dsimp only
      rw [if_neg (by simp), hpower]
      have hzero : digits_value (['0'] ++ []) = 0 := by decide
      rw [hzero]
      simp
    have hspace : is_space mark = false := by obtain rfl | rfl := hmark <;> rfl
    refine ⟨mark, tail, hread, hspace, ?_⟩
    · have hdigits : (tail.dropWhile is_hex_digit).length ≤ tail.length := (List.dropWhile_suffix _).length_le
      have hfraction := read_point_length is_hex_digit (tail.dropWhile is_hex_digit)
      have hbinary : ∀ after : Text, (read_binary_power after).2.length ≤ after.length := by
        intro after
        unfold read_binary_power
        cases after with
        | nil => exact Nat.le_refl _
        | cons mark after =>
          have hsuffix : ((read_sign after).2.dropWhile Char.isDigit).length ≤ (read_sign after).2.length :=
            (List.dropWhile_suffix _).length_le
          have hsign := read_sign_length after
          dsimp only [digits_of]
          by_cases hpower : (mark = 'p' ∨ mark = 'P') ∧ (read_sign after).2.takeWhile Char.isDigit ≠ []
          · rw [if_pos hpower, List.length_cons]
            dsimp only
            omega
          · rw [if_neg hpower]
      exact (hbinary _).trans (hfraction.trans hdigits)
  · cases h

theorem upper_not_decimal {char : Char} (h : char.isUpper = true) : is_decimal_digit char = false := by
  obtain ⟨hlow, hhigh⟩ := of_decide_eq_true h
  replace hlow : (65 : Nat) ≤ char.val.toNat := hlow
  replace hhigh : char.val.toNat ≤ 90 := hhigh
  by_contra hdigit
  have hany : is_decimal_digit char = true := eq_true_of_ne_false hdigit
  unfold is_decimal_digit decimal_digit_starts at hany
  simp only [List.any_cons, List.any_nil, Bool.or_false, Bool.or_eq_true, Bool.and_eq_true, decide_eq_true_eq,
    Char.toNat] at hany
  omega

/-- A digit is not a letter of a word in either case. -/
theorem decimal_toLower {char : Char} (h : is_decimal_digit char = true) : char.toLower = char := by
  by_contra hne
  have hupper : char.isUpper = true := by
    by_contra hnot
    apply hne
    unfold Char.toLower
    rw [dif_neg fun hletter => hnot (decide_eq_true hletter)]
  rw [upper_not_decimal hupper] at h
  cases h

/-- The spelling of an infinity or of no number begins with one of two letters. -/
theorem read_word_head {text : Text} {negative : Bool} {result : Value × Text} (h : read_word negative text = some result) :
    ∃ head tail, text = head :: tail ∧ (head.toLower = 'i' ∨ head.toLower = 'n') := by
  unfold read_word at h
  cases text with
  | nil => cases h
  | cons head tail =>
    refine ⟨head, tail, rfl, ?_⟩
    by_contra hnot
    obtain ⟨hi, hn⟩ := not_or.mp hnot
    simp [List.isPrefixOf, Ne.symm hi, Ne.symm hn] at h

/-- The compiler reads no numeral in the spelling of an infinity or of no number. -/
theorem read_word_prefix {text : Text} {negative : Bool} {result : Value × Text}
    (h : read_word negative (read_sign text).2 = some result) : read_decimal is_decimal_digit text = none := by
  obtain ⟨head, tail, hunsigned, hletter⟩ := read_word_head h
  have hdigit : is_decimal_digit head = false := by
    by_contra hdecimal
    have hlower := decimal_toLower (eq_true_of_ne_false hdecimal)
    rw [hlower] at hletter
    obtain rfl | rfl := hletter <;> exact hdecimal rfl
  have hpoint : head ≠ '.' := by
    rintro rfl
    revert hletter
    decide
  rw [read_decimal_eq, hunsigned]
  simp [digits_of, read_rest, read_point, hdigit, hpoint]

/-- What `strtod` reads is what the compiler reads with ASCII digits only, a hexadecimal numeral of which the compiler
reads no more than the `0`, or a word of which it reads nothing. -/
theorem strtod_cases (text : Text) :
    (∃ ascii, strtod text = ascii.map (fun (value, rest) => (Value.finite value, rest)) ∧
      AgreeOrStuck ascii ( numeric_prefix text)) ∨
    (∃ value rest mark tail, strtod text = some (value, rest) ∧
      numeric_prefix text = some (0, mark :: tail) ∧ is_space mark = false ∧ rest.length ≤ tail.length) ∨
    ∃ result, strtod text = some result ∧ numeric_prefix text = none := by
  unfold numeric_prefix strtod
  rw [numeric_space_eq]
  dsimp only
  cases hhex : read_hexadecimal (read_sign (text.dropWhile is_space)).2 with
  | some result =>
    obtain ⟨value, rest⟩ := result
    obtain ⟨mark, tail, hread, hmark, hlength⟩ := read_hexadecimal_prefix hhex
    exact Or.inr (Or.inl ⟨_, rest, mark, tail, rfl, hread, hmark, hlength⟩)
  | none =>
    cases hword : read_word (read_sign (text.dropWhile is_space)).1 (read_sign (text.dropWhile is_space)).2 with
    | some result => exact Or.inr (Or.inr ⟨result, rfl, read_word_prefix hword⟩)
    | none => exact Or.inl ⟨_, rfl, decimals_agree _⟩

/-- Compiler and runtime agree on a string: on whether it is numeric, and on the number it starts with. -/
structure Agree (text : Text) : Prop where
  numeric : awk_string_is_numeric text = qk_is_full_numeric_string text
  number : awk_numeric_prefix text = qk_parse_awk_numeric_prefix text

/-- `strtod` converts what the pattern matches. -/
def SameNumeral (text : Text) : Prop := ( numeric_prefix text).map Prod.snd = (strtod text).map Prod.snd

/-- A terminator follows the numeral, with nothing but blanks between. -/
def EndsAtTerminator (text : Text) : Prop :=
  ∃ value rest, strtod text = some (value, rest) ∧ (rest.dropWhile is_space).head? = some '\x00'

/-- Something else than blanks follows what the pattern matches, and what `strtod` converts. -/
structure GoesOn (text : Text) : Prop where
  matched : ∀ value rest, numeric_prefix text = some (value, rest) → rest.all is_space = false
  converted : ∀ value rest, strtod text = some (value, rest) → at_end (rest.dropWhile is_space) = false

theorem Stuck.not_at_end {rest : Text} (h : Stuck rest) : at_end (rest.dropWhile is_space) = false := by
  obtain ⟨char, tail, rfl, hspace, hne⟩ := h
  simp [hspace, at_end, hne]

theorem strtod_of_at_end {text : Text} (h : at_end (text.dropWhile is_space) = true) : strtod text = none := by
  unfold strtod
  cases hstripped : text.dropWhile is_space with
  | nil => rfl
  | cons char rest =>
    rw [hstripped] at h
    obtain rfl : char = '\x00' := by simpa [at_end] using h
    rfl

theorem strtod_dropWhile (text : Text) : strtod (text.dropWhile is_space) = strtod text := by
  unfold strtod
  rw [List.dropWhile_idempotent]

theorem qk_is_full_numeric_string_eq (text : Text) : qk_is_full_numeric_string text =
    match strtod text with
    | none => false
    | some (_, rest) => at_end (rest.dropWhile is_space) := by
  unfold qk_is_full_numeric_string
  dsimp only
  rw [strtod_dropWhile]
  split_ifs with hend
  · rw [strtod_of_at_end hend]
  · rfl

/-- Only blanks, or blanks up to a terminator. -/
theorem at_end_eq {rest : Text} (h : (rest.dropWhile is_space).head? ≠ some '\x00') :
    at_end (rest.dropWhile is_space) = rest.all is_space := by
  induction rest with
  | nil => rfl
  | cons char rest ih =>
    by_cases hspace : is_space char = true
    · simp only [List.dropWhile_cons, hspace, if_true, List.all_cons, Bool.true_and] at h ⊢
      exact ih h
    · simp only [List.dropWhile_cons, hspace, List.all_cons, Bool.false_and] at h ⊢
      simpa [at_end] using h

theorem at_end_of_terminator {rest : Text} (h : (rest.dropWhile is_space).head? = some '\x00') :
    at_end (rest.dropWhile is_space) = true ∧ rest.all is_space = false := by
  induction rest with
  | nil => cases h
  | cons char rest ih =>
    by_cases hspace : is_space char = true
    · simp only [List.dropWhile_cons, hspace, if_true, List.all_cons, Bool.true_and] at h ⊢
      exact ih h
    · simp only [List.dropWhile_cons, hspace, List.all_cons, Bool.false_and] at h ⊢
      obtain rfl : char = '\x00' := by simpa using h
      exact ⟨rfl, trivial⟩

section Differ

variable {text : Text} (hnumeral : ¬ SameNumeral text)
include hnumeral

/-- Where the two read different numerals and the runtime is not at the end, they agree if the compiler is not either. -/
theorem agree_of_not_converted
    (h : ∀ value rest, strtod text = some (value, rest) → at_end (rest.dropWhile is_space) = false) :
    ((match numeric_prefix text with
        | none => false
        | some (_, rest) => rest.all is_space) =
      (match strtod text with
        | none => false
        | some (_, rest) => at_end (rest.dropWhile is_space)) ∧
      awk_numeric_prefix text = qk_parse_awk_numeric_prefix text) ↔
    SameNumeral text ∧ ¬ EndsAtTerminator text ∨
      ¬ SameNumeral text ∧ awk_numeric_prefix text = qk_parse_awk_numeric_prefix text ∧ GoesOn text := by
  have hruntime : (match strtod text with
      | none => false
      | some (_, rest) => at_end (rest.dropWhile is_space)) = false := by
    cases hstrtod : strtod text with
    | none => rfl
    | some result => exact h _ _ hstrtod
  rw [hruntime]
  simp only [hnumeral, false_and, not_false_eq_true, true_and, false_or]
  rw [and_comm]
  refine and_congr_right fun _ => ⟨fun heq => ⟨fun value rest hlead => ?_, h⟩, fun hgoes => ?_⟩
  · rw [hlead] at heq
    exact heq
  · cases hlead : numeric_prefix text with
    | none => rfl
    | some result => exact hgoes.matched _ _ hlead

theorem agree_of_not_matched (h : ∀ value rest, numeric_prefix text = some (value, rest) → rest.all is_space = false) :
    ((match numeric_prefix text with
        | none => false
        | some (_, rest) => rest.all is_space) =
      (match strtod text with
        | none => false
        | some (_, rest) => at_end (rest.dropWhile is_space)) ∧
      awk_numeric_prefix text = qk_parse_awk_numeric_prefix text) ↔
    SameNumeral text ∧ ¬ EndsAtTerminator text ∨
      ¬ SameNumeral text ∧ awk_numeric_prefix text = qk_parse_awk_numeric_prefix text ∧ GoesOn text := by
  have hcompiler : (match numeric_prefix text with
      | none => false
      | some (_, rest) => rest.all is_space) = false := by
    cases hlead : numeric_prefix text with
    | none => rfl
    | some result => exact h _ _ hlead
  rw [hcompiler]
  simp only [hnumeral, false_and, not_false_eq_true, true_and, false_or]
  rw [and_comm]
  refine and_congr_right fun _ => ⟨fun heq => ⟨h, fun value rest hstrtod => ?_⟩, fun hgoes => ?_⟩
  · rw [hstrtod] at heq
    exact heq.symm
  · cases hstrtod : strtod text with
    | none => rfl
    | some result => exact (hgoes.converted _ _ hstrtod).symm

end Differ

theorem agree_cases (text : Text) :
    Agree text ↔ SameNumeral text ∧ ¬ EndsAtTerminator text ∨
      ¬ SameNumeral text ∧ awk_numeric_prefix text = qk_parse_awk_numeric_prefix text ∧ GoesOn text := by
  rw [show Agree text ↔ (awk_string_is_numeric text = qk_is_full_numeric_string text ∧
    awk_numeric_prefix text = qk_parse_awk_numeric_prefix text) from ⟨fun h => ⟨h.numeric, h.number⟩, fun h => ⟨h.1, h.2⟩⟩,
    awk_string_is_numeric_eq, qk_is_full_numeric_string_eq]
  obtain ⟨ascii, hstrtod, hsame | ⟨hdiffer, hstuck⟩⟩ | ⟨value, rest, mark, tail, hstrtod, hlead, hmark, hlength⟩ |
    ⟨result, hstrtod, hlead⟩ := strtod_cases text
  · -- the same decimal numeral
    have hnumeral : SameNumeral text := by
      unfold SameNumeral
      rw [hstrtod, hsame]
      cases numeric_prefix text <;> rfl
    have hnumber : awk_numeric_prefix text = qk_parse_awk_numeric_prefix text := by
      unfold awk_numeric_prefix qk_parse_awk_numeric_prefix
      rw [hstrtod, hsame]
      cases numeric_prefix text <;> rfl
    have hiff : (match numeric_prefix text with
          | none => false
          | some (_, rest) => rest.all is_space) =
        (match strtod text with
          | none => false
          | some (_, rest) => at_end (rest.dropWhile is_space)) ↔ ¬ EndsAtTerminator text := by
      unfold EndsAtTerminator
      rw [hstrtod, hsame]
      cases numeric_prefix text with
      | none => simp
      | some result =>
        obtain ⟨value, rest⟩ := result
        simp only [Option.map_some, Option.some.injEq, Prod.mk.injEq, and_assoc, exists_eq_left', exists_and_left]
        constructor
        · intro heq hterminator
          obtain ⟨hend, hall⟩ := at_end_of_terminator hterminator
          rw [hall, hend] at heq
          cases heq
        · intro hnot
          exact (at_end_eq hnot).symm
    rw [hiff]
    simp [hnumeral, hnumber]
  · -- a foreign digit
    have hnumeral : ¬ SameNumeral text := by
      unfold SameNumeral
      rw [hstrtod, Option.map_map]
      exact fun heq => hdiffer heq.symm
    have hconverted : ∀ value rest, strtod text = some (value, rest) → at_end (rest.dropWhile is_space) = false := by
      intro value rest heq
      rw [hstrtod] at heq
      obtain ⟨⟨_, rest'⟩, hascii, hpair⟩ := Option.map_eq_some_iff.mp heq
      obtain ⟨_, rfl⟩ := Prod.mk.inj hpair
      exact (hstuck _ _ hascii).not_at_end
    exact agree_of_not_converted hnumeral hconverted
  · -- a hexadecimal numeral
    have hnumeral : ¬ SameNumeral text := by
      unfold SameNumeral
      rw [hstrtod, hlead]
      simp only [Option.map_some, Option.some.injEq]
      rintro rfl
      rw [List.length_cons] at hlength
      omega
    refine agree_of_not_matched hnumeral fun value rest heq => ?_
    rw [hlead] at heq
    obtain ⟨_, rfl⟩ := Prod.mk.inj (Option.some.inj heq)
    simp [hmark]
  · -- an infinity, or no number
    have hnumeral : ¬ SameNumeral text := by
      unfold SameNumeral
      rw [hstrtod, hlead]
      simp
    refine agree_of_not_matched hnumeral fun value rest heq => ?_
    rw [hlead] at heq
    cases heq

/-- The leading numerals denote the same number, by the digits: a hexadecimal numeral has none but zeros, any other adds
none but zeros to what `strtod` takes of it, and there is no infinity and no nan. -/
def SameNumber (text : Text) : Prop :=
  let (negative, unsigned) := read_sign (text.dropWhile is_space)
  if (read_hexadecimal unsigned).isSome then (hexadecimal_digits unsigned).all is_zero = true
  else (read_word negative unsigned).isNone ∧ ZerosAdded (text.dropWhile is_space)

theorem read_word_not_finite {negative : Bool} {text : Text} {value : Value} {rest : Text}
    (h : read_word negative text = some (value, rest)) (number : Rat) : Value.finite number ≠ value := by
  unfold read_word at h
  dsimp only at h
  split_ifs at h <;> obtain ⟨rfl, _⟩ := Prod.mk.inj (Option.some.inj h) <;> exact Value.noConfusion

theorem same_number_iff (text : Text) :
    awk_numeric_prefix text = qk_parse_awk_numeric_prefix text ↔ SameNumber text := by
  unfold awk_numeric_prefix qk_parse_awk_numeric_prefix SameNumber numeric_prefix strtod
  rw [numeric_space_eq]
  dsimp only
  cases hhex : read_hexadecimal (read_sign (text.dropWhile is_space)).2 with
  | some result =>
    obtain ⟨value, rest⟩ := result
    obtain ⟨mark, tail, hread, -, -⟩ := read_hexadecimal_prefix hhex
    rw [hread]
    simp only [Option.map_some, Option.getD_some, Option.isSome_some, if_true, Value.finite.injEq]
    rw [← read_hexadecimal_eq_zero hhex]
    split_ifs
    · rw [eq_comm, neg_eq_zero]
    · exact eq_comm
  | none =>
    simp only [Option.isSome_none, Bool.false_eq_true, if_false]
    cases hword : read_word (read_sign (text.dropWhile is_space)).1 (read_sign (text.dropWhile is_space)).2 with
    | some result =>
      obtain ⟨value, rest⟩ := result
      exact iff_of_false (read_word_not_finite hword _) fun h => Bool.false_ne_true h.1
    | none =>
      rw [← decimal_number_eq_iff]
      simp only [Option.isNone_none, true_and]
      cases read_decimal Char.isDigit (text.dropWhile is_space) with
      | none => exact Value.finite.injEq _ _ ▸ Iff.rfl
      | some result => exact Value.finite.injEq _ _ ▸ Iff.rfl

/-- Zeros of another script add nothing. -/
example : SameNumber "1.5०z".toList ∧ ¬ SameNumber "1०z".toList ∧ SameNumber "0x0z".toList := by
  unfold SameNumber ZerosAdded
  decide

end Numeral

end quawk
