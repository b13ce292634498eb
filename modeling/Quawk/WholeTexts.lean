import Quawk.CommandLine
import Quawk.NumeralAgreement

namespace quawk

namespace Numeral

theorem digits_value_isDigit {digits : Text} (h : ∀ digit ∈ digits, digit.isDigit = true) :
    digits_value digits = Nat.ofDigitChars 10 digits 0 := by
  unfold digits_value Nat.ofDigitChars
  refine List.foldl_ext _ _ _ fun value digit hdigit => ?_
  rw [decimal_value_of_isDigit (h digit hdigit)]

/-- The sign of a whole number and its digits. -/
theorem read_sign_decimal_text (value : Int) :
    read_sign (decimal_text value) = (decide (value < 0), Nat.toDigits 10 value.natAbs) := by
  unfold decimal_text
  by_cases hnegative : value < 0
  · simp [hnegative, read_sign]
  · obtain ⟨digit, digits, hdigits⟩ := List.exists_cons_of_ne_nil (Nat.toDigits_ne_nil : Nat.toDigits 10 value.natAbs ≠ [])
    have hdigit : digit.isDigit = true := digits_of_toDigits value.natAbs digit (by rw [hdigits]; exact List.mem_cons_self)
    simp [hnegative, hdigits, read_sign_digit hdigit]

/-- The text of a whole number is a numeral, and denotes it. -/
theorem read_decimal_whole (value : Int) : read_decimal is_decimal_digit (decimal_text value) = some ((value : Rat), []) := by
  have hdigits := digits_of_toDigits value.natAbs
  have hdecimal : ∀ digit ∈ Nat.toDigits 10 value.natAbs, is_decimal_digit digit = true :=
    fun digit hmem => decimal_of_isDigit (hdigits digit hmem)
  have htake : digits_of is_decimal_digit (Nat.toDigits 10 value.natAbs) = (Nat.toDigits 10 value.natAbs, []) := by
    unfold digits_of
    rw [List.takeWhile_eq_self_iff.mpr hdecimal, List.dropWhile_eq_nil_iff.mpr hdecimal]
  have hvalue : digits_value (Nat.toDigits 10 value.natAbs) = value.natAbs := by
    rw [digits_value_isDigit hdigits, Nat.ofDigitChars_ten_toDigits]
  rw [read_decimal_eq, read_sign_decimal_text, htake]
  have hne : Nat.toDigits 10 value.natAbs ≠ [] := Nat.toDigits_ne_nil
  simp only [read_rest, read_point, read_power, hne, false_and, if_false, List.append_nil, hvalue, List.length_nil]
  by_cases hnegative : value < 0
  · have habs : (value.natAbs : Rat) = -(value : Rat) := by
      rw [← Int.cast_natCast, Int.ofNat_natAbs_of_nonpos hnegative.le]
      push_cast
      rfl
    simp [hnegative, habs]
  · have habs : (value.natAbs : Rat) = (value : Rat) := by
      rw [← Int.cast_natCast, Int.natAbs_of_nonneg (by omega)]
    simp [hnegative, habs]

/-- The characters of a whole number: a digit, or the sign. -/
theorem mem_decimal_text {value : Int} {char : Char} (h : char ∈ decimal_text value) :
    char = '-' ∨ char.isDigit = true := by
  unfold decimal_text at h
  rcases List.mem_append.mp h with hsign | hdigit
  · split_ifs at hsign
    · exact .inl (List.mem_singleton.mp hsign)
    · cases hsign
  · exact .inr (digits_of_toDigits _ _ hdigit)

theorem awk_numeric_prefix_whole (value : Int) :
    awk_numeric_prefix (decimal_text value) = .finite (value : Rat) := by
  have hspace : ∀ char ∈ decimal_text value, is_numeric_space char = false := fun char hmem => by
    obtain rfl | hdigit := mem_decimal_text hmem
    · rfl
    · rw [numeric_space_eq]
      exact not_space_of_digit hdigit
  have hdrop : (decimal_text value).dropWhile is_numeric_space = decimal_text value := by
    cases htext : decimal_text value with
    | nil => rfl
    | cons char rest => exact List.dropWhile_cons_of_neg (by simp [hspace char (by rw [htext]; exact List.mem_cons_self)])
  rw [ awk_numeric_prefix, numeric_prefix, hdrop, read_decimal_whole]
  rfl

/-- The decimal numeral of a text, as it is read where the text is not spelled in another way. -/
theorem read_decimal_isDigit (text : Text) :
    read_decimal Char.isDigit (text.dropWhile is_space) = decimal_strtod text := by
  have hdigits : ∀ digits : Text, (∀ digit ∈ digits, digit.isDigit = true) →
      digits_value digits = Nat.ofDigitChars 10 digits 0 := fun _ => digits_value_isDigit
  have htaken : ∀ text : Text, ∀ digit ∈ text.takeWhile Char.isDigit, digit.isDigit = true :=
    fun _ _ => List.mem_takeWhile_imp
  have hpower : ∀ text, read_power Char.isDigit text = read_exponent text := by
    intro text
    unfold read_power read_exponent
    cases text with
    | nil => rfl
    | cons mark rest =>
      dsimp only [digits_of, take_digits]
      rw [hdigits _ (htaken _)]
  have hpoint : read_point Char.isDigit = read_fraction := by
    funext text
    unfold read_point read_fraction
    rfl
  have hfraction : ∀ text : Text, ∀ digit ∈ (read_fraction text).1, digit.isDigit = true := by
    intro text digit hmem
    unfold read_fraction at hmem
    split at hmem
    · exact htaken _ digit hmem
    · cases hmem
  unfold read_decimal decimal_strtod
  dsimp only [digits_of, take_digits]
  rw [hpoint, hpower, hdigits]
  intro digit hmem
  obtain hwhole | hmem := List.mem_append.mp hmem
  · exact htaken _ digit hwhole
  · exact hfraction _ digit hmem

/-- A character of a decimal numeral, but for its digits. -/
def IsMark (char : Char) : Prop := char = '-' ∨ char = '+' ∨ char = '.' ∨ char = 'e'

/-- A text of digits and the marks of a decimal numeral is read as one. -/
theorem parse_decimal_marks {text : Text} (h : ∀ char ∈ text, char.isDigit = true ∨ IsMark char) :
    qk_parse_awk_numeric_prefix text = .finite (qk_parse_number_text text) := by
  have hunsigned : ∀ char ∈ (read_sign (text.dropWhile is_space)).2, char.isDigit = true ∨ IsMark char := by
    intro char hmem
    have hsuffix : (read_sign (text.dropWhile is_space)).2 <:+ text.dropWhile is_space := by
      unfold read_sign
      split
      · next rest hstripped =>
        rw [hstripped]
        exact List.suffix_cons _ _
      · next rest hstripped =>
        rw [hstripped]
        exact List.suffix_cons _ _
      · exact List.suffix_rfl
    exact h char ((List.dropWhile_suffix _).subset (hsuffix.subset hmem))
  have hhex : read_hexadecimal (read_sign (text.dropWhile is_space)).2 = none := by
    by_contra hsome
    obtain ⟨⟨value, rest⟩, hread⟩ := Option.ne_none_iff_exists'.mp hsome
    unfold read_hexadecimal at hread
    split at hread
    · next mark tail heq =>
      split_ifs at hread with hmark
      obtain hdigit | hmarks := hunsigned mark (by rw [heq]; exact List.mem_cons_of_mem _ List.mem_cons_self)
      · obtain rfl | rfl := hmark <;> cases hdigit
      · obtain rfl | rfl := hmark <;> revert hmarks <;> unfold IsMark <;> decide
    · cases hread
  have hword : read_word (read_sign (text.dropWhile is_space)).1 (read_sign (text.dropWhile is_space)).2 = none := by
    by_contra hsome
    obtain ⟨result, hread⟩ := Option.ne_none_iff_exists'.mp hsome
    obtain ⟨head, tail, heq, hletter⟩ := read_word_head hread
    obtain hdigit | hmarks := hunsigned head (by rw [heq]; exact List.mem_cons_self)
    · rw [decimal_toLower (decimal_of_isDigit hdigit)] at hletter
      obtain rfl | rfl := hletter <;> cases hdigit
    · obtain rfl | rfl | rfl | rfl := hmarks <;> revert hletter <;> decide
  unfold qk_parse_awk_numeric_prefix strtod
  dsimp only
  rw [hhex, hword, read_decimal_isDigit]
  unfold qk_parse_number_text
  cases decimal_strtod text <;> rfl

/-- What `%.6g` writes for a whole number is a decimal numeral. -/
theorem parse_general_text (value : Int) :
    qk_parse_awk_numeric_prefix (general_text value) = .finite (qk_parse_number_text (general_text value)) := by
  have hdigits := digits_of_toDigits
  refine parse_decimal_marks fun char hmem => ?_
  unfold general_text at hmem
  split_ifs at hmem
  · obtain rfl | hdigit := mem_decimal_text hmem
    · exact .inr (.inl rfl)
    · exact .inl hdigit
  · dsimp only [scientific_text] at hmem
    rw [List.mem_append, List.mem_append, List.mem_append] at hmem
    obtain ((hsign | hfirst) | hfraction) | hexponent := hmem
    · split_ifs at hsign
      · exact .inr (.inl (List.mem_singleton.mp hsign))
      · cases hsign
    · exact .inl (hdigits _ char (List.mem_of_mem_take hfirst))
    · split_ifs at hfraction
      · cases hfraction
      · obtain rfl | hfraction := List.mem_cons.mp hfraction
        · exact .inr (.inr (.inr (.inl rfl)))
        · exact .inl (hdigits _ char (List.mem_of_mem_tail ((List.rdropWhile_prefix _ _).subset hfraction)))
    · unfold exponent_text at hexponent
      rw [List.mem_append, List.mem_append] at hexponent
      obtain (hmark | hzero) | hexponent := hexponent
      · obtain rfl | hplus := List.mem_cons.mp hmark
        · exact .inr (.inr (.inr (.inr rfl)))
        · exact .inr (.inr (.inl (List.mem_singleton.mp hplus)))
      · split_ifs at hzero
        · exact .inl (List.mem_singleton.mp hzero ▸ rfl)
        · cases hzero
      · exact .inl (hdigits _ char hexponent)

/-- Where `strtod` converts what the pattern matches, both find the same number. -/
theorem SameNumeral.value {text : Text} (h : SameNumeral text) :
    qk_parse_awk_numeric_prefix text = awk_numeric_prefix text := by
  unfold SameNumeral at h
  obtain ⟨ascii, hstrtod, hsame | ⟨hdiffer, -⟩⟩ | ⟨value, rest, mark, tail, hstrtod, hlead, -, hlength⟩ |
    ⟨result, hstrtod, hlead⟩ := strtod_cases text
  · unfold qk_parse_awk_numeric_prefix awk_numeric_prefix
    rw [hstrtod, hsame]
    cases numeric_prefix text <;> rfl
  · rw [hstrtod, Option.map_map] at h
    exact absurd h.symm hdiffer
  · rw [hstrtod, hlead] at h
    have hrest : mark :: tail = rest := Option.some.inj h
    rw [← hrest, List.length_cons] at hlength
    omega
  · rw [hstrtod, hlead] at h
    cases h

end Numeral

open Numeral

theorem digit_no_float_space {char : Char} (h : char = '-' ∨ char.isDigit = true) : is_float_space char = false := by
  have hlow : char.toNat < 0x85 := by
    obtain rfl | hdigit := h
    · decide
    · simp only [Char.isDigit, Bool.and_eq_true, decide_eq_true_eq] at hdigit
      have hhigh : char.val.toNat ≤ 57 := hdigit.2
      unfold Char.toNat
      omega
  have hspace : is_numeric_space char = false := by
    obtain rfl | hdigit := h
    · rfl
    · rw [numeric_space_eq]
      exact not_space_of_digit hdigit
  have hwide : WIDE_SPACES.contains char.toNat = false := by
    rw [Bool.eq_false_iff]
    intro hmem
    have hall : ∀ code ∈ WIDE_SPACES, 0x85 ≤ code := by decide
    exact absurd (hall _ (List.contains_iff_mem.mp hmem)) (by omega)
  rw [is_float_space, hspace, hwide]
  rfl

theorem remove_underscores_none {text : Text} (h : '_' ∉ text) {previous : Option Char} (hprevious : previous ≠ some '_') :
    remove_underscores previous text = some text := by
  induction text generalizing previous with
  | nil => simp [remove_underscores, hprevious]
  | cons char rest ih =>
    obtain ⟨hchar, hrest⟩ := not_or.mp (List.mem_cons.not.mp h)
    rw [remove_underscores, if_neg fun hboth => hprevious hboth.1,
      ih hrest fun heq => hchar (Option.some.inj heq).symm]
    · rfl
    · exact fun heq => hchar heq.symm

/-- Python reads the text of a whole number as the number. -/
theorem python_float_whole (value : Int) : python_float (decimal_text value) = some (.finite (value : Rat)) := by
  have hspace : ∀ char ∈ decimal_text value, is_float_space char = false := fun char hmem =>
    digit_no_float_space (mem_decimal_text hmem)
  have hdrop {text : Text} (h : ∀ char ∈ text, is_float_space char = false) : text.dropWhile is_float_space = text := by
    cases text with
    | nil => rfl
    | cons char rest => exact List.dropWhile_cons_of_neg (by simp [h char List.mem_cons_self])
  have hstripped : ((decimal_text value).dropWhile is_float_space).rdropWhile is_float_space = decimal_text value := by
    rw [hdrop hspace, List.rdropWhile, hdrop fun char hmem => hspace char (List.mem_reverse.mp hmem), List.reverse_reverse]
  have hunderscore : '_' ∉ decimal_text value := fun hmem => by
    obtain heq | hdigit := mem_decimal_text hmem
    · cases heq
    · cases hdigit
  have hword : python_word (decimal_text value) = none := by
    obtain ⟨digit, digits, hdigits⟩ := List.exists_cons_of_ne_nil (Nat.toDigits_ne_nil : Nat.toDigits 10 value.natAbs ≠ [])
    have hdigit : digit.isDigit = true := digits_of_toDigits value.natAbs digit (by rw [hdigits]; exact List.mem_cons_self)
    have hlower := decimal_toLower (decimal_of_isDigit hdigit)
    have hi : digit ≠ 'i' := fun heq => by rw [heq] at hdigit; cases hdigit
    have hn : digit ≠ 'n' := fun heq => by rw [heq] at hdigit; cases hdigit
    simp [python_word, read_sign_decimal_text, hdigits, hlower, hi, hn]
  unfold python_float
  simp [hstripped, remove_underscores_none hunderscore, hword, read_decimal_whole]

end quawk
