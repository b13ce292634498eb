import Quawk.LoweringState
import Quawk.NumberText

namespace quawk

namespace Numeral

/-- The value of a decimal digit of any script. -/
def decimal_value (char : Char) : Nat :=
  ((decimal_digit_starts.find? fun start => start ≤ char.toNat && char.toNat < start + 10).map
    (char.toNat - ·)).getD 0

def digits_value (digits : Text) : Nat := digits.foldl (fun value digit => 10 * value + decimal_value digit) 0

section Decimal

-- What counts as a digit.
variable (digit : Char → Bool)

def digits_of (text : Text) : Text × Text := (text.takeWhile digit, text.dropWhile digit)

def read_point : Text → Text × Text
  | '.' :: rest => digits_of digit rest
  | rest => ([], rest)

/-- The exponent, which needs a digit. -/
def read_power (text : Text) : Int × Text :=
  match text with
  | [] => (0, [])
  | mark :: rest =>
    let (negative, unsigned) := read_sign rest
    let (digits, after) := digits_of digit unsigned
    if (mark = 'e' ∨ mark = 'E') ∧ digits ≠ [] then
      (if negative then -(digits_value digits : Int) else digits_value digits, after)
    else (0, text)

/-- A signed decimal numeral at the start of a text: its value, and the text after it. -/
def read_decimal (text : Text) : Option (Rat × Text) :=
  let (negative, unsigned) := read_sign text
  let (whole, rest) := digits_of digit unsigned
  let (fraction, rest) := read_point digit rest
  if whole = [] ∧ fraction = [] then none
  else
    let (exponent, rest) := read_power digit rest
    let magnitude : Rat := digits_value (whole ++ fraction) * 10 ^ (exponent - fraction.length)
    some (if negative then -magnitude else magnitude, rest)

end Decimal

/-- A number as it is spelled, before it is rounded to a double. -/
inductive Value where
  | finite (value : Rat)
  | infinity (negative : Bool)
  | nan
  deriving DecidableEq

/-- What `NUMERIC_PREFIX_PATTERN` matches, and what follows it. -/
def numeric_prefix (text : Text) : Option (Rat × Text) :=
  read_decimal is_decimal_digit (text.dropWhile is_numeric_space)

/-- Parse one AWK numeric prefix, returning `0.0` when none is present. -/
def awk_numeric_prefix (text : Text) : Value := .finite ((( numeric_prefix text).map Prod.fst).getD 0)

def is_hex_digit (char : Char) : Bool :=
  char.isDigit || ('a' ≤ char && char ≤ 'f') || ('A' ≤ char && char ≤ 'F')

def hex_digit_value (char : Char) : Nat :=
  if char.isDigit then char.toNat - '0'.toNat
  else if 'a' ≤ char then char.toNat - 'a'.toNat + 10
  else char.toNat - 'A'.toNat + 10

def hex_value (digits : Text) : Nat := digits.foldl (fun value digit => 16 * value + hex_digit_value digit) 0

def read_binary_power (text : Text) : Int × Text :=
  match text with
  | [] => (0, [])
  | mark :: rest =>
    let (negative, unsigned) := read_sign rest
    let (digits, after) := digits_of Char.isDigit unsigned
    if (mark = 'p' ∨ mark = 'P') ∧ digits ≠ [] then
      (if negative then -(digits_value digits : Int) else digits_value digits, after)
    else (0, text)

/-- A hexadecimal numeral without its sign. -/
def read_hexadecimal : Text → Option (Rat × Text)
  | '0' :: mark :: rest =>
    if mark = 'x' ∨ mark = 'X' then
      let (whole, rest) := digits_of is_hex_digit rest
      let (fraction, rest) := read_point is_hex_digit rest
      if whole = [] ∧ fraction = [] then none
      else
        let (exponent, rest) := read_binary_power rest
        some (hex_value (whole ++ fraction) * 2 ^ (exponent - 4 * fraction.length), rest)
    else none
  | _ => none

/-- What may follow `nan` in parentheses. -/
def skip_payload (text : Text) : Text :=
  match text with
  | '(' :: rest =>
    match rest.dropWhile fun char => char.isAlphanum || char == '_' with
    | ')' :: after => after
    | _ => text
  | _ => text

/-- The spellings of infinity and of no number, in either case. -/
def read_word (negative : Bool) (text : Text) : Option (Value × Text) :=
  let lower := text.map Char.toLower
  if "infinity".toList.isPrefixOf lower then some (.infinity negative, text.drop 8)
  else if "inf".toList.isPrefixOf lower then some (.infinity negative, text.drop 3)
  else if "nan".toList.isPrefixOf lower then some (.nan, skip_payload (text.drop 3))
  else none

/-- `strtod` of the C library in the C locale: the longest numeral after blanks, and the text after it. -/
def strtod (text : Text) : Option (Value × Text) :=
  let stripped := text.dropWhile is_space
  let (negative, unsigned) := read_sign stripped
  match read_hexadecimal unsigned with
  | some (value, rest) => some (.finite (if negative then -value else value), rest)
  | none =>
    match read_word negative unsigned with
    | some (value, rest) => some (value, rest)
    | none => (read_decimal Char.isDigit stripped).map fun (value, rest) => (.finite value, rest)

def qk_parse_awk_numeric_prefix (text : Text) : Value := ((strtod text).map Prod.fst).getD (.finite 0)

/-- A C string ends at the first terminator. -/
def at_end : Text → Bool
  | [] => true
  | char :: _ => char == '\x00'

def qk_is_full_numeric_string (text : Text) : Bool :=
  let text := text.dropWhile is_space
  if at_end text then false
  else match strtod text with
    | none => false
    | some (_, rest) => at_end (rest.dropWhile is_space)

theorem numeric_space_eq : is_numeric_space = is_space := by
  funext char
  unfold is_numeric_space is_space
  rw [Bool.eq_iff_iff, List.contains_iff_mem, List.contains_iff_mem]
  simp only [List.mem_cons, List.not_mem_nil, or_false]
  constructor
  · rintro (h | h | h | h | h | h) <;> simp [h]
  · rintro (h | h | h | h | h | h) <;> simp [h]

theorem decimal_of_isDigit {char : Char} (h : char.isDigit = true) : is_decimal_digit char = true := by
  unfold is_decimal_digit decimal_digit_starts
  rw [List.any_cons, Bool.or_eq_true]
  apply Or.inl
  simp only [Char.isDigit, Bool.and_eq_true, decide_eq_true_eq] at h
  simp only [Bool.and_eq_true, decide_eq_true_eq]
  have hlow : (48 : Nat) ≤ char.val.toNat := h.1
  have hhigh : char.val.toNat ≤ 57 := h.2
  unfold Char.toNat
  omega

theorem decimal_value_of_isDigit {char : Char} (h : char.isDigit = true) :
    decimal_value char = char.toNat - '0'.toNat := by
  simp only [Char.isDigit, Bool.and_eq_true, decide_eq_true_eq] at h
  have hlow : (48 : Nat) ≤ char.val.toNat := h.1
  have hhigh : char.val.toNat ≤ 57 := h.2
  unfold decimal_value decimal_digit_starts
  rw [List.find?_cons_of_pos (by
    simp only [Bool.and_eq_true, decide_eq_true_eq, Char.toNat]
    omega)]
  rfl

/-- A decimal digit of another script than ASCII. -/
def Foreign (char : Char) : Prop := is_decimal_digit char = true ∧ char.isDigit = false

theorem Foreign.ne {char : Char} (h : Foreign char) {other : Char} (hother : is_decimal_digit other = false) :
    char ≠ other := by
  rintro rfl
  rw [h.1] at hother
  cases hother

/-- A text goes on with a character that neither is a blank nor ends it. -/
def Stuck (text : Text) : Prop := ∃ char tail, text = char :: tail ∧ is_space char = false ∧ char ≠ '\x00'

theorem Foreign.stuck {char : Char} (h : Foreign char) (tail : Text) : Stuck (char :: tail) := by
  refine ⟨char, tail, rfl, ?_, h.ne (by decide)⟩
  by_contra hspace
  have hmem : char ∈ [' ', '\t', '\n', '\x0b', '\x0c', '\r'] :=
    List.contains_iff_mem.mp (eq_true_of_ne_false hspace)
  simp only [List.mem_cons, List.not_mem_nil, or_false] at hmem
  obtain rfl | rfl | rfl | rfl | rfl | rfl := hmem <;> exact absurd h.1 (by decide)

/-- ASCII digits and decimal digits end at the same place, or at a foreign digit. -/
theorem digits_agree (text : Text) :
    digits_of Char.isDigit text = digits_of is_decimal_digit text ∨
    ∃ char tail, Foreign char ∧ (digits_of Char.isDigit text).2 = char :: tail ∧
      (digits_of is_decimal_digit text).1 ≠ [] ∧ (digits_of is_decimal_digit text).2.length ≤ tail.length := by
  induction text with
  | nil => exact Or.inl rfl
  | cons char text ih =>
    by_cases hdigit : char.isDigit = true
    · have hdecimal := decimal_of_isDigit hdigit
      simp only [digits_of, List.takeWhile_cons, List.dropWhile_cons, hdigit, hdecimal, if_true] at ih ⊢
      obtain heq | ⟨foreign, tail, hforeign, hrest, _, hlength⟩ := ih
      · obtain ⟨htake, hdrop⟩ := Prod.mk.inj heq
        exact Or.inl (by rw [htake, hdrop])
      · exact Or.inr ⟨foreign, tail, hforeign, hrest, by simp, hlength⟩
    · by_cases hdecimal : is_decimal_digit char = true
      · refine Or.inr ⟨char, text, ⟨hdecimal, by simpa using hdigit⟩, ?_, ?_, ?_⟩
        · simp [digits_of, hdigit]
        · simp [digits_of, hdecimal]
        · simp only [digits_of, List.dropWhile_cons, hdecimal, if_true]
          exact (List.dropWhile_suffix _).length_le
      · exact Or.inl (by simp [digits_of, hdigit, hdecimal])

theorem read_point_length (digit : Char → Bool) (text : Text) : (read_point digit text).2.length ≤ text.length := by
  unfold read_point
  split
  · exact (List.dropWhile_suffix _).length_le.trans (Nat.le_succ _)
  · exact Nat.le_refl _

theorem read_sign_length (text : Text) : (read_sign text).2.length ≤ text.length := by
  unfold read_sign
  split <;> simp

theorem read_power_length (digit : Char → Bool) (text : Text) : (read_power digit text).2.length ≤ text.length := by
  unfold read_power
  cases text with
  | nil => exact Nat.le_refl _
  | cons mark rest =>
    have hsuffix : ((read_sign rest).2.dropWhile digit).length ≤ (read_sign rest).2.length :=
      (List.dropWhile_suffix _).length_le
    have hsign := read_sign_length rest
    dsimp only [digits_of]
    by_cases hpower : (mark = 'e' ∨ mark = 'E') ∧ (read_sign rest).2.takeWhile digit ≠ []
    · rw [if_pos hpower, List.length_cons]
      dsimp only
      omega
    · rw [if_neg hpower]

/-- At a foreign digit there is no exponent. -/
theorem read_power_foreign {char : Char} (h : Foreign char) (tail : Text) :
    read_power Char.isDigit (char :: tail) = (0, char :: tail) := by
  have hlower := h.ne (by decide : is_decimal_digit 'e' = false)
  have hupper := h.ne (by decide : is_decimal_digit 'E' = false)
  simp [read_power, hlower, hupper]

/-- The exponents are the same, or the ASCII one stops before a character that is no blank, and earlier. -/
theorem powers_agree (text : Text) :
    read_power Char.isDigit text = read_power is_decimal_digit text ∨
    Stuck (read_power Char.isDigit text).2 ∧
      (read_power is_decimal_digit text).2.length < (read_power Char.isDigit text).2.length := by
  cases text with
  | nil => exact Or.inl rfl
  | cons mark rest =>
    obtain heq | ⟨foreign, tail, hforeign, hrest, hnonempty, hlength⟩ := digits_agree (read_sign rest).2
    · simp only [read_power, heq]
      exact Or.inl trivial
    · by_cases hmark : mark = 'e' ∨ mark = 'E'
      · apply Or.inr
        have hsign := read_sign_length rest
        have htail : tail.length < (read_sign rest).2.length := by
          have hsuffix : ((read_sign rest).2.dropWhile Char.isDigit).length ≤ (read_sign rest).2.length :=
            (List.dropWhile_suffix _).length_le
          simp only [digits_of] at hrest
          rw [hrest, List.length_cons] at hsuffix
          omega
        simp only [read_power, hmark, true_and, hnonempty, ne_eq, not_false_eq_true, if_true]
        by_cases hempty : (digits_of Char.isDigit (read_sign rest).2).1 = []
        · rw [if_neg (not_not.mpr hempty)]
          refine ⟨⟨mark, rest, rfl, ?_, ?_⟩, by rw [List.length_cons]; omega⟩
          · obtain rfl | rfl := hmark <;> rfl
          · obtain rfl | rfl := hmark <;> decide
        · rw [if_pos hempty, hrest]
          exact ⟨hforeign.stuck tail, by rw [List.length_cons]; omega⟩
      · simp only [read_power, hmark, false_and, if_false]
        exact Or.inl trivial

/-- What follows the whole part: fraction and exponent. -/
def read_rest (digit : Char → Bool) (negative : Bool) (whole rest : Text) : Option (Rat × Text) :=
  let (fraction, rest) := read_point digit rest
  if whole = [] ∧ fraction = [] then none
  else
    let (exponent, rest) := read_power digit rest
    let magnitude : Rat := digits_value (whole ++ fraction) * 10 ^ (exponent - fraction.length)
    some (if negative then -magnitude else magnitude, rest)

theorem read_decimal_eq (digit : Char → Bool) (text : Text) : read_decimal digit text =
    read_rest digit (read_sign text).1 (digits_of digit (read_sign text).2).1 (digits_of digit (read_sign text).2).2 := rfl

/-- Two readings of a text: they are the same, or the ASCII one finds nothing or stops before a character that is no
blank, where the other goes on. -/
def AgreeOrStuck (ascii unicode : Option (Rat × Text)) : Prop :=
  ascii = unicode ∨ ascii.map Prod.snd ≠ unicode.map Prod.snd ∧
    ∀ value rest, ascii = some (value, rest) → Stuck rest

theorem agreeOrStuck_of_lt {ascii unicode : Rat × Text} (hstuck : Stuck ascii.2)
    (hlength : unicode.2.length < ascii.2.length) : AgreeOrStuck (some ascii) (some unicode) := by
  refine Or.inr ⟨fun heq => ?_, fun value rest heq => ?_⟩
  · rw [Option.map_some, Option.map_some, Option.some.injEq] at heq
    rw [heq] at hlength
    exact Nat.lt_irrefl _ hlength
  · rw [Option.some.inj heq] at hstuck
    exact hstuck

theorem read_rest_agree (negative : Bool) (whole rest : Text) :
    AgreeOrStuck (read_rest Char.isDigit negative whole rest) (read_rest is_decimal_digit negative whole rest) := by
  have hpoints : read_point Char.isDigit rest = read_point is_decimal_digit rest ∨
      ∃ char tail, Foreign char ∧ (read_point Char.isDigit rest).2 = char :: tail ∧
        (read_point is_decimal_digit rest).1 ≠ [] ∧ (read_point is_decimal_digit rest).2.length ≤ tail.length := by
    unfold read_point
    split
    · exact digits_agree _
    · exact Or.inl rfl
  obtain heq | ⟨foreign, tail, hforeign, hrest, hnonempty, hlength⟩ := hpoints
  · unfold read_rest
    rw [heq]
    dsimp only
    by_cases hempty : whole = [] ∧ (read_point is_decimal_digit rest).1 = []
    · rw [if_pos hempty, if_pos hempty]
      exact Or.inl rfl
    · rw [if_neg hempty, if_neg hempty]
      obtain hsame | ⟨hstuck, hlength⟩ := powers_agree (read_point is_decimal_digit rest).2
      · rw [hsame]
        exact Or.inl rfl
      · exact agreeOrStuck_of_lt hstuck hlength
  · have hpower := read_power_length is_decimal_digit (read_point is_decimal_digit rest).2
    have hfull : ¬ (whole = [] ∧ (read_point is_decimal_digit rest).1 = []) := fun hempty => hnonempty hempty.2
    unfold read_rest
    dsimp only
    rw [hrest, read_power_foreign hforeign, if_neg hfull]
    by_cases hempty : whole = [] ∧ (read_point Char.isDigit rest).1 = []
    · rw [if_pos hempty]
      exact Or.inr ⟨by simp, (fun _ _ heq => by cases heq)⟩
    · rw [if_neg hempty]
      refine agreeOrStuck_of_lt (hforeign.stuck tail) ?_
      rw [List.length_cons]
      dsimp only
      omega

theorem decimals_agree (text : Text) :
    AgreeOrStuck (read_decimal Char.isDigit text) (read_decimal is_decimal_digit text) := by
  rw [read_decimal_eq, read_decimal_eq]
  obtain heq | ⟨foreign, tail, hforeign, hrest, hnonempty, hlength⟩ := digits_agree (read_sign text).2
  · rw [heq]
    exact read_rest_agree _ _ _
  · have hpoint : read_point Char.isDigit (foreign :: tail) = ([], foreign :: tail) := by
      unfold read_point
      split
      · next heq => exact absurd (List.cons.inj heq).1 (hforeign.ne (by decide))
      · rfl
    have hpoint_length := read_point_length is_decimal_digit (digits_of is_decimal_digit (read_sign text).2).2
    have hpower := read_power_length is_decimal_digit
      (read_point is_decimal_digit (digits_of is_decimal_digit (read_sign text).2).2).2
    have hfull : ¬ ((digits_of is_decimal_digit (read_sign text).2).1 = [] ∧
        (read_point is_decimal_digit (digits_of is_decimal_digit (read_sign text).2).2).1 = []) :=
      fun hempty => hnonempty hempty.1
    unfold read_rest
    dsimp only
    rw [hrest, hpoint, read_power_foreign hforeign, if_neg hfull]
    by_cases hempty : (digits_of Char.isDigit (read_sign text).2).1 = [] ∧ ([] : Text) = []
    · rw [if_pos hempty]
      exact Or.inr ⟨by simp, (fun _ _ heq => by cases heq)⟩
    · rw [if_neg hempty]
      refine agreeOrStuck_of_lt (hforeign.stuck tail) ?_
      rw [List.length_cons]
      dsimp only
      omega

end Numeral

end quawk
