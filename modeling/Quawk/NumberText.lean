import Mathlib.Algebra.Field.Rat
import Mathlib.Data.List.DropRight
import Mathlib.Tactic.FieldSimp
import Mathlib.Tactic.Ring
import Quawk.RuntimeRecord

namespace quawk

def take_digits (text : Text) : Text × Text := (text.takeWhile Char.isDigit, text.dropWhile Char.isDigit)

def read_sign : Text → Bool × Text
  | '-' :: rest => (true, rest)
  | '+' :: rest => (false, rest)
  | rest => (false, rest)

def read_fraction : Text → Text × Text
  | '.' :: rest => take_digits rest
  | rest => ([], rest)

/-- The exponent, which needs a digit. -/
def read_exponent (text : Text) : Int × Text :=
  match text with
  | [] => (0, [])
  | mark :: rest =>
    let (negative, unsigned) := read_sign rest
    let (digits, after) := take_digits unsigned
    if (mark = 'e' ∨ mark = 'E') ∧ digits ≠ [] then
      (if negative then -(Nat.ofDigitChars 10 digits 0 : Int) else Nat.ofDigitChars 10 digits 0, after)
    else (0, text)

/-- What `strtod` of the C library makes of a decimal numeral: the number and the text after it, if there is one. -/
def decimal_strtod (text : Text) : Option (Rat × Text) :=
  let (negative, unsigned) := read_sign (text.dropWhile is_space)
  let (whole, rest) := take_digits unsigned
  let (fraction, rest) := read_fraction rest
  if whole = [] ∧ fraction = [] then none
  else
    let (exponent, rest) := read_exponent rest
    let magnitude : Rat := Nat.ofDigitChars 10 (whole ++ fraction) 0 * 10 ^ (exponent - fraction.length)
    some (if negative then -magnitude else magnitude, rest)

/-- `qk_parse_awk_numeric_prefix` where the text is decimal. -/
def qk_parse_number_text (text : Text) : Rat := ((decimal_strtod text).map Prod.fst).getD 0

/-- The decimal digits of a whole number. -/
def decimal_text (value : Int) : Text :=
  (if value < 0 then ['-'] else []) ++ Nat.toDigits 10 value.natAbs

def round_half_even (value divisor : Nat) : Nat :=
  let quotient := value / divisor
  let twice := 2 * (value % divisor)
  if twice < divisor then quotient
  else if divisor < twice then quotient + 1
  else quotient + quotient % 2

/-- The six digits and the exponent `%e` gives a whole number of more than six digits. -/
def significant_digits (value : Nat) : Nat × Nat :=
  let count := (Nat.toDigits 10 value).length
  let mantissa := round_half_even value (10 ^ (count - 6))
  if mantissa = 10 ^ 6 then (10 ^ 5, count) else (mantissa, count - 1)

/-- An exponent has at least two digits. -/
def exponent_text (exponent : Nat) : Text :=
  ['e', '+'] ++ (if exponent < 10 then ['0'] else []) ++ Nat.toDigits 10 exponent

def scientific_text (negative : Bool) (mantissa exponent : Nat) : Text :=
  let digits := Nat.toDigits 10 mantissa
  let fraction := digits.tail.rdropWhile (· == '0')
  (if negative then ['-'] else []) ++ digits.take 1 ++ (if fraction = [] then [] else '.' :: fraction) ++
    exponent_text exponent

/-- What `%.6g` writes for a whole number: up to six digits it is the number itself, since the decimals are
zeros and dropped, and beyond it has six significant digits and an exponent. -/
def general_text (value : Int) : Text :=
  if value.natAbs < 10 ^ 6 then decimal_text value
  else
    let (mantissa, exponent) := significant_digits value.natAbs
    scientific_text (value < 0) mantissa exponent

def QK_DEFAULT_CONVFMT : Text := ['%', '.', '6', 'g']

def QK_DEFAULT_OFMT : Text := ['%', '.', '6', 'g']

section Format

-- What `snprintf` writes for a format other than the default one; `none` is an error.
variable (other_format : Text → Int → Option Text)

def snprintf (format : Text) (value : Int) : Option Text :=
  if format = QK_DEFAULT_CONVFMT then some (general_text value) else other_format format value

def qk_format_number_with_text (format_text : Text) (value : Int) : Text :=
  let effective_format := if format_text = [] then QK_DEFAULT_CONVFMT else format_text
  match snprintf other_format effective_format value with
  | some buffer => buffer
  | none => if effective_format ≠ QK_DEFAULT_CONVFMT then (snprintf other_format QK_DEFAULT_CONVFMT value).getD [] else []

def qk_format_number (convfmt : ScalarKind) (value : Int) : Text :=
  qk_format_number_with_text other_format (qk_output_variable_text convfmt QK_DEFAULT_CONVFMT) value

/-- `qk_write_output_number` and `qk_print_number_fragment` -/
def qk_write_output_number (ofmt : ScalarKind) (value : Int) : Text :=
  qk_format_number_with_text other_format (qk_output_variable_text ofmt QK_DEFAULT_OFMT) value

end Format

theorem take_digits_append {digits rest : Text} (hdigits : ∀ digit ∈ digits, digit.isDigit = true)
    (hrest : ∀ next ∈ rest.head?, next.isDigit = false) : take_digits (digits ++ rest) = (digits, rest) := by
  induction digits with
  | nil =>
    cases rest with
    | nil => rfl
    | cons next rest =>
      have hnext := hrest next rfl
      simp [take_digits, hnext]
  | cons digit digits ih =>
    have hdigit := hdigits digit List.mem_cons_self
    have hmore := ih fun other hmem => hdigits other (List.mem_cons_of_mem _ hmem)
    simp only [take_digits, Prod.mk.injEq] at hmore ⊢
    simp [hdigit, hmore.1, hmore.2]

theorem digits_of_toDigits (value : Nat) : ∀ digit ∈ Nat.toDigits 10 value, digit.isDigit = true :=
  fun _ hmem => Nat.isDigit_of_mem_toDigits (by decide) (by decide) hmem

theorem read_sign_digit {digit : Char} (h : digit.isDigit = true) (rest : Text) :
    read_sign (digit :: rest) = (false, digit :: rest) := by
  unfold read_sign
  split
  · rename_i heq
    rw [(List.cons.inj heq).1] at h
    exact absurd h (by decide)
  · rename_i heq
    rw [(List.cons.inj heq).1] at h
    exact absurd h (by decide)
  · rfl

theorem not_space_of_digit {digit : Char} (h : digit.isDigit = true) : is_space digit = false := by
  by_contra hspace
  have hmem : digit ∈ [' ', '\t', '\n', '\x0b', '\x0c', '\r'] :=
    List.contains_iff_mem.mp (eq_true_of_ne_false hspace)
  simp only [List.mem_cons, List.not_mem_nil, or_false] at hmem
  obtain rfl | rfl | rfl | rfl | rfl | rfl := hmem <;> exact absurd h (by decide)

/-- An exponent is written with two digits at least, and read back. -/
theorem exponent_digits_spec (exponent : Nat) :
    (if exponent < 10 then ['0'] else []) ++ Nat.toDigits 10 exponent ≠ [] ∧
      take_digits ((if exponent < 10 then ['0'] else []) ++ Nat.toDigits 10 exponent) =
        ((if exponent < 10 then ['0'] else []) ++ Nat.toDigits 10 exponent, []) ∧
      Nat.ofDigitChars 10 ((if exponent < 10 then ['0'] else []) ++ Nat.toDigits 10 exponent) 0 = exponent := by
  have hdigits : ∀ digit ∈ (if exponent < 10 then ['0'] else []) ++ Nat.toDigits 10 exponent,
      digit.isDigit = true := by
    intro digit hmem
    obtain hmem | hmem := List.mem_append.mp hmem
    · split_ifs at hmem
      · rw [List.mem_singleton.mp hmem]
        rfl
      · cases hmem
    · exact digits_of_toDigits exponent digit hmem
  have htake := take_digits_append hdigits (by simp : ∀ next ∈ ([] : Text).head?, next.isDigit = false)
  rw [List.append_nil] at htake
  refine ⟨by simp, htake, ?_⟩
  rw [Nat.ofDigitChars_append]
  split_ifs <;> simp [Nat.ofDigitChars_cons, Nat.ofDigitChars_ten_toDigits]

theorem read_exponent_text (exponent : Nat) : read_exponent (exponent_text exponent) = ((exponent : Int), []) := by
  obtain ⟨hne, htake, hvalue⟩ := exponent_digits_spec exponent
  simp only [exponent_text, List.cons_append, List.nil_append, read_exponent, read_sign, htake]
  simp [hvalue]

/-- What `strtod` makes of a numeral: the sign, the digits and the exponent it is written with. -/
theorem decimal_strtod_numeral (negative : Bool) {whole fraction tail : Text} {exponent : Int}
    (hwhole : ∀ digit ∈ whole, digit.isDigit = true) (hne : whole ≠ [])
    (hfraction : ∀ digit ∈ fraction, digit.isDigit = true)
    (htail : ∀ next ∈ tail.head?, next.isDigit = false ∧ next ≠ '.')
    (hexponent : read_exponent tail = (exponent, [])) :
    decimal_strtod ((if negative then ['-'] else []) ++ whole ++ (if fraction = [] then [] else '.' :: fraction) ++ tail) =
      some ((if negative then (-1 : Rat) else 1) *
        ((Nat.ofDigitChars 10 (whole ++ fraction) 0 : Rat) * 10 ^ (exponent - fraction.length)), []) := by
  obtain ⟨first, rest, rfl⟩ := List.exists_cons_of_ne_nil hne
  have hfirst := hwhole first List.mem_cons_self
  have hsign : read_sign (((if negative then ['-'] else []) ++ (first :: rest) ++
      (if fraction = [] then [] else '.' :: fraction) ++ tail).dropWhile is_space) =
      (negative, (first :: rest) ++ ((if fraction = [] then [] else '.' :: fraction) ++ tail)) := by
    cases negative with
    | true => simp [read_sign, show is_space '-' = false from rfl]
    | false => simp [not_space_of_digit hfirst, read_sign_digit hfirst]
  have hdigits : take_digits ((first :: rest) ++ ((if fraction = [] then [] else '.' :: fraction) ++ tail)) =
      (first :: rest, (if fraction = [] then [] else '.' :: fraction) ++ tail) := by
    refine take_digits_append hwhole fun next hnext => ?_
    split_ifs at hnext with hempty
    · exact (htail next hnext).1
    · obtain rfl : '.' = next := Option.some.inj hnext
      rfl
  have hpoint : read_fraction ((if fraction = [] then [] else '.' :: fraction) ++ tail) = (fraction, tail) := by
    split_ifs with hempty
    · cases tail with
      | nil => rw [hempty]; rfl
      | cons next tail =>
        have hnext := (htail next rfl).2
        rw [hempty]
        unfold read_fraction
        split
        · rename_i heq
          exact absurd (List.cons.inj heq).1 hnext
        · rfl
    · exact take_digits_append hfraction fun next hnext => (htail next hnext).1
  unfold decimal_strtod
  simp only [hsign, hdigits, hpoint, hexponent]
  cases negative <;> simp

theorem parse_decimal_text (value : Int) : qk_parse_number_text (decimal_text value) = value := by
  have hread := decimal_strtod_numeral (decide (value < 0)) (digits_of_toDigits value.natAbs) Nat.toDigits_ne_nil
    (by simp : ∀ digit ∈ ([] : Text), digit.isDigit = true) (by simp) (rfl : read_exponent [] = (0, []))
  have htext : decimal_text value = (if decide (value < 0) = true then ['-'] else []) ++ Nat.toDigits 10 value.natAbs ++
      (if ([] : Text) = [] then [] else '.' :: []) ++ [] := by
    simp [decimal_text]
  unfold qk_parse_number_text
  rw [htext, hread]
  by_cases hnegative : value < 0
  · have habs : (value.natAbs : Int) = -value := by omega
    have hcast : (value.natAbs : Rat) = -(value : Rat) := by
      rw [← Int.cast_natCast, habs, Int.cast_neg]
    simp [hnegative, Nat.ofDigitChars_ten_toDigits, hcast]
  · have habs : (value.natAbs : Int) = value := by omega
    have hcast : (value.natAbs : Rat) = (value : Rat) := by
      rw [← Int.cast_natCast, habs]
    simp [hnegative, Nat.ofDigitChars_ten_toDigits, hcast]

theorem drop_zeros (digits : Text) :
    ∃ count, digits = digits.rdropWhile (· == '0') ++ List.replicate count '0' := by
  refine ⟨(digits.rtakeWhile (· == '0')).length, ?_⟩
  have hzeros : digits.rtakeWhile (· == '0') = List.replicate (digits.rtakeWhile (· == '0')).length '0' := by
    rw [List.eq_replicate_iff]
    exact ⟨rfl, fun digit hmem => by simpa using List.mem_rtakeWhile_imp hmem⟩
  rw [← hzeros, List.rdropWhile_append_rtakeWhile]

theorem exponent_text_head (exponent : Nat) :
    ∀ next ∈ (exponent_text exponent).head?, next.isDigit = false ∧ next ≠ '.' := by
  intro next hnext
  obtain rfl : 'e' = next := Option.some.inj hnext
  decide

/-- The mantissa counts with the exponent of its first digit. -/
theorem parse_scientific_text (negative : Bool) (mantissa exponent : Nat) :
    qk_parse_number_text (scientific_text negative mantissa exponent) =
      (if negative then (-1 : Rat) else 1) *
        (mantissa * 10 ^ ((exponent : Int) - ((Nat.toDigits 10 mantissa).length - 1 : Nat))) := by
  obtain ⟨first, rest, hdigits⟩ := List.exists_cons_of_ne_nil (Nat.toDigits_ne_nil : Nat.toDigits 10 mantissa ≠ [])
  obtain ⟨count, hzeros⟩ := drop_zeros rest
  have hall := digits_of_toDigits mantissa
  have hmantissa : Nat.ofDigitChars 10 (Nat.toDigits 10 mantissa) 0 = mantissa := Nat.ofDigitChars_ten_toDigits
  rw [hdigits] at hall hmantissa
  have hrest : rest.length = (rest.rdropWhile (· == '0')).length + count := by
    have hlength := congrArg List.length hzeros
    rw [List.length_append, List.length_replicate] at hlength
    exact hlength
  have hvalue : mantissa = 10 ^ count * Nat.ofDigitChars 10 ([first] ++ rest.rdropWhile (· == '0')) 0 := by
    rw [← Nat.ofDigitChars_replicate_zero, ← Nat.ofDigitChars_append, List.append_assoc, ← hzeros,
      List.singleton_append, hmantissa]
  have hwhole : ∀ digit ∈ [first], digit.isDigit = true := by
    intro digit hmem
    rw [List.mem_singleton.mp hmem]
    exact hall first List.mem_cons_self
  have hfraction : ∀ digit ∈ rest.rdropWhile (· == '0'), digit.isDigit = true := by
    intro digit hmem
    refine hall digit (List.mem_cons_of_mem _ ?_)
    rw [hzeros]
    exact List.mem_append_left _ hmem
  have hread := decimal_strtod_numeral negative hwhole (List.cons_ne_nil _ _) hfraction (exponent_text_head exponent)
    (read_exponent_text exponent)
  unfold qk_parse_number_text scientific_text
  simp only [hdigits, List.tail_cons, List.take_succ_cons, List.take_zero, List.length_cons, Nat.add_sub_cancel]
  rw [hread]
  simp only [Option.map_some, Option.getD_some]
  congr 1
  rw [hrest]
  conv_rhs => rw [hvalue]
  push_cast
  rw [show (exponent : Int) - (((rest.rdropWhile (· == '0')).length : Int) + count) =
    (exponent : Int) - (rest.rdropWhile (· == '0')).length - count by ring, zpow_sub₀ (by norm_num : (10 : Rat) ≠ 0)
      ((exponent : Int) - (rest.rdropWhile (· == '0')).length), zpow_natCast]
  field_simp

/-- How many digits a number has. -/
def digit_count (value : Nat) : Nat := (Nat.toDigits 10 value).length

theorem digit_count_bounds {value : Nat} (h : 10 ^ 6 ≤ value) :
    7 ≤ digit_count value ∧ 10 ^ (digit_count value - 1) ≤ value ∧ value < 10 ^ digit_count value := by
  have hcount : 7 ≤ digit_count value := by
    by_contra hfew
    have hlt := (Nat.length_toDigits_le_iff (by decide : 1 < 10) (by decide : 0 < 6)).mp
      (Nat.le_of_lt_succ (Nat.lt_of_not_le hfew))
    omega
  refine ⟨hcount, ?_, ?_⟩
  · by_contra hless
    have hle := (Nat.length_toDigits_le_iff (by decide : 1 < 10) (by omega : 0 < digit_count value - 1)).mpr
      (Nat.lt_of_not_le hless)
    have hcount' : (Nat.toDigits 10 value).length = digit_count value := rfl
    omega
  · exact (Nat.length_toDigits_le_iff (by decide : 1 < 10) (by omega : 0 < digit_count value)).mp (Nat.le_refl _)

theorem digit_count_six {value : Nat} (hlow : 10 ^ 5 ≤ value) (hhigh : value < 10 ^ 6) : digit_count value = 6 := by
  have hle := (Nat.length_toDigits_le_iff (by decide : 1 < 10) (by decide : 0 < 6)).mpr hhigh
  have hnot : ¬ digit_count value ≤ 5 := fun hfew => by
    have hlt := (Nat.length_toDigits_le_iff (by decide : 1 < 10) (by decide : 0 < 5)).mp hfew
    omega
  have hcount : (Nat.toDigits 10 value).length = digit_count value := rfl
  omega

/-- Rounded to a multiple of the divisor, a number changes unless it is one. -/
theorem round_half_even_exact {value divisor : Nat} (hdivisor : 0 < divisor) :
    round_half_even value divisor * divisor = value ↔ divisor ∣ value := by
  refine ⟨fun heq => ⟨round_half_even value divisor, by rw [Nat.mul_comm, heq]⟩, fun hdvd => ?_⟩
  have hrest : value % divisor = 0 := Nat.mod_eq_zero_of_dvd hdvd
  have hround : round_half_even value divisor = value / divisor := by
    simp [round_half_even, hrest, hdivisor]
  rw [hround, Nat.div_mul_cancel hdvd]

theorem round_half_even_bounds (value divisor : Nat) :
    value / divisor ≤ round_half_even value divisor ∧ round_half_even value divisor ≤ value / divisor + 1 := by
  simp only [round_half_even]
  split_ifs <;> omega

theorem significant_digits_spec {value : Nat} (h : 10 ^ 6 ≤ value) :
    digit_count (significant_digits value).1 = 6 ∧ 5 ≤ (significant_digits value).2 ∧
      ((significant_digits value).1 * 10 ^ ((significant_digits value).2 - 5) = value ↔
        10 ^ (digit_count value - 6) ∣ value) := by
  obtain ⟨hcount, hlow, hhigh⟩ := digit_count_bounds h
  have hdivisor : 0 < 10 ^ (digit_count value - 6) := Nat.pow_pos (by decide)
  have hsplit_low : 10 ^ (digit_count value - 1) = 10 ^ 5 * 10 ^ (digit_count value - 6) := by
    rw [← Nat.pow_add]
    congr 1
    omega
  have hsplit_high : 10 ^ digit_count value = 10 ^ 6 * 10 ^ (digit_count value - 6) := by
    rw [← Nat.pow_add]
    congr 1
    omega
  have hquotient_low : 10 ^ 5 ≤ value / 10 ^ (digit_count value - 6) := by
    rw [Nat.le_div_iff_mul_le hdivisor, ← hsplit_low]
    exact hlow
  have hquotient_high : value / 10 ^ (digit_count value - 6) < 10 ^ 6 := by
    rw [Nat.div_lt_iff_lt_mul hdivisor, ← hsplit_high]
    exact hhigh
  obtain ⟨hround_low, hround_high⟩ := round_half_even_bounds value (10 ^ (digit_count value - 6))
  have hcount_def : (Nat.toDigits 10 value).length = digit_count value := rfl
  simp only [significant_digits, hcount_def]
  split_ifs with hcarry
  · refine ⟨digit_count_six (Nat.le_refl _) (show 10 ^ 5 < 10 ^ 6 by decide), by dsimp only; omega, iff_of_false ?_ fun hdvd => ?_⟩
    · have hpower : 10 ^ 5 * 10 ^ (digit_count value - 5) = 10 ^ digit_count value := by
        rw [← Nat.pow_add]
        congr 1
        omega
      rw [hpower]
      exact Nat.ne_of_gt hhigh
    · have hexact := (round_half_even_exact hdivisor).mpr hdvd
      rw [hcarry, ← hsplit_high] at hexact
      omega
  · refine ⟨digit_count_six (by omega) (by omega), by dsimp only; omega, ?_⟩
    have hexponent : digit_count value - 1 - 5 = digit_count value - 6 := by omega
    simp only [hexponent]
    exact round_half_even_exact hdivisor

/-- The number can be written with six significant digits. -/
def SixDigits (value : Int) : Prop :=
  ∃ mantissa power : Nat, mantissa < 10 ^ 6 ∧ value.natAbs = mantissa * 10 ^ power

theorem six_digits_iff_dvd {value : Int} (h : 10 ^ 6 ≤ value.natAbs) :
    SixDigits value ↔ 10 ^ (digit_count value.natAbs - 6) ∣ value.natAbs := by
  obtain ⟨hcount, hlow, hhigh⟩ := digit_count_bounds h
  constructor
  · intro ⟨mantissa, power, hmantissa, hvalue⟩
    have hpower : digit_count value.natAbs - 6 ≤ power := by
      have hlt : 10 ^ (digit_count value.natAbs - 1) < 10 ^ (6 + power) := by
        refine Nat.lt_of_le_of_lt hlow ?_
        rw [hvalue, Nat.pow_add]
        exact Nat.mul_lt_mul_of_pos_right hmantissa (Nat.pow_pos (by decide))
      have hexponent := (Nat.pow_lt_pow_iff_right (by decide : 1 < 10)).mp hlt
      omega
    have hdvd := Nat.dvd_mul_left_of_dvd (Nat.pow_dvd_pow 10 hpower) mantissa
    exact hdvd.trans (dvd_of_eq hvalue.symm)
  · intro ⟨mantissa, hvalue⟩
    refine ⟨mantissa, _, ?_, by rw [hvalue, Nat.mul_comm]⟩
    have hdivisor : 0 < 10 ^ (digit_count value.natAbs - 6) := Nat.pow_pos (by decide)
    have hsplit_high : 10 ^ digit_count value.natAbs = 10 ^ 6 * 10 ^ (digit_count value.natAbs - 6) := by
      rw [← Nat.pow_add]
      congr 1
      omega
    have hlt : 10 ^ (digit_count value.natAbs - 6) * mantissa < 10 ^ (digit_count value.natAbs - 6) * 10 ^ 6 := by
      rw [← hvalue, Nat.mul_comm _ (10 ^ 6), ← hsplit_high]
      exact hhigh
    exact Nat.lt_of_mul_lt_mul_left hlt

/-- The text of a whole number reads back as that number exactly where six digits are enough. -/
theorem parse_general_text_iff (value : Int) :
    qk_parse_number_text (general_text value) = value ↔ SixDigits value := by
  unfold general_text
  split_ifs with hsmall
  · exact iff_of_true (parse_decimal_text value) ⟨value.natAbs, 0, hsmall, by simp⟩
  · have hlarge : 10 ^ 6 ≤ value.natAbs := Nat.le_of_not_lt hsmall
    obtain ⟨hcount, hexponent, hexact⟩ := significant_digits_spec hlarge
    rw [six_digits_iff_dvd hlarge, ← hexact]
    have hcount' : (Nat.toDigits 10 (significant_digits value.natAbs).1).length = 6 := hcount
    rw [parse_scientific_text, hcount']
    have hpower : (10 : Rat) ^ (((significant_digits value.natAbs).2 : Int) - (6 - 1 : Nat)) =
        ((10 ^ ((significant_digits value.natAbs).2 - 5) : Nat) : Rat) := by
      have hcast : ((significant_digits value.natAbs).2 : Int) - (6 - 1 : Nat) =
          (((significant_digits value.natAbs).2 - 5 : Nat) : Int) := by omega
      rw [hcast, zpow_natCast]
      push_cast
      rfl
    rw [hpower, ← Nat.cast_mul]
    by_cases hnegative : value < 0
    · have habs : (value : Rat) = -(value.natAbs : Rat) := by
        rw [← Int.cast_natCast, show (value.natAbs : Int) = -value by omega, Int.cast_neg, neg_neg]
      simp only [hnegative, decide_true, if_true, habs, neg_mul, one_mul, neg_inj, Nat.cast_inj]
    · have habs : (value : Rat) = (value.natAbs : Rat) := by
        rw [← Int.cast_natCast, show (value.natAbs : Int) = value by omega]
      simp only [hnegative, decide_false, Bool.false_eq_true, if_false, habs, one_mul, Nat.cast_inj]

/-- Where the runtime takes a number for a text. -/
inductive NumberConversion where
  | print | redirected_print
  | concatenation | comparison | subscript | argument | field_store | element_store | string_builtin
  | scalar_view | slot_view
  deriving DecidableEq, Repr

section Conversions

variable (other_format : Text → Int → Option Text)

/-- Printing goes by `OFMT`, everything else by `CONVFMT`. -/
def NumberConversion.text (ofmt convfmt : ScalarKind) (value : Int) : NumberConversion → Text
  | .print | .redirected_print => qk_write_output_number other_format ofmt value
  | .concatenation | .comparison | .subscript | .argument | .field_store | .element_store | .string_builtin
  | .scalar_view | .slot_view => qk_format_number other_format convfmt value

/-- The text of a number under the formats a program starts with. -/
def NumberConversion.default_text (conversion : NumberConversion) (value : Int) : Text :=
  conversion.text other_format (.string QK_DEFAULT_OFMT) (.string QK_DEFAULT_CONVFMT) value

theorem NumberConversion.default_text_eq (conversion : NumberConversion) (value : Int) :
    conversion.default_text other_format value = general_text value := by
  cases conversion <;> rfl

/-- The number is written as its digits everywhere, reads back as itself, and as a subscript has an element of
its own. -/
structure IntegerExact (value : Int) : Prop where
  digits : ∀ conversion : NumberConversion, conversion.default_text other_format value = decimal_text value
  reads_back : ∀ conversion : NumberConversion,
    qk_parse_number_text (conversion.default_text other_format value) = value
  distinct : ∀ other : Int, NumberConversion.subscript.default_text other_format other =
    NumberConversion.subscript.default_text other_format value → other = value

end Conversions

theorem decimal_text_ne_general {value other : Int} (h : 10 ^ 6 ≤ value.natAbs) :
    general_text value ≠ decimal_text other := by
  intro heq
  have hexponent : 'e' ∈ general_text value := by
    unfold general_text
    rw [if_neg (Nat.not_lt.mpr h)]
    simp [scientific_text, exponent_text]
  rw [heq, decimal_text] at hexponent
  obtain hmem | hmem := List.mem_append.mp hexponent
  · split_ifs at hmem
    · exact absurd (List.mem_singleton.mp hmem) (by decide)
    · cases hmem
  · exact absurd (digits_of_toDigits _ _ hmem) (by decide)

theorem decimal_text_injective {value other : Int} (h : decimal_text value = decimal_text other) : value = other := by
  have hvalue := parse_decimal_text value
  rw [h, parse_decimal_text other] at hvalue
  exact (Int.cast_inj.mp hvalue).symm

/-- Whole numbers are converted exactly below a million, and no others. -/
theorem integer_text_exact_iff (other_format : Text → Int → Option Text) (value : Int) :
    IntegerExact other_format value ↔ value.natAbs < 10 ^ 6 := by
  constructor
  · intro hexact
    by_contra hlarge
    have hdigits := hexact.digits .print
    rw [NumberConversion.default_text_eq] at hdigits
    exact decimal_text_ne_general (Nat.le_of_not_lt hlarge) hdigits
  · intro hsmall
    have htext : general_text value = decimal_text value := if_pos hsmall
    refine ⟨fun conversion => ?_, fun conversion => ?_, fun other hsame => ?_⟩
    · rw [NumberConversion.default_text_eq, htext]
    · rw [NumberConversion.default_text_eq, htext, parse_decimal_text]
    · rw [NumberConversion.default_text_eq, NumberConversion.default_text_eq, htext] at hsame
      by_cases hother : other.natAbs < 10 ^ 6
      · rw [show general_text other = decimal_text other from if_pos hother] at hsame
        exact decimal_text_injective hsame
      · exact absurd hsame (decimal_text_ne_general (Nat.le_of_not_lt hother))

/-- A million is printed as `1e+06`. -/
theorem million_text :
    NumberConversion.print.default_text (fun _ _ => none) 1000000 = ['1', 'e', '+', '0', '6'] ∧
      ¬ IntegerExact (fun _ _ => none) 1000000 := by
  have htext : NumberConversion.print.default_text (fun _ _ => none) 1000000 = ['1', 'e', '+', '0', '6'] := by
    decide +kernel
  refine ⟨htext, fun hexact => ?_⟩
  have hdigits := hexact.digits .print
  rw [htext] at hdigits
  revert hdigits
  decide +kernel

end quawk
