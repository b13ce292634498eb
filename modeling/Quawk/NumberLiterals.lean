import Mathlib.Data.Bool.AllAny
import Quawk.Lib.DigitRounding
import Quawk.Parser

open DigitRounding

namespace quawk

def nearest_double (q : Rat) : Rat := nearest 52 (-1074) q

/-- Correct rounding to a double, with the halfway cases to the even one. -/
def to_double : Numeral.Value → Numeral.Value
  | .finite q =>
    if FLOAT_OVERFLOW ≤ |q| then .infinity (q < 0)
    else .finite (if q < 0 then -nearest_double |q| else nearest_double |q|)
  | value => value

/-- The value of a number token, which `float` reads. -/
def numeric_literal_value (raw_text : Text) : Option Numeral.Value := (python_float raw_text).map to_double

/-- The exponent of `%e`: a sign and at least two digits. -/
def exponent_literal (exponent : Int) : Text :=
  ['e', if exponent < 0 then '-' else '+'] ++ (if exponent.natAbs < 10 then ['0'] else []) ++
    Nat.toDigits 10 exponent.natAbs

/-- The sixteen digits of a number. -/
def literal_digits (q : Rat) : Text := (Nat.toDigits 10 (significant 15 q).1).leftpad 16 '0'

/-- Format a Python float as a stable LLVM IR double literal. -/
def format_double_literal : Numeral.Value → Text
  | .finite q =>
    (if q < 0 then ['-'] else []) ++ (literal_digits |q|).take 1 ++ '.' :: (literal_digits |q|).drop 1 ++
      exponent_literal (significant 15 |q|).2
  | .infinity negative => (if negative then ['-'] else []) ++ ['i', 'n', 'f']
  | .nan => ['n', 'a', 'n']

/-- The decimal constants that LLVM reads: digits, a point, digits that may be missing and perhaps an exponent. -/
def is_llvm_double (text : Text) : Bool :=
  let (whole, rest) := take_digits (read_sign text).2
  match rest with
  | '.' :: rest => !whole.isEmpty && (read_exponent (take_digits rest).2).2.isEmpty
  | _ => false

/-- What a reader makes of a constant that it reads to the end, with correct rounding. -/
def read_constant (text : Text) : Option Numeral.Value :=
  match decimal_strtod text with
  | some (q, []) => some (to_double (.finite q))
  | _ => none

theorem small_lt_overflow {q : Rat} (hq : q < 2 ^ 970) : q < FLOAT_OVERFLOW := by
  refine lt_of_lt_of_le hq ?_
  have hdouble : 2 ^ (970 + 1) ≤ 2 ^ 1024 := Nat.pow_le_pow_right (by decide) (by decide)
  rw [Nat.pow_succ] at hdouble
  have hle : 2 ^ 970 ≤ FLOAT_OVERFLOW := by
    unfold FLOAT_OVERFLOW
    generalize 2 ^ 970 = small at *
    generalize 2 ^ 1024 = large at *
    omega
  exact_mod_cast hle

theorem read_exponent_literal (exponent : Int) : read_exponent (exponent_literal exponent) = (exponent, []) := by
  obtain ⟨hne, htake, hvalue⟩ := exponent_digits_spec exponent.natAbs
  have htext : exponent_literal exponent = 'e' :: (if exponent < 0 then '-' else '+') ::
      ((if exponent.natAbs < 10 then ['0'] else []) ++ Nat.toDigits 10 exponent.natAbs) := rfl
  rw [htext]
  generalize (if exponent.natAbs < 10 then ['0'] else []) ++ Nat.toDigits 10 exponent.natAbs = digits at *
  by_cases hnegative : exponent < 0
  · have habs : -(exponent.natAbs : Int) = exponent := by omega
    simp only [hnegative, if_true, read_exponent, read_sign, htake, hvalue, habs]
    simp [hne]
  · have habs : (exponent.natAbs : Int) = exponent := by omega
    simp only [hnegative, if_false, read_exponent, read_sign, htake, hvalue, habs]
    simp [hne]

/-- The digits are sixteen, one before the point, and spell the mantissa. -/
theorem literal_digits_spec {q : Rat} (hq : 0 ≤ q) : ∃ first rest, literal_digits q = first :: rest ∧ rest.length = 15 ∧
    (∀ digit ∈ first :: rest, digit.isDigit = true) ∧
    Nat.ofDigitChars 10 (first :: rest) 0 = (significant 15 q).1 := by
  have hlength : (Nat.toDigits 10 (significant 15 q).1).length ≤ 16 :=
    (Nat.length_toDigits_le_iff (by decide : 1 < 10) (by decide : 0 < 16)).mpr (significant_lt hq)
  have hcount : (literal_digits q).length = 16 := by
    rw [literal_digits, List.leftpad, List.length_append, List.length_replicate]
    omega
  have hdigits : ∀ digit ∈ literal_digits q, digit.isDigit = true := by
    intro digit hmem
    rw [literal_digits, List.leftpad] at hmem
    obtain hmem | hmem := List.mem_append.mp hmem
    · rw [List.eq_of_mem_replicate hmem]
      rfl
    · exact digits_of_toDigits _ digit hmem
  have hvalue : Nat.ofDigitChars 10 (literal_digits q) 0 = (significant 15 q).1 := by
    rw [literal_digits, List.leftpad, Nat.ofDigitChars_append, Nat.ofDigitChars_replicate_zero, Nat.mul_zero,
      Nat.ofDigitChars_ten_toDigits]
  obtain ⟨first, rest, hcons⟩ := List.exists_cons_of_length_eq_add_one hcount
  rw [hcons] at hcount hdigits hvalue
  exact ⟨first, rest, hcons, by simpa using hcount, hdigits, hvalue⟩

theorem exponent_literal_head (exponent : Int) :
    ∀ next ∈ (exponent_literal exponent).head?, next.isDigit = false ∧ next ≠ '.' := by
  intro next hnext
  obtain rfl : 'e' = next := Option.some.inj hnext
  decide

theorem format_is_llvm_double (q : Rat) : is_llvm_double (format_double_literal (.finite q)) = true := by
  obtain ⟨first, rest, hcons, -, hdigits, -⟩ := literal_digits_spec (abs_nonneg q)
  have hfirst := hdigits first List.mem_cons_self
  have hsign : (read_sign (format_double_literal (.finite q))).2 =
      [first] ++ ('.' :: (rest ++ exponent_literal (significant 15 |q|).2)) := by
    simp only [format_double_literal, hcons, List.take_succ_cons, List.take_zero, List.drop_succ_cons, List.drop_zero]
    split_ifs
    · simp [read_sign]
    · simp [read_sign_digit hfirst]
  have hwhole := @take_digits_append [first] ('.' :: (rest ++ exponent_literal (significant 15 |q|).2))
    (fun digit hmem => by rw [List.mem_singleton.mp hmem]; exact hfirst)
    (fun next hnext => by obtain rfl : '.' = next := Option.some.inj hnext; rfl)
  have hfraction := take_digits_append (fun digit hmem => hdigits digit (List.mem_cons_of_mem first hmem))
    (fun next hnext => (exponent_literal_head (significant 15 |q|).2 next hnext).1)
  unfold is_llvm_double
  rw [hsign, hwhole]
  simp [hfraction, read_exponent_literal]

/-- The text spells the number rounded to sixteen digits. -/
theorem decimal_strtod_format (q : Rat) : decimal_strtod (format_double_literal (.finite q)) =
    some ((if q < 0 then -1 else 1) * rounded 15 |q|, []) := by
  obtain ⟨first, rest, hcons, hcount, hdigits, hmantissa⟩ := literal_digits_spec (abs_nonneg q)
  have hne : rest ≠ [] := List.ne_nil_of_length_pos (by omega)
  have hwhole : ∀ digit ∈ [first], digit.isDigit = true := fun digit hmem => by
    rw [List.mem_singleton.mp hmem]
    exact hdigits first List.mem_cons_self
  have hread := decimal_strtod_numeral (decide (q < 0)) hwhole
    (List.cons_ne_nil _ _) (fun digit hmem => hdigits digit (List.mem_cons_of_mem first hmem))
    (exponent_literal_head (significant 15 |q|).2) (read_exponent_literal (significant 15 |q|).2)
  have htext : format_double_literal (.finite q) = (if decide (q < 0) = true then ['-'] else []) ++ [first] ++
      (if rest = [] then [] else '.' :: rest) ++ exponent_literal (significant 15 |q|).2 := by
    simp [format_double_literal, hcons, hne]
  have hvalue := @significant_value 15 |q| (abs_nonneg q)
  rw [htext, hread, List.singleton_append, hmantissa, hcount, ← hvalue]
  simp

theorem read_format (q : Rat) : read_constant (format_double_literal (.finite q)) =
    some (to_double (.finite ((if q < 0 then -1 else 1) * rounded 15 |q|))) := by
  rw [read_constant, decimal_strtod_format]

/-- A positive number that is a double at least one has its fifty-three binary digits. -/
theorem normal_double {q : Rat} (hq : 1 ≤ q) (hdouble : nearest_double q = q) :
    ∃ significand exponent, Normal 52 (-1074) q significand exponent := by
  have hlog : 0 ≤ Int.log 2 q :=
    (Int.zpow_le_iff_le_log (by decide) (by linarith)).mp (by rw [zpow_zero]; exact hq)
  exact ⟨_, _, normal_of_nearest hdouble (by linarith) (by push_cast; omega)⟩

/-- The sixteen digits of a double of at least one round back to it exactly where they are near to it. -/
theorem round_back_iff {q : Rat} (hq : 1 ≤ q) (hdouble : nearest_double q = q) :
    nearest_double (rounded 15 q) = q ↔ Near 52 (rounded 15 q) q := by
  obtain ⟨significand, exponent, hnormal⟩ := normal_double hq hdouble
  exact nearest_eq_iff hnormal (by decide) (rounded_pos (by linarith))

theorem to_double_fixed_iff (q : Rat) :
    to_double (.finite q) = .finite q ↔ |q| < FLOAT_OVERFLOW ∧ nearest_double |q| = |q| := by
  simp only [to_double]
  split_ifs with hinfinite hnegative
  · simp [not_lt.mpr hinfinite]
  · rw [Numeral.Value.finite.injEq, abs_of_neg hnegative, neg_eq_iff_eq_neg]
    exact (and_iff_right (by rwa [not_le, abs_of_neg hnegative] at hinfinite)).symm
  · rw [Numeral.Value.finite.injEq, abs_of_nonneg (not_lt.mp hnegative)]
    exact (and_iff_right (by rwa [not_le, abs_of_nonneg (not_lt.mp hnegative)] at hinfinite)).symm

/-- An integer that is a double is read back exactly where its sixteen digits are near to it and finite. -/
theorem integer_read_back_iff {q : Rat} (hq : 1 ≤ |q|) (hdouble : nearest_double |q| = |q|) :
    read_constant (format_double_literal (.finite q)) = some (.finite q) ↔
      rounded 15 |q| < FLOAT_OVERFLOW ∧ Near 52 (rounded 15 |q|) |q| := by
  have hpos : 0 < rounded 15 |q| := rounded_pos (by linarith)
  rw [read_format, Option.some.injEq, ← round_back_iff hq hdouble]
  by_cases hnegative : q < 0
  · have habs : |q| = -q := abs_of_neg hnegative
    have hrounded : abs (-1 * rounded 15 |q|) = rounded 15 |q| := by rw [neg_one_mul, abs_neg, abs_of_pos hpos]
    rw [if_pos hnegative, to_double, hrounded, if_pos (show -1 * rounded 15 |q| < 0 by linarith)]
    split_ifs with hinfinite
    · simp [not_lt.mpr hinfinite]
    · rw [Numeral.Value.finite.injEq, neg_eq_iff_eq_neg, ← habs]
      exact (and_iff_right (not_le.mp hinfinite)).symm
  · have habs : |q| = q := abs_of_nonneg (not_lt.mp hnegative)
    rw [if_neg hnegative, one_mul, to_double, abs_of_pos hpos, if_neg (not_lt.mpr hpos.le)]
    split_ifs with hinfinite
    · simp [not_lt.mpr hinfinite]
    · rw [Numeral.Value.finite.injEq]
      exact (Iff.of_eq (by rw [habs])).trans (and_iff_right (not_le.mp hinfinite)).symm

theorem zero_read_back : read_constant (format_double_literal (.finite 0)) = some (.finite 0) := by
  rw [read_format, abs_zero, rounded_zero, mul_zero, Option.some.injEq, to_double_fixed_iff, abs_zero]
  refine ⟨small_lt_overflow (pow_pos (by norm_num) _), ?_⟩
  have hzero : half_even 0 = 0 := by exact_mod_cast half_even_intCast 0
  rw [nearest_double, nearest, round_at, zero_div, hzero, Int.cast_zero, zero_mul]

/-- The text that is emitted for a literal is a constant, and an integer that is a double is read back from it. -/
structure LiteralKept (raw_text : Text) (value : Numeral.Value) : Prop where
  constant : is_llvm_double (format_double_literal value) = true
  integer : ∀ n : Int, python_float raw_text = some (.finite n) → to_double (.finite n) = .finite n →
    read_constant (format_double_literal value) = some (.finite n)

/-- The number is in the range of doubles, and a whole one is near to its sixteen digits. -/
def FitsLiteral : Numeral.Value → Prop
  | .finite q => |q| < FLOAT_OVERFLOW ∧ ∀ n : Int, q = n → n ≠ 0 → nearest_double |q| = |q| →
      rounded 15 |q| < FLOAT_OVERFLOW ∧ Near 52 (rounded 15 |q|) |q|
  | _ => False

/-- The text of an infinity is no constant. -/
theorem infinity_not_llvm_double (negative : Bool) :
    is_llvm_double (format_double_literal (.infinity negative)) = false := by
  cases negative <;> rfl

theorem LiteralKept.lt_overflow {raw_text : Text} {q : Rat} (h : LiteralKept raw_text (to_double (.finite q))) :
    |q| < FLOAT_OVERFLOW := by
  by_contra hinfinite
  have hconstant := h.constant
  rw [to_double, if_pos (not_lt.mp hinfinite), infinity_not_llvm_double] at hconstant
  cases hconstant

theorem number_literals_kept (raw_text : Text) :
    (∀ value, numeric_literal_value raw_text = some value → LiteralKept raw_text value) ↔
      ∀ number, python_float raw_text = some number → FitsLiteral number := by
  unfold numeric_literal_value
  cases hread : python_float raw_text with
  | none => simp
  | some number =>
    simp only [Option.map_some, Option.some.injEq, forall_eq']
    cases number with
    | infinity negative =>
      refine iff_of_false (fun hkept => ?_) id
      have hconstant : is_llvm_double (format_double_literal (.infinity negative)) = true := hkept.constant
      rw [infinity_not_llvm_double] at hconstant
      cases hconstant
    | nan => exact iff_of_false (fun hkept => absurd hkept.constant (by decide)) id
    | finite q =>
      have hone : ∀ n : Int, n ≠ 0 → 1 ≤ |(n : Rat)| := by
        intro n hn
        exact_mod_cast Int.one_le_abs hn
      constructor
      · intro hkept
        refine ⟨hkept.lt_overflow, ?_⟩
        rintro n rfl hn hdouble
        have hfixed := (to_double_fixed_iff n).mpr ⟨hkept.lt_overflow, hdouble⟩
        have hback := hkept.integer n hread hfixed
        rw [hfixed] at hback
        exact (integer_read_back_iff (hone n hn) hdouble).mp hback
      · rintro ⟨hfinite, hnear⟩
        refine ⟨?_, ?_⟩
        · rw [to_double, if_neg (not_le.mpr hfinite)]
          exact format_is_llvm_double _
        · intro n hn hfixed
          rw [hread] at hn
          obtain rfl : q = n := Numeral.Value.finite.inj (Option.some.inj hn)
          rw [hfixed]
          by_cases hzero : n = 0
          · rw [hzero, Int.cast_zero]
            exact zero_read_back
          · have hdouble := ((to_double_fixed_iff n).mp hfixed).2
            exact (integer_read_back_iff (hone n hzero) hdouble).mpr (hnear n rfl hzero hdouble)

/-- `18014398509481984` is 2 to the power 54. -/
def power_literal : Text := "18014398509481984".toList

theorem power_literal_value : python_float power_literal = some (.finite 18014398509481984) := by
  decide +kernel

theorem power_normal : Normal 52 (-1074) 18014398509481984 (2 ^ 52) 2 := ⟨by norm_num, le_rfl, by norm_num, by norm_num⟩

theorem power_rounded : rounded 15 18014398509481984 = 18014398509481980 := by
  have hlog : Int.log 10 (18014398509481984 : Rat) = 16 := by
    have hlow : 16 ≤ Int.log 10 (18014398509481984 : Rat) :=
      (Int.zpow_le_iff_le_log (by decide) (by norm_num)).mp (by norm_num)
    have hhigh : Int.log 10 (18014398509481984 : Rat) < 17 :=
      (Int.lt_zpow_iff_log_lt (by decide) (by norm_num)).mp (by norm_num)
    omega
  have hround := (round_at_eq_iff (by decide : 0 < 10) 1 18014398509481984 1801439850948198).mpr
    ⟨by norm_num, by norm_num⟩
  rw [rounded, hlog]
  norm_num at hround ⊢
  exact hround

/-- The sixteen digits of 2 to the power 54 are those of the double below it. -/
theorem number_literals_altered : ¬ ∀ raw_text : Text, (∀ char ∈ raw_text, char.isDigit = true) →
    ∀ value, numeric_literal_value raw_text = some value → LiteralKept raw_text value := by
  intro hkept
  have hfinite : |((18014398509481984 : Int) : Rat)| < FLOAT_OVERFLOW := by
    rw [abs_of_pos (by norm_num)]
    refine small_lt_overflow (lt_trans ?_ (pow_lt_pow_right₀ (by norm_num : (1 : Rat) < 2) (by norm_num : 55 < 970)))
    norm_num
  have hdouble : nearest_double |((18014398509481984 : Int) : Rat)| = |((18014398509481984 : Int) : Rat)| := by
    rw [abs_of_pos (by norm_num)]
    exact (nearest_eq_iff power_normal (by decide) (by norm_num)).mpr (.refl _)
  have hfixed := (to_double_fixed_iff ((18014398509481984 : Int) : Rat)).mpr ⟨hfinite, hdouble⟩
  have hvalue : numeric_literal_value power_literal = some (.finite ((18014398509481984 : Int) : Rat)) := by
    rw [numeric_literal_value, power_literal_value]
    exact congrArg some hfixed
  have hback := (hkept power_literal (List.all_iff_forall_prop.mp (by decide)) _ hvalue).integer _ power_literal_value hfixed
  have hnear := ((integer_read_back_iff (by norm_num) hdouble).mp hback).2
  rw [abs_of_pos (by norm_num)] at hnear
  have hbelow := (power_normal.near_iff.mp hnear).2.1
  rw [Int.cast_ofNat, power_rounded, if_pos rfl] at hbelow
  norm_num at hbelow

end quawk
