import Mathlib.Algebra.Order.Field.Power
import Mathlib.Algebra.Order.Ring.Rat
import Mathlib.Tactic.Linarith
import Mathlib.Tactic.Ring
import Quawk.NumeralSyntax

namespace quawk

namespace Numeral

def is_zero_digit (char : Char) : Bool := decimal_value char == 0

theorem decimal_value_lt (char : Char) : decimal_value char < 10 := by
  unfold decimal_value
  cases hfind : decimal_digit_starts.find? fun start => start ≤ char.toNat && char.toNat < start + 10 with
  | none => exact Nat.zero_lt_succ 9
  | some start =>
    have hstart := List.find?_some hfind
    simp only [Bool.and_eq_true, decide_eq_true_eq] at hstart
    simp only [Option.map_some, Option.getD_some]
    omega

theorem digits_value_concat (digits : Text) (digit : Char) :
    digits_value (digits ++ [digit]) = 10 * digits_value digits + decimal_value digit := by
  unfold digits_value
  rw [List.foldl_append]
  rfl

theorem digits_value_append (digits more : Text) :
    digits_value (digits ++ more) = digits_value digits * 10 ^ more.length + digits_value more := by
  induction more using List.reverseRecOn with
  | nil => simp [digits_value]
  | append_singleton more digit ih =>
    rw [← List.append_assoc, digits_value_concat, digits_value_concat, ih, List.length_append, List.length_singleton,
      Nat.pow_succ]
    ring

theorem digits_value_lt (digits : Text) : digits_value digits < 10 ^ digits.length := by
  induction digits using List.reverseRecOn with
  | nil => exact Nat.one_pos
  | append_singleton digits digit ih =>
    have hdigit := decimal_value_lt digit
    rw [digits_value_concat, List.length_append, List.length_singleton, Nat.pow_succ]
    omega

theorem digits_value_eq_zero (digits : Text) : digits_value digits = 0 ↔ digits.all is_zero_digit = true := by
  induction digits using List.reverseRecOn with
  | nil => exact iff_of_true rfl rfl
  | append_singleton digits digit ih =>
    rw [digits_value_concat, Nat.add_eq_zero_iff, Nat.mul_eq_zero, ih]
    simp [is_zero_digit]

/-- Further digits, at the places their number says, leave a number as it is exactly if they are zeros, and the number
is zero or its places are the same. -/
theorem scaled_eq_iff {number rest : Nat} {length : Nat} {places fewer : Int} (hrest : rest < 10 ^ length) :
    ((number * 10 ^ length + rest : Nat) : Rat) * 10 ^ places = (number : Rat) * 10 ^ fewer ↔
      rest = 0 ∧ (number = 0 ∨ places + length = fewer) := by
  have hpower : ∀ power : Int, (0 : Rat) < 10 ^ power := fun power => zpow_pos (by norm_num) power
  constructor
  · intro heq
    obtain rfl | hpositive := Nat.eq_zero_or_pos number
    · rw [Nat.zero_mul, Nat.zero_add, Nat.cast_zero, zero_mul] at heq
      obtain hzero | hzero := mul_eq_zero.mp heq
      · exact ⟨Nat.cast_eq_zero.mp hzero, .inl rfl⟩
      · exact absurd hzero (hpower places).ne'
    · have hnumber : (1 : Rat) ≤ number := Nat.one_le_cast.mpr hpositive
      have hrat : (rest : Rat) < 10 ^ (length : Int) := by
        rw [zpow_natCast]
        exact_mod_cast hrest
      have hnonneg : (0 : Rat) ≤ rest := Nat.cast_nonneg rest
      -- the quotient of the two powers lies between the number and its successor
      have hshift : (number : Rat) * 10 ^ (length : Int) + rest = number * 10 ^ (fewer - places) := by
        rw [zpow_sub₀ (by norm_num), ← mul_div_assoc, eq_div_iff (hpower places).ne', ← heq, zpow_natCast]
        push_cast
        rfl
      have hlength : fewer - places = length := by
        by_contra hne
        obtain hlt | hlt := lt_or_gt_of_ne hne
        · have hsmall : (10 : Rat) ^ (fewer - places) < 10 ^ (length : Int) := zpow_lt_zpow_right₀ (by norm_num) hlt
          nlinarith
        · have hstep : (10 : Rat) ^ ((length : Int) + 1) ≤ 10 ^ (fewer - places) :=
            zpow_le_zpow_right₀ (by norm_num) (by omega)
          rw [zpow_add₀ (by norm_num), zpow_one] at hstep
          nlinarith [hpower length]
      rw [hlength] at hshift
      refine ⟨?_, .inr (by omega)⟩
      exact_mod_cast (add_eq_left.mp hshift : (rest : Rat) = 0)
  · rintro ⟨rfl, rfl | hplaces⟩
    · simp
    · rw [Nat.add_zero, ← hplaces, zpow_add₀ (by norm_num), zpow_natCast]
      push_cast
      ring

section Spelled

variable (digit : Char → Bool)

/-- The digits of a decimal numeral, and the power of ten of the last one. -/
def spelled (text : Text) : Text × Int :=
  let (whole, rest) := digits_of digit (read_sign text).2
  let (fraction, rest) := read_point digit rest
  (whole ++ fraction, (read_power digit rest).1 - fraction.length)

/-- The number of a decimal numeral is that of its digits. -/
theorem read_decimal_spelled (text : Text) : ((read_decimal digit text).map Prod.fst).getD 0 =
    (if (read_sign text).1 then -1 else 1) *
      ((digits_value (spelled digit text).1 : Rat) * 10 ^ (spelled digit text).2) := by
  rw [read_decimal_eq]
  unfold read_rest spelled
  dsimp only
  split_ifs with hempty hnegative hnegative
  · rw [hempty.1, hempty.2]
    simp [digits_value]
  · rw [hempty.1, hempty.2]
    simp [digits_value]
  · simp
  · simp

end Spelled

/-- The pattern takes the digits that `strtod` takes, and maybe more. -/
theorem spelled_prefix (text : Text) : (spelled Char.isDigit text).1 <+: (spelled is_decimal_digit text).1 := by
  have htake : ∀ digits : Text, digits.takeWhile Char.isDigit <+: digits.takeWhile is_decimal_digit := by
    intro digits
    induction digits with
    | nil => exact List.prefix_rfl
    | cons char digits ih =>
      by_cases hdigit : char.isDigit = true
      · rw [List.takeWhile_cons_of_pos hdigit, List.takeWhile_cons_of_pos (decimal_of_isDigit hdigit)]
        exact (List.prefix_cons_inj char).mpr ih
      · rw [List.takeWhile_cons_of_neg hdigit]
        exact List.nil_prefix
  unfold spelled
  dsimp only
  obtain heq | ⟨foreign, tail, hforeign, hrest, -, -⟩ := digits_agree (read_sign text).2
  · rw [heq]
    refine List.prefix_append_right_inj _ |>.mpr ?_
    unfold read_point
    split
    · exact htake _
    · exact List.prefix_rfl
  · have hpoint : read_point Char.isDigit (foreign :: tail) = ([], foreign :: tail) := by
      unfold read_point
      split
      · next heq => exact absurd (List.cons.inj heq).1 (hforeign.ne (by decide))
      · rfl
    rw [hrest, hpoint, List.append_nil]
    exact (htake _).trans (List.prefix_append _ _)

/-- The digits that only the pattern takes are zeros, and either all digits are, or the exponent makes up for them. -/
def ZerosAdded (text : Text) : Prop :=
  let (digits, places) := spelled Char.isDigit text
  let (more, power) := spelled is_decimal_digit text
  (more.drop digits.length).all is_zero_digit = true ∧
    (digits.all is_zero_digit = true ∨ power + (more.length - digits.length : Nat) = places)

/-- Read with either kind of digits, a text starts with the same number exactly if only zeros are added. -/
theorem decimal_number_eq_iff (text : Text) :
    ((read_decimal is_decimal_digit text).map Prod.fst).getD 0 = ((read_decimal Char.isDigit text).map Prod.fst).getD 0 ↔
      ZerosAdded text := by
  obtain ⟨more, hmore⟩ := spelled_prefix text
  have hsign : (if (read_sign text).1 then -1 else 1 : Rat) ≠ 0 := by split <;> norm_num
  rw [read_decimal_spelled, read_decimal_spelled, mul_right_inj' hsign, ← hmore, digits_value_append,
    scaled_eq_iff (digits_value_lt more)]
  unfold ZerosAdded
  dsimp only
  rw [← hmore, List.drop_left, List.length_append, Nat.add_sub_cancel_left, digits_value_eq_zero, digits_value_eq_zero]

def is_zero (char : Char) : Bool := char == '0'

theorem hex_digit_value_eq_zero (char : Char) : hex_digit_value char = 0 ↔ is_zero char = true := by
  have hchar : is_zero char = true ↔ char.toNat = 48 := by
    rw [is_zero, beq_iff_eq]
    exact ⟨fun heq => heq ▸ rfl, fun heq => Char.toNat_inj.mp heq⟩
  have hdigit : char.isDigit = true ↔ 48 ≤ char.toNat ∧ char.toNat ≤ 57 := by
    simp only [Char.isDigit, Bool.and_eq_true, decide_eq_true_eq, ge_iff_le]
    exact Iff.rfl
  unfold hex_digit_value
  simp only [Char.reduceToNat]
  rw [hchar]
  split_ifs with hten halpha
  · rw [hdigit] at hten
    omega
  · rw [hdigit] at hten
    exact iff_of_false not_false (by omega)
  · rw [hdigit] at hten
    exact iff_of_false not_false (by omega)

theorem hex_value_eq_zero (digits : Text) : hex_value digits = 0 ↔ digits.all is_zero = true := by
  induction digits using List.reverseRecOn with
  | nil => exact iff_of_true rfl rfl
  | append_singleton digits digit ih =>
    have hvalue : hex_value (digits ++ [digit]) = 16 * hex_value digits + hex_digit_value digit := by
      unfold hex_value
      rw [List.foldl_append]
      rfl
    rw [hvalue, Nat.add_eq_zero_iff, Nat.mul_eq_zero, hex_digit_value_eq_zero, ih]
    simp

/-- The digits of a hexadecimal numeral, after its mark. -/
def hexadecimal_digits (unsigned : Text) : Text :=
  let (whole, rest) := digits_of is_hex_digit (unsigned.drop 2)
  whole ++ (read_point is_hex_digit rest).1

/-- The number of a hexadecimal numeral is zero exactly if its digits are. -/
theorem read_hexadecimal_eq_zero {unsigned : Text} {value : Rat} {rest : Text}
    (h : read_hexadecimal unsigned = some (value, rest)) :
    value = 0 ↔ (hexadecimal_digits unsigned).all is_zero = true := by
  have hvalue : ∃ power : Int, value = hex_value (hexadecimal_digits unsigned) * 2 ^ power := by
    unfold read_hexadecimal at h
    split at h
    · split_ifs at h
      dsimp only at h
      split_ifs at h
      obtain ⟨rfl, _⟩ := Prod.mk.inj (Option.some.inj h)
      exact ⟨_, rfl⟩
    · cases h
  obtain ⟨power, rfl⟩ := hvalue
  have hpower : (2 : Rat) ^ power ≠ 0 := zpow_ne_zero power (by norm_num)
  rw [← hex_value_eq_zero, mul_eq_zero_iff_right hpower, Nat.cast_eq_zero]

end Numeral

end quawk
