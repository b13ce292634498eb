import Mathlib.Algebra.Order.Archimedean.Basic
import Mathlib.Data.Int.Log
import Mathlib.Data.Rat.Floor
import Mathlib.Tactic.FieldSimp
import Mathlib.Tactic.Linarith
import Mathlib.Tactic.NormNum
import Mathlib.Tactic.Positivity
import Mathlib.Tactic.Ring

namespace DigitRounding

/-- The nearest integer, and the even one halfway between two. -/
def half_even (q : Rat) : Int :=
  let floor := ⌊q⌋
  if 2 * (q - floor) < 1 then floor else if 1 < 2 * (q - floor) then floor + 1 else floor + floor % 2

theorem half_even_eq_iff (q : Rat) (n : Int) :
    half_even q = n ↔ 2 * |q - n| ≤ 1 ∧ (2 * |q - n| = 1 → n % 2 = 0) := by
  have hlow := Int.floor_le q
  have hhigh := Int.lt_floor_add_one q
  unfold half_even
  generalize ⌊q⌋ = floor at *
  dsimp only
  constructor
  · intro h
    split_ifs at h with hless hmore
    · subst h
      rw [abs_of_nonneg (by linarith)]
      exact ⟨hless.le, fun heq => absurd heq hless.ne⟩
    · subst h
      push_cast
      rw [abs_of_nonpos (by linarith)]
      exact ⟨by linarith, fun heq => by linarith⟩
    · have hhalf : 2 * (q - floor) = 1 := by linarith
      have heven : n % 2 = 0 := by omega
      refine ⟨?_, fun _ => heven⟩
      obtain hzero | hone : floor % 2 = 0 ∨ floor % 2 = 1 := by omega
      · have hn : n = floor := by omega
        rw [hn, abs_of_nonneg (by linarith)]
        linarith
      · have hn : n = floor + 1 := by omega
        rw [hn]
        push_cast
        rw [abs_of_nonpos (by linarith)]
        linarith
  · rintro ⟨hnear, heven⟩
    have hbounds := abs_le.mp (by linarith : |q - n| ≤ 1 / 2)
    have hfloor : floor - 1 < n := by
      have hcast : ((floor - 1 : Int) : Rat) < n := by push_cast; linarith
      exact_mod_cast hcast
    have hnext : n < floor + 2 := by
      have hcast : (n : Rat) < ((floor + 2 : Int) : Rat) := by push_cast; linarith
      exact_mod_cast hcast
    obtain rfl | rfl : n = floor ∨ n = floor + 1 := by omega
    · rw [abs_of_nonneg (by linarith)] at heven hnear
      split_ifs with hless hmore
      · rfl
      · linarith
      · have hzero := heven (by linarith)
        omega
    · push_cast at heven hnear
      rw [abs_of_nonpos (by linarith)] at heven hnear
      split_ifs with hless hmore
      · linarith
      · rfl
      · have hzero := heven (by linarith)
        omega

theorem half_even_intCast (n : Int) : half_even n = n := (half_even_eq_iff n n).mpr (by simp)

/-- The nearest multiple of a power of the base. -/
def round_at (base : Nat) (exponent : Int) (q : Rat) : Rat := half_even (q / base ^ exponent) * base ^ exponent

theorem round_at_eq_iff {base : Nat} (hbase : 0 < base) (exponent : Int) (q : Rat) (n : Int) :
    round_at base exponent q = n * base ^ exponent ↔ 2 * |q - n * base ^ exponent| ≤ base ^ exponent ∧
      (2 * |q - n * base ^ exponent| = base ^ exponent → n % 2 = 0) := by
  have hcast : (0 : Rat) < base := by exact_mod_cast hbase
  have hpow : (0 : Rat) < (base : Rat) ^ exponent := zpow_pos hcast _
  have habs : |q / base ^ exponent - n| = |q - n * base ^ exponent| / base ^ exponent := by
    rw [eq_div_iff hpow.ne', ← abs_of_pos hpow, ← abs_mul, abs_of_pos hpow, sub_mul, div_mul_cancel₀ _ hpow.ne']
  have hcancel : round_at base exponent q = n * base ^ exponent ↔ half_even (q / base ^ exponent) = n := by
    rw [round_at, mul_left_inj' hpow.ne']
    exact_mod_cast Iff.rfl
  rw [hcancel, half_even_eq_iff, habs, ← mul_div_assoc, div_le_one hpow, div_eq_one_iff_eq hpow.ne']

theorem round_at_near {base : Nat} (hbase : 0 < base) (exponent : Int) (q : Rat) :
    2 * |q - round_at base exponent q| ≤ base ^ exponent :=
  ((round_at_eq_iff hbase exponent q (half_even (q / base ^ exponent))).mp rfl).1

/-- A number with at most `width + 1` binary digits, rounded no finer than to `2 ^ least`. -/
def nearest (width : Nat) (least : Int) (q : Rat) : Rat := round_at 2 (max (Int.log 2 q - width) least) q

/-- How far the next number above lies. -/
def spacing_above (width : Nat) (v : Rat) : Rat := 2 ^ (Int.log 2 v - width)

/-- How far the next number below lies; below a power of two it is half as far. -/
def spacing_below (width : Nat) (v : Rat) : Rat :=
  if v = 2 ^ Int.log 2 v then spacing_above width v / 2 else spacing_above width v

/-- `q` is at most half of the way to the next number from `v`; from an odd `v` it is less. -/
structure Near (width : Nat) (q v : Rat) : Prop where
  above : 2 * (q - v) ≤ spacing_above width v
  below : 2 * (v - q) ≤ spacing_below width v
  even : 2 * (q - v) = spacing_above width v ∨ 2 * (v - q) = spacing_below width v →
    ⌊v / spacing_above width v⌋ % 2 = 0

theorem Near.refl {width : Nat} (v : Rat) : Near width v v := by
  have habove : 0 < spacing_above width v := zpow_pos (by norm_num) _
  have hbelow : 0 < spacing_below width v := by
    unfold spacing_below
    split_ifs <;> linarith
  refine ⟨by linarith, by linarith, fun heq => ?_⟩
  obtain heq | heq := heq <;> linarith

theorem log_eq {q : Rat} {exponent : Int} (hlow : (2 : Rat) ^ exponent ≤ q) (hhigh : q < 2 ^ (exponent + 1)) :
    Int.log 2 q = exponent := by
  have hpos : 0 < q := lt_of_lt_of_le (zpow_pos (by norm_num) _) hlow
  have hle : exponent ≤ Int.log 2 q := (Int.zpow_le_iff_le_log (by decide) hpos).mp (by exact_mod_cast hlow)
  have hlt : Int.log 2 q < exponent + 1 := (Int.lt_zpow_iff_log_lt (by decide) hpos).mp (by exact_mod_cast hhigh)
  omega

/-- A significand of `width + 1` binary digits and an exponent. -/
structure Normal (width : Nat) (least : Int) (v : Rat) (significand exponent : Int) : Prop where
  value : v = significand * 2 ^ exponent
  low : 2 ^ width ≤ significand
  high : significand < 2 ^ (width + 1)
  least_lt : least < exponent

section Normal

variable {width : Nat} {least : Int} {q v : Rat} {significand exponent : Int}

theorem Normal.log (h : Normal width least v significand exponent) : Int.log 2 v = exponent + width := by
  have hpow : (0 : Rat) < 2 ^ exponent := zpow_pos (by norm_num) _
  have hlow : ((2 ^ width : Int) : Rat) ≤ significand := by exact_mod_cast h.low
  have hhigh : (significand : Rat) < ((2 ^ (width + 1) : Int) : Rat) := by exact_mod_cast h.high
  push_cast at hlow hhigh
  refine log_eq ?_ ?_
  · rw [h.value, zpow_add₀ (by norm_num), zpow_natCast, mul_comm]
    exact mul_le_mul_of_nonneg_right hlow hpow.le
  · rw [h.value, add_assoc, zpow_add₀ (by norm_num), mul_comm ((2 : Rat) ^ exponent)]
    have hcast : (2 : Rat) ^ ((width : Int) + 1) = 2 ^ (width + 1) := by exact_mod_cast zpow_natCast (2 : Rat) (width + 1)
    rw [hcast]
    exact mul_lt_mul_of_pos_right hhigh hpow

theorem Normal.spacing (h : Normal width least v significand exponent) : spacing_above width v = 2 ^ exponent := by
  rw [spacing_above, h.log, Int.add_sub_cancel]

theorem Normal.floor (h : Normal width least v significand exponent) : ⌊v / spacing_above width v⌋ = significand := by
  have hne : (2 : Rat) ^ exponent ≠ 0 := (zpow_pos (by norm_num) _).ne'
  rw [h.spacing, h.value, mul_div_cancel_right₀ _ hne, Int.floor_intCast]

theorem Normal.spacing_below_eq (h : Normal width least v significand exponent) :
    spacing_below width v = if significand = 2 ^ width then 2 ^ exponent / 2 else 2 ^ exponent := by
  have hne : (2 : Rat) ^ exponent ≠ 0 := (zpow_pos (by norm_num) _).ne'
  have hiff : v = 2 ^ Int.log 2 v ↔ significand = 2 ^ width := by
    rw [h.log, h.value, zpow_add₀ (by norm_num), zpow_natCast, mul_comm, mul_right_inj' hne]
    exact_mod_cast Iff.rfl
  rw [spacing_below, h.spacing]
  exact if_congr hiff rfl rfl

/-- The exponents next to that of a normal number, over `p` for its own power and `w` for the power of its width. -/
theorem Normal.powers (h : Normal width least v significand exponent) :
    ∃ p w : Rat, 0 < p ∧ 1 ≤ w ∧ (2 : Rat) ^ exponent = p ∧ (2 : Rat) ^ width = w ∧ v = significand * p ∧
      w ≤ significand ∧ (significand : Rat) + 1 ≤ 2 * w ∧ (2 : Rat) ^ (exponent + width) = w * p ∧
      (2 : Rat) ^ (exponent - 1) = p / 2 := by
  refine ⟨2 ^ exponent, 2 ^ width, zpow_pos (by norm_num) _, one_le_pow₀ (by norm_num), rfl, rfl, h.value, ?_, ?_, ?_, ?_⟩
  · exact_mod_cast h.low
  · have hhigh : significand + 1 ≤ 2 * 2 ^ width := by
      have := h.high
      rw [pow_succ] at this
      omega
    exact_mod_cast hhigh
  · rw [zpow_add₀ (by norm_num), zpow_natCast, mul_comm]
  · rw [zpow_sub_one₀ (by norm_num), div_eq_mul_inv]

/-- Nearness to a normal number, over its power and its significand. -/
theorem Normal.near_iff (h : Normal width least v significand exponent) : Near width q v ↔
    2 * (q - v) ≤ 2 ^ exponent ∧
      2 * (v - q) ≤ (if significand = 2 ^ width then (2 : Rat) ^ exponent / 2 else 2 ^ exponent) ∧
      (2 * (q - v) = 2 ^ exponent ∨
        2 * (v - q) = (if significand = 2 ^ width then (2 : Rat) ^ exponent / 2 else 2 ^ exponent) →
          significand % 2 = 0) := by
  rw [← h.spacing_below_eq]
  constructor
  · rintro ⟨habove, hbelow, heven⟩
    rw [h.floor, h.spacing] at heven
    rw [h.spacing] at habove
    exact ⟨habove, hbelow, heven⟩
  · rintro ⟨habove, hbelow, heven⟩
    refine ⟨by rwa [h.spacing], hbelow, ?_⟩
    rwa [h.floor, h.spacing]

/-- From the power of `v` on the numbers are as far apart as above `v`. -/
theorem Normal.nearest_same (h : Normal width least v significand exponent) (hlow : (2 : Rat) ^ (exponent + width) ≤ q)
    (hhigh : q < 2 ^ (exponent + width + 1)) : nearest width least q = v ↔ Near width q v := by
  have hleast := h.least_lt
  have hpow : (0 : Rat) < 2 ^ exponent := zpow_pos (by norm_num) _
  have hexponent : max (Int.log 2 q - width) least = exponent := by
    rw [log_eq hlow hhigh]
    omega
  have hround := round_at_eq_iff (by decide : 0 < 2) exponent q significand
  rw [Nat.cast_ofNat, ← h.value] at hround
  rw [nearest, hexponent, hround, h.near_iff]
  have hpower : significand = 2 ^ width → v ≤ q := by
    rintro rfl
    rw [h.value]
    push_cast
    rwa [zpow_add₀ (by norm_num), zpow_natCast, mul_comm] at hlow
  constructor
  · rintro ⟨hnear, heven⟩
    have habove : q - v ≤ |q - v| := le_abs_self _
    have hbelow : v - q ≤ |q - v| := by rw [abs_sub_comm]; exact le_abs_self _
    refine ⟨by linarith, ?_, ?_⟩
    · split_ifs with hsignificand
      · linarith [hpower hsignificand]
      · linarith
    · rintro (htie | htie)
      · exact heven (le_antisymm hnear (by linarith))
      · split_ifs at htie with hsignificand
        · linarith [hpower hsignificand]
        · exact heven (le_antisymm hnear (by linarith))
  · rintro ⟨habove, hbelow, heven⟩
    have hbelow' : 2 * (v - q) ≤ 2 ^ exponent := by
      split_ifs at hbelow <;> linarith
    obtain hsign | hsign := abs_cases (q - v)
    · rw [hsign.1]
      exact ⟨habove, fun htie => heven (.inl htie)⟩
    · rw [hsign.1]
      refine ⟨by linarith, fun htie => heven (.inr ?_)⟩
      rw [if_neg fun hsignificand => by linarith [hpower hsignificand, hsign.2]]
      linarith

/-- Below the power of `v` they are closer, and only a power of two is reached from there. -/
theorem Normal.nearest_below (h : Normal width least v significand exponent) (hwidth : 0 < width) (hq : 0 < q)
    (hhigh : q < 2 ^ (exponent + width)) : nearest width least q = v ↔ Near width q v := by
  obtain ⟨p, w, hp, hw, hexponent, hpow, hv, hlow, -, hlog, hhalf⟩ := h.powers
  have hleast := h.least_lt
  rw [h.near_iff, hexponent]
  rw [hlog] at hhigh
  have hwp : 1 * p ≤ w * p := mul_le_mul_of_nonneg_right hw hp.le
  have hpowerof : significand = 2 ^ width ↔ (significand : Rat) = w := by
    rw [← hpow]
    exact_mod_cast Iff.rfl
  by_cases hsignificand : significand = 2 ^ width
  · rw [if_pos hsignificand]
    have hvw : v = w * p := by rw [hv, hpowerof.mp hsignificand]
    have heven : significand % 2 = 0 := by
      rw [hsignificand]
      obtain ⟨less, rfl⟩ := Nat.exists_eq_succ_of_ne_zero hwidth.ne'
      rw [Nat.succ_eq_add_one, pow_succ]
      omega
    constructor
    · intro hround
      have hnear := round_at_near (by decide : 0 < 2) (max (Int.log 2 q - width) least) q
      have hlt : Int.log 2 q < exponent + width :=
        (Int.lt_zpow_iff_log_lt (by decide) hq).mp (by rw [Nat.cast_ofNat, hlog]; exact hhigh)
      have hle : (2 : Rat) ^ max (Int.log 2 q - width) least ≤ 2 ^ (exponent - 1) :=
        zpow_le_zpow_right₀ (by norm_num) (by omega)
      rw [nearest] at hround
      rw [hround, Nat.cast_ofNat] at hnear
      have hbelow : v - q ≤ |q - v| := by rw [abs_sub_comm]; exact le_abs_self _
      exact ⟨by linarith, by linarith, fun _ => heven⟩
    · rintro ⟨-, hbelow, -⟩
      have hlogq : Int.log 2 q = exponent + width - 1 := by
        refine log_eq ?_ ?_
        · rw [zpow_sub_one₀ (by norm_num), hlog]
          linarith
        · rw [Int.sub_add_cancel, hlog]
          exact hhigh
      have hmax : max (Int.log 2 q - width) least = exponent - 1 := by omega
      have hround := round_at_eq_iff (by decide : 0 < 2) (exponent - 1) q (2 * significand)
      have hcast : ((2 * significand : Int) : Rat) * 2 ^ (exponent - 1) = v := by
        rw [hhalf, hv]
        push_cast
        ring
      rw [Nat.cast_ofNat, hcast] at hround
      rw [nearest, hmax, hround, hhalf, abs_of_neg (by linarith)]
      exact ⟨by linarith, fun _ => by omega⟩
  · rw [if_neg hsignificand]
    have hnext : w + 1 ≤ significand := by
      have hint : 2 ^ width + 1 ≤ significand := by
        have := h.low
        omega
      rw [← hpow]
      exact_mod_cast hint
    have hfar : (w + 1) * p ≤ v := by
      rw [hv]
      exact mul_le_mul_of_nonneg_right hnext hp.le
    constructor
    · intro hround
      have hnear := round_at_near (by decide : 0 < 2) (max (Int.log 2 q - width) least) q
      have hlt : Int.log 2 q < exponent + width :=
        (Int.lt_zpow_iff_log_lt (by decide) hq).mp (by rw [Nat.cast_ofNat, hlog]; exact hhigh)
      have hle : (2 : Rat) ^ max (Int.log 2 q - width) least ≤ 2 ^ (exponent - 1) :=
        zpow_le_zpow_right₀ (by norm_num) (by omega)
      rw [nearest] at hround
      rw [hround, Nat.cast_ofNat] at hnear
      have hbelow : v - q ≤ |q - v| := by rw [abs_sub_comm]; exact le_abs_self _
      linarith
    · rintro ⟨-, hbelow, -⟩
      linarith

/-- Above the next power they are farther apart, and rounding does not fall below that power. -/
theorem Normal.nearest_above (h : Normal width least v significand exponent)
    (hlow : (2 : Rat) ^ (exponent + width + 1) ≤ q) : nearest width least q = v ↔ Near width q v := by
  obtain ⟨p, w, hp, hw, hexponent, hpow, hv, -, hhigh, hlog, -⟩ := h.powers
  have hleast := h.least_lt
  have hq : 0 < q := lt_of_lt_of_le (zpow_pos (by norm_num) _) hlow
  have hnext : (2 : Rat) ^ (exponent + width + 1) = 2 * w * p := by
    rw [zpow_add_one₀ (by norm_num), hlog]
    ring
  have hfar : v + p ≤ 2 * w * p := by
    have hmul := mul_le_mul_of_nonneg_right hhigh hp.le
    rw [hv]
    linarith
  rw [h.near_iff, hexponent]
  constructor
  · intro hround
    have hge : exponent + width + 1 ≤ Int.log 2 q :=
      (Int.zpow_le_iff_le_log (by decide) hq).mp (by rw [Nat.cast_ofNat]; exact hlow)
    have hmax : max (Int.log 2 q - width) least = Int.log 2 q - width := by omega
    rw [nearest, hmax] at hround
    have hnear := round_at_near (by decide : 0 < 2) (Int.log 2 q - width) q
    rw [hround, Nat.cast_ofNat] at hnear
    obtain ⟨r, hr⟩ : ∃ r : Rat, (2 : Rat) ^ (Int.log 2 q - width) = r := ⟨_, rfl⟩
    have hpos : 0 < r := by rw [← hr]; exact zpow_pos (by norm_num) _
    have hfloor : w * r ≤ q := by
      have hself := Int.zpow_log_le_self (by decide : 1 < 2) hq
      rw [Nat.cast_ofNat] at hself
      have hsplit : (2 : Rat) ^ Int.log 2 q = w * r := by
        rw [← hr, ← hpow, ← zpow_natCast, ← zpow_add₀ (by norm_num)]
        congr 1
        ring
      linarith
    have hpowle : 2 * w * p ≤ w * r := by
      have hle : (2 : Rat) ^ (exponent + 1) ≤ 2 ^ (Int.log 2 q - width) :=
        zpow_le_zpow_right₀ (by norm_num) (by omega)
      rw [zpow_add_one₀ (by norm_num), hexponent, hr] at hle
      have hmul := mul_le_mul_of_nonneg_left hle (by linarith : 0 ≤ w)
      linarith
    -- The multiple that `v` is lies below the one that the power is, so a whole step away from `q`.
    obtain ⟨n, hn⟩ : ∃ n : Int, (n : Rat) * r = v := by
      refine ⟨half_even (q / (2 : Nat) ^ (Int.log 2 q - width)), ?_⟩
      rw [← hr, ← hround, round_at, Nat.cast_ofNat]
    have hless : (n : Rat) < w := by
      by_contra hnot
      have hmul := mul_le_mul_of_nonneg_right (not_lt.mp hnot) hpos.le
      linarith
    have hstep : (n : Rat) + 1 ≤ w := by
      have hint : n < 2 ^ width := by
        rw [← hpow] at hless
        exact_mod_cast hless
      rw [← hpow]
      exact_mod_cast hint
    have hmul := mul_le_mul_of_nonneg_right hstep hpos.le
    rw [hr] at hnear
    have habove : q - v ≤ |q - v| := le_abs_self _
    linarith
  · rintro ⟨habove, -, -⟩
    linarith

/-- Rounding to the nearest gives `v` exactly for the numbers that are near to it. -/
theorem nearest_eq_iff (h : Normal width least v significand exponent) (hwidth : 0 < width) (hq : 0 < q) :
    nearest width least q = v ↔ Near width q v := by
  obtain hlow | hlow := lt_or_ge q (2 ^ (exponent + width))
  · exact h.nearest_below hwidth hq hlow
  obtain hhigh | hhigh := lt_or_ge q (2 ^ (exponent + width + 1))
  · exact h.nearest_same hlow hhigh
  · exact h.nearest_above hhigh

/-- A number of fixed length is a significand and an exponent. -/
theorem normal_of_nearest (hfixed : nearest width least v = v) (hv : 0 < v) (hleast : least < Int.log 2 v - width) :
    Normal width least v (half_even (v / 2 ^ (Int.log 2 v - width))) (Int.log 2 v - width) := by
  have hvalue : v = half_even (v / 2 ^ (Int.log 2 v - width)) * 2 ^ (Int.log 2 v - width) := by
    rw [nearest, max_eq_left hleast.le, round_at, Nat.cast_ofNat] at hfixed
    exact hfixed.symm
  generalize hsignificand : half_even (v / 2 ^ (Int.log 2 v - width)) = significand at hvalue ⊢
  have hpow : (0 : Rat) < 2 ^ (Int.log 2 v - width) := zpow_pos (by norm_num) _
  have hself := Int.zpow_log_le_self (by decide : 1 < 2) hv
  have hnext := Int.lt_zpow_succ_log_self (by decide : 1 < 2) v
  have hsplit : (2 : Rat) ^ Int.log 2 v = 2 ^ width * 2 ^ (Int.log 2 v - width) := by
    rw [← zpow_natCast, ← zpow_add₀ (by norm_num)]
    congr 1
    ring
  rw [Nat.cast_ofNat, hsplit] at hself
  rw [Nat.cast_ofNat, zpow_add_one₀ (by norm_num), hsplit] at hnext
  refine ⟨hvalue, ?_, ?_, hleast⟩
  · have hcast : (2 : Rat) ^ width ≤ significand := le_of_mul_le_mul_right (by linarith) hpow
    exact_mod_cast hcast
  · have hcast : (significand : Rat) < 2 ^ (width + 1) := by
      refine lt_of_mul_lt_mul_right ?_ hpow.le
      rw [pow_succ]
      linarith
    exact_mod_cast hcast

end Normal

/-- A number rounded to `count + 1` decimal digits. -/
def rounded (count : Nat) (q : Rat) : Rat := round_at 10 (Int.log 10 q - count) q

/-- The digits of a rounded number and the exponent of the first of them. -/
def significant (count : Nat) (q : Rat) : Nat × Int :=
  let exponent := Int.log 10 q
  let mantissa := (half_even (q / 10 ^ (exponent - count))).toNat
  if mantissa = 10 ^ (count + 1) then (10 ^ count, exponent + 1) else (mantissa, exponent)

section Decimal

variable {count : Nat} {q : Rat}

/-- The multiple that a number is rounded to: it may be the next power. -/
theorem half_even_bounds (hq : 0 ≤ q) : 0 ≤ half_even (q / 10 ^ (Int.log 10 q - count)) ∧
    half_even (q / 10 ^ (Int.log 10 q - count)) ≤ 10 ^ (count + 1) := by
  have hpow : (0 : Rat) < 10 ^ (Int.log 10 q - count) := zpow_pos (by norm_num) _
  have hnear := ((half_even_eq_iff (q / 10 ^ (Int.log 10 q - count)) _).mp rfl).1
  generalize half_even (q / 10 ^ (Int.log 10 q - count)) = n at hnear ⊢
  have hbounds := abs_le.mp (by linarith : |q / 10 ^ (Int.log 10 q - count) - n| ≤ 1 / 2)
  have hlow : 0 ≤ q / 10 ^ (Int.log 10 q - count) := div_nonneg hq hpow.le
  have hhigh : q / 10 ^ (Int.log 10 q - count) < 10 ^ (count + 1) := by
    have hnext := Int.lt_zpow_succ_log_self (by decide : 1 < 10) q
    rw [div_lt_iff₀ hpow, ← zpow_natCast, ← zpow_add₀ (by norm_num)]
    rw [Nat.cast_ofNat] at hnext
    refine lt_of_lt_of_eq hnext ?_
    congr 1
    push_cast
    ring
  constructor
  · have hcast : ((-1 : Int) : Rat) < n := by push_cast; linarith
    have hint : -1 < n := by exact_mod_cast hcast
    omega
  · have hcast : (n : Rat) < ((10 ^ (count + 1) + 1 : Int) : Rat) := by push_cast; linarith
    have hint : n < 10 ^ (count + 1) + 1 := by exact_mod_cast hcast
    omega

theorem significant_lt (hq : 0 ≤ q) : (significant count q).1 < 10 ^ (count + 1) := by
  have hbounds := @half_even_bounds count q hq
  unfold significant
  dsimp only
  split_ifs with hnext
  · exact Nat.pow_lt_pow_right (by decide) (Nat.lt_succ_self count)
  · refine lt_of_le_of_ne ?_ hnext
    rw [Int.toNat_le]
    exact_mod_cast hbounds.2

theorem significant_value (hq : 0 ≤ q) :
    ((significant count q).1 : Rat) * 10 ^ ((significant count q).2 - count) = rounded count q := by
  have hbounds := @half_even_bounds count q hq
  have hcast : (((half_even (q / 10 ^ (Int.log 10 q - count))).toNat : Nat) : Rat) =
      half_even (q / 10 ^ (Int.log 10 q - count)) := by
    rw [← Int.cast_natCast, Int.toNat_of_nonneg hbounds.1]
  rw [rounded, round_at, Nat.cast_ofNat, ← hcast]
  unfold significant
  dsimp only
  split_ifs with hnext
  · rw [hnext, add_sub_right_comm, zpow_add_one₀ (by norm_num)]
    push_cast
    ring
  · rfl

theorem rounded_zero : rounded count 0 = 0 := by
  have hzero : half_even 0 = 0 := by exact_mod_cast half_even_intCast 0
  rw [rounded, round_at, zero_div, hzero, Int.cast_zero, zero_mul]

theorem rounded_pos (hq : 0 < q) : 0 < rounded count q := by
  have hpow : (0 : Rat) < 10 ^ (Int.log 10 q - count) := zpow_pos (by norm_num) _
  have hnear := round_at_near (by decide : 0 < 10) (Int.log 10 q - count) q
  have hself := Int.zpow_log_le_self (by decide : 1 < 10) hq
  have hle : (10 : Rat) ^ (Int.log 10 q - count) ≤ 10 ^ Int.log 10 q :=
    zpow_le_zpow_right₀ (by norm_num) (by omega)
  rw [Nat.cast_ofNat] at hnear hself
  have habove : q - rounded count q ≤ |q - round_at 10 (Int.log 10 q - count) q| := le_abs_self _
  linarith

/-- A whole number of few digits is a multiple of the power that it is rounded to. -/
theorem rounded_integer {n : Int} (hn : 0 < n) (hcount : n < 10 ^ (count + 1)) : rounded count n = n := by
  have hlog : Int.log 10 (n : Rat) < count + 1 := by
    refine (Int.lt_zpow_iff_log_lt (by decide) (by exact_mod_cast hn)).mp ?_
    rw [Nat.cast_ofNat]
    have hcast : (10 : Rat) ^ ((count : Int) + 1) = ((10 ^ (count + 1) : Int) : Rat) := by
      rw [← Nat.cast_succ, zpow_natCast]
      push_cast
      rfl
    rw [hcast]
    exact_mod_cast hcount
  obtain ⟨less, hless⟩ : ∃ less : Nat, (count : Int) - Int.log 10 (n : Rat) = less :=
    ⟨_, (Int.toNat_of_nonneg (by omega)).symm⟩
  have hexponent : Int.log 10 (n : Rat) - count = -(less : Int) := by omega
  have hpow : (0 : Rat) < 10 ^ less := pow_pos (by norm_num) _
  have hscaled : (n : Rat) / 10 ^ (-(less : Int)) = ((n * 10 ^ less : Int) : Rat) := by
    rw [zpow_neg, zpow_natCast, div_inv_eq_mul]
    push_cast
    rfl
  rw [rounded, round_at, Nat.cast_ofNat, hexponent, hscaled, half_even_intCast, zpow_neg, zpow_natCast]
  push_cast
  exact mul_inv_cancel_right₀ hpow.ne' _

end Decimal

end DigitRounding
