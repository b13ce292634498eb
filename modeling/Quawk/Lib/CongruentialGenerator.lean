import Mathlib.Algebra.Ring.GeomSum
import Mathlib.Data.Fintype.Card
import Mathlib.Data.ZMod.Basic
import Mathlib.Dynamics.PeriodicPts.Defs
import Mathlib.NumberTheory.Multiplicity
import Mathlib.RingTheory.Int.Basic
import Mathlib.Tactic.LinearCombination

open Finset (range)

namespace CongruentialGenerator

/-- One step of a linear congruential generator, before it is reduced. -/
def next (multiplier increment state : ℤ) : ℤ := multiplier * state + increment

variable {multiplier increment : ℤ}

theorem iterate_next (multiplier increment state : ℤ) (count : ℕ) :
    (next multiplier increment)^[count] state =
      multiplier ^ count * state + (∑ i ∈ range count, multiplier ^ i) * increment := by
  induction count with
  | zero => simp
  | succ count ih =>
    rw [Function.iterate_succ_apply', ih, next, geom_sum_succ]
    ring

/-- What a number of steps changes. -/
theorem iterate_next_sub (multiplier increment state : ℤ) (count : ℕ) :
    (next multiplier increment)^[count] state - state =
      (∑ i ∈ range count, multiplier ^ i) * ((multiplier - 1) * state + increment) := by
  have hsum := geom_sum_mul multiplier count
  rw [iterate_next]
  linear_combination state * (- hsum)

theorem iterate_next_modEq {modulus state other : ℤ} (h : state ≡ other [ZMOD modulus]) (count : ℕ) :
    (next multiplier increment)^[count] state ≡ (next multiplier increment)^[count] other [ZMOD modulus] := by
  rw [iterate_next, iterate_next]
  exact (h.mul_left _).add_right _

/-- A sum of powers has as many factors of two as the number of its terms. -/
theorem two_pow_dvd_geom_sum_iff (hmultiplier : 4 ∣ multiplier - 1) (power count : ℕ) :
    2 ^ power ∣ ∑ i ∈ range count, multiplier ^ i ↔ (2 : ℤ) ^ power ∣ count := by
  by_cases hone : multiplier = 1
  · simp [hone]
  have hodd : ¬ 2 ∣ multiplier := by omega
  have hfinite : emultiplicity 2 (multiplier - 1) ≠ ⊤ :=
    finiteMultiplicity_iff_emultiplicity_ne_top.mp
      (Int.finiteMultiplicity_iff.mpr ⟨by decide, sub_ne_zero.mpr hone⟩)
  have hpowers : emultiplicity 2 (multiplier ^ count - 1) = emultiplicity 2 (multiplier - 1) + emultiplicity (2 : ℤ) count := by
    have hlifted := Int.two_pow_sub_pow' count hmultiplier hodd
    rwa [one_pow] at hlifted
  rw [← geom_sum_mul, emultiplicity_mul Int.prime_two, add_comm] at hpowers
  rw [pow_dvd_iff_le_emultiplicity, pow_dvd_iff_le_emultiplicity,
    ENat.add_right_injective_of_ne_top hfinite hpowers]

section FullPeriod

variable {power : ℕ} (hmultiplier : 4 ∣ multiplier - 1) (hincrement : ¬ 2 ∣ increment)
include hmultiplier hincrement

theorem iterate_next_modEq_self_iff (count : ℕ) (state : ℤ) :
    (next multiplier increment)^[count] state ≡ state [ZMOD 2 ^ power] ↔ 2 ^ power ∣ count := by
  have hodd : IsCoprime ((2 : ℤ) ^ power) ((multiplier - 1) * state + increment) := by
    refine IsCoprime.pow_left (Int.isCoprime_two_left.mpr (Int.not_even_iff_odd.mp fun hparity => hincrement ?_))
    have heven : 2 ∣ (multiplier - 1) * state := Dvd.dvd.mul_right (dvd_trans (by decide) hmultiplier) state
    exact (dvd_add_right heven).mp hparity.two_dvd
  have hcount : (2 : ℤ) ^ power ∣ count ↔ 2 ^ power ∣ count := by
    rw [← Int.natCast_dvd_natCast, Nat.cast_pow, Nat.cast_ofNat]
  rw [Int.modEq_comm, Int.modEq_iff_dvd, iterate_next_sub, ← hcount, ← two_pow_dvd_geom_sum_iff hmultiplier]
  exact ⟨hodd.dvd_of_dvd_mul_right, fun hdvd => Dvd.dvd.mul_right hdvd _⟩

/-- Fewer steps than the modulus lead from one state to another. -/
theorem exists_iterate_next_modEq (state target : ℤ) :
    ∃ count < 2 ^ power, (next multiplier increment)^[count] state ≡ target [ZMOD 2 ^ power] := by
  have hmodulus : ((2 ^ power : ℕ) : ℤ) = 2 ^ power := by rw [Nat.cast_pow, Nat.cast_ofNat]
  have hless : ∀ first second : Fin (2 ^ power), first ≤ second →
      (next multiplier increment)^[first] state ≡ (next multiplier increment)^[second] state [ZMOD 2 ^ power] →
        first = second := by
    intro first second hle hsame
    have hlater : (next multiplier increment)^[second - first] ((next multiplier increment)^[first] state) =
        (next multiplier increment)^[second] state := by
      rw [← Function.iterate_add_apply, Nat.sub_add_cancel hle]
    rw [← hlater, Int.modEq_comm, iterate_next_modEq_self_iff hmultiplier hincrement] at hsame
    have hzero := Nat.eq_zero_of_dvd_of_lt hsame (by omega)
    exact Fin.ext (by omega)
  let residue : Fin (2 ^ power) → ZMod (2 ^ power) := fun count => ((next multiplier increment)^[count] state : ℤ)
  have hinjective : Function.Injective residue := by
    intro first second heq
    have hsame := (ZMod.intCast_eq_intCast_iff _ _ _).mp heq
    rw [hmodulus] at hsame
    obtain hle | hle := le_total first second
    · exact hless first second hle hsame
    · exact (hless second first hle hsame.symm).symm
  have hcard : Fintype.card (Fin (2 ^ power)) = Fintype.card (ZMod (2 ^ power)) := by rw [ZMod.card, Fintype.card_fin]
  obtain ⟨count, hcount⟩ := ((Fintype.bijective_iff_injective_and_card residue).mpr ⟨hinjective, hcard⟩).2 target
  refine ⟨count, count.isLt, ?_⟩
  have hsame := (ZMod.intCast_eq_intCast_iff _ _ _).mp hcount
  rwa [hmodulus] at hsame

end FullPeriod

/-- The states are passed through one after the other, each of them once, before the first comes again. -/
structure SingleCycle {α : Type} (step : α → α) (states : Set α) (length : ℕ) : Prop where
  bijective : Set.BijOn step states states
  reaches : ∀ state ∈ states, ∀ target ∈ states, ∃ count < length, step^[count] state = target
  distinct : ∀ state ∈ states, ∀ first second, first < second → second < first + length →
    step^[first] state ≠ step^[second] state
  period : ∀ state ∈ states, step^[length] state = state

section Steps

variable {α : Type} {step : α → α} {states : Set α} {value : α → ℤ} {power : ℕ} (hmaps : Set.MapsTo step states states)
  (hnext : ∀ state ∈ states, value (step state) ≡ next multiplier increment (value state) [ZMOD 2 ^ power])
include hmaps hnext

theorem value_iterate_modEq {state : α} (hmem : state ∈ states) (count : ℕ) :
    value (step^[count] state) ≡ (next multiplier increment)^[count] (value state) [ZMOD 2 ^ power] := by
  induction count with
  | zero => exact Int.ModEq.refl _
  | succ count ih =>
    rw [Function.iterate_succ_apply', Function.iterate_succ_apply']
    exact (hnext _ (hmaps.iterate count hmem)).trans ((ih.mul_left _).add_right _)

variable (hmultiplier : 4 ∣ multiplier - 1) (hincrement : ¬ 2 ∣ increment)
  (hvalue : ∀ state ∈ states, ∀ other ∈ states, value state ≡ value other [ZMOD 2 ^ power] → state = other)
include hmultiplier hincrement hvalue

theorem iterate_step_eq_self_iff {state : α} (hmem : state ∈ states) (count : ℕ) :
    step^[count] state = state ↔ 2 ^ power ∣ count := by
  have hiterate := value_iterate_modEq hmaps hnext hmem count
  rw [← iterate_next_modEq_self_iff hmultiplier hincrement count (value state)]
  refine ⟨fun heq => ?_, fun hsame => hvalue _ (hmaps.iterate count hmem) _ hmem (hiterate.trans hsame)⟩
  rw [heq] at hiterate
  exact hiterate.symm

/-- Steps that compute the next state modulo a power of two run through one cycle of the states. -/
theorem singleCycle_of_next : SingleCycle step states (2 ^ power) := by
  have hreaches : ∀ state ∈ states, ∀ target ∈ states, ∃ count < 2 ^ power, step^[count] state = target := by
    intro state hmem target htarget
    obtain ⟨count, hless, hsame⟩ :=
      @exists_iterate_next_modEq _ _ power hmultiplier hincrement (value state) (value target)
    have hiterate := value_iterate_modEq hmaps hnext hmem count
    exact ⟨count, hless, hvalue _ (hmaps.iterate count hmem) _ htarget (hiterate.trans hsame)⟩
  have hdistinct : ∀ state ∈ states, ∀ first second, first < second → second < first + 2 ^ power →
      step^[first] state ≠ step^[second] state := by
    intro state hmem first second hfirst hsecond heq
    have hlater : step^[second - first] (step^[first] state) = step^[second] state := by
      rw [← Function.iterate_add_apply, Nat.sub_add_cancel hfirst.le]
    have hdvd := (iterate_step_eq_self_iff hmaps hnext hmultiplier hincrement hvalue (hmaps.iterate first hmem)
      (second - first)).mp (hlater.trans heq.symm)
    have hzero := Nat.eq_zero_of_dvd_of_lt hdvd (by omega)
    omega
  have hperiod : ∀ state ∈ states, step^[2 ^ power] state = state := fun state hmem =>
    (iterate_step_eq_self_iff hmaps hnext hmultiplier hincrement hvalue hmem _).mpr (dvd_refl _)
  refine ⟨⟨hmaps, fun state hmem other hother heq => ?_, fun target htarget => ?_⟩, hreaches, hdistinct, hperiod⟩
  · -- The number of steps between two states with one successor is a multiple of the period.
    obtain ⟨count, hless, rfl⟩ := hreaches state hmem other hother
    rw [← Function.iterate_succ_apply' step] at heq
    by_contra hne
    refine hdistinct state hmem 1 (count + 1) ?_ (by omega) heq
    exact Nat.succ_lt_succ (Nat.pos_of_ne_zero fun hzero => hne (by rw [hzero]; rfl))
  · refine ⟨step^[2 ^ power - 1] target, hmaps.iterate _ htarget, ?_⟩
    rw [← Function.iterate_succ_apply' step, Nat.succ_eq_add_one, Nat.sub_add_cancel Nat.one_le_two_pow]
    exact hperiod target htarget

end Steps

end CongruentialGenerator
