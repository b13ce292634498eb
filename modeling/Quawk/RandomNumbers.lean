import Mathlib.Algebra.Order.Field.Basic
import Quawk.Lib.CongruentialGenerator
import Quawk.Lib.OperationRun
import Quawk.Substrings

open CongruentialGenerator (next SingleCycle singleCycle_of_next iterate_next_modEq)
open OperationRun (run)

namespace quawk

def QK_RAND_MODULUS : Rat := 2147483648
def QK_RAND_MASK : UInt32 := 0x7fffffff
def QK_RAND_MULTIPLIER : UInt32 := 1103515245
def QK_RAND_INCREMENT : UInt32 := 12345

/-- The fields of the runtime that the generator uses. -/
structure RandomRuntime where
  random_seed : Int64
  random_state : UInt32

/-- What a runtime is created with. -/
def RandomRuntime.created : RandomRuntime := ⟨1, 1⟩

def qk_normalize_seed (value : Rat) : UInt32 := (Int64.ofInt (truncated value)).toUInt64.toUInt32 &&& QK_RAND_MASK

def qk_next_rand_state (state : UInt32) : UInt32 := (QK_RAND_MULTIPLIER * state + QK_RAND_INCREMENT) &&& QK_RAND_MASK

def qk_rand (runtime : RandomRuntime) : Rat × RandomRuntime :=
  let runtime := { runtime with random_state := qk_next_rand_state runtime.random_state }
  ((runtime.random_state.toNat : Rat) / QK_RAND_MODULUS, runtime)

/-- The time is that of the clock. -/
def qk_srand0 (time : Int64) (runtime : RandomRuntime) : Rat × RandomRuntime :=
  let previous_seed := runtime.random_seed
  let next_seed := time
  (previous_seed.toInt, ⟨next_seed, qk_normalize_seed next_seed.toInt⟩)

def qk_srand1 (seed : Rat) (runtime : RandomRuntime) : Rat × RandomRuntime :=
  let previous_seed := runtime.random_seed
  let next_seed := Int64.ofInt (truncated seed)
  (previous_seed.toInt, ⟨next_seed, qk_normalize_seed seed⟩)

/-- A program's calls of the generator. -/
inductive RandomCall where
  | rand
  | srand0 (time : Int64)
  | srand1 (seed : Rat)

def RandomCall.apply (runtime : RandomRuntime) : RandomCall → RandomRuntime
  | rand => (qk_rand runtime).2
  | srand0 time => (qk_srand0 time runtime).2
  | srand1 seed => (qk_srand1 seed runtime).2

theorem and_mask_toNat (state : UInt32) : (state &&& QK_RAND_MASK).toNat = state.toNat % 2 ^ 31 := by
  rw [UInt32.toNat_and]
  exact Nat.and_two_pow_sub_one_eq_mod state.toNat 31

theorem qk_next_rand_state_toNat (state : UInt32) :
    (qk_next_rand_state state).toNat = (1103515245 * state.toNat + 12345) % 2 ^ 31 := by
  rw [qk_next_rand_state, and_mask_toNat, UInt32.toNat_add, UInt32.toNat_mul]
  change (1103515245 * state.toNat % 2 ^ 32 + 12345) % 2 ^ 32 % 2 ^ 31 = _
  omega

theorem qk_normalize_seed_toNat (value : Rat) : ((qk_normalize_seed value).toNat : Int) = truncated value % 2 ^ 31 := by
  rw [qk_normalize_seed, and_mask_toNat, UInt64.toNat_toUInt32]
  change (((BitVec.ofInt 64 (truncated value)).toNat % 2 ^ 32 % 2 ^ 31 : Nat) : Int) = _
  rw [BitVec.toNat_ofInt]
  omega

theorem truncated_bound {value : Rat} {bound : Nat} (h : |value| < bound) : (truncated value).natAbs < bound := by
  have hden : (0 : Rat) < value.den := Nat.cast_pos.mpr value.den_pos
  rw [← Rat.num_div_den value, abs_div, abs_of_pos hden, div_lt_iff₀ hden, ← Int.cast_abs, Int.abs_eq_natAbs] at h
  rw [truncated, Int.natAbs_tdiv, Int.natAbs_natCast]
  refine (Nat.div_lt_iff_lt_mul value.den_pos).mpr ?_
  exact_mod_cast h

/-- The whole part of a seed is kept where it is a number of the machine. -/
theorem truncated_toInt {seed : Rat} (h : |seed| < 2 ^ 53) : (Int64.ofInt (truncated seed)).toInt = truncated seed := by
  have hbound : (truncated seed).natAbs < 2 ^ 53 := truncated_bound (by exact_mod_cast h)
  refine Int64.toInt_ofInt_of_le ?_ ?_ <;> omega

/-- The states of the generator. -/
def rand_states : Set UInt32 := {state | state.toNat < 2 ^ 31}

theorem qk_next_rand_state_mem (state : UInt32) : qk_next_rand_state state ∈ rand_states := by
  rw [rand_states, Set.mem_ofPred_eq, qk_next_rand_state_toNat]
  exact Nat.mod_lt _ (by decide)

theorem qk_next_rand_state_modEq (state : UInt32) :
    ((qk_next_rand_state state).toNat : Int) ≡ next 1103515245 12345 state.toNat [ZMOD 2 ^ 31] := by
  rw [qk_next_rand_state_toNat, Int.natCast_mod]
  exact Int.mod_modEq _ _

theorem rand_states_cycle : SingleCycle qk_next_rand_state rand_states (2 ^ 31) := by
  refine @singleCycle_of_next 1103515245 12345 _ _ _ (fun state => state.toNat) 31
    (fun state _ => qk_next_rand_state_mem state) (fun state _ => qk_next_rand_state_modEq state) (by decide) (by decide) ?_
  intro state hstate other hother hsame
  rw [rand_states, Set.mem_ofPred_eq] at hstate hother
  refine UInt32.toNat_inj.mp ?_
  have hstate' : (state.toNat : Int) % 2 ^ 31 = state.toNat := by omega
  have hother' : (other.toNat : Int) % 2 ^ 31 = other.toNat := by omega
  rw [Int.ModEq, hstate', hother'] at hsame
  exact Int.ofNat_inj.mp hsame

/-- The runtime after `count` draws. -/
def drawn (runtime : RandomRuntime) (count : Nat) : RandomRuntime := (fun runtime => (qk_rand runtime).2)^[count] runtime

theorem drawn_succ (runtime : RandomRuntime) (count : Nat) : drawn runtime (count + 1) = (qk_rand (drawn runtime count)).2 :=
  Function.iterate_succ_apply' _ _ _

/-- Behind a seed the states are those of the generator without overflow, reduced. -/
theorem drawn_state_modEq (seed : Rat) (runtime : RandomRuntime) (count : Nat) :
    ((drawn (qk_srand1 seed runtime).2 count).random_state.toNat : Int) ≡
      (next 1103515245 12345)^[count] (truncated seed) [ZMOD 2 ^ 31] := by
  induction count with
  | zero =>
    change ((qk_normalize_seed seed).toNat : Int) ≡ truncated seed [ZMOD 2 ^ 31]
    rw [qk_normalize_seed_toNat]
    exact Int.mod_modEq _ _
  | succ count ih =>
    rw [drawn_succ, Function.iterate_succ_apply']
    exact (qk_next_rand_state_modEq _).trans ((ih.mul_left _).add_right _)

theorem drawn_state_lt (seed : Rat) (runtime : RandomRuntime) (count : Nat) :
    (drawn (qk_srand1 seed runtime).2 count).random_state.toNat < 2 ^ 31 := by
  cases count with
  | zero =>
    change (qk_normalize_seed seed).toNat < 2 ^ 31
    rw [qk_normalize_seed, and_mask_toNat]
    exact Nat.mod_lt _ (by decide)
  | succ count =>
    rw [drawn_succ]
    exact qk_next_rand_state_mem _

theorem qk_rand_bounds (runtime : RandomRuntime) : 0 ≤ (qk_rand runtime).1 ∧ (qk_rand runtime).1 < 1 := by
  have hpos : (0 : Rat) < QK_RAND_MODULUS := by decide
  have hless : ((qk_next_rand_state runtime.random_state).toNat : Rat) < QK_RAND_MODULUS := by
    have hstate : (qk_next_rand_state runtime.random_state).toNat < 2147483648 := qk_next_rand_state_mem _
    exact (Nat.cast_lt (α := Rat)).mpr hstate
  exact ⟨div_nonneg (Nat.cast_nonneg _) hpos.le, (div_lt_one hpos).mpr hless⟩

/-- The whole part of the seed that is set after a call. -/
def RandomCall.seed (previous_seed : Int) : RandomCall → Int
  | rand => previous_seed
  | srand0 time => time.toInt
  | srand1 seed => truncated seed

/-- A call sets no seed that needs more than 53 bits. -/
def RandomCall.Small : RandomCall → Prop
  | rand => True
  | srand0 time => time.toInt.natAbs < 2 ^ 53
  | srand1 seed => |seed| < 2 ^ 53

theorem RandomCall.apply_seed (runtime : RandomRuntime) (call : RandomCall) (h : call.Small) :
    (call.apply runtime).random_seed.toInt = call.seed runtime.random_seed.toInt := by
  cases call with
  | rand => rfl
  | srand0 time => rfl
  | srand1 seed => exact truncated_toInt h

theorem run_seed (runtime : RandomRuntime) (calls : List RandomCall) (h : ∀ call ∈ calls, call.Small) :
    (run (fun runtime call => call.apply runtime) runtime calls).random_seed.toInt =
      calls.foldl RandomCall.seed runtime.random_seed.toInt := by
  induction calls generalizing runtime with
  | nil => rfl
  | cons call calls ih =>
    have hcall := call.apply_seed runtime (h call List.mem_cons_self)
    have hrun := ih (call.apply runtime) fun later hmem => h later (List.mem_cons_of_mem _ hmem)
    rw [hcall] at hrun
    exact hrun

/-- The draws behind a seed. -/
def draws (runtime : RandomRuntime) (seed : Rat) (count : Nat) : Rat := (qk_rand (drawn (qk_srand1 seed runtime).2 count)).1

theorem draws_eq {seed other : Rat} (h : truncated seed ≡ truncated other [ZMOD 2 ^ 31])
    (runtime later : RandomRuntime) : draws runtime seed = draws later other := by
  have hstart : qk_normalize_seed seed = qk_normalize_seed other := by
    refine UInt32.toNat_inj.mp (Int.ofNat_inj.mp ?_)
    rw [qk_normalize_seed_toNat, qk_normalize_seed_toNat]
    exact h
  have hstates : ∀ count, (drawn (qk_srand1 seed runtime).2 count).random_state =
      (drawn (qk_srand1 other later).2 count).random_state := by
    intro count
    induction count with
    | zero => exact hstart
    | succ count ih =>
      rw [drawn_succ, drawn_succ]
      exact congrArg qk_next_rand_state ih
  funext count
  unfold draws qk_rand
  rw [hstates]

/-- Behind a seed the states are those of the generator without overflow, reduced modulo 2^31, and the draws are in the
unit interval; the states make up one cycle; the seeds that are returned are the whole parts of those that were set; and
seeds with congruent whole parts give the same draws. -/
theorem random_generator :
    (∀ (runtime : RandomRuntime) (seed : Rat), |seed| < 2 ^ 53 → ∀ count,
        (drawn (qk_srand1 seed runtime).2 count).random_state.toNat < 2 ^ 31 ∧
          ((drawn (qk_srand1 seed runtime).2 count).random_state.toNat : Int) =
            (next 1103515245 12345)^[count] (truncated seed) % 2 ^ 31 ∧
          0 ≤ draws runtime seed count ∧ draws runtime seed count < 1) ∧
      SingleCycle qk_next_rand_state rand_states (2 ^ 31) ∧
      (∀ calls : List RandomCall, (∀ call ∈ calls, call.Small) →
        ∀ seed, (qk_srand1 seed (run RandomCall.apply .created calls)).1 = (calls.foldl RandomCall.seed 1 : Int)) ∧
      ∀ (runtime later : RandomRuntime) (seed other : Rat), |seed| < 2 ^ 53 → |other| < 2 ^ 53 →
        truncated seed ≡ truncated other [ZMOD 2 ^ 31] → draws runtime seed = draws later other := by
  refine ⟨fun runtime seed _ count => ⟨drawn_state_lt seed runtime count, ?_, qk_rand_bounds _⟩, rand_states_cycle,
    fun calls hsmall seed => ?_, fun runtime later seed other _ _ hsame => draws_eq hsame runtime later⟩
  · have hless := drawn_state_lt seed runtime count
    have hmod := drawn_state_modEq seed runtime count
    rw [Int.ModEq] at hmod
    omega
  · exact congrArg Int.cast (run_seed .created calls hsmall)

/-- The generator behind `srand(5)`. -/
theorem random_generator_five :
    (drawn (qk_srand1 5 .created).2 1).random_state.toNat < 2 ^ 31 ∧
      (qk_srand1 0 (run RandomCall.apply .created [.srand1 5, .rand])).1 = ((5 : Int) : Rat) ∧
      draws .created 5 = draws .created 2147483653 := by
  have hsmall : ∀ call ∈ [RandomCall.srand1 5, .rand], call.Small := by
    intro call hmem
    fin_cases hmem
    · change |(5 : Rat)| < 2 ^ 53
      decide
    · trivial
  obtain ⟨hstates, -, hseeds, hdraws⟩ := random_generator
  exact ⟨(hstates .created 5 (by decide) 1).1, hseeds _ hsmall 0, hdraws .created .created 5 2147483653 (by decide) (by decide)
    (by decide)⟩

/-- `srand(1.5)` is answered with 1 by the next call, and the seeds 0.5 and 0.5 - 2^31 have the whole parts 0 and
1 - 2^31. -/
theorem random_generator_whole_parts :
    ¬ (∀ (runtime : RandomRuntime) (seed next_seed : Rat), |seed| < 2 ^ 53 →
        (qk_srand1 next_seed (qk_srand1 seed runtime).2).1 = seed) ∧
      ¬ ∀ (runtime : RandomRuntime) (seed other : Rat), |seed| < 2 ^ 53 → |other| < 2 ^ 53 →
        (∃ factor : Int, seed - other = factor * 2 ^ 31) → draws runtime seed = draws runtime other := by
  refine ⟨fun h => ?_, fun h => ?_⟩
  · have hseed := h .created (3 / 2) 2 (by decide +kernel)
    exact absurd hseed (by decide +kernel)
  · have hsame := h .created (1 / 2) (1 / 2 - 2147483648) (by decide +kernel) (by decide +kernel) ⟨1, by decide +kernel⟩
    exact absurd (congrFun hsame 0) (by decide +kernel)

end quawk
