import Mathlib.Algebra.GroupWithZero.Nat
import Mathlib.Data.List.Basic
import Mathlib.Logic.Function.Basic

namespace GrowingTable

variable {α : Type} {fresh : α} {table : List α} {required_count index : Nat}

/-- What stands at an index of a table; beyond its end everything is fresh. -/
def entry (fresh : α) (table : List α) (index : Nat) : α := table[index]?.getD fresh

theorem entry_append_fresh (count : Nat) : entry fresh (table ++ List.replicate count fresh) = entry fresh table := by
  funext index
  unfold entry
  obtain hless | hle := Nat.lt_or_ge index table.length
  · rw [List.getElem?_append_left hless]
  · rw [List.getElem?_append_right hle, List.getElem?_eq_none hle, List.getElem?_replicate]
    split_ifs <;> rfl

theorem entry_set (h : index < table.length) (value : α) :
    entry fresh (table.set index value) = Function.update (entry fresh table) index value := by
  funext other
  unfold entry
  obtain rfl | hne := eq_or_ne other index
  · rw [Function.update_self, List.getElem?_set_self h]
    rfl
  · rw [Function.update_of_ne hne, List.getElem?_set_ne hne.symm]

/-- The doublings of a count until there is enough; it is as much as required where a doubling overflows. -/
def doubled_count (modulus required_count : Nat) : Nat → Nat → Nat
  | 0, new_count => new_count
  | turns + 1, new_count =>
    if new_count < required_count then
      let next_count := new_count * 2 % modulus
      if next_count ≤ new_count then required_count else doubled_count modulus required_count turns next_count
    else new_count

theorem le_doubled_count (modulus required_count : Nat) {turns new_count : Nat} (h : required_count ≤ new_count + turns) :
    required_count ≤ doubled_count modulus required_count turns new_count := by
  induction turns generalizing new_count with
  | zero => exact h
  | succ turns ih =>
    unfold doubled_count
    dsimp only
    split_ifs with hless hnext
    · exact Nat.le_refl _
    · exact ih (by omega)
    · exact Nat.le_of_not_lt hless

/-- From a power of two on, the doublings lead to powers of two, up to one that is enough. -/
theorem doubled_count_pow {modulus limit exponent : Nat} (hmodulus : 2 ^ limit < modulus) (hrequired : required_count ≤ 2 ^ limit)
    (hexponent : exponent ≤ limit) (turns : Nat) :
    ∃ doublings, exponent ≤ doublings ∧ doublings ≤ limit ∧
      doubled_count modulus required_count turns (2 ^ exponent) = 2 ^ doublings := by
  induction turns generalizing exponent with
  | zero => exact ⟨exponent, Nat.le_refl _, hexponent, rfl⟩
  | succ turns ih =>
    unfold doubled_count
    dsimp only
    by_cases hless : 2 ^ exponent < required_count
    · have hbelow : exponent < limit := (Nat.pow_lt_pow_iff_right (by decide)).mp (Nat.lt_of_lt_of_le hless hrequired)
      have hnext : 2 ^ (exponent + 1) ≤ 2 ^ limit := Nat.pow_le_pow_right (by decide) hbelow
      have hdouble : 2 ^ exponent * 2 % modulus = 2 ^ (exponent + 1) := by
        rw [← Nat.pow_succ]
        exact Nat.mod_eq_of_lt (Nat.lt_of_le_of_lt hnext hmodulus)
      have hmore : 2 ^ exponent < 2 ^ (exponent + 1) := Nat.pow_lt_pow_right (by decide) (Nat.lt_succ_self _)
      rw [if_pos hless, hdouble, if_neg (Nat.not_le.mpr hmore)]
      obtain ⟨doublings, hle, hlimit, hcount⟩ := ih hbelow
      exact ⟨doublings, by omega, hlimit, hcount⟩
    · exact ⟨exponent, Nat.le_refl _, hexponent, if_neg hless⟩

/-- A table that is made large enough by doubling its count from eight on, where there is room for the entries. The
bytes are counted modulo `modulus`: where their number wraps, the block is too small for the entries, and what is done to
it is not defined. -/
def ensure_capacity (modulus entry_size : Nat) (allocates : Nat → Bool) (fresh : α) (table : List α) (required_count : Nat) :
    Option (Bool × List α) :=
  if required_count ≤ table.length then some (true, table)
  else
    let old_count := table.length
    let new_count := doubled_count modulus required_count required_count (if old_count = 0 then 8 else old_count)
    let size := new_count * entry_size % modulus
    if allocates size then
      if size = new_count * entry_size then some (true, table ++ List.replicate (new_count - old_count) fresh) else none
    else some (false, table)

/-- The counts that a table has: none, or a power of two from eight up to a limit. -/
def Doubled (limit count : Nat) : Prop := count = 0 ∨ ∃ exponent, 3 ≤ exponent ∧ exponent ≤ limit ∧ count = 2 ^ exponent

variable (modulus entry_size : Nat) (allocates : Nat → Bool)

/-- A table that grows within the limit has the same entries, and it is large enough if it says so. -/
theorem ensure_capacity_spec {limit : Nat} (hlimit : 3 ≤ limit) (hmodulus : 2 ^ limit < modulus)
    (hsize : 2 ^ limit * entry_size < modulus) (htable : Doubled limit table.length) (hrequired : required_count ≤ 2 ^ limit) :
    ∃ ensured grown, ensure_capacity modulus entry_size allocates fresh table required_count = some (ensured, grown) ∧
      entry fresh grown = entry fresh table ∧ (ensured = true → required_count ≤ grown.length) ∧
      ((∀ size, allocates size = true) → ensured = true) ∧ Doubled limit grown.length := by
  have hstart : ∃ exponent, 3 ≤ exponent ∧ exponent ≤ limit ∧ (if table.length = 0 then 8 else table.length) = 2 ^ exponent := by
    obtain hnone | ⟨exponent, hleast, hle, hcount⟩ := htable
    · exact ⟨3, Nat.le_refl _, hlimit, if_pos hnone⟩
    · have hpos : table.length ≠ 0 := by rw [hcount]; exact Nat.ne_of_gt (Nat.two_pow_pos exponent)
      exact ⟨exponent, hleast, hle, (if_neg hpos).trans hcount⟩
  obtain ⟨exponent, hleast, hexponent, hstart⟩ := hstart
  obtain ⟨doublings, hmore, hdoublings, hcount⟩ := doubled_count_pow hmodulus hrequired hexponent required_count
  have henough := @le_doubled_count modulus required_count required_count (2 ^ exponent) (Nat.le_add_left _ _)
  rw [hcount] at henough
  have hbytes : 2 ^ doublings * entry_size % modulus = 2 ^ doublings * entry_size :=
    Nat.mod_eq_of_lt (Nat.lt_of_le_of_lt (Nat.mul_le_mul_right _ (Nat.pow_le_pow_right (by decide) hdoublings)) hsize)
  unfold ensure_capacity
  dsimp only
  rw [hstart, hcount, hbytes, if_pos (rfl : 2 ^ doublings * entry_size = _)]
  split_ifs with hlarge hroom
  · exact ⟨_, _, rfl, rfl, fun _ => hlarge, fun _ => rfl, htable⟩
  · have hlength : (table ++ List.replicate (2 ^ doublings - table.length) fresh).length = 2 ^ doublings := by
      rw [List.length_append, List.length_replicate]
      omega
    exact ⟨_, _, rfl, entry_append_fresh _, fun _ => Nat.le_trans henough (Nat.le_of_eq hlength.symm), fun _ => rfl,
      .inr ⟨doublings, by omega, hdoublings, hlength⟩⟩
  · exact ⟨_, _, rfl, rfl, nofun, fun hall => absurd (hall _) hroom, htable⟩

end GrowingTable
