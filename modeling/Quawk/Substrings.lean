import Mathlib.Data.List.Basic
import Mathlib.Algebra.Field.Rat
import Quawk.Execution

namespace quawk

/-- The whole part of a number. -/
def truncated (value : Rat) : Int := value.num.tdiv value.den

/-- The numbers of a signed type with this many bits. -/
def InSignedRange (bits : Nat) (value : Int) : Prop := -2 ^ (bits - 1) ≤ value ∧ value < 2 ^ (bits - 1)

instance (bits : Nat) (value : Int) : Decidable (InSignedRange bits value) := inferInstanceAs (Decidable (_ ∧ _))

/-- What `fptosi` makes of a number; it is undefined where the whole part is not in the range of the type. -/
def fptosi (bits : Nat) (value : Rat) : Option Int :=
  if InSignedRange bits (truncated value) then some (truncated value) else none

theorem truncated_intCast (value : Int) : truncated value = value := by
  simp [truncated]

theorem fptosi_intCast {bits : Nat} {value : Int} (h : InSignedRange bits value) :
    fptosi bits value = some value := by
  rw [fptosi, truncated_intCast, if_pos h]

structure Scratch where
  scratch_buffer : Text
  scratch_capacity : Nat

namespace Scratch

variable (scratch : Scratch)

/-- Keep the first characters of a text; the buffer only grows. -/
def qk_store_scratch (text : Text) (length : Nat) : Scratch :=
  ⟨text.take length, if scratch.scratch_capacity < length + 1 then length + 1 else scratch.scratch_capacity⟩

@[simp]
theorem qk_store_scratch_buffer (text : Text) (length : Nat) :
    (scratch.qk_store_scratch text length).scratch_buffer = text.take length := rfl

def qk_substr2 (text : Option Text) (start : Int) : Text × Scratch :=
  match text with
  | none => ([], scratch)
  | some text =>
    let length := text.length
    let start_index := if start ≤ 1 then 0 else (start - 1).toNat
    let start_index := if length < start_index then length else start_index
    let stored := scratch.qk_store_scratch (text.drop start_index) (length - start_index)
    (stored.scratch_buffer, stored)

def qk_substr3 (text : Option Text) (start length : Int) : Text × Scratch :=
  match text with
  | none => ([], scratch)
  | some text =>
    if length ≤ 0 then ([], scratch)
    else
      let text_length := text.length
      let start_index := if start ≤ 1 then 0 else (start - 1).toNat
      let start_index := if text_length < start_index then text_length else start_index
      let slice_length := length.toNat
      let slice_length := if text_length - start_index < slice_length then text_length - start_index else slice_length
      let stored := scratch.qk_store_scratch (text.drop start_index) slice_length
      (stored.scratch_buffer, stored)

end Scratch

/-- The characters of a text at the positions that are chosen; the first position is 1. -/
def characters_at (text : Text) (chosen : Int → Bool) : Text :=
  (text.zipIdx 1).filterMap fun (char, position) => if chosen position then some char else none

theorem zipIdx_filterMap_interval {chosen : Int → Bool} {low high : Nat} (text : Text) (first : Nat)
    (hchosen : ∀ position, first ≤ position → position < first + text.length →
      (chosen position = true ↔ low ≤ position ∧ position < high)) :
    ((text.zipIdx first).filterMap fun (char, position) => if chosen position then some char else none) =
      (text.take (high - first)).drop (low - first) := by
  induction text generalizing first with
  | nil => simp
  | cons char text ih =>
    have hrest := ih (first + 1) fun position hposition hbefore =>
      hchosen position (by omega) (by rw [List.length_cons]; omega)
    have hfirst := hchosen first le_rfl (by rw [List.length_cons]; omega)
    rw [List.zipIdx_cons, List.filterMap_cons, hrest]
    by_cases hhigh : first < high
    · obtain ⟨count, hcount⟩ : ∃ count, high - first = count + 1 := ⟨high - first - 1, by omega⟩
      have hcount' : high - (first + 1) = count := by omega
      by_cases hlow : low ≤ first
      · have hzero : low - first = 0 := by omega
        have hzero' : low - (first + 1) = 0 := by omega
        simp [hfirst.mpr ⟨hlow, hhigh⟩, hcount, hcount', hzero, hzero']
      · obtain ⟨skip, hskip⟩ : ∃ skip, low - first = skip + 1 := ⟨low - first - 1, by omega⟩
        have hskip' : low - (first + 1) = skip := by omega
        have hnot : ¬chosen first = true := fun h => hlow (hfirst.mp h).1
        simp [hnot, hcount, hcount', hskip, hskip']
    · have hzero : high - first = 0 := by omega
      have hzero' : high - (first + 1) = 0 := by omega
      have hnot : ¬chosen first = true := fun h => hhigh (hfirst.mp h).2
      simp [hnot, hzero, hzero']

/-- The positions from `start` on, `length` of them. -/
def in_slice (start length : Int) (position : Int) : Bool := start ≤ position && position < start + length

def from_position (start : Int) (position : Int) : Bool := start ≤ position

theorem characters_at_slice (text : Text) (start length : Int) :
    characters_at text (in_slice start length) =
      (text.take ((start + length).toNat - 1)).drop (start.toNat - 1) :=
  zipIdx_filterMap_interval text 1 fun position _ _ => by
    simp only [in_slice, Bool.and_eq_true, decide_eq_true_eq]
    omega

theorem characters_at_from (text : Text) (start : Int) :
    characters_at text (from_position start) = text.drop (start.toNat - 1) := by
  have hslice : characters_at text (from_position start) =
      (text.take (text.length + 1 - 1)).drop (start.toNat - 1) :=
    zipIdx_filterMap_interval text 1 fun position _ hbefore => by
      simp only [from_position, decide_eq_true_eq]
      omega
  rw [hslice, Nat.add_sub_cancel, List.take_length]

theorem drop_clamped (text : Text) (index : Nat) :
    text.drop (if text.length < index then text.length else index) = text.drop index := by
  split_ifs with hbeyond
  · rw [List.drop_length, List.drop_eq_nil_of_le hbeyond.le]
  · rfl

theorem take_clamped {text : Text} {available : Nat} (count : Nat) (h : text.length = available) :
    text.take (if available < count then available else count) = text.take count := by
  subst h
  split_ifs with hlong
  · rw [List.take_length, List.take_of_length_le hlong.le]
  · rfl

theorem start_index_eq (start : Int) : (if start ≤ 1 then 0 else (start - 1).toNat) = start.toNat - 1 := by
  split_ifs <;> omega

theorem qk_substr2_text (scratch : Scratch) (text : Text) (start : Int) :
    (scratch.qk_substr2 (some text) start).1 = characters_at text (from_position start) := by
  simp only [Scratch.qk_substr2, Scratch.qk_store_scratch_buffer, start_index_eq]
  rw [List.take_of_length_le (by rw [List.length_drop]), drop_clamped, characters_at_from]

theorem qk_substr3_text (scratch : Scratch) (text : Text) (start length : Int) :
    (scratch.qk_substr3 (some text) start length).1 = (text.drop (start.toNat - 1)).take length.toNat := by
  simp only [Scratch.qk_substr3, start_index_eq]
  by_cases hempty : length ≤ 0
  · have hzero : length.toNat = 0 := by omega
    rw [if_pos hempty, hzero, List.take_zero]
  · rw [if_neg hempty]
    simp only [Scratch.qk_store_scratch_buffer]
    rw [take_clamped _ (List.length_drop ..), drop_clamped]

/-- The slice begins in the text, or is empty, or goes beyond the end of the text. -/
def SliceKeepsLength (text : Text) (start length : Int) : Prop :=
  1 ≤ start ∨ length ≤ 0 ∨ text.length < start + length ∨ text = []

theorem slice_eq_iff (text : Text) (start length : Int) :
    (text.drop (start.toNat - 1)).take length.toNat = characters_at text (in_slice start length) ↔
      SliceKeepsLength text start length := by
  rw [characters_at_slice, List.drop_take, List.take_eq_take_iff, List.length_drop, SliceKeepsLength,
    ← List.length_eq_zero_iff]
  omega

end quawk
