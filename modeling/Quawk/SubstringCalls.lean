import Quawk.TextPointers

open StructuredCode.Code (emit)

namespace quawk

section Slices

variable (memory : PointerMemory) (pointer : StoragePointer) (chars : Text) (start length : Int)

/-- The characters from the position on are still there, and are not copied onto themselves. -/
def TailKept : Prop :=
  ∃ found, memory.read pointer = some found ∧
    characters_at found (from_position start) = characters_at chars (from_position start) ∧
    ¬memory.CopiesOntoItself pointer (start.toNat - 1) (found.length - (start.toNat - 1))

/-- What is there of a text gives the slice: the characters at its positions are the same, or, where the slice begins
before the text, so many characters as it is long are there no more than belong to it. -/
def SliceLeft (found : Text) : Prop :=
  if 1 ≤ start then characters_at found (in_slice start length) = characters_at chars (in_slice start length)
  else found.take length.toNat = chars.take (start + length - 1).toNat

/-- An empty slice needs nothing. -/
def SliceKept : Prop :=
  length ≤ 0 ∨ ∃ found, memory.read pointer = some found ∧ SliceLeft chars start length found ∧
    ¬memory.CopiesOntoItself pointer (start.toNat - 1) (min length.toNat (found.length - (start.toNat - 1)))

/-- An unchanged text gives the slice just where the part of the slice before the text does not lengthen it. -/
theorem slice_left_self {chars : Text} {start length : Int} (hlength : 0 < length) :
    SliceLeft chars start length chars ↔ 1 ≤ start ∨ chars.length < start + length ∨ chars = [] := by
  unfold SliceLeft
  split_ifs with hstart
  · exact iff_of_true rfl (.inl hstart)
  · rw [List.take_eq_take_iff, ← List.length_eq_zero_iff]
    omega

theorem copies_clamped {text : Text} {start_index : Nat} (length : Nat) :
    memory.CopiesOntoItself pointer (if text.length < start_index then text.length else start_index)
        (if text.length - (if text.length < start_index then text.length else start_index) < length then
          text.length - (if text.length < start_index then text.length else start_index) else length) ↔
      memory.CopiesOntoItself pointer start_index (min length (text.length - start_index)) := by
  unfold PointerMemory.CopiesOntoItself
  split_ifs <;> simp only [and_congr_right_iff] <;> omega

/-- What a part of a text in the scratch buffer is. -/
theorem store_part_gives {memory : PointerMemory} {pointer : StoragePointer} {text part : Text} {start_index length : Nat} :
    (∃ result after, memory.store_part pointer text start_index length = some (result, after) ∧
        after.read result = some part) ↔
      (text.drop start_index).take length = part ∧ ¬memory.CopiesOntoItself pointer start_index length := by
  unfold PointerMemory.store_part
  split_ifs with hcopies
  · exact iff_of_false (fun ⟨_, _, h, _⟩ => nomatch h) fun h => h.2 hcopies
  · constructor
    · rintro ⟨_, _, heq, hread⟩
      obtain ⟨rfl, rfl⟩ := Prod.mk.inj (Option.some.inj heq)
      rw [PointerMemory.read_scratch_pointer] at hread
      exact ⟨Option.some.inj hread, hcopies⟩
    · rintro ⟨rfl, -⟩
      exact ⟨_, _, rfl, PointerMemory.read_scratch_pointer _ _⟩

theorem qk_substr2_gives : (∃ result after, memory.qk_substr2 pointer start = some (result, after) ∧
    after.read result = some (characters_at chars (from_position start))) ↔ TailKept memory pointer chars start := by
  unfold PointerMemory.qk_substr2 TailKept
  cases hread : memory.read pointer with
  | none => simp
  | some found =>
    simp only [Option.bind_eq_bind, Option.bind_some, start_index_eq, Option.some.injEq, exists_eq_left']
    rw [store_part_gives, List.take_of_length_le (by rw [List.length_drop]), drop_clamped, characters_at_from,
      characters_at_from]
    have hcopies : memory.CopiesOntoItself pointer
          (if found.length < start.toNat - 1 then found.length else start.toNat - 1)
          (found.length - (if found.length < start.toNat - 1 then found.length else start.toNat - 1)) ↔
        memory.CopiesOntoItself pointer (start.toNat - 1) (found.length - (start.toNat - 1)) := by
      unfold PointerMemory.CopiesOntoItself
      split_ifs <;> simp only [and_congr_right_iff] <;> omega
    rw [hcopies]

/-- The slice of what is there is the slice of the text. -/
theorem slice_left_iff {found : Text} :
    (found.drop (start.toNat - 1)).take length.toNat = characters_at chars (in_slice start length) ↔
      SliceLeft chars start length found := by
  unfold SliceLeft
  split_ifs with hstart
  · rw [(slice_eq_iff found start length).mpr (.inl hstart)]
  · have hzero : start.toNat - 1 = 0 := by omega
    have hlast : (start + length).toNat - 1 = (start + length - 1).toNat := by omega
    rw [characters_at_slice, hzero, List.drop_zero, List.drop_zero, hlast]

theorem qk_substr3_gives : (∃ result after, memory.qk_substr3 pointer start length = some (result, after) ∧
    after.read result = some (characters_at chars (in_slice start length))) ↔
      SliceKept memory pointer chars start length := by
  unfold PointerMemory.qk_substr3 SliceKept
  by_cases hlength : length ≤ 0
  · have hempty : characters_at chars (in_slice start length) = [] := by
      rw [characters_at_slice, List.drop_eq_nil_of_le (by rw [List.length_take]; omega)]
    rw [if_pos hlength, hempty]
    exact iff_of_true ⟨_, _, rfl, rfl⟩ (.inl hlength)
  · rw [if_neg hlength]
    simp only [hlength, false_or]
    cases hread : memory.read pointer with
    | none => simp
    | some found =>
      simp only [Option.bind_eq_bind, Option.bind_some, start_index_eq, Option.some.injEq, exists_eq_left']
      rw [store_part_gives, take_clamped _ (List.length_drop ..), drop_clamped, copies_clamped,
        slice_left_iff]

end Slices

section Calls

variable {Number : Type} {runtime : PointerRuntime Number}

/-- The code runs and gives a pointer to this text. -/
def GivesText (runtime : PointerRuntime Number) (code : Code (PointerValue Number) StoragePointer) (memory : PointerMemory)
    (text : Text) : Prop :=
  ∃ pointer after, run_pointers runtime code memory = some (pointer, after) ∧ after.read pointer = some text

theorem inSignedRange_of_natAbs {value : Int} (h : value.natAbs < 2 ^ 53) : InSignedRange 64 value := by
  unfold InSignedRange
  omega

theorem run_fptosi {number : Number} {value : Int} (h : runtime.value_of number = value) (hsmall : value.natAbs < 2 ^ 53)
    (memory : PointerMemory) :
    run_pointers runtime (emit .fptosi_i64 (number, ())) memory = some (value, memory) := by
  rw [run_pointers_emit]
  change (fptosi 64 (runtime.value_of number)).map (fun whole => (whole, memory)) = _
  rw [h, fptosi_intCast (inSignedRange_of_natAbs hsmall)]
  rfl

/-- A call gives the characters at its positions exactly where, once the positions are evaluated, the storage that the
text argument points to has what it takes. A text outside the scratch buffer that is not touched has it, but for the part of
a slice before the text. -/
theorem substr_positions (text start length : Lowered (PointerValue Number)) {chars : Text} {m n : Int}
    {memory after_text after_start after_length : PointerMemory} {pointer : StoragePointer} {first count : Number}
    (htext : run_pointers runtime text.string memory = some (pointer, after_text))
    (hchars : after_text.read pointer = some chars)
    (hstart : run_pointers runtime start.numeric after_text = some (first, after_start))
    (hm : runtime.value_of first = m) (hm_small : m.natAbs < 2 ^ 53)
    (hlength : run_pointers runtime length.numeric after_start = some (count, after_length))
    (hn : runtime.value_of count = n) (hn_small : n.natAbs < 2 ^ 53) :
    (GivesText runtime (lower_runtime_substr_builtin [text, start]) memory (characters_at chars (from_position m)) ↔
        TailKept after_start pointer chars m) ∧
      (GivesText runtime (lower_runtime_substr_builtin [text, start, length]) memory
          (characters_at chars (in_slice m n)) ↔
        SliceKept after_length pointer chars m n) ∧
      ((∀ block, pointer ≠ .scratch block) →
        (after_start.read pointer = after_text.read pointer → TailKept after_start pointer chars m) ∧
        (after_length.read pointer = after_text.read pointer →
          (SliceKept after_length pointer chars m n ↔ SliceKeepsLength chars m n))) := by
  refine ⟨?_, ?_, fun houtside => ⟨fun hkept => ?_, fun hkept => ?_⟩⟩
  · rw [← qk_substr2_gives]
    unfold GivesText
    simp only [lower_runtime_substr_builtin]
    rw [run_pointers_bind, htext, Option.bind_some, run_pointers_bind, hstart, Option.bind_some, run_pointers_bind,
      run_fptosi hm hm_small, Option.bind_some, run_pointers_emit]
    exact Iff.rfl
  · rw [← qk_substr3_gives]
    unfold GivesText
    simp only [lower_runtime_substr_builtin]
    rw [run_pointers_bind, htext, Option.bind_some, run_pointers_bind, hstart, Option.bind_some, run_pointers_bind,
      run_fptosi hm hm_small, Option.bind_some, run_pointers_bind, hlength, Option.bind_some, run_pointers_bind,
      run_fptosi hn hn_small, Option.bind_some, run_pointers_emit]
    exact Iff.rfl
  · exact ⟨chars, hkept.trans hchars, rfl, fun h => houtside _ h.1⟩
  · unfold SliceKept SliceKeepsLength
    simp only [hkept, hchars, Option.some.injEq, exists_eq_left']
    have hcopies : ¬after_length.CopiesOntoItself pointer (m.toNat - 1) (min n.toNat (chars.length - (m.toNat - 1))) :=
      fun h => houtside _ h.1
    by_cases hempty : n ≤ 0
    · simp [hempty]
    · simp only [hempty, false_or, hcopies, not_false_eq_true, and_true]
      exact slice_left_self (by omega)

end Calls

/-- The whole numbers of a program; nothing but literals and texts is run here. -/
def literal_numbers : PointerRuntime Int where
  value_of value := value
  format_number _ value := (toString value).toList
  perform {_ _} f _ memory :=
    match f with
    | .number value => some (value.whole_number, memory)
    | _ => none

def text_literal (text : Text) : Lowered (PointerValue Int) where
  expression := .string_literal text
  numeric := emit (.number .zero) ()
  string := emit (.string_constant text) ()
  condition := emit (.truth true) ()

def number_literal (raw_text : Text) : Lowered (PointerValue Int) where
  expression := .numeric_literal raw_text
  numeric := emit (.number (.literal raw_text)) ()
  string := emit (.string_constant raw_text) ()
  condition := emit (.truth true) ()

/-- A scratch buffer with room for 63 characters. -/
def empty_memory : PointerMemory := ⟨0, 64, [], fun _ => none, []⟩

theorem substr_positions_inside :
    GivesText literal_numbers (lower_runtime_substr_builtin
      [text_literal ['h', 'e', 'l', 'l', 'o'], number_literal ['2'], number_literal ['3']]) empty_memory
        ['e', 'l', 'l'] := by
  have hcalls := substr_positions (text_literal ['h', 'e', 'l', 'l', 'o']) (number_literal ['2']) (number_literal ['3'])
    (show run_pointers literal_numbers (text_literal ['h', 'e', 'l', 'l', 'o']).string empty_memory = _ from rfl)
    (show PointerMemory.read empty_memory (.constant ['h', 'e', 'l', 'l', 'o']) = _ from rfl)
    (show run_pointers literal_numbers (number_literal ['2']).numeric empty_memory = _ from rfl)
    (show literal_numbers.value_of 2 = (2 : Int) from rfl) (by decide)
    (show run_pointers literal_numbers (number_literal ['3']).numeric empty_memory = _ from rfl)
    (show literal_numbers.value_of 3 = (3 : Int) from rfl) (by decide)
  exact hcalls.2.1.mpr (((hcalls.2.2 fun _ => nofun).2 rfl).mpr (.inl (by decide)))

/-- A slice that begins before the text has all of its length. -/
theorem substr_before_text :
    GivesText literal_numbers (lower_runtime_substr_builtin
        [text_literal ['h', 'e', 'l', 'l', 'o'], number_literal ['0'], number_literal ['2']]) empty_memory ['h', 'e'] ∧
      characters_at ['h', 'e', 'l', 'l', 'o'] (in_slice 0 2) = ['h'] :=
  ⟨⟨_, _, rfl, rfl⟩, rfl⟩

end quawk
