import Quawk.LoweringState
import Quawk.WholeTexts

namespace quawk

/-- Where a text is: in the scratch buffer of the runtime, which is used over and over, among the captured
strings, which are kept to the end, or in the program. -/
inductive Pointer where
  | scratch
  | captured (index : Nat)
  | constant (text : Text)
  deriving DecidableEq, Repr

structure TextMemory where
  scratch_buffer : Text
  captured_strings : List Text
  deriving DecidableEq, Repr

def TextMemory.read (memory : TextMemory) : Pointer → Text
  | .scratch => memory.scratch_buffer
  | .captured index => (memory.captured_strings[index]?).getD []
  | .constant text => text

def qk_capture_string_arg (text : Pointer) (memory : TextMemory) : Pointer × TextMemory :=
  (.captured memory.captured_strings.length,
    { memory with captured_strings := memory.captured_strings ++ [memory.read text] })

/-- What the rest of the program does between two steps: it overwrites the scratch buffer and captures more
strings. -/
structure OtherWork where
  scratch_buffer : Text
  captured_strings : List Text

def OtherWork.apply (work : OtherWork) (memory : TextMemory) : TextMemory :=
  ⟨work.scratch_buffer, memory.captured_strings ++ work.captured_strings⟩

/-- What an expression is lowered to: the pointer to a text, a string literal, whose number the compiler folds, or a
number. -/
inductive LoweredScalar where
  | string (pointer : Pointer)
  | literal (value : Text)
  | number (value : Int)
  deriving DecidableEq, Repr

section Passing

-- The number-to-text conversion under the current `CONVFMT`.
variable (format_number : Int → Text)

-- The double nearest to a number, and the one that is read from the digits the compiler writes for it.
variable (nearest written : Numeral.Value → Numeral.Value)

def format_to_scratch (value : Int) (memory : TextMemory) : Pointer × TextMemory :=
  (.scratch, { memory with scratch_buffer := format_number value })

/-- `lower_runtime_string_from_numeric_value`: format, then capture. -/
def string_from_numeric_value (value : Int) (memory : TextMemory) : Pointer × TextMemory :=
  let (formatted, memory) := format_to_scratch format_number value memory
  qk_capture_string_arg formatted memory

/-- `lower_runtime_argument_string` -/
def argument_string (value : LoweredScalar) (memory : TextMemory) : Pointer × TextMemory :=
  match value with
  | .string pointer => qk_capture_string_arg pointer memory
  | .literal value => qk_capture_string_arg (.constant value) memory
  | .number value => string_from_numeric_value format_number value memory

/-- The pointer a `return` stores, which is not captured again. -/
def return_string (value : LoweredScalar) (memory : TextMemory) : Pointer × TextMemory :=
  match value with
  | .string pointer => (pointer, memory)
  | .literal value => (.constant value, memory)
  | .number value => string_from_numeric_value format_number value memory

/-- `store_runtime_function_param_string`, for the assignment of a value to a parameter or local. -/
def store_param_string (value : LoweredScalar) (memory : TextMemory) : Pointer × TextMemory :=
  match value with
  | .string pointer => qk_capture_string_arg pointer memory
  | .literal value => qk_capture_string_arg (.constant value) memory
  | .number value =>
    let (pointer, memory) := string_from_numeric_value format_number value memory
    qk_capture_string_arg pointer memory

/-- The way of a value through the calls of a run, unfolded: it is where it is, or it is passed to a function,
assigned to some of its locals and passed on by what the function returns. A recursive call is one more
call. Other work is done before the function starts, before each assignment and before the return. -/
inductive Passage where
  | here
  | call (argument : Passage) (before : OtherWork) (locals : List OtherWork) (body : Passage)
    (before_return : OtherWork)

/-- Assign the value to one local after the other. -/
def pass_locals (locals : List OtherWork) (pointer : Pointer) (memory : TextMemory) : Pointer × TextMemory :=
  locals.foldl (fun (pointer, memory) work => store_param_string format_number (.string pointer) (work.apply memory))
    (pointer, memory)

/-- The value as the function has it: its parameter, then one local after the other. -/
def enter_function (argument : LoweredScalar) (before : OtherWork) (locals : List OtherWork) (memory : TextMemory) :
    Pointer × TextMemory :=
  let (parameter, memory) := argument_string format_number argument memory
  pass_locals format_number locals parameter (before.apply memory)

def Passage.run (value : LoweredScalar) (memory : TextMemory) : Passage → LoweredScalar × TextMemory
  | .here => (value, memory)
  | .call argument before locals body before_return =>
    let (argument, memory) := argument.run value memory
    let (local_value, memory) := enter_function format_number argument before locals memory
    let (returned, memory) := body.run (.string local_value) memory
    let (result, memory) := return_string format_number returned (before_return.apply memory)
    (.string result, memory)

/-- The string value of what an expression is lowered to. -/
def LoweredScalar.text (memory : TextMemory) : LoweredScalar → Text
  | .string pointer => memory.read pointer
  | .literal value => value
  | .number value => format_number value

/-- The numeric value of what an expression is lowered to: the runtime reads a text, the compiler a literal. -/
def LoweredScalar.numeric (memory : TextMemory) : LoweredScalar → Numeral.Value
  | .string pointer => nearest ( Numeral.qk_parse_awk_numeric_prefix (memory.read pointer))
  | .literal value => written ( Numeral.awk_numeric_prefix value)
  | .number value => nearest (.finite value)

/-- However it is passed, and whatever is done before it is used, the value keeps its text and its number. -/
def Transparent (value : LoweredScalar) (memory : TextMemory) : Prop :=
  ∀ passage : Passage, passage ≠ .here → ∀ work : OtherWork,
    let (result, after) := passage.run format_number value memory
    result.text format_number (work.apply after) = value.text format_number memory ∧
      result.numeric nearest written (work.apply after) = value.numeric nearest written memory

end Passing

/-- The pointer is to a captured string with this text. -/
def Holds (memory : TextMemory) (pointer : Pointer) (text : Text) : Prop :=
  ∃ index, pointer = .captured index ∧ memory.captured_strings[index]? = some text

theorem Holds.read {memory : TextMemory} {pointer : Pointer} {text : Text} (h : Holds memory pointer text) :
    memory.read pointer = text := by
  obtain ⟨index, rfl, hget⟩ := h
  simp [TextMemory.read, hget]

theorem Holds.append {memory : TextMemory} {pointer : Pointer} {text : Text} (h : Holds memory pointer text)
    (scratch_buffer : Text) (more : List Text) : Holds ⟨scratch_buffer, memory.captured_strings ++ more⟩ pointer text := by
  obtain ⟨index, rfl, hget⟩ := h
  have hlt := (List.getElem?_eq_some_iff.mp hget).1
  exact ⟨index, rfl, by rw [List.getElem?_append_left hlt, hget]⟩

theorem Holds.work {memory : TextMemory} {pointer : Pointer} {text : Text} (h : Holds memory pointer text)
    (work : OtherWork) : Holds (work.apply memory) pointer text := h.append _ _

theorem capture_holds (pointer : Pointer) (memory : TextMemory) :
    Holds (qk_capture_string_arg pointer memory).2 (qk_capture_string_arg pointer memory).1 (memory.read pointer) :=
  ⟨_, rfl, by simp [qk_capture_string_arg]⟩

section Passing

variable (format_number : Int → Text)

theorem argument_string_holds (value : LoweredScalar) (memory : TextMemory) :
    Holds (argument_string format_number value memory).2 (argument_string format_number value memory).1
      (value.text format_number memory) := by
  cases value with
  | string pointer => exact capture_holds pointer memory
  | literal value => exact capture_holds (.constant value) memory
  | number value => exact capture_holds .scratch { memory with scratch_buffer := format_number value }

theorem pass_locals_holds (locals : List OtherWork) {pointer : Pointer} {memory : TextMemory} {text : Text}
    (h : Holds memory pointer text) :
    Holds (pass_locals format_number locals pointer memory).2 (pass_locals format_number locals pointer memory).1
      text := by
  induction locals generalizing pointer memory with
  | nil => exact h
  | cons work locals ih =>
    have hstored := capture_holds pointer (work.apply memory)
    rw [(h.work work).read] at hstored
    exact ih hstored

theorem enter_function_holds (argument : LoweredScalar) (before : OtherWork) (locals : List OtherWork)
    (memory : TextMemory) :
    Holds (enter_function format_number argument before locals memory).2
      (enter_function format_number argument before locals memory).1 (argument.text format_number memory) :=
  pass_locals_holds format_number locals ((argument_string_holds format_number argument memory).work before)

/-- A value that was passed is a captured string with the text it had. -/
theorem passage_holds (passage : Passage) (value : LoweredScalar) (memory : TextMemory) :
    passage = .here ∨ ∃ pointer, (passage.run format_number value memory).1 = .string pointer ∧
      Holds (passage.run format_number value memory).2 pointer (value.text format_number memory) := by
  induction passage generalizing value memory with
  | here => exact Or.inl rfl
  | call argument before locals body before_return hargument hbody =>
    apply Or.inr
    have htext : (argument.run format_number value memory).1.text format_number
        (argument.run format_number value memory).2 = value.text format_number memory := by
      obtain rfl | ⟨pointer, hrun, hholds⟩ := hargument value memory
      · rfl
      · rw [hrun]
        exact hholds.read
    have hlocal := enter_function_holds format_number
      (argument.run format_number value memory).1 before locals (argument.run format_number value memory).2
    rw [htext] at hlocal
    have hreturned : ∃ pointer, (body.run format_number (.string (enter_function format_number
          (argument.run format_number value memory).1 before locals (argument.run format_number value memory).2).1)
          (enter_function format_number (argument.run format_number value memory).1 before locals
            (argument.run format_number value memory).2).2).1 = .string pointer ∧
        Holds (body.run format_number (.string (enter_function format_number
          (argument.run format_number value memory).1 before locals (argument.run format_number value memory).2).1)
          (enter_function format_number (argument.run format_number value memory).1 before locals
            (argument.run format_number value memory).2).2).2 pointer (value.text format_number memory) := by
      generalize enter_function format_number _ _ _ _ = entered at hlocal
      obtain rfl | ⟨pointer, hrun, hholds⟩ := hbody (.string entered.1) entered.2
      · exact ⟨_, rfl, hlocal⟩
      · rw [LoweredScalar.text, hlocal.read] at hholds
        exact ⟨pointer, hrun, hholds⟩
    obtain ⟨pointer, hrun, hholds⟩ := hreturned
    refine ⟨pointer, ?_, ?_⟩
    · simp only [Passage.run, hrun, return_string]
    · simp only [Passage.run, hrun, return_string]
      exact hholds.work before_return

variable (nearest written : Numeral.Value → Numeral.Value)

/-- A value that was passed is read as a text by the runtime. -/
theorem transparent_iff (value : LoweredScalar) (memory : TextMemory) :
    Transparent format_number nearest written value memory ↔
      nearest ( Numeral.qk_parse_awk_numeric_prefix (value.text format_number memory)) =
        value.numeric nearest written memory := by
  constructor
  · intro htransparent
    have hpassed := (htransparent (.call .here ⟨[], []⟩ [] .here ⟨[], []⟩) (fun heq => nomatch heq) ⟨[], []⟩).2
    have hparameter := (argument_string_holds format_number value memory).work ⟨[], []⟩
    have hread := ((hparameter.work ⟨[], []⟩).work ⟨[], []⟩).read
    rw [← hpassed]
    exact congrArg (fun text => nearest ( Numeral.qk_parse_awk_numeric_prefix text)) hread.symm
  · intro hparse passage hpassage work
    obtain hhere | ⟨result, hrun, hholds⟩ := passage_holds format_number passage value memory
    · exact absurd hhere hpassage
    · dsimp only
      rw [hrun]
      have hread := (hholds.work work).read
      refine ⟨hread, Eq.trans ?_ hparse⟩
      exact congrArg (fun text => nearest ( Numeral.qk_parse_awk_numeric_prefix text)) hread

end Passing

/-- What lowering takes for a text: parameters and locals, and calls of user functions, both as an argument or
a returned value and as a value assigned. -/
theorem passed_values_are_strings (state : LoweringState) :
    (∀ name, state.is_function_param_string name = true →
      runtime_expression_has_string_result state (.name name) = true ∧
        runtime_assignment_preserves_string state (.name name) = true) ∧
    (∀ function args, state.is_user_function function = true →
      runtime_expression_has_string_result state (.call function args) = true ∧
        runtime_assignment_preserves_string state (.call function args) = true) := by
  constructor
  · intro name hname
    simp [runtime_expression_has_string_result, runtime_assignment_preserves_string, hname]
  · intro function args hfunction
    simp [runtime_expression_has_string_result, runtime_assignment_preserves_string, hfunction]

theorem significant_digits_le {value : Nat} (hlow : 10 ^ 6 ≤ value) (hhigh : value < 10 ^ 16) :
    6 ≤ (significant_digits value).2 ∧
      (significant_digits value).1 * 10 ^ ((significant_digits value).2 - 5) ≤ 10 ^ 16 := by
  obtain ⟨hcount, -, hlast⟩ := digit_count_bounds hlow
  have hcount_le : digit_count value ≤ 16 := (Nat.length_toDigits_le_iff (by decide) (by decide)).mpr hhigh
  have hpower : 10 ^ digit_count value ≤ 10 ^ 16 := Nat.pow_le_pow_right (by decide) hcount_le
  have hcount_def : (Nat.toDigits 10 value).length = digit_count value := rfl
  simp only [significant_digits, hcount_def]
  split_ifs with hcarry
  · refine ⟨by dsimp only; omega, ?_⟩
    have hsplit : 10 ^ 5 * 10 ^ (digit_count value - 5) = 10 ^ digit_count value := by
      rw [← Nat.pow_add]
      congr 1
      omega
    dsimp only
    rw [hsplit]
    exact hpower
  · refine ⟨by dsimp only; omega, ?_⟩
    have hsplit : 10 ^ 6 * 10 ^ (digit_count value - 6) = 10 ^ digit_count value := by
      rw [← Nat.pow_add]
      congr 1
      omega
    have hquotient : value / 10 ^ (digit_count value - 6) < 10 ^ 6 := by
      rw [Nat.div_lt_iff_lt_mul (Nat.pow_pos (by decide)), hsplit]
      exact hlast
    have hround := (round_half_even_bounds value (10 ^ (digit_count value - 6))).2
    have hexponent : digit_count value - 1 - 5 = digit_count value - 6 := by omega
    dsimp only
    rw [hexponent]
    calc round_half_even value (10 ^ (digit_count value - 6)) * 10 ^ (digit_count value - 6)
        ≤ 10 ^ 6 * 10 ^ (digit_count value - 6) := Nat.mul_le_mul_right _ (by omega)
      _ ≤ 10 ^ 16 := hsplit ▸ hpower

/-- What the default `CONVFMT` writes for a number of more than six digits reads back as a multiple of ten. -/
theorem general_text_large {value : Int} (hlow : 10 ^ 6 ≤ value.natAbs) (hhigh : value.natAbs < 2 ^ 53) :
    ∃ other : Int, qk_parse_number_text (general_text value) = other ∧ 10 ∣ other ∧ other.natAbs ≤ 10 ^ 16 := by
  obtain ⟨hdigits, -, -⟩ := significant_digits_spec hlow
  obtain ⟨hexponent, hle⟩ := significant_digits_le hlow (Nat.lt_trans hhigh (by decide))
  have hdigits' : (Nat.toDigits 10 (significant_digits value.natAbs).1).length = 6 := hdigits
  have hcast : ((significant_digits value.natAbs).2 : Int) - (6 - 1 : Nat) =
      (((significant_digits value.natAbs).2 - 5 : Nat) : Int) := by omega
  have htens : 10 ∣ (significant_digits value.natAbs).1 * 10 ^ ((significant_digits value.natAbs).2 - 5) :=
    Nat.dvd_mul_left_of_dvd (dvd_pow_self 10 (by omega)) _
  generalize hwhole : (significant_digits value.natAbs).1 * 10 ^ ((significant_digits value.natAbs).2 - 5) = whole at hle htens
  have hparse : qk_parse_number_text (general_text value) = (if value < 0 then (-1 : Rat) else 1) * (whole : Nat) := by
    rw [general_text, if_neg (Nat.not_lt_of_le hlow)]
    dsimp only
    rw [parse_scientific_text, hdigits', hcast, zpow_natCast, ← hwhole]
    push_cast
    simp only [decide_eq_true_eq]
  by_cases hnegative : value < 0
  · refine ⟨-(whole : Int), ?_, Int.dvd_neg.mpr (Int.natCast_dvd_natCast.mpr htens), by omega⟩
    rw [hparse, if_pos hnegative]
    push_cast
    ring
  · refine ⟨whole, ?_, Int.natCast_dvd_natCast.mpr htens, by omega⟩
    rw [hparse, if_neg hnegative, one_mul]
    rfl

/-- The double nearest to a whole number is the number itself up to 53 bits, and for a multiple of ten up to 10^16. -/
def HoldsWholeNumbers (nearest : Numeral.Value → Numeral.Value) : Prop :=
  ∀ whole : Int, whole.natAbs < 2 ^ 53 ∨ 10 ∣ whole ∧ whole.natAbs ≤ 10 ^ 16 →
    nearest (.finite whole) = .finite whole

/-- The text of a number under the default `CONVFMT` reads back as the number where six digits are enough for it. -/
theorem general_text_reads_back {nearest : Numeral.Value → Numeral.Value} (hnearest : HoldsWholeNumbers nearest)
    {value : Int} (hsmall : value.natAbs < 2 ^ 53) :
    nearest ( Numeral.qk_parse_awk_numeric_prefix (general_text value)) = nearest (.finite value) ↔ SixDigits value := by
  rw [Numeral.parse_general_text, hnearest value (.inl hsmall), ← parse_general_text_iff]
  obtain hlow | hlow := Nat.lt_or_ge value.natAbs (10 ^ 6)
  · have hparse : qk_parse_number_text (general_text value) = value := by
      rw [general_text, if_pos hlow, parse_decimal_text]
    rw [hparse]
    exact iff_of_true (hnearest value (.inl hsmall)) rfl
  · obtain ⟨other, hparse, hdvd, hle⟩ := general_text_large hlow hsmall
    rw [hparse, hnearest other (.inr ⟨hdvd, hle⟩), Numeral.Value.finite.injEq]

/-- Calls are transparent for every text that the runtime has, for a literal exactly where the double the compiler
writes for it is the one the runtime reads from it, and for a number exactly where its text under the current `CONVFMT`
reads back as the number: under the default one, where six digits are enough for it. -/
theorem call_transparency (nearest written : Numeral.Value → Numeral.Value) (other_format : Text → Int → Option Text)
    (convfmt : ScalarKind) (memory : TextMemory) :
    (∀ pointer, Transparent (qk_format_number other_format convfmt) nearest written (.string pointer) memory) ∧
    (∀ text, Transparent (qk_format_number other_format convfmt) nearest written (.literal text) memory ↔
      written ( Numeral.awk_numeric_prefix text) = nearest ( Numeral.qk_parse_awk_numeric_prefix text)) ∧
    (∀ value : Int, Transparent (qk_format_number other_format convfmt) nearest written (.number value) memory ↔
      nearest ( Numeral.qk_parse_awk_numeric_prefix (qk_format_number other_format convfmt value)) =
        nearest (.finite value)) ∧
    (HoldsWholeNumbers nearest → ∀ value : Int, value.natAbs < 2 ^ 53 →
      (Transparent (qk_format_number other_format (.string QK_DEFAULT_CONVFMT)) nearest written (.number value) memory ↔
        SixDigits value)) := by
  refine ⟨fun pointer => ?_, fun text => ?_, fun value => ?_, fun hnearest value hsmall => ?_⟩
  · exact (transparent_iff _ nearest written (.string pointer) memory).mpr rfl
  · exact (transparent_iff _ nearest written (.literal text) memory).trans eq_comm
  · exact transparent_iff _ nearest written (.number value) memory
  · rw [← general_text_reads_back hnearest hsmall]
    exact transparent_iff _ nearest written (.number value) memory

/-- `5` comes back from a call. -/
theorem call_transparency_five :
    Transparent (qk_format_number (fun _ _ => none) (.string QK_DEFAULT_CONVFMT)) id id (.number 5) ⟨[], []⟩ :=
  ((call_transparency id id (fun _ _ => none) .none ⟨[], []⟩).2.2.2 (fun _ _ => rfl) 5 (by decide)).mpr
    ⟨5, 0, by decide, rfl⟩

/-- `1234567` comes back from a call as `1.23457e+06`, and `"0x10"` as a text that is read as 16. -/
theorem call_changes_number :
    ¬ Transparent (qk_format_number (fun _ _ => none) (.string QK_DEFAULT_CONVFMT)) id id (.number 1234567) ⟨[], []⟩ ∧
      ¬ Transparent (qk_format_number (fun _ _ => none) (.string QK_DEFAULT_CONVFMT)) id id
        (.literal ['0', 'x', '1', '0']) ⟨[], []⟩ := by
  constructor
  · intro htransparent
    have hparse := (transparent_iff _ id id (.number 1234567) ⟨[], []⟩).mp htransparent
    have hsix := (@general_text_reads_back id (fun _ _ => rfl) 1234567 (by decide)).mp hparse
    rw [six_digits_iff_dvd (by decide)] at hsix
    revert hsix
    decide +kernel
  · intro htransparent
    have hparse := (transparent_iff _ id id (.literal ['0', 'x', '1', '0']) ⟨[], []⟩).mp htransparent
    have hsame := (Numeral.same_number_iff ['0', 'x', '1', '0']).mp hparse.symm
    revert hsame
    unfold Numeral.SameNumber Numeral.ZerosAdded
    decide

end quawk
