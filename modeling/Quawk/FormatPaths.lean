import Quawk.Lib.CFormat
import Quawk.LowerStmt
import Quawk.NumeralSyntax
import Quawk.Substrings

namespace quawk

open CFormat (Conversion Piece Argument format_text conversions c_printf)

/-- An argument of a format, as a number and as text. -/
structure FormatArgument (Number : Type) where
  number : Number
  string : Text

/-- What becomes of a format with its arguments: a text, an error or a format that is given up, or a behaviour
the language does not define. -/
inductive Printed where
  | text (text : Text)
  | rejected
  | undefined
  deriving DecidableEq

section Paths

-- The value of a number that is finite, and what the C library writes for a number with a fraction.
variable {Number : Type} (value_of : Number → Option Rat) (double_text : Conversion → Number → Text)

/-- The conversion of a number to the C type `int`. -/
def to_int32 (number : Number) : Option Int := (value_of number).bind (fptosi 32)

/-- The operand a specifier takes of its argument, as `lower_runtime_printf_operand` evaluates it. -/
def printf_operand (specifier : Char) (argument : FormatArgument Number) : Option (Argument Number) :=
  if specifier = 's' then some (.string argument.string)
  else if ['c', 'd', 'i', 'o', 'u', 'x', 'X'].contains specifier then (to_int32 value_of argument.number).map .int
  else some (.double argument.number)

def printf_operands : List (Char × FormatArgument Number) → Option (List (Argument Number))
  | [] => some []
  | (specifier, argument) :: rest =>
    match printf_operand value_of specifier argument with
    | none => none
    | some operand => (printf_operands rest).map (operand :: ·)

/-- `printf` with a literal format: the specifiers are counted when the statement is lowered, and the format is
read by the C library. -/
def printf_literal (format : Text) (arguments : List (FormatArgument Number)) : Printed :=
  let specifiers := (printf_specifiers format.length format).filter (· ≠ '%')
  if specifiers.length ≠ arguments.length then .rejected
  else
    match printf_operands value_of (specifiers.zip arguments) with
    | none => .undefined
    | some operands =>
      match c_printf double_text format operands with
      | none => .undefined
      | some text => .text text

/-- The characters at which `qk_sprintf` ends a conversion. -/
def ends_segment (char : Char) : Bool :=
  ['a', 'A', 'c', 'd', 'e', 'E', 'f', 'g', 'G', 'i', 'o', 's', 'u', 'x', 'X'].contains char

/-- The text of one conversion, which the C library writes with one argument. -/
def qk_append_sprintf_segment (format_text : Text) (specifier : Char) (argument : FormatArgument Number) :
    Option Text :=
  if specifier = 's' then c_printf double_text format_text [.string argument.string]
  else if ['d', 'i', 'o', 'u', 'x', 'X', 'c'].contains specifier then
    match to_int32 value_of argument.number with
    | none => none
    | some value => c_printf double_text format_text [.int value]
  else c_printf double_text format_text [.double argument.number]

/-- The loop of `qk_sprintf`, with what it has written so far. -/
def sprintf_loop (written : Text) : Text → List (FormatArgument Number) → Printed
  | [], _ => .text written
  | '%' :: '%' :: rest, arguments => sprintf_loop (written ++ ['%']) rest arguments
  | char :: rest, arguments =>
    if char = '%' then
      match _hrest : rest.dropWhile fun char => !ends_segment char with
      | [] => .rejected
      | specifier :: after =>
        match arguments with
        | [] => .rejected
        | argument :: arguments =>
          let spec_text := '%' :: (rest.takeWhile (fun char => !ends_segment char) ++ [specifier])
          match qk_append_sprintf_segment value_of double_text spec_text specifier argument with
          | none => .undefined
          | some text => sprintf_loop (written ++ text) after arguments
    else sprintf_loop (written ++ [char]) rest arguments
termination_by format => format.length
decreasing_by
  · simp only [List.length_cons]
    omega
  · have hlength := List.length_dropWhile_le (fun char => !ends_segment char) rest
    rw [_hrest, List.length_cons] at hlength
    rw [List.length_cons]
    omega
  · simp

/-- The text of a C string, which ends before the first NUL. -/
def before_nul (text : Text) : Text := text.takeWhile (· ≠ '\x00')

/-- `qk_sprintf`, which gives the empty string where it gives up; `sprintf` captures its format, and so calls it
with the text of the format. -/
def qk_sprintf (format : Text) (arguments : List (FormatArgument Number)) : Printed :=
  match sprintf_loop value_of double_text [] format arguments with
  | .text text => .text (before_nul text)
  | .rejected => .rejected
  | .undefined => .undefined

/-- `printf` with a computed format, which is not captured: where its text is in the scratch buffer, as that of a
concatenation is, `qk_sprintf` empties it before it reads it. -/
def printf_computed (in_scratch : Bool) (format : Text) (arguments : List (FormatArgument Number)) : Printed :=
  qk_sprintf value_of double_text (if in_scratch then [] else format) arguments

end Paths

theorem specifier_ends_segment : ∀ specifier ∈ CFormat.SPECIFIERS, ends_segment specifier = true :=
  List.all_iff_forall_prop.mp (by decide)

theorem ends_segment_specifier {char : Char} (h : ends_segment char = true) : char ∈ CFormat.SPECIFIERS := by
  have hall : ∀ char ∈ ['a', 'A', 'c', 'd', 'e', 'E', 'f', 'g', 'G', 'i', 'o', 's', 'u', 'x', 'X'],
      char ∈ CFormat.SPECIFIERS := List.all_iff_forall_prop.mp (by decide)
  exact hall char (by simpa [ends_segment] using h)

theorem specifier_is_no_decimal : ∀ specifier ∈ CFormat.SPECIFIERS, is_decimal_digit specifier = false :=
  List.all_iff_forall_prop.mp (by decide)

theorem specifier_is_specifier : ∀ specifier ∈ CFormat.SPECIFIERS, is_format_specifier specifier = true :=
  List.all_iff_forall_prop.mp (by decide)

theorem skip_precision_specifier {specifier : Char} (h : specifier ∈ CFormat.SPECIFIERS) (after : Text) :
    skip_precision (specifier :: after) = specifier :: after := by
  unfold skip_precision
  split
  · next heq => exact absurd (List.cons.inj heq).1 (CFormat.specifier_is_no_dot specifier h)
  · rfl

/-- The options of a conversion are skipped, unless its precision is a dot alone. -/
theorem match_specifier_conversion (conversion : Conversion) (after : Text) :
    match_specifier (conversion.options_text ++ conversion.specifier :: after) =
      if conversion.has_empty_precision then none else some (conversion.specifier, after) := by
  have hdigit := specifier_is_no_decimal _ conversion.known
  have hknown := specifier_is_specifier _ conversion.known
  obtain ⟨-, hflags⟩ := CFormat.takeWhile_dropWhile_append _ conversion.flags_are_flags
    (conversion.head_after_flags after)
  obtain ⟨-, hwidth⟩ := CFormat.takeWhile_dropWhile_append _
    (fun char hchar => Numeral.decimal_of_isDigit (conversion.width_digits char hchar))
    (conversion.head_after_width after (by decide) specifier_is_no_decimal)
  have htext : conversion.options_text ++ conversion.specifier :: after = conversion.flags ++
      (conversion.width ++ (CFormat.precision_text conversion.precision ++ conversion.specifier :: after)) := by
    simp [Conversion.options_text]
  have hdrop : (conversion.flags ++ (conversion.width ++ (CFormat.precision_text conversion.precision ++
      conversion.specifier :: after))).dropWhile is_format_flag = _ := hflags
  rw [htext, match_specifier, hdrop, hwidth]
  rcases hprecision : conversion.precision with _ | digits
  · have hsome : conversion.has_empty_precision = false := by simp [Conversion.has_empty_precision, hprecision]
    simp [CFormat.precision_text, skip_precision_specifier conversion.known, hknown, hsome]
  · have hdigits := conversion.precision_digits digits hprecision
    obtain ⟨htake, hrest⟩ := CFormat.takeWhile_dropWhile_append (conversion.specifier :: after)
      (fun char hchar => Numeral.decimal_of_isDigit (hdigits char hchar)) (by simp [hdigit])
    cases digits with
    | nil =>
      have hempty : conversion.has_empty_precision = true := by simp [Conversion.has_empty_precision, hprecision]
      simp [CFormat.precision_text, skip_precision, List.span_eq_takeWhile_dropWhile, hdigit, hempty,
        show is_format_specifier '.' = false by decide]
    | cons digit digits =>
      have hsome : conversion.has_empty_precision = false := by simp [Conversion.has_empty_precision, hprecision]
      simp only [CFormat.precision_text, skip_precision, List.cons_append, List.span_eq_takeWhile_dropWhile]
      rw [List.cons_append] at htake hrest
      simp [htake, hrest, hknown, hsome]

theorem printf_specifiers_skip {front : Text} (hfront : ∀ char ∈ front, char ≠ '%') (rest : Text) {fuel : Nat}
    (hfuel : front.length ≤ fuel) :
    printf_specifiers fuel (front ++ rest) = printf_specifiers (fuel - front.length) rest := by
  induction front generalizing fuel with
  | nil => rfl
  | cons char front ih =>
    obtain ⟨fuel, rfl⟩ : ∃ less, fuel = less + 1 := ⟨fuel - 1, by rw [List.length_cons] at hfuel; omega⟩
    rw [List.length_cons] at hfuel
    rw [List.cons_append, printf_specifiers, List.length_cons, Nat.add_sub_add_right]
    · exact ih (fun other hmem => hfront other (List.mem_cons_of_mem _ hmem)) (by omega)
    · intro hchar
      exact hfront char List.mem_cons_self hchar

/-- The specifiers `PRINTF_SPEC_PATTERN` finds in a format of C, apart from `%%`. -/
def counted_specifiers (pieces : List Piece) : List Char :=
  ((conversions pieces).filter fun conversion => !conversion.has_empty_precision).map Conversion.specifier

theorem printf_specifiers_format (pieces : List Piece) {fuel : Nat} (hfuel : (format_text pieces).length ≤ fuel) :
    (printf_specifiers fuel (format_text pieces)).filter (· ≠ '%') = counted_specifiers pieces := by
  induction pieces generalizing fuel with
  | nil =>
    cases fuel <;> rfl
  | cons piece pieces ih =>
    rw [CFormat.format_text_cons] at hfuel ⊢
    rw [List.length_append] at hfuel
    cases piece with
    | literal char hchar =>
      obtain ⟨fuel, rfl⟩ : ∃ less, fuel = less + 1 := ⟨fuel - 1, by simp [Piece.text] at hfuel; omega⟩
      change (printf_specifiers (fuel + 1) (char :: format_text pieces)).filter _ = _
      rw [printf_specifiers]
      · exact ih (by simp [Piece.text] at hfuel; omega)
      · exact hchar
    | percent =>
      obtain ⟨fuel, rfl⟩ : ∃ less, fuel = less + 1 := ⟨fuel - 1, by simp [Piece.text] at hfuel; omega⟩
      have hmatch : match_specifier ('%' :: format_text pieces) = some ('%', format_text pieces) := by
        simp [match_specifier, skip_precision, show is_format_flag '%' = false by decide,
          show is_decimal_digit '%' = false by decide, show is_format_specifier '%' = true by decide]
      change (printf_specifiers (fuel + 1) ('%' :: '%' :: format_text pieces)).filter _ = _
      rw [printf_specifiers, hmatch]
      exact ih (by simp [Piece.text] at hfuel; omega)
    | conversion inner =>
      obtain ⟨fuel, rfl⟩ : ∃ less, fuel = less + 1 := ⟨fuel - 1, by simp [Piece.text] at hfuel; omega⟩
      have htext : (Piece.conversion inner).text ++ format_text pieces =
          '%' :: (inner.options_text ++ inner.specifier :: format_text pieces) := by
        simp [Piece.text]
      have hpercent := CFormat.specifier_is_no_percent _ inner.known
      have hlength : inner.options_text.length + 1 + (format_text pieces).length ≤ fuel := by
        simp [Piece.text] at hfuel
        omega
      rw [htext, printf_specifiers, match_specifier_conversion]
      by_cases hempty : inner.has_empty_precision = true
      · rw [if_pos hempty]
        have hfront : ∀ char ∈ inner.options_text ++ [inner.specifier], char ≠ '%' := fun char hchar =>
          (List.mem_append.mp hchar).elim (inner.options_no_percent char) fun hlast =>
            List.mem_singleton.mp hlast ▸ hpercent
        have hskip := printf_specifiers_skip hfront (format_text pieces)
          (show _ ≤ fuel by rw [List.length_append, List.length_singleton]; omega)
        rw [List.append_assoc, List.singleton_append] at hskip
        rw [hskip, ih (by rw [List.length_append, List.length_singleton]; omega)]
        simp [counted_specifiers, conversions, hempty]
      · rw [if_neg hempty]
        simp only [List.filter_cons, hpercent, ne_eq, not_false_eq_true, decide_true, if_true]
        rw [ih (by omega)]
        simp [counted_specifiers, conversions, hempty]

end quawk
