import Quawk.FormatTexts

namespace quawk

open CFormat (Conversion Piece Argument format_text conversions c_printf)

section Pieces

variable {Number : Type} {value_of : Number → Option Rat} {double_text : Conversion → Number → Text}

theorem before_nul_eq_self {text : Text} : before_nul text = text ↔ CFormat.NoNul text := by
  rw [before_nul, List.takeWhile_eq_self_iff, CFormat.NoNul]
  simp only [ne_eq, decide_not, Bool.not_eq_eq_eq_not, Bool.not_true, decide_eq_false_iff_not]
  exact ⟨fun h hmem => h _ hmem rfl, fun h char hmem heq => h (heq ▸ hmem)⟩

variable (value_of double_text)

/-- What a conversion writes where whole numbers are written exactly, however large they are. -/
def exact_text (conversion : Conversion) (argument : FormatArgument Number) : Option Text :=
  if conversion.is_integer = true ∧ conversion.specifier ≠ 'c' then
    (value_of argument.number).map fun value => conversion.integer_text (truncated value)
  else conversion_text value_of double_text conversion argument

/-- The integer conversions are given whole numbers, the unsigned ones no negative ones. -/
def WholeNumbers (pieces : List Piece) (arguments : List (FormatArgument Number)) : Prop :=
  ∀ pair ∈ (conversions pieces).zip arguments, pair.1.is_integer = true → pair.1.specifier ≠ 'c' →
    ∃ value : Int, value_of pair.2.number = some (value : Rat) ∧ value.natAbs < 2 ^ 53 ∧
      (pair.1.is_signed = false → 0 ≤ value)

variable {value_of double_text}

theorem int_reading_of_range {conversion : Conversion} {value : Int} (hrange : InSignedRange 32 value)
    (hsign : conversion.is_signed = false → 0 ≤ value) : conversion.int_reading value = value := by
  unfold Conversion.int_reading
  unfold InSignedRange at hrange
  split_ifs with hsigned
  · rfl
  · have hnonneg := hsign (by simpa using hsigned)
    omega

theorem conversion_text_exact {conversion : Conversion} {argument : FormatArgument Number}
    (hfits : Fits value_of conversion argument)
    (hwhole : conversion.is_integer = true → conversion.specifier ≠ 'c' → ∃ value : Int,
      value_of argument.number = some (value : Rat) ∧ value.natAbs < 2 ^ 53 ∧
        (conversion.is_signed = false → 0 ≤ value)) :
    conversion_text value_of double_text conversion argument = exact_text value_of double_text conversion argument := by
  unfold exact_text
  split_ifs with hint
  · obtain ⟨value, hvalue, -, hsign⟩ := hwhole hint.1 hint.2
    obtain ⟨number, hnumber, hrange⟩ := hfits hint.1
    rw [hvalue] at hnumber
    cases hnumber
    rw [truncated_intCast] at hrange
    have hspecifier : ['c', 'd', 'i', 'o', 'u', 'x', 'X'].contains conversion.specifier = true := hint.1
    have hstring : conversion.specifier ≠ 's' := fun heq => by rw [heq] at hspecifier; cases hspecifier
    have hreading := int_reading_of_range hrange hsign
    rw [conversion_text, printf_operand, if_neg hstring, if_pos hspecifier, to_int32, hvalue, Option.bind_some,
      fptosi_intCast hrange]
    simp [Conversion.output, hint.1, hint.2, hreading, truncated_intCast]
  · rfl

theorem format_text_injective {pieces others : List Piece} (h : format_text pieces = format_text others) :
    pieces = others := by
  have hread := CFormat.read_pieces_format pieces
  rw [h, CFormat.read_pieces_format] at hread
  exact (Option.some.inj hread).symm

theorem qk_sprintf_nil (arguments : List (FormatArgument Number)) :
    qk_sprintf value_of double_text [] arguments = .text [] := by
  rw [qk_sprintf, sprintf_loop]
  rfl

/-- Whole numbers are printed exactly if they fit into an `int`; a literal format must have no precision that is a
dot alone, and the text of a computed one ends with the first NUL. A format in the scratch buffer is emptied before it
is read. -/
theorem integer_conversions_exact (in_scratch : Bool) {pieces : List Piece} {arguments : List (FormatArgument Number)}
    (hlength : (conversions pieces).length = arguments.length) (hwhole : WholeNumbers value_of pieces arguments)
    (hformat : CFormat.NoNul (format_text pieces)) (hplain : PlainTexts double_text arguments) :
    ((∃ text, pieces_text (exact_text value_of double_text) pieces arguments = some text ∧
        printf_literal value_of double_text (format_text pieces) arguments = .text text) ↔
      FullPrecisions pieces ∧ ∀ pair ∈ (conversions pieces).zip arguments, Fits value_of pair.1 pair.2) ∧
    ((∃ text, pieces_text (exact_text value_of double_text) pieces arguments = some text ∧
        qk_sprintf value_of double_text (format_text pieces) arguments = .text text) ↔
      ∀ pair ∈ (conversions pieces).zip arguments, Fits value_of pair.1 pair.2 ∧ WritesNoNul value_of pair.1 pair.2) ∧
    ((∃ text, pieces_text (exact_text value_of double_text) pieces arguments = some text ∧
        printf_computed value_of double_text in_scratch (format_text pieces) arguments = .text text) ↔
      (in_scratch = false ∧ ∀ pair ∈ (conversions pieces).zip arguments,
        Fits value_of pair.1 pair.2 ∧ WritesNoNul value_of pair.1 pair.2) ∨
      (in_scratch = true ∧ WritesNothing (exact_text value_of double_text) pieces arguments)) := by
  have hexact (hfits : ∀ pair ∈ (conversions pieces).zip arguments, Fits value_of pair.1 pair.2) :
      pieces_text (conversion_text value_of double_text) pieces arguments =
        pieces_text (exact_text value_of double_text) pieces arguments :=
    pieces_text_congr fun pair hpair => conversion_text_exact (hfits pair hpair) (hwhole pair hpair)
  have hsome (hfits : ∀ pair ∈ (conversions pieces).zip arguments, Fits value_of pair.1 pair.2) :
      ∃ text, pieces_text (conversion_text value_of double_text) pieces arguments = some text :=
    Option.isSome_iff_exists.mp ((pieces_text_fits hlength.le).mpr hfits)
  have hsprintf : (∃ text, pieces_text (exact_text value_of double_text) pieces arguments = some text ∧
      qk_sprintf value_of double_text (format_text pieces) arguments = .text text) ↔
      ∀ pair ∈ (conversions pieces).zip arguments, Fits value_of pair.1 pair.2 ∧ WritesNoNul value_of pair.1 pair.2 := by
    rw [qk_sprintf_pieces pieces arguments hlength.le]
    constructor
    · rintro ⟨text, hexact_text, hprinted⟩
      cases htext : pieces_text (conversion_text value_of double_text) pieces arguments with
      | none => rw [htext] at hprinted; cases hprinted
      | some written =>
        rw [htext] at hprinted
        have hfits := (pieces_text_fits hlength.le).mp (Option.isSome_of_eq_some htext)
        rw [← hexact hfits, htext] at hexact_text
        cases hexact_text
        have hcharacters := (written_noNul hplain hformat htext hlength.le).mp
          (before_nul_eq_self.mp (Printed.text.inj hprinted))
        exact fun pair hpair => ⟨hfits pair hpair, hcharacters pair hpair⟩
    · intro hpairs
      obtain ⟨text, htext⟩ := hsome fun pair hpair => (hpairs pair hpair).1
      refine ⟨text, (hexact fun pair hpair => (hpairs pair hpair).1).symm.trans htext, ?_⟩
      rw [htext]
      exact congrArg Printed.text (before_nul_eq_self.mpr
        ((written_noNul hplain hformat htext hlength.le).mpr fun pair hpair => (hpairs pair hpair).2))
  refine ⟨?_, hsprintf, ?_⟩
  · constructor
    · rintro ⟨text, -, hprinted⟩
      obtain ⟨others, hothers, hfull, -, htext⟩ := printf_literal_text hprinted
      obtain rfl := format_text_injective hothers
      exact ⟨hfull, (pieces_text_fits hlength.le).mp (Option.isSome_of_eq_some htext)⟩
    · rintro ⟨hfull, hfits⟩
      obtain ⟨text, htext⟩ := hsome hfits
      refine ⟨text, (hexact hfits).symm.trans htext, ?_⟩
      rw [printf_literal_pieces hfull hlength, htext]
  · cases in_scratch with
    | false => simpa [printf_computed] using hsprintf
    | true => simp [printf_computed, qk_sprintf_nil, pieces_text_eq_nil hlength]

end Pieces

/-- A conversion with nothing but a specifier. -/
def plain_conversion (specifier : Char) (known : specifier ∈ CFormat.SPECIFIERS) : Conversion where
  flags := []
  width := []
  precision := none
  specifier := specifier
  flags_are_flags := by simp
  width_digits := by simp
  width_head := by simp
  precision_digits := by simp
  known := known

/-- `%d` -/
def percent_d : List Piece := [.conversion (plain_conversion 'd' (by decide))]

/-- A number as an argument; its text is not used here. -/
def number_argument (value : Rat) : FormatArgument Rat := ⟨value, []⟩

theorem number_arguments_plain (value : Rat) :
    PlainTexts (fun (_ : Conversion) (_ : Rat) => ([] : Text)) [number_argument value] :=
  ⟨by simp [number_argument, CFormat.NoNul], by simp [CFormat.NoNul]⟩

theorem integer_conversions_exact_small :
    (∃ text, pieces_text (exact_text some fun _ _ => []) percent_d [number_argument (-7)] = some text ∧
        printf_literal some (fun _ _ => []) (format_text percent_d) [number_argument (-7)] = .text text) ∧
      (∃ text, pieces_text (exact_text some fun _ _ => []) percent_d [number_argument (-7)] = some text ∧
        qk_sprintf some (fun _ _ => []) (format_text percent_d) [number_argument (-7)] = .text text) ∧
      ∃ text, pieces_text (exact_text some fun _ _ => []) percent_d [number_argument (-7)] = some text ∧
        printf_computed some (fun _ _ => []) false (format_text percent_d) [number_argument (-7)] = .text text := by
  have hwhole : WholeNumbers some percent_d [number_argument (-7)] := fun pair hpair _ _ => by
    obtain rfl := List.mem_singleton.mp hpair
    exact ⟨-7, rfl, by decide, fun h => by cases h⟩
  have hfits : ∀ pair ∈ (conversions percent_d).zip [number_argument (-7)], Fits some pair.1 pair.2 := by
    intro pair hpair _
    obtain rfl := List.mem_singleton.mp hpair
    exact ⟨-7, rfl, by decide⟩
  have hpairs : ∀ pair ∈ (conversions percent_d).zip [number_argument (-7)],
      Fits some pair.1 pair.2 ∧ WritesNoNul some pair.1 pair.2 := by
    refine fun pair hpair => ⟨hfits pair hpair, fun heq => ?_⟩
    obtain rfl := List.mem_singleton.mp hpair
    cases heq
  have hexact := integer_conversions_exact false rfl hwhole (by simp [CFormat.NoNul]; decide)
    (number_arguments_plain (-7))
  refine ⟨hexact.1.mpr ⟨fun conversion hmem => ?_, hfits⟩, hexact.2.1.mpr hpairs, hexact.2.2.mpr (.inl ⟨rfl, hpairs⟩)⟩
  obtain rfl := List.mem_singleton.mp hmem
  rfl

/-- A whole number beyond the range of `int` has its digits in neither path. -/
theorem integer_conversions_overflow :
    pieces_text (exact_text some fun _ _ => []) percent_d [number_argument 2147483648] =
        some ['2', '1', '4', '7', '4', '8', '3', '6', '4', '8'] ∧
      printf_literal some (fun _ _ => []) (format_text percent_d) [number_argument 2147483648] = .undefined ∧
      printf_computed some (fun _ _ => []) false (format_text percent_d) [number_argument 2147483648] = .undefined := by
  have hnone : pieces_text (conversion_text some fun _ _ => []) percent_d [number_argument 2147483648] = none := rfl
  refine ⟨rfl, ?_, ?_⟩
  · rw [printf_literal_pieces (fun conversion hmem => ?_) rfl, hnone]
    obtain rfl := List.mem_singleton.mp hmem
    rfl
  · rw [printf_computed, if_neg (by decide), qk_sprintf_pieces _ _ le_rfl, hnone]

end quawk
