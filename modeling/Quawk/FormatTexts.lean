import Quawk.FormatPaths

namespace quawk

open CFormat (Conversion Piece Argument format_text conversions c_printf)

section Pieces

variable {Number : Type} (value_of : Number → Option Rat) (double_text : Conversion → Number → Text)

/-- What a conversion writes for an argument. -/
def conversion_text (conversion : Conversion) (argument : FormatArgument Number) : Option Text :=
  (printf_operand value_of conversion.specifier argument).bind (conversion.output double_text)

/-- What the pieces of a format write, where `write` gives the text of one conversion. -/
def pieces_text {α : Type} (write : Conversion → α → Option Text) : List Piece → List α → Option Text
  | [], _ => some []
  | .literal char _ :: pieces, arguments => (pieces_text write pieces arguments).map (char :: ·)
  | .percent :: pieces, arguments => (pieces_text write pieces arguments).map ('%' :: ·)
  | .conversion _ :: _, [] => none
  | .conversion conversion :: pieces, argument :: arguments =>
    match write conversion argument with
    | none => none
    | some text => (pieces_text write pieces arguments).map (text ++ ·)

/-- A number given to an integer conversion is in the range of `int`. -/
def Fits (conversion : Conversion) (argument : FormatArgument Number) : Prop :=
  conversion.is_integer = true →
    ∃ value, value_of argument.number = some value ∧ InSignedRange 32 (truncated value)

variable {value_of double_text}

theorem integer_specifiers (specifier : Char) :
    ['c', 'd', 'i', 'o', 'u', 'x', 'X'].contains specifier = ['d', 'i', 'o', 'u', 'x', 'X', 'c'].contains specifier := by
  rw [Bool.eq_iff_iff]
  simp only [List.contains_iff_mem, List.mem_cons, List.not_mem_nil, or_false]
  tauto

theorem to_int32_isSome (number : Number) :
    (to_int32 value_of number).isSome = true ↔
      ∃ value, value_of number = some value ∧ InSignedRange 32 (truncated value) := by
  unfold to_int32 fptosi
  cases value_of number <;> simp

theorem conversion_text_isSome (conversion : Conversion) (argument : FormatArgument Number) :
    (conversion_text value_of double_text conversion argument).isSome = true ↔ Fits value_of conversion argument := by
  unfold Fits
  rw [← to_int32_isSome]
  unfold conversion_text printf_operand
  have hinteger : conversion.is_integer = ['c', 'd', 'i', 'o', 'u', 'x', 'X'].contains conversion.specifier := rfl
  by_cases hstring : conversion.specifier = 's'
  · have hnot : conversion.is_integer = false := by rw [hinteger, hstring]; rfl
    simp [hstring, Conversion.output, Conversion.is_string, hnot]
  · rw [if_neg hstring, ← hinteger]
    by_cases hint : conversion.is_integer = true
    · cases hvalue : to_int32 value_of argument.number <;> simp [hint, Conversion.output]
    · simp [hint, hstring, Conversion.output, Conversion.is_string]

/-- A segment that is one conversion of C writes what the conversion does. -/
theorem segment_conversion (conversion : Conversion) (argument : FormatArgument Number) :
    qk_append_sprintf_segment value_of double_text ('%' :: (conversion.options_text ++ [conversion.specifier]))
        conversion.specifier argument =
      conversion_text value_of double_text conversion argument := by
  have hprint (operand : Argument Number) :
      c_printf double_text ('%' :: (conversion.options_text ++ [conversion.specifier])) [operand] =
        conversion.output double_text operand := by
    have hformat := CFormat.c_printf_format double_text [.conversion conversion] [operand]
    simp only [format_text, List.flatMap_cons, List.flatMap_nil, List.append_nil, Piece.text] at hformat
    rw [hformat, CFormat.print]
    cases conversion.output double_text operand <;> simp [CFormat.print]
  unfold qk_append_sprintf_segment conversion_text printf_operand
  rw [← integer_specifiers]
  split_ifs
  · simp [hprint]
  · cases to_int32 value_of argument.number <;> simp [hprint]
  · simp [hprint]

section Scan

variable (written : Text) (arguments : List (FormatArgument Number))

theorem sprintf_loop_literal {char : Char} (h : char ≠ '%') (rest : Text) :
    sprintf_loop value_of double_text written (char :: rest) arguments =
      sprintf_loop value_of double_text (written ++ [char]) rest arguments := by
  rw [sprintf_loop]
  · rw [if_neg h]
  · intro _ heq
    exact absurd heq h

theorem sprintf_loop_percent (rest : Text) :
    sprintf_loop value_of double_text written ('%' :: '%' :: rest) arguments =
      sprintf_loop value_of double_text (written ++ ['%']) rest arguments := by
  rw [sprintf_loop]

theorem sprintf_loop_unended {rest : Text} (hhead : rest.head? ≠ some '%')
    (hrest : (rest.dropWhile fun char => !ends_segment char) = []) :
    sprintf_loop value_of double_text written ('%' :: rest) arguments = .rejected := by
  rw [sprintf_loop]
  · rw [if_pos rfl]
    split
    · rfl
    · next hcons => rw [hrest] at hcons; cases hcons
  · intro rest' _ heq
    exact hhead (by rw [heq]; rfl)

theorem sprintf_loop_segment {rest : Text} (hhead : rest.head? ≠ some '%') {specifier : Char} {after : Text}
    (hrest : (rest.dropWhile fun char => !ends_segment char) = specifier :: after) :
    sprintf_loop value_of double_text written ('%' :: rest) arguments =
      match arguments with
      | [] => .rejected
      | argument :: arguments =>
        match qk_append_sprintf_segment value_of double_text
            ('%' :: (rest.takeWhile (fun char => !ends_segment char) ++ [specifier])) specifier argument with
        | none => .undefined
        | some text => sprintf_loop value_of double_text (written ++ text) after arguments := by
  rw [sprintf_loop]
  · rw [if_pos rfl]
    split
    · next hnil => rw [hrest] at hnil; cases hnil
    · next hcons =>
      rw [hrest] at hcons
      cases hcons
      rfl
  · intro rest' _ heq
    exact hhead (by rw [heq]; rfl)

theorem sprintf_loop_conversion (conversion : Conversion) (rest : Text) :
    sprintf_loop value_of double_text written ('%' :: (conversion.options_text ++ conversion.specifier :: rest))
        arguments =
      match arguments with
      | [] => .rejected
      | argument :: arguments =>
        match conversion_text value_of double_text conversion argument with
        | none => .undefined
        | some text => sprintf_loop value_of double_text (written ++ text) rest arguments := by
  have hspecifier := specifier_ends_segment _ conversion.known
  have hoptions : ∀ char ∈ conversion.options_text, (!ends_segment char) = true := fun char hchar => by
    have hnot := conversion.options_no_specifier char hchar
    cases hends : ends_segment char with
    | false => rfl
    | true => exact absurd (ends_segment_specifier hends) hnot
  obtain ⟨htake, hdrop⟩ := CFormat.takeWhile_dropWhile_append (conversion.specifier :: rest) hoptions
    (by simp [hspecifier])
  have hhead : (conversion.options_text ++ conversion.specifier :: rest).head? ≠ some '%' := by
    intro heq
    have hmem : '%' ∈ conversion.options_text ++ [conversion.specifier] := by
      cases hcase : conversion.options_text with
      | nil =>
        rw [hcase] at heq
        simpa using Option.some.inj heq.symm
      | cons first others =>
        rw [hcase] at heq
        have hfirst : first = '%' := Option.some.inj heq
        simp [hfirst]
    rcases List.mem_append.mp hmem with hoption | hlast
    · exact conversion.options_no_percent _ hoption rfl
    · exact CFormat.specifier_is_no_percent _ conversion.known (List.mem_singleton.mp hlast).symm
  rw [sprintf_loop_segment written arguments hhead hdrop, htake]
  cases arguments with
  | nil => rfl
  | cons argument arguments =>
    simp only
    rw [segment_conversion]

end Scan

/-- The scanner writes what the pieces do, and goes on with the arguments that are left. -/
theorem sprintf_loop_pieces (pieces : List Piece) (rest written : Text) (arguments : List (FormatArgument Number))
    (hlength : (conversions pieces).length ≤ arguments.length) :
    sprintf_loop value_of double_text written (format_text pieces ++ rest) arguments =
      match pieces_text (conversion_text value_of double_text) pieces arguments with
      | none => .undefined
      | some text =>
        sprintf_loop value_of double_text (written ++ text) rest (arguments.drop (conversions pieces).length) := by
  induction pieces generalizing written arguments with
  | nil => simp [format_text, pieces_text, conversions]
  | cons piece pieces ih =>
    rw [CFormat.format_text_cons]
    cases piece with
    | literal char hchar =>
      change sprintf_loop _ _ _ (char :: (format_text pieces ++ rest)) _ = _
      rw [sprintf_loop_literal _ _ hchar, ih _ _ hlength, pieces_text]
      cases pieces_text (conversion_text value_of double_text) pieces arguments <;> simp [conversions]
    | percent =>
      change sprintf_loop _ _ _ ('%' :: '%' :: (format_text pieces ++ rest)) _ = _
      rw [sprintf_loop_percent, ih _ _ hlength, pieces_text]
      cases pieces_text (conversion_text value_of double_text) pieces arguments <;> simp [conversions]
    | conversion inner =>
      have htext : (Piece.conversion inner).text ++ format_text pieces ++ rest =
          '%' :: (inner.options_text ++ inner.specifier :: (format_text pieces ++ rest)) := by
        simp [Piece.text]
      rw [htext, sprintf_loop_conversion]
      cases arguments with
      | nil => simp [conversions] at hlength
      | cons argument arguments =>
        have hlength' : (conversions pieces).length ≤ arguments.length := by simpa [conversions] using hlength
        rw [pieces_text]
        cases hone : conversion_text value_of double_text inner argument with
        | none => simp [hone]
        | some text =>
          simp only [hone]
          rw [ih _ _ hlength']
          cases pieces_text (conversion_text value_of double_text) pieces arguments <;> simp [conversions]

theorem qk_sprintf_pieces (pieces : List Piece) (arguments : List (FormatArgument Number))
    (hlength : (conversions pieces).length ≤ arguments.length) :
    qk_sprintf value_of double_text (format_text pieces) arguments =
      match pieces_text (conversion_text value_of double_text) pieces arguments with
      | none => .undefined
      | some text => .text (before_nul text) := by
  have hloop := @sprintf_loop_pieces _ value_of double_text pieces [] [] arguments hlength
  rw [List.append_nil] at hloop
  rw [qk_sprintf, hloop]
  cases pieces_text (conversion_text value_of double_text) pieces arguments with
  | none => rfl
  | some text => simp [sprintf_loop]

theorem print_needs_arguments {pieces : List Piece} {operands : List (Argument Number)} {text : Text}
    (h : CFormat.print double_text pieces operands = some text) : (conversions pieces).length ≤ operands.length := by
  induction pieces generalizing operands text with
  | nil => exact Nat.zero_le _
  | cons piece pieces ih =>
    cases piece with
    | literal _ _ | percent =>
      obtain ⟨more, hmore, -⟩ := Option.map_eq_some_iff.mp h
      exact ih hmore
    | conversion inner =>
      cases operands with
      | nil => cases h
      | cons operand operands =>
        rw [CFormat.print] at h
        split at h
        · cases h
        · obtain ⟨more, hmore, -⟩ := Option.map_eq_some_iff.mp h
          exact Nat.succ_le_succ (ih hmore)

theorem printf_operands_length {pairs : List (Char × FormatArgument Number)} {operands : List (Argument Number)}
    (h : printf_operands value_of pairs = some operands) : operands.length = pairs.length := by
  induction pairs generalizing operands with
  | nil => cases h; rfl
  | cons pair pairs ih =>
    rw [printf_operands] at h
    split at h
    · cases h
    · obtain ⟨more, hmore, rfl⟩ := Option.map_eq_some_iff.mp h
      rw [List.length_cons, List.length_cons, ih hmore]

/-- With an operand for each conversion the C library writes what the pieces do. -/
theorem print_operands (pieces : List Piece) (arguments : List (FormatArgument Number))
    (hlength : (conversions pieces).length = arguments.length) :
    ((printf_operands value_of (((conversions pieces).map Conversion.specifier).zip arguments)).bind
        (CFormat.print double_text pieces)) =
      pieces_text (conversion_text value_of double_text) pieces arguments := by
  induction pieces generalizing arguments with
  | nil =>
    cases arguments with
    | nil => rfl
    | cons _ _ => cases hlength
  | cons piece pieces ih =>
    cases piece with
    | literal char _ | percent =>
      rw [pieces_text, ← ih arguments hlength]
      simp only [conversions]
      cases printf_operands value_of (((conversions pieces).map Conversion.specifier).zip arguments) <;> rfl
    | conversion inner =>
      cases arguments with
      | nil => cases hlength
      | cons argument arguments =>
        have hlength' : (conversions pieces).length = arguments.length := Nat.succ.inj hlength
        rw [pieces_text, ← ih arguments hlength', conversion_text]
        simp only [conversions, List.map_cons, List.zip_cons_cons, printf_operands]
        cases printf_operand value_of inner.specifier argument with
        | none => rfl
        | some operand =>
          simp only [Option.bind_some]
          cases printf_operands value_of (((conversions pieces).map Conversion.specifier).zip arguments) with
          | none =>
            cases hone : inner.output double_text operand <;> simp
          | some operands =>
            simp only [Option.map_some, Option.bind_some, CFormat.print]
            rfl

/-- No precision is a dot alone. -/
def FullPrecisions (pieces : List Piece) : Prop :=
  ∀ conversion ∈ conversions pieces, conversion.has_empty_precision = false

theorem counted_specifiers_le (pieces : List Piece) :
    (counted_specifiers pieces).length ≤ (conversions pieces).length := by
  rw [counted_specifiers, List.length_map]
  exact List.length_filter_le ..

theorem counted_specifiers_full {pieces : List Piece} (h : FullPrecisions pieces) :
    counted_specifiers pieces = (conversions pieces).map Conversion.specifier := by
  rw [counted_specifiers, List.filter_eq_self.mpr fun conversion hmem => by rw [h conversion hmem]; rfl]

theorem full_of_counted {pieces : List Piece}
    (h : (conversions pieces).length ≤ (counted_specifiers pieces).length) : FullPrecisions pieces := by
  rw [counted_specifiers, List.length_map] at h
  have hall := List.length_filter_eq_length_iff.mp (le_antisymm (List.length_filter_le ..) h)
  exact fun conversion hmem => by simpa using hall conversion hmem

theorem printf_literal_pieces {pieces : List Piece} {arguments : List (FormatArgument Number)}
    (hfull : FullPrecisions pieces) (hlength : (conversions pieces).length = arguments.length) :
    printf_literal value_of double_text (format_text pieces) arguments =
      match pieces_text (conversion_text value_of double_text) pieces arguments with
      | none => .undefined
      | some text => .text text := by
  have hspecifiers : (printf_specifiers (format_text pieces).length (format_text pieces)).filter (· ≠ '%') =
      (conversions pieces).map Conversion.specifier := by
    rw [printf_specifiers_format pieces le_rfl, counted_specifiers_full hfull]
  rw [← print_operands pieces arguments hlength, printf_literal]
  simp only [hspecifiers, List.length_map, hlength, ne_eq, not_true_eq_false, if_false]
  cases printf_operands value_of (((conversions pieces).map Conversion.specifier).zip arguments) with
  | none => rfl
  | some operands =>
    simp only [CFormat.c_printf_format, Option.bind_some]
    rfl

theorem printf_literal_text {format : Text} {arguments : List (FormatArgument Number)} {text : Text}
    (h : printf_literal value_of double_text format arguments = .text text) :
    ∃ pieces, format = format_text pieces ∧ FullPrecisions pieces ∧
      (conversions pieces).length = arguments.length ∧
      pieces_text (conversion_text value_of double_text) pieces arguments = some text := by
  have hliteral := h
  rw [printf_literal] at h
  split_ifs at h with hcount
  split at h
  · cases h
  next operands hoperands =>
  rw [ne_eq, not_not] at hcount
  have hoperands_length := printf_operands_length hoperands
  rw [List.length_zip, hcount, min_self] at hoperands_length
  cases hread : CFormat.read_pieces format with
  | none => simp [c_printf, hread] at h
  | some pieces =>
    have hformat := CFormat.read_pieces_sound hread
    subst hformat
    rw [printf_specifiers_format pieces le_rfl] at hcount
    rw [CFormat.c_printf_format] at h
    cases hprint : CFormat.print double_text pieces operands with
    | none => rw [hprint] at h; cases h
    | some printed =>
      have hneeds := print_needs_arguments hprint
      have hfull : FullPrecisions pieces := full_of_counted (by omega)
      have hlength : (conversions pieces).length = arguments.length := by
        have := counted_specifiers_le pieces
        omega
      refine ⟨pieces, rfl, hfull, hlength, ?_⟩
      rw [printf_literal_pieces hfull hlength] at hliteral
      cases hpieces : pieces_text (conversion_text value_of double_text) pieces arguments with
      | none => rw [hpieces] at hliteral; cases hliteral
      | some other => rw [hpieces] at hliteral; cases hliteral; rfl

section Write

variable {α : Type} {write other : Conversion → α → Option Text}

theorem pieces_text_isSome {pieces : List Piece} {arguments : List α}
    (hlength : (conversions pieces).length ≤ arguments.length) :
    (pieces_text write pieces arguments).isSome = true ↔
      ∀ pair ∈ (conversions pieces).zip arguments, (write pair.1 pair.2).isSome = true := by
  induction pieces generalizing arguments with
  | nil => simp [pieces_text, conversions]
  | cons piece pieces ih =>
    cases piece with
    | literal _ _ | percent =>
      rw [pieces_text, Option.isSome_map]
      exact ih hlength
    | conversion inner =>
      cases arguments with
      | nil => simp [conversions] at hlength
      | cons argument arguments =>
        simp only [conversions, List.zip_cons_cons, List.forall_mem_cons, pieces_text]
        rw [← ih (Nat.le_of_succ_le_succ hlength)]
        cases write inner argument <;> simp

theorem pieces_text_congr {pieces : List Piece} {arguments : List α}
    (h : ∀ pair ∈ (conversions pieces).zip arguments, write pair.1 pair.2 = other pair.1 pair.2) :
    pieces_text write pieces arguments = pieces_text other pieces arguments := by
  induction pieces generalizing arguments with
  | nil => rfl
  | cons piece pieces ih =>
    cases piece with
    | literal _ _ | percent => rw [pieces_text, pieces_text, ih h]
    | conversion inner =>
      cases arguments with
      | nil => rfl
      | cons argument arguments =>
        simp only [conversions, List.zip_cons_cons, List.forall_mem_cons] at h
        rw [pieces_text, pieces_text, h.1, ih h.2]

theorem pieces_text_noNul {pieces : List Piece} {arguments : List α} {text : Text}
    (hformat : CFormat.NoNul (format_text pieces)) (htext : pieces_text write pieces arguments = some text) :
    CFormat.NoNul text ↔
      ∀ pair ∈ (conversions pieces).zip arguments, ∀ one ∈ write pair.1 pair.2, CFormat.NoNul one := by
  induction pieces generalizing arguments text with
  | nil =>
    cases htext
    simp [conversions, CFormat.NoNul]
  | cons piece pieces ih =>
    rw [CFormat.format_text_cons, CFormat.noNul_append] at hformat
    cases piece with
    | literal _ _ | percent =>
      obtain ⟨more, hmore, rfl⟩ := Option.map_eq_some_iff.mp htext
      rw [conversions, ← ih hformat.2 hmore, ← List.singleton_append, CFormat.noNul_append]
      have hpiece := hformat.1
      simp_all [Piece.text, CFormat.NoNul]
    | conversion inner =>
      cases arguments with
      | nil => cases htext
      | cons argument arguments =>
        rw [pieces_text] at htext
        split at htext
        · cases htext
        next one hone =>
        obtain ⟨more, hmore, rfl⟩ := Option.map_eq_some_iff.mp htext
        simp only [conversions, List.zip_cons_cons, List.forall_mem_cons, hone]
        rw [← ih hformat.2 hmore, CFormat.noNul_append]
        simp

/-- All pieces are conversions, and none of them writes anything. -/
def WritesNothing (write : Conversion → α → Option Text) (pieces : List Piece) (arguments : List α) : Prop :=
  (∀ piece ∈ pieces, ∃ conversion, piece = .conversion conversion) ∧
    ∀ pair ∈ (conversions pieces).zip arguments, write pair.1 pair.2 = some []

theorem pieces_text_eq_nil {pieces : List Piece} {arguments : List α}
    (hlength : (conversions pieces).length = arguments.length) :
    pieces_text write pieces arguments = some [] ↔ WritesNothing write pieces arguments := by
  induction pieces generalizing arguments with
  | nil => simp [pieces_text, WritesNothing, conversions]
  | cons piece pieces ih =>
    cases piece with
    | literal _ _ | percent => simp [pieces_text, WritesNothing]
    | conversion inner =>
      cases arguments with
      | nil => cases hlength
      | cons argument arguments =>
        have hrest := ih (Nat.succ.inj hlength)
        simp only [WritesNothing] at hrest
        simp only [pieces_text, WritesNothing, conversions, List.zip_cons_cons, List.forall_mem_cons]
        cases write inner argument with
        | none => simp
        | some text =>
          simp only [Option.map_eq_some_iff, List.append_eq_nil_iff, Option.some.injEq]
          constructor
          · rintro ⟨more, hmore, rfl, rfl⟩
            exact ⟨⟨⟨inner, rfl⟩, (hrest.mp hmore).1⟩, rfl, (hrest.mp hmore).2⟩
          · rintro ⟨⟨-, hpieces⟩, rfl, hwrites⟩
            exact ⟨[], hrest.mpr ⟨hpieces, hwrites⟩, rfl, rfl⟩

end Write

theorem pieces_text_fits {pieces : List Piece} {arguments : List (FormatArgument Number)}
    (hlength : (conversions pieces).length ≤ arguments.length) :
    (pieces_text (conversion_text value_of double_text) pieces arguments).isSome = true ↔
      ∀ pair ∈ (conversions pieces).zip arguments, Fits value_of pair.1 pair.2 := by
  rw [pieces_text_isSome hlength]
  exact forall₂_congr fun pair _ => conversion_text_isSome pair.1 pair.2

/-- No NUL is written for a character. -/
def WritesNoNul (value_of : Number → Option Rat) (conversion : Conversion) (argument : FormatArgument Number) : Prop :=
  conversion.specifier = 'c' → ∀ value ∈ value_of argument.number, truncated value % 256 ≠ 0

/-- Neither the texts of arguments nor the numbers the C library writes hold a NUL. -/
structure PlainTexts (double_text : Conversion → Number → Text) (arguments : List (FormatArgument Number)) : Prop where
  strings : ∀ argument ∈ arguments, CFormat.NoNul argument.string
  numbers : ∀ conversion number, CFormat.NoNul (double_text conversion number)

theorem conversion_text_noNul {arguments : List (FormatArgument Number)} (hplain : PlainTexts double_text arguments)
    {conversion : Conversion} {argument : FormatArgument Number} (hargument : argument ∈ arguments) {text : Text}
    (h : conversion_text value_of double_text conversion argument = some text) :
    CFormat.NoNul text ↔ WritesNoNul value_of conversion argument := by
  unfold conversion_text printf_operand at h
  unfold WritesNoNul
  have hinteger : conversion.is_integer = ['c', 'd', 'i', 'o', 'u', 'x', 'X'].contains conversion.specifier := rfl
  split_ifs at h with hstring hint
  · have hnot : conversion.specifier ≠ 'c' := by rw [hstring]; decide
    have hoption : conversion.is_string = true := by simp [Conversion.is_string, hstring]
    simp only [Option.bind_some, Conversion.output, hoption, if_true, Option.some.injEq] at h
    subst h
    simp [hnot, conversion.noNul_string (hplain.strings argument hargument)]
  · rw [← hinteger] at hint
    cases hnumber : value_of argument.number with
    | none => simp [to_int32, hnumber] at h
    | some value =>
      by_cases hrange : InSignedRange 32 (truncated value)
      · by_cases hchar : conversion.specifier = 'c'
        · simp [to_int32, hnumber, fptosi, hrange, Conversion.output, hint, hchar] at h
          subst h
          simp [hchar, conversion.noNul_char]
        · simp [to_int32, hnumber, fptosi, hrange, Conversion.output, hint, hchar] at h
          subst h
          simp [hchar, conversion.noNul_integer]
      · simp [to_int32, hnumber, fptosi, hrange] at h
  · have hnot : conversion.specifier ≠ 'c' := fun heq => hint (by rw [heq]; decide)
    rw [← hinteger] at hint
    simp [Conversion.output, hint, Conversion.is_string, hstring] at h
    subst h
    simp [hnot, hplain.numbers]

theorem written_noNul {pieces : List Piece} {arguments : List (FormatArgument Number)} {text : Text}
    (hplain : PlainTexts double_text arguments) (hformat : CFormat.NoNul (format_text pieces))
    (h : pieces_text (conversion_text value_of double_text) pieces arguments = some text)
    (hlength : (conversions pieces).length ≤ arguments.length) :
    CFormat.NoNul text ↔ ∀ pair ∈ (conversions pieces).zip arguments, WritesNoNul value_of pair.1 pair.2 := by
  rw [pieces_text_noNul hformat h]
  have hall := (pieces_text_isSome hlength).mp (Option.isSome_of_eq_some h)
  refine forall₂_congr fun pair hpair => ?_
  obtain ⟨one, hone⟩ := Option.isSome_iff_exists.mp (hall pair hpair)
  rw [hone]
  simp only [Option.mem_def, Option.some.injEq, forall_eq']
  exact conversion_text_noNul hplain (List.of_mem_zip hpair).2 hone

end Pieces

end quawk
