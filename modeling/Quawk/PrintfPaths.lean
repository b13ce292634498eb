import Quawk.IntegerConversions

namespace quawk

open CFormat (Conversion Piece Argument format_text conversions c_printf)

section Pieces

variable {Number : Type} {value_of : Number → Option Rat} {double_text : Conversion → Number → Text}

/-- A segment that is written is one conversion of C. -/
theorem segment_sound {front : Text} {specifier : Char} {argument : FormatArgument Number} {text : Text}
    (hhead : (front ++ [specifier]).head? ≠ some '%') (hfront : ∀ char ∈ front, ends_segment char = false)
    (h : qk_append_sprintf_segment value_of double_text ('%' :: (front ++ [specifier])) specifier argument =
      some text) :
    ∃ conversion : Conversion, front = conversion.options_text ∧ specifier = conversion.specifier := by
  have hread : CFormat.read_conversion (front ++ [specifier]) ≠ none := by
    intro hnone
    have hmalformed := CFormat.read_pieces_malformed hnone hhead
    have hprint (operands : List (Argument Number)) :
        c_printf double_text ('%' :: (front ++ [specifier])) operands = none := by
      rw [c_printf, hmalformed]
    unfold qk_append_sprintf_segment at h
    simp only [hprint] at h
    split_ifs at h
    split at h <;> cases h
  obtain ⟨⟨conversion, after⟩, hconversion⟩ := Option.ne_none_iff_exists'.mp hread
  have hsound := CFormat.read_conversion_sound hconversion
  rcases List.eq_nil_or_concat after with rfl | ⟨others, last, rfl⟩
  · obtain ⟨hfront_eq, hlast⟩ := List.append_inj' hsound rfl
    exact ⟨conversion, hfront_eq, List.singleton_inj.mp hlast⟩
  · have hshift : front ++ [specifier] =
        (conversion.options_text ++ conversion.specifier :: others) ++ [last] := by
      rw [hsound]
      simp
    have hmem : conversion.specifier ∈ front := by
      rw [(List.append_inj' hshift rfl).1]
      simp
    have hnot := hfront _ hmem
    rw [specifier_ends_segment _ conversion.known] at hnot
    cases hnot

/-- The conversions up to some `%` are written, and there no argument is left for another one or no specifier
follows. -/
def GivenUp (value_of : Number → Option Rat) (format : Text) (arguments : List (FormatArgument Number)) : Prop :=
  ∃ pieces rest, format = format_text pieces ++ '%' :: rest ∧ rest.head? ≠ some '%' ∧
    (conversions pieces).length ≤ arguments.length ∧
    (∀ pair ∈ (conversions pieces).zip arguments, Fits value_of pair.1 pair.2) ∧
    ((conversions pieces).length = arguments.length ∨ ∀ char ∈ rest, ends_segment char = false)

theorem GivenUp.literal {piece : Piece} {format : Text} {arguments : List (FormatArgument Number)}
    (hpiece : conversions [piece] = []) (h : GivenUp value_of format arguments) :
    GivenUp value_of (piece.text ++ format) arguments := by
  obtain ⟨pieces, rest, rfl, hhead, hlength, hfits, hend⟩ := h
  have hconversions : conversions (piece :: pieces) = conversions pieces := by
    cases piece with
    | literal _ _ | percent => rfl
    | conversion _ => cases hpiece
  refine ⟨piece :: pieces, rest, by rw [CFormat.format_text_cons, List.append_assoc], hhead, ?_, ?_, ?_⟩ <;>
    rwa [hconversions]

theorem GivenUp.conversion {conversion : Conversion} {format : Text} {argument : FormatArgument Number}
    {arguments : List (FormatArgument Number)} (hfits : Fits value_of conversion argument)
    (h : GivenUp value_of format arguments) :
    GivenUp value_of ((Piece.conversion conversion).text ++ format) (argument :: arguments) := by
  obtain ⟨pieces, rest, rfl, hhead, hlength, hrest, hend⟩ := h
  refine ⟨.conversion conversion :: pieces, rest, by rw [CFormat.format_text_cons, List.append_assoc], hhead,
    Nat.succ_le_succ hlength, ?_, hend.imp_left (congrArg (· + 1))⟩
  simp only [conversions, List.zip_cons_cons, List.forall_mem_cons]
  exact ⟨hfits, hrest⟩

theorem head_ne_percent {rest : Text} (h : ∀ rest', '%' = '%' → rest = '%' :: rest' → False) :
    rest.head? ≠ some '%' := by
  intro heq
  cases rest with
  | nil => cases heq
  | cons first rest => exact h rest rfl (by rw [Option.some.inj heq])

theorem sprintf_loop_given_up {format written : Text} {arguments : List (FormatArgument Number)}
    (h : sprintf_loop value_of double_text written format arguments = .rejected) :
    GivenUp value_of format arguments := by
  fun_induction sprintf_loop value_of double_text written format arguments with
  | case1 => cases h
  | case2 written rest arguments ih => exact @GivenUp.literal _ _ .percent _ _ rfl (ih h)
  | case3 written rest arguments hrest hhead =>
    -- No specifier follows.
    refine ⟨[], rest, rfl, head_ne_percent hhead, Nat.zero_le _, by simp [conversions], .inr fun char hchar => ?_⟩
    have hall := List.dropWhile_eq_nil_iff.mp hrest char hchar
    simpa using hall
  | case4 written rest specifier after hrest hhead =>
    -- No argument is left.
    exact ⟨[], rest, rfl, head_ne_percent hhead, le_rfl, by simp [conversions], .inl rfl⟩
  | case5 => cases h
  | case6 written rest specifier after hrest argument arguments spec_text text htext hhead ih =>
    have hsplit : rest = rest.takeWhile (fun char => !ends_segment char) ++ specifier :: after := by
      rw [← hrest, List.takeWhile_append_dropWhile]
    have hfront : ∀ char ∈ rest.takeWhile (fun char => !ends_segment char), ends_segment char = false :=
      fun char hchar => by simpa using List.mem_takeWhile_imp hchar
    have hspec_head : (rest.takeWhile (fun char => !ends_segment char) ++ [specifier]).head? ≠ some '%' := by
      have hrest_head := head_ne_percent hhead
      rw [hsplit] at hrest_head
      cases hcase : rest.takeWhile fun char => !ends_segment char <;> rw [hcase] at hrest_head <;> exact hrest_head
    obtain ⟨conversion, hoptions, hspecifier⟩ := segment_sound hspec_head hfront htext
    have hconversion : conversion_text value_of double_text conversion argument = some text := by
      rw [← segment_conversion, ← hoptions, ← hspecifier]
      exact htext
    have hfits := (conversion_text_isSome conversion argument).mp (Option.isSome_of_eq_some hconversion)
    have hformat : '%' :: rest = (Piece.conversion conversion).text ++ after := by
      rw [Piece.text, ← hoptions, ← hspecifier]
      simpa using hsplit
    rw [hformat]
    exact .conversion hfits (ih h)
  | case7 written char rest arguments _ hchar ih => exact @GivenUp.literal _ _ (.literal char hchar) _ _ rfl (ih h)

theorem sprintf_loop_of_given_up {format : Text} {arguments : List (FormatArgument Number)}
    (h : GivenUp value_of format arguments) (written : Text) :
    sprintf_loop value_of double_text written format arguments = .rejected := by
  obtain ⟨pieces, rest, rfl, hhead, hlength, hfits, hend⟩ := h
  obtain ⟨text, htext⟩ := Option.isSome_iff_exists.mp ((@pieces_text_fits _ value_of double_text _ _ hlength).mpr hfits)
  rw [sprintf_loop_pieces pieces _ _ _ hlength, htext]
  simp only
  cases hdrop : rest.dropWhile fun char => !ends_segment char with
  | nil => exact sprintf_loop_unended _ _ hhead hdrop
  | cons specifier after =>
    rw [sprintf_loop_segment _ _ hhead hdrop]
    rcases hend with heq | hnone
    · rw [heq, List.drop_length]
    · have hmem : specifier ∈ rest := (List.dropWhile_sublist _).subset (by rw [hdrop]; exact List.mem_cons_self)
      have hhead_false := CFormat.dropWhile_head (fun char => !ends_segment char) rest specifier (by rw [hdrop]; rfl)
      rw [hnone specifier hmem] at hhead_false
      cases hhead_false

theorem qk_sprintf_rejected_iff (format : Text) (arguments : List (FormatArgument Number)) :
    qk_sprintf value_of double_text format arguments = .rejected ↔ GivenUp value_of format arguments := by
  rw [qk_sprintf]
  constructor
  · intro h
    split at h
    · cases h
    · next hloop => exact sprintf_loop_given_up hloop
    · cases h
  · intro h
    rw [sprintf_loop_of_given_up h]

variable (value_of double_text)

/-- The format is one of C without a precision that is a dot alone, each argument has its conversion, numbers given
to integer conversions fit into an `int`, no character is NUL, and a format in the scratch buffer writes nothing. -/
def PrintsAlike (in_scratch : Bool) (format : Text) (arguments : List (FormatArgument Number)) : Prop :=
  ∃ pieces, format = format_text pieces ∧ FullPrecisions pieces ∧
    (conversions pieces).length = arguments.length ∧
    (∀ pair ∈ (conversions pieces).zip arguments, Fits value_of pair.1 pair.2 ∧ WritesNoNul value_of pair.1 pair.2) ∧
    (in_scratch = true → WritesNothing (conversion_text value_of double_text) pieces arguments)

/-- The specifiers of a literal format are not as many as the arguments, and `qk_sprintf` gives the format up. -/
def FailsAlike (in_scratch : Bool) (format : Text) (arguments : List (FormatArgument Number)) : Prop :=
  in_scratch = false ∧ ((printf_specifiers format.length format).filter (· ≠ '%')).length ≠ arguments.length ∧
    GivenUp value_of format arguments

variable {value_of double_text}

theorem printf_literal_rejected_iff (format : Text) (arguments : List (FormatArgument Number)) :
    printf_literal value_of double_text format arguments = .rejected ↔
      ((printf_specifiers format.length format).filter (· ≠ '%')).length ≠ arguments.length := by
  rw [printf_literal]
  constructor
  · intro h
    split_ifs at h with hcount
    · exact hcount
    · split at h
      · cases h
      · split at h <;> cases h
  · intro h
    rw [if_pos h]

/-- Given the same arguments, `printf` with a literal format, `printf` with a computed one and `sprintf` give the same
text or all fail exactly in these cases. -/
theorem printf_values_agree (in_scratch : Bool) {format : Text} {arguments : List (FormatArgument Number)}
    (hformat : CFormat.NoNul format) (hplain : PlainTexts double_text arguments) :
    (∃ printed ≠ .undefined, printf_literal value_of double_text format arguments = printed ∧
        printf_computed value_of double_text in_scratch format arguments = printed ∧
        qk_sprintf value_of double_text format arguments = printed) ↔
      PrintsAlike value_of double_text in_scratch format arguments ∨
        FailsAlike value_of in_scratch format arguments := by
  constructor
  · rintro ⟨printed, hdefined, hliteral, hcomputed, hsprintf⟩
    cases printed with
    | undefined => exact absurd rfl hdefined
    | text text =>
      obtain ⟨pieces, rfl, hfull, hlength, htext⟩ := printf_literal_text hliteral
      rw [qk_sprintf_pieces pieces arguments hlength.le, htext] at hsprintf
      have hno_nul := before_nul_eq_self.mp (Printed.text.inj hsprintf)
      have hfits := (pieces_text_fits hlength.le).mp (Option.isSome_of_eq_some htext)
      have hcharacters := (written_noNul hplain hformat htext hlength.le).mp hno_nul
      refine .inl ⟨pieces, rfl, hfull, hlength, fun pair hpair => ⟨hfits pair hpair, hcharacters pair hpair⟩,
        fun hscratch => (pieces_text_eq_nil hlength).mp ?_⟩
      rw [printf_computed, if_pos hscratch, qk_sprintf_nil] at hcomputed
      rw [htext, Printed.text.inj hcomputed]
    | rejected =>
      refine .inr ⟨?_, (printf_literal_rejected_iff format arguments).mp hliteral,
        (qk_sprintf_rejected_iff format arguments).mp hsprintf⟩
      cases in_scratch with
      | false => rfl
      | true =>
        rw [printf_computed, if_pos rfl, qk_sprintf_nil] at hcomputed
        cases hcomputed
  · rintro (⟨pieces, rfl, hfull, hlength, hpairs, hscratch⟩ | ⟨rfl, hcount, hgiven_up⟩)
    · obtain ⟨text, htext⟩ := Option.isSome_iff_exists.mp
        ((@pieces_text_fits _ value_of double_text _ _ hlength.le).mpr fun pair hpair => (hpairs pair hpair).1)
      have hno_nul := (written_noNul hplain hformat htext hlength.le).mpr fun pair hpair => (hpairs pair hpair).2
      have hsprintf : qk_sprintf value_of double_text (format_text pieces) arguments = .text text := by
        rw [qk_sprintf_pieces pieces arguments hlength.le, htext]
        exact congrArg Printed.text (before_nul_eq_self.mpr hno_nul)
      refine ⟨.text text, by simp, by rw [printf_literal_pieces hfull hlength, htext], ?_, hsprintf⟩
      cases in_scratch with
      | false => exact hsprintf
      | true =>
        have hnothing := (pieces_text_eq_nil hlength).mpr (hscratch rfl)
        rw [htext] at hnothing
        rw [printf_computed, if_pos rfl, qk_sprintf_nil, Option.some.inj hnothing]
    · have hsprintf := (@qk_sprintf_rejected_iff _ value_of double_text format arguments).mpr hgiven_up
      exact ⟨.rejected, by simp, (printf_literal_rejected_iff format arguments).mpr hcount, hsprintf, hsprintf⟩

section Statements

variable {State : Type}

/-- An argument as it is lowered: what its views as a string and as a number give, and the state each leaves. -/
structure ArgumentExpr (State Number : Type) where
  string : State → Text × State
  number : State → Number × State

/-- The operands of a literal format: each argument is evaluated once, in the view its specifier asks for. The other
field of the argument holds what the other view would give, which no operand reads. -/
def evaluate_once : List Char → List (ArgumentExpr State Number) → State → List (FormatArgument Number)
  | specifier :: specifiers, argument :: arguments, state =>
    ⟨(argument.number state).1, (argument.string state).1⟩ ::
      evaluate_once specifiers arguments
        (if specifier = 's' then (argument.string state).2 else (argument.number state).2)
  | _, _, _ => []

/-- The operands of `qk_sprintf`: each argument is evaluated as a string, and then again as a number. -/
def evaluate_twice : List (ArgumentExpr State Number) → State → List (FormatArgument Number) × State
  | [], state => ([], state)
  | argument :: arguments, state =>
    let string := argument.string state
    let number := argument.number string.2
    let rest := evaluate_twice arguments number.2
    (⟨number.1, string.1⟩ :: rest.1, rest.2)

/-- The specifiers of a literal format that take an argument. -/
def literal_specifiers (format : Text) : List Char :=
  (printf_specifiers format.length format).filter (· ≠ '%')

variable (value_of double_text)

/-- A `printf` statement with a literal format. -/
def printf_literal_statement (format : Text) (arguments : List (ArgumentExpr State Number)) (state : State) :
    Printed :=
  if (literal_specifiers format).length ≠ arguments.length then .rejected
  else printf_literal value_of double_text format (evaluate_once (literal_specifiers format) arguments state)

/-- A `printf` statement with a computed format. The format is a pointer into the state, read after the arguments; the
text written lies in the scratch buffer, where the redirect's target may leave another one. -/
def printf_computed_statement (in_scratch : Bool) (format : State → Text) (target : State → Option Text)
    (arguments : List (ArgumentExpr State Number)) (state : State) : Printed :=
  let evaluated := evaluate_twice arguments state
  match printf_computed value_of double_text in_scratch (format evaluated.2) evaluated.1 with
  | .text text => .text ((target evaluated.2).getD text)
  | .rejected => .rejected
  | .undefined => .undefined

/-- A call of `sprintf`, which captures its format before the arguments. -/
def sprintf_call (format : Text) (arguments : List (ArgumentExpr State Number)) (state : State) : Printed :=
  qk_sprintf value_of double_text format (evaluate_twice arguments state).1

/-- Evaluating the arguments twice gives each specifier the operand it has when they are evaluated once. -/
def EvaluatesAlike : List Char → List (ArgumentExpr State Number) → State → State → Prop
  | specifier :: specifiers, argument :: arguments, once, twice =>
    let string := argument.string twice
    let number := argument.number string.2
    printf_operand value_of specifier ⟨(argument.number once).1, (argument.string once).1⟩ =
        printf_operand value_of specifier ⟨number.1, string.1⟩ ∧
      EvaluatesAlike specifiers arguments
        (if specifier = 's' then (argument.string once).2 else (argument.number once).2) number.2
  | _, _, _, _ => True

/-- Neither the second evaluation of the arguments nor the redirect's target disturbs the statement. -/
structure Undisturbed (in_scratch : Bool) (format : State → Text) (target : State → Option Text)
    (arguments : List (ArgumentExpr State Number)) (state : State) : Prop where
  operands : (literal_specifiers (format state)).length = arguments.length →
    EvaluatesAlike value_of (literal_specifiers (format state)) arguments state state
  format : in_scratch = false → format (evaluate_twice arguments state).2 = format state
  target : target (evaluate_twice arguments state).2 = none

variable {value_of double_text}

theorem evaluate_once_length {specifiers : List Char} {arguments : List (ArgumentExpr State Number)}
    (hlength : specifiers.length = arguments.length) (state : State) :
    (evaluate_once specifiers arguments state).length = arguments.length := by
  induction specifiers generalizing arguments state with
  | nil =>
    obtain rfl := List.length_eq_zero_iff.mp hlength.symm
    rfl
  | cons specifier specifiers ih =>
    cases arguments with
    | nil => cases hlength
    | cons argument arguments => simp [evaluate_once, ih (Nat.succ.inj hlength)]

theorem evaluate_twice_length (arguments : List (ArgumentExpr State Number)) (state : State) :
    (evaluate_twice arguments state).1.length = arguments.length := by
  induction arguments generalizing state with
  | nil => rfl
  | cons argument arguments ih => simp [evaluate_twice, ih]

/-- Arguments that leave the state as it is are evaluated alike. -/
theorem evaluates_alike_of_pure {arguments : List (ArgumentExpr State Number)}
    (hpure : ∀ argument ∈ arguments, ∀ state, (argument.string state).2 = state ∧ (argument.number state).2 = state)
    (specifiers : List Char) (state : State) : EvaluatesAlike value_of specifiers arguments state state := by
  induction specifiers generalizing arguments with
  | nil => trivial
  | cons specifier specifiers ih =>
    cases arguments with
    | nil => trivial
    | cons argument arguments =>
      obtain ⟨hstring, hnumber⟩ := hpure argument List.mem_cons_self state
      refine ⟨by rw [hstring], ?_⟩
      simp only [hstring, hnumber, ite_self]
      exact ih fun other hother => hpure other (List.mem_cons_of_mem _ hother)

theorem printf_operands_alike {specifiers : List Char} {arguments : List (ArgumentExpr State Number)}
    {once twice : State} (halike : EvaluatesAlike value_of specifiers arguments once twice) :
    printf_operands value_of (specifiers.zip (evaluate_once specifiers arguments once)) =
      printf_operands value_of (specifiers.zip (evaluate_twice arguments twice).1) := by
  induction specifiers generalizing arguments once twice with
  | nil => rfl
  | cons specifier specifiers ih =>
    cases arguments with
    | nil => rfl
    | cons argument arguments =>
      simp only [evaluate_once, evaluate_twice, List.zip_cons_cons, printf_operands]
      rw [halike.1, ih halike.2]

/-- Where the operands are those of the second evaluation, the literal path prints what it prints of them. -/
theorem printf_literal_statement_eq {format : Text} {arguments : List (ArgumentExpr State Number)} {state : State}
    (halike : (literal_specifiers format).length = arguments.length →
      EvaluatesAlike value_of (literal_specifiers format) arguments state state) :
    printf_literal_statement value_of double_text format arguments state =
      printf_literal value_of double_text format (evaluate_twice arguments state).1 := by
  rw [printf_literal_statement]
  by_cases hlength : (literal_specifiers format).length = arguments.length
  · have honce := evaluate_once_length hlength state
    have hoperands := printf_operands_alike (halike hlength)
    rw [if_neg (not_not.mpr hlength), printf_literal, printf_literal]
    simp only [literal_specifiers] at honce hoperands ⊢
    simp only [honce, evaluate_twice_length, hoperands]
  · rw [if_pos hlength, eq_comm, printf_literal_rejected_iff, evaluate_twice_length]
    exact hlength

end Statements

end Pieces

/-- An argument whose evaluation has no effect. -/
def constant_argument (value : Rat) : ArgumentExpr Rat Rat := ⟨fun state => ([], state), fun state => (value, state)⟩

/-- `i++`, where the state is the value of `i`. -/
def post_increment : ArgumentExpr Rat Rat := ⟨fun state => ([], state + 1), fun state => (state, state + 1)⟩

end quawk
