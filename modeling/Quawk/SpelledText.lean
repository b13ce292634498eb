import Quawk.ProgramFiles

namespace quawk

/-- A text as the scanner sees it, without the places of its characters. -/
def text_stream : CharStream Text SourcePoint where
  peek text offset := text[offset]?
  advance
    | [] => (none, [])
    | char :: rest => (some char, rest)
  point _ := ⟨0, 0⟩
  remaining := List.length
  advance_char text := by cases text <;> rfl
  remaining_advance text char h := by
    cases text with
    | nil => cases h
    | cons first rest => rfl
  remaining_le text := by
    cases text with
    | nil => exact Nat.le_refl _
    | cons first rest => exact Nat.le_succ _

@[simp] theorem text_peek_zero (text : Text) : text_stream.peek text 0 = text.head? := by cases text <;> rfl

@[simp] theorem text_peek_one (char : Char) (rest : Text) : text_stream.peek (char :: rest) 1 = rest.head? := by
  cases rest <;> rfl

@[simp] theorem text_advance (char : Char) (rest : Text) : text_stream.advance (char :: rest) = (some char, rest) := rfl

@[simp] theorem text_point (text : Text) : text_stream.point text = ⟨0, 0⟩ := rfl

@[simp] theorem text_remaining (text : Text) : text_stream.remaining text = text.length := rfl

theorem text_skip_while (predicate : Char → Bool) {fuel : Nat} {text : Text} (hfuel : text.length ≤ fuel) :
    skip_while text_stream predicate fuel text = text.dropWhile predicate := by
  induction fuel generalizing text with
  | zero =>
    obtain rfl := List.eq_nil_of_length_eq_zero (Nat.le_zero.mp hfuel)
    rfl
  | succ fuel ih =>
    cases text with
    | nil => rfl
    | cons char rest =>
      unfold skip_while
      rw [text_peek_zero, List.head?_cons, List.dropWhile_cons]
      dsimp only
      rw [text_advance, ih (Nat.le_of_succ_le_succ hfuel)]

theorem text_take_while (predicate : Char → Bool) {fuel : Nat} {text : Text} (hfuel : text.length ≤ fuel) :
    take_while text_stream predicate fuel text = (text.takeWhile predicate, text.dropWhile predicate) := by
  induction fuel generalizing text with
  | zero =>
    obtain rfl := List.eq_nil_of_length_eq_zero (Nat.le_zero.mp hfuel)
    rfl
  | succ fuel ih =>
    cases text with
    | nil => rfl
    | cons char rest =>
      change (if predicate char = true then (char :: (take_while text_stream predicate fuel rest).1,
        (take_while text_stream predicate fuel rest).2) else ([], char :: rest)) = _
      rw [ih (Nat.le_of_succ_le_succ hfuel), List.takeWhile_cons, List.dropWhile_cons]
      split_ifs <;> rfl

section Spelling

variable (classes : CharClasses)

def is_word_char (char : Char) : Bool := classes.isalnum char || char == '_'

/-- No character of a word or a number goes on in what follows. -/
def Stops (predicate : Char → Bool) (rest : Text) : Prop := ∀ next ∈ rest.head?, predicate next = false

/-- The characters of a string literal, each backslash with the character behind it. -/
inductive StringBody : Text → Prop where
  | nil : StringBody []
  | escaped (char : Char) {body : Text} (h : StringBody body) : StringBody ('\\' :: char :: body)
  | plain {char : Char} {body : Text} (hchar : char ∉ ['\n', '\\', '"']) (h : StringBody body) : StringBody (char :: body)

/-- The characters of a regex literal, inside a character class or not. -/
inductive RegexBody : Bool → Text → Prop where
  | nil : RegexBody false []
  | escaped (char : Char) {in_char_class : Bool} {body : Text} (h : RegexBody in_char_class body) :
    RegexBody in_char_class ('\\' :: char :: body)
  | class_start {in_char_class : Bool} {body : Text} (h : RegexBody true body) : RegexBody in_char_class ('[' :: body)
  | class_end {in_char_class : Bool} {body : Text} (h : RegexBody false body) : RegexBody in_char_class (']' :: body)
  | plain {char : Char} {in_char_class : Bool} {body : Text} (hchar : char ∉ ['\n', '\\', '[', ']'])
    (hslash : char = '/' → in_char_class = true) (h : RegexBody in_char_class body) :
    RegexBody in_char_class (char :: body)

/-- A token of a kind may be written so where `rest` follows. -/
inductive Spelled : TokenKind → Text → Text → Prop where
  | newline {rest : Text} : Spelled .newline ['\n'] rest
  | punctuation {char : Char} {kind : TokenKind} {rest : Text} (hkind : PUNCTUATION_KINDS.lookup char = some kind)
    (hrest : ∀ next ∈ rest.head?, MULTI_CHAR_TOKEN_KINDS.lookup (char, next) = none) : Spelled kind [char] rest
  | operator {first second : Char} {kind : TokenKind} {rest : Text}
    (hkind : MULTI_CHAR_TOKEN_KINDS.lookup (first, second) = some kind) (hslash : first ≠ '/') :
    Spelled kind [first, second] rest
  | slash {rest : Text} (hrest : rest.head? ≠ some '=') : Spelled .slash ['/'] rest
  | slash_equal {rest : Text} : Spelled .slash_equal ['/', '='] rest
  | word {first : Char} {chars rest : Text} (hfirst : (classes.isalpha first || first == '_') = true)
    (hchars : ∀ char ∈ chars, is_word_char classes char = true) (hrest : Stops (is_word_char classes) rest) :
    Spelled ((KEYWORDS.lookup (String.ofList (first :: chars))).getD .ident) (first :: chars) rest
  | number {first : Char} {whole fraction rest : Text} (hfirst : classes.isdigit first = true)
    (hletter : classes.isalpha first = false) (hwhole : ∀ char ∈ whole, classes.isdigit char = true)
    (hfraction : fraction = [] ∧ rest.head? ≠ some '.' ∨
      ∃ digits, fraction = '.' :: digits ∧ ∀ char ∈ digits, classes.isdigit char = true)
    (hrest : Stops classes.isdigit rest) : Spelled .number (first :: whole ++ fraction) rest
  | string {body rest : Text} (hbody : StringBody body) : Spelled .string ('"' :: body ++ ['"']) rest
  | regex {body rest : Text} (hbody : RegexBody false body) : Spelled .regex ('/' :: body ++ ['/']) rest

/-- What the scanner passes over where `rest` follows: blanks, continued lines, and a comment that ends its line. -/
inductive Gap : Text → Text → Prop where
  | nil {rest : Text} : Gap [] rest
  | blank {char : Char} {gap rest : Text} (hchar : is_horizontal_space char = true) (h : Gap gap rest) :
    Gap (char :: gap) rest
  | continued {gap rest : Text} (h : Gap gap rest) : Gap ('\\' :: '\n' :: gap) rest
  | comment {body rest : Text} (hbody : '\n' ∉ body) (hrest : rest.head? = none ∨ rest.head? = some '\n') :
    Gap ('#' :: body) rest

/-- A text that is written with these tokens and gaps between them. -/
inductive WrittenAs : List (TokenKind × Text) → Text → Prop where
  | done {gap : Text} (hgap : Gap gap []) : WrittenAs [] gap
  | token {kind : TokenKind} {chars gap rest : Text} {tokens : List (TokenKind × Text)} (hgap : Gap gap (chars ++ rest))
    (hspelled : Spelled classes kind chars rest) (h : WrittenAs tokens rest) :
    WrittenAs ((kind, chars) :: tokens) (gap ++ (chars ++ rest))

end Spelling

section Scan

variable {classes : CharClasses}

theorem text_take_digits {digits rest : Text} (hdigits : ∀ char ∈ digits, classes.isdigit char = true)
    (hrest : Stops classes.isdigit rest) {seen_decimal : Bool} (hpoint : seen_decimal = true ∨ rest.head? ≠ some '.')
    {fuel : Nat} (hfuel : (digits ++ rest).length ≤ fuel) :
    take_number classes text_stream seen_decimal fuel (digits ++ rest) = (digits, rest) := by
  induction digits generalizing fuel with
  | nil =>
    cases fuel with
    | zero =>
      obtain rfl : rest = [] := List.eq_nil_of_length_eq_zero (Nat.le_zero.mp hfuel)
      rfl
    | succ fuel =>
      cases rest with
      | nil => rfl
      | cons next rest =>
        have hnext : classes.isdigit next = false := hrest next rfl
        have hno_point : (next == '.' && !seen_decimal) = false := by
          obtain rfl | hpoint := hpoint
          · rw [Bool.not_true, Bool.and_false]
          · have hne : next ≠ '.' := fun heq => hpoint (by rw [heq]; rfl)
            rw [beq_false_of_ne hne, Bool.false_and]
        unfold take_number
        simp [hnext, hno_point]
  | cons digit digits ih =>
    obtain ⟨fuel, rfl⟩ := Nat.exists_eq_succ_of_ne_zero (Nat.ne_of_gt (Nat.zero_lt_of_lt hfuel))
    have hdigit : classes.isdigit digit = true := hdigits digit List.mem_cons_self
    have hrest' := ih (fun char hmem => hdigits char (List.mem_cons_of_mem _ hmem)) (Nat.le_of_succ_le_succ hfuel)
    unfold take_number
    simp [hdigit, hrest']

theorem point_not_digit : classes.isdigit '.' = false := classes.ascii_digit '.' (by decide)

theorem text_take_fraction {whole digits rest : Text} (hwhole : ∀ char ∈ whole, classes.isdigit char = true)
    (hdigits : ∀ char ∈ digits, classes.isdigit char = true) (hrest : Stops classes.isdigit rest) {fuel : Nat}
    (hfuel : (whole ++ '.' :: digits ++ rest).length ≤ fuel) :
    take_number classes text_stream false fuel (whole ++ '.' :: digits ++ rest) = (whole ++ '.' :: digits, rest) := by
  induction whole generalizing fuel with
  | nil =>
    obtain ⟨fuel, rfl⟩ := Nat.exists_eq_succ_of_ne_zero (Nat.ne_of_gt (Nat.zero_lt_of_lt hfuel))
    have hfraction := text_take_digits hdigits hrest (.inl (rfl : true = true)) (Nat.le_of_succ_le_succ hfuel)
    unfold take_number
    simp [point_not_digit, hfraction]
  | cons digit whole ih =>
    obtain ⟨fuel, rfl⟩ := Nat.exists_eq_succ_of_ne_zero (Nat.ne_of_gt (Nat.zero_lt_of_lt hfuel))
    have hdigit : classes.isdigit digit = true := hwhole digit List.mem_cons_self
    have hrest' := ih (fun char hmem => hwhole char (List.mem_cons_of_mem _ hmem)) (Nat.le_of_succ_le_succ hfuel)
    unfold take_number
    simp only [List.append_assoc, List.cons_append] at hrest'
    simp [hdigit, hrest']

theorem text_take_string {body rest : Text} (h : StringBody body) {fuel : Nat}
    (hfuel : (body ++ '"' :: rest).length ≤ fuel) :
    take_string text_stream false fuel (body ++ '"' :: rest) = (body ++ ['"'], true, rest) := by
  induction h generalizing fuel with
  | nil =>
    obtain ⟨fuel, rfl⟩ := Nat.exists_eq_succ_of_ne_zero (Nat.ne_of_gt (Nat.zero_lt_of_lt hfuel))
    unfold take_string
    simp
  | @escaped char body _ ih =>
    obtain ⟨fuel, rfl⟩ : ∃ less, fuel = less + 2 := ⟨fuel - 2, by simp at hfuel; omega⟩
    have hrest' := @ih fuel (by simp at hfuel ⊢; omega)
    unfold take_string take_string
    simp [hrest']
  | @plain char body hchar _ ih =>
    obtain ⟨fuel, rfl⟩ := Nat.exists_eq_succ_of_ne_zero (Nat.ne_of_gt (Nat.zero_lt_of_lt hfuel))
    have hrest' := @ih fuel (Nat.le_of_succ_le_succ hfuel)
    simp only [List.mem_cons, List.not_mem_nil, or_false, not_or] at hchar
    obtain ⟨hnewline, hbackslash, hquote⟩ := hchar
    unfold take_string
    simp [hnewline, hquote, beq_false_of_ne hbackslash, hrest']

theorem text_take_regex {in_char_class : Bool} {body rest : Text} (h : RegexBody in_char_class body) {fuel : Nat}
    (hfuel : (body ++ '/' :: rest).length ≤ fuel) :
    take_regex text_stream false in_char_class fuel (body ++ '/' :: rest) = (body ++ ['/'], true, rest) := by
  induction h generalizing fuel with
  | nil =>
    obtain ⟨fuel, rfl⟩ := Nat.exists_eq_succ_of_ne_zero (Nat.ne_of_gt (Nat.zero_lt_of_lt hfuel))
    unfold take_regex
    simp
  | @escaped char in_char_class body _ ih =>
    obtain ⟨fuel, rfl⟩ : ∃ less, fuel = less + 2 := ⟨fuel - 2, by simp at hfuel; omega⟩
    have hrest' := @ih fuel (by simp at hfuel ⊢; omega)
    unfold take_regex take_regex
    simp [hrest']
  | class_start _ ih =>
    obtain ⟨fuel, rfl⟩ := Nat.exists_eq_succ_of_ne_zero (Nat.ne_of_gt (Nat.zero_lt_of_lt hfuel))
    have hrest' := @ih fuel (Nat.le_of_succ_le_succ hfuel)
    unfold take_regex
    simp [hrest']
  | class_end _ ih =>
    obtain ⟨fuel, rfl⟩ := Nat.exists_eq_succ_of_ne_zero (Nat.ne_of_gt (Nat.zero_lt_of_lt hfuel))
    have hrest' := @ih fuel (Nat.le_of_succ_le_succ hfuel)
    unfold take_regex
    simp [hrest']
  | @plain char in_char_class body hchar hslash _ ih =>
    obtain ⟨fuel, rfl⟩ := Nat.exists_eq_succ_of_ne_zero (Nat.ne_of_gt (Nat.zero_lt_of_lt hfuel))
    have hrest' := @ih fuel (Nat.le_of_succ_le_succ hfuel)
    simp only [List.mem_cons, List.not_mem_nil, or_false, not_or] at hchar
    obtain ⟨hnewline, hbackslash, hopen, hclose⟩ := hchar
    have hinside : ¬ (in_char_class = false ∧ char = '/') := by
      rintro ⟨houtside, heq⟩
      rw [hslash heq] at houtside
      cases houtside
    unfold take_regex
    simp [hnewline, beq_false_of_ne hbackslash, hopen, hclose, hinside, hrest']

theorem takeWhile_stops {predicate : Char → Bool} {chars rest : Text} (hchars : ∀ char ∈ chars, predicate char = true)
    (hrest : Stops predicate rest) :
    (chars ++ rest).takeWhile predicate = chars ∧ (chars ++ rest).dropWhile predicate = rest := by
  rw [List.takeWhile_append_of_pos hchars, List.dropWhile_append_of_pos hchars]
  cases rest with
  | nil => exact ⟨List.append_nil _, rfl⟩
  | cons next rest =>
    have hnext : ¬ predicate next = true := by rw [hrest next rfl]; exact Bool.false_ne_true
    rw [List.takeWhile_cons_of_neg hnext, List.dropWhile_cons_of_neg hnext, List.append_nil]
    exact ⟨rfl, rfl⟩

/-- Whether an operand is expected behind a token. -/
def operand_after (expect_operand : Bool) (kind : TokenKind) : Bool :=
  if kind = .plus_plus ∨ kind = .minus_minus then expect_operand else OPERAND_CONTEXT_KINDS.contains kind

/-- The text that the scanner keeps of a token. -/
def kept_text (kind : TokenKind) (chars : Text) : Option Text :=
  if [TokenKind.ident, .string, .number, .regex].contains kind then some chars else none

/-- A token without its place. -/
def placeless (kind : TokenKind) (chars : Text) : Token := ⟨kind, ⟨⟨0, 0⟩, ⟨0, 0⟩⟩, kept_text kind chars⟩

/-- The characters that start no word and no number. -/
def SPECIAL_CHARS : List Char :=
  [' ', '\t', '\r', '\x0c', '\x0b', '\\', '\n', '#', '/', '"', '&'] ++ PUNCTUATION_KINDS.map Prod.fst

theorem not_special {char : Char}
    (h : (classes.isalpha char || char == '_') = true ∨ classes.isdigit char = true) : char ∉ SPECIAL_CHARS := by
  have hspecial : (SPECIAL_CHARS.all fun char =>
      decide (char.toNat < 128) && !char.isAlpha && char != '_' && !char.isDigit) = true := by decide
  intro hmem
  have hchar := List.all_eq_true.mp hspecial char hmem
  simp only [Bool.and_eq_true, decide_eq_true_eq, Bool.not_eq_true', bne_iff_ne] at hchar
  obtain ⟨⟨⟨hascii, halpha⟩, hunderscore⟩, hdigit⟩ := hchar
  rw [classes.ascii_alpha char hascii, halpha, beq_false_of_ne hunderscore, classes.ascii_digit char hascii, hdigit] at h
  obtain h | h := h <;> cases h

theorem lookup_of_not_special {char : Char} (h : char ∉ SPECIAL_CHARS) : PUNCTUATION_KINDS.lookup char = none := by
  rw [List.lookup_eq_none_iff]
  intro entry hentry
  rw [bne_iff_ne]
  rintro rfl
  exact h (List.mem_append_right _ (List.mem_map_of_mem hentry))

theorem operator_of_not_special {char : Char} (h : char ∉ SPECIAL_CHARS) (next : Char) :
    MULTI_CHAR_TOKEN_KINDS.lookup (char, next) = none := by
  have hfirst : ∀ entry ∈ MULTI_CHAR_TOKEN_KINDS, entry.1.1 ∈ SPECIAL_CHARS := by decide
  rw [List.lookup_eq_none_iff]
  intro entry hentry
  rw [bne_iff_ne]
  rintro heq
  have hmem := hfirst entry hentry
  rw [← heq] at hmem
  exact h hmem

theorem multi_char_none {start : SourcePoint} {char : Char} {rest : Text} {expect_operand : Bool}
    (h : ∀ next ∈ rest.head?, MULTI_CHAR_TOKEN_KINDS.lookup (char, next) = none) :
    scan_multi_char_operator text_stream start ⟨char :: rest, expect_operand⟩ = none := by
  unfold scan_multi_char_operator
  cases rest with
  | nil => rfl
  | cons next rest => simp [h next rfl]

/-- The branches of the scanner before the operators are for these characters alone. -/
theorem scan_token_operator {char : Char} {rest : Text} {expect_operand : Bool}
    (h : char ∉ [' ', '\t', '\r', '\x0c', '\x0b', '\\', '\n', '#', '/']) :
    scan_token classes text_stream ⟨char :: rest, expect_operand⟩ =
      match scan_multi_char_operator text_stream ⟨0, 0⟩ ⟨char :: rest, expect_operand⟩,
        PUNCTUATION_KINDS.lookup char with
      | some scanned, _ => pure scanned
      | none, some kind => pure (token_from text_stream ⟨0, 0⟩ kind none ⟨rest, expect_operand⟩)
      | none, none =>
        if char = '"' then scan_string_literal text_stream ⟨0, 0⟩ ⟨char :: rest, expect_operand⟩
        else if classes.isalpha char || char == '_' then
          pure (scan_identifier_or_keyword classes text_stream ⟨0, 0⟩ ⟨char :: rest, expect_operand⟩)
        else if classes.isdigit char then
          pure (scan_number classes text_stream ⟨0, 0⟩ ⟨char :: rest, expect_operand⟩)
        else throw (.lex_error (.unexpected_character char) ⟨⟨0, 0⟩, ⟨0, 0⟩⟩) := by
  simp only [List.mem_cons, List.not_mem_nil, or_false, not_or] at h
  obtain ⟨h1, h2, h3, h4, h5, hbackslash, hnewline, hcomment, hslash⟩ := h
  have hspace : is_horizontal_space char = false := by
    simp [is_horizontal_space, h1, h2, h3, h4, h5]
  unfold scan_token
  rw [text_peek_zero, List.head?_cons]
  dsimp only
  rw [hspace, if_neg Bool.false_ne_true, if_neg (fun hcontinued => hbackslash hcontinued.1), if_neg hnewline,
    if_neg hcomment, if_neg hslash]
  simp only [text_point, text_advance]
  cases scan_multi_char_operator text_stream ⟨0, 0⟩ ⟨char :: rest, expect_operand⟩ with
  | some scanned => rfl
  | none => cases PUNCTUATION_KINDS.lookup char <;> rfl

/-- A character that is not special starts a word or a number, or there is an error. -/
theorem scan_token_not_special {char : Char} (h : char ∉ SPECIAL_CHARS) (rest : Text) (expect_operand : Bool) :
    scan_token classes text_stream ⟨char :: rest, expect_operand⟩ =
      if classes.isalpha char || char == '_' then
        pure (scan_identifier_or_keyword classes text_stream ⟨0, 0⟩ ⟨char :: rest, expect_operand⟩)
      else if classes.isdigit char then
        pure (scan_number classes text_stream ⟨0, 0⟩ ⟨char :: rest, expect_operand⟩)
      else throw (.lex_error (.unexpected_character char) ⟨⟨0, 0⟩, ⟨0, 0⟩⟩) := by
  have hsubset : [' ', '\t', '\r', '\x0c', '\x0b', '\\', '\n', '#', '/'] ⊆ SPECIAL_CHARS := by decide
  have hquote : char ≠ '"' := fun heq => h (by rw [heq]; decide)
  rw [scan_token_operator fun hmem => h (hsubset hmem), multi_char_none fun next _ => operator_of_not_special h next,
    lookup_of_not_special h]
  exact if_neg hquote

theorem scan_token_word {first : Char} {chars rest : Text} {expect_operand : Bool}
    (hfirst : (classes.isalpha first || first == '_') = true)
    (hchars : ∀ char ∈ chars, is_word_char classes char = true) (hrest : Stops (is_word_char classes) rest) :
    scan_token classes text_stream ⟨first :: chars ++ rest, expect_operand⟩ =
      .ok (some (placeless ((KEYWORDS.lookup (String.ofList (first :: chars))).getD .ident) (first :: chars)),
        ⟨rest, operand_after expect_operand ((KEYWORDS.lookup (String.ofList (first :: chars))).getD .ident)⟩) := by
  have hword : ∀ char ∈ first :: chars, is_word_char classes char = true := by
    rintro char (_ | ⟨_, hmem⟩)
    · unfold is_word_char
      rw [Bool.or_eq_true] at hfirst ⊢
      exact hfirst.imp_left (classes.alpha_alnum first)
    · exact hchars char hmem
  obtain ⟨htaken, hleft⟩ := takeWhile_stops hword hrest
  have hkept : (if (KEYWORDS.lookup (String.ofList (first :: chars))).getD .ident = .ident then some (first :: chars)
      else none) = kept_text ((KEYWORDS.lookup (String.ofList (first :: chars))).getD .ident) (first :: chars) := by
    have hkinds : ∀ kind ∈ KEYWORDS.map Prod.snd, kind ∉ [TokenKind.ident, .string, .number, .regex] := by decide
    cases hlookup : KEYWORDS.lookup (String.ofList (first :: chars)) with
    | none => rfl
    | some kind =>
      obtain ⟨before, after, heq, _⟩ := List.lookup_eq_some_iff.mp hlookup
      have hmem : kind ∈ KEYWORDS.map Prod.snd := by
        rw [heq]
        simp
      have hkind := hkinds kind hmem
      have hident : kind ≠ .ident := fun hident => hkind (hident ▸ List.mem_cons_self)
      unfold kept_text
      rw [Option.getD_some, if_neg hident, if_neg (mt List.contains_iff_mem.mp hkind)]
  rw [List.cons_append] at htaken hleft ⊢
  rw [scan_token_not_special (not_special (.inl hfirst)), if_pos hfirst]
  have hscanned : take_while text_stream (fun char => classes.isalnum char || char == '_')
      (first :: (chars ++ rest)).length (first :: (chars ++ rest)) = (first :: chars, rest) := by
    rw [text_take_while _ (Nat.le_refl _)]
    exact Prod.ext htaken hleft
  unfold scan_identifier_or_keyword
  rw [text_remaining]
  dsimp only
  rw [hscanned]
  dsimp only
  rw [hkept]
  rfl

theorem scan_token_number {first : Char} {whole fraction rest : Text} {expect_operand : Bool}
    (hfirst : classes.isdigit first = true)
    (hletter : classes.isalpha first = false) (hwhole : ∀ char ∈ whole, classes.isdigit char = true)
    (hfraction : fraction = [] ∧ rest.head? ≠ some '.' ∨
      ∃ digits, fraction = '.' :: digits ∧ ∀ char ∈ digits, classes.isdigit char = true)
    (hrest : Stops classes.isdigit rest) :
    scan_token classes text_stream ⟨first :: whole ++ fraction ++ rest, expect_operand⟩ =
      .ok (some (placeless .number (first :: whole ++ fraction)), ⟨rest, operand_after expect_operand .number⟩) := by
  have htaken : take_number classes text_stream false (first :: whole ++ fraction ++ rest).length
      (first :: whole ++ fraction ++ rest) = (first :: whole ++ fraction, rest) := by
    have hdigits : ∀ char ∈ first :: whole, classes.isdigit char = true := by
      rintro char (_ | ⟨_, hmem⟩)
      · exact hfirst
      · exact hwhole char hmem
    obtain ⟨rfl, hpoint⟩ | ⟨digits, rfl, hdigits'⟩ := hfraction
    · rw [List.append_nil]
      exact text_take_digits hdigits hrest (.inr hpoint) (Nat.le_refl _)
    · exact text_take_fraction hdigits hdigits' hrest (Nat.le_refl _)
  have hunderscore : first ≠ '_' := by
    rintro rfl
    rw [classes.ascii_digit '_' (by decide)] at hfirst
    cases hfirst
  rw [List.cons_append, List.cons_append] at htaken ⊢
  rw [scan_token_not_special (not_special (.inr hfirst)), hletter, beq_false_of_ne hunderscore, if_neg (by decide), hfirst,
    if_pos rfl]
  unfold scan_number
  rw [text_remaining, htaken]
  rfl

/-- The scanner takes a token as it is written, if a slash is what it is taken for there. -/
theorem scan_token_spelled {kind : TokenKind} {chars rest : Text} (h : Spelled classes kind chars rest)
    {expect_operand : Bool} (hregex : kind = .regex → expect_operand = true)
    (hslash : kind = .slash ∨ kind = .slash_equal → expect_operand = false) :
    scan_token classes text_stream ⟨chars ++ rest, expect_operand⟩ =
      .ok (some (placeless kind chars), ⟨rest, operand_after expect_operand kind⟩) := by
  cases h with
  | newline => rfl
  | @punctuation char kind rest hkind hrest =>
    have hkinds : ∀ entry ∈ PUNCTUATION_KINDS, entry.1 ∉ [' ', '\t', '\r', '\x0c', '\x0b', '\\', '\n', '#', '/'] ∧
        kept_text entry.2 [entry.1] = none := by decide
    obtain ⟨before, after, heq, _⟩ := List.lookup_eq_some_iff.mp hkind
    obtain ⟨hchar, hkept⟩ := hkinds (char, kind) (by rw [heq]; simp)
    rw [List.singleton_append, scan_token_operator hchar, multi_char_none hrest, hkind]
    unfold placeless
    rw [hkept]
    rfl
  | @operator first second kind rest hkind hfirst =>
    have hkinds : ∀ entry ∈ MULTI_CHAR_TOKEN_KINDS, entry.1.1 ∉ [' ', '\t', '\r', '\x0c', '\x0b', '\\', '\n', '#'] ∧
        kept_text entry.2 [entry.1.1, entry.1.2] = none := by decide
    obtain ⟨before, after, heq, _⟩ := List.lookup_eq_some_iff.mp hkind
    obtain ⟨hchar, hkept⟩ := hkinds ((first, second), kind) (by rw [heq]; simp)
    have hscanned : scan_multi_char_operator text_stream ⟨0, 0⟩ ⟨first :: second :: rest, expect_operand⟩ =
        some (token_from text_stream ⟨0, 0⟩ kind none ⟨rest, expect_operand⟩) := by
      unfold scan_multi_char_operator
      simp [hkind]
    have hother : first ∉ [' ', '\t', '\r', '\x0c', '\x0b', '\\', '\n', '#'] ++ ['/'] := fun hmem =>
      (List.mem_append.mp hmem).elim hchar fun hmem => hfirst (List.mem_singleton.mp hmem)
    rw [List.cons_append, List.singleton_append, scan_token_operator hother, hscanned]
    unfold placeless
    rw [hkept]
    rfl
  | slash hrest =>
    rw [hslash (.inl rfl)]
    unfold scan_token scan_slash_or_regex
    rw [List.singleton_append, text_peek_zero, List.head?_cons, text_peek_one]
    dsimp only
    rw [if_neg hrest]
    rfl
  | slash_equal =>
    rw [hslash (.inr rfl)]
    rfl
  | word hfirst hchars hrest => exact scan_token_word hfirst hchars hrest
  | number hfirst hletter hwhole hfraction hrest => exact scan_token_number hfirst hletter hwhole hfraction hrest
  | @string body rest hbody =>
    have htaken := text_take_string hbody (Nat.le_refl (body ++ '"' :: rest).length)
    rw [List.append_assoc, List.singleton_append, List.cons_append, scan_token_operator (by decide),
      multi_char_none (fun next _ => by simp [MULTI_CHAR_TOKEN_KINDS])]
    change scan_string_literal text_stream ⟨0, 0⟩ ⟨'"' :: (body ++ '"' :: rest), expect_operand⟩ = _
    unfold scan_string_literal
    rw [text_advance]
    dsimp only
    rw [text_remaining, htaken]
    rfl
  | @regex body rest hbody =>
    have htaken := text_take_regex hbody (Nat.le_refl (body ++ '/' :: rest).length)
    rw [hregex rfl, List.append_assoc, List.singleton_append, List.cons_append]
    change scan_regex_literal text_stream ⟨0, 0⟩ ⟨'/' :: (body ++ '/' :: rest), true⟩ = _
    unfold scan_regex_literal
    rw [text_advance]
    dsimp only
    rw [text_remaining, htaken]
    rfl

/-- What comes of the scanner on a text, with turns enough for all of it. -/
def Reaches (classes : CharClasses) (expect_operand : Bool) (text : Text) (result : Except LexFailure (List Token) → Prop) : Prop :=
  ∀ fuel, text.length < fuel → result (scan_tokens classes text_stream fuel ⟨text, expect_operand⟩)

variable {expect_operand : Bool} {result : Except LexFailure (List Token) → Prop}

theorem scan_tokens_none {fuel : Nat} {text rest : Text}
    (h : scan_token classes text_stream ⟨text, expect_operand⟩ = .ok (none, ⟨rest, expect_operand⟩)) :
    scan_tokens classes text_stream (fuel + 1) ⟨text, expect_operand⟩ =
      scan_tokens classes text_stream fuel ⟨rest, expect_operand⟩ := by
  conv_lhs => unfold scan_tokens
  rw [h]
  rfl

theorem scan_token_blank {char : Char} {rest : Text} (h : is_horizontal_space char = true) :
    scan_token classes text_stream ⟨char :: rest, expect_operand⟩ =
      .ok (none, ⟨rest.dropWhile is_horizontal_space, expect_operand⟩) := by
  unfold scan_token skip_horizontal_whitespace
  rw [text_peek_zero, List.head?_cons]
  dsimp only
  rw [if_pos h, text_remaining, text_skip_while _ (Nat.le_refl _), List.dropWhile_cons_of_pos h]
  rfl

theorem scan_token_comment {body rest : Text} (hbody : '\n' ∉ body)
    (hrest : rest.head? = none ∨ rest.head? = some '\n') :
    scan_token classes text_stream ⟨'#' :: body ++ rest, expect_operand⟩ = .ok (none, ⟨rest, expect_operand⟩) := by
  have hcomment : ∀ char ∈ '#' :: body, (char != '\n') = true := by
    rintro char (_ | ⟨_, hmem⟩)
    · rfl
    · exact bne_iff_ne.mpr fun heq => hbody (heq ▸ hmem)
  have hstops : Stops (· != '\n') rest := fun next hnext => by
    obtain hnone | hnewline := hrest
    · rw [hnone] at hnext
      cases hnext
    · rw [hnewline] at hnext
      obtain rfl := Option.some.inj hnext
      rfl
  have hskipped : skip_comment text_stream ('#' :: body ++ rest) = rest := by
    unfold skip_comment
    rw [text_remaining, text_skip_while _ (Nat.le_refl _)]
    exact (takeWhile_stops hcomment hstops).2
  change Except.ok (none, (⟨skip_comment text_stream ('#' :: body ++ rest), expect_operand⟩ : Lexer Text)) = _
  rw [hskipped]

theorem Gap.reaches {gap rest : Text} (h : Gap gap rest) (hrest : Reaches classes expect_operand rest result) :
    Reaches classes expect_operand (gap ++ rest) result := by
  induction h with
  | nil => exact hrest
  | @blank char gap rest hchar _ ih =>
    have hinner := ih hrest
    intro fuel hfuel
    obtain ⟨fuel, rfl⟩ := Nat.exists_eq_succ_of_ne_zero (Nat.ne_of_gt (Nat.zero_lt_of_lt hfuel))
    rw [List.cons_append, scan_tokens_none (scan_token_blank hchar)]
    cases hnext : gap ++ rest with
    | nil =>
      rw [hnext] at hinner
      exact hinner fuel (Nat.lt_of_succ_lt_succ (by rwa [List.cons_append, hnext] at hfuel))
    | cons next later =>
      rw [hnext] at hinner
      rw [List.cons_append, hnext] at hfuel
      by_cases hblank : is_horizontal_space next = true
      · rw [List.dropWhile_cons_of_pos hblank, ← scan_tokens_none (scan_token_blank hblank)]
        exact hinner _ (Nat.lt_of_succ_lt hfuel)
      · rw [List.dropWhile_cons_of_neg hblank]
        exact hinner fuel (Nat.lt_of_succ_lt_succ hfuel)
  | @continued gap rest _ ih =>
    intro fuel hfuel
    obtain ⟨fuel, rfl⟩ := Nat.exists_eq_succ_of_ne_zero (Nat.ne_of_gt (Nat.zero_lt_of_lt hfuel))
    have hscanned : scan_token classes text_stream ⟨'\\' :: '\n' :: gap ++ rest, expect_operand⟩ =
        .ok (none, ⟨gap ++ rest, expect_operand⟩) := rfl
    rw [scan_tokens_none hscanned]
    exact ih hrest fuel (by simp only [List.cons_append, List.length_cons] at hfuel; omega)
  | comment hbody hends =>
    intro fuel hfuel
    obtain ⟨fuel, rfl⟩ := Nat.exists_eq_succ_of_ne_zero (Nat.ne_of_gt (Nat.zero_lt_of_lt hfuel))
    rw [scan_tokens_none (scan_token_comment hbody hends)]
    exact hrest fuel (by simp only [List.cons_append, List.length_append, List.length_cons] at hfuel; omega)

theorem reaches_end (h : result (.ok [⟨.eof, ⟨⟨0, 0⟩, ⟨0, 0⟩⟩, none⟩])) :
    Reaches classes expect_operand [] result := by
  intro fuel hfuel
  obtain ⟨fuel, rfl⟩ := Nat.exists_eq_succ_of_ne_zero (Nat.ne_of_gt (Nat.zero_lt_of_lt hfuel))
  exact h

theorem reaches_token {text rest : Text} {token : Token} {after : Bool} (hkind : token.kind ≠ .eof)
    (hscanned : scan_token classes text_stream ⟨text, expect_operand⟩ = .ok (some token, ⟨rest, after⟩))
    (hless : rest.length < text.length)
    (hrest : Reaches classes after rest fun later => result (later.map (token :: ·))) :
    Reaches classes expect_operand text result := by
  intro fuel hfuel
  obtain ⟨fuel, rfl⟩ := Nat.exists_eq_succ_of_ne_zero (Nat.ne_of_gt (Nat.zero_lt_of_lt hfuel))
  have hlater := hrest fuel (by omega)
  unfold scan_tokens
  rw [hscanned]
  change result (if token.kind = .eof then pure [token] else do
    return token :: (← scan_tokens classes text_stream fuel ⟨rest, after⟩))
  rw [if_neg hkind]
  cases hscan : scan_tokens classes text_stream fuel ⟨rest, after⟩ with
  | error failure => rw [hscan] at hlater; exact hlater
  | ok tokens => rw [hscan] at hlater; exact hlater

end Scan

/-- A cursor, and what is left of the text behind it. -/
def SameText (text : Text) (cursor : ValidCursor) (chars : Text) : Prop :=
  ∃ taken, SourceCursor.Taken (.from_inline text) taken cursor.val ∧ chars = text.drop taken

/-- A cursor, and what is ahead of it in the files of a program joined to one text. -/
def Ahead (source : ProgramSource) (cursor : ValidCursor) (chars : Text) : Prop :=
  ∃ taken, SourceCursor.Taken source taken cursor.val ∧ chars = (joined source.texts).drop taken

theorem ahead_simulates (source : ProgramSource) :
    source_stream.Simulates text_stream (fun _ _ => True) (Ahead source) where
  peek := by
    rintro cursor chars ⟨taken, h, rfl⟩ offset
    rw [show text_stream.peek ((joined source.texts).drop taken) offset =
      ((joined source.texts).drop taken)[offset]? from rfl, List.getElem?_drop]
    exact h.peek offset
  advance := by
    rintro cursor chars ⟨taken, h, rfl⟩
    refine ⟨_, h.advance.2, ?_⟩
    rcases Nat.lt_or_ge taken (joined source.texts).length with hless | hend
    · rw [List.drop_eq_getElem_cons hless, text_advance, Nat.min_eq_left hless]
    · rw [List.drop_eq_nil_of_le hend, Nat.min_eq_right (Nat.le_succ_of_le hend), List.drop_length]
      rfl
  point := fun _ => trivial
  remaining := by
    rintro cursor chars ⟨taken, h, rfl⟩
    rw [text_remaining, List.length_drop]
    exact h.rest_length

theorem text_simulates (text : Text) :
    source_stream.Simulates text_stream (fun _ _ => True) (SameText text) :=
  ahead_simulates (.from_inline text)

/-- The kinds and the texts of tokens, without their places. -/
def shape (token : Token) : TokenKind × Option Text := (token.kind, token.text)

theorem lex_of_scan (classes : CharClasses) (text : Text) :
    (lex classes (.from_inline text)).toOption.map (List.map shape) =
      (scan_tokens classes text_stream (text.length + 1) ⟨text, true⟩).toOption.map (List.map shape) := by
  have hstart : SameText text ⟨.start (.from_inline text), SourceCursor.start_valid _⟩ text := ⟨0, .start _, rfl⟩
  have hagree : Agree (fun _ _ => True) (List.Forall₂ (Token.Matches fun _ _ => True))
      (scan_tokens classes source_stream (text.length + 1)
        ⟨⟨.start (.from_inline text), SourceCursor.start_valid _⟩, true⟩)
      (scan_tokens classes text_stream (text.length + 1) ⟨text, true⟩) :=
    Scanned.scan_tokens (text_simulates text) _ ⟨hstart, rfl⟩
  have hfuel : source_stream.remaining ⟨.start (.from_inline text), SourceCursor.start_valid _⟩ = text.length :=
    (text_simulates text).remaining hstart
  unfold lex scan_stream
  rw [hfuel]
  generalize scan_tokens classes source_stream _ _ = scanned at hagree ⊢
  generalize scan_tokens classes text_stream _ _ = scanned' at hagree ⊢
  cases hagree with
  | ok htokens =>
    refine congrArg some ?_
    induction htokens with
    | nil => rfl
    | cons hfirst _ ih =>
      rw [List.map_cons, List.map_cons, ih]
      unfold shape
      rw [hfirst.kind, hfirst.text]
  | lex_error _ _ => rfl
  | unfinished => rfl

end quawk
