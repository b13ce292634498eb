import Quawk.SlashContext

namespace quawk

section Place

variable {S : Type} {classes : CharClasses} {stream : CharStream S SourcePoint} {lexer : Lexer S}

/-- A scanned token lies between the points of the scanner before and after it. -/
def Placed (stream : CharStream S SourcePoint) (lexer : Lexer S) (scanned : Option Token × Lexer S) : Prop :=
  ∀ token ∈ scanned.1, token.span = ⟨stream.point lexer.cursor, stream.point scanned.2.cursor⟩

theorem token_from_placed (kind : TokenKind) (text : Option Text) (after : Lexer S) :
    Placed stream lexer (token_from stream (stream.point lexer.cursor) kind text after) := by
  intro token htoken
  obtain rfl := Option.some.inj htoken
  rfl

theorem multi_char_placed {scanned : Option Token × Lexer S}
    (h : scan_multi_char_operator stream (stream.point lexer.cursor) lexer = some scanned) :
    Placed stream lexer scanned := by
  unfold scan_multi_char_operator at h
  simp only [Option.bind_eq_bind, Option.bind_eq_some_iff] at h
  obtain ⟨first, _, second, _, kind, _, heq⟩ := h
  obtain rfl := Option.some.inj heq
  exact token_from_placed _ _ _

theorem string_placed {scanned : Option Token × Lexer S}
    (h : scan_string_literal stream (stream.point lexer.cursor) lexer = .ok scanned) : Placed stream lexer scanned := by
  unfold scan_string_literal at h
  dsimp only at h
  split_ifs at h
  obtain rfl := Except.ok.inj h
  exact token_from_placed _ _ _

theorem slash_placed {scanned : Option Token × Lexer S}
    (h : scan_slash_or_regex stream (stream.point lexer.cursor) lexer = .ok scanned) : Placed stream lexer scanned := by
  unfold scan_slash_or_regex scan_regex_literal at h
  dsimp only at h
  split_ifs at h
  all_goals
    obtain rfl := Except.ok.inj h
    exact token_from_placed _ _ _

theorem scan_token_placed {scanned : Option Token × Lexer S} (h : scan_token classes stream lexer = .ok scanned) :
    Placed stream lexer scanned := by
  unfold scan_token at h
  cases hpeek : stream.peek lexer.cursor 0 with
  | none =>
    rw [hpeek] at h
    obtain rfl := Except.ok.inj h
    intro token htoken
    obtain rfl := Option.some.inj htoken
    rfl
  | some char =>
    rw [hpeek] at h
    dsimp only at h
    by_cases hspace : is_horizontal_space char = true
    · rw [if_pos hspace] at h
      obtain rfl := Except.ok.inj h
      exact nofun
    rw [if_neg hspace] at h
    by_cases hcontinued : char = '\\' ∧ stream.peek lexer.cursor 1 = some '\n'
    · rw [if_pos hcontinued] at h
      obtain rfl := Except.ok.inj h
      exact nofun
    rw [if_neg hcontinued] at h
    by_cases hnewline : char = '\n'
    · rw [if_pos hnewline] at h
      obtain rfl := Except.ok.inj h
      exact token_from_placed _ _ _
    rw [if_neg hnewline] at h
    by_cases hcomment : char = '#'
    · rw [if_pos hcomment] at h
      obtain rfl := Except.ok.inj h
      exact nofun
    rw [if_neg hcomment] at h
    by_cases hslash : char = '/'
    · rw [if_pos hslash] at h
      exact slash_placed h
    rw [if_neg hslash] at h
    split at h
    · next hoperator =>
      obtain rfl := Except.ok.inj h
      exact multi_char_placed hoperator
    · obtain rfl := Except.ok.inj h
      exact token_from_placed _ _ _
    · split_ifs at h
      · exact string_placed h
      all_goals
        obtain rfl := Except.ok.inj h
        exact token_from_placed _ _ _

end Place

section Spelling

variable {classes : CharClasses}

theorem take_string_closed {escaped : Bool} {fuel : Nat} {text chars rest : Text}
    (h : take_string text_stream escaped fuel text = (chars, true, rest)) :
    text = chars ++ rest ∧ ∃ body, chars = body ++ ['"'] ∧
      if escaped then ∃ first later, body = first :: later ∧ StringBody later else StringBody body := by
  induction fuel generalizing escaped text chars rest with
  | zero => cases h
  | succ fuel ih =>
    unfold take_string at h
    cases text with
    | nil => cases h
    | cons char text =>
      rw [text_peek_zero, List.head?_cons, text_advance] at h
      dsimp only at h
      by_cases hnewline : char = '\n' ∧ ¬ escaped = true
      · rw [if_pos hnewline] at h
        cases h
      rw [if_neg hnewline] at h
      by_cases hclosing : ¬ escaped = true ∧ char = '"'
      · rw [if_pos hclosing] at h
        obtain ⟨rfl, -, rfl⟩ := Prod.mk.inj h |>.imp id Prod.mk.inj
        obtain ⟨hescaped, rfl⟩ := hclosing
        obtain rfl : escaped = false := eq_false_of_ne_true hescaped
        exact ⟨rfl, [], rfl, .nil⟩
      rw [if_neg hclosing] at h
      rcases hlater : take_string text_stream (!escaped && char == '\\') fuel text with ⟨later, closed, after⟩
      rw [hlater] at h
      obtain ⟨rfl, rfl, rfl⟩ := Prod.mk.inj h |>.imp id Prod.mk.inj
      obtain ⟨rfl, body, rfl, hbody⟩ := ih hlater
      refine ⟨rfl, char :: body, rfl, ?_⟩
      cases escaped with
      | true => exact ⟨char, body, rfl, hbody⟩
      | false =>
        by_cases hbackslash : char = '\\'
        · subst hbackslash
          obtain ⟨first, later, rfl, hspelled⟩ := hbody
          exact .escaped first hspelled
        · rw [beq_false_of_ne hbackslash] at hbody
          refine .plain ?_ hbody
          simp only [List.mem_cons, List.not_mem_nil, or_false, not_or]
          exact ⟨fun heq => hnewline ⟨heq, Bool.false_ne_true⟩, hbackslash, fun heq => hclosing ⟨Bool.false_ne_true, heq⟩⟩

theorem take_regex_closed {escaped in_char_class : Bool} {fuel : Nat} {text chars rest : Text}
    (h : take_regex text_stream escaped in_char_class fuel text = (chars, true, rest)) :
    text = chars ++ rest ∧ ∃ body, chars = body ++ ['/'] ∧
      if escaped then ∃ first later, body = first :: later ∧ RegexBody in_char_class later
      else RegexBody in_char_class body := by
  induction fuel generalizing escaped in_char_class text chars rest with
  | zero => cases h
  | succ fuel ih =>
    unfold take_regex at h
    cases text with
    | nil => cases h
    | cons char text =>
      rw [text_peek_zero, List.head?_cons, text_advance] at h
      dsimp only at h
      by_cases hnewline : char = '\n' ∧ ¬ escaped = true
      · rw [if_pos hnewline] at h
        cases h
      rw [if_neg hnewline] at h
      by_cases hclosing : ¬ escaped = true ∧ ¬ in_char_class = true ∧ char = '/'
      · rw [if_pos hclosing] at h
        obtain ⟨rfl, -, rfl⟩ := Prod.mk.inj h |>.imp id Prod.mk.inj
        obtain ⟨hescaped, hclass, rfl⟩ := hclosing
        obtain rfl : escaped = false := eq_false_of_ne_true hescaped
        obtain rfl : in_char_class = false := eq_false_of_ne_true hclass
        exact ⟨rfl, [], rfl, .nil⟩
      rw [if_neg hclosing] at h
      generalize hclass : (if escaped = true then in_char_class else if char = '[' then true
        else if char = ']' then false else in_char_class) = next_class at h
      rcases hlater : take_regex text_stream (!escaped && char == '\\') next_class fuel text with ⟨later, closed, after⟩
      rw [hlater] at h
      obtain ⟨rfl, rfl, rfl⟩ := Prod.mk.inj h |>.imp id Prod.mk.inj
      obtain ⟨rfl, body, rfl, hbody⟩ := ih hlater
      refine ⟨rfl, char :: body, rfl, ?_⟩
      cases escaped with
      | true =>
        obtain rfl : in_char_class = next_class := hclass
        exact ⟨char, body, rfl, hbody⟩
      | false =>
        rw [if_neg Bool.false_ne_true] at hclass
        by_cases hbackslash : char = '\\'
        · subst hbackslash
          obtain rfl : in_char_class = next_class := hclass
          obtain ⟨first, later, rfl, hspelled⟩ := hbody
          exact .escaped first hspelled
        rw [beq_false_of_ne hbackslash] at hbody
        by_cases hopen : char = '['
        · subst hopen
          obtain rfl : true = next_class := hclass
          exact .class_start hbody
        by_cases hclose : char = ']'
        · subst hclose
          obtain rfl : false = next_class := hclass
          exact .class_end hbody
        rw [if_neg hopen, if_neg hclose] at hclass
        subst hclass
        refine .plain ?_ (fun heq => ?_) hbody
        · simp only [List.mem_cons, List.not_mem_nil, or_false, not_or]
          exact ⟨fun heq => hnewline ⟨heq, Bool.false_ne_true⟩, hbackslash, hopen, hclose⟩
        · by_contra hclass
          exact hclosing ⟨Bool.false_ne_true, hclass, heq⟩

/-- A number is digits, and a point with more digits where one follows. -/
theorem take_number_spelled (fuel : Nat) {text : Text} (hfuel : text.length ≤ fuel) :
    ∃ whole fraction rest, take_number classes text_stream false fuel text = (whole ++ fraction, rest) ∧
      text = whole ++ fraction ++ rest ∧ whole = text.takeWhile classes.isdigit ∧
      (fraction = [] ∧ rest.head? ≠ some '.' ∨
        ∃ digits, fraction = '.' :: digits ∧ ∀ char ∈ digits, classes.isdigit char = true) ∧
      Stops classes.isdigit rest := by
  have hwhole : ∀ char ∈ text.takeWhile classes.isdigit, classes.isdigit char = true :=
    fun char hmem => List.mem_takeWhile_imp hmem
  have hstops : ∀ chars : Text, Stops classes.isdigit (chars.dropWhile classes.isdigit) := by
    intro chars next hnext
    have hhead := List.head?_dropWhile_not classes.isdigit chars
    rw [Option.mem_def.mp hnext] at hhead
    simpa using hhead
  have hsplit : text.takeWhile classes.isdigit ++ text.dropWhile classes.isdigit = text := List.takeWhile_append_dropWhile
  by_cases hpoint : (text.dropWhile classes.isdigit).head? = some '.'
  · obtain ⟨later, hlater⟩ : ∃ later, text.dropWhile classes.isdigit = '.' :: later := by
      cases hdrop : text.dropWhile classes.isdigit with
      | nil => rw [hdrop] at hpoint; cases hpoint
      | cons first later => rw [hdrop] at hpoint; exact ⟨later, by rw [Option.some.inj hpoint]⟩
    have hdigits : ∀ char ∈ later.takeWhile classes.isdigit, classes.isdigit char = true :=
      fun char hmem => List.mem_takeWhile_imp hmem
    have htext : text.takeWhile classes.isdigit ++ '.' :: later.takeWhile classes.isdigit ++
        later.dropWhile classes.isdigit = text := by
      rw [List.append_assoc, List.cons_append, List.takeWhile_append_dropWhile, ← hlater, hsplit]
    refine ⟨_, _, _, ?_, htext.symm, rfl, .inr ⟨_, rfl, hdigits⟩, hstops later⟩
    have hfuel' : (text.takeWhile classes.isdigit ++ '.' :: later.takeWhile classes.isdigit ++
        later.dropWhile classes.isdigit).length ≤ fuel := by rwa [htext]
    have htaken := text_take_fraction hwhole hdigits (hstops later) hfuel'
    rwa [htext] at htaken
  · refine ⟨_, [], _, ?_, ?_, rfl, .inl ⟨rfl, hpoint⟩, hstops text⟩
    · have hfuel' : (text.takeWhile classes.isdigit ++ text.dropWhile classes.isdigit).length ≤ fuel := by rwa [hsplit]
      have htaken := text_take_digits hwhole (hstops text) (.inr hpoint : false = true ∨ _) hfuel'
      rw [hsplit] at htaken
      rw [htaken, List.append_nil]
    · rw [List.append_nil, hsplit]

/-- What the scanner passes over in one call: blanks, the end of a continued line, or a comment up to its line's end. -/
inductive Trivia : Text → Text → Prop where
  | blanks {chars rest : Text} (hne : chars ≠ []) (hblank : ∀ char ∈ chars, is_horizontal_space char = true) :
    Trivia chars rest
  | continued {rest : Text} : Trivia ['\\', '\n'] rest
  | comment {body rest : Text} (hbody : '\n' ∉ body) (hrest : rest.head? = none ∨ rest.head? = some '\n') :
    Trivia ('#' :: body) rest

variable (classes) in
/-- What one call of the scanner takes of a text: nothing at its end, what it passes over, or a token. -/
inductive TextStep (expect_operand : Bool) : Text → Option Token → Text → Bool → Prop where
  | eof : TextStep expect_operand [] (some ⟨.eof, ⟨⟨0, 0⟩, ⟨0, 0⟩⟩, none⟩) [] expect_operand
  | trivia {chars rest : Text} (h : Trivia chars rest) : TextStep expect_operand (chars ++ rest) none rest expect_operand
  | token {kind : TokenKind} {chars rest : Text} (h : Spelled classes kind chars rest)
    (hregex : kind = .regex → expect_operand = true)
    (hslash : kind = .slash ∨ kind = .slash_equal → expect_operand = false) :
    TextStep expect_operand (chars ++ rest) (some (placeless kind chars)) rest (operand_after expect_operand kind)

variable {expect_operand after : Bool} {char : Char} {text rest : Text} {token : Option Token}

theorem comment_textStep : TextStep classes expect_operand ('#' :: text) none
    (skip_comment text_stream ('#' :: text)) expect_operand := by
  have hskipped : skip_comment text_stream ('#' :: text) = text.dropWhile (· != '\n') := by
    unfold skip_comment
    rw [text_remaining, text_skip_while _ (Nat.le_refl _)]
    rfl
  have hbody : '\n' ∉ text.takeWhile (· != '\n') := fun hmem => by
    have hchar := List.mem_takeWhile_imp hmem
    exact absurd hchar (by decide)
  have hrest : (text.dropWhile (· != '\n')).head? = none ∨ (text.dropWhile (· != '\n')).head? = some '\n' := by
    cases hdrop : text.dropWhile (· != '\n') with
    | nil => exact .inl rfl
    | cons first later =>
      have hhead := List.head?_dropWhile_not (· != '\n') text
      rw [hdrop] at hhead
      exact .inr (congrArg some (by simpa using hhead))
  have hstep := @TextStep.trivia classes expect_operand _ _ (.comment hbody hrest)
  rw [List.cons_append, List.takeWhile_append_dropWhile] at hstep
  rwa [hskipped]

theorem slash_textStep (h : scan_slash_or_regex text_stream ⟨0, 0⟩ ⟨'/' :: text, expect_operand⟩ =
    .ok (token, ⟨rest, after⟩)) : TextStep classes expect_operand ('/' :: text) token rest after := by
  unfold scan_slash_or_regex at h
  cases expect_operand with
  | true =>
    rw [if_pos rfl] at h
    unfold scan_regex_literal at h
    rw [text_advance] at h
    dsimp only at h
    rcases htaken : take_regex text_stream false false (text_stream.remaining text) text with ⟨chars, closed, later⟩
    rw [htaken] at h
    cases closed with
    | false => cases h
    | true =>
      obtain ⟨rfl, body, rfl, hbody⟩ := take_regex_closed htaken
      obtain ⟨rfl, hafter⟩ := Prod.mk.inj (Except.ok.inj h)
      obtain ⟨rfl, rfl⟩ := Lexer.mk.inj hafter
      exact .token (.regex hbody) (fun _ => rfl) (by rintro (h | h) <;> cases h)
  | false =>
    rw [if_neg Bool.false_ne_true, text_advance, text_peek_one] at h
    dsimp only at h
    by_cases hequal : text.head? = some '='
    · rw [if_pos hequal] at h
      cases text with
      | nil => cases hequal
      | cons next text =>
        obtain rfl : next = '=' := Option.some.inj hequal
        obtain ⟨rfl, hafter⟩ := Prod.mk.inj (Except.ok.inj h)
        obtain ⟨rfl, rfl⟩ := Lexer.mk.inj hafter
        exact @TextStep.token classes false _ _ _ .slash_equal nofun (fun _ => rfl)
    · rw [if_neg hequal] at h
      obtain ⟨rfl, hafter⟩ := Prod.mk.inj (Except.ok.inj h)
      obtain ⟨rfl, rfl⟩ := Lexer.mk.inj hafter
      exact @TextStep.token classes false _ _ _ (.slash hequal) nofun (fun _ => rfl)

theorem operator_textStep (hslash : char ≠ '/')
    (h : scan_multi_char_operator text_stream ⟨0, 0⟩ ⟨char :: text, expect_operand⟩ = some (token, ⟨rest, after⟩)) :
    TextStep classes expect_operand (char :: text) token rest after := by
  have hkept : ∀ entry ∈ MULTI_CHAR_TOKEN_KINDS, kept_text entry.2 [entry.1.1, entry.1.2] = none := by decide
  have hregex : ∀ entry ∈ MULTI_CHAR_TOKEN_KINDS, entry.2 ≠ .regex ∧ entry.2 ≠ .slash := by decide
  have hequal : ∀ entry ∈ MULTI_CHAR_TOKEN_KINDS, entry.2 = .slash_equal → entry.1.1 = '/' := by decide
  unfold scan_multi_char_operator at h
  cases text with
  | nil => cases h
  | cons next text =>
    rw [text_peek_zero, text_peek_one, text_advance, text_advance] at h
    simp only [List.head?_cons, Option.bind_eq_bind, Option.bind_some, Option.bind_eq_some_iff] at h
    obtain ⟨kind, hkind, heq⟩ := h
    obtain ⟨rfl, hafter⟩ := Prod.mk.inj (Option.some.inj heq)
    obtain ⟨rfl, rfl⟩ := Lexer.mk.inj hafter
    obtain ⟨before, later, htable, _⟩ := List.lookup_eq_some_iff.mp hkind
    have hmem : ((char, next), kind) ∈ MULTI_CHAR_TOKEN_KINDS := by rw [htable]; simp
    have hstep := @TextStep.token classes expect_operand _ _ _ (.operator hkind hslash : Spelled classes kind [char, next] text)
      (fun heq => absurd heq (hregex _ hmem).1)
      (fun heq => heq.elim (fun heq => absurd heq (hregex _ hmem).2) (fun heq => absurd (hequal _ hmem heq) hslash))
    unfold placeless at hstep
    rwa [hkept _ hmem] at hstep

theorem punctuation_textStep {kind : TokenKind} (hkind : PUNCTUATION_KINDS.lookup char = some kind)
    (h : scan_multi_char_operator text_stream ⟨0, 0⟩ ⟨char :: text, expect_operand⟩ = none) :
    TextStep classes expect_operand (char :: text) (token_from text_stream ⟨0, 0⟩ kind none ⟨text, expect_operand⟩).1 text
      (operand_after expect_operand kind) := by
  have hkinds : ∀ entry ∈ PUNCTUATION_KINDS, kept_text entry.2 [entry.1] = none ∧
      entry.2 ∉ [TokenKind.regex, .slash, .slash_equal] := by decide
  obtain ⟨before, later, htable, _⟩ := List.lookup_eq_some_iff.mp hkind
  obtain ⟨hkept, hregex⟩ := hkinds (char, kind) (by rw [htable]; simp)
  simp only [List.mem_cons, List.not_mem_nil, or_false, not_or] at hregex
  have hrest : ∀ next ∈ text.head?, MULTI_CHAR_TOKEN_KINDS.lookup (char, next) = none := by
    intro next hnext
    cases text with
    | nil => cases hnext
    | cons first text =>
      obtain rfl : first = next := Option.some.inj hnext
      unfold scan_multi_char_operator at h
      rw [text_peek_zero, text_peek_one] at h
      cases hlookup : MULTI_CHAR_TOKEN_KINDS.lookup (char, first) with
      | none => rfl
      | some other => simp [hlookup] at h
  have hstep := @TextStep.token classes expect_operand _ _ _ (.punctuation hkind hrest)
    (fun heq => absurd heq hregex.1)
    (fun heq => heq.elim (fun heq => absurd heq hregex.2.1) (fun heq => absurd heq hregex.2.2))
  unfold placeless at hstep
  rwa [hkept] at hstep

theorem string_textStep (h : scan_string_literal text_stream ⟨0, 0⟩ ⟨'"' :: text, expect_operand⟩ =
    .ok (token, ⟨rest, after⟩)) : TextStep classes expect_operand ('"' :: text) token rest after := by
  unfold scan_string_literal at h
  rw [text_advance] at h
  dsimp only at h
  rcases htaken : take_string text_stream false (text_stream.remaining text) text with ⟨chars, closed, later⟩
  rw [htaken] at h
  cases closed with
  | false => cases h
  | true =>
    obtain ⟨rfl, body, rfl, hbody⟩ := take_string_closed htaken
    obtain ⟨rfl, hafter⟩ := Prod.mk.inj (Except.ok.inj h)
    obtain ⟨rfl, rfl⟩ := Lexer.mk.inj hafter
    exact .token (.string hbody) nofun (by rintro (h | h) <;> cases h)

theorem keyword_kinds (chars : Text) : (KEYWORDS.lookup (String.ofList chars)).getD .ident ≠ .regex ∧
    (KEYWORDS.lookup (String.ofList chars)).getD .ident ∉ [TokenKind.slash, .slash_equal, .string, .number] := by
  have hkinds : ∀ kind ∈ KEYWORDS.map Prod.snd, kind ≠ .regex ∧
      kind ∉ [TokenKind.slash, .slash_equal, .string, .number] := by decide
  cases h : KEYWORDS.lookup (String.ofList chars) with
  | none => decide
  | some kind =>
    exact lookup_forall (fun kind => kind ≠ .regex ∧ kind ∉ [TokenKind.slash, .slash_equal, .string, .number])
      (fun entry hentry => hkinds _ (List.mem_map_of_mem hentry)) h

theorem word_textStep (hfirst : (classes.isalpha char || char == '_') = true)
    (h : scan_identifier_or_keyword classes text_stream ⟨0, 0⟩ ⟨char :: text, expect_operand⟩ =
      (token, ⟨rest, after⟩)) : TextStep classes expect_operand (char :: text) token rest after := by
  have hword : (classes.isalnum char || char == '_') = true := by
    rw [Bool.or_eq_true] at hfirst ⊢
    exact hfirst.imp_left (classes.alpha_alnum char)
  have htaken : take_while text_stream (is_word_char classes) (char :: text).length (char :: text) =
      (char :: text.takeWhile (is_word_char classes), text.dropWhile (is_word_char classes)) := by
    rw [text_take_while _ (Nat.le_refl _)]
    exact congrArg₂ Prod.mk (List.takeWhile_cons_of_pos hword) (List.dropWhile_cons_of_pos hword)
  have hpredicate : (fun other => classes.isalnum other || other == '_') = is_word_char classes := rfl
  unfold scan_identifier_or_keyword at h
  rw [hpredicate, text_remaining, htaken] at h
  have hchars : ∀ other ∈ text.takeWhile (is_word_char classes), is_word_char classes other = true :=
    fun other hmem => List.mem_takeWhile_imp hmem
  have hstops : Stops (is_word_char classes) (text.dropWhile (is_word_char classes)) := by
    intro next hnext
    have hhead := List.head?_dropWhile_not (is_word_char classes) text
    rw [Option.mem_def.mp hnext] at hhead
    simpa using hhead
  have hkinds := keyword_kinds (char :: text.takeWhile (is_word_char classes))
  have hstep := @TextStep.token classes expect_operand _ _ _ (.word hfirst hchars hstops)
    (fun heq => absurd heq hkinds.1)
    (fun heq => absurd (List.mem_cons.mpr (heq.imp_right fun heq => List.mem_cons.mpr (.inl heq))) hkinds.2)
  rw [List.cons_append, List.takeWhile_append_dropWhile] at hstep
  obtain ⟨rfl, hafter⟩ := Prod.mk.inj h
  obtain ⟨rfl, rfl⟩ := Lexer.mk.inj hafter
  have hkept : kept_text ((KEYWORDS.lookup (String.ofList (char :: text.takeWhile (is_word_char classes)))).getD .ident)
      (char :: text.takeWhile (is_word_char classes)) =
        if (KEYWORDS.lookup (String.ofList (char :: text.takeWhile (is_word_char classes)))).getD .ident = .ident then
          some (char :: text.takeWhile (is_word_char classes)) else none := by
    simp only [List.mem_cons, List.not_mem_nil, or_false, not_or] at hkinds
    unfold kept_text
    generalize (KEYWORDS.lookup _).getD .ident = kind at hkinds ⊢
    simp [hkinds.1, hkinds.2.2.2.1, hkinds.2.2.2.2]
  unfold placeless at hstep
  rwa [hkept] at hstep

theorem number_textStep (hletter : classes.isalpha char = false) (hdigit : classes.isdigit char = true)
    (h : scan_number classes text_stream ⟨0, 0⟩ ⟨char :: text, expect_operand⟩ = (token, ⟨rest, after⟩)) :
    TextStep classes expect_operand (char :: text) token rest after := by
  obtain ⟨whole, fraction, later, htaken, htext, hwhole, hfraction, hstops⟩ :=
    @take_number_spelled classes (char :: text).length (char :: text) (Nat.le_refl _)
  unfold scan_number at h
  rw [text_remaining, htaken] at h
  rw [List.takeWhile_cons_of_pos hdigit] at hwhole
  subst hwhole
  obtain ⟨rfl, hafter⟩ := Prod.mk.inj h
  obtain ⟨rfl, rfl⟩ := Lexer.mk.inj hafter
  rw [htext]
  exact .token (.number hdigit hletter (fun other hmem => List.mem_takeWhile_imp hmem) hfraction hstops) nofun
    (by rintro (h | h) <;> cases h)

/-- The scanner takes tokens as they are spelled, and passes over nothing but trivia. -/
theorem blank_textStep (hspace : is_horizontal_space char = true) :
    TextStep classes expect_operand (char :: text) none (text.dropWhile is_horizontal_space) expect_operand := by
  have hblank : ∀ other ∈ char :: text.takeWhile is_horizontal_space, is_horizontal_space other = true := by
    rintro other (_ | ⟨_, hmem⟩)
    · exact hspace
    · exact List.mem_takeWhile_imp hmem
  have hstep := @TextStep.trivia classes expect_operand _ (text.dropWhile is_horizontal_space)
    (.blanks (List.cons_ne_nil _ _) hblank)
  rwa [List.cons_append, List.takeWhile_append_dropWhile] at hstep

/-- The characters that are looked at before the tables of operators. -/
theorem special_textStep (hspecial : char ∈ ['\\', '\n', '#', '/'])
    (h : scan_token classes text_stream ⟨char :: text, expect_operand⟩ = .ok (token, ⟨rest, after⟩)) :
    TextStep classes expect_operand (char :: text) token rest after := by
  simp only [List.mem_cons, List.not_mem_nil, or_false] at hspecial
  have hspace : ¬ is_horizontal_space char = true := by obtain rfl | rfl | rfl | rfl := hspecial <;> decide
  unfold scan_token at h
  rw [text_peek_zero, List.head?_cons, text_advance, text_peek_one] at h
  dsimp only at h
  rw [if_neg hspace] at h
  by_cases hcontinued : char = '\\' ∧ text.head? = some '\n'
  · rw [if_pos hcontinued] at h
    obtain ⟨rfl, hnext⟩ := hcontinued
    cases text with
    | nil => cases hnext
    | cons next text =>
      obtain rfl : next = '\n' := Option.some.inj hnext
      obtain ⟨rfl, hafter⟩ := Prod.mk.inj (Except.ok.inj h)
      obtain ⟨rfl, rfl⟩ := Lexer.mk.inj hafter
      exact .trivia .continued
  rw [if_neg hcontinued] at h
  obtain rfl | rfl | rfl | rfl := hspecial
  · have hletter : ¬ (classes.isalpha '\\' || '\\' == '_') = true := fun hletter =>
      not_special (.inl hletter) (by decide)
    have hdigit : ¬ classes.isdigit '\\' = true := fun hdigit => not_special (.inr hdigit) (by decide)
    rw [if_neg (by decide), if_neg (by decide), if_neg (by decide),
      multi_char_none (fun next _ => by simp [MULTI_CHAR_TOKEN_KINDS]),
      (by decide : PUNCTUATION_KINDS.lookup '\\' = none)] at h
    dsimp only at h
    rw [if_neg (by decide), if_neg hletter, if_neg hdigit] at h
    cases h
  · obtain ⟨rfl, hafter⟩ := Prod.mk.inj (Except.ok.inj h)
    obtain ⟨rfl, rfl⟩ := Lexer.mk.inj hafter
    exact .token .newline (by simp) (by simp)
  · obtain ⟨rfl, hafter⟩ := Prod.mk.inj (Except.ok.inj h)
    obtain ⟨rfl, rfl⟩ := Lexer.mk.inj hafter
    exact comment_textStep
  · exact slash_textStep h

theorem scan_token_textStep (h : scan_token classes text_stream ⟨text, expect_operand⟩ = .ok (token, ⟨rest, after⟩)) :
    TextStep classes expect_operand text token rest after := by
  cases text with
  | nil =>
    obtain ⟨rfl, hafter⟩ := Prod.mk.inj (Except.ok.inj h)
    obtain ⟨rfl, rfl⟩ := Lexer.mk.inj hafter
    exact .eof
  | cons char text =>
    by_cases hspace : is_horizontal_space char = true
    · rw [scan_token_blank hspace] at h
      obtain ⟨rfl, hafter⟩ := Prod.mk.inj (Except.ok.inj h)
      obtain ⟨rfl, rfl⟩ := Lexer.mk.inj hafter
      exact blank_textStep hspace
    by_cases hspecial : char ∈ ['\\', '\n', '#', '/']
    · exact special_textStep hspecial h
    · have hother : char ∉ [' ', '\t', '\r', '\x0c', '\x0b'] ++ ['\\', '\n', '#', '/'] := fun hmem =>
        (List.mem_append.mp hmem).elim (fun hmem => hspace (List.contains_iff_mem.mpr hmem)) hspecial
      rw [scan_token_operator hother] at h
      simp only [List.mem_cons, List.not_mem_nil, or_false, not_or] at hspecial
      cases hoperator : scan_multi_char_operator text_stream ⟨0, 0⟩ ⟨char :: text, expect_operand⟩ with
      | some scanned =>
        rw [hoperator] at h
        obtain rfl := Except.ok.inj h
        exact operator_textStep hspecial.2.2.2 hoperator
      | none =>
        rw [hoperator] at h
        cases hkind : PUNCTUATION_KINDS.lookup char with
        | some kind =>
          rw [hkind] at h
          obtain ⟨rfl, hafter⟩ := Prod.mk.inj (Except.ok.inj h)
          obtain ⟨rfl, rfl⟩ := Lexer.mk.inj hafter
          exact punctuation_textStep hkind hoperator
        | none =>
          rw [hkind] at h
          dsimp only at h
          split_ifs at h with hquote hletter hdigit
          · subst hquote
            exact string_textStep h
          · exact word_textStep hletter (Except.ok.inj h)
          · refine number_textStep ?_ hdigit (Except.ok.inj h)
            rw [Bool.or_eq_true, not_or] at hletter
            exact eq_false_of_ne_true hletter.1

end Spelling

def Token.between (token : Token) (start stop : SourcePoint) : Token := { token with span := ⟨start, stop⟩ }

/-- The place in the files of a program where these characters are all that is left of it. -/
def place (source : ProgramSource) (ahead : Text) : SourcePoint :=
  origin 0 source.texts ((joined source.texts).length - ahead.length)

section Program

variable {classes : CharClasses} {source : ProgramSource} {expect_operand : Bool}

theorem Ahead.start (source : ProgramSource) :
    Ahead source ⟨.start source, SourceCursor.start_valid _⟩ (joined source.texts) :=
  ⟨0, .start source, rfl⟩

theorem Ahead.point {cursor : ValidCursor} {chars : Text} (h : Ahead source cursor chars) :
    source_stream.point cursor = place source chars := by
  obtain ⟨taken, htaken, rfl⟩ := h
  have hwithin := htaken.within
  rw [place, List.length_drop, show (joined source.texts).length - ((joined source.texts).length - taken) = taken by omega]
  exact htaken.point

/-- One call of the scanner on a program takes what it takes of the text ahead, with its place. -/
theorem source_step {cursor : ValidCursor} {chars : Text} {token : Option Token} {after : Lexer ValidCursor}
    (hahead : Ahead source cursor chars)
    (h : scan_token classes source_stream ⟨cursor, expect_operand⟩ = .ok (token, after)) :
    ∃ spelled rest, TextStep classes expect_operand chars spelled rest after.expect_operand ∧
      Ahead source after.cursor rest ∧ token = spelled.map (·.between (place source chars) (place source rest)) := by
  have hagree : Agree (fun _ _ => True) (Scanned (fun _ _ => True) (Ahead source))
      (scan_token classes source_stream ⟨cursor, expect_operand⟩) (scan_token classes text_stream ⟨chars, expect_operand⟩) :=
    Scanned.scan_token (ahead_simulates source) ⟨hahead, rfl⟩
  have hplaced := scan_token_placed h
  rw [h] at hagree
  generalize hscanned : scan_token classes text_stream ⟨chars, expect_operand⟩ = scanned at hagree
  cases hagree with
  | @ok _ scanned hvalues =>
    obtain ⟨spelled, rest, after_text⟩ := scanned
    have hrest : Ahead source after.cursor rest := hvalues.lexer.cursor
    have hoperand : after.expect_operand = after_text := hvalues.lexer.expect_operand
    refine ⟨spelled, rest, by rw [hoperand]; exact scan_token_textStep hscanned, hrest, ?_⟩
    cases hvalues.token with
    | none => rfl
    | @some token spelled htoken =>
      have hspan := hplaced token rfl
      rw [hahead.point, hrest.point] at hspan
      obtain ⟨kind, span, text⟩ := token
      obtain rfl : kind = spelled.kind := htoken.kind
      obtain rfl : text = spelled.text := htoken.text
      obtain rfl : span = _ := hspan
      rfl

/-- A token that is spelled ahead is taken, with its place. -/
theorem source_spelled {lexer : Lexer ValidCursor} {kind : TokenKind} {chars rest : Text}
    (hahead : Ahead source lexer.cursor (chars ++ rest)) (h : Spelled classes kind chars rest)
    (hregex : kind = .regex → lexer.expect_operand = true)
    (hslash : kind = .slash ∨ kind = .slash_equal → lexer.expect_operand = false) :
    ∃ next, Ahead source next rest ∧ scan_token classes source_stream lexer =
      .ok (some ⟨kind, ⟨place source (chars ++ rest), place source rest⟩, kept_text kind chars⟩,
        ⟨next, operand_after lexer.expect_operand kind⟩) := by
  have hagree : Agree (fun _ _ => True) (Scanned (fun _ _ => True) (Ahead source))
      (scan_token classes source_stream lexer) (scan_token classes text_stream ⟨chars ++ rest, lexer.expect_operand⟩) :=
    Scanned.scan_token (ahead_simulates source) ⟨hahead, rfl⟩
  rw [scan_token_spelled h hregex hslash] at hagree
  generalize hscanned : scan_token classes source_stream lexer = scanned at hagree
  cases hagree with
  | @ok scanned _ hvalues =>
    obtain ⟨token, ⟨next, operand⟩⟩ := scanned
    have hplaced := scan_token_placed hscanned
    have hnext : Ahead source next rest := hvalues.lexer.cursor
    obtain rfl : operand = operand_after lexer.expect_operand kind := hvalues.lexer.expect_operand
    refine ⟨next, hnext, ?_⟩
    cases hvalues.token with
    | @some token _ htoken =>
      have hspan := hplaced token rfl
      rw [hahead.point, hnext.point] at hspan
      obtain ⟨token_kind, span, text⟩ := token
      obtain rfl : token_kind = kind := htoken.kind
      obtain rfl : text = kept_text token_kind chars := htoken.text
      obtain rfl : span = _ := hspan
      rfl

variable (classes source) in
/-- Tokens with gaps between them that make up a text, each token at its place. -/
inductive Tiled : Text → List Token → Prop where
  | eof {gap : Text} (hgap : Gap gap []) : Tiled gap [⟨.eof, ⟨place source [], place source []⟩, none⟩]
  | token {kind : TokenKind} {gap chars rest : Text} {tokens : List Token} (hgap : Gap gap (chars ++ rest))
    (hspelled : Spelled classes kind chars rest) (h : Tiled rest tokens) :
    Tiled (gap ++ (chars ++ rest))
      (⟨kind, ⟨place source (chars ++ rest), place source rest⟩, kept_text kind chars⟩ :: tokens)

/-- A gap that starts its rest on a new line, or at the end, is none. -/
theorem Gap.eq_nil {gap rest : Text} (h : Gap gap rest)
    (hrest : (gap ++ rest).head? = none ∨ (gap ++ rest).head? = some '\n') : gap = [] := by
  cases h with
  | nil => rfl
  | @blank char gap _ hchar =>
    obtain hnone | hnewline := hrest
    · cases hnone
    · obtain rfl : char = '\n' := Option.some.inj hnewline
      exact absurd hchar (by decide)
  | continued => obtain h | h := hrest <;> cases h
  | comment => obtain h | h := hrest <;> cases h

theorem Gap.prepend {chars gap rest : Text} (htrivia : Trivia chars (gap ++ rest)) (h : Gap gap rest) :
    Gap (chars ++ gap) rest := by
  cases htrivia with
  | blanks _ hblank =>
    induction chars with
    | nil => exact h
    | cons char chars ih =>
      refine .blank (hblank char List.mem_cons_self) ?_
      cases chars with
      | nil => exact h
      | cons next chars => exact ih (List.cons_ne_nil _ _) fun other hmem => hblank other (List.mem_cons_of_mem _ hmem)
  | continued => exact .continued h
  | comment hbody hrest =>
    obtain rfl := h.eq_nil hrest
    rw [List.append_nil]
    exact .comment hbody hrest

theorem Tiled.prepend {chars text : Text} {tokens : List Token} (htrivia : Trivia chars text)
    (h : Tiled classes source text tokens) : Tiled classes source (chars ++ text) tokens := by
  cases h with
  | eof hgap => exact .eof (hgap.prepend (by rwa [List.append_nil]))
  | token hgap hspelled h =>
    rw [← List.append_assoc]
    exact .token (hgap.prepend htrivia) hspelled h

/-- The tokens of a scan make up the text ahead. -/
theorem scan_tokens_tiled {fuel : Nat} {cursor : ValidCursor} {chars : Text} {tokens : List Token}
    (hahead : Ahead source cursor chars)
    (h : scan_tokens classes source_stream fuel ⟨cursor, expect_operand⟩ = .ok tokens) :
    Tiled classes source chars tokens := by
  induction fuel generalizing cursor chars tokens expect_operand with
  | zero => cases h
  | succ fuel ih =>
    unfold scan_tokens at h
    cases hscanned : scan_token classes source_stream ⟨cursor, expect_operand⟩ with
    | error failure => rw [hscanned] at h; cases h
    | ok scanned =>
      obtain ⟨token, ⟨after, after_operand⟩⟩ := scanned
      obtain ⟨spelled, rest, hstep, hrest, rfl⟩ := source_step hahead hscanned
      rw [hscanned] at h
      dsimp only at hstep hrest
      cases hstep with
      | eof =>
        obtain rfl := Except.ok.inj h
        exact .eof .nil
      | trivia htrivia => exact (ih hrest h).prepend htrivia
      | @token kind chars rest hspelled =>
        have hkind := spelled_ne_eof hspelled
        change (if kind = .eof then pure _ else do
          return _ :: (← scan_tokens classes source_stream fuel ⟨after, operand_after expect_operand kind⟩)) = _ at h
        rw [if_neg hkind] at h
        cases hlater : scan_tokens classes source_stream fuel ⟨after, operand_after expect_operand kind⟩ with
        | error failure => rw [hlater] at h; cases h
        | ok later =>
          rw [hlater] at h
          obtain rfl := Except.ok.inj h
          exact .token .nil hspelled (ih hrest hlater)

theorem lex_tiled {tokens : List Token} (h : lex classes source = .ok tokens) :
    Tiled classes source (joined source.texts) tokens :=
  scan_tokens_tiled (.start source) h

end Program

end quawk
