import Quawk.ProgramTotality

open TokenParser (Meets)

namespace quawk

section Scan

variable {S : Type} {classes : CharClasses} {stream : CharStream S SourcePoint}

theorem remaining_advance_lt {cursor : S} {char : Char} (h : stream.peek cursor 0 = some char) :
    stream.remaining (stream.advance cursor).2 < stream.remaining cursor := by
  have := stream.remaining_advance cursor char h
  omega

theorem skip_while_le (predicate : Char → Bool) (fuel : Nat) (cursor : S) :
    stream.remaining (skip_while stream predicate fuel cursor) ≤ stream.remaining cursor := by
  induction fuel generalizing cursor with
  | zero => exact Nat.le_refl _
  | succ fuel ih =>
    unfold skip_while
    split
    · exact Nat.le_refl _
    · next char hpeek =>
      split_ifs
      · exact (ih _).trans (remaining_advance_lt hpeek).le
      · exact Nat.le_refl _

theorem skip_while_lt {predicate : Char → Bool} {cursor : S} {char : Char} (hpeek : stream.peek cursor 0 = some char)
    (hchar : predicate char = true) :
    stream.remaining (skip_while stream predicate (stream.remaining cursor) cursor) < stream.remaining cursor := by
  obtain ⟨fuel, hfuel⟩ := Nat.exists_eq_succ_of_ne_zero (CharStream.remaining_pos hpeek).ne'
  rw [hfuel]
  unfold skip_while
  rw [hpeek]
  dsimp only
  rw [if_pos hchar, ← hfuel]
  exact (skip_while_le predicate fuel _).trans_lt (remaining_advance_lt hpeek)

theorem take_while_le (predicate : Char → Bool) (fuel : Nat) (cursor : S) :
    stream.remaining (take_while stream predicate fuel cursor).2 ≤ stream.remaining cursor := by
  induction fuel generalizing cursor with
  | zero => exact Nat.le_refl _
  | succ fuel ih =>
    unfold take_while
    split
    · exact Nat.le_refl _
    · next char hpeek =>
      split_ifs
      · exact (ih _).trans (remaining_advance_lt hpeek).le
      · exact Nat.le_refl _

theorem take_while_lt {predicate : Char → Bool} {cursor : S} {char : Char} (hpeek : stream.peek cursor 0 = some char)
    (hchar : predicate char = true) :
    stream.remaining (take_while stream predicate (stream.remaining cursor) cursor).2 < stream.remaining cursor := by
  obtain ⟨fuel, hfuel⟩ := Nat.exists_eq_succ_of_ne_zero (CharStream.remaining_pos hpeek).ne'
  rw [hfuel]
  unfold take_while
  rw [hpeek]
  dsimp only
  rw [if_pos hchar, ← hfuel]
  exact (take_while_le predicate fuel _).trans_lt (remaining_advance_lt hpeek)

theorem take_number_le (seen_decimal : Bool) (fuel : Nat) (cursor : S) :
    stream.remaining (take_number classes stream seen_decimal fuel cursor).2 ≤ stream.remaining cursor := by
  induction fuel generalizing cursor seen_decimal with
  | zero => exact Nat.le_refl _
  | succ fuel ih =>
    unfold take_number
    split
    · exact Nat.le_refl _
    · next char hpeek =>
      dsimp only
      split_ifs
      · exact (ih _ _).trans (remaining_advance_lt hpeek).le
      · exact Nat.le_refl _

theorem take_number_lt {cursor : S} {char : Char} (hpeek : stream.peek cursor 0 = some char)
    (hdigit : classes.isdigit char = true) :
    stream.remaining (take_number classes stream false (stream.remaining cursor) cursor).2 < stream.remaining cursor := by
  obtain ⟨fuel, hfuel⟩ := Nat.exists_eq_succ_of_ne_zero (CharStream.remaining_pos hpeek).ne'
  rw [hfuel]
  unfold take_number
  rw [hpeek]
  dsimp only
  rw [if_pos (by rw [hdigit]; rfl), ← hfuel]
  exact (take_number_le _ fuel _).trans_lt (remaining_advance_lt hpeek)

theorem take_string_le (escaped : Bool) (fuel : Nat) (cursor : S) :
    stream.remaining (take_string stream escaped fuel cursor).2.2 ≤ stream.remaining cursor := by
  induction fuel generalizing cursor escaped with
  | zero => exact Nat.le_refl _
  | succ fuel ih =>
    unfold take_string
    split
    · exact Nat.le_refl _
    · next char hpeek =>
      dsimp only
      split_ifs
      · exact Nat.le_refl _
      · exact (remaining_advance_lt hpeek).le
      · exact (ih _ _).trans (remaining_advance_lt hpeek).le

theorem take_regex_le (escaped in_char_class : Bool) (fuel : Nat) (cursor : S) :
    stream.remaining (take_regex stream escaped in_char_class fuel cursor).2.2 ≤ stream.remaining cursor := by
  induction fuel generalizing cursor escaped in_char_class with
  | zero => exact Nat.le_refl _
  | succ fuel ih =>
    unfold take_regex
    split
    · exact Nat.le_refl _
    · next char hpeek =>
      dsimp only
      split_ifs
      · exact Nat.le_refl _
      · exact (remaining_advance_lt hpeek).le
      all_goals exact (ih _ _ _).trans (remaining_advance_lt hpeek).le

/-- The scanner moved forward, and did not find the end. -/
def MovesOn (stream : CharStream S SourcePoint) (cursor : S) (scanned : Option Token × Lexer S) : Prop :=
  stream.remaining scanned.2.cursor < stream.remaining cursor ∧ ∀ token ∈ scanned.1, token.kind ≠ .eof

theorem token_from_movesOn {start : SourcePoint} {kind : TokenKind} {text : Option Text} {cursor : S} {lexer : Lexer S}
    (hkind : kind ≠ .eof) (h : stream.remaining lexer.cursor < stream.remaining cursor) :
    MovesOn stream cursor (token_from stream start kind text lexer) :=
  ⟨h, fun token htoken => by
    obtain rfl := Option.some.inj htoken
    exact hkind⟩

/-- What comes of one call of the scanner. -/
def Scans (stream : CharStream S SourcePoint) (lexer : Lexer S) :
    Except LexFailure (Option Token × Lexer S) → Prop
  | .ok scanned => MovesOn stream lexer.cursor scanned ∨ ∃ token, scanned = (some token, lexer) ∧ token.kind = .eof
  | .error failure => failure ≠ .unfinished

theorem lookup_ne_eof {K : Type} [BEq K] [LawfulBEq K] {table : List (K × TokenKind)} {key : K} {kind : TokenKind}
    (htable : ∀ entry ∈ table, entry.2 ≠ .eof) (h : table.lookup key = some kind) : kind ≠ .eof := by
  obtain ⟨before, after, heq, _⟩ := List.lookup_eq_some_iff.mp h
  exact htable (key, kind) (heq ▸ List.mem_append_right _ List.mem_cons_self)

theorem multi_char_movesOn {start : SourcePoint} {lexer : Lexer S} {scanned : Option Token × Lexer S}
    (h : scan_multi_char_operator stream start lexer = some scanned) : MovesOn stream lexer.cursor scanned := by
  unfold scan_multi_char_operator at h
  simp only [Option.bind_eq_bind, Option.bind_eq_some_iff] at h
  obtain ⟨first, hfirst, second, _, kind, hkind, heq⟩ := h
  obtain rfl := Option.some.inj heq
  exact token_from_movesOn (lookup_ne_eof (by decide) hkind)
    ((stream.remaining_le _).trans_lt (remaining_advance_lt hfirst))

theorem keyword_ne_eof (text : Text) : (KEYWORDS.lookup (String.ofList text)).getD .ident ≠ .eof := by
  cases h : KEYWORDS.lookup (String.ofList text) with
  | none => decide
  | some kind =>
    have hkeywords : ∀ kind ∈ KEYWORDS.map Prod.snd, kind ≠ .eof := by decide
    exact lookup_ne_eof (fun entry hentry => hkeywords _ (List.mem_map_of_mem hentry)) h

theorem string_scans {start : SourcePoint} {lexer : Lexer S} {char : Char} (hpeek : stream.peek lexer.cursor 0 = some char) :
    Scans stream lexer (scan_string_literal stream start lexer) := by
  unfold scan_string_literal
  dsimp only
  split_ifs
  · exact .inl (token_from_movesOn (by decide) ((take_string_le _ _ _).trans_lt (remaining_advance_lt hpeek)))
  · exact nofun

theorem slash_scans {start : SourcePoint} {lexer : Lexer S} {char : Char} (hpeek : stream.peek lexer.cursor 0 = some char) :
    Scans stream lexer (scan_slash_or_regex stream start lexer) := by
  have hless := remaining_advance_lt hpeek
  unfold scan_slash_or_regex scan_regex_literal
  dsimp only
  split_ifs
  · exact .inl (token_from_movesOn (by decide) ((take_regex_le _ _ _ _).trans_lt hless))
  · exact nofun
  · exact .inl (token_from_movesOn (by decide) ((stream.remaining_le _).trans_lt hless))
  · exact .inl (token_from_movesOn (by decide) hless)

theorem scan_token_scans (lexer : Lexer S) : Scans stream lexer (scan_token classes stream lexer) := by
  unfold scan_token
  cases hpeek : stream.peek lexer.cursor 0 with
  | none => exact .inr ⟨_, rfl, rfl⟩
  | some char =>
    have hless := remaining_advance_lt hpeek
    dsimp only
    by_cases hspace : is_horizontal_space char = true
    · rw [if_pos hspace]
      exact .inl ⟨skip_while_lt hpeek hspace, nofun⟩
    rw [if_neg hspace]
    by_cases hcontinued : char = '\\' ∧ stream.peek lexer.cursor 1 = some '\n'
    · rw [if_pos hcontinued]
      exact .inl ⟨(stream.remaining_le _).trans_lt hless, nofun⟩
    rw [if_neg hcontinued]
    by_cases hnewline : char = '\n'
    · rw [if_pos hnewline]
      exact .inl (token_from_movesOn (by decide) hless)
    rw [if_neg hnewline]
    by_cases hcomment : char = '#'
    · rw [if_pos hcomment]
      exact .inl ⟨skip_while_lt hpeek (by simp [hcomment]), nofun⟩
    rw [if_neg hcomment]
    by_cases hslash : char = '/'
    · rw [if_pos hslash]
      exact slash_scans hpeek
    rw [if_neg hslash]
    split
    · next hoperator => exact .inl (multi_char_movesOn hoperator)
    · next hkind => exact .inl (token_from_movesOn (lookup_ne_eof (by decide) hkind) hless)
    · split_ifs with hquote hletter hdigit
      · exact string_scans hpeek
      · have hword : (classes.isalnum char || char == '_') = true := by
          rw [Bool.or_eq_true] at hletter ⊢
          exact hletter.imp_left (classes.alpha_alnum char)
        exact .inl (token_from_movesOn (keyword_ne_eof _) (take_while_lt hpeek hword))
      · exact .inl (token_from_movesOn (by decide) (take_number_lt hpeek hdigit))
      · exact nofun

/-- The scanner gave all the tokens, or an error of the language. -/
def ScanEnds : Except LexFailure (List Token) → Prop
  | .ok tokens => EofEnded tokens
  | .error failure => failure ≠ .unfinished

theorem scan_tokens_ends {fuel : Nat} {lexer : Lexer S} (hfuel : stream.remaining lexer.cursor < fuel) :
    ScanEnds (scan_tokens classes stream fuel lexer) := by
  induction fuel generalizing lexer with
  | zero => omega
  | succ fuel ih =>
    have hscans : Scans stream lexer (scan_token classes stream lexer) := scan_token_scans lexer
    unfold scan_tokens
    cases hscanned : scan_token classes stream lexer with
    | error failure =>
      rw [hscanned] at hscans
      exact hscans
    | ok scanned =>
      rw [hscanned] at hscans
      obtain ⟨hless, hkind⟩ | ⟨token, rfl, hkind⟩ := hscans
      · obtain ⟨token, after⟩ := scanned
        dsimp only at hless
        have hrest := @ih after (by omega)
        cases token with
        | none => exact hrest
        | some token =>
          have htoken := hkind token rfl
          change ScanEnds (if token.kind = .eof then pure [token] else do
            return token :: (← scan_tokens classes stream fuel after))
          rw [if_neg htoken]
          cases hscanned : scan_tokens classes stream fuel after with
          | error failure => rw [hscanned] at hrest; exact hrest
          | ok tokens => rw [hscanned] at hrest; exact .cons htoken hrest
      · change ScanEnds (if token.kind = .eof then pure [token] else do
          return token :: (← scan_tokens classes stream fuel lexer))
        rw [if_pos hkind]
        exact .eof hkind

end Scan

theorem lex_ends (classes : CharClasses) (source : ProgramSource) : ScanEnds (lex classes source) :=
  scan_tokens_ends (Nat.lt_succ_self _)

/-- Lex and parse a source. -/
def front_end (classes : CharClasses) (source : ProgramSource) : Except (LexFailure ⊕ ParseFailure) Program :=
  match lex classes source with
  | .error failure => .error (.inl failure)
  | .ok tokens =>
    match parse tokens with
    | .error failure => .error (.inr failure)
    | .ok program => .ok program

/-- A program, or an error of the language. -/
def Settled : Except (LexFailure ⊕ ParseFailure) Program → Prop
  | .ok _ => True
  | .error (.inl failure) => failure ≠ .unfinished
  | .error (.inr failure) => ∃ message, failure = .parse_error message

theorem parse_meets (allowed : ParseFailure → Prop) {tokens : List Token}
    (hmessage : ∀ message, allowed (.parse_error message)) (hready : Ready allowed tokens) (hitem : HasItem tokens) :
    ∀ failure, parse tokens = .error failure → allowed failure := by
  intro failure hparse
  have hcalls := expression_calls_take hmessage (tokens.length + 1)
  have hmeets := program_meets hmessage hcalls (statement_calls_take hmessage hcalls (Nat.le_refl _)) hready
    (Nat.le_succ _) hitem
  unfold Meets at hmeets
  unfold parse at hparse
  split at hmeets
  · next hrun =>
    dsimp only at hparse
    rw [hrun] at hparse
    cases hparse
  · next failure' hrun =>
    dsimp only at hparse
    rw [hrun] at hparse
    obtain rfl := Except.error.inj hparse
    exact hmeets

theorem parse_empty {tokens : List Token} (h : EofEnded tokens) (hitem : ¬ HasItem tokens) :
    parse tokens = .error .index_error := by
  have hmeets := empty_program (expression_calls (tokens.length + 1))
    (statement_calls (expression_calls (tokens.length + 1)) (tokens.length + 1)) h hitem
  unfold Meets at hmeets
  unfold parse
  dsimp only
  split at hmeets
  · exact hmeets.elim
  · next hrun =>
    rw [hrun, hmeets]
    rfl

theorem ascii_decimal_digit {char : Char} (h : char.toNat < 128) (hdigit : is_decimal_digit char = true) :
    char.isDigit = true := by
  have hstarts : ∀ code < 128, decimal_digit_starts.any (fun start => start ≤ code && code < start + 10) = true →
      48 ≤ code ∧ code ≤ 57 := by decide +kernel
  obtain ⟨hlow, hhigh⟩ := hstarts char.toNat h hdigit
  unfold Char.isDigit
  rw [Bool.and_eq_true, decide_eq_true_eq, decide_eq_true_eq]
  exact ⟨hlow, hhigh⟩

/-- The letters of ASCII, and the digits of all scripts and the raised ones of Latin-1. -/
def latin_classes : CharClasses where
  isalpha := Char.isAlpha
  isalnum := Char.isAlphanum
  isdigit char := char.isDigit || is_decimal_digit char || ['\u00b9', '\u00b2', '\u00b3'].contains char
  ascii_alpha _ _ := rfl
  ascii_alnum _ _ := rfl
  ascii_digit char h := by
    have hraised : ['\u00b9', '\u00b2', '\u00b3'].contains char = false := by
      by_contra hmem
      simp only [Bool.not_eq_false, List.contains_iff_mem, List.mem_cons, List.not_mem_nil, or_false] at hmem
      obtain rfl | rfl | rfl := hmem <;> exact absurd h (by decide)
    rw [hraised, Bool.or_false]
    cases hdigit : is_decimal_digit char with
    | false => rw [Bool.or_false]
    | true => rw [ascii_decimal_digit h hdigit, Bool.or_true]
  alpha_alnum char h := by rw [Char.isAlphanum, h, Bool.true_or]
  decimal_digit char h := by rw [h, Bool.or_true, Bool.true_or]

theorem name_convertible {name eof : Token} (hname : name.kind = .ident) (heof : eof.kind = .eof) :
    Convertible [name, eof] := by
  intro suffix hsuffix
  have hkinds : ∀ token rest, suffix = token :: rest → token.kind = .ident ∨ token.kind = .eof := by
    rintro token rest rfl
    have hmem : token ∈ [name, eof] := hsuffix.mem List.mem_cons_self
    obtain rfl | hmem := List.mem_cons.mp hmem
    · exact .inl hname
    · exact .inr (List.mem_singleton.mp hmem ▸ heof)
  refine ⟨fun token rest heq hkind => ?_, fun dollar inner rest raw_text heq hkind => ?_, fun index rest token hfield => ?_⟩
  · obtain h | h := hkinds token rest heq <;> rw [h] at hkind <;> cases hkind
  · obtain h | h := hkinds dollar inner heq <;> rw [h] at hkind <;> cases hkind
  · cases hfield with
    | field hkind => obtain h | h := hkinds _ _ rfl <;> rw [h] at hkind <;> cases hkind
    | parens hkind => obtain h | h := hkinds _ _ rfl <;> rw [h] at hkind <;> cases hkind

end quawk
