import Quawk.ScanSteps

namespace quawk

section Run

variable {S : Type} {classes : CharClasses} {stream : CharStream S SourcePoint}

/-- More turns than there are characters change nothing. -/
theorem scan_tokens_fuel {fuel fuel' : Nat} {lexer : Lexer S} (hfuel : stream.remaining lexer.cursor < fuel)
    (hfuel' : stream.remaining lexer.cursor < fuel') :
    scan_tokens classes stream fuel lexer = scan_tokens classes stream fuel' lexer := by
  induction fuel generalizing fuel' lexer with
  | zero => omega
  | succ fuel ih =>
    obtain ⟨fuel', rfl⟩ := Nat.exists_eq_succ_of_ne_zero (Nat.ne_of_gt (Nat.zero_lt_of_lt hfuel'))
    have hscans : Scans stream lexer (scan_token classes stream lexer) := scan_token_scans lexer
    unfold scan_tokens
    cases hscanned : scan_token classes stream lexer with
    | error failure => rfl
    | ok scanned =>
      obtain ⟨token, after⟩ := scanned
      rw [hscanned] at hscans
      obtain ⟨hless, -⟩ | ⟨token', heq, hkind⟩ := hscans
      · dsimp only at hless
        have hlater := @ih fuel' after (by omega) (by omega)
        cases token with
        | none => exact hlater
        | some token =>
          change (if token.kind = .eof then pure [token] else do
            return token :: (← scan_tokens classes stream fuel after)) = _
          rw [hlater]
          rfl
      · obtain ⟨rfl, rfl⟩ := Prod.mk.inj heq
        change (if token'.kind = .eof then pure [token'] else _) = if token'.kind = .eof then pure [token'] else _
        rw [if_pos hkind, if_pos hkind]

variable (classes stream) in
/-- The scanner comes from one place to another with these tokens. -/
inductive ScansTo : Lexer S → List Token → Lexer S → Prop where
  | refl (lexer : Lexer S) : ScansTo lexer [] lexer
  | trivia {lexer next last : Lexer S} {tokens : List Token} (hscanned : scan_token classes stream lexer = .ok (none, next))
    (h : ScansTo next tokens last) : ScansTo lexer tokens last
  | token {lexer next last : Lexer S} {token : Token} {tokens : List Token}
    (hscanned : scan_token classes stream lexer = .ok (some token, next)) (hkind : token.kind ≠ .eof)
    (h : ScansTo next tokens last) : ScansTo lexer (token :: tokens) last

/-- What comes of a scan is what it has taken so far and what comes of the rest. -/
theorem ScansTo.scan_tokens_eq {lexer last : Lexer S} {tokens : List Token} (h : ScansTo classes stream lexer tokens last)
    {fuel fuel' : Nat} (hfuel : stream.remaining lexer.cursor < fuel) (hfuel' : stream.remaining last.cursor < fuel') :
    scan_tokens classes stream fuel lexer = (scan_tokens classes stream fuel' last).map (tokens ++ ·) := by
  induction h generalizing fuel with
  | refl lexer =>
    rw [scan_tokens_fuel hfuel hfuel']
    cases scan_tokens classes stream fuel' lexer <;> rfl
  | @trivia lexer next last tokens hscanned _ ih =>
    have hscans : Scans stream lexer (scan_token classes stream lexer) := scan_token_scans lexer
    rw [hscanned] at hscans
    obtain ⟨hless, -⟩ | ⟨token, heq, -⟩ := hscans
    · obtain ⟨fuel, rfl⟩ := Nat.exists_eq_succ_of_ne_zero (Nat.ne_of_gt (Nat.zero_lt_of_lt hfuel))
      dsimp only at hless
      rw [← @ih fuel (by omega) hfuel']
      conv_lhs => unfold scan_tokens
      rw [hscanned]
      rfl
    · cases heq
  | @token lexer next last token tokens hscanned hkind _ ih =>
    have hscans : Scans stream lexer (scan_token classes stream lexer) := scan_token_scans lexer
    rw [hscanned] at hscans
    obtain ⟨hless, -⟩ | ⟨token', heq, heof⟩ := hscans
    · obtain ⟨fuel, rfl⟩ := Nat.exists_eq_succ_of_ne_zero (Nat.ne_of_gt (Nat.zero_lt_of_lt hfuel))
      dsimp only at hless
      have hlater := @ih fuel (by omega) hfuel'
      conv_lhs => unfold scan_tokens
      rw [hscanned]
      change (if token.kind = .eof then pure [token] else do
        return token :: (← scan_tokens classes stream fuel next)) = _
      rw [if_neg hkind, hlater]
      cases scan_tokens classes stream fuel' last <;> rfl
    · obtain rfl := Option.some.inj (Prod.mk.inj heq).1
      exact absurd heof hkind

end Run

/-- A character as it is written between quotes. -/
def escape_character (char : Char) : Text :=
  match char with
  | '\\' => ['\\', '\\']
  | '"' => ['\\', '"']
  | '\n' => ['\\', 'n']
  | '\t' => ['\\', 't']
  | _ => [char]

/-- A string between quotes, with its backslashes, quotes, newlines and tabs escaped. -/
def quoted (string : Text) : Text := '"' :: string.flatMap escape_character ++ ['"']

theorem escape_character_plain {char : Char} (h : char ∉ ['\\', '"', '\n', '\t']) : escape_character char = [char] := by
  simp only [List.mem_cons, List.not_mem_nil, or_false, not_or] at h
  unfold escape_character
  split <;> simp_all

theorem escape_character_cases (char : Char) : (∃ escaped, escape_character char = ['\\', escaped] ∧
    decode_escape escaped = .ok char) ∨ escape_character char = [char] ∧ char ∉ ['\n', '\\', '"'] := by
  by_cases hescaped : char ∈ ['\\', '"', '\n', '\t']
  · simp only [List.mem_cons, List.not_mem_nil, or_false] at hescaped
    obtain rfl | rfl | rfl | rfl := hescaped <;> exact .inl ⟨_, rfl, rfl⟩
  · refine .inr ⟨escape_character_plain hescaped, ?_⟩
    simp only [List.mem_cons, List.not_mem_nil, or_false, not_or] at hescaped ⊢
    exact ⟨hescaped.2.2.1, hescaped.1, hescaped.2.1⟩

theorem escaped_body (string : Text) : StringBody (string.flatMap escape_character) := by
  induction string with
  | nil => exact .nil
  | cons char string ih =>
    rw [List.flatMap_cons]
    obtain ⟨escaped, heq, -⟩ | ⟨heq, hplain⟩ := escape_character_cases char
    · rw [heq]
      exact .escaped escaped ih
    · rw [heq]
      exact .plain hplain ih

theorem decode_escaped (string : Text) : decode_characters (string.flatMap escape_character) = .ok string := by
  induction string with
  | nil => rfl
  | cons char string ih =>
    rw [List.flatMap_cons]
    obtain ⟨escaped, heq, hdecode⟩ | ⟨heq, hplain⟩ := escape_character_cases char
    · rw [heq, List.cons_append, List.singleton_append, decode_characters, hdecode, ih]
      rfl
    · have hbackslash : char ≠ '\\' := fun hchar => hplain (by rw [hchar]; decide)
      rw [heq, List.singleton_append, decode_characters, ih]
      · rfl
      · exact fun hchar _ => hbackslash hchar
      · exact fun _ _ hchar _ => hbackslash hchar

/-- Backslashes that all have a character behind them, paired from the left. -/
inductive Paired : Text → Prop where
  | nil : Paired []
  | pair (escaped : Char) {text : Text} (h : Paired text) : Paired ('\\' :: escaped :: text)
  | plain {char : Char} {text : Text} (hchar : char ≠ '\\') (h : Paired text) : Paired (char :: text)

theorem StringBody.paired {body : Text} (h : StringBody body) : Paired body := by
  induction h with
  | nil => exact .nil
  | escaped char _ ih => exact .pair char ih
  | plain hchar _ ih => exact .plain (fun heq => hchar (by rw [heq]; decide)) ih

theorem RegexBody.paired {in_char_class : Bool} {body : Text} (h : RegexBody in_char_class body) : Paired body := by
  induction h with
  | nil => exact .nil
  | escaped char _ ih => exact .pair char ih
  | class_start _ ih => exact .plain (by decide) ih
  | class_end _ ih => exact .plain (by decide) ih
  | plain hchar _ _ ih => exact .plain (fun heq => hchar (by rw [heq]; decide)) ih

theorem paired_of_no_backslash {text : Text} (h : ∀ char ∈ text, char ≠ '\\') : Paired text := by
  induction text with
  | nil => exact .nil
  | cons char text ih =>
    exact .plain (h char List.mem_cons_self) (ih fun other hmem => h other (List.mem_cons_of_mem _ hmem))

/-- The error of an escape that the literal ends in. -/
def unterminated_escape : ParseFailure := .parse_error "unterminated escape sequence in string literal"

theorem unsupported_ne_unterminated (escaped : Char) : ParseFailure.parse_error
    (String.ofList ("unsupported escape sequence: \\".toList ++ [escaped])) ≠ unterminated_escape := by
  intro h
  have hchars := congrArg String.toList (ParseFailure.parse_error.inj h)
  simp at hchars

theorem decode_escape_terminated (escaped : Char) : decode_escape escaped ≠ .error unterminated_escape := by
  unfold decode_escape
  split
  · exact nofun
  · exact nofun
  · exact nofun
  · exact nofun
  · exact fun h => unsupported_ne_unterminated escaped (Except.error.inj h)

theorem Paired.decode_terminated {text : Text} (h : Paired text) :
    decode_characters text ≠ .error unterminated_escape := by
  induction h with
  | nil => exact nofun
  | pair escaped _ ih =>
    rw [decode_characters]
    cases hescape : decode_escape escaped with
    | error failure => exact fun h => decode_escape_terminated escaped (hescape.trans (congrArg Except.error (Except.error.inj h)))
    | ok char =>
      cases hrest : decode_characters _ with
      | error failure => exact fun h => ih (hrest.trans h)
      | ok rest => exact nofun
  | @plain char text hchar _ ih =>
    rw [decode_characters]
    · cases hrest : decode_characters text with
      | error failure => exact fun h => ih (hrest.trans h)
      | ok rest => exact nofun
    · exact fun heq _ => hchar heq
    · exact fun _ _ heq _ => hchar heq

/-- Between its first and its last character a token ends in no escape. -/
theorem spelled_paired {classes : CharClasses} {kind : TokenKind} {chars rest : Text}
    (h : Spelled classes kind chars rest) : Paired chars.tail.dropLast := by
  have hinner : ∀ {chars : Text}, (∀ char ∈ chars.tail, char ≠ '\\') → Paired chars.tail.dropLast := fun hchars =>
    paired_of_no_backslash fun char hmem => hchars char (List.dropLast_subset _ hmem)
  have hdigit : ∀ char, classes.isdigit char = true → char ≠ '\\' := by
    rintro char hchar rfl
    rw [classes.ascii_digit '\\' (by decide)] at hchar
    exact absurd hchar (by decide)
  cases h with
  | newline => exact .nil
  | punctuation => exact .nil
  | operator => exact .nil
  | slash => exact .nil
  | slash_equal => exact .nil
  | @word first chars _ _ hchars =>
    refine hinner fun char hmem heq => ?_
    have hword := hchars char hmem
    rw [heq, is_word_char, classes.ascii_alnum '\\' (by decide)] at hword
    exact absurd hword (by decide)
  | @number first whole fraction _ _ _ hwhole hfraction =>
    refine hinner fun char hmem => ?_
    obtain hmem | hmem := List.mem_append.mp (show char ∈ whole ++ fraction from hmem)
    · exact hdigit char (hwhole char hmem)
    · obtain ⟨rfl, -⟩ | ⟨digits, rfl, hdigits⟩ := hfraction
      · cases hmem
      · obtain rfl | hmem := List.mem_cons.mp hmem
        · decide
        · exact hdigit char (hdigits char hmem)
  | @string body _ hbody =>
    rw [List.cons_append, List.tail_cons, List.dropLast_concat]
    exact hbody.paired
  | @regex body _ hbody =>
    rw [List.cons_append, List.tail_cons, List.dropLast_concat]
    exact hbody.paired

theorem Tiled.terminated {classes : CharClasses} {source : ProgramSource} {text : Text} {tokens : List Token}
    (h : Tiled classes source text tokens) :
    ∀ token ∈ tokens, decode_string_literal token ≠ .error unterminated_escape := by
  induction h with
  | eof =>
    intro token hmem
    rw [List.mem_singleton.mp hmem]
    exact nofun
  | @token kind gap chars rest tokens _ hspelled _ ih =>
    intro token hmem
    obtain rfl | hmem := List.mem_cons.mp hmem
    · have hpaired : Paired ((kept_text kind chars).getD []).tail.dropLast := by
        unfold kept_text
        split_ifs
        · exact spelled_paired hspelled
        · exact .nil
      exact hpaired.decode_terminated
    · exact ih token hmem

/-- The token of a string that is written where this is left of a program. -/
def quoted_token (source : ProgramSource) (string after : Text) : Token :=
  ⟨.string, ⟨place source (quoted string ++ after), place source after⟩, some (quoted string)⟩

theorem decode_quoted_token (source : ProgramSource) (string after : Text) :
    decode_string_literal (quoted_token source string after) = .ok string := by
  change decode_characters (quoted string).tail.dropLast = _
  rw [quoted, List.cons_append, List.tail_cons, List.dropLast_concat, decode_escaped]

theorem scan_quoted_token {classes : CharClasses} {source : ProgramSource} {string after : Text}
    {lexer : Lexer ValidCursor} (hahead : Ahead source lexer.cursor (quoted string ++ after)) :
    ∃ next, Ahead source next after ∧ scan_token classes source_stream lexer =
      .ok (some (quoted_token source string after), ⟨next, false⟩) := by
  have hspelled : Spelled classes .string (quoted string) after := .string (escaped_body string)
  exact source_spelled hahead hspelled nofun (by rintro (h | h) <;> cases h)

/-- Wherever the scanner comes to a string that is written in a program, it takes one token, which is decoded to the
string, and goes on behind it; and it takes no token that ends in an escape. -/
theorem string_literals_round_trip (classes : CharClasses) :
    (∀ (source : ProgramSource) (string after : Text) (passed : List Token) (lexer : Lexer ValidCursor),
      ScansTo classes source_stream ⟨⟨.start source, SourceCursor.start_valid source⟩, true⟩ passed lexer →
      Ahead source lexer.cursor (quoted string ++ after) →
        ∃ next, Ahead source next after ∧
          decode_string_literal (quoted_token source string after) = .ok string ∧
          lex classes source = (scan_tokens classes source_stream (after.length + 1) ⟨next, false⟩).map
            (passed ++ quoted_token source string after :: ·)) ∧
      ∀ (source : ProgramSource) (tokens : List Token), lex classes source = .ok tokens →
        ∀ token ∈ tokens, decode_string_literal token ≠
          .error (.parse_error "unterminated escape sequence in string literal") := by
  refine ⟨fun source string after passed lexer hpassed hahead => ?_, fun source tokens h => (lex_tiled h).terminated⟩
  obtain ⟨next, hnext, hscanned⟩ := @scan_quoted_token classes _ _ _ _ hahead
  refine ⟨next, hnext, decode_quoted_token source string after, ?_⟩
  have hstep : ScansTo classes source_stream lexer [quoted_token source string after] ⟨next, false⟩ :=
    .token hscanned nofun (.refl _)
  have hremaining : source_stream.remaining next < after.length + 1 := by
    rw [(ahead_simulates source).remaining hnext]
    exact Nat.lt_succ_self _
  have hbehind : source_stream.remaining lexer.cursor < source_stream.remaining lexer.cursor + 1 := Nat.lt_succ_self _
  rw [lex, scan_stream, hpassed.scan_tokens_eq (Nat.lt_succ_self _) hbehind, hstep.scan_tokens_eq hbehind hremaining]
  cases scan_tokens classes source_stream (after.length + 1) ⟨next, false⟩ with
  | error failure => rfl
  | ok later => exact congrArg Except.ok (by simp)

/-- The program `"a"`. -/
theorem string_literals_round_trip_letter : ∃ next, decode_string_literal
    (quoted_token (.from_inline (quoted ['a'])) ['a'] []) = .ok ['a'] ∧ lex latin_classes (.from_inline (quoted ['a'])) =
      (scan_tokens latin_classes source_stream 1 ⟨next, false⟩).map
        ([] ++ quoted_token (.from_inline (quoted ['a'])) ['a'] [] :: ·) := by
  obtain ⟨next, -, hdecoded, hlexed⟩ := (string_literals_round_trip latin_classes).1 (.from_inline (quoted ['a'])) ['a'] [] []
    _ (.refl _) (.start _)
  exact ⟨next, hdecoded, hlexed⟩

end quawk
