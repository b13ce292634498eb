import Mathlib.Data.Set.Defs
import Quawk.LowerBuiltins
import Quawk.StringLiterals

namespace quawk

/-- The characters outside escape pairs, backslashes paired from the left. -/
def unescaped : Text → Text
  | [] => []
  | ['\\'] => []
  | '\\' :: _ :: rest => unescaped rest
  | char :: rest => char :: unescaped rest

/-- The characters behind the backslashes of the escape pairs. -/
def escape_pairs : Text → Text
  | [] => []
  | ['\\'] => []
  | '\\' :: escaped :: rest => escaped :: escape_pairs rest
  | _ :: rest => escape_pairs rest

/-- Whether the last of the brackets is an opening one. -/
def bracket_open (in_char_class : Bool) (chars : Text) : Bool :=
  chars.foldl (fun is_open char => if char = '[' then true else if char = ']' then false else is_open) in_char_class

theorem unescaped_plain {char : Char} (h : char ≠ '\\') (rest : Text) : unescaped (char :: rest) = char :: unescaped rest := by
  rw [unescaped]
  · exact fun heq _ => h heq
  · exact fun _ _ heq _ => h heq

/-- The slash behind these characters closes a literal for a reader to whom a bracket is open from any `[` to the next
`]`, escape pairs apart. -/
structure ClosedBefore (in_char_class : Bool) (body : Text) : Prop where
  paired : Paired body
  one_line : '\n' ∉ unescaped body
  slashes : ∀ before after, unescaped body = before ++ '/' :: after → bracket_open in_char_class before = true
  closed : bracket_open in_char_class (unescaped body) = false

theorem ClosedBefore.cons {in_char_class : Bool} {char : Char} {body : Text} (hchar : char ≠ '\\') (hnewline : char ≠ '\n')
    (hslash : char = '/' → in_char_class = true)
    (h : ClosedBefore (bracket_open in_char_class [char]) body) : ClosedBefore in_char_class (char :: body) := by
  refine ⟨.plain hchar h.paired, ?_, ?_, ?_⟩
  · rw [unescaped_plain hchar]
    exact fun hmem => (List.mem_cons.mp hmem).elim (fun heq => hnewline heq.symm) h.one_line
  · intro before after heq
    rw [unescaped_plain hchar] at heq
    cases before with
    | nil => exact hslash (List.cons.inj heq).1
    | cons first before =>
      obtain ⟨rfl, hrest⟩ := List.cons.inj heq
      exact h.slashes before after hrest
  · rw [unescaped_plain hchar]
    exact h.closed

theorem ClosedBefore.of_cons {in_char_class : Bool} {char : Char} {body : Text} (hchar : char ≠ '\\')
    (h : ClosedBefore in_char_class (char :: body)) :
    char ≠ '\n' ∧ (char = '/' → in_char_class = true) ∧ ClosedBefore (bracket_open in_char_class [char]) body := by
  obtain ⟨hpaired, hline, hslashes, hclosed⟩ := h
  rw [unescaped_plain hchar] at hline hslashes hclosed
  have hbody : Paired body := by
    cases hpaired with
    | pair => exact absurd rfl hchar
    | plain _ h => exact h
  refine ⟨fun heq => hline (heq ▸ List.mem_cons_self), fun heq => hslashes [] (unescaped body) (by rw [heq]; rfl),
    hbody, fun hmem => hline (List.mem_cons_of_mem _ hmem), fun before after heq => ?_, hclosed⟩
  exact hslashes (char :: before) after (by rw [heq]; rfl)

/-- What the scanner takes for the body of a literal. -/
theorem regex_body_iff (in_char_class : Bool) (body : Text) : RegexBody in_char_class body ↔ ClosedBefore in_char_class body := by
  constructor
  · intro h
    induction h with
    | nil => exact ⟨.nil, nofun, fun before after heq => absurd heq.symm (by simp [unescaped]), rfl⟩
    | escaped char _ ih => exact ⟨.pair char ih.paired, ih.one_line, ih.slashes, ih.closed⟩
    | class_start _ ih => exact .cons (by decide) (by decide) nofun ih
    | class_end _ ih => exact .cons (by decide) (by decide) nofun ih
    | @plain char in_char_class body hchar hslash _ ih =>
      simp only [List.mem_cons, List.not_mem_nil, or_false, not_or] at hchar
      obtain ⟨hnewline, hbackslash, hopen, hclose⟩ := hchar
      have hsame : bracket_open in_char_class [char] = in_char_class := by simp [bracket_open, hopen, hclose]
      exact .cons hbackslash hnewline hslash (by rwa [hsame])
  · intro h
    have hpaired := h.paired
    induction hpaired generalizing in_char_class with
    | nil =>
      obtain rfl : in_char_class = false := h.closed
      exact .nil
    | @pair escaped body hbody ih => exact .escaped escaped (ih _ ⟨hbody, h.one_line, h.slashes, h.closed⟩)
    | @plain char body hchar _ ih =>
      obtain ⟨hnewline, hslash, hbody⟩ := h.of_cons hchar
      have hrest := ih _ hbody
      by_cases hopen : char = '['
      · subst hopen
        exact .class_start hrest
      by_cases hclose : char = ']'
      · subst hclose
        exact .class_end hrest
      have hsame : bracket_open in_char_class [char] = in_char_class := by simp [bracket_open, hopen, hclose]
      rw [hsame] at hrest
      refine .plain ?_ hslash hrest
      simp only [List.mem_cons, List.not_mem_nil, or_false, not_or]
      exact ⟨hnewline, hchar, hopen, hclose⟩

/-- The characters that make a name of a bracket expression, as in `[:alpha:]`. -/
def BRACKET_NAME_MARKS : Text := [':', '.', '=']

/-- What stands in a bracket expression behind its first character; a backslash is a character there. -/
inductive BracketItems : Text → Prop where
  | nil : BracketItems []
  | named {mark : Char} {name items : Text} (hmark : mark ∈ BRACKET_NAME_MARKS) (hname : mark ∉ name ∧ '\n' ∉ name)
    (h : BracketItems items) : BracketItems ('[' :: mark :: (name ++ mark :: ']' :: items))
  | char {char : Char} {items : Text} (hchar : char ∉ [']', '\n'])
    (hopen : char = '[' → ∀ next ∈ items.head?, next ∉ BRACKET_NAME_MARKS) (h : BracketItems items) :
    BracketItems (char :: items)

/-- A bracket expression; a `]` that comes first in it, or first behind the `^`, is a character. -/
inductive BracketExpression : Text → Prop where
  | close_first {items : Text} (h : BracketItems items) : BracketExpression ('[' :: ']' :: (items ++ [']']))
  | negated_close_first {items : Text} (h : BracketItems items) : BracketExpression ('[' :: '^' :: ']' :: (items ++ [']']))
  | items {items : Text} (hne : items ≠ []) (hfirst : items.head? ≠ some '^') (h : BracketItems items) :
    BracketExpression ('[' :: (items ++ [']']))
  | negated_items {items : Text} (hne : items ≠ []) (h : BracketItems items) :
    BracketExpression ('[' :: '^' :: (items ++ [']']))

/-- A regular expression on one line, as its characters are grouped: escape pairs, bracket expressions, and characters
among which there is no slash. -/
inductive RegexText : Text → Prop where
  | nil : RegexText []
  | pair {escaped : Char} {text : Text} (hescaped : escaped ≠ '\n') (h : RegexText text) :
    RegexText ('\\' :: escaped :: text)
  | bracket {expression text : Text} (hexpression : BracketExpression expression) (h : RegexText text) :
    RegexText (expression ++ text)
  | char {char : Char} {text : Text} (hchar : char ∉ ['\\', '[', '/', '\n']) (h : RegexText text) : RegexText (char :: text)

section Scan

variable {classes : CharClasses} {source : ProgramSource} {lexer : Lexer ValidCursor}

/-- The token of a regex whose body and what follows it are left of a program. -/
def regex_token (source : ProgramSource) (body after : Text) : Token :=
  ⟨.regex, ⟨place source ('/' :: body ++ ['/'] ++ after), place source after⟩, some ('/' :: body ++ ['/'])⟩

/-- The scanner takes the body between its slashes for a literal and goes on behind it. -/
def TakesLiteral (classes : CharClasses) (source : ProgramSource) (lexer : Lexer ValidCursor) (body after : Text) : Prop :=
  ∃ next, Ahead source next after ∧
    scan_token classes source_stream lexer = .ok (some (regex_token source body after), ⟨next, false⟩)

/-- The scanner finds no end of a literal. -/
def Unterminated (classes : CharClasses) (lexer : Lexer ValidCursor) : Prop :=
  ∃ span, scan_token classes source_stream lexer = .error (.lex_error .unterminated_regex span)

/-- Where an operand may stand a slash starts nothing but a literal. -/
theorem slash_starts_regex {rest after : Text} {token : Option Token} {operand : Bool}
    (h : TextStep classes true ('/' :: rest) token after operand) :
    ∃ body, RegexBody false body ∧ '/' :: rest = '/' :: body ++ ['/'] ++ after ∧
      token = some (placeless .regex ('/' :: body ++ ['/'])) ∧ operand = false := by
  generalize htext : '/' :: rest = text at h
  cases h with
  | eof => cases htext
  | trivia htrivia =>
    cases htrivia with
    | @blanks chars _ hne hblank =>
      obtain ⟨first, chars, rfl⟩ := List.exists_cons_of_ne_nil hne
      obtain ⟨rfl, -⟩ := List.cons.inj htext
      exact absurd (hblank '/' List.mem_cons_self) (by decide)
    | continued => cases htext
    | comment => cases htext
  | @token kind chars _ hspelled hregex hslash =>
    cases hspelled with
    | newline => cases htext
    | @punctuation char _ _ hkind =>
      obtain ⟨rfl, -⟩ := List.cons.inj htext
      rw [show PUNCTUATION_KINDS.lookup '/' = none from rfl] at hkind
      cases hkind
    | operator _ hfirst =>
      obtain ⟨rfl, -⟩ := List.cons.inj htext
      exact absurd rfl hfirst
    | slash => exact absurd (hslash (.inl rfl)) (by decide)
    | slash_equal => exact absurd (hslash (.inr rfl)) (by decide)
    | word hfirst =>
      obtain ⟨rfl, -⟩ := List.cons.inj htext
      exact absurd (by decide : '/' ∈ SPECIAL_CHARS) (not_special (.inl hfirst))
    | number hfirst =>
      obtain ⟨rfl, -⟩ := List.cons.inj htext
      exact absurd (by decide : '/' ∈ SPECIAL_CHARS) (not_special (.inr hfirst))
    | string => cases htext
    | @regex body _ hbody => exact ⟨body, hbody, rfl, rfl, rfl⟩

/-- Where an operand may stand a slash starts a literal, or there is an error. -/
theorem regex_outcome {rest : Text} (hahead : Ahead source lexer.cursor ('/' :: rest)) (hoperand : lexer.expect_operand = true) :
    Unterminated classes lexer ∨ ∃ body after, rest = body ++ '/' :: after ∧ RegexBody false body ∧
      TakesLiteral classes source lexer body after := by
  cases hscanned : scan_token classes source_stream lexer with
  | error failure =>
    have hagree : Agree (fun _ _ => True) (Scanned (fun _ _ => True) (Ahead source))
        (scan_token classes source_stream lexer) (scan_token classes text_stream ⟨'/' :: rest, lexer.expect_operand⟩) :=
      Scanned.scan_token (ahead_simulates source) ⟨hahead, rfl⟩
    rw [hscanned, hoperand] at hagree
    change Agree _ _ _ (scan_regex_literal text_stream ⟨0, 0⟩ ⟨'/' :: rest, true⟩) at hagree
    unfold scan_regex_literal at hagree
    dsimp only at hagree
    split_ifs at hagree
    · cases hagree
    · cases hagree with
      | lex_error => exact .inl ⟨_, hscanned⟩
  | ok scanned =>
    obtain ⟨token, ⟨next, operand⟩⟩ := scanned
    obtain ⟨spelled, after, hstep, hnext, rfl⟩ := source_step hahead hscanned
    dsimp only at hstep hnext
    rw [hoperand] at hstep
    obtain ⟨body, hbody, htext, rfl, rfl⟩ := slash_starts_regex hstep
    have hrest : rest = body ++ '/' :: after := by simpa using htext
    refine .inr ⟨body, after, hrest, hbody, next, hnext, ?_⟩
    rw [hscanned, regex_token, htext]
    rfl

theorem takes_literal_of_body {body after : Text} (hbody : RegexBody false body)
    (hahead : Ahead source lexer.cursor ('/' :: (body ++ '/' :: after))) (hoperand : lexer.expect_operand = true) :
    TakesLiteral classes source lexer body after := by
  have hspelled : Spelled classes .regex ('/' :: body ++ ['/']) after := .regex hbody
  refine source_spelled ?_ hspelled (fun _ => hoperand) (by rintro (h | h) <;> cases h)
  simpa using hahead

theorem TakesLiteral.body_eq {body after body' after' : Text} (h : TakesLiteral classes source lexer body after)
    (h' : TakesLiteral classes source lexer body' after') : body = body' := by
  obtain ⟨next, -, hscanned⟩ := h
  obtain ⟨next', -, hscanned'⟩ := h'
  have hpair := Except.ok.inj (hscanned.symm.trans hscanned')
  have htext := congrArg Token.text (Option.some.inj (Prod.mk.inj hpair).1)
  have hchars : '/' :: body ++ ['/'] = '/' :: body' ++ ['/'] := Option.some.inj htext
  simpa using hchars

theorem TakesLiteral.not_unterminated {body after : Text} (h : TakesLiteral classes source lexer body after) :
    ¬ Unterminated classes lexer := by
  rintro ⟨span, herror⟩
  obtain ⟨next, -, hscanned⟩ := h
  cases hscanned.symm.trans herror

/-- No bracket is open at the slash that ends a literal, and none closed at a slash in it. -/
theorem TakesLiteral.closed_before {body after rest : Text} (h : TakesLiteral classes source lexer body after)
    (hahead : Ahead source lexer.cursor ('/' :: rest)) (hoperand : lexer.expect_operand = true) :
    ClosedBefore false body := by
  obtain herror | ⟨body', after', -, hbody, htaken⟩ := @regex_outcome classes _ _ _ hahead hoperand
  · exact absurd herror h.not_unterminated
  · rw [h.body_eq htaken]
    exact (regex_body_iff false body').mp hbody

/-- A regex is taken up to the slash behind it, and where there is none the literal has no end. -/
def LiteralScanned (classes : CharClasses) (source : ProgramSource) (lexer : Lexer ValidCursor) (rest : Text) : Prop :=
  (∀ body after, rest = body ++ '/' :: after → RegexText body → TakesLiteral classes source lexer body after) ∧
    ((∀ body after, rest = body ++ '/' :: after → ¬ RegexText body) → Unterminated classes lexer)

/-- Behind a slash where an operand may stand. -/
theorem regex_literals_scanned_iff {rest : Text} (hahead : Ahead source lexer.cursor ('/' :: rest))
    (hoperand : lexer.expect_operand = true) : LiteralScanned classes source lexer rest ↔
      (∀ body after, rest = body ++ '/' :: after → RegexText body → ClosedBefore false body) ∧
        ((∀ body after, rest = body ++ '/' :: after → ¬ RegexText body) →
          ∀ body after, rest = body ++ '/' :: after → ¬ ClosedBefore false body) := by
  have htakes : ∀ body after, rest = body ++ '/' :: after → ClosedBefore false body →
      TakesLiteral classes source lexer body after := by
    rintro body after rfl hclosed
    exact takes_literal_of_body ((regex_body_iff false body).mpr hclosed) hahead hoperand
  constructor
  · rintro ⟨hliteral, hunterminated⟩
    refine ⟨fun body after hrest hregex => (hliteral body after hrest hregex).closed_before hahead hoperand,
      fun hnone body after hrest hclosed => ?_⟩
    exact (htakes body after hrest hclosed).not_unterminated (hunterminated hnone)
  · rintro ⟨hclosed, hnone_closed⟩
    refine ⟨fun body after hrest hregex => htakes body after hrest (hclosed body after hrest hregex), fun hnone => ?_⟩
    obtain herror | ⟨body, after, hrest, hbody, -⟩ := @regex_outcome classes _ _ _ hahead hoperand
    · exact herror
    · exact absurd ((regex_body_iff false body).mp hbody) (hnone_closed hnone body after hrest)

end Scan

def start_lexer (source : ProgramSource) : Lexer ValidCursor := ⟨⟨.start source, SourceCursor.start_valid source⟩, true⟩

theorem last_slash_split {text body after : Text} (h : text ++ ['/'] = body ++ '/' :: after) (hslash : '/' ∉ text) :
    body = text := by
  obtain ⟨front, rfl, hfront⟩ | ⟨back, rfl, hback⟩ := List.append_eq_append_iff.mp h
  · have hlength := congrArg List.length hfront
    simp only [List.length_cons, List.length_nil, List.length_append] at hlength
    obtain rfl : front = [] := List.length_eq_zero_iff.mp (by omega)
    exact List.append_nil text
  · cases back with
    | nil => exact (List.append_nil body).symm
    | cons first back =>
      obtain ⟨rfl, -⟩ := List.cons.inj hback
      exact absurd (List.mem_append_right body List.mem_cons_self) hslash

/-- The regex of `/[a]\./`. -/
theorem regex_literals_scanned_letter : LiteralScanned latin_classes (.from_inline "/[a]\\./".toList)
    (start_lexer (.from_inline "/[a]\\./".toList)) (['[', 'a', ']', '\\', '.'] ++ ['/']) := by
  refine (regex_literals_scanned_iff (.start _) rfl).mpr ⟨fun body after heq _ => ?_, fun hnone => ?_⟩
  · rw [last_slash_split heq (by decide)]
    exact (regex_body_iff false _).mp
      (.class_start (.plain (by decide) nofun (.class_end (.escaped '.' .nil))))
  · have hitems : BracketItems ['a'] := .char (by decide) nofun .nil
    have hbracket : BracketExpression ['[', 'a', ']'] := .items (List.cons_ne_nil _ _) (by decide) hitems
    have hpair : RegexText ['\\', '.'] := .pair (by decide) .nil
    exact absurd (.bracket hbracket hpair) (hnone ['[', 'a', ']', '\\', '.'] [] rfl)

/-- In `/[]/]/` the first slash stands in a bracket expression of `]` and `/`. -/
theorem regex_literals_misread : ¬ LiteralScanned latin_classes (.from_inline "/[]/]/".toList)
    (start_lexer (.from_inline "/[]/]/".toList)) "[]/]/".toList := by
  rintro ⟨hliteral, -⟩
  have hitems : BracketItems ['/'] := .char (by decide) nofun .nil
  have htaken := hliteral ['[', ']', '/', ']'] [] rfl (.bracket (.close_first hitems) .nil)
  have hclosed := htaken.closed_before (.start _) rfl
  exact absurd (hclosed.slashes ['[', ']'] [']'] rfl) (by decide)

/-- What an escape pair stands for: a slash, a newline and a tab are characters, and the others stay pairs. -/
def denoted_escape (escaped : Char) : Text :=
  if escaped = '/' then ['/'] else if escaped = 'n' then ['\n'] else if escaped = 't' then ['\t'] else ['\\', escaped]

/-- A body with the three pairs replaced by the characters they stand for. -/
def denoted_text : Text → Text
  | [] => []
  | ['\\'] => ['\\']
  | '\\' :: escaped :: rest => denoted_escape escaped ++ denoted_text rest
  | char :: rest => char :: denoted_text rest

/-- The runtime gets the body with the three pairs replaced, and so a regex of the same matches wherever these pairs
match what they stand for. -/
structure RegexKept (body : Text) : Prop where
  text : decode_regex_literal ('/' :: body ++ ['/']) = denoted_text body
  matched : ∀ matches_text : Text → Text → Prop,
    (∀ regex string, matches_text (denoted_text regex) string ↔ matches_text regex string) →
      ∀ string, matches_text (decode_regex_literal ('/' :: body ++ ['/'])) string ↔ matches_text body string

theorem decode_regex_literal_body (body : Text) : decode_regex_literal ('/' :: body ++ ['/']) = decode_regex_body body := by
  rw [decode_regex_literal, List.cons_append, List.drop_succ_cons, List.drop_zero, List.dropLast_concat]

/-- The decoder is one character short for every escaped backslash. -/
theorem decode_regex_body_length (body : Text) :
    (decode_regex_body body).length + (escape_pairs body).count '\\' = (denoted_text body).length := by
  induction body using escape_pairs.induct with
  | case1 => rfl
  | case2 => rfl
  | case3 escaped rest ih =>
    rw [decode_regex_body, escape_pairs, denoted_text, List.length_append, List.length_append, List.count_cons, ← ih]
    unfold denoted_escape
    grind
  | case4 char rest hlast hpair ih =>
    rw [decode_regex_body, escape_pairs, denoted_text, List.length_cons, List.length_cons, ← ih]
    · omega
    all_goals assumption

theorem decode_regex_body_eq (body : Text) (h : '\\' ∉ escape_pairs body) : decode_regex_body body = denoted_text body := by
  induction body using escape_pairs.induct with
  | case1 => rfl
  | case2 => rfl
  | case3 escaped rest ih =>
    rw [escape_pairs, List.mem_cons, not_or] at h
    rw [decode_regex_body, denoted_text, ih h.2]
    unfold denoted_escape
    simp only [Ne.symm h.1, false_or]
    grind
  | case4 char rest hlast hpair ih =>
    have hrest : escape_pairs (char :: rest) = escape_pairs rest := by rw [escape_pairs] <;> assumption
    rw [decode_regex_body, denoted_text, ih (hrest ▸ h)]
    all_goals assumption

theorem regexKept_iff (body : Text) : RegexKept body ↔ '\\' ∉ escape_pairs body := by
  refine ⟨fun h hmem => ?_, fun h => ?_⟩
  · have htext := h.text
    rw [decode_regex_literal_body] at htext
    have hlength := decode_regex_body_length body
    rw [htext] at hlength
    have hcount := List.count_pos_iff.mpr hmem
    omega
  · have htext : decode_regex_literal ('/' :: body ++ ['/']) = denoted_text body := by
      rw [decode_regex_literal_body, decode_regex_body_eq body h]
    exact ⟨htext, fun matches_text hmatches string => by rw [htext, hmatches]⟩

theorem Spelled.regex_text {classes : CharClasses} {kind : TokenKind} {chars rest : Text}
    (h : Spelled classes kind chars rest) (hkind : kind = .regex) : ∃ body, chars = '/' :: body ++ ['/'] := by
  have hpunctuation : ∀ entry ∈ PUNCTUATION_KINDS, entry.2 ≠ .regex := by decide
  have hoperators : ∀ entry ∈ MULTI_CHAR_TOKEN_KINDS, entry.2 ≠ .regex := by decide
  cases h with
  | punctuation hlookup =>
    obtain ⟨before, after, htable, -⟩ := List.lookup_eq_some_iff.mp hlookup
    exact absurd hkind (hpunctuation (_, kind) (by rw [htable]; exact List.mem_append_right _ List.mem_cons_self))
  | operator hlookup =>
    obtain ⟨before, after, htable, -⟩ := List.lookup_eq_some_iff.mp hlookup
    exact absurd hkind (hoperators (_, kind) (by rw [htable]; exact List.mem_append_right _ List.mem_cons_self))
  | word => exact absurd hkind (keyword_kinds _).1
  | @regex body => exact ⟨body, rfl⟩
  | _ => cases hkind

theorem Tiled.regex_text {classes : CharClasses} {source : ProgramSource} {text : Text} {tokens : List Token}
    (h : Tiled classes source text tokens) :
    ∀ token ∈ tokens, token.kind = .regex → ∃ body, token.text = some ('/' :: body ++ ['/']) := by
  induction h with
  | eof =>
    intro token hmem hkind
    rw [List.mem_singleton.mp hmem] at hkind
    cases hkind
  | @token kind gap chars rest tokens _ hspelled _ ih =>
    intro token hmem hkind
    obtain rfl | hmem := List.mem_cons.mp hmem
    · obtain rfl : kind = .regex := hkind
      obtain ⟨body, rfl⟩ := hspelled.regex_text rfl
      exact ⟨body, rfl⟩
    · exact ih token hmem hkind

/-- The regex of a literal that the lexer accepts is kept exactly when it has no escaped backslash. -/
theorem regex_literals_kept_iff (classes : CharClasses) (source : ProgramSource) (tokens : List Token)
    (h : lex classes source = .ok tokens) :
    ∀ token ∈ tokens, token.kind = .regex → ∃ body, token.text = some ('/' :: body ++ ['/']) ∧
      (RegexKept body ↔ '\\' ∉ escape_pairs body) := by
  intro token hmem hkind
  obtain ⟨body, hbody⟩ := (lex_tiled h).regex_text token hmem hkind
  exact ⟨body, hbody, regexKept_iff body⟩

/-- A program of one regex literal. -/
def literal_source (body : Text) : ProgramSource := .from_inline ('/' :: body ++ ['/'])

def literal_tokens (body : Text) : List Token :=
  [regex_token (literal_source body) body [],
    ⟨.eof, ⟨place (literal_source body) [], place (literal_source body) []⟩, none⟩]

/-- The program `/[a]\./`. -/
theorem regex_literals_kept_letter : ∃ body, some ['/', '[', 'a', ']', '\\', '.', '/'] = some ('/' :: body ++ ['/']) ∧
    (RegexKept body ↔ '\\' ∉ escape_pairs body) :=
  regex_literals_kept_iff latin_classes (literal_source ['[', 'a', ']', '\\', '.'])
    (literal_tokens ['[', 'a', ']', '\\', '.']) rfl
    (regex_token (literal_source ['[', 'a', ']', '\\', '.']) ['[', 'a', ']', '\\', '.'] []) List.mem_cons_self rfl

/-- The runtime gets `a\.b` for `/a\\.b/`, where the dot is a character and no backslash is left to match. -/
theorem regex_literals_not_kept : ¬ ∀ (source : ProgramSource) (tokens : List Token), lex latin_classes source = .ok tokens →
    ∀ token ∈ tokens, token.kind = .regex →
      ∀ body, token.text = some ('/' :: body ++ ['/']) → RegexKept body := by
  intro h
  have hkept := h (literal_source ['a', '\\', '\\', '.', 'b']) (literal_tokens ['a', '\\', '\\', '.', 'b']) rfl
    (regex_token (literal_source ['a', '\\', '\\', '.', 'b']) ['a', '\\', '\\', '.', 'b'] []) List.mem_cons_self rfl
    ['a', '\\', '\\', '.', 'b'] rfl
  exact absurd hkept.text (by decide)

end quawk
