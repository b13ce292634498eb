import Quawk.LoweringState
import Quawk.Token

namespace quawk

/-- What Python's character tables say, and what is fixed of it. -/
structure CharClasses where
  isalpha : Char → Bool
  isalnum : Char → Bool
  isdigit : Char → Bool
  ascii_alpha : ∀ char : Char, char.toNat < 128 → isalpha char = char.isAlpha
  ascii_alnum : ∀ char : Char, char.toNat < 128 → isalnum char = char.isAlphanum
  ascii_digit : ∀ char : Char, char.toNat < 128 → isdigit char = char.isDigit
  alpha_alnum : ∀ char, isalpha char = true → isalnum char = true
  decimal_digit : ∀ char, is_decimal_digit char = true → isdigit char = true

inductive LexMessage where
  /-- `unexpected character: …` -/
  | unexpected_character (char : Char)
  /-- `unterminated string literal` -/
  | unterminated_string
  /-- `unterminated regex literal` -/
  | unterminated_regex
  deriving DecidableEq

inductive LexFailure where
  | lex_error (message : LexMessage) (span : SourceSpan)
  /-- The scanner goes on without an end. -/
  | unfinished
  deriving DecidableEq

/-- The scanner: its place in the text, and whether a `/` opens a regex there. -/
structure Lexer (S : Type) where
  cursor : S
  expect_operand : Bool

section Scan

variable {S : Type} (classes : CharClasses) (stream : CharStream S SourcePoint)

def skip_while (predicate : Char → Bool) : Nat → S → S
  | 0, cursor => cursor
  | fuel + 1, cursor =>
    match stream.peek cursor 0 with
    | none => cursor
    | some char => if predicate char then skip_while predicate fuel (stream.advance cursor).2 else cursor

/-- Consume characters while `predicate` returns true. -/
def take_while (predicate : Char → Bool) : Nat → S → Text × S
  | 0, cursor => ([], cursor)
  | fuel + 1, cursor =>
    match stream.peek cursor 0 with
    | none => ([], cursor)
    | some char =>
      if predicate char then
        let (consumed, cursor) := stream.advance cursor
        let (chars, cursor) := take_while predicate fuel cursor
        (consumed.toList ++ chars, cursor)
      else ([], cursor)

def is_horizontal_space (char : Char) : Bool := [' ', '\t', '\r', '\x0c', '\x0b'].contains char

/-- Consume non-newline whitespace. -/
def skip_horizontal_whitespace (cursor : S) : S :=
  skip_while stream is_horizontal_space (stream.remaining cursor) cursor

/-- Consume one POSIX AWK `# ...` comment without eating the newline. -/
def skip_comment (cursor : S) : S := skip_while stream (· != '\n') (stream.remaining cursor) cursor

/-- Update scanner context after producing one non-trivia token. -/
def finish_token (token : Token) (lexer : Lexer S) : Option Token × Lexer S :=
  (some token, { lexer with
    expect_operand :=
      if token.kind = .plus_plus ∨ token.kind = .minus_minus then lexer.expect_operand
      else OPERAND_CONTEXT_KINDS.contains token.kind })

/-- The token between a point and the cursor. -/
def token_from (start : SourcePoint) (kind : TokenKind) (text : Option Text) (lexer : Lexer S) :
    Option Token × Lexer S :=
  finish_token ⟨kind, ⟨start, stream.point lexer.cursor⟩, text⟩ lexer

/-- Scan a fixed two-character operator when one is present. -/
def scan_multi_char_operator (start : SourcePoint) (lexer : Lexer S) : Option (Option Token × Lexer S) := do
  let first ← stream.peek lexer.cursor 0
  let second ← stream.peek lexer.cursor 1
  let kind ← MULTI_CHAR_TOKEN_KINDS.lookup (first, second)
  let cursor := (stream.advance (stream.advance lexer.cursor).2).2
  some (token_from stream start kind none { lexer with cursor := cursor })

/-- Scan an identifier and reclassify it if it matches a keyword. -/
def scan_identifier_or_keyword (start : SourcePoint) (lexer : Lexer S) : Option Token × Lexer S :=
  let (text, cursor) := take_while stream (fun char => classes.isalnum char || char == '_')
    (stream.remaining lexer.cursor) lexer.cursor
  let kind := (KEYWORDS.lookup (String.ofList text)).getD .ident
  token_from stream start kind (if kind = .ident then some text else none) { lexer with cursor := cursor }

/-- The digits of a number, with at most one point among them. -/
def take_number (seen_decimal : Bool) : Nat → S → Text × S
  | 0, cursor => ([], cursor)
  | fuel + 1, cursor =>
    match stream.peek cursor 0 with
    | none => ([], cursor)
    | some char =>
      let is_point := !classes.isdigit char && char == '.' && !seen_decimal
      if classes.isdigit char || is_point then
        let (consumed, cursor) := stream.advance cursor
        let (chars, cursor) := take_number (seen_decimal || is_point) fuel cursor
        (consumed.toList ++ chars, cursor)
      else ([], cursor)

/-- Scan a simple integer or decimal literal. -/
def scan_number (start : SourcePoint) (lexer : Lexer S) : Option Token × Lexer S :=
  let (text, cursor) := take_number classes stream false (stream.remaining lexer.cursor) lexer.cursor
  token_from stream start .number (some text) { lexer with cursor := cursor }

/-- The rest of a string literal, and whether it is closed. -/
def take_string (escaped : Bool) : Nat → S → Text × Bool × S
  | 0, cursor => ([], false, cursor)
  | fuel + 1, cursor =>
    match stream.peek cursor 0 with
    | none => ([], false, cursor)
    | some char =>
      if char = '\n' ∧ ¬ escaped then ([], false, cursor)
      else
        let (consumed, cursor) := stream.advance cursor
        if ¬ escaped ∧ char = '"' then (consumed.toList, true, cursor)
        else
          let (chars, closed, cursor) := take_string (!escaped && char == '\\') fuel cursor
          (consumed.toList ++ chars, closed, cursor)

/-- Scan a double-quoted string literal without decoding escapes yet. -/
def scan_string_literal (start : SourcePoint) (lexer : Lexer S) : Except LexFailure (Option Token × Lexer S) :=
  let (quote, cursor) := stream.advance lexer.cursor
  let (chars, closed, cursor) := take_string stream false (stream.remaining cursor) cursor
  if closed then pure (token_from stream start .string (some (quote.toList ++ chars)) { lexer with cursor := cursor })
  else throw (.lex_error .unterminated_string ⟨start, stream.point cursor⟩)

/-- The rest of a regex literal, and whether it is closed. -/
def take_regex (escaped in_char_class : Bool) : Nat → S → Text × Bool × S
  | 0, cursor => ([], false, cursor)
  | fuel + 1, cursor =>
    match stream.peek cursor 0 with
    | none => ([], false, cursor)
    | some char =>
      if char = '\n' ∧ ¬ escaped then ([], false, cursor)
      else
        let (consumed, cursor) := stream.advance cursor
        if ¬ escaped ∧ ¬ in_char_class ∧ char = '/' then (consumed.toList, true, cursor)
        else
          let in_char_class :=
            if escaped then in_char_class
            else if char = '[' then true
            else if char = ']' then false
            else in_char_class
          let (chars, closed, cursor) := take_regex (!escaped && char == '\\') in_char_class fuel cursor
          (consumed.toList ++ chars, closed, cursor)

/-- Scan a raw `/.../` regex literal with basic escape/class awareness. -/
def scan_regex_literal (start : SourcePoint) (lexer : Lexer S) : Except LexFailure (Option Token × Lexer S) :=
  let (slash, cursor) := stream.advance lexer.cursor
  let (chars, closed, cursor) := take_regex stream false false (stream.remaining cursor) cursor
  if closed then pure (token_from stream start .regex (some (slash.toList ++ chars)) { lexer with cursor := cursor })
  else throw (.lex_error .unterminated_regex ⟨start, stream.point cursor⟩)

/-- Scan either a regex literal or a slash operator token. -/
def scan_slash_or_regex (start : SourcePoint) (lexer : Lexer S) : Except LexFailure (Option Token × Lexer S) :=
  if lexer.expect_operand then scan_regex_literal stream start lexer
  else
    let cursor := (stream.advance lexer.cursor).2
    if stream.peek lexer.cursor 1 = some '=' then
      pure (token_from stream start .slash_equal none { lexer with cursor := (stream.advance cursor).2 })
    else pure (token_from stream start .slash none { lexer with cursor := cursor })

/-- Scan one token, or return `None` after consuming ignored trivia. -/
def scan_token (lexer : Lexer S) : Except LexFailure (Option Token × Lexer S) :=
  let start := stream.point lexer.cursor
  let after := (stream.advance lexer.cursor).2
  match stream.peek lexer.cursor 0 with
  | none => pure (some ⟨.eof, ⟨start, start⟩, none⟩, lexer)
  | some char =>
    if is_horizontal_space char then
      pure (none, { lexer with cursor := skip_horizontal_whitespace stream lexer.cursor })
    else if char = '\\' ∧ stream.peek lexer.cursor 1 = some '\n' then
      pure (none, { lexer with cursor := (stream.advance after).2 })
    else if char = '\n' then pure (token_from stream start .newline none { lexer with cursor := after })
    else if char = '#' then pure (none, { lexer with cursor := skip_comment stream lexer.cursor })
    else if char = '/' then scan_slash_or_regex stream start lexer
    else
      match scan_multi_char_operator stream start lexer, PUNCTUATION_KINDS.lookup char with
      | some scanned, _ => pure scanned
      | none, some kind => pure (token_from stream start kind none { lexer with cursor := after })
      | none, none =>
        if char = '"' then scan_string_literal stream start lexer
        else if classes.isalpha char || char == '_' then pure (scan_identifier_or_keyword classes stream start lexer)
        else if classes.isdigit char then pure (scan_number classes stream start lexer)
        else throw (.lex_error (.unexpected_character char) ⟨start, stream.point after⟩)

/-- Scan the full token stream, always terminating with EOF. -/
def scan_tokens : Nat → Lexer S → Except LexFailure (List Token)
  | 0, _ => throw .unfinished
  | fuel + 1, lexer => do
    match ← scan_token classes stream lexer with
    | (none, lexer) => scan_tokens fuel lexer
    | (some token, lexer) =>
      if token.kind = .eof then pure [token]
      else return token :: (← scan_tokens fuel lexer)

/-- Every token takes a character, so one turn more than there are characters is enough. -/
def scan_stream (cursor : S) : Except LexFailure (List Token) :=
  scan_tokens classes stream (stream.remaining cursor + 1) ⟨cursor, true⟩

end Scan

end quawk
