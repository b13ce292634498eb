import Quawk.Parser

open TokenParser (Meets meets_bind meets_pure meets_throw meets_map meets_ite)

namespace quawk

/-- The tokens of the scanner: they end in the only `EOF` among them. -/
inductive EofEnded : List Token → Prop where
  | eof {token : Token} (hkind : token.kind = .eof) : EofEnded [token]
  | cons {token : Token} {rest : List Token} (hkind : token.kind ≠ .eof) (hrest : EofEnded rest) :
    EofEnded (token :: rest)

/-- A numeral, in parentheses or not, with the tokens after it. -/
inductive NumeralAt (raw_text : Text) : List Token → List Token → Prop where
  | number {token : Token} {rest : List Token} (hkind : token.kind = .number)
      (htext : token.text.getD [] = raw_text) : NumeralAt raw_text (token :: rest) rest
  | parens {opening closing : Token} {tokens rest : List Token} (hopening : opening.kind = .lparen)
      (hclosing : closing.kind = .rparen) (h : NumeralAt raw_text tokens (closing :: rest)) :
      NumeralAt raw_text (opening :: tokens) rest

/-- The next token is no `++` and no `--`. -/
def NoPostfix (tokens : List Token) : Prop :=
  ∀ token ∈ tokens.head?, postfix_op_from_token token.kind = none

/-- `$` with a whole number as its index, in parentheses or not, with the tokens after it. -/
inductive FieldAt (index : Nat) : List Token → List Token → Prop where
  | field {dollar : Token} {raw_text : Text} {tokens rest : List Token} (hkind : dollar.kind = .dollar)
      (hpoint : '.' ∉ raw_text) (hindex : python_int raw_text = some index) (h : NumeralAt raw_text tokens rest)
      (hincrement : NoPostfix rest) : FieldAt index (dollar :: tokens) rest
  | parens {opening closing : Token} {tokens rest : List Token} (hopening : opening.kind = .lparen)
      (hclosing : closing.kind = .rparen) (h : FieldAt index tokens (closing :: rest)) :
      FieldAt index (opening :: tokens) rest

/-- The numbers that the parser may convert at these tokens have a value. -/
structure ConvertibleAt (tokens : List Token) : Prop where
  number : ∀ token rest, tokens = token :: rest → token.kind = .number →
    (python_float (token.text.getD [])).isSome
  index : ∀ dollar inner rest raw_text, tokens = dollar :: inner → dollar.kind = .dollar →
    NumeralAt raw_text inner rest → NoPostfix rest → '.' ∉ raw_text → (python_int raw_text).isSome
  target : ∀ index rest token, FieldAt index tokens (token :: rest) →
    (assignment_op_from_token token.kind).isSome → index < FLOAT_OVERFLOW

def Convertible (tokens : List Token) : Prop := ∀ suffix, suffix <:+ tokens → ConvertibleAt suffix

theorem Convertible.tail {token : Token} {rest : List Token} (h : Convertible (token :: rest)) : Convertible rest :=
  fun suffix hsuffix => h suffix (hsuffix.trans (List.suffix_cons token rest))

theorem EofEnded.exists_cons {tokens : List Token} (h : EofEnded tokens) : ∃ token rest, tokens = token :: rest := by
  cases h with
  | eof hkind => exact ⟨_, _, rfl⟩
  | cons hkind hrest => exact ⟨_, _, rfl⟩

-- What a parse may fail with.
variable {allowed : ParseFailure → Prop}

/-- Tokens that a parser can be run on: a number without a value is met only where its exceptions are allowed. -/
structure Ready (allowed : ParseFailure → Prop) (tokens : List Token) : Prop where
  ended : EofEnded tokens
  convertible : Convertible tokens ∨ allowed .value_error ∧ allowed .overflow_error

namespace Ready

variable {token : Token} {tokens rest : List Token}

theorem exists_cons (h : Ready allowed tokens) : ∃ token rest, tokens = token :: rest := h.ended.exists_cons

theorem tail (h : Ready allowed (token :: rest)) (hkind : token.kind ≠ .eof) : Ready allowed rest := by
  refine ⟨?_, h.convertible.imp Convertible.tail id⟩
  cases h.ended with
  | eof heof => exact absurd heof hkind
  | cons _ hrest => exact hrest

end Ready

section Steps

variable {α β : Type} {token : Token} {tokens rest : List Token} {fails : ParseFailure → Prop}

@[simp] theorem meets_current {post : Token → List Token → Prop} :
    Meets current (token :: rest) post fails ↔ post token (token :: rest) := Iff.rfl

@[simp] theorem meets_check (kind : TokenKind) {post : Bool → List Token → Prop} :
    Meets (check kind) (token :: rest) post fails ↔ post (token.kind == kind) (token :: rest) := Iff.rfl

@[simp] theorem meets_peek_kind {post : TokenKind → List Token → Prop} :
    Meets peek_kind (token :: rest) post fails ↔ post ((rest.head?.getD token).kind) (token :: rest) := by
  cases rest <;> rfl

theorem meets_advance (hkind : token.kind ≠ .eof) {post : Token → List Token → Prop} :
    Meets advance (token :: rest) post fails ↔ post token rest := by
  unfold advance
  rw [meets_bind]
  simp [hkind]

@[simp] theorem meets_parse_error (message : String) {post : α → List Token → Prop} :
    Meets (parse_error message : Parser α) tokens post fails ↔ fails (.parse_error message) := Iff.rfl

theorem meets_expect (kind : TokenKind) {post : Token → List Token → Prop}
    (hpost : token.kind = kind → post token rest)
    (hfails : fails (.parse_error s!"expected {kind.name}, got {token.kind.name}")) :
    Meets (expect kind) (token :: rest) post fails := by
  unfold expect
  rw [meets_bind, meets_current]
  split_ifs with h
  · exact hpost h
  · exact hfails

end Steps

/-- What a parser that takes tokens reads, on at most `bound` of them. -/
def Takes {α : Type} (allowed : ParseFailure → Prop) (bound : Nat) (parser : Parser α)
    (reads : List Token → α → List Token → Prop) : Prop :=
  ∀ tokens, Ready allowed tokens → tokens.length ≤ bound →
    Meets parser tokens (fun value rest => Ready allowed rest ∧ rest.length < tokens.length ∧ reads tokens value rest)
      allowed

/-- A parser that takes tokens or none. -/
def Passes {α : Type} (allowed : ParseFailure → Prop) (bound : Nat) (parser : Parser α) (gives : α → Prop) : Prop :=
  ∀ tokens, Ready allowed tokens → tokens.length ≤ bound →
    Meets parser tokens (fun value rest => Ready allowed rest ∧ rest.length ≤ tokens.length ∧ gives value) allowed

/-- Of some values nothing more is known. -/
def Anything {α : Type} (_ : α) : Prop := True

section Rules

variable {α β : Type} {bound less : Nat} {parser : Parser α} {next : α → Parser β}
  {reads : List Token → α → List Token → Prop} {gives : α → Prop} {gives' : β → Prop}

theorem Takes.of_le (h : Takes allowed bound parser reads) (hle : less ≤ bound) : Takes allowed less parser reads :=
  fun tokens hready hlength => h tokens hready (hlength.trans hle)

theorem Takes.of_zero : Takes allowed 0 parser reads := fun tokens hready hlength => by
  obtain ⟨token, rest, rfl⟩ := hready.exists_cons
  cases hlength

theorem Passes.of_zero : Passes allowed 0 parser gives := fun tokens hready hlength => by
  obtain ⟨token, rest, rfl⟩ := hready.exists_cons
  cases hlength

theorem Takes.weaken {reads' : List Token → α → List Token → Prop} (h : Takes allowed bound parser reads)
    (himp : ∀ tokens value rest, reads tokens value rest → reads' tokens value rest) :
    Takes allowed bound parser reads' := fun tokens hready hlength =>
  (h tokens hready hlength).mono fun value rest ⟨hrest, hless, hreads⟩ => ⟨hrest, hless, himp tokens value rest hreads⟩

theorem Takes.passes (h : Takes allowed bound parser reads) : Passes allowed bound parser Anything :=
  fun tokens hready hlength => (h tokens hready hlength).mono fun _ _ ⟨hrest, hless, _⟩ => ⟨hrest, hless.le, trivial⟩

theorem Takes.giving (h : Takes allowed bound parser fun _ value _ => gives value) :
    Passes allowed bound parser gives :=
  fun tokens hready hlength => (h tokens hready hlength).mono fun _ _ ⟨hrest, hless, hgives⟩ => ⟨hrest, hless.le, hgives⟩

/-- After a token the parsers run on fewer tokens. -/
theorem Takes.bind (h : Takes allowed (bound + 1) parser reads)
    (hnext : ∀ value, Passes allowed bound (next value) gives') :
    Takes allowed (bound + 1) (parser >>= next) fun _ value _ => gives' value := fun tokens hready hlength => by
  rw [meets_bind]
  refine (h tokens hready hlength).mono fun value rest ⟨hrest, hless, _⟩ => ?_
  refine (hnext value rest hrest (by omega)).mono fun result last ⟨hlast, hle, hgives⟩ => ?_
  exact ⟨hlast, by omega, hgives⟩

theorem Takes.map (h : Takes allowed bound parser reads) (f : α → β) :
    Takes allowed bound (f <$> parser) fun _ _ _ => True := fun tokens hready hlength => by
  rw [meets_map]
  exact (h tokens hready hlength).mono fun _ _ ⟨hrest, hless, _⟩ => ⟨hrest, hless, trivial⟩

theorem Passes.of_le (h : Passes allowed bound parser gives) (hle : less ≤ bound) :
    Passes allowed less parser gives := fun tokens hready hlength => h tokens hready (hlength.trans hle)

theorem Passes.anything (h : Passes allowed bound parser gives) : Passes allowed bound parser Anything :=
  fun tokens hready hlength => (h tokens hready hlength).mono fun _ _ ⟨hrest, hle, _⟩ => ⟨hrest, hle, trivial⟩

theorem Passes.pure (value : α) (h : gives value) : Passes allowed bound (pure value) gives :=
  fun _ hready _ => ⟨hready, Nat.le_refl _, h⟩

theorem Passes.bind (h : Passes allowed bound parser gives)
    (hnext : ∀ value, gives value → Passes allowed bound (next value) gives') :
    Passes allowed bound (parser >>= next) gives' := fun tokens hready hlength => by
  rw [meets_bind]
  refine (h tokens hready hlength).mono fun value rest ⟨hrest, hle, hgives⟩ => ?_
  refine (hnext value hgives rest hrest (by omega)).mono fun result last ⟨hlast, hle', hgives'⟩ => ?_
  exact ⟨hlast, by omega, hgives'⟩

theorem Passes.map (h : Passes allowed bound parser gives) (f : α → β) :
    Passes allowed bound (f <$> parser) Anything := fun tokens hready hlength => by
  rw [meets_map]
  exact (h tokens hready hlength).mono fun _ _ ⟨hrest, hle, _⟩ => ⟨hrest, hle, trivial⟩

theorem Takes.ite {condition : Prop} [Decidable condition] {other : Parser α} (h : Takes allowed bound parser reads)
    (h' : Takes allowed bound other reads) : Takes allowed bound (if condition then parser else other) reads := by
  split_ifs
  · exact h
  · exact h'

theorem Passes.ite {condition : Prop} [Decidable condition] {other : Parser α}
    (h : Passes allowed bound parser gives) (h' : Passes allowed bound other gives) :
    Passes allowed bound (if condition then parser else other) gives := by
  split_ifs
  · exact h
  · exact h'

/-- A question about the current token takes nothing. -/
theorem Passes.of_current {question : Parser α} {answer : Token → α}
    (hquestion : question = do let token ← current; return answer token)
    (hnext : ∀ value, Passes allowed bound (next value) gives') : Passes allowed bound (question >>= next) gives' := by
  intro tokens hready hlength
  obtain ⟨token, rest, rfl⟩ := hready.exists_cons
  rw [hquestion, meets_bind, meets_bind, meets_current]
  exact hnext _ _ hready hlength

theorem Passes.current {next : Token → Parser β} (hnext : ∀ token, Passes allowed bound (next token) gives') :
    Passes allowed bound (quawk.current >>= next) gives' := by
  intro tokens hready hlength
  obtain ⟨token, rest, rfl⟩ := hready.exists_cons
  rw [meets_bind, meets_current]
  exact hnext token _ hready hlength

theorem Takes.current {next : Token → Parser β} {reads : List Token → β → List Token → Prop}
    (hnext : ∀ token, Takes allowed bound (next token) reads) :
    Takes allowed bound (quawk.current >>= next) reads := by
  intro tokens hready hlength
  obtain ⟨token, rest, rfl⟩ := hready.exists_cons
  rw [meets_bind, meets_current]
  exact hnext token _ hready hlength

theorem Takes.check (kind : TokenKind) {next : Bool → Parser β} {reads : List Token → β → List Token → Prop}
    (hnext : ∀ present, Takes allowed bound (next present) reads) :
    Takes allowed bound (quawk.check kind >>= next) reads := by
  intro tokens hready hlength
  obtain ⟨token, rest, rfl⟩ := hready.exists_cons
  rw [meets_bind, meets_check]
  exact hnext _ _ hready hlength

theorem Passes.check (kind : TokenKind) {next : Bool → Parser β}
    (hnext : ∀ present, Passes allowed bound (next present) gives') :
    Passes allowed bound (check kind >>= next) gives' :=
  .of_current rfl hnext

/-- What follows a token that is there, or what stands in its place. -/
theorem Passes.check_advance {kind : TokenKind} (hkind : kind ≠ .eof) {parser other : Parser α}
    (hpresent : Passes allowed bound parser gives) (habsent : Passes allowed bound other gives) :
    Passes allowed bound
      (quawk.check kind >>= fun present => if present then advance >>= fun _ => parser else other) gives := by
  intro tokens hready hlength
  obtain ⟨token, rest, rfl⟩ := hready.exists_cons
  rw [meets_bind, meets_check]
  split_ifs with h
  · rw [beq_iff_eq] at h
    rw [meets_bind, meets_advance (h ▸ hkind)]
    rw [List.length_cons] at hlength
    refine (hpresent rest (hready.tail (h ▸ hkind)) (by omega)).mono fun value last ⟨hlast, hle, hgives⟩ => ?_
    exact ⟨hlast, by rw [List.length_cons]; omega, hgives⟩
  · exact habsent _ hready hlength

variable (hmessage : ∀ message, allowed (.parse_error message))
include hmessage

theorem takes_expect {kind : TokenKind} (hkind : kind ≠ .eof) :
    Takes allowed bound (expect kind) fun _ _ _ => True := fun tokens hready _ => by
  obtain ⟨token, rest, rfl⟩ := hready.exists_cons
  exact meets_expect kind (fun h => ⟨hready.tail (h ▸ hkind), Nat.lt_succ_self _, trivial⟩) (hmessage _)

theorem passes_expect {kind : TokenKind} (hkind : kind ≠ .eof) : Passes allowed bound (expect kind) Anything :=
  (takes_expect hmessage hkind).passes

end Rules

section Loops

variable {α : Type} {bound : Nat} {reads : List Token → α → List Token → Prop}

theorem meets_turns {separator : Parser Bool} {item : Parser α} (hseparator : Passes allowed bound separator Anything)
    (hitem : Takes allowed bound item reads) {tokens : List Token} (hready : Ready allowed tokens)
    (hlength : tokens.length ≤ bound) {turns : Nat} (hturns : tokens.length < turns) :
    Meets (TokenParser.separated separator item .unfinished turns) tokens
      (fun values rest => Ready allowed rest ∧ rest.length ≤ tokens.length ∧ Anything values) allowed := by
  have hloop : Meets (TokenParser.separated separator item .unfinished turns) tokens
      (fun _ rest => (Ready allowed rest ∧ rest.length ≤ bound) ∧ rest.length ≤ tokens.length) allowed :=
    .separated
      (fun tokens ⟨hready, hlength⟩ => (hseparator tokens hready hlength).mono
        fun _ _ ⟨hrest, hle, _⟩ => ⟨⟨hrest, by omega⟩, hle⟩)
      (fun tokens ⟨hready, hlength⟩ => (hitem tokens hready hlength).mono
        fun _ _ ⟨hrest, hless, _⟩ => ⟨⟨hrest, by omega⟩, hless⟩)
      ⟨hready, hlength⟩ hturns
  exact hloop.mono fun _ _ ⟨⟨hrest, _⟩, hle⟩ => ⟨hrest, hle, trivial⟩

theorem passes_separated {separator : Parser Bool} {item : Parser α} (hseparator : Passes allowed bound separator Anything)
    (hitem : Takes allowed bound item reads) :
    Passes allowed bound (with_turns (TokenParser.separated separator item .unfinished)) Anything := by
  intro tokens hready hlength
  unfold with_turns
  rw [meets_bind, TokenParser.meets_get]
  exact meets_turns hseparator hitem hready hlength (Nat.lt_succ_self _)

theorem passes_comma : Passes allowed bound comma Anything :=
  .check_advance (by decide) (.pure _ trivial) (.pure _ trivial)

theorem takes_comma_separated {item : Parser α} (hitem : Takes allowed (bound + 1) item reads) :
    Takes allowed (bound + 1) (comma_separated item) fun _ values _ => values ≠ [] :=
  hitem.bind fun _ => (passes_separated passes_comma (hitem.of_le (Nat.le_succ _))).bind fun _ _ =>
    .pure _ (List.cons_ne_nil _ _)

theorem EofEnded.dropWhile {tokens : List Token} (h : EofEnded tokens) : EofEnded (tokens.dropWhile is_separator) := by
  induction h with
  | eof hkind =>
    rw [List.dropWhile_cons_of_neg (by simp [is_separator, hkind])]
    exact .eof hkind
  | cons hkind hrest ih =>
    rw [List.dropWhile_cons]
    split_ifs
    · exact ih
    · exact .cons hkind hrest

theorem meets_consume_separators {tokens : List Token} (h : EofEnded tokens) {fails : ParseFailure → Prop} :
    Meets consume_separators tokens (fun _ rest => rest = tokens.dropWhile is_separator) fails := by
  unfold consume_separators
  rw [meets_bind, TokenParser.meets_get]
  dsimp only
  rw [meets_bind, TokenParser.meets_set]
  obtain ⟨token, rest, heq⟩ := h.dropWhile.exists_cons
  rw [heq]
  exact rfl

theorem passes_consume_separators : Passes allowed bound consume_separators Anything := fun tokens hready _ =>
  (meets_consume_separators hready.ended).mono fun _ rest hrest => by
    have hsuffix : tokens.dropWhile is_separator <:+ tokens := List.dropWhile_suffix is_separator
    subst hrest
    refine ⟨⟨hready.ended.dropWhile, ?_⟩, hsuffix.length_le, trivial⟩
    exact hready.convertible.imp (fun h suffix hinner => h suffix (hinner.trans hsuffix)) id

end Loops

/-- Where a literal number and a field under a literal index come from. -/
def ReadsLiteral (tokens : List Token) : Expr → List Token → Prop
  | .numeric_literal raw_text, rest => NumeralAt raw_text tokens rest
  | .field_at index, rest => FieldAt index tokens rest
  | _, _ => True

/-- A literal number that is a whole operand has no increment behind it. -/
def ReadsOperand (tokens : List Token) : Expr → List Token → Prop
  | .numeric_literal raw_text, rest => NumeralAt raw_text tokens rest ∧ NoPostfix rest
  | .field_at index, rest => FieldAt index tokens rest
  | _, _ => True

theorem ReadsOperand.literal {tokens rest : List Token} {expression : Expr} (h : ReadsOperand tokens expression rest) :
    ReadsLiteral tokens expression rest := by
  cases expression with
  | numeric_literal raw_text => exact h.1
  | _ => exact h

/-- An expression that no conversion depends on. -/
def IsCompound : Expr → Prop
  | .numeric_literal _ | .field_at _ => False
  | _ => True

theorem IsCompound.reads {expression : Expr} (h : IsCompound expression) (tokens rest : List Token) :
    ReadsOperand tokens expression rest := by
  cases expression with
  | numeric_literal raw_text => exact h.elim
  | field_at index => exact h.elim
  | _ => trivial

/-- What the rest of a level makes of its first operand: the operand itself, or a compound of it. -/
def Extends (allowed : ParseFailure → Prop) (bound : Nat) (extend : Expr → Parser Expr) : Prop :=
  ∀ expression tokens, Ready allowed tokens → tokens.length ≤ bound →
    Meets (extend expression) tokens (fun value rest => Ready allowed rest ∧ rest.length ≤ tokens.length ∧
      (value = expression ∧ rest = tokens ∨ IsCompound value)) allowed

section Levels

variable {bound : Nat} {operand : Parser Expr} {extend : Expr → Parser Expr}

theorem Takes.level (h : Takes allowed (bound + 1) operand ReadsLiteral) (hextend : Extends allowed bound extend) :
    Takes allowed (bound + 1) (operand >>= extend) ReadsLiteral := fun tokens hready hlength => by
  rw [meets_bind]
  refine (h tokens hready hlength).mono fun expression rest ⟨hrest, hless, hreads⟩ => ?_
  refine (hextend expression rest hrest (by omega)).mono fun value last ⟨hlast, hle, hvalue⟩ => ?_
  refine ⟨hlast, by omega, ?_⟩
  obtain ⟨rfl, rfl⟩ | hcompound := hvalue
  · exact hreads
  · exact (hcompound.reads _ _).literal

/-- A level of one operator: the operand, or what is read after the operator's token. -/
theorem Extends.check_advance {kind : TokenKind} (hkind : kind ≠ .eof) {parser : Expr → Parser Expr}
    (h : ∀ expression, Passes allowed bound (parser expression) IsCompound) :
    Extends allowed bound fun expression =>
      check kind >>= fun present => if present then advance >>= fun _ => parser expression else pure expression := by
  intro expression tokens hready hlength
  obtain ⟨token, rest, rfl⟩ := hready.exists_cons
  dsimp only
  rw [meets_bind, meets_check]
  split_ifs with hpresent
  · rw [beq_iff_eq] at hpresent
    rw [meets_bind, meets_advance (hpresent ▸ hkind)]
    rw [List.length_cons] at hlength
    refine (h expression rest (hready.tail (hpresent ▸ hkind)) (by omega)).mono fun value last ⟨hlast, hle, hvalue⟩ => ?_
    exact ⟨hlast, by rw [List.length_cons]; omega, .inr hvalue⟩
  · exact ⟨hready, Nat.le_refl _, .inl ⟨rfl, rfl⟩⟩

/-- The operator of a level, which is no `EOF`. -/
def IsOperator (allowed : ParseFailure → Prop) (bound : Nat) (operator : Parser (Option BinaryOp)) : Prop :=
  ∀ tokens, Ready allowed tokens → tokens.length ≤ bound →
    Meets operator tokens (fun op rest => Ready allowed rest ∧ rest.length ≤ tokens.length ∧
      (op = none → rest = tokens)) allowed

theorem operator_token_isOperator (stop_kinds : List TokenKind) {op_from_token : TokenKind → Option BinaryOp}
    (heof : op_from_token .eof = none) : IsOperator allowed bound (operator_token stop_kinds op_from_token) := by
  intro tokens hready hlength
  obtain ⟨token, rest, rfl⟩ := hready.exists_cons
  unfold operator_token
  rw [meets_bind, meets_current]
  cases hop : if stop_kinds.contains token.kind then none else op_from_token token.kind with
  | none => exact ⟨hready, Nat.le_refl _, fun _ => rfl⟩
  | some op =>
    have hkind : token.kind ≠ .eof := fun hkind => by
      rw [hkind, heof, ite_self] at hop
      cases hop
    dsimp only
    rw [meets_bind, meets_advance hkind]
    exact ⟨hready.tail hkind, Nat.le_succ _, fun hnone => by cases hnone⟩

theorem concat_isOperator : IsOperator allowed bound concat_operator := by
  intro tokens hready hlength
  obtain ⟨token, rest, rfl⟩ := hready.exists_cons
  exact ⟨hready, Nat.le_refl _, fun _ => rfl⟩

theorem takes_binary_level {operator : Parser (Option BinaryOp)} (hoperator : IsOperator allowed bound operator)
    (h : Takes allowed (bound + 1) operand ReadsLiteral) :
    Takes allowed (bound + 1) (binary_level operator operand) ReadsLiteral := by
  refine h.level fun expression tokens hready hlength => ?_
  unfold with_turns
  rw [meets_bind, TokenParser.meets_get]
  have hloop : Meets (TokenParser.left_assoc operator operand .binary .unfinished (tokens.length + 1) expression) tokens
      (fun value rest => (Ready allowed rest ∧ rest.length ≤ bound) ∧ rest.length ≤ tokens.length ∧
        (value = expression ∧ rest = tokens ∨ ∃ inner op right, value = .binary inner op right)) allowed :=
    .left_assoc
      (fun tokens ⟨hready, hlength⟩ => (hoperator tokens hready hlength).mono
        fun _ _ ⟨hrest, hle, hnone⟩ => ⟨⟨hrest, by omega⟩, hle, hnone⟩)
      (fun tokens ⟨hready, hlength⟩ => (h tokens hready (by omega)).mono
        fun _ _ ⟨hrest, hless, _⟩ => ⟨⟨hrest, by omega⟩, hless⟩)
      expression ⟨hready, hlength⟩ (Nat.lt_succ_self _)
  refine hloop.mono fun value rest ⟨⟨hrest, _⟩, hle, hvalue⟩ => ⟨hrest, hle, hvalue.imp_right ?_⟩
  rintro ⟨inner, op, right, rfl⟩
  trivial

end Levels

theorem decode_escape_message (escaped : Char) {failure : ParseFailure} (h : decode_escape escaped = .error failure) :
    ∃ message, failure = .parse_error message := by
  unfold decode_escape at h
  split at h
  all_goals first
    | exact ⟨_, (Except.error.inj h).symm⟩
    | cases h

theorem decode_rest_error {char : Char} {rest : Text} {failure : ParseFailure}
    (h : (do return char :: (← decode_characters rest)) = Except.error failure) :
    decode_characters rest = .error failure := by
  cases hrest : decode_characters rest with
  | error failure' => rw [hrest] at h; exact h
  | ok chars => rw [hrest] at h; cases h

theorem decode_characters_message (text : Text) {failure : ParseFailure}
    (h : decode_characters text = .error failure) : ∃ message, failure = .parse_error message := by
  fun_induction decode_characters text generalizing failure with
  | case1 => cases h
  | case2 => exact ⟨_, (Except.error.inj h).symm⟩
  | case3 escaped rest ih =>
    cases hescape : decode_escape escaped with
    | error failure' =>
      rw [hescape] at h
      obtain rfl := Except.error.inj h
      exact decode_escape_message escaped hescape
    | ok char =>
      rw [hescape] at h
      exact ih (decode_rest_error h)
  | case4 char rest hlast hescape ih => exact ih (decode_rest_error h)

/-- The calls back to an outer level, on at most `bound` tokens. -/
structure CallsTake (allowed : ParseFailure → Prop) (bound : Nat) (calls : ExpressionCalls) : Prop where
  assignment : ∀ stop_kinds, Takes allowed bound (calls.parse_assignment_expression stop_kinds) ReadsLiteral
  conditional : Takes allowed bound calls.parse_conditional_expression ReadsLiteral
  power : Takes allowed bound calls.parse_power_expression ReadsLiteral
  unary : Takes allowed bound calls.parse_unary_expression ReadsOperand

theorem CallsTake.of_le {bound less : Nat} {calls : ExpressionCalls} (h : CallsTake allowed bound calls)
    (hle : less ≤ bound) : CallsTake allowed less calls :=
  ⟨fun stop_kinds => (h.assignment stop_kinds).of_le hle, h.conditional.of_le hle, h.power.of_le hle, h.unary.of_le hle⟩

section Expressions

variable {bound : Nat} {self : ExpressionCalls} (hmessage : ∀ message, allowed (.parse_error message))
  (hself : CallsTake allowed bound self)

include hself in
theorem passes_expression (stop_kinds : List TokenKind) :
    Passes allowed bound (parse_expression self stop_kinds) Anything := (hself.assignment stop_kinds).passes

include hself in
theorem passes_expressions (stop_kinds : List TokenKind) :
    Passes allowed bound (parse_expression_list self stop_kinds) (· ≠ []) := by
  cases bound with
  | zero => exact .of_zero
  | succ bound => exact (takes_comma_separated (hself.assignment stop_kinds)).giving

include hmessage hself

theorem takes_parenthesized : Takes allowed (bound + 1) (parse_parenthesized_expression self) ReadsLiteral := by
  intro tokens hready hlength
  obtain ⟨opening, inner, rfl⟩ := hready.exists_cons
  unfold parse_parenthesized_expression
  rw [meets_bind]
  refine meets_expect .lparen (fun hopening => ?_) (hmessage _)
  rw [meets_bind]
  have hinner := hready.tail (by rw [hopening]; decide)
  refine (hself.assignment [] inner hinner (Nat.le_of_succ_le_succ hlength)).mono
    fun expression rest ⟨hrest, hless, hreads⟩ => ?_
  obtain ⟨closing, last, rfl⟩ := hrest.exists_cons
  rw [meets_bind]
  refine meets_expect .rparen (fun hclosing => ?_) (hmessage _)
  refine ⟨hrest.tail (by rw [hclosing]; decide), by rw [List.length_cons] at hless ⊢; omega, ?_⟩
  cases expression with
  | numeric_literal raw_text => exact .parens hopening hclosing hreads
  | field_at index => exact .parens hopening hclosing hreads
  | _ => trivial

theorem takes_subscripts :
    Takes allowed (bound + 1) (parse_array_subscripts self) fun _ subscripts _ => subscripts ≠ [] :=
  (takes_expect hmessage (by decide)).bind fun _ => (passes_expressions hself []).bind fun _ hsubscripts =>
    (passes_expect hmessage (by decide)).bind fun _ _ => .pure _ hsubscripts

theorem passes_subscripts : Passes allowed bound (parse_array_subscripts self) (· ≠ []) := by
  cases bound with
  | zero => exact .of_zero
  | succ bound =>
    exact (takes_subscripts hmessage (hself.of_le (Nat.le_succ _))).giving

theorem takes_lvalue : Takes allowed (bound + 1) (parse_lvalue self) fun _ _ _ => True := by
  intro tokens hready hlength
  obtain ⟨token, rest, rfl⟩ := hready.exists_cons
  have hless := Nat.le_of_succ_le_succ hlength
  unfold parse_lvalue
  rw [meets_bind, meets_current]
  split
  · next hkind =>
    have hrest := hready.tail (by rw [hkind]; decide)
    have hname (name_token : Token) : Passes allowed bound
        (check .lbracket >>= fun present =>
          if present then do return .array (token_name name_token) (← parse_array_subscripts self)
          else pure (LValue.name (token_name name_token))) Anything :=
      .check _ fun _ => .ite ((passes_subscripts hmessage hself).bind fun _ _ => .pure _ trivial) (.pure _ trivial)
    rw [meets_bind, meets_advance (by rw [hkind]; decide)]
    exact (hname token rest hrest hless).mono fun _ _ ⟨hlast, hle, _⟩ => ⟨hlast, Nat.lt_succ_of_le hle, trivial⟩
  · next hkind =>
    have hrest := hready.tail (by rw [hkind]; decide)
    rw [meets_bind, meets_advance (by rw [hkind]; decide), meets_bind]
    exact (hself.assignment [] rest hrest hless).mono fun _ _ ⟨hlast, hle, _⟩ =>
      ⟨hlast, hle.trans (Nat.lt_succ_self _), trivial⟩
  · exact hmessage _

theorem takes_array_index : Takes allowed (bound + 1) (parse_array_index_expression self) fun _ value _ => IsCompound value :=
  (takes_expect hmessage (by decide)).bind fun _ => (passes_subscripts hmessage hself).bind fun subscripts hsubscripts => by
    cases subscripts with
    | nil => exact absurd rfl hsubscripts
    | cons index extra_indexes => exact .pure _ trivial

theorem takes_call : Takes allowed (bound + 1) (parse_call_expression self) fun _ value _ => IsCompound value := by
  refine (takes_expect hmessage (by decide)).bind fun name_token => ?_
  refine (passes_expect hmessage (by decide)).bind fun _ _ => .check _ fun _ => ?_
  have hargs (args : List Expr) :
      Passes allowed bound (do let _ ← expect .rparen; return .call (token_name name_token) args) IsCompound :=
    (passes_expect hmessage (by decide)).bind fun _ _ => .pure _ trivial
  have hnone : Passes allowed bound (pure [] : Parser (List Expr)) Anything := .pure _ trivial
  exact .ite (hnone.bind fun args _ => hargs args) ((passes_expressions hself []).bind fun args _ => hargs args)

theorem passes_lvalue : Passes allowed bound (parse_lvalue self) Anything := by
  cases bound with
  | zero => exact .of_zero
  | succ bound =>
    exact (takes_lvalue hmessage (hself.of_le (Nat.le_succ _))).passes

omit hmessage in
theorem passes_getline_source : Passes allowed bound (parse_getline_source self) Anything :=
  .check_advance (by decide) ((passes_expression hself []).bind fun _ _ => .pure _ trivial) (.pure _ trivial)

theorem takes_getline : Takes allowed (bound + 1) (parse_getline_expression self) fun _ value _ => IsCompound value := by
  have hsource (target : Option LValue) :
      Passes allowed bound (do return .getline target (← parse_getline_source self)) IsCompound :=
    (passes_getline_source hself).bind fun _ _ => .pure _ trivial
  have hnone : Passes allowed bound (pure none : Parser (Option LValue)) Anything := .pure _ trivial
  refine (takes_expect hmessage (by decide)).bind fun _ => .check _ fun _ => .ite (hsource none) ?_
  refine .current fun token => .ite ?_ (hnone.bind fun target _ => hsource target)
  exact ((passes_lvalue hmessage hself).map some).bind fun target _ => hsource target

omit hmessage hself in
/-- What the index of a field becomes. -/
theorem field_reads {dollar : Token} {tokens rest : List Token} {index : Expr} (hkind : dollar.kind = .dollar)
    (hready : Ready allowed (dollar :: tokens)) (hrest : Ready allowed rest) (hless : rest.length < tokens.length)
    (h : ReadsOperand tokens index rest) :
    Meets (liftM (field_expression index) : Parser Expr) rest
      (fun value last => Ready allowed last ∧ last.length < (dollar :: tokens).length ∧
        ReadsLiteral (dollar :: tokens) value last) allowed := by
  have hlength : rest.length < (dollar :: tokens).length := hless.trans (Nat.lt_succ_self _)
  cases index with
  | numeric_literal raw_text =>
    obtain ⟨hnumeral, hincrement⟩ := h
    unfold field_expression
    dsimp only
    split_ifs with hpoint
    · exact ⟨hrest, hlength, trivial⟩
    · cases hindex : python_int raw_text with
      | some index => exact ⟨hrest, hlength, .field hkind hpoint hindex hnumeral hincrement⟩
      | none =>
        obtain hconvertible | ⟨hvalue, _⟩ := hready.convertible
        · have hsome := (hconvertible _ (List.suffix_refl _)).index _ _ _ _ rfl hkind hnumeral hincrement hpoint
          rw [hindex] at hsome
          cases hsome
        · exact hvalue
  | _ => exact ⟨hrest, hlength, trivial⟩

theorem takes_primary : Takes allowed (bound + 1) (parse_primary_expression self) ReadsLiteral := by
  intro tokens hready hlength
  obtain ⟨token, rest, rfl⟩ := hready.exists_cons
  have hless := Nat.le_of_succ_le_succ hlength
  unfold parse_primary_expression
  rw [meets_bind, meets_current]
  split
  · next hkind =>
    have hrest := hready.tail (by rw [hkind]; decide)
    rw [meets_bind, meets_advance (by rw [hkind]; decide), meets_bind]
    unfold decode_string_literal
    cases hdecoded : decode_characters ((token.text.getD []).tail.dropLast) with
    | ok value => exact ⟨hrest, Nat.lt_succ_self _, trivial⟩
    | error failure =>
      obtain ⟨message, rfl⟩ := decode_characters_message _ hdecoded
      exact hmessage message
  · next hkind =>
    have hrest := hready.tail (by rw [hkind]; decide)
    rw [meets_bind, meets_advance (by rw [hkind]; decide)]
    dsimp only
    cases hvalue : python_float (token.text.getD []) with
    | some value => exact ⟨hrest, Nat.lt_succ_self _, .number hkind rfl⟩
    | none =>
      obtain hconvertible | ⟨hvalue, _⟩ := hready.convertible
      · have hsome := (hconvertible _ (List.suffix_refl _)).number _ _ rfl hkind
        rw [hvalue] at hsome
        cases hsome
      · exact hvalue
  · next hkind =>
    have hrest := hready.tail (by rw [hkind]; decide)
    rw [meets_bind, meets_advance (by rw [hkind]; decide)]
    exact ⟨hrest, Nat.lt_succ_self _, trivial⟩
  · next hkind =>
    have hname : Meets (do
        let name_token ← advance
        if token.text = some "length".toList then return .call "length" []
        else return .name (token_name name_token)) (token :: rest)
        (fun value last => Ready allowed last ∧ last.length < (token :: rest).length ∧ IsCompound value) allowed := by
      rw [meets_bind, meets_advance (by rw [hkind]; decide)]
      split_ifs <;> exact ⟨hready.tail (by rw [hkind]; decide), Nat.lt_succ_self _, trivial⟩
    have hcompound : Meets (if token.text = some "getline".toList then parse_getline_expression self else do
        let next_kind ← peek_kind
        if next_kind = .lparen then parse_call_expression self
        else if next_kind = .lbracket then parse_array_index_expression self
        else
          let name_token ← advance
          if token.text = some "length".toList then return .call "length" []
          else return .name (token_name name_token)) (token :: rest)
        (fun value last => Ready allowed last ∧ last.length < (token :: rest).length ∧ IsCompound value) allowed := by
      by_cases hgetline : token.text = some "getline".toList
      · rw [if_pos hgetline]
        exact takes_getline hmessage hself _ hready hlength
      · rw [if_neg hgetline, meets_bind, meets_peek_kind]
        by_cases hcall : (rest.head?.getD token).kind = .lparen
        · rw [if_pos hcall]
          exact takes_call hmessage hself _ hready hlength
        · rw [if_neg hcall, meets_ite]
          split
          · exact takes_array_index hmessage hself _ hready hlength
          · exact hname
    exact hcompound.mono fun value last ⟨hlast, hless', hvalue⟩ => ⟨hlast, hless', (hvalue.reads _ _).literal⟩
  · next hkind =>
    have hrest := hready.tail (by rw [hkind]; decide)
    rw [meets_bind, meets_advance (by rw [hkind]; decide), meets_bind]
    exact (hself.unary rest hrest hless).mono fun index last ⟨hlast, hless', hreads⟩ =>
      field_reads hkind hready hlast hless' hreads
  · exact takes_parenthesized hmessage hself _ hready hlength
  · exact hmessage _

theorem takes_postfix : Takes allowed (bound + 1) (parse_postfix_expression self) ReadsOperand := by
  intro tokens hready hlength
  unfold parse_postfix_expression
  rw [meets_bind]
  refine (takes_primary hmessage hself tokens hready hlength).mono fun expression rest ⟨hrest, hless, hreads⟩ => ?_
  obtain ⟨token, last, rfl⟩ := hrest.exists_cons
  rw [meets_bind, meets_current]
  cases hop : postfix_op_from_token token.kind with
  | none =>
    refine ⟨hrest, hless, ?_⟩
    cases expression with
    | numeric_literal raw_text => exact ⟨hreads, fun next hnext => by cases hnext; exact hop⟩
    | _ => exact hreads
  | some op =>
    have hkind : token.kind ≠ .eof := fun hkind => by rw [hkind] at hop; cases hop
    dsimp only
    rw [meets_bind, meets_advance hkind]
    rw [List.length_cons] at hless
    exact ⟨hrest.tail hkind, by omega, trivial⟩

theorem takes_unary : Takes allowed (bound + 1) (parse_unary_expression self) ReadsOperand := by
  intro tokens hready hlength
  obtain ⟨token, rest, rfl⟩ := hready.exists_cons
  unfold parse_unary_expression
  rw [meets_bind, meets_current]
  cases hop : unary_op_from_token token.kind with
  | none => exact takes_postfix hmessage hself _ hready hlength
  | some op =>
    have hkind : token.kind ≠ .eof := fun hkind => by rw [hkind] at hop; cases hop
    dsimp only
    rw [meets_bind, meets_advance hkind, meets_bind]
    refine (hself.unary rest (hready.tail hkind) (Nat.le_of_succ_le_succ hlength)).mono fun operand last ⟨hlast, hless, _⟩ => ?_
    exact ⟨hlast, hless.trans (Nat.lt_succ_self _), trivial⟩

theorem takes_power : Takes allowed (bound + 1) (parse_power_expression self) ReadsLiteral :=
  ((takes_unary hmessage hself).weaken fun _ _ _ => ReadsOperand.literal).level <|
    .check_advance (by decide) fun _ => hself.power.passes.bind fun _ _ => .pure _ trivial

theorem takes_multiplicative : Takes allowed (bound + 1) (parse_multiplicative_expression self) ReadsLiteral :=
  takes_binary_level (operator_token_isOperator [] rfl) (takes_power hmessage hself)

theorem takes_additive : Takes allowed (bound + 1) (parse_additive_expression self) ReadsLiteral :=
  takes_binary_level (operator_token_isOperator [] rfl) (takes_multiplicative hmessage hself)

theorem takes_concat : Takes allowed (bound + 1) (parse_concat_expression self) ReadsLiteral :=
  takes_binary_level concat_isOperator (takes_additive hmessage hself)

theorem takes_in : Takes allowed (bound + 1) (parse_in_expression self) ReadsLiteral :=
  (takes_concat hmessage hself).level <| .check_advance (by decide) fun _ =>
    ((takes_concat hmessage hself).of_le (Nat.le_succ _)).passes.bind fun _ _ => .pure _ trivial

theorem takes_match : Takes allowed (bound + 1) (parse_match_expression self) ReadsLiteral :=
  takes_binary_level (operator_token_isOperator [] rfl) (takes_in hmessage hself)

theorem takes_comparison (stop_kinds : List TokenKind) :
    Takes allowed (bound + 1) (parse_comparison_expression self stop_kinds) ReadsLiteral :=
  takes_binary_level (operator_token_isOperator stop_kinds rfl) (takes_match hmessage hself)

theorem takes_logical_and (stop_kinds : List TokenKind) :
    Takes allowed (bound + 1) (parse_logical_and_expression self stop_kinds) ReadsLiteral :=
  takes_binary_level (operator_token_isOperator [] rfl) (takes_comparison hmessage hself stop_kinds)

theorem takes_logical_or (stop_kinds : List TokenKind) :
    Takes allowed (bound + 1) (parse_logical_or_expression self stop_kinds) ReadsLiteral :=
  takes_binary_level (operator_token_isOperator [] rfl) (takes_logical_and hmessage hself stop_kinds)

theorem takes_conditional (stop_kinds : List TokenKind) :
    Takes allowed (bound + 1) (parse_conditional_expression self stop_kinds) ReadsLiteral :=
  (takes_logical_or hmessage hself stop_kinds).level <| .check_advance (by decide) fun _ =>
    (passes_expression hself []).bind fun _ _ => (passes_expect hmessage (by decide)).bind fun _ _ =>
      hself.conditional.passes.bind fun _ _ => .pure _ trivial

omit hmessage hself in
theorem assignment_target_meets {expression : Expr} {tokens : List Token} {token : Token} {rest : List Token}
    (hmessage : ∀ message, allowed (.parse_error message)) (hready : Ready allowed tokens)
    (hreads : ReadsLiteral tokens expression (token :: rest)) (hop : (assignment_op_from_token token.kind).isSome) :
    Meets (liftM (assignment_target expression) : Parser LValue) (token :: rest) (fun _ last => last = token :: rest)
      allowed := by
  unfold assignment_target
  split
  · next index target htarget =>
    obtain hindex | hindex := Nat.lt_or_ge index FLOAT_OVERFLOW
    · rw [if_pos hindex]
      exact rfl
    · rw [if_neg (Nat.not_lt_of_ge hindex)]
      obtain hconvertible | ⟨_, hoverflow⟩ := hready.convertible
      · exact absurd ((hconvertible _ (List.suffix_refl _)).target index rest token hreads hop)
          (Nat.not_lt_of_ge hindex)
      · exact hoverflow
  · rfl
  · exact hmessage _

theorem takes_assignment (stop_kinds : List TokenKind) :
    Takes allowed (bound + 1) (parse_assignment_expression self stop_kinds) ReadsLiteral := by
  intro tokens hready hlength
  unfold parse_assignment_expression
  rw [meets_bind]
  refine (takes_conditional hmessage hself stop_kinds tokens hready hlength).mono
    fun expression rest ⟨hrest, hless, hreads⟩ => ?_
  obtain ⟨token, last, rfl⟩ := hrest.exists_cons
  rw [meets_bind, meets_current]
  cases hop : assignment_op_from_token token.kind with
  | none => exact ⟨hrest, hless, hreads⟩
  | some op =>
    have hkind : token.kind ≠ .eof := fun hkind => by rw [hkind] at hop; cases hop
    dsimp only
    rw [meets_bind]
    refine (assignment_target_meets hmessage hready hreads (by rw [hop]; rfl)).mono fun target _ hsame => ?_
    subst hsame
    rw [List.length_cons] at hless
    rw [meets_bind, meets_advance hkind, meets_bind]
    refine (hself.assignment [] last (hrest.tail hkind) (by omega)).mono fun value _ ⟨hlast, hless', _⟩ => ?_
    exact ⟨hlast, by omega, trivial⟩

end Expressions

/-- As many levels as there are tokens are enough. -/
theorem expression_calls_take (hmessage : ∀ message, allowed (.parse_error message)) (depth : Nat) :
    CallsTake allowed depth (expression_calls depth) := by
  induction depth with
  | zero => exact ⟨fun _ => .of_zero, .of_zero, .of_zero, .of_zero⟩
  | succ depth ih =>
    exact ⟨takes_assignment hmessage ih, takes_conditional hmessage ih [], takes_power hmessage ih,
      takes_unary hmessage ih⟩

end quawk
