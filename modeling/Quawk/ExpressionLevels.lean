import Quawk.OperatorPrecedence
import Quawk.ParserTotality

open TokenParser (Meets meets_bind run_bind run_bind_error left_assoc left_assoc_stop)

namespace quawk

/-- A failure of any kind. -/
def AnyFailure (_ : ParseFailure) : Prop := True

theorem anyFailure_message (message : String) : AnyFailure (.parse_error message) := trivial

theorem EofEnded.ready {tokens : List Token} (h : EofEnded tokens) : Ready AnyFailure tokens :=
  ⟨h, .inr ⟨trivial, trivial⟩⟩

theorem run_of_bind {α β : Type} {parser : Parser α} {next : α → Parser β} {tokens last : List Token} {result : β}
    (h : (parser >>= next) tokens = .ok (result, last)) :
    ∃ value rest, parser tokens = .ok (value, rest) ∧ next value rest = .ok (result, last) := by
  cases hrun : parser tokens with
  | error failure =>
    rw [run_bind_error hrun] at h
    cases h
  | ok outcome =>
    obtain ⟨value, rest⟩ := outcome
    exact ⟨value, rest, rfl, (run_bind hrun next).symm.trans h⟩

/-- A parser fails, or leaves less than these tokens and gives a value that is `beyond` another. -/
def GoesPast {α : Type} (parser : Parser α) (tokens after : List Token) (beyond : α → Prop) : Prop :=
  Meets parser tokens (fun value last => Ready AnyFailure last ∧ last.length < after.length ∧ beyond value) AnyFailure

theorem GoesPast.of_run {α : Type} {parser other : Parser α} {tokens later after : List Token} {beyond : α → Prop}
    (h : GoesPast other later after beyond) (hrun : parser tokens = other later) :
    GoesPast parser tokens after beyond := by
  unfold GoesPast Meets at *
  rwa [hrun]

theorem GoesPast.mono {α : Type} {parser : Parser α} {tokens after : List Token} {beyond beyond' : α → Prop}
    (h : GoesPast parser tokens after beyond) (himp : ∀ value, beyond value → beyond' value) :
    GoesPast parser tokens after beyond' :=
  Meets.mono h fun value _ ⟨hlast, hless, hbeyond⟩ => ⟨hlast, hless, himp value hbeyond⟩

/-- It does not leave these tokens. -/
theorem GoesPast.ne {α : Type} {parser : Parser α} {tokens after : List Token} {beyond : α → Prop}
    (h : GoesPast parser tokens after beyond) (value : α) : parser tokens ≠ .ok (value, after) := by
  intro hrun
  unfold GoesPast Meets at h
  rw [hrun] at h
  exact Nat.lt_irrefl _ h.2.1

/-- How often an expression was taken for the left operand of a larger one. -/
def left_depth : Expr → Nat
  | .binary left _ _ => left_depth left + 1
  | .conditional test _ _ => left_depth test + 1
  | .postfix_op operand _ => left_depth operand + 1
  | _ => 0

/-- What a level does behind its first operand: it goes on with a token of these kinds, and ends before the others. -/
structure LevelRest (bound : Nat) (kinds : TokenKind → Bool) (extend : Expr → Parser Expr) : Prop where
  stays : ∀ expression token rest, kinds token.kind = false →
    extend expression (token :: rest) = .ok (expression, token :: rest)
  goes : ∀ expression token rest, kinds token.kind = true → Ready AnyFailure (token :: rest) →
    (token :: rest).length ≤ bound →
    GoesPast (extend expression) (token :: rest) (token :: rest) fun value => left_depth expression < left_depth value

theorem LevelRest.keeps {bound : Nat} {kinds : TokenKind → Bool} {extend : Expr → Parser Expr}
    (h : LevelRest bound kinds extend) (expression : Expr) {tokens : List Token} (hready : Ready AnyFailure tokens)
    (hbound : tokens.length ≤ bound) :
    Meets (extend expression) tokens (fun value last => Ready AnyFailure last ∧ last.length ≤ tokens.length ∧
      left_depth expression ≤ left_depth value) AnyFailure := by
  obtain ⟨token, rest, rfl⟩ := hready.exists_cons
  cases hkind : kinds token.kind with
  | false =>
    unfold Meets
    rw [h.stays expression token rest hkind]
    exact ⟨hready, Nat.le_refl _, Nat.le_refl _⟩
  | true =>
    exact Meets.mono (h.goes expression token rest hkind hready hbound)
      fun _ _ ⟨hlast, hless, hdepth⟩ => ⟨hlast, hless.le, hdepth.le⟩

/-- A parser that reads `expression` and leaves `token :: rest`, unless the token is one of these kinds. -/
structure Stands (parser : Parser Expr) (tokens : List Token) (expression : Expr) (token : Token) (rest : List Token)
    (kinds : TokenKind → Bool) : Prop where
  stays : kinds token.kind = false → parser tokens = .ok (expression, token :: rest)
  goes : kinds token.kind = true →
    GoesPast parser tokens (token :: rest) fun value => left_depth expression < left_depth value

section Levels

variable {bound : Nat} {parser : Parser Expr} {tokens rest : List Token} {expression : Expr} {token : Token}
  {kinds more : TokenKind → Bool} {extend : Expr → Parser Expr}

theorem GoesPast.level {after : List Token} {depth : Nat}
    (h : GoesPast parser tokens after fun value => depth < left_depth value) (hextend : LevelRest bound more extend)
    (hbound : after.length ≤ bound) :
    GoesPast (parser >>= extend) tokens after fun value => depth < left_depth value := by
  unfold GoesPast at *
  rw [meets_bind]
  refine h.mono fun value last ⟨hlast, hless, hdepth⟩ => ?_
  exact (hextend.keeps value hlast (by omega)).mono
    fun _ final ⟨hfinal, hle, hdepth'⟩ => ⟨hfinal, by omega, by omega⟩

theorem Stands.level (h : Stands parser tokens expression token rest kinds) (hextend : LevelRest bound more extend)
    (hready : Ready AnyFailure (token :: rest)) (hbound : (token :: rest).length ≤ bound) :
    Stands (parser >>= extend) tokens expression token rest fun kind => kinds kind || more kind where
  stays hkind := by
    rw [Bool.or_eq_false_iff] at hkind
    rw [run_bind (h.stays hkind.1), hextend.stays expression token rest hkind.2]
  goes hkind := by
    cases hfirst : kinds token.kind with
    | true => exact (h.goes hfirst).level hextend hbound
    | false =>
      rw [hfirst, Bool.false_or] at hkind
      exact (hextend.goes expression token rest hkind hready hbound).of_run (run_bind (h.stays hfirst) extend)

/-- An operator that stands at a token of these kinds. -/
structure OperatorAt (kinds : TokenKind → Bool) (operator : Parser (Option BinaryOp)) : Prop where
  absent : ∀ token rest, kinds token.kind = false → operator (token :: rest) = .ok (none, token :: rest)
  present : ∀ token rest, kinds token.kind = true → Ready AnyFailure (token :: rest) →
    ∃ op later, operator (token :: rest) = .ok (some op, later) ∧ Ready AnyFailure later ∧
      later.length ≤ (token :: rest).length

theorem OperatorAt.meets {operator : Parser (Option BinaryOp)} (h : OperatorAt kinds operator)
    (hready : Ready AnyFailure tokens) :
    Meets operator tokens (fun op last => Ready AnyFailure last ∧ last.length ≤ tokens.length ∧
      (op = none → last = tokens)) AnyFailure := by
  obtain ⟨token, rest, rfl⟩ := hready.exists_cons
  unfold Meets
  cases hkind : kinds token.kind with
  | false =>
    rw [h.absent token rest hkind]
    exact ⟨hready, Nat.le_refl _, fun _ => rfl⟩
  | true =>
    obtain ⟨op, later, hrun, hlater, hle⟩ := h.present token rest hkind hready
    rw [hrun]
    exact ⟨hlater, hle, nofun⟩

theorem operatorAt_token (stop_kinds : List TokenKind) {op_from_token : TokenKind → Option BinaryOp}
    (heof : op_from_token .eof = none) :
    OperatorAt (fun kind => !stop_kinds.contains kind && (op_from_token kind).isSome)
      (operator_token stop_kinds op_from_token) where
  absent token rest hkind := by
    have hnone : (if stop_kinds.contains token.kind then none else op_from_token token.kind) = none := by
      cases hstop : stop_kinds.contains token.kind <;> cases hop : op_from_token token.kind <;> simp_all
    rw [operator_token, run_bind run_current, hnone]
    rfl
  present token rest hkind hready := by
    rw [Bool.and_eq_true, Bool.not_eq_true', Option.isSome_iff_exists] at hkind
    obtain ⟨hstop, op, hop⟩ := hkind
    have hne : token.kind ≠ .eof := fun hkind => by
      rw [hkind, heof] at hop
      cases hop
    refine ⟨op, rest, ?_, hready.tail hne, Nat.le_succ _⟩
    rw [operator_token, run_bind run_current, hstop, hop]
    exact run_bind (run_advance hne) _

theorem operatorAt_concat : OperatorAt is_expression_start concat_operator where
  absent token rest hkind := by
    rw [concat_operator, run_bind run_current, hkind]
    rfl
  present token rest hkind hready := by
    refine ⟨.concat, token :: rest, ?_, hready, Nat.le_refl _⟩
    rw [concat_operator, run_bind run_current, hkind]
    rfl

/-- The operators and operands of a level behind its first operand. -/
def chain_rest (operator : Parser (Option BinaryOp)) (operand : Parser Expr) (expression : Expr) : Parser Expr :=
  with_turns fun turns => left_assoc operator operand .binary .unfinished turns expression

theorem left_assoc_keeps {operator : Parser (Option BinaryOp)} {operand : Parser Expr} (hoperator : OperatorAt kinds operator)
    (hoperand : Takes AnyFailure (bound + 1) operand ReadsLiteral) (expression : Expr) (turns : Nat)
    (hready : Ready AnyFailure tokens) (hbound : tokens.length ≤ bound) :
    Meets (left_assoc operator operand .binary .unfinished turns expression) tokens
      (fun value last => Ready AnyFailure last ∧ last.length ≤ tokens.length ∧ left_depth expression ≤ left_depth value)
      AnyFailure := by
  induction turns generalizing expression tokens with
  | zero => exact trivial
  | succ turns ih =>
    unfold left_assoc
    rw [meets_bind]
    refine (hoperator.meets hready).mono fun op later hpassed => ?_
    obtain ⟨hlater, hle, hnone⟩ := hpassed
    cases op with
    | none => exact ⟨hlater, hle, Nat.le_refl _⟩
    | some op =>
      dsimp only
      rw [meets_bind]
      refine (hoperand later hlater (by omega)).mono fun right last htaken => ?_
      obtain ⟨hlast, hless, -⟩ := htaken
      refine (ih (.binary expression op right) hlast (by omega)).mono fun value final hkept => ?_
      obtain ⟨hfinal, hle', hdepth⟩ := hkept
      rw [left_depth] at hdepth
      exact ⟨hfinal, by omega, by omega⟩

/-- A turn of the loop goes past the tokens it starts at. -/
theorem left_assoc_goes {operator : Parser (Option BinaryOp)} {operand : Parser Expr} (hoperator : OperatorAt kinds operator)
    (hoperand : Takes AnyFailure (bound + 1) operand ReadsLiteral) (expression : Expr) (turns : Nat)
    (hkind : kinds token.kind = true) (hready : Ready AnyFailure (token :: rest)) (hbound : (token :: rest).length ≤ bound) :
    GoesPast (left_assoc operator operand .binary .unfinished (turns + 1) expression) (token :: rest) (token :: rest)
      fun value => left_depth expression < left_depth value := by
  obtain ⟨op, later, hrun, hlater, hle⟩ := hoperator.present token rest hkind hready
  have hturn : left_assoc operator operand .binary .unfinished (turns + 1) expression (token :: rest) =
      (operand >>= fun right => left_assoc operator operand .binary .unfinished turns
        (.binary expression op right)) later := by
    rw [left_assoc, run_bind hrun]
  refine GoesPast.of_run ?_ hturn
  unfold GoesPast
  rw [meets_bind]
  refine (hoperand later hlater (by omega)).mono fun right last htaken => ?_
  obtain ⟨hlast, hless, -⟩ := htaken
  refine (left_assoc_keeps hoperator hoperand _ _ hlast (by omega)).mono fun _ final hkept => ?_
  obtain ⟨hfinal, hle', hdepth⟩ := hkept
  rw [left_depth] at hdepth
  exact ⟨hfinal, by omega, by omega⟩

theorem chain_levelRest {operator : Parser (Option BinaryOp)} {operand : Parser Expr} (hoperator : OperatorAt kinds operator)
    (hoperand : Takes AnyFailure (bound + 1) operand ReadsLiteral) :
    LevelRest bound kinds (chain_rest operator operand) where
  stays expression token rest hkind := left_assoc_stop (hoperator.absent token rest hkind)
  goes expression token rest hkind hready hbound :=
    left_assoc_goes hoperator hoperand expression (token :: rest).length hkind hready hbound

/-- A level of one operator: the operand, or what is read behind the token of the operator. -/
def token_rest (kind : TokenKind) (parser : Expr → Parser Expr) (expression : Expr) : Parser Expr := do
  if ← check kind then
    let _ ← advance
    parser expression
  else return expression

theorem token_levelRest {kind : TokenKind} (hkind : kind ≠ .eof) {parser : Expr → Parser Expr}
    (h : ∀ expression, Passes AnyFailure bound (parser expression) fun value =>
      left_depth expression < left_depth value) :
    LevelRest bound (· == kind) (token_rest kind parser) where
  stays expression token rest hother := by
    rw [token_rest, run_bind (run_check kind), hother]
    rfl
  goes expression token rest hsame hready hbound := by
    have hne : token.kind ≠ .eof := (beq_iff_eq.mp hsame) ▸ hkind
    have hrun : token_rest kind parser expression (token :: rest) = parser expression rest := by
      rw [token_rest, run_bind (run_check kind), hsame]
      exact run_bind (run_advance hne) _
    refine GoesPast.of_run ?_ hrun
    rw [List.length_cons] at hbound
    refine Meets.mono (h expression rest (hready.tail hne) (by omega)) fun _ last ⟨hlast, hle, hdepth⟩ => ?_
    exact ⟨hlast, by rw [List.length_cons]; omega, hdepth⟩

end Levels

section Rests

variable (self : ExpressionCalls)

def postfix_rest (expression : Expr) : Parser Expr := do
  let token ← current
  match postfix_op_from_token token.kind with
  | none => return expression
  | some op =>
    let _ ← advance
    return .postfix_op expression op

def power_rest : Expr → Parser Expr :=
  token_rest .caret fun expression => do
    let right ← self.parse_power_expression
    return .binary expression .pow right

def in_rest : Expr → Parser Expr :=
  token_rest .in_kw fun expression => do
    let right ← parse_concat_expression self
    return .binary expression .in_op right

def conditional_rest : Expr → Parser Expr :=
  token_rest .question fun expression => do
    let if_true ← parse_expression self []
    let _ ← expect .colon
    let if_false ← self.parse_conditional_expression
    return .conditional expression if_true if_false

def assignment_rest (expression : Expr) : Parser Expr := do
  let token ← current
  match assignment_op_from_token token.kind with
  | none => return expression
  | some op =>
    let target ← assignment_target expression
    let _ ← advance
    let value ← self.parse_assignment_expression []
    return .assign target op value

end Rests

theorem postfix_levelRest (bound : Nat) :
    LevelRest bound (fun kind => (postfix_op_from_token kind).isSome) postfix_rest where
  stays expression token rest hkind := by
    rw [postfix_rest, run_bind run_current, Option.isSome_eq_false_iff.mp hkind |> Option.isNone_iff_eq_none.mp]
    rfl
  goes expression token rest hkind hready _ := by
    obtain ⟨op, hop⟩ := Option.isSome_iff_exists.mp hkind
    have hne : token.kind ≠ .eof := fun heof => by
      rw [heof] at hop
      cases hop
    have hrun : postfix_rest expression (token :: rest) = .ok (.postfix_op expression op, rest) := by
      rw [postfix_rest, run_bind run_current, hop]
      exact run_bind (run_advance hne) _
    unfold GoesPast Meets
    rw [hrun]
    exact ⟨hready.tail hne, Nat.lt_succ_self _, by simp [left_depth]⟩

section Outer

variable {bound : Nat} {self : ExpressionCalls} (hself : CallsTake AnyFailure bound self)

include hself

theorem power_levelRest : LevelRest bound (· == .caret) (power_rest self) :=
  token_levelRest (by decide) fun _ => hself.power.passes.bind fun _ _ =>
    .pure _ (Nat.lt_succ_self _)

theorem in_levelRest : LevelRest bound (· == .in_kw) (in_rest self) :=
  token_levelRest (by decide) fun _ =>
    ((takes_concat anyFailure_message hself).of_le (Nat.le_succ _)).passes.bind fun _ _ =>
      .pure _ (Nat.lt_succ_self _)

theorem conditional_levelRest : LevelRest bound (· == .question) (conditional_rest self) :=
  token_levelRest (by decide) fun _ =>
    (passes_expression hself []).bind fun _ _ => (passes_expect anyFailure_message (by decide)).bind fun _ _ =>
      hself.conditional.passes.bind fun _ _ => .pure _ (Nat.lt_succ_self _)

omit hself in
theorem assignment_stays {expression : Expr} {token : Token} {rest : List Token}
    (h : assignment_op_from_token token.kind = none) :
    assignment_rest self expression (token :: rest) = .ok (expression, token :: rest) := by
  rw [assignment_rest, run_bind run_current, h]
  rfl

omit hself in
/-- A target is no larger expression, and no assignment. -/
theorem assignment_target_ok {expression : Expr} {target : LValue} (h : assignment_target expression = .ok target) :
    left_depth expression = 0 ∧ ∀ target' op value, expression ≠ .assign target' op value := by
  cases expression with
  | name | array_index | field_at | field => exact ⟨rfl, nofun⟩
  | _ => cases h

/-- What an assignment makes of its left side, and of nothing else. -/
theorem assignment_goes (expression : Expr) {tokens : List Token} (hready : Ready AnyFailure tokens)
    (hbound : tokens.length ≤ bound) :
    Meets (assignment_rest self expression) tokens (fun value last => Ready AnyFailure last ∧
      (value = expression ∧ last = tokens ∧ (∀ token ∈ tokens.head?, assignment_op_from_token token.kind = none) ∨
        last.length < tokens.length ∧ left_depth expression = 0 ∧ value ≠ expression)) AnyFailure := by
  obtain ⟨token, rest, rfl⟩ := hready.exists_cons
  unfold assignment_rest
  rw [meets_bind, meets_current]
  cases hop : assignment_op_from_token token.kind with
  | none => exact ⟨hready, .inl ⟨rfl, rfl, fun _ hmem => Option.some.inj hmem ▸ hop⟩⟩
  | some op =>
    have hne : token.kind ≠ .eof := fun heof => by
      rw [heof] at hop
      cases hop
    dsimp only
    rw [meets_bind]
    cases htarget : assignment_target expression with
    | error failure => exact trivial
    | ok target =>
      obtain ⟨hdepth, hassign⟩ := assignment_target_ok htarget
      change Meets (advance >>= _) (token :: rest) _ _
      rw [meets_bind, meets_advance hne, meets_bind]
      rw [List.length_cons] at hbound
      refine (hself.assignment [] rest (hready.tail hne) (by omega)).mono fun value last ⟨hlast, hless, _⟩ => ?_
      exact ⟨hlast, .inr ⟨hless.trans (Nat.lt_succ_self _), hdepth, fun heq => hassign _ _ _ heq.symm⟩⟩

end Outer

/-- The kinds of the operators behind an operand, but for those of assignments. -/
def operator_follows (stop_kinds : List TokenKind) (kind : TokenKind) : Bool :=
  (postfix_op_from_token kind).isSome || kind == .caret || (multiplicative_op_from_token kind).isSome ||
    (additive_op_from_token kind).isSome || is_expression_start kind || kind == .in_kw ||
    (match_op_from_token kind).isSome || !stop_kinds.contains kind && (comparison_op_from_token kind).isSome ||
    (logical_and_from_token kind).isSome || (logical_or_from_token kind).isSome || kind == .question

/-- The kinds of the tokens with which an expression goes on behind an operand. -/
def continues (stop_kinds : List TokenKind) (kind : TokenKind) : Bool :=
  operator_follows stop_kinds kind || (assignment_op_from_token kind).isSome

section Operand

variable {depth : Nat} {tokens rest : List Token} {expression : Expr} {token : Token}

/-- An operand that is a primary has no sign before it. -/
theorem unary_of_primary (self : ExpressionCalls)
    (h : parse_primary_expression self tokens = .ok (expression, token :: rest)) :
    parse_unary_expression self tokens = parse_postfix_expression self tokens := by
  cases tokens with
  | nil => rfl
  | cons first inner =>
    unfold parse_unary_expression
    rw [run_bind run_current]
    cases hop : unary_op_from_token first.kind with
    | none => rfl
    | some op =>
      exfalso
      unfold parse_primary_expression at h
      rw [run_bind run_current] at h
      cases hkind : first.kind <;> rw [hkind] at h hop <;> cases hop <;> cases h

/-- The conditional expression that starts with a primary. -/
theorem conditional_stands (stop_kinds : List TokenKind) (hended : EofEnded tokens) (hlength : tokens.length ≤ depth + 1)
    (h : parse_primary_expression (expression_calls depth) tokens = .ok (expression, token :: rest)) :
    (Ready AnyFailure (token :: rest) ∧ (token :: rest).length ≤ depth) ∧
    Stands (parse_conditional_expression (expression_calls depth) stop_kinds) tokens expression token rest
      (operator_follows stop_kinds) := by
  have hself : CallsTake AnyFailure depth (expression_calls depth) := expression_calls_take anyFailure_message depth
  have hprimary := takes_primary anyFailure_message hself tokens hended.ready hlength
  unfold Meets at hprimary
  rw [h] at hprimary
  obtain ⟨hready, hless, _⟩ := hprimary
  have hbound : (token :: rest).length ≤ depth := by omega
  refine ⟨⟨hready, hbound⟩, ?_⟩
  have hfirst : Stands (parse_primary_expression (expression_calls depth)) tokens expression token rest fun _ => false :=
    ⟨fun _ => h, nofun⟩
  have hunary : Stands (parse_unary_expression (expression_calls depth)) tokens expression token rest
      fun kind => (postfix_op_from_token kind).isSome := by
    have hincrement := hfirst.level (postfix_levelRest depth) hready hbound
    have heq := unary_of_primary (expression_calls depth) h
    exact ⟨fun hkind => heq.trans (hincrement.stays hkind), fun hkind => (hincrement.goes hkind).of_run heq⟩
  have hpower := hunary.level (power_levelRest hself) hready hbound
  have hmultiplicative := hpower.level (chain_levelRest (operatorAt_token [] (by rfl : multiplicative_op_from_token .eof = none))
    (takes_power anyFailure_message hself)) hready hbound
  have hadditive := hmultiplicative.level (chain_levelRest (operatorAt_token [] (by rfl : additive_op_from_token .eof = none))
    (takes_multiplicative anyFailure_message hself)) hready hbound
  have hconcat := hadditive.level (chain_levelRest operatorAt_concat (takes_additive anyFailure_message hself))
    hready hbound
  have hin := hconcat.level (in_levelRest hself) hready hbound
  have hmatch := hin.level (chain_levelRest (operatorAt_token [] (by rfl : match_op_from_token .eof = none))
    (takes_in anyFailure_message hself)) hready hbound
  have hcomparison := hmatch.level
    (chain_levelRest (operatorAt_token stop_kinds (by rfl : comparison_op_from_token .eof = none))
      (takes_match anyFailure_message hself)) hready hbound
  have hand := hcomparison.level (chain_levelRest (operatorAt_token [] (by rfl : logical_and_from_token .eof = none))
    (takes_comparison anyFailure_message hself stop_kinds)) hready hbound
  have hor := hand.level (chain_levelRest (operatorAt_token [] (by rfl : logical_or_from_token .eof = none))
    (takes_logical_and anyFailure_message hself stop_kinds)) hready hbound
  exact hor.level (conditional_levelRest hself) hready hbound

/-- Behind a primary the expression ends, unless it goes on with the next token. -/
theorem expression_stays {stop_kinds : List TokenKind} (hended : EofEnded tokens) (hlength : tokens.length ≤ depth + 1)
    (h : parse_primary_expression (expression_calls depth) tokens = .ok (expression, token :: rest))
    (hkind : continues stop_kinds token.kind = false) :
    parse_assignment_expression (expression_calls depth) stop_kinds tokens = .ok (expression, token :: rest) := by
  rw [continues, Bool.or_eq_false_iff, Option.isSome_eq_false_iff, Option.isNone_iff_eq_none] at hkind
  obtain ⟨_, hconditional⟩ := conditional_stands stop_kinds hended hlength h
  have hrun : parse_assignment_expression (expression_calls depth) stop_kinds tokens =
      assignment_rest (expression_calls depth) expression (token :: rest) := run_bind (hconditional.stays hkind.1) _
  rw [hrun, assignment_stays hkind.2]

/-- If it goes on, it is read as another expression. -/
theorem expression_goes {stop_kinds : List TokenKind} (hended : EofEnded tokens) (hlength : tokens.length ≤ depth + 1)
    (h : parse_primary_expression (expression_calls depth) tokens = .ok (expression, token :: rest))
    (hkind : continues stop_kinds token.kind = true) :
    GoesPast (parse_assignment_expression (expression_calls depth) stop_kinds) tokens (token :: rest)
      (· ≠ expression) := by
  have hself : CallsTake AnyFailure depth (expression_calls depth) := expression_calls_take anyFailure_message depth
  obtain ⟨⟨hready, hbound⟩, hconditional⟩ := conditional_stands stop_kinds hended hlength h
  cases hoperator : operator_follows stop_kinds token.kind with
  | true =>
    change Meets (parse_conditional_expression _ _ >>= assignment_rest _) _ _ _
    rw [meets_bind]
    refine Meets.mono (hconditional.goes hoperator) fun inner last ⟨hlast, hless, hdepth⟩ => ?_
    refine (assignment_goes hself inner hlast (by omega)).mono fun value final ⟨hfinal, hvalue⟩ => ?_
    obtain ⟨rfl, rfl, _⟩ | ⟨hless', hzero, _⟩ := hvalue
    · exact ⟨hfinal, hless, fun heq => by rw [heq] at hdepth; omega⟩
    · omega
  | false =>
    have hrun : parse_assignment_expression (expression_calls depth) stop_kinds tokens =
        assignment_rest (expression_calls depth) expression (token :: rest) := run_bind (hconditional.stays hoperator) _
    refine GoesPast.of_run ?_ hrun
    rw [continues, hoperator, Bool.false_or] at hkind
    refine (assignment_goes hself expression hready hbound).mono fun value final ⟨hfinal, hvalue⟩ => ?_
    obtain ⟨_, _, hnone⟩ | ⟨hless, _, hne⟩ := hvalue
    · rw [hnone token rfl] at hkind
      cases hkind
    · exact ⟨hfinal, hless, hne⟩

end Operand

end quawk
