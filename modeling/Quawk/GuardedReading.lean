import Quawk.GetlineOperands

open TokenParser (Meets meets_bind run_bind run_bind_error left_assoc left_assoc_stop separated separated_stop)

namespace quawk

/-- An expression, and whether it ends in a part that the parser reads without the kinds that stop it. -/
abbrev GuardedExpr := Expr × Bool

/-- The calls that go back to an outer level, for expressions that a redirect ends everywhere outside of brackets. -/
structure GuardedCalls where
  assignment : Parser GuardedExpr
  conditional : Parser GuardedExpr
  power : Parser GuardedExpr
  unary : Parser GuardedExpr

section Guarded

-- The calls for what stands in brackets, and those for what does not.
variable (self : ExpressionCalls) (guarded : GuardedCalls)

/-- The target of a `getline`; the index of a field is an expression of the same argument. -/
def guarded_getline_target : Parser (Option LValue × Bool) := do
  let token ← current
  if token.kind = .dollar then
    let _ ← advance
    let (index, _) ← guarded.assignment
    return (some (.field index), true)
  else if token.kind = .ident then return (some (← parse_lvalue self), false)
  else return (none, false)

def guarded_getline_source (target : Option LValue × Bool) : Parser GuardedExpr := do
  if ← check .less then
    let _ ← advance
    let (source, _) ← guarded.assignment
    return (.getline target.1 (some source), true)
  else return (.getline target.1 none, target.2)

def guarded_getline_expression : Parser GuardedExpr := do
  let _ ← expect .ident
  guarded_getline_target self guarded >>= guarded_getline_source guarded

def guarded_primary_expression : Parser GuardedExpr := do
  let token ← current
  if token.kind = .ident ∧ token.text = some "getline".toList then guarded_getline_expression self guarded
  else if token.kind = .dollar then
    let _ ← advance
    let (index, unguarded) ← guarded.unary
    return (← field_expression index, unguarded)
  else return (← parse_primary_expression self, false)

def guarded_postfix_rest (operand : GuardedExpr) : Parser GuardedExpr := do
  let token ← current
  match postfix_op_from_token token.kind with
  | none => return operand
  | some op =>
    let _ ← advance
    return (.postfix_op operand.1 op, false)

def guarded_unary_expression : Parser GuardedExpr := do
  let token ← current
  match unary_op_from_token token.kind with
  | some op =>
    let _ ← advance
    let (operand, unguarded) ← guarded.unary
    return (.unary op operand, unguarded)
  | none => guarded_primary_expression self guarded >>= guarded_postfix_rest

/-- A level of one operator. -/
def guarded_token_rest (kind : TokenKind) (parser : Expr → Parser GuardedExpr) (operand : GuardedExpr) :
    Parser GuardedExpr := do
  if ← check kind then
    let _ ← advance
    parser operand.1
  else return operand

def guarded_power_expression : Parser GuardedExpr :=
  guarded_unary_expression self guarded >>= guarded_token_rest .caret fun left => do
    let (right, unguarded) ← guarded.power
    return (.binary left .pow right, unguarded)

/-- The operators and operands of a level behind its first operand. -/
def guarded_chain_rest (operator : Parser (Option BinaryOp)) (operand : Parser GuardedExpr) (first : GuardedExpr) :
    Parser GuardedExpr :=
  with_turns fun turns =>
    left_assoc operator operand (fun left op right => (.binary left.1 op right.1, right.2)) .unfinished turns first

def guarded_multiplicative_expression : Parser GuardedExpr :=
  guarded_power_expression self guarded >>=
    guarded_chain_rest (operator_token [] multiplicative_op_from_token) (guarded_power_expression self guarded)

def guarded_additive_expression : Parser GuardedExpr :=
  guarded_multiplicative_expression self guarded >>=
    guarded_chain_rest (operator_token [] additive_op_from_token) (guarded_multiplicative_expression self guarded)

def guarded_concat_expression : Parser GuardedExpr :=
  guarded_additive_expression self guarded >>=
    guarded_chain_rest concat_operator (guarded_additive_expression self guarded)

def guarded_in_expression : Parser GuardedExpr :=
  guarded_concat_expression self guarded >>= guarded_token_rest .in_kw fun left => do
    let (right, unguarded) ← guarded_concat_expression self guarded
    return (.binary left .in_op right, unguarded)

def guarded_match_expression : Parser GuardedExpr :=
  guarded_in_expression self guarded >>=
    guarded_chain_rest (operator_token [] match_op_from_token) (guarded_in_expression self guarded)

def guarded_comparison_expression : Parser GuardedExpr :=
  guarded_match_expression self guarded >>=
    guarded_chain_rest (operator_token PRINT_REDIRECT_START_KINDS comparison_op_from_token)
      (guarded_match_expression self guarded)

def guarded_logical_and_expression : Parser GuardedExpr :=
  guarded_comparison_expression self guarded >>=
    guarded_chain_rest (operator_token [] logical_and_from_token) (guarded_comparison_expression self guarded)

def guarded_logical_or_expression : Parser GuardedExpr :=
  guarded_logical_and_expression self guarded >>=
    guarded_chain_rest (operator_token [] logical_or_from_token) (guarded_logical_and_expression self guarded)

def guarded_conditional_expression : Parser GuardedExpr :=
  guarded_logical_or_expression self guarded >>= guarded_token_rest .question fun test => do
    let (if_true, _) ← guarded.assignment
    let _ ← expect .colon
    let (if_false, _) ← guarded.conditional
    return (.conditional test if_true if_false, true)

def guarded_assignment_rest (operand : GuardedExpr) : Parser GuardedExpr := do
  let token ← current
  match assignment_op_from_token token.kind with
  | none => return operand
  | some op =>
    let target ← assignment_target operand.1
    let _ ← advance
    let (value, _) ← guarded.assignment
    return (.assign target op value, true)

def guarded_assignment_expression : Parser GuardedExpr :=
  guarded_conditional_expression self guarded >>= guarded_assignment_rest guarded

end Guarded

def guarded_calls : Nat → GuardedCalls
  | 0 => ⟨throw .unfinished, throw .unfinished, throw .unfinished, throw .unfinished⟩
  | depth + 1 =>
    let self := expression_calls depth
    let guarded := guarded_calls depth
    ⟨guarded_assignment_expression self guarded, guarded_conditional_expression self guarded,
      guarded_power_expression self guarded, guarded_unary_expression self guarded⟩

/-- A `>` stands at the front, and the expression before it was read without the kinds that stop it. -/
def swallowed (unguarded : Bool) : List Token → Bool
  | [] => false
  | token :: _ => unguarded && token.kind == .greater

@[simp] theorem swallowed_false (tokens : List Token) : swallowed false tokens = false := by
  cases tokens <;> rfl

/-- A parser reads the expression, unless it goes past a `>`. -/
structure Outcome {α : Type} (unstopped : Bool) (parser : Parser α) (tokens : List Token) (read : α × Bool)
    (rest : List Token) : Prop where
  same : swallowed (unstopped || read.2) rest = false → parser tokens = .ok (read.1, rest)
  past : swallowed (unstopped || read.2) rest = true → GoesPast parser tokens rest fun _ => True

/-- On these tokens a parser follows the guarded one, which takes some of them. -/
def Follow (unstopped : Bool) (bound : Nat) (guarded : Parser GuardedExpr) (parser : Parser Expr) : Prop :=
  ∀ tokens read rest, EofEnded tokens → tokens.length ≤ bound → guarded tokens = .ok (read, rest) →
    EofEnded rest ∧ rest.length < tokens.length ∧ Outcome unstopped parser tokens read rest

/-- What comes behind an operand that was read alike. -/
structure RestFollows (inner outer : Bool) (bound : Nat) (guarded : GuardedExpr → Parser GuardedExpr)
    (extend : Expr → Parser Expr) : Prop where
  ends : ∀ read token rest, token.kind = .greater → guarded read (token :: rest) = .ok (read, token :: rest)
  follows : ∀ read tokens result rest, EofEnded tokens → tokens.length ≤ bound →
    swallowed (inner || read.2) tokens = false → guarded read tokens = .ok (result, rest) →
    EofEnded rest ∧ rest.length ≤ tokens.length ∧ Outcome outer (extend read.1) tokens result rest
  keeps : ∀ expression tokens, Ready AnyFailure tokens → tokens.length ≤ bound →
    Meets (extend expression) tokens (fun _ last => Ready AnyFailure last ∧ last.length ≤ tokens.length) AnyFailure

theorem exists_greater_of_swallowed {unguarded : Bool} {tokens : List Token} (h : swallowed unguarded tokens = true) :
    ∃ token rest, tokens = token :: rest ∧ token.kind = .greater ∧ unguarded = true := by
  cases tokens with
  | nil => cases h
  | cons token rest =>
    rw [swallowed, Bool.and_eq_true, beq_iff_eq] at h
    exact ⟨token, rest, rfl, h.2, h.1⟩

theorem swallowed_of_le {less more : Bool} (hle : less = true → more = true) {tokens : List Token}
    (h : swallowed less tokens = true) : swallowed more tokens = true := by
  obtain ⟨token, rest, rfl, hkind, hless⟩ := exists_greater_of_swallowed h
  rw [swallowed, hle hless, hkind]
  rfl

theorem GoesPast.keeps {parser : Parser Expr} {tokens after : List Token} {bound : Nat} {extend : Expr → Parser Expr}
    (h : GoesPast parser tokens after fun _ => True)
    (hkeeps : ∀ expression tokens, Ready AnyFailure tokens → tokens.length ≤ bound →
      Meets (extend expression) tokens (fun _ last => Ready AnyFailure last ∧ last.length ≤ tokens.length) AnyFailure)
    (hbound : after.length ≤ bound) : GoesPast (parser >>= extend) tokens after fun _ => True := by
  unfold GoesPast at *
  rw [meets_bind]
  refine h.mono fun value last ⟨hlast, hless, _⟩ => ?_
  exact (hkeeps value last hlast (by omega)).mono fun _ final ⟨hfinal, hle⟩ => ⟨hfinal, by omega, trivial⟩

section Levels

variable {inner outer : Bool} {bound : Nat} {guarded : Parser GuardedExpr} {parser : Parser Expr}
  {guarded_extend : GuardedExpr → Parser GuardedExpr} {extend : Expr → Parser Expr}

theorem Follow.level (h : Follow inner (bound + 1) guarded parser) (hle : inner = true → outer = true)
    (hextend : RestFollows inner outer bound guarded_extend extend) :
    Follow outer (bound + 1) (guarded >>= guarded_extend) (parser >>= extend) := by
  intro tokens result last hended hbound hrun
  obtain ⟨read, rest, hread, hnext⟩ := run_of_bind hrun
  obtain ⟨hrest, hless, houtcome⟩ := h tokens read rest hended hbound hread
  cases hswallowed : swallowed (inner || read.2) rest with
  | true =>
    obtain ⟨token, more, rfl, hkind, _⟩ := exists_greater_of_swallowed hswallowed
    rw [hextend.ends read token more hkind] at hnext
    cases hnext
    have hpast := (houtcome.past hswallowed).keeps hextend.keeps (by omega)
    have hswallowed' := @swallowed_of_le _ (outer || result.2)
      (fun h => (Bool.or_eq_true _ _).mpr (((Bool.or_eq_true _ _).mp h).imp_left hle)) _ hswallowed
    exact ⟨hrest, hless, fun hnot => (Bool.false_ne_true (hnot.symm.trans hswallowed')).elim, fun _ => hpast⟩
  | false =>
    obtain ⟨hlast, hle', houtcome'⟩ := hextend.follows read rest result last hrest (by omega) hswallowed hnext
    have heq := run_bind (houtcome.same hswallowed) extend
    exact ⟨hlast, by omega, fun hsame => heq.trans (houtcome'.same hsame), fun hpast => (houtcome'.past hpast).of_run heq⟩

theorem LevelRest.keeps_length {kinds : TokenKind → Bool} (h : LevelRest bound kinds extend) (expression : Expr)
    (tokens : List Token) (hready : Ready AnyFailure tokens) (hbound : tokens.length ≤ bound) :
    Meets (extend expression) tokens (fun _ last => Ready AnyFailure last ∧ last.length ≤ tokens.length) AnyFailure :=
  (h.keeps expression hready hbound).mono fun _ _ ⟨hlast, hle, _⟩ => ⟨hlast, hle⟩

/-- A level that ends where the guarded one does. -/
theorem Outcome.stays {read : GuardedExpr} {tokens : List Token} (hsame : swallowed (inner || read.2) tokens = false)
    (h : extend read.1 tokens = .ok (read.1, tokens)) : Outcome inner (extend read.1) tokens read tokens :=
  ⟨fun _ => h, fun hpast => (Bool.false_ne_true (hsame.symm.trans hpast)).elim⟩

theorem postfix_restFollows (bound : Nat) : RestFollows false false bound guarded_postfix_rest postfix_rest where
  ends read token rest hkind := by
    rw [guarded_postfix_rest, run_bind run_current, hkind]
    rfl
  follows read tokens result last hended _ hsame hrun := by
    obtain ⟨token, rest, rfl⟩ := hended.exists_cons
    rw [guarded_postfix_rest, run_bind run_current] at hrun
    cases hop : postfix_op_from_token token.kind with
    | none =>
      rw [hop] at hrun
      cases hrun
      refine ⟨hended, Nat.le_refl _, .stays hsame ?_⟩
      rw [postfix_rest, run_bind run_current, hop]
      rfl
    | some op =>
      have hne : token.kind ≠ .eof := fun heof => by
        rw [heof] at hop
        cases hop
      rw [hop] at hrun
      dsimp only at hrun
      rw [run_bind (run_advance hne)] at hrun
      cases hrun
      refine ⟨(hended.ready.tail hne).ended, Nat.le_succ _, fun _ => ?_, fun hpast => ?_⟩
      · rw [postfix_rest, run_bind run_current, hop]
        exact run_bind (run_advance hne) _
      · simp at hpast
  keeps := (postfix_levelRest bound).keeps_length

/-- A level of one operator follows the guarded one if what comes behind the token does. -/
theorem token_restFollows {kind : TokenKind} (heof : kind ≠ .eof) (hgreater : kind ≠ .greater)
    {guarded : Expr → Parser GuardedExpr} {parser : Expr → Parser Expr}
    (h : ∀ expression tokens result last, EofEnded tokens → tokens.length < bound →
      guarded expression tokens = .ok (result, last) →
      EofEnded last ∧ last.length ≤ tokens.length ∧ Outcome outer (parser expression) tokens result last)
    (hkeeps : ∀ expression tokens, Ready AnyFailure tokens → tokens.length ≤ bound →
      Meets (token_rest kind parser expression) tokens
        (fun _ last => Ready AnyFailure last ∧ last.length ≤ tokens.length) AnyFailure) :
    RestFollows outer outer bound (guarded_token_rest kind guarded) (token_rest kind parser) where
  ends read token rest hkind := by
    rw [guarded_token_rest, run_bind (run_check kind), hkind, if_neg (by simpa using hgreater.symm)]
    rfl
  follows read tokens result last hended hbound hsame hrun := by
    obtain ⟨token, rest, rfl⟩ := hended.exists_cons
    rw [guarded_token_rest, run_bind (run_check kind)] at hrun
    cases hkind : token.kind == kind with
    | false =>
      rw [hkind, if_neg Bool.false_ne_true] at hrun
      cases hrun
      refine ⟨hended, Nat.le_refl _, .stays hsame ?_⟩
      rw [token_rest, run_bind (run_check kind), hkind]
      rfl
    | true =>
      have hne : token.kind ≠ .eof := (beq_iff_eq.mp hkind) ▸ heof
      have heq : token_rest kind parser read.1 (token :: rest) = parser read.1 rest := by
        rw [token_rest, run_bind (run_check kind), hkind]
        exact run_bind (run_advance hne) _
      rw [hkind, if_pos rfl, run_bind (run_advance hne)] at hrun
      rw [List.length_cons] at hbound
      obtain ⟨hlast, hle, houtcome⟩ := h read.1 rest result last (hended.ready.tail hne).ended (by omega) hrun
      exact ⟨hlast, hle.trans (Nat.le_succ _), fun hsame => heq.trans (houtcome.same hsame),
        fun hpast => (houtcome.past hpast).of_run heq⟩
  keeps := hkeeps

section Chain

variable {kinds : TokenKind → Bool} {operator guarded_operator : Parser (Option BinaryOp)} {operand : Parser Expr}
  {guarded_operand : Parser GuardedExpr} (hoperator : OperatorAt kinds operator)
  (hsame : ∀ token rest, token.kind ≠ .greater → guarded_operator (token :: rest) = operator (token :: rest))
  (hstops : ∀ token rest, token.kind = .greater → guarded_operator (token :: rest) = .ok (none, token :: rest))
  (hle : inner = true → outer = true) (hgreater : kinds .greater = (outer && !inner))
  (hoperand : Follow inner (bound + 1) guarded_operand operand)
  (htakes : Takes AnyFailure (bound + 1) operand ReadsLiteral)

include hoperator hsame hstops hle hgreater hoperand htakes

/-- By induction on the turns of the loop, which are the same for both until a `>` is gone past. -/
theorem left_assoc_follows {turns : Nat} {tokens last : List Token} (read : GuardedExpr) {result : GuardedExpr}
    (hended : EofEnded tokens) (hbound : tokens.length ≤ bound)
    (hswallowed : swallowed (inner || read.2) tokens = false)
    (hrun : left_assoc guarded_operator guarded_operand (fun left op right => (.binary left.1 op right.1, right.2))
      .unfinished turns read tokens = .ok (result, last)) :
    EofEnded last ∧ last.length ≤ tokens.length ∧
      Outcome outer (left_assoc operator operand .binary .unfinished turns read.1) tokens result last := by
  induction turns generalizing read tokens with
  | zero => cases hrun
  | succ turns ih =>
    obtain ⟨token, rest, rfl⟩ := hended.exists_cons
    by_cases hkind : token.kind = .greater
    · -- the guarded loop ends, and the other one unless it is stopped as well
      rw [left_assoc_stop (hstops token rest hkind)] at hrun
      cases hrun
      refine ⟨hended, Nat.le_refl _, ?_⟩
      cases houter : outer && !inner with
      | true =>
        rw [houter, ← hkind] at hgreater
        have hpast := left_assoc_goes hoperator htakes result.1 turns hgreater hended.ready hbound
        rw [Bool.and_eq_true] at houter
        refine ⟨fun hnot => ?_, fun _ => hpast.mono fun _ _ => trivial⟩
        rw [swallowed, houter.1, hkind] at hnot
        cases hnot
      | false =>
        rw [houter, ← hkind] at hgreater
        have heq : outer = inner := by cases inner <;> cases outer <;> simp_all
        subst heq
        exact .stays hswallowed (left_assoc_stop (hoperator.absent token rest hgreater))
    · have hnot (unguarded : Bool) : swallowed unguarded (token :: rest) = false := by
        rw [swallowed, beq_false_of_ne hkind, Bool.and_false]
      cases hop : kinds token.kind with
      | false =>
        rw [left_assoc_stop ((hsame token rest hkind).trans (hoperator.absent token rest hop))] at hrun
        cases hrun
        exact ⟨hended, Nat.le_refl _, .stays (hnot _) (left_assoc_stop (hoperator.absent token rest hop))⟩
      | true =>
        obtain ⟨op, later, hoprun, hlater, hlength⟩ := hoperator.present token rest hop hended.ready
        rw [left_assoc, run_bind ((hsame token rest hkind).trans hoprun)] at hrun
        have hturn : left_assoc operator operand .binary .unfinished (turns + 1) read.1 (token :: rest) =
            (operand >>= fun right => left_assoc operator operand .binary .unfinished turns
              (.binary read.1 op right)) later := by
          rw [left_assoc, run_bind hoprun]
        obtain ⟨right, middle, hright, hmore⟩ := run_of_bind hrun
        obtain ⟨hmiddle, hless, houtcome⟩ := hoperand later right middle hlater.ended (by omega) hright
        cases hpast : swallowed (inner || right.2) middle with
        | false =>
          obtain ⟨hlast, hle', houtcome'⟩ := ih (.binary read.1 op right.1, right.2) hmiddle (by omega) hpast hmore
          have heq := hturn.trans (run_bind (houtcome.same hpast) _)
          exact ⟨hlast, by omega, fun hsame => heq.trans (houtcome'.same hsame),
            fun hpast' => (houtcome'.past hpast').of_run heq⟩
        | true =>
          -- the operand goes past a `>`, and the guarded loop ends there
          obtain ⟨next, more, rfl, hnext, _⟩ := exists_greater_of_swallowed hpast
          cases turns with
          | zero => cases hmore
          | succ turns =>
            rw [left_assoc_stop (hstops next more hnext)] at hmore
            cases hmore
            have hgoes := (houtcome.past hpast).keeps
              (fun value tokens hready hbound => Meets.mono (left_assoc_keeps hoperator htakes
                (.binary read.1 op value) (turns + 1) hready hbound) fun _ _ hkept => ⟨hkept.1, hkept.2.1⟩) (by omega)
            have hpast' := @swallowed_of_le _ (outer || right.2)
              (fun h => (Bool.or_eq_true _ _).mpr (((Bool.or_eq_true _ _).mp h).imp_left hle)) _ hpast
            exact ⟨hmiddle, by omega, fun hnot => (Bool.false_ne_true (hnot.symm.trans hpast')).elim,
              fun _ => hgoes.of_run hturn⟩

/-- Operators between operands; only comparisons are stopped, and then not everywhere. -/
theorem chain_restFollows :
    RestFollows inner outer bound (guarded_chain_rest guarded_operator guarded_operand) (chain_rest operator operand) where
  ends read token rest hkind := left_assoc_stop (hstops token rest hkind)
  follows read tokens result last hended hbound hswallowed hrun := by
    suffices h : EofEnded last ∧ last.length ≤ tokens.length ∧ Outcome outer
        (left_assoc operator operand .binary .unfinished (tokens.length + 1) read.1) tokens result last from
      ⟨h.1, h.2.1, h.2.2.same, fun hpast => (h.2.2.past hpast).of_run rfl⟩
    change left_assoc _ _ _ _ (tokens.length + 1) read tokens = _ at hrun
    exact left_assoc_follows hoperator hsame hstops hle hgreater hoperand htakes read hended hbound hswallowed hrun
  keeps := (chain_levelRest hoperator htakes).keeps_length

end Chain

end Levels

end quawk
