import Quawk.GuardedReading

open TokenParser (Meets meets_bind run_bind run_bind_error left_assoc left_assoc_stop separated separated_stop)

namespace quawk

/-- The calls back to an outer level follow the guarded ones; those of conditionals and assignments are not stopped. -/
structure CallsFollow (bound : Nat) (guarded : GuardedCalls) (calls : ExpressionCalls) : Prop where
  assignment : ∀ unstopped, Follow unstopped bound guarded.assignment
    (calls.parse_assignment_expression (if unstopped then [] else PRINT_REDIRECT_START_KINDS))
  conditional : Follow true bound guarded.conditional calls.parse_conditional_expression
  power : Follow false bound guarded.power calls.parse_power_expression
  unary : Follow false bound guarded.unary calls.parse_unary_expression

section Expressions

variable {bound : Nat} {self : ExpressionCalls} {guarded : GuardedCalls} (hself : CallsTake AnyFailure bound self)
  (htrack : CallsFollow bound guarded self)

omit hself htrack in
theorem GoesPast.map {α β : Type} {parser : Parser α} {next : Parser β} {tokens later after : List Token}
    (h : GoesPast parser later after fun _ => True) (make : α → β)
    (hnext : next tokens = (parser >>= fun value => pure (make value)) later) :
    GoesPast next tokens after fun _ => True := by
  unfold GoesPast Meets at *
  rw [hnext]
  cases hrun : parser later with
  | error failure =>
    rw [run_bind_error hrun]
    trivial
  | ok outcome =>
    rw [hrun] at h
    rw [run_bind hrun]
    exact h

omit hself htrack in
/-- What is made of a value has the outcome of the value, if it forgets as much of what stops it. -/
theorem Outcome.map {α β : Type} {unstopped unstopped' : Bool} {parser : Parser α} {next : Parser β}
    {tokens later rest : List Token} {read : α × Bool} {result : β × Bool}
    (h : Outcome unstopped parser later read rest) (make : α → β) (hvalue : result.1 = make read.1)
    (hunguarded : (unstopped' || result.2) = (unstopped || read.2))
    (hnext : next tokens = (parser >>= fun value => pure (make value)) later) :
    Outcome unstopped' next tokens result rest where
  same hsame := by
    rw [hunguarded] at hsame
    rw [hnext, run_bind (h.same hsame), hvalue]
    rfl
  past hpast := by
    rw [hunguarded] at hpast
    exact (h.past hpast).map make hnext

omit hself htrack in
/-- Before another token than `>` an unstopped parser has read the expression. -/
theorem Follow.run {p : Parser GuardedExpr} {q : Parser Expr} (h : Follow true bound p q) {tokens rest : List Token}
    {read : GuardedExpr} {token : Token} (hended : EofEnded tokens) (hbound : tokens.length ≤ bound)
    (hrun : p tokens = .ok (read, token :: rest)) (hkind : token.kind ≠ .greater) :
    q tokens = .ok (read.1, token :: rest) := by
  obtain ⟨_, _, houtcome⟩ := h tokens read _ hended hbound hrun
  refine houtcome.same ?_
  rw [swallowed, beq_false_of_ne hkind, Bool.and_false]

include htrack

theorem getline_source_follows (target : Option LValue × Bool) {tokens last : List Token} {result : GuardedExpr}
    (hended : EofEnded tokens) (hbound : tokens.length ≤ bound) (hswallowed : swallowed target.2 tokens = false)
    (hrun : guarded_getline_source guarded target tokens = .ok (result, last)) :
    EofEnded last ∧ last.length ≤ tokens.length ∧
      Outcome false (parse_getline_source self >>= fun source => pure (.getline target.1 source)) tokens result last := by
  obtain ⟨token, rest, rfl⟩ := hended.exists_cons
  unfold guarded_getline_source at hrun
  rw [run_bind (run_check .less)] at hrun
  cases hless : token.kind == .less with
  | false =>
    rw [hless, if_neg Bool.false_ne_true] at hrun
    cases hrun
    refine ⟨hended, Nat.le_refl _, fun _ => ?_, fun hpast => ?_⟩
    · have hsource : parse_getline_source self (token :: rest) = .ok (none, token :: rest) := by
        rw [parse_getline_source, run_bind (run_check .less), hless]
        rfl
      rw [run_bind hsource]
      rfl
    · exact (Bool.false_ne_true (hswallowed.symm.trans hpast)).elim
  | true =>
    have hne : token.kind ≠ .eof := by rw [beq_iff_eq.mp hless]; decide
    rw [hless, if_pos rfl, run_bind (run_advance hne)] at hrun
    obtain ⟨source, middle, hsource, hpure⟩ := run_of_bind hrun
    cases hpure
    rw [List.length_cons] at hbound
    obtain ⟨hlast, hlength, houtcome⟩ :=
      htrack.assignment true rest source last (hended.ready.tail hne).ended (by omega) hsource
    refine ⟨hlast, hlength.le.trans (Nat.le_succ _), houtcome.map (fun value => Expr.getline target.1 (some value)) rfl rfl ?_⟩
    have hstart : parse_getline_source self (token :: rest) =
        (parse_expression self [] >>= fun value => pure (some value) : Parser (Option Expr)) rest := by
      rw [parse_getline_source, run_bind (run_check .less), hless, if_pos rfl]
      exact run_bind (run_advance hne) _
    change (parse_getline_source self (token :: rest) >>= _) = (parse_expression self [] rest >>= _)
    rw [hstart]
    change ((parse_expression self [] rest >>= _) >>= _) = _
    cases parse_expression self [] rest <;> rfl

include hself

theorem getline_target_follows {tokens rest : List Token} {target : Option LValue × Bool}
    (hended : EofEnded tokens) (hbound : tokens.length ≤ bound)
    (hrun : guarded_getline_target self guarded tokens = .ok (target, rest)) :
    EofEnded rest ∧ rest.length ≤ tokens.length ∧ Outcome false (parse_getline_target self) tokens target rest := by
  obtain ⟨token, inner, rfl⟩ := hended.exists_cons
  unfold guarded_getline_target at hrun
  rw [run_bind run_current] at hrun
  split_ifs at hrun with hdollar hident
  · have hne : token.kind ≠ .eof := by rw [hdollar]; decide
    rw [run_bind (run_advance hne)] at hrun
    obtain ⟨index, middle, hindex, hpure⟩ := run_of_bind hrun
    cases hpure
    rw [List.length_cons] at hbound
    obtain ⟨hlast, hlength, houtcome⟩ :=
      htrack.assignment true inner index rest (hended.ready.tail hne).ended (by omega) hindex
    exact ⟨hlast, hlength.le.trans (Nat.le_succ _),
      houtcome.map (fun value => some (LValue.field value)) rfl rfl (target_of_field self hdollar)⟩
  · obtain ⟨lvalue, middle, hlvalue, hpure⟩ := run_of_bind hrun
    cases hpure
    have hpasses := passes_lvalue anyFailure_message hself _ hended.ready hbound
    unfold Meets at hpasses
    rw [hlvalue] at hpasses
    refine ⟨hpasses.1.ended, hpasses.2.1, fun _ => ?_, fun hpast => ?_⟩
    · rw [parse_getline_target, run_bind run_current, if_pos (.inl hident), map_eq_pure_bind, run_bind hlvalue]
      rfl
    · simp at hpast
  · cases hrun
    refine ⟨hended, Nat.le_refl _, fun _ => ?_, fun hpast => ?_⟩
    · rw [parse_getline_target, run_bind run_current, if_neg (by simp [hdollar, hident])]
      rfl
    · simp at hpast

theorem getline_follows : Follow false (bound + 1) (guarded_getline_expression self guarded) (parse_getline_expression self) := by
  intro tokens result last hended hbound hrun
  obtain ⟨word, inner, rfl⟩ := hended.exists_cons
  obtain ⟨_, later, hword, hoperands⟩ := run_of_bind hrun
  have hkind : word.kind = .ident := by
    by_contra hkind
    unfold expect at hword
    rw [run_bind run_current, if_neg hkind] at hword
    cases hword
  rw [run_expect hkind] at hword
  cases hword
  have hinner : EofEnded inner := (hended.ready.tail (by rw [hkind]; decide)).ended
  rw [List.length_cons] at hbound
  obtain ⟨target, middle, htarget, hsource⟩ := run_of_bind hoperands
  obtain ⟨hmiddle, hle, houtcome⟩ := getline_target_follows hself htrack hinner (by omega) htarget
  obtain ⟨token, more, rfl⟩ := hinner.exists_cons
  have heq := parse_getline_eq self word token more hkind
  cases hswallowed : swallowed target.2 middle with
  | false =>
    obtain ⟨hlast, hle', houtcome'⟩ := getline_source_follows htrack target hmiddle (by omega) hswallowed hsource
    have hrest := heq.trans (run_bind (houtcome.same hswallowed) _)
    exact ⟨hlast, by rw [List.length_cons]; omega, fun hsame => hrest.trans (houtcome'.same hsame),
      fun hpast => (houtcome'.past hpast).of_run hrest⟩
  | true =>
    obtain ⟨next, after, rfl, hnext, _⟩ := exists_greater_of_swallowed hswallowed
    have hstop : guarded_getline_source guarded target (next :: after) = .ok ((.getline target.1 none, target.2), next :: after) := by
      rw [guarded_getline_source, run_bind (run_check .less), hnext]
      rfl
    rw [hstop] at hsource
    cases hsource
    have hless : (next :: after).length < (word :: token :: more).length :=
      Nat.lt_of_le_of_lt hle (Nat.lt_succ_self _)
    refine ⟨hmiddle, hless, fun hsame => ?_, fun _ => ?_⟩
    · exact (Bool.false_ne_true (hsame.symm.trans hswallowed)).elim
    · refine GoesPast.of_run ?_ heq
      unfold GoesPast
      rw [meets_bind]
      refine Meets.mono (houtcome.past hswallowed) fun value rest ⟨hrest, hless, _⟩ => ?_
      rw [meets_bind]
      refine (passes_getline_source hself rest hrest (by omega)).mono fun _ final ⟨hfinal, hle, _⟩ => ?_
      exact ⟨hfinal, by omega, trivial⟩

theorem primary_follows : Follow false (bound + 1) (guarded_primary_expression self guarded) (parse_primary_expression self) := by
  intro tokens result last hended hbound hrun
  obtain ⟨token, inner, rfl⟩ := hended.exists_cons
  unfold guarded_primary_expression at hrun
  rw [run_bind run_current] at hrun
  split_ifs at hrun with hgetline hdollar
  · have heq : parse_primary_expression self (token :: inner) = parse_getline_expression self (token :: inner) := by
      unfold parse_primary_expression
      rw [run_bind run_current, hgetline.1, hgetline.2]
      dsimp only
      rw [if_pos rfl]
    obtain ⟨hlast, hless, houtcome⟩ := getline_follows hself htrack _ result last hended hbound hrun
    exact ⟨hlast, hless, fun hsame => heq.trans (houtcome.same hsame), fun hpast => (houtcome.past hpast).of_run heq⟩
  · have hne : token.kind ≠ .eof := by rw [hdollar]; decide
    have heq : parse_primary_expression self (token :: inner) =
        (self.parse_unary_expression >>= fun index => liftM (field_expression index) : Parser Expr) inner := by
      unfold parse_primary_expression
      rw [run_bind run_current, hdollar]
      exact run_bind (run_advance hne) _
    rw [run_bind (run_advance hne)] at hrun
    obtain ⟨⟨index, unguarded⟩, middle, hindex, hfield⟩ := run_of_bind hrun
    rw [List.length_cons] at hbound
    obtain ⟨hmiddle, hless, houtcome⟩ := htrack.unary inner _ middle (hended.ready.tail hne).ended (by omega) hindex
    dsimp only at hfield
    cases hexpression : field_expression index with
    | error failure =>
      rw [hexpression] at hfield
      cases hfield
    | ok expression =>
      rw [hexpression] at hfield
      cases hfield
      refine ⟨hmiddle, hless.trans (Nat.lt_succ_self _), fun hsame => ?_, fun hpast => ?_⟩
      · rw [heq, run_bind (houtcome.same hsame), hexpression]
        rfl
      · refine GoesPast.of_run ?_ heq
        unfold GoesPast
        rw [meets_bind]
        refine Meets.mono (houtcome.past hpast) fun value rest ⟨hrest, hless, _⟩ => ?_
        cases field_expression value with
        | error failure => exact trivial
        | ok field => exact ⟨hrest, hless, trivial⟩
  · obtain ⟨expression, middle, hprimary, hpure⟩ := run_of_bind hrun
    cases hpure
    have htakes := takes_primary anyFailure_message hself _ hended.ready hbound
    unfold Meets at htakes
    rw [hprimary] at htakes
    refine ⟨htakes.1.ended, htakes.2.1, fun _ => hprimary, fun hpast => ?_⟩
    simp at hpast

theorem unary_follows : Follow false (bound + 1) (guarded_unary_expression self guarded) (parse_unary_expression self) := by
  intro tokens result last hended hbound hrun
  obtain ⟨token, inner, rfl⟩ := hended.exists_cons
  unfold guarded_unary_expression at hrun
  rw [run_bind run_current] at hrun
  cases hop : unary_op_from_token token.kind with
  | none =>
    rw [hop] at hrun
    have heq : parse_unary_expression self (token :: inner) =
        (parse_primary_expression self >>= postfix_rest) (token :: inner) := by
      unfold parse_unary_expression
      rw [run_bind run_current, hop]
      rfl
    have hincrement := (primary_follows hself htrack).level id (postfix_restFollows bound)
    obtain ⟨hlast, hless, houtcome⟩ := hincrement _ result last hended hbound hrun
    exact ⟨hlast, hless, fun hsame => heq.trans (houtcome.same hsame), fun hpast => (houtcome.past hpast).of_run heq⟩
  | some op =>
    have hne : token.kind ≠ .eof := fun heof => by
      rw [heof] at hop
      cases hop
    rw [hop] at hrun
    dsimp only at hrun
    rw [run_bind (run_advance hne)] at hrun
    obtain ⟨operand, middle, hoperand, hpure⟩ := run_of_bind hrun
    cases hpure
    rw [List.length_cons] at hbound
    obtain ⟨hlast, hless, houtcome⟩ := htrack.unary inner operand last (hended.ready.tail hne).ended (by omega) hoperand
    refine ⟨hlast, hless.trans (Nat.lt_succ_self _), houtcome.map (fun value => Expr.unary op value) rfl rfl ?_⟩
    unfold parse_unary_expression
    rw [run_bind run_current, hop]
    exact run_bind (run_advance hne) _

theorem power_follows : Follow false (bound + 1) (guarded_power_expression self guarded) (parse_power_expression self) := by
  refine (unary_follows hself htrack).level id (token_restFollows (by decide) (by decide) ?_ (power_levelRest hself).keeps_length)
  intro left tokens result last hended hbound hrun
  obtain ⟨right, middle, hright, hpure⟩ := run_of_bind hrun
  cases hpure
  obtain ⟨hlast, hless, houtcome⟩ := htrack.power tokens right last hended hbound.le hright
  exact ⟨hlast, hless.le, houtcome.map (fun value => Expr.binary left .pow value) rfl rfl rfl⟩

omit hself htrack in
/-- A level whose operators do not start with `>`. -/
theorem chain_follows {unstopped : Bool} {kinds : TokenKind → Bool} {operator : Parser (Option BinaryOp)}
    {operand : Parser Expr} {guarded_operand : Parser GuardedExpr} (hoperator : OperatorAt kinds operator)
    (hgreater : kinds .greater = false) (hoperand : Follow unstopped (bound + 1) guarded_operand operand)
    (htakes : Takes AnyFailure (bound + 1) operand ReadsLiteral) :
    Follow unstopped (bound + 1) (guarded_operand >>= guarded_chain_rest operator guarded_operand)
      (operand >>= chain_rest operator operand) :=
  hoperand.level id (chain_restFollows hoperator (fun _ _ _ => rfl)
    (fun token rest hkind => hoperator.absent token rest (hkind ▸ hgreater)) id (by simpa using hgreater) hoperand htakes)

theorem multiplicative_follows :
    Follow false (bound + 1) (guarded_multiplicative_expression self guarded) (parse_multiplicative_expression self) :=
  chain_follows (operatorAt_token [] (by rfl : multiplicative_op_from_token .eof = none)) rfl
    (power_follows hself htrack) (takes_power anyFailure_message hself)

theorem additive_follows :
    Follow false (bound + 1) (guarded_additive_expression self guarded) (parse_additive_expression self) :=
  chain_follows (operatorAt_token [] (by rfl : additive_op_from_token .eof = none)) rfl
    (multiplicative_follows hself htrack) (takes_multiplicative anyFailure_message hself)

theorem concat_follows : Follow false (bound + 1) (guarded_concat_expression self guarded) (parse_concat_expression self) :=
  chain_follows operatorAt_concat rfl (additive_follows hself htrack) (takes_additive anyFailure_message hself)

theorem in_follows : Follow false (bound + 1) (guarded_in_expression self guarded) (parse_in_expression self) := by
  refine (concat_follows hself htrack).level id (token_restFollows (by decide) (by decide) ?_ (in_levelRest hself).keeps_length)
  intro left tokens result last hended hbound hrun
  obtain ⟨right, middle, hright, hpure⟩ := run_of_bind hrun
  cases hpure
  obtain ⟨hlast, hless, houtcome⟩ := concat_follows hself htrack tokens right last hended (by omega) hright
  exact ⟨hlast, hless.le, houtcome.map (fun value => Expr.binary left .in_op value) rfl rfl rfl⟩

theorem match_follows : Follow false (bound + 1) (guarded_match_expression self guarded) (parse_match_expression self) :=
  chain_follows (operatorAt_token [] (by rfl : match_op_from_token .eof = none)) rfl (in_follows hself htrack)
    (takes_in anyFailure_message hself)

/-- The kinds that stop a comparison. -/
def stops (unstopped : Bool) : List TokenKind := if unstopped then [] else PRINT_REDIRECT_START_KINDS

omit hself htrack in
theorem comparison_operator_same (unstopped : Bool) (token : Token) (rest : List Token) (hkind : token.kind ≠ .greater) :
    operator_token PRINT_REDIRECT_START_KINDS comparison_op_from_token (token :: rest) =
      operator_token (stops unstopped) comparison_op_from_token (token :: rest) := by
  cases unstopped with
  | false => rfl
  | true =>
    unfold operator_token
    rw [run_bind run_current, run_bind run_current]
    cases hother : token.kind <;> first | rfl | exact absurd hother hkind

theorem comparison_follows (unstopped : Bool) :
    Follow unstopped (bound + 1) (guarded_comparison_expression self guarded)
      (parse_comparison_expression self (stops unstopped)) := by
  have hoperator := operatorAt_token (stops unstopped) (by rfl : comparison_op_from_token .eof = none)
  have hstopped := operatorAt_token PRINT_REDIRECT_START_KINDS (by rfl : comparison_op_from_token .eof = none)
  refine (match_follows hself htrack).level (fun h => by cases h) (chain_restFollows hoperator
    (comparison_operator_same unstopped) (fun token rest hkind => hstopped.absent token rest (by rw [hkind]; rfl))
    (fun h => by cases h) ?_ (match_follows hself htrack) (takes_match anyFailure_message hself))
  cases unstopped <;> rfl

theorem logical_and_follows (unstopped : Bool) :
    Follow unstopped (bound + 1) (guarded_logical_and_expression self guarded)
      (parse_logical_and_expression self (stops unstopped)) :=
  chain_follows (operatorAt_token [] (by rfl : logical_and_from_token .eof = none)) rfl
    (comparison_follows hself htrack unstopped) (takes_comparison anyFailure_message hself _)

theorem logical_or_follows (unstopped : Bool) :
    Follow unstopped (bound + 1) (guarded_logical_or_expression self guarded)
      (parse_logical_or_expression self (stops unstopped)) :=
  chain_follows (operatorAt_token [] (by rfl : logical_or_from_token .eof = none)) rfl
    (logical_and_follows hself htrack unstopped) (takes_logical_and anyFailure_message hself _)

theorem conditional_follows (unstopped : Bool) :
    Follow unstopped (bound + 1) (guarded_conditional_expression self guarded)
      (parse_conditional_expression self (stops unstopped)) := by
  refine (logical_or_follows hself htrack unstopped).level id
    (token_restFollows (by decide) (by decide) ?_ (conditional_levelRest hself).keeps_length)
  intro test tokens result last hended hbound hrun
  obtain ⟨if_true, middle, htrue, hcolon⟩ := run_of_bind hrun
  obtain ⟨colon, later, hexpect, hfalse⟩ := run_of_bind hcolon
  obtain ⟨if_false, final, hlast, hpure⟩ := run_of_bind hfalse
  cases hpure
  obtain ⟨hmiddle, hless, _⟩ := htrack.assignment true tokens if_true middle hended hbound.le htrue
  obtain ⟨token, rest, rfl⟩ := hmiddle.exists_cons
  have hkind : token.kind = .colon := by
    by_contra hkind
    unfold expect at hexpect
    rw [run_bind run_current, if_neg hkind] at hexpect
    cases hexpect
  rw [run_expect hkind] at hexpect
  cases hexpect
  have htrue' := (htrack.assignment true).run hended hbound.le htrue (by rw [hkind]; decide)
  have hrest : EofEnded later := (hmiddle.ready.tail (by rw [hkind]; decide)).ended
  rw [List.length_cons] at hless
  obtain ⟨hfinal, hless', houtcome⟩ := htrack.conditional later if_false last hrest (by omega) hlast
  refine ⟨hfinal, by omega,
    houtcome.map (fun value => Expr.conditional test if_true.1 value) rfl (Bool.or_true _) ?_⟩
  have hexpression : parse_expression self [] tokens = .ok (if_true.1, colon :: later) := htrue'
  rw [run_bind hexpression]
  exact run_bind (run_expect hkind) _

theorem assignment_restFollows (unstopped : Bool) :
    RestFollows unstopped unstopped bound (guarded_assignment_rest guarded) (assignment_rest self) where
  ends read token rest hkind := by
    rw [guarded_assignment_rest, run_bind run_current, hkind]
    rfl
  follows read tokens result last hended hbound hsame hrun := by
    obtain ⟨token, rest, rfl⟩ := hended.exists_cons
    rw [guarded_assignment_rest, run_bind run_current] at hrun
    cases hop : assignment_op_from_token token.kind with
    | none =>
      rw [hop] at hrun
      cases hrun
      exact ⟨hended, Nat.le_refl _, .stays hsame (assignment_stays hop)⟩
    | some op =>
      have hne : token.kind ≠ .eof := fun heof => by
        rw [heof] at hop
        cases hop
      rw [hop] at hrun
      obtain ⟨target, middle, htarget, hvalue⟩ := run_of_bind hrun
      cases hok : assignment_target read.1 with
      | error failure =>
        rw [hok] at htarget
        cases htarget
      | ok lvalue =>
        rw [hok] at htarget
        cases htarget
        rw [run_bind (run_advance hne)] at hvalue
        obtain ⟨value, final, hrun', hpure⟩ := run_of_bind hvalue
        cases hpure
        rw [List.length_cons] at hbound
        obtain ⟨hlast, hless, houtcome⟩ :=
          htrack.assignment true rest value last (hended.ready.tail hne).ended (by omega) hrun'
        refine ⟨hlast, hless.le.trans (Nat.le_succ _),
          houtcome.map (fun value => Expr.assign target op value) rfl (Bool.or_true _) ?_⟩
        rw [assignment_rest, run_bind run_current, hop]
        dsimp only
        have hlift : (liftM (assignment_target read.1) : Parser LValue) (token :: rest) = .ok (target, token :: rest) := by
          rw [hok]
          rfl
        rw [run_bind hlift]
        exact run_bind (run_advance hne) _
  keeps expression tokens hready hbound :=
    (assignment_goes hself expression hready hbound).mono fun value last ⟨hlast, hvalue⟩ => by
      obtain ⟨_, rfl, _⟩ | ⟨hless, _⟩ := hvalue
      · exact ⟨hlast, Nat.le_refl _⟩
      · exact ⟨hlast, hless.le⟩

theorem assignment_follows (unstopped : Bool) :
    Follow unstopped (bound + 1) (guarded_assignment_expression self guarded)
      (parse_assignment_expression self (stops unstopped)) :=
  (conditional_follows hself htrack unstopped).level id (assignment_restFollows hself htrack unstopped)

end Expressions

/-- The parser follows the guarded one, up to a `>` that it goes past. -/
theorem guarded_calls_follow (depth : Nat) : CallsFollow depth (guarded_calls depth) (expression_calls depth) := by
  induction depth with
  | zero =>
    have hnone {unstopped : Bool} {p : Parser GuardedExpr} {q : Parser Expr} : Follow unstopped 0 p q :=
      fun tokens _ _ hended hbound _ => by
        obtain ⟨token, rest, rfl⟩ := hended.exists_cons
        cases hbound
    exact ⟨fun _ => hnone, hnone, hnone, hnone⟩
  | succ depth ih =>
    have hself : CallsTake AnyFailure depth (expression_calls depth) := expression_calls_take anyFailure_message depth
    exact ⟨assignment_follows hself ih, conditional_follows hself ih true, power_follows hself ih, unary_follows hself ih⟩

end quawk
