import Quawk.GuardedExpressions

open TokenParser (Meets meets_bind run_bind run_bind_error left_assoc left_assoc_stop separated separated_stop)

namespace quawk

/-- Whether the last of some expressions, or what is before them, ends in an unguarded part. -/
def last_unguarded (unguarded : Bool) : List GuardedExpr → Bool
  | [] => unguarded
  | read :: rest => last_unguarded read.2 rest

/-- The arguments of an output statement up to its redirect, and whether the parser goes past the `>` that starts it. -/
def guarded_arguments (guarded : GuardedCalls) : Parser (List Expr × Bool) := do
  let reads ← comma_separated guarded.assignment
  let after ← get
  return (reads.map Prod.fst, swallowed (last_unguarded false reads) after)

section Lists

variable {depth : Nat} {tokens after : List Token}

theorem run_comma (token : Token) (rest : List Token) :
    comma (token :: rest) = .ok (token.kind == .comma, if token.kind == .comma then rest else token :: rest) := by
  rw [comma, run_bind (run_check .comma)]
  cases hkind : token.kind == .comma with
  | false => rfl
  | true =>
    have hne : token.kind ≠ .eof := by rw [beq_iff_eq.mp hkind]; decide
    rw [if_pos rfl, run_bind (run_advance hne)]
    rfl

theorem separated_keeps {item : Parser Expr} (hitem : Takes AnyFailure depth item ReadsLiteral) (turns : Nat)
    (hready : Ready AnyFailure tokens) (hbound : tokens.length ≤ depth) :
    Meets (separated comma item .unfinished turns) tokens
      (fun _ last => Ready AnyFailure last ∧ last.length ≤ tokens.length) AnyFailure := by
  induction turns generalizing tokens with
  | zero => exact trivial
  | succ turns ih =>
    unfold separated
    rw [meets_bind]
    have hcomma : Passes AnyFailure depth comma Anything := passes_comma
    refine (hcomma tokens hready hbound).mono fun present later hpassed => ?_
    obtain ⟨hlater, hle, -⟩ := hpassed
    cases present with
    | false => exact ⟨hlater, hle⟩
    | true =>
      rw [if_pos rfl, meets_bind]
      refine (hitem later hlater (by omega)).mono fun value rest htaken => ?_
      obtain ⟨hrest, hless, -⟩ := htaken
      rw [meets_bind]
      exact (ih hrest (by omega)).mono fun _ last hkept => ⟨hkept.1, by omega⟩

/-- An item and the ones behind it. -/
def items {α : Type} (item : Parser α) (turns : Nat) : Parser (List α) :=
  item >>= fun first => separated comma item .unfinished turns >>= fun more => pure (first :: more)

theorem separated_comma {α : Type} (item : Parser α) (turns : Nat) {token : Token} (rest : List Token)
    (hcomma : token.kind = .comma) :
    separated comma item .unfinished (turns + 1) (token :: rest) = items item turns rest := by
  unfold separated
  rw [run_bind (run_comma token rest), hcomma]
  rfl

theorem items_head {α : Type} {item : Parser α} {turns : Nat} {values : List α} (h : items item turns tokens = .ok (values, after)) :
    ∃ first rest, values = first :: rest := by
  obtain ⟨first, middle, _, hmore⟩ := run_of_bind h
  obtain ⟨more, final, _, hpure⟩ := run_of_bind hmore
  cases hpure
  exact ⟨first, more, rfl⟩

/-- Arguments are read alike until one goes past a `>`; it is the last. By induction on the turns, one for an argument. -/
theorem items_follow {item : Parser Expr} {guarded : Parser GuardedExpr} (hitem : Follow false depth guarded item)
    (htakes : Takes AnyFailure depth item ReadsLiteral) {turns : Nat} {reads : List GuardedExpr} (hended : EofEnded tokens)
    (hbound : tokens.length ≤ depth) (hrun : items guarded turns tokens = .ok (reads, after)) :
    (swallowed (last_unguarded false reads) after = false → items item turns tokens = .ok (reads.map Prod.fst, after)) ∧
    (swallowed (last_unguarded false reads) after = true → GoesPast (items item turns) tokens after fun _ => True) := by
  induction turns generalizing tokens reads with
  | zero =>
    obtain ⟨first, middle, _, hmore⟩ := run_of_bind hrun
    cases hmore
  | succ turns ih =>
    obtain ⟨first, middle, hfirst, hmore⟩ := run_of_bind hrun
    obtain ⟨more, final, hseparated, hpure⟩ := run_of_bind hmore
    cases hpure
    obtain ⟨hmiddle, hless, houtcome⟩ := hitem tokens first middle hended hbound hfirst
    obtain ⟨token, rest, rfl⟩ := hmiddle.exists_cons
    by_cases hcomma : token.kind = .comma
    · have hsame : swallowed (false || first.2) (token :: rest) = false := by
        rw [swallowed, hcomma]
        exact Bool.and_false _
      rw [separated_comma guarded turns rest hcomma] at hseparated
      rw [List.length_cons] at hless
      obtain ⟨hread, hpast⟩ := ih (hmiddle.ready.tail (by rw [hcomma]; decide)).ended (by omega) hseparated
      obtain ⟨second, others, rfl⟩ := items_head hseparated
      have heq : items item (turns + 1) tokens =
          (items item turns >>= fun more => pure (first.1 :: more)) rest := by
        have hnext : items item (turns + 1) tokens =
            (separated comma item .unfinished (turns + 1) >>= fun more => pure (first.1 :: more)) (token :: rest) :=
          run_bind (houtcome.same hsame) _
        rw [hnext]
        change (separated comma item .unfinished (turns + 1) (token :: rest) >>= _) = (items item turns rest >>= _)
        rw [separated_comma item turns rest hcomma]
      refine ⟨fun hnot => ?_, fun hswallowed => (hpast hswallowed).map _ heq⟩
      rw [heq, run_bind (hread hnot)]
      rfl
    · have hstop {α : Type} (item : Parser α) : separated comma item .unfinished (turns + 1) (token :: rest) =
          .ok ([], token :: rest) := by
        refine separated_stop ?_
        rw [run_comma, beq_false_of_ne hcomma]
        rfl
      rw [hstop] at hseparated
      cases hseparated
      refine ⟨fun hnot => ?_, fun hswallowed => ?_⟩
      · have hnext : items item (turns + 1) tokens =
            (separated comma item .unfinished (turns + 1) >>= fun more => pure (first.1 :: more)) (token :: rest) :=
          run_bind (houtcome.same hnot) _
        rw [hnext, run_bind (hstop item)]
        rfl
      · have hgoes := houtcome.past hswallowed
        unfold GoesPast items
        rw [meets_bind]
        refine Meets.mono hgoes fun value last htaken => ?_
        obtain ⟨hlast, hless', -⟩ := htaken
        rw [meets_bind]
        refine (separated_keeps htakes (turns + 1) hlast (by omega)).mono fun _ final hkept => ?_
        exact ⟨hkept.1, lt_of_le_of_lt hkept.2 hless', trivial⟩

/-- Up to as many turns as there are tokens. -/
theorem comma_separated_eq {α : Type} (item : Parser α) {first : α} {middle : List Token}
    (h : item tokens = .ok (first, middle)) : comma_separated item tokens = items item (middle.length + 1) tokens := by
  unfold comma_separated items
  rw [run_bind h, run_bind h]
  rfl

theorem list_follow {item : Parser Expr} {guarded : Parser GuardedExpr} (hitem : Follow false depth guarded item)
    (htakes : Takes AnyFailure depth item ReadsLiteral) {reads : List GuardedExpr} (hended : EofEnded tokens)
    (hbound : tokens.length ≤ depth) (hrun : comma_separated guarded tokens = .ok (reads, after)) :
    (swallowed (last_unguarded false reads) after = false →
      comma_separated item tokens = .ok (reads.map Prod.fst, after)) ∧
    (swallowed (last_unguarded false reads) after = true →
      GoesPast (comma_separated item) tokens after fun _ => True) := by
  obtain ⟨first, middle, hfirst, hmore⟩ := run_of_bind hrun
  obtain ⟨hmiddle, hless, houtcome⟩ := hitem tokens first middle hended hbound hfirst
  rw [comma_separated_eq guarded hfirst] at hrun
  cases hswallowed : swallowed (false || first.2) middle with
  | false =>
    have heq := comma_separated_eq item (houtcome.same hswallowed)
    obtain ⟨hread, hpast⟩ := items_follow hitem htakes hended hbound hrun
    exact ⟨fun hnot => heq.trans (hread hnot), fun hgoes => (hpast hgoes).of_run heq⟩
  | true =>
    -- the first argument is the last as well
    obtain ⟨token, rest, rfl, hkind, _⟩ := exists_greater_of_swallowed hswallowed
    have hstop : separated comma guarded .unfinished ((token :: rest).length + 1) (token :: rest) = .ok ([], token :: rest) := by
      refine separated_stop ?_
      rw [run_comma, hkind]
      rfl
    have hone : items guarded ((token :: rest).length + 1) tokens = .ok ([first], token :: rest) := by
      rw [items, run_bind hfirst, run_bind hstop]
      rfl
    rw [hone] at hrun
    cases hrun
    refine ⟨fun hnot => (Bool.false_ne_true (hnot.symm.trans hswallowed)).elim, fun _ => ?_⟩
    unfold GoesPast comma_separated
    rw [meets_bind]
    refine Meets.mono (houtcome.past hswallowed) fun value last htaken => ?_
    obtain ⟨hlast, hless', -⟩ := htaken
    rw [meets_bind]
    refine Meets.mono (separated_keeps htakes (last.length + 1) hlast (by omega)) fun _ final hkept => ?_
    exact ⟨hkept.1, lt_of_le_of_lt hkept.2 hless', trivial⟩

end Lists

/-- An expression list does not start with what ends a statement or starts a redirect. -/
theorem expression_list_start {depth : Nat} {stop_kinds : List TokenKind} {token : Token} {rest after : List Token}
    {arguments : List Expr} (h : parse_expression_list (expression_calls depth) stop_kinds (token :: rest) = .ok (arguments, after)) :
    [TokenKind.rbrace, .newline, .semicolon].contains token.kind = false ∧
      PRINT_REDIRECT_START_KINDS.contains token.kind = false := by
  cases depth with
  | zero => cases h
  | succ depth =>
    by_contra hnot
    have hunary : ∃ failure, parse_unary_expression (expression_calls depth) (token :: rest) = .error failure := by
      unfold parse_unary_expression parse_postfix_expression parse_primary_expression
      rw [run_bind run_current]
      cases hkind : token.kind <;> simp [hkind, PRINT_REDIRECT_START_KINDS] at hnot <;>
        exact ⟨_, by simp only [unary_op_from_token]; exact run_bind_error (by rw [run_bind run_current, hkind]; rfl) _⟩
    obtain ⟨failure, hunary⟩ := hunary
    have hpower : parse_power_expression (expression_calls depth) (token :: rest) = .error failure :=
      run_bind_error hunary _
    have hmultiplicative : parse_multiplicative_expression (expression_calls depth) (token :: rest) = .error failure :=
      run_bind_error hpower _
    have hadditive : parse_additive_expression (expression_calls depth) (token :: rest) = .error failure :=
      run_bind_error hmultiplicative _
    have hconcat : parse_concat_expression (expression_calls depth) (token :: rest) = .error failure :=
      run_bind_error hadditive _
    have hin : parse_in_expression (expression_calls depth) (token :: rest) = .error failure := run_bind_error hconcat _
    have hmatch : parse_match_expression (expression_calls depth) (token :: rest) = .error failure :=
      run_bind_error hin _
    have hcomparison : parse_comparison_expression (expression_calls depth) stop_kinds (token :: rest) = .error failure :=
      run_bind_error hmatch _
    have hand : parse_logical_and_expression (expression_calls depth) stop_kinds (token :: rest) = .error failure :=
      run_bind_error hcomparison _
    have hor : parse_logical_or_expression (expression_calls depth) stop_kinds (token :: rest) = .error failure :=
      run_bind_error hand _
    have hconditional : parse_conditional_expression (expression_calls depth) stop_kinds (token :: rest) = .error failure :=
      run_bind_error hor _
    have hassignment : parse_assignment_expression (expression_calls depth) stop_kinds (token :: rest) = .error failure :=
      run_bind_error hconditional _
    have hlist : parse_expression_list (expression_calls (depth + 1)) stop_kinds (token :: rest) = .error failure :=
      run_bind_error hassignment _
    rw [hlist] at h
    cases h

/-- The redirect of a statement with these arguments. -/
def redirected (calls : ExpressionCalls) (statement : List Expr → Option OutputRedirect → Stmt) (arguments : List Expr) :
    Parser Stmt := do
  let redirect ← parse_optional_redirect calls
  return statement arguments redirect

/-- A list of arguments as it is read with a redirect behind every `>` that stands outside of brackets: the parser reads
it, and with it every `print` statement and every `printf` statement without parentheses, exactly if the list does not
end, before a `>`, in a branch of a conditional, in the value of an assignment or in an operand of a `getline`. There it
takes the `>` for a comparison. -/
theorem redirect_law {depth : Nat} {tokens after : List Token} {arguments : List Expr} {past : Bool}
    (hended : EofEnded tokens) (hlength : tokens.length ≤ depth)
    (hguarded : guarded_arguments (guarded_calls depth) tokens = .ok ((arguments, past), after)) :
    (parse_expression_list (expression_calls depth) PRINT_REDIRECT_START_KINDS tokens = .ok (arguments, after) ∧
      (∀ word, word.kind = .print_kw → parse_print_statement (expression_calls depth) (word :: tokens) =
        redirected (expression_calls depth) .print arguments after) ∧
      ∀ word, word.kind = .printf_kw → (∀ token ∈ tokens.head?, token.kind ≠ .lparen) →
        parse_printf_statement (expression_calls depth) (word :: tokens) =
          redirected (expression_calls depth) .printf arguments after) ↔
      past = false := by
  obtain ⟨reads, middle, hreads, hget⟩ := run_of_bind hguarded
  cases hget
  have htakes : CallsTake AnyFailure depth (expression_calls depth) := expression_calls_take anyFailure_message depth
  obtain ⟨hsame, hpast⟩ := list_follow ((guarded_calls_follow depth).assignment false) (htakes.assignment _) hended hlength hreads
  constructor
  · rintro ⟨hlist, _⟩
    by_contra hnot
    exact (hpast (Bool.eq_true_of_not_eq_false hnot)).ne _ hlist
  · intro hnot
    have hlist : parse_expression_list (expression_calls depth) PRINT_REDIRECT_START_KINDS tokens =
        .ok (reads.map Prod.fst, after) := hsame hnot
    obtain ⟨token, rest, rfl⟩ := hended.exists_cons
    obtain ⟨hterminator, hredirect⟩ := expression_list_start hlist
    refine ⟨hlist, fun word hword => ?_, fun word hword hparen => ?_⟩
    · unfold parse_print_statement
      rw [run_bind (run_expect hword)]
      have hend : is_statement_terminator (token :: rest) = .ok (false, token :: rest) := by
        rw [is_statement_terminator, run_bind run_current, hterminator]
        rfl
      have hstart : is_output_redirect_start (token :: rest) = .ok (false, token :: rest) := by
        rw [is_output_redirect_start, run_bind run_current, hredirect]
        rfl
      rw [run_bind hend, if_neg Bool.false_ne_true, run_bind hstart, if_neg Bool.false_ne_true, run_bind hlist]
      rfl
    · unfold parse_printf_statement
      have hopening : check .lparen (token :: rest) = .ok (false, token :: rest) := by
        rw [run_check, beq_false_of_ne (hparen token rfl)]
      rw [run_bind (run_expect hword), run_bind hopening, if_neg Bool.false_ne_true, run_bind hlist]
      rfl

/-- `x > f`, and the end of the program. -/
def redirected_name : List Token := [word "x", sign .greater, word "f", sign .eof]

theorem redirect_law_name :
    (parse_expression_list (expression_calls 4) PRINT_REDIRECT_START_KINDS redirected_name =
        .ok ([.name "x"], [sign .greater, word "f", sign .eof]) ∧
      (∀ first : Token, first.kind = .print_kw → parse_print_statement (expression_calls 4) (first :: redirected_name) =
        redirected (expression_calls 4) .print [.name "x"] [sign .greater, word "f", sign .eof]) ∧
      ∀ first : Token, first.kind = .printf_kw → (∀ token ∈ redirected_name.head?, token.kind ≠ .lparen) →
        parse_printf_statement (expression_calls 4) (first :: redirected_name) =
          redirected (expression_calls 4) .printf [.name "x"] [sign .greater, word "f", sign .eof]) ↔
      false = false :=
  redirect_law (.cons (by decide) (.cons (by decide) (.cons (by decide) (.eof rfl)))) (by decide) rfl

/-- `x = y > f`, and the end of the program. -/
def redirected_assignment : List Token := [word "x", sign .equal, word "y", sign .greater, word "f", sign .eof]

/-- `print x = y > f` prints the comparison of `y` with `f`, and to no file. -/
theorem redirect_taken_for_comparison :
    guarded_arguments (guarded_calls 6) redirected_assignment =
        .ok (([.assign (.name "x") .plain (.name "y")], true), [sign .greater, word "f", sign .eof]) ∧
      parse_print_statement (expression_calls 6) (sign .print_kw :: redirected_assignment) =
        .ok (.print [.assign (.name "x") .plain (.binary (.name "y") .greater (.name "f"))] none, [sign .eof]) :=
  ⟨rfl, rfl⟩

end quawk
