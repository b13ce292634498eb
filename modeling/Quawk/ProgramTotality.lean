import Quawk.LogicalSource
import Quawk.ParserTotality

open TokenParser (Meets meets_bind meets_pure meets_throw meets_map meets_ite)

namespace quawk

variable {allowed : ParseFailure → Prop} {bound : Nat}

section Statements

variable {calls : ExpressionCalls} {self : Parser Stmt} (hmessage : ∀ message, allowed (.parse_error message))

theorem passes_unless {α : Type} (kind : TokenKind) (absent : α) {part : Parser α}
    (hpart : Passes allowed bound part Anything) : Passes allowed bound (parse_unless kind absent part) Anything :=
  .check kind fun _ => .ite (.pure _ trivial) hpart

section Simple

variable (hcalls : CallsTake allowed bound calls)
include hmessage hcalls

theorem passes_output_redirect : Passes allowed bound (parse_output_redirect calls) Anything := by
  have htarget (kind : OutputRedirectKind) : Passes allowed bound
      (do return (⟨kind, ← parse_expression calls []⟩ : OutputRedirect)) Anything :=
    (passes_expression hcalls []).bind fun _ _ => .pure _ trivial
  intro tokens hready hlength
  obtain ⟨token, rest, rfl⟩ := hready.exists_cons
  have hrest (h : token.kind ≠ .eof) (kind : OutputRedirectKind) : Meets
      (do return (⟨kind, ← parse_expression calls []⟩ : OutputRedirect)) rest
      (fun value last => Ready allowed last ∧ last.length ≤ (token :: rest).length ∧ Anything value) allowed :=
    (htarget kind rest (hready.tail h) ((Nat.le_succ _).trans hlength)).mono fun _ _ ⟨hlast, hle, hvalue⟩ =>
      ⟨hlast, hle.trans (Nat.le_succ _), hvalue⟩
  unfold parse_output_redirect
  rw [meets_bind]
  by_cases heof : token.kind = .eof
  · unfold advance
    rw [meets_bind, TokenParser.meets_get]
    dsimp only
    rw [if_pos heof, meets_pure, heof]
    exact hmessage _
  · rw [meets_advance heof]
    split
    · exact hrest heof _
    · exact hrest heof _
    · exact hrest heof _
    · exact hmessage _

theorem passes_optional_redirect : Passes allowed bound (parse_optional_redirect calls) Anything :=
  .of_current rfl fun _ => .ite ((passes_output_redirect hmessage hcalls).map some) (.pure _ trivial)

omit hmessage in
theorem passes_optional_value : Passes allowed bound (parse_optional_value calls) Anything :=
  .of_current rfl fun _ => .ite (.pure _ trivial) ((passes_expression hcalls []).map some)

theorem takes_print : Takes allowed (bound + 1) (parse_print_statement calls) fun _ value _ => Anything value := by
  have htail (arguments : List Expr) :
      Passes allowed bound (do return Stmt.print arguments (← parse_optional_redirect calls)) Anything :=
    (passes_optional_redirect hmessage hcalls).bind fun _ _ => .pure _ trivial
  have hnone : Passes allowed bound (pure [] : Parser (List Expr)) Anything := .pure _ trivial
  refine (takes_expect hmessage (by decide)).bind fun _ => ?_
  refine .of_current rfl fun _ => .ite (.pure _ trivial) (.of_current rfl fun _ => .ite ?_ ?_)
  · exact hnone.bind fun arguments _ => htail arguments
  · exact (passes_expressions hcalls _).bind fun arguments _ => htail arguments

theorem takes_printf : Takes allowed (bound + 1) (parse_printf_statement calls) fun _ value _ => Anything value := by
  have htail (arguments : List Expr) :
      Passes allowed bound (do return Stmt.printf arguments (← parse_optional_redirect calls)) Anything :=
    (passes_optional_redirect hmessage hcalls).bind fun _ _ => .pure _ trivial
  refine (takes_expect hmessage (by decide)).bind fun _ => .check_advance (by decide) ?_ ?_
  · exact (passes_expressions hcalls _).bind fun arguments _ =>
      (passes_expect hmessage (by decide)).bind fun _ _ => htail arguments
  · exact (passes_expressions hcalls _).bind fun arguments _ => htail arguments

theorem takes_exit : Takes allowed (bound + 1) (parse_exit_statement calls) fun _ value _ => Anything value :=
  (takes_expect hmessage (by decide)).bind fun _ => (passes_optional_value hcalls).bind fun _ _ =>
    .pure _ trivial

theorem takes_return : Takes allowed (bound + 1) (parse_return_statement calls) fun _ value _ => Anything value :=
  (takes_expect hmessage (by decide)).bind fun _ => (passes_optional_value hcalls).bind fun _ _ =>
    .pure _ trivial

theorem takes_delete : Takes allowed (bound + 1) (parse_delete_statement calls) fun _ value _ => Anything value :=
  (takes_expect hmessage (by decide)).bind fun _ => (passes_lvalue hmessage hcalls).bind fun _ _ => .pure _ trivial

theorem passes_parenthesized : Passes allowed bound (parse_parenthesized_expression calls) Anything := by
  cases bound with
  | zero => exact .of_zero
  | succ bound => exact (takes_parenthesized hmessage (hcalls.of_le (Nat.le_succ _))).passes

end Simple

section Nested

variable (hcalls : CallsTake allowed bound calls) (hself : Takes allowed bound self fun _ value _ => Anything value)

include hself in
theorem passes_body : Passes allowed bound (parse_body self) Anything :=
  passes_consume_separators.bind fun _ _ => hself.passes

include hmessage hself

theorem takes_braced : Takes allowed (bound + 1) (parse_braced_statements self) fun _ value _ => Anything value := by
  have hnext : Passes allowed bound next_statement Anything :=
    passes_consume_separators.bind fun _ _ => .ite (.check _ fun _ => .pure _ trivial) (.pure _ trivial)
  refine (takes_expect hmessage (by decide)).bind fun _ => passes_consume_separators.bind fun _ _ => ?_
  refine (passes_unless .rbrace [] ?_).bind fun _ _ => (passes_expect hmessage (by decide)).bind fun _ _ => .pure _ trivial
  exact hself.passes.bind fun _ _ => (passes_separated hnext hself).bind fun _ _ => .pure _ trivial

include hcalls

theorem takes_while : Takes allowed (bound + 1) (parse_while_statement calls self) fun _ value _ => Anything value :=
  (takes_expect hmessage (by decide)).bind fun _ => (passes_parenthesized hmessage hcalls).bind fun _ _ =>
    (passes_body hself).bind fun _ _ => .pure _ trivial

theorem takes_do_while : Takes allowed (bound + 1) (parse_do_while_statement calls self) fun _ value _ => Anything value :=
  (takes_expect hmessage (by decide)).bind fun _ => (passes_body hself).bind fun _ _ =>
    passes_consume_separators.bind fun _ _ => (passes_expect hmessage (by decide)).bind fun _ _ =>
      (passes_parenthesized hmessage hcalls).bind fun _ _ => .pure _ trivial

theorem passes_for_in : Passes allowed bound (parse_for_in_statement calls self) Anything :=
  (passes_expect hmessage (by decide)).bind fun _ _ => (passes_expect hmessage (by decide)).bind fun _ _ =>
    (passes_expression hcalls []).bind fun _ _ => (passes_expect hmessage (by decide)).bind fun _ _ =>
      (passes_body hself).bind fun _ _ => .pure _ trivial

theorem passes_classic_for : Passes allowed bound (parse_classic_for_statement calls self) Anything := by
  have hlist (kind : TokenKind) :
      Passes allowed bound (parse_unless kind [] (parse_expression_list calls [])) Anything :=
    passes_unless _ _ (passes_expressions hcalls []).anything
  refine (hlist .semicolon).bind fun _ _ => (passes_expect hmessage (by decide)).bind fun _ _ => ?_
  refine (passes_unless _ _ ((passes_expression hcalls []).map some)).bind fun _ _ => ?_
  refine (passes_expect hmessage (by decide)).bind fun _ _ => (hlist .rparen).bind fun _ _ => ?_
  exact (passes_expect hmessage (by decide)).bind fun _ _ => (passes_body hself).bind fun _ _ => .pure _ trivial

theorem takes_for : Takes allowed (bound + 1) (parse_for_statement calls self) fun _ value _ => Anything value := by
  refine (takes_expect hmessage (by decide)).bind fun _ => (passes_expect hmessage (by decide)).bind fun _ _ => ?_
  intro tokens hready hlength
  obtain ⟨token, rest, rfl⟩ := hready.exists_cons
  rw [meets_bind, meets_current, meets_bind, meets_peek_kind, meets_ite]
  split
  · exact passes_for_in hmessage hcalls hself _ hready hlength
  · exact passes_classic_for hmessage hcalls hself _ hready hlength

theorem takes_if : Takes allowed (bound + 1) (parse_if_statement calls self) fun _ value _ => Anything value := by
  refine (takes_expect hmessage (by decide)).bind fun _ => (passes_parenthesized hmessage hcalls).bind fun _ _ => ?_
  refine (passes_body hself).bind fun then_branch _ tokens hready hlength => ?_
  rw [meets_bind, TokenParser.meets_get, meets_bind]
  refine (passes_consume_separators tokens hready hlength).mono fun _ rest ⟨hrest, hle, _⟩ => ?_
  obtain ⟨token, last, rfl⟩ := hrest.exists_cons
  rw [meets_bind, meets_check]
  split_ifs with h
  · rw [beq_iff_eq] at h
    have hkind : token.kind ≠ .eof := by rw [h]; decide
    rw [meets_bind, meets_advance hkind, meets_bind]
    rw [List.length_cons] at hle
    refine (passes_body hself last (hrest.tail hkind) (by omega)).mono fun _ _ ⟨hlast, hle', _⟩ => ?_
    exact ⟨hlast, by omega, trivial⟩
  · exact ⟨hready, Nat.le_refl _, trivial⟩

theorem takes_statement (hcalls' : CallsTake allowed (bound + 1) calls) :
    Takes allowed (bound + 1) (parse_statement calls self) fun _ value _ => Anything value := by
  have hword (kind : TokenKind) (hkind : kind ≠ .eof) (statement : Stmt) :
      Takes allowed (bound + 1) (parse_word_statement kind statement) fun _ value _ => Anything value :=
    (takes_expect hmessage hkind).bind fun _ => .pure _ trivial
  refine .current fun token => ?_
  split
  · exact ((takes_braced hmessage hself).map _).weaken fun _ _ _ _ => trivial
  · exact hword _ (by decide) _
  · exact hword _ (by decide) _
  · exact takes_delete hmessage hcalls
  · exact takes_do_while hmessage hcalls hself
  · exact takes_exit hmessage hcalls
  · exact takes_for hmessage hcalls hself
  · exact takes_if hmessage hcalls hself
  · exact hword _ (by decide) _
  · exact hword _ (by decide) _
  · exact takes_print hmessage hcalls
  · exact takes_printf hmessage hcalls
  · exact takes_return hmessage hcalls
  · exact takes_while hmessage hcalls hself
  · split_ifs
    · refine (hcalls'.assignment []).bind fun expression => ?_
      split <;> exact .pure _ trivial
    · exact fun tokens _ _ => hmessage _

end Nested

include hmessage in
/-- As many levels as there are tokens are enough for the statements, too. -/
theorem statement_calls_take {limit : Nat} (hcalls : CallsTake allowed limit calls) {depth : Nat} (hdepth : depth ≤ limit) :
    Takes allowed depth (statement_calls calls depth) fun _ value _ => Anything value := by
  induction depth with
  | zero => exact .of_zero
  | succ depth ih =>
    have hless := Nat.le_of_succ_le hdepth
    exact takes_statement hmessage (hcalls.of_le hless) (ih hless) (hcalls.of_le hdepth)

end Statements

/-- A token that a program is made of. -/
def HasItem (tokens : List Token) : Prop := ∃ token ∈ tokens, is_separator token = false ∧ token.kind ≠ .eof

instance (tokens : List Token) : Decidable (HasItem tokens) := inferInstanceAs (Decidable (∃ token ∈ tokens, _))

theorem HasItem.first {tokens : List Token} (h : HasItem tokens) (hended : EofEnded tokens) :
    ∃ token rest, tokens.dropWhile is_separator = token :: rest ∧ token.kind ≠ .eof := by
  induction hended with
  | eof hkind =>
    obtain ⟨token, hmem, _, hother⟩ := h
    rw [List.mem_singleton] at hmem
    exact absurd (hmem ▸ hkind) hother
  | @cons token rest hkind hrest ih =>
    obtain ⟨other, hmem, hseparator, hother⟩ := h
    rw [List.dropWhile_cons]
    split_ifs with htoken
    · obtain rfl | hmem := List.mem_cons.mp hmem
      · rw [htoken] at hseparator
        cases hseparator
      · exact ih ⟨other, hmem, hseparator, hother⟩
    · exact ⟨token, rest, rfl, hkind⟩

theorem dropWhile_of_not_hasItem {tokens : List Token} (h : ¬ HasItem tokens) (hended : EofEnded tokens) :
    ∃ token, tokens.dropWhile is_separator = [token] ∧ token.kind = .eof := by
  induction hended with
  | @eof token hkind => exact ⟨token, List.dropWhile_cons_of_neg (by simp [is_separator, hkind]), hkind⟩
  | @cons token rest hkind hrest ih =>
    have htoken : is_separator token = true := by
      by_contra hseparator
      exact h ⟨token, List.mem_cons_self, Bool.eq_false_of_not_eq_true hseparator, hkind⟩
    rw [List.dropWhile_cons_of_pos htoken]
    refine ih fun hitem => ?_
    obtain ⟨other, hmem, hother⟩ := hitem
    exact h ⟨other, List.mem_cons_of_mem _ hmem, hother⟩

section Items

variable {calls : ExpressionCalls} {statement : Parser Stmt} (hmessage : ∀ message, allowed (.parse_error message))
  (hcalls : CallsTake allowed (bound + 1) calls)
  (hstatement : Takes allowed (bound + 1) statement fun _ value _ => Anything value)

include hcalls in
theorem takes_pattern_atom : Takes allowed (bound + 1) (parse_pattern_atom calls) fun _ value _ => Anything value := by
  intro tokens hready hlength
  obtain ⟨token, rest, rfl⟩ := hready.exists_cons
  unfold parse_pattern_atom
  rw [meets_bind, meets_current]
  split
  · next hkind =>
    rw [meets_bind, meets_advance (by rw [hkind]; decide)]
    exact ⟨hready.tail (by rw [hkind]; decide), Nat.lt_succ_self _, trivial⟩
  · next hkind =>
    rw [meets_bind, meets_advance (by rw [hkind]; decide)]
    exact ⟨hready.tail (by rw [hkind]; decide), Nat.lt_succ_self _, trivial⟩
  · exact ((hcalls.assignment []).map _).weaken (fun _ _ _ _ => trivial) _ hready hlength

include hcalls in
theorem takes_pattern : Takes allowed (bound + 1) (parse_pattern calls) fun _ value _ => Anything value :=
  (takes_pattern_atom hcalls).bind fun _ => .check_advance (by decide)
    (((takes_pattern_atom hcalls).of_le (Nat.le_succ _)).passes.bind fun _ _ => .pure _ trivial) (.pure _ trivial)

include hmessage hstatement

theorem takes_action : Takes allowed (bound + 1) (parse_action statement) fun _ value _ => Anything value :=
  takes_braced hmessage (hstatement.of_le (Nat.le_succ _))

theorem takes_function_definition :
    Takes allowed (bound + 1) (parse_function_definition statement) fun _ value _ => Anything value := by
  have haction : Passes allowed bound (parse_action statement) Anything :=
    ((takes_action hmessage hstatement).of_le (Nat.le_succ _)).passes
  have hparams : Passes allowed bound parse_parameter_list Anything := by
    refine .check _ fun _ => .ite (.pure _ trivial) ?_
    cases bound with
    | zero => exact .of_zero
    | succ bound => exact (takes_comma_separated ((takes_expect hmessage (by decide)).map _)).passes
  refine (takes_expect hmessage (by decide)).bind fun _ => (passes_expect hmessage (by decide)).bind fun _ _ => ?_
  refine (passes_expect hmessage (by decide)).bind fun _ _ => hparams.bind fun _ _ => ?_
  exact (passes_expect hmessage (by decide)).bind fun _ _ => haction.bind fun _ _ => .pure _ trivial

include hcalls

theorem takes_pattern_action :
    Takes allowed (bound + 1) (parse_pattern_action calls statement) fun _ value _ => Anything value := by
  have haction : Passes allowed bound (parse_action statement) Anything :=
    ((takes_action hmessage hstatement).of_le (Nat.le_succ _)).passes
  have hnone : Passes allowed bound (pure none : Parser (Option Action)) Anything := .pure _ trivial
  refine .check _ fun _ => .ite ((takes_action hmessage hstatement).bind fun _ => .pure _ trivial) ?_
  refine (takes_pattern hcalls).bind fun _ => .check _ fun _ => .ite ?_ (hnone.bind fun _ _ => .pure _ trivial)
  exact (haction.map some).bind fun _ _ => .pure _ trivial

theorem takes_separated_item :
    Takes allowed (bound + 1) (parse_separated_item calls statement) fun _ value _ => Anything value := by
  have hitem : Takes allowed (bound + 1) (parse_item calls statement) fun _ value _ => Anything value :=
    .check _ fun _ => .ite (takes_function_definition hmessage hstatement)
      (takes_pattern_action hmessage hcalls hstatement)
  exact hitem.bind fun _ => passes_consume_separators.bind fun _ _ => .pure _ trivial

/-- A program with a token to read is parsed or refused. -/
theorem program_meets {tokens : List Token} (hready : Ready allowed tokens) (hlength : tokens.length ≤ bound + 1)
    (hitem : HasItem tokens) : Meets (parse_program calls statement) tokens (fun _ _ => True) allowed := by
  unfold parse_program
  rw [meets_bind]
  have hseparators := passes_consume_separators tokens hready hlength
  refine (hseparators.and (meets_consume_separators hready.ended)).mono fun _ rest hskipped => ?_
  obtain ⟨⟨hrest, hle, -⟩, hdrop⟩ := hskipped
  obtain ⟨token, later, hcons, hkind⟩ := hitem.first hready.ended
  rw [← hdrop] at hcons
  subst hcons
  unfold with_turns
  rw [meets_bind, meets_bind, TokenParser.meets_get]
  unfold TokenParser.separated next_item
  rw [meets_bind, meets_bind, meets_check, meets_pure, if_pos (by simpa using hkind), meets_bind]
  have htakes := takes_separated_item hmessage hcalls hstatement
  refine (htakes _ hrest (by omega)).mono fun item after htaken => ?_
  obtain ⟨hafter, hless, -⟩ := htaken
  have hnext : Passes allowed (bound + 1) next_item Anything := .check _ fun _ => .pure _ trivial
  rw [meets_bind]
  refine (meets_turns hnext htakes hafter (by omega) hless).mono fun items last hturns => ?_
  obtain ⟨hlast, -, -⟩ := hturns
  obtain ⟨token, behind, rfl⟩ := hlast.exists_cons
  rw [meets_pure, meets_bind]
  exact meets_expect .eof (fun _ => trivial) (hmessage _)

end Items

/-- Where there is nothing but separators, the token for the error is looked for behind the end. -/
theorem empty_program (calls : ExpressionCalls) (statement : Parser Stmt) {tokens : List Token} (h : EofEnded tokens)
    (hitem : ¬ HasItem tokens) :
    Meets (parse_program calls statement) tokens (fun _ _ => False) (· = .index_error) := by
  obtain ⟨token, hdrop, hkind⟩ := dropWhile_of_not_hasItem hitem h
  unfold parse_program
  rw [meets_bind]
  refine (meets_consume_separators h).mono fun _ rest hrest => ?_
  rw [hdrop] at hrest
  subst hrest
  unfold with_turns
  rw [meets_bind, meets_bind, TokenParser.meets_get]
  unfold TokenParser.separated next_item
  rw [meets_bind, meets_bind, meets_check, meets_pure, if_neg (by simp [hkind]), meets_pure, meets_bind]
  unfold expect
  rw [meets_bind, meets_current, if_pos hkind]
  exact rfl

end quawk
