import Quawk.PosixPrinting

open TokenParser (run_bind run_bind_error left_assoc left_assoc_stop left_assoc_turn separated separated_stop
  separated_turn)

namespace quawk

section Levels

variable (self : ExpressionCalls)

/-- The functions of the expression parser, from assignments at 0 to primaries at 13. -/
def parse_level : Nat → Parser Expr
  | 0 => parse_assignment_expression self []
  | 1 => parse_conditional_expression self []
  | 2 => parse_logical_or_expression self []
  | 3 => parse_logical_and_expression self []
  | 4 => parse_comparison_expression self []
  | 5 => parse_match_expression self
  | 6 => parse_in_expression self
  | 7 => parse_concat_expression self
  | 8 => parse_additive_expression self
  | 9 => parse_multiplicative_expression self
  | 10 => parse_power_expression self
  | 11 => parse_unary_expression self
  | 12 => parse_postfix_expression self
  | _ => parse_primary_expression self

/-- The levels whose operators group to the left. -/
def CHAIN_LEVELS : List Nat := [2, 3, 4, 5, 7, 8, 9]

def level_operators : Nat → TokenKind → Option BinaryOp
  | 2 => logical_or_from_token
  | 3 => logical_and_from_token
  | 4 => comparison_op_from_token
  | 5 => match_op_from_token
  | 8 => additive_op_from_token
  | 9 => multiplicative_op_from_token
  | _ => fun _ => none

def chain_operator : Nat → Parser (Option BinaryOp)
  | 7 => concat_operator
  | level => operator_token [] (level_operators level)

theorem parse_level_chain {level : Nat} (hchain : level ∈ CHAIN_LEVELS) :
    parse_level self level = binary_level (chain_operator level) (parse_level self (level + 1)) := by
  simp only [CHAIN_LEVELS, List.mem_cons, List.not_mem_nil, or_false] at hchain
  obtain rfl | rfl | rfl | rfl | rfl | rfl | rfl := hchain <;> rfl

end Levels

/-- The lowest level that does not go on behind `tokens` with a token of this kind. -/
def follow_level (tokens : List Token) : TokenKind → Nat
  | .lbracket => 14
  | .plus_plus | .minus_minus => if ends_in_increment tokens then 8 else 13
  | .caret => 11
  | .star | .slash | .percent => 10
  | .plus | .minus => 9
  | .lparen => if ends_in_name tokens then 14 else 8
  | .string | .number | .regex | .ident | .dollar | .bang => 8
  | .in_kw => 7
  | .match_op | .not_match => 6
  | .less | .less_equal | .greater | .greater_equal | .equal_equal | .not_equal => 5
  | .and_and => 4
  | .or_or => 3
  | .question => 2
  | .equal | .plus_equal | .minus_equal | .star_equal | .slash_equal | .percent_equal | .caret_equal => 1
  | _ => 0

/-- Tokens that end an expression of `level` written as `tokens`. -/
inductive Follows (level : Nat) (tokens : List Token) : List Token → Prop where
  | intro {token : Token} {rest : List Token} (hlevel : follow_level tokens token.kind ≤ level) :
    Follows level tokens (token :: rest)

theorem Follows.mono {level more : Nat} {tokens rest : List Token} (h : Follows level tokens rest)
    (hle : level ≤ more) : Follows more tokens rest := by
  obtain ⟨hlevel⟩ := h
  exact ⟨hlevel.trans hle⟩

theorem last_kind_append {left right : List Token} (hright : right ≠ []) :
    last_kind (left ++ right) = last_kind right := by
  unfold last_kind
  rw [List.getLast?_append_of_ne_nil left hright]

theorem follow_level_congr {left right : List Token} (h : last_kind left = last_kind right) :
    follow_level left = follow_level right := by
  funext kind
  unfold follow_level ends_in_increment ends_in_name
  rw [h]

theorem Follows.of_append {level : Nat} {left right rest : List Token} (h : Follows level (left ++ right) rest)
    (hright : right ≠ []) : Follows level right rest := by
  obtain ⟨hlevel⟩ := h
  rw [follow_level_congr (last_kind_append hright)] at hlevel
  exact ⟨hlevel⟩

theorem Follows.of_cons {level : Nat} {token : Token} {tokens rest : List Token}
    (h : Follows level (token :: tokens) rest) (htokens : tokens ≠ []) : Follows level tokens rest :=
  Follows.of_append (by exact h : Follows level ([token] ++ tokens) rest) htokens

/-- The parser reads `tokens` at `level` as `expression`, wherever they stand before something else. -/
def Reads (level : Nat) (tokens : List Token) (expression : Expr) : Prop :=
  ∀ depth rest, tokens.length ≤ depth → Follows level tokens rest →
    parse_level (expression_calls depth) level (tokens ++ rest) = .ok (expression, rest)

/-- The loop of a level comes behind `tokens` with `expression` in hand, and may go on. -/
def Accumulates (level : Nat) (tokens : List Token) (expression : Expr) : Prop :=
  level ∈ CHAIN_LEVELS → ∀ depth rest, tokens.length ≤ depth → Follows (level + 1) tokens rest →
    ∃ turns, rest.length < turns ∧ parse_level (expression_calls depth) level (tokens ++ rest) =
      left_assoc (chain_operator level) (parse_level (expression_calls depth) (level + 1)) .binary .unfinished turns
        expression rest

theorem Reads.accumulates {level : Nat} {tokens : List Token} {expression : Expr}
    (h : Reads (level + 1) tokens expression) : Accumulates level tokens expression := by
  intro hchain depth rest hlength hfollows
  refine ⟨rest.length + 1, by omega, ?_⟩
  rw [parse_level_chain _ hchain, binary_level, run_bind (h depth rest hlength hfollows)]
  rfl

theorem Accumulates.step {level : Nat} {left middle right : List Token} {first second : Expr} {op : BinaryOp}
    (hleft : Accumulates level left first) (hright : Reads (level + 1) right second) (hne : right ≠ [])
    (hoperator : ∀ rest, chain_operator level (middle ++ (right ++ rest)) = .ok (some op, right ++ rest))
    (hfollows : ∀ rest, Follows (level + 1) left (middle ++ (right ++ rest))) :
    Accumulates level (left ++ middle ++ right) (.binary first op second) := by
  intro hchain depth rest hlength hrest
  simp only [List.length_append] at hlength
  obtain ⟨turns, hturns, hrun⟩ := hleft hchain depth (middle ++ (right ++ rest)) (by omega) (hfollows rest)
  have hpos := List.length_pos_iff.mpr hne
  simp only [List.length_append] at hturns
  obtain ⟨turns, rfl⟩ : ∃ fewer, turns = fewer + 1 := ⟨turns - 1, by omega⟩
  refine ⟨turns, by omega, ?_⟩
  rw [List.append_assoc, List.append_assoc, hrun]
  exact left_assoc_turn (hoperator rest) (hright depth rest (by omega) (hrest.of_append hne))

section Ends

variable {token : Token} {rest : List Token} {level : Nat}

theorem run_current : current (token :: rest) = .ok (token, token :: rest) := rfl

theorem run_check (kind : TokenKind) : check kind (token :: rest) = .ok (token.kind == kind, token :: rest) := rfl

theorem run_advance (hkind : token.kind ≠ .eof) : advance (token :: rest) = .ok (token, rest) := by
  unfold advance
  have hget : (get : Parser (List Token)) (token :: rest) = .ok (token :: rest, token :: rest) := rfl
  rw [run_bind hget]
  dsimp only
  rw [if_neg hkind]
  rfl

theorem run_expect {kind : TokenKind} (hkind : token.kind = kind) : expect kind (token :: rest) = .ok (token, rest) := by
  unfold expect
  rw [run_bind run_current, if_pos hkind]
  rfl

theorem follow_level_of_operator {tokens : List Token} {kind : TokenKind} {op : BinaryOp}
    (h : level_operators level kind = some op) : follow_level tokens kind = level + 1 := by
  unfold level_operators at h
  split at h
  · unfold logical_or_from_token at h
    split at h <;> cases h
    rfl
  · unfold logical_and_from_token at h
    split at h <;> cases h
    rfl
  · unfold comparison_op_from_token at h
    split at h <;> cases h <;> rfl
  · unfold match_op_from_token at h
    split at h <;> cases h <;> rfl
  · unfold additive_op_from_token at h
    split at h <;> cases h <;> rfl
  · unfold multiplicative_op_from_token at h
    split at h <;> cases h <;> rfl
  · cases h

theorem expression_start_follow {tokens : List Token} {kind : TokenKind} (h : is_expression_start kind = true) :
    8 ≤ follow_level tokens kind := by
  simp only [is_expression_start, List.contains_iff_mem, List.mem_cons, List.not_mem_nil, or_false] at h
  obtain rfl | rfl | rfl | rfl | rfl | rfl | rfl | rfl | rfl | rfl | rfl := h <;> unfold follow_level <;> grind

theorem chain_operator_none {tokens : List Token} (hlevel : follow_level tokens token.kind ≤ level) :
    chain_operator level (token :: rest) = .ok (none, token :: rest) := by
  by_cases hconcat : level = 7
  · subst hconcat
    have hstart : ¬ is_expression_start token.kind = true := fun h => by
      have hstart : 8 ≤ follow_level tokens token.kind := expression_start_follow h
      omega
    change Except.ok (if is_expression_start token.kind then some BinaryOp.concat else none, token :: rest) = _
    rw [if_neg hstart]
  · have hnone : level_operators level token.kind = none := by
      by_contra h
      obtain ⟨op, hop⟩ := Option.ne_none_iff_exists'.mp h
      have hlevel' : follow_level tokens token.kind = level + 1 := follow_level_of_operator hop
      omega
    rw [chain_operator.eq_2 level hconcat, operator_token, run_bind run_current, hnone]
    rfl

end Ends

theorem Accumulates.reads {level : Nat} {tokens : List Token} {expression : Expr}
    (h : Accumulates level tokens expression) (hchain : level ∈ CHAIN_LEVELS) : Reads level tokens expression := by
  intro depth rest hlength hfollows
  obtain ⟨turns, hturns, hrun⟩ := h hchain depth rest hlength (hfollows.mono (Nat.le_succ level))
  obtain ⟨turns, rfl⟩ : ∃ fewer, turns = fewer + 1 := ⟨turns - 1, by omega⟩
  obtain ⟨hlevel⟩ := hfollows
  rw [hrun, left_assoc_stop (chain_operator_none hlevel)]

theorem assignment_op_none {tokens : List Token} {kind : TokenKind} (h : follow_level tokens kind ≤ 0) :
    assignment_op_from_token kind = none := by
  by_contra hne
  obtain ⟨op, hop⟩ := Option.ne_none_iff_exists'.mp hne
  unfold assignment_op_from_token at hop
  split at hop <;> cases hop <;> cases h

/-- A token that ends a level is no operator of the level. -/
theorem kind_ne_of_follow {tokens : List Token} {kind other : TokenKind} {level : Nat}
    (h : follow_level tokens kind ≤ level) (hother : level < follow_level tokens other) : (kind == other) = false :=
  beq_false_of_ne fun heq => by
    rw [heq] at h
    omega

theorem postfix_op_none {tokens : List Token} {kind : TokenKind} (h : follow_level tokens kind ≤ 12)
    (hincrement : ends_in_increment tokens = false) : postfix_op_from_token kind = none := by
  unfold postfix_op_from_token
  split
  · rw [follow_level, hincrement, if_neg Bool.false_ne_true] at h
    omega
  · rw [follow_level, hincrement, if_neg Bool.false_ne_true] at h
    omega
  · rfl

/-- A sign before an operand is no operand. -/
theorem postfix_of_sign (self : ExpressionCalls) {token : Token} (rest : List Token) {op : UnaryOp}
    (h : unary_op_from_token token.kind = some op) :
    ∃ failure, parse_postfix_expression self (token :: rest) = .error failure := by
  have hprimary : ∃ failure, parse_primary_expression self (token :: rest) = .error failure := by
    unfold parse_primary_expression
    rw [run_bind run_current]
    cases hkind : token.kind <;> rw [hkind] at h <;> cases h <;> exact ⟨_, rfl⟩
  obtain ⟨failure, hfailure⟩ := hprimary
  exact ⟨failure, run_bind_error hfailure _⟩

theorem Reads.lower {level : Nat} {tokens : List Token} {expression : Expr} (h : Reads (level + 1) tokens expression)
    (hne : tokens ≠ []) (hlevel : level < 12) : Reads level tokens expression := by
  by_cases hchain : level ∈ CHAIN_LEVELS
  · exact h.accumulates.reads hchain
  intro depth rest hlength hfollows
  have hrun := h depth rest hlength (hfollows.mono (Nat.le_succ level))
  obtain ⟨hfollow⟩ := hfollows
  simp only [CHAIN_LEVELS, List.mem_cons, List.not_mem_nil, or_false, not_or] at hchain
  obtain rfl | rfl | rfl | rfl | rfl : level = 0 ∨ level = 1 ∨ level = 6 ∨ level = 10 ∨ level = 11 := by omega
  · change parse_assignment_expression _ _ _ = _
    unfold parse_assignment_expression
    have hoperand : parse_conditional_expression _ [] _ = _ := hrun
    rw [run_bind hoperand, run_bind run_current, assignment_op_none hfollow]
    rfl
  · change parse_conditional_expression _ _ _ = _
    unfold parse_conditional_expression
    have hoperand : parse_logical_or_expression _ [] _ = _ := hrun
    rw [run_bind hoperand, run_bind (run_check .question), kind_ne_of_follow hfollow (by simp [follow_level])]
    rfl
  · change parse_in_expression _ _ = _
    unfold parse_in_expression
    have hoperand : parse_concat_expression _ _ = _ := hrun
    rw [run_bind hoperand, run_bind (run_check .in_kw), kind_ne_of_follow hfollow (by simp [follow_level])]
    rfl
  · change parse_power_expression _ _ = _
    unfold parse_power_expression
    have hoperand : parse_unary_expression _ _ = _ := hrun
    rw [run_bind hoperand, run_bind (run_check .caret), kind_ne_of_follow hfollow (by simp [follow_level])]
    rfl
  · obtain ⟨first, more, rfl⟩ := List.exists_cons_of_ne_nil hne
    change parse_unary_expression _ _ = _
    unfold parse_unary_expression
    rw [List.cons_append, run_bind run_current]
    cases hop : unary_op_from_token first.kind with
    | none => exact hrun
    | some op =>
      obtain ⟨failure, hfailure⟩ := postfix_of_sign (expression_calls depth) (more ++ _) hop
      rw [List.cons_append] at hrun
      exact absurd (hrun.symm.trans hfailure) fun h => by cases h

/-- A primary is an expression of the next level if it does not end in an increment itself. -/
theorem Reads.postfix_level {tokens : List Token} {expression : Expr} (h : Reads 13 tokens expression)
    (hincrement : ends_in_increment tokens = false) : Reads 12 tokens expression := by
  intro depth rest hlength hfollows
  have hrun := h depth rest hlength (hfollows.mono (by decide))
  obtain ⟨hfollow⟩ := hfollows
  change parse_postfix_expression _ _ = _
  unfold parse_postfix_expression
  have hoperand : parse_primary_expression _ _ = _ := hrun
  rw [run_bind hoperand, run_bind run_current, postfix_op_none hfollow hincrement]
  rfl

theorem Reads.le {level less : Nat} {tokens : List Token} {expression : Expr} (h : Reads level tokens expression)
    (hne : tokens ≠ []) (hlevel : level ≤ 12) (hle : less ≤ level) : Reads less tokens expression := by
  induction level with
  | zero => exact Nat.le_zero.mp hle ▸ h
  | succ level ih =>
    obtain rfl | hless := Nat.eq_or_lt_of_le hle
    · exact h
    · exact ih (h.lower hne (by omega)) (by omega) (by omega)

theorem run_expect_sign (kind : TokenKind) (rest : List Token) : expect kind (sign kind :: rest) = .ok (sign kind, rest) :=
  run_expect rfl

theorem follows_sign {level : Nat} {tokens rest : List Token} {kind : TokenKind} (h : follow_level tokens kind ≤ level) :
    Follows level tokens (sign kind :: rest) := ⟨h⟩

/-- An expression in parentheses is a primary. -/
theorem Reads.parenthesized {tokens : List Token} {expression : Expr} (h : Reads 0 tokens expression) :
    Reads 13 (sign .lparen :: tokens ++ [sign .rparen]) expression := by
  intro depth rest hlength _
  simp only [List.cons_append, List.length_cons, List.length_append, List.length_nil] at hlength
  obtain ⟨depth, rfl⟩ : ∃ less, depth = less + 1 := ⟨depth - 1, by omega⟩
  have hinner : parse_expression (expression_calls (depth + 1)) [] (tokens ++ sign .rparen :: rest) =
      .ok (expression, sign .rparen :: rest) := h depth _ (by omega) (follows_sign (Nat.le_refl 0))
  have hparens : parse_parenthesized_expression (expression_calls (depth + 1))
      (sign .lparen :: (tokens ++ sign .rparen :: rest)) = .ok (expression, rest) := by
    unfold parse_parenthesized_expression
    rw [run_bind (run_expect_sign .lparen _), run_bind hinner, run_bind (run_expect_sign .rparen _)]
    rfl
  rw [List.cons_append, List.cons_append, List.append_assoc]
  exact hparens

theorem parser_level_le (expression : Expr) : parser_level expression ≤ 13 := by
  unfold parser_level
  split <;> try omega
  next op _ => cases op <;> decide

theorem posix_level_of_primary {expression : Expr} (h : 13 ≤ parser_level expression) : 13 ≤ posix_level expression := by
  unfold parser_level at h
  split at h <;> try omega
  · next op _ => cases op <;> exact absurd h (by decide)
  · unfold posix_level
    split <;> first | omega | simp_all

/-- What is known of the tokens that an expression is written with. -/
structure Parsed (tokens : List Token) (expression : Expr) : Prop where
  starts : ∃ token rest, tokens = token :: rest ∧ is_expression_start token.kind = true
  ends : 13 ≤ posix_level expression → ends_in_increment tokens = false
  reads : Reads (parser_level expression) tokens expression
  accumulates : Accumulates (parser_level expression) tokens expression

namespace Parsed

variable {tokens : List Token} {expression : Expr} {posix_least least level : Nat}

theorem ne_nil (h : Parsed tokens expression) : tokens ≠ [] := by
  obtain ⟨token, rest, rfl, _⟩ := h.starts
  exact List.cons_ne_nil token rest

/-- An expression may stand where a looser one may. -/
theorem reads_le (h : Parsed tokens expression) (hle : least ≤ parser_level expression) :
    Reads least tokens expression := by
  have hlevel := parser_level_le expression
  have hreads := h.reads
  by_cases hprimary : parser_level expression = 13
  · rw [hprimary] at hreads hle
    obtain rfl | hless := Nat.eq_or_lt_of_le hle
    · exact hreads
    · exact (hreads.postfix_level (h.ends (posix_level_of_primary hprimary.ge))).le h.ne_nil (by omega) (by omega)
  · exact hreads.le h.ne_nil (by omega) hle

theorem reads_parenthesized (h : Parsed tokens expression) (hleast : least ≤ 13) :
    Reads least (sign .lparen :: tokens ++ [sign .rparen]) expression := by
  have hprimary := (h.reads_le (Nat.zero_le _)).parenthesized
  obtain rfl | hless := Nat.eq_or_lt_of_le hleast
  · exact hprimary
  · have hend : ends_in_increment (sign .lparen :: tokens ++ [sign .rparen]) = false := by
      unfold ends_in_increment
      rw [last_kind_append (List.cons_ne_nil _ _)]
      rfl
    exact (hprimary.postfix_level hend).le (List.cons_ne_nil _ _) (by omega) (by omega)

theorem reads_enclosed (h : Parsed tokens expression) (hfits : operand_fits posix_least least expression = true)
    (hleast : least ≤ 13) : Reads least (enclosed posix_least expression tokens) expression := by
  unfold enclosed
  split
  · exact h.reads_parenthesized hleast
  · next hbare =>
    rw [operand_fits, Bool.or_eq_true, decide_eq_true_eq, decide_eq_true_eq] at hfits
    exact h.reads_le (hfits.resolve_left hbare)

/-- The operand that an operator of a chain groups with. -/
theorem accumulates_enclosed (h : Parsed tokens expression) (hfits : operand_fits posix_least level expression = true)
    (hlevel : level < 13) : Accumulates level (enclosed posix_least expression tokens) expression := by
  unfold enclosed
  split
  · exact (h.reads_parenthesized hlevel).accumulates
  · next hbare =>
    rw [operand_fits, Bool.or_eq_true, decide_eq_true_eq, decide_eq_true_eq] at hfits
    obtain heq | hless := Nat.eq_or_lt_of_le (hfits.resolve_left hbare)
    · exact heq ▸ h.accumulates
    · exact (h.reads_le hless).accumulates

theorem enclosed_starts (h : Parsed tokens expression) (posix_least : Nat) :
    ∃ token rest, enclosed posix_least expression tokens = token :: rest ∧ is_expression_start token.kind = true := by
  unfold enclosed
  split
  · exact ⟨sign .lparen, tokens ++ [sign .rparen], rfl, rfl⟩
  · exact h.starts

theorem enclosed_ne_nil (h : Parsed tokens expression) (posix_least : Nat) :
    enclosed posix_least expression tokens ≠ [] := by
  obtain ⟨token, rest, heq, _⟩ := h.enclosed_starts posix_least
  exact heq ▸ List.cons_ne_nil token rest

/-- An operand of `$` or of a postfix operator ends in no increment. -/
theorem enclosed_ends (h : Parsed tokens expression) : ends_in_increment (enclosed 13 expression tokens) = false := by
  unfold enclosed
  split
  · unfold ends_in_increment
    rw [last_kind_append (List.cons_ne_nil _ _)]
    rfl
  · next hbare => exact h.ends (Nat.le_of_not_lt hbare)

end Parsed

end quawk
