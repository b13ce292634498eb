import Quawk.ExpressionLevels

open TokenParser (Meets meets_bind run_bind run_bind_error)

namespace quawk

section Posix

-- The parser of a primary, and the calls of the expression parser.
variable (primary : Parser Expr) (self : ExpressionCalls)

/-- A primary, and the kind of the token behind it. -/
def posix_operand : Parser (Expr × TokenKind) := do
  let expression ← primary
  let token ← current
  return (expression, token.kind)

/-- The target of a `getline`; the index of a field is a primary. -/
def posix_getline_target : Parser (Option LValue × List TokenKind) := do
  let token ← current
  if token.kind = .dollar then
    let _ ← advance
    let (index, behind) ← posix_operand primary
    return (some (.field index), [behind])
  else if token.kind = .ident then return (some (← parse_lvalue self), [])
  else return (none, [])

/-- The file after `<`, which is a primary; a field is one. -/
def posix_getline_source : Parser (Option Expr × List TokenKind) := do
  if ← check .less then
    let _ ← advance
    let (source, behind) ← posix_operand primary
    return (some source, [behind])
  else return (none, [])

/-- A `getline` with the operands that POSIX gives it, and the kinds of the tokens behind its primaries. -/
def posix_getline_expression : Parser (Expr × List TokenKind) := do
  let _ ← expect .ident
  let (target, behind_target) ← posix_getline_target primary self
  let (source, behind_source) ← posix_getline_source primary
  return (.getline target source, behind_target ++ behind_source)

end Posix

def parse_getline_target (self : ExpressionCalls) : Parser (Option LValue) := do
  let token ← current
  if token.kind = .ident ∨ token.kind = .dollar then some <$> parse_lvalue self else pure none

/-- A target does not start with `<`, so the first test of the parser is one for the source without a target. -/
theorem parse_getline_eq (self : ExpressionCalls) (word token : Token) (rest : List Token) (hword : word.kind = .ident) :
    parse_getline_expression self (word :: token :: rest) = (do
      let target ← parse_getline_target self
      let source ← parse_getline_source self
      return .getline target source : Parser Expr) (token :: rest) := by
  unfold parse_getline_expression
  rw [run_bind (run_expect hword), run_bind (run_check .less)]
  cases hless : token.kind == .less with
  | false =>
    rw [if_neg Bool.false_ne_true, run_bind run_current]
    change _ = (parse_getline_target self (token :: rest) >>= _)
    unfold parse_getline_target
    rw [run_bind run_current]
    split_ifs <;> rfl
  | true =>
    have hkind : token.kind = .less := beq_iff_eq.mp hless
    have htarget : parse_getline_target self (token :: rest) = .ok (none, token :: rest) := by
      rw [parse_getline_target, run_bind run_current, hkind]
      rfl
    rw [run_bind htarget]
    rfl

section Operands

variable {depth : Nat} {tokens rest : List Token}

theorem run_of_operand {primary : Parser Expr} {expression : Expr} {kind : TokenKind}
    (h : posix_operand primary tokens = .ok ((expression, kind), rest)) :
    ∃ token inner, rest = token :: inner ∧ kind = token.kind ∧ primary tokens = .ok (expression, rest) := by
  obtain ⟨value, later, hprimary, hnext⟩ := run_of_bind h
  cases later with
  | nil => cases hnext
  | cons token inner =>
    cases hnext
    exact ⟨token, inner, rfl, rfl, hprimary⟩

/-- What is read for an operand, if no token that goes on with an expression stands behind it, and else. -/
structure OperandAgrees {α : Type} (parser : Parser α) (tokens : List Token) (value : α) (rest : List Token)
    (behind : List TokenKind) : Prop where
  same : (∀ kind ∈ behind, continues [] kind = false) → parser tokens = .ok (value, rest)
  other : ¬(∀ kind ∈ behind, continues [] kind = false) →
    ∀ value' last, parser tokens = .ok (value', last) → value' ≠ value

theorem operand_agrees {expression : Expr} {kind : TokenKind} (hended : EofEnded tokens)
    (hlength : tokens.length ≤ depth + 1)
    (h : posix_operand (parse_primary_expression (expression_calls depth)) tokens = .ok ((expression, kind), rest)) :
    OperandAgrees (parse_expression (expression_calls (depth + 1)) []) tokens expression rest [kind] := by
  obtain ⟨token, inner, rfl, rfl, hprimary⟩ := run_of_operand h
  refine ⟨fun hkind => expression_stays hended hlength hprimary (hkind _ (List.mem_singleton_self _)),
    fun hkind value last hrun => ?_⟩
  have hcontinues : continues [] token.kind = true := by
    by_contra hnot
    exact hkind fun kind hmem => (List.mem_singleton.mp hmem).symm ▸ Bool.eq_false_of_not_eq_true hnot
  have hgoes := expression_goes hended hlength hprimary hcontinues
  unfold GoesPast Meets at hgoes
  have hrun' : parse_assignment_expression (expression_calls depth) [] tokens = .ok (value, last) := hrun
  rw [hrun'] at hgoes
  exact hgoes.2.2

theorem target_of_field (self : ExpressionCalls) {token : Token} {inner : List Token} (hdollar : token.kind = .dollar) :
    parse_getline_target self (token :: inner) =
      (parse_expression self [] >>= fun index => pure (some (.field index)) : Parser (Option LValue)) inner := by
  have hne : token.kind ≠ .eof := by rw [hdollar]; decide
  have hlvalue : parse_lvalue self (token :: inner) =
      (parse_expression self [] >>= fun index => pure (.field index) : Parser LValue) inner := by
    unfold parse_lvalue
    rw [run_bind run_current, hdollar]
    exact run_bind (run_advance hne) _
  unfold parse_getline_target
  rw [run_bind run_current, if_pos (.inr hdollar), map_eq_pure_bind]
  change (parse_lvalue self (token :: inner) >>= _) = (parse_expression self [] inner >>= _)
  rw [hlvalue]
  change ((parse_expression self [] inner >>= _) >>= _) = _
  cases parse_expression self [] inner <;> rfl

theorem target_agrees {target : Option LValue} {behind : List TokenKind} (hended : EofEnded tokens)
    (hlength : tokens.length ≤ depth + 1)
    (h : posix_getline_target (parse_primary_expression (expression_calls depth)) (expression_calls (depth + 1)) tokens =
      .ok ((target, behind), rest)) :
    OperandAgrees (parse_getline_target (expression_calls (depth + 1))) tokens target rest behind := by
  obtain ⟨token, inner, rfl⟩ := hended.exists_cons
  unfold posix_getline_target at h
  rw [run_bind run_current] at h
  split_ifs at h with hdollar hident
  · have hne : token.kind ≠ .eof := by rw [hdollar]; decide
    have hinner : EofEnded inner := (hended.ready.tail hne).ended
    rw [run_bind (run_advance hne)] at h
    obtain ⟨⟨index, kind⟩, later, hoperand, hnext⟩ := run_of_bind h
    cases hnext
    have hagrees := operand_agrees hinner (by rw [List.length_cons] at hlength; omega) hoperand
    have hrun := @target_of_field (expression_calls (depth + 1)) token inner hdollar
    refine ⟨fun hkinds => ?_, fun hkinds value last hvalue heq => ?_⟩
    · rw [hrun, run_bind (hagrees.same hkinds)]
      rfl
    · rw [hrun] at hvalue
      obtain ⟨index', later, hindex, hpure⟩ := run_of_bind hvalue
      cases hpure
      cases heq
      exact hagrees.other hkinds _ _ hindex rfl
  · obtain ⟨lvalue, later, hlvalue, hnext⟩ := run_of_bind h
    cases hnext
    refine ⟨fun _ => ?_, fun hkinds => absurd nofun hkinds⟩
    unfold parse_getline_target
    rw [run_bind run_current, if_pos (.inl hident), map_eq_pure_bind, run_bind hlvalue]
    rfl
  · cases h
    refine ⟨fun _ => ?_, fun hkinds => absurd nofun hkinds⟩
    unfold parse_getline_target
    rw [run_bind run_current, if_neg (by simp [hdollar, hident])]
    rfl

theorem source_agrees {source : Option Expr} {behind : List TokenKind} (hended : EofEnded tokens)
    (hlength : tokens.length ≤ depth + 1)
    (h : posix_getline_source (parse_primary_expression (expression_calls depth)) tokens = .ok ((source, behind), rest)) :
    OperandAgrees (parse_getline_source (expression_calls (depth + 1))) tokens source rest behind := by
  obtain ⟨token, inner, rfl⟩ := hended.exists_cons
  unfold posix_getline_source at h
  rw [run_bind (run_check .less)] at h
  have hstart : parse_getline_source (expression_calls (depth + 1)) (token :: inner) =
      (if token.kind == .less then advance >>= fun _ =>
          parse_expression (expression_calls (depth + 1)) [] >>= fun source => pure (some source)
        else pure none : Parser (Option Expr)) (token :: inner) := run_bind (run_check .less) _
  split_ifs at h with hless
  · have hne : token.kind ≠ .eof := by rw [beq_iff_eq.mp hless]; decide
    have hinner : EofEnded inner := (hended.ready.tail hne).ended
    rw [run_bind (run_advance hne)] at h
    obtain ⟨⟨operand, kind⟩, later, hoperand, hnext⟩ := run_of_bind h
    cases hnext
    have hagrees := operand_agrees hinner (by rw [List.length_cons] at hlength; omega) hoperand
    rw [if_pos hless, run_bind (run_advance hne)] at hstart
    refine ⟨fun hkinds => ?_, fun hkinds value last hvalue heq => ?_⟩
    · rw [hstart, run_bind (hagrees.same hkinds)]
      rfl
    · rw [hstart] at hvalue
      obtain ⟨operand', later, hoperand', hpure⟩ := run_of_bind hvalue
      cases hpure
      cases heq
      exact hagrees.other hkinds _ _ hoperand' rfl
  · cases h
    refine ⟨fun _ => ?_, fun hkinds => absurd nofun hkinds⟩
    rw [hstart, if_neg hless]
    rfl

/-- The lvalue of a target takes tokens to their end. -/
theorem ended_of_target {target : Option LValue} {behind : List TokenKind} (hended : EofEnded tokens)
    (hlength : tokens.length ≤ depth + 1)
    (h : posix_getline_target (parse_primary_expression (expression_calls depth)) (expression_calls (depth + 1)) tokens =
      .ok ((target, behind), rest)) : EofEnded rest ∧ rest.length ≤ tokens.length := by
  have hself : CallsTake AnyFailure depth (expression_calls depth) := expression_calls_take anyFailure_message depth
  have hnext : CallsTake AnyFailure (depth + 1) (expression_calls (depth + 1)) :=
    expression_calls_take anyFailure_message (depth + 1)
  have hprimary := takes_primary anyFailure_message hself
  have hlvalue := passes_lvalue anyFailure_message hnext
  obtain ⟨token, inner, rfl⟩ := hended.exists_cons
  unfold posix_getline_target at h
  rw [run_bind run_current] at h
  split_ifs at h with hdollar hident
  · have hne : token.kind ≠ .eof := by rw [hdollar]; decide
    rw [run_bind (run_advance hne)] at h
    obtain ⟨⟨index, kind⟩, later, hoperand, hnext⟩ := run_of_bind h
    cases hnext
    obtain ⟨_, _, rfl, _, hrun⟩ := run_of_operand hoperand
    rw [List.length_cons] at hlength
    have htakes := hprimary inner (hended.ready.tail hne) (by omega)
    unfold Meets at htakes
    rw [hrun] at htakes
    exact ⟨htakes.1.ended, htakes.2.1.le.trans (Nat.le_succ _)⟩
  · obtain ⟨lvalue, later, hrun, hnext⟩ := run_of_bind h
    cases hnext
    have hpasses := hlvalue _ hended.ready hlength
    unfold Meets at hpasses
    rw [hrun] at hpasses
    exact ⟨hpasses.1.ended, hpasses.2.1⟩
  · cases h
    exact ⟨hended, Nat.le_refl _⟩

end Operands

/-- A `getline` that POSIX reads as `expression`, up to `rest`, is read as this exactly if no token that goes on with an
expression stands behind the index of its target, if that is a field, or behind its source: both are whole expressions
to the parser, which takes operators for parts of them that belong to what is around the `getline`. -/
theorem getline_operands {depth : Nat} {tokens rest : List Token} {expression : Expr} {behind : List TokenKind}
    (hended : EofEnded tokens) (hlength : tokens.length ≤ depth + 1)
    (hposix : posix_getline_expression (parse_primary_expression (expression_calls depth)) (expression_calls (depth + 1))
      tokens = .ok ((expression, behind), rest)) :
    parse_getline_expression (expression_calls (depth + 1)) tokens = .ok (expression, rest) ↔
      ∀ kind ∈ behind, continues [] kind = false := by
  obtain ⟨word, inner, rfl⟩ := hended.exists_cons
  obtain ⟨_, later, hword, hoperands⟩ := run_of_bind hposix
  have hkind : word.kind = .ident := by
    by_contra hkind
    unfold expect at hword
    rw [run_bind run_current, if_neg hkind] at hword
    cases hword
  rw [run_expect hkind] at hword
  cases hword
  have hinner : EofEnded inner := (hended.ready.tail (by rw [hkind]; decide)).ended
  rw [List.length_cons] at hlength
  obtain ⟨⟨target, behind_target⟩, middle, htarget, hnext⟩ := run_of_bind hoperands
  obtain ⟨⟨source, behind_source⟩, last, hsource, hpure⟩ := run_of_bind hnext
  cases hpure
  obtain ⟨hmiddle, hle⟩ := ended_of_target hinner (by omega) htarget
  have htarget_agrees := target_agrees hinner (by omega) htarget
  have hsource_agrees := source_agrees hmiddle (by omega) hsource
  obtain ⟨token, more, rfl⟩ := hinner.exists_cons
  rw [parse_getline_eq _ word token more hkind]
  constructor
  · intro hrun
    obtain ⟨target', later, htarget', hnext'⟩ := run_of_bind hrun
    obtain ⟨source', last', hsource', hpure'⟩ := run_of_bind hnext'
    cases hpure'
    have hkinds : ∀ kind ∈ behind_target, continues [] kind = false := by
      by_contra hkinds
      exact htarget_agrees.other hkinds _ _ htarget' rfl
    rw [htarget_agrees.same hkinds] at htarget'
    cases htarget'
    have hkinds' : ∀ kind ∈ behind_source, continues [] kind = false := by
      by_contra hkinds'
      exact hsource_agrees.other hkinds' _ _ hsource' rfl
    intro kind hmem
    exact (List.mem_append.mp hmem).elim (hkinds kind) (hkinds' kind)
  · intro hkinds
    rw [run_bind (htarget_agrees.same fun kind hmem => hkinds kind (List.mem_append_left _ hmem)),
      run_bind (hsource_agrees.same fun kind hmem => hkinds kind (List.mem_append_right _ hmem))]
    rfl

/-- `getline $i < f`, and the end of the program. -/
def getline_into_field : List Token := [word "getline", sign .dollar, word "i", sign .less, word "f", sign .eof]

/-- `getline < f`, and the end of the program. -/
def getline_record : List Token := [word "getline", sign .less, word "f", sign .eof]

theorem getline_operands_record :
    parse_getline_expression (expression_calls 4) getline_record =
        .ok (.getline none (some (.name "f")), [sign .eof]) ↔
      ∀ kind ∈ [TokenKind.eof], continues [] kind = false :=
  getline_operands (.cons (by decide) (.cons (by decide) (.cons (by decide) (.eof rfl)))) (by decide) rfl

/-- POSIX reads the file `f` into the field `i`; the parser reads the input into the field `i < f`. -/
theorem getline_operands_swallowed :
    posix_getline_expression (parse_primary_expression (expression_calls 5)) (expression_calls 6) getline_into_field =
        .ok ((.getline (some (.field (.name "i"))) (some (.name "f")), [.less, .eof]), [sign .eof]) ∧
      parse_getline_expression (expression_calls 6) getline_into_field =
        .ok (.getline (some (.field (.binary (.name "i") .less (.name "f")))) none, [sign .eof]) :=
  ⟨rfl, rfl⟩

end quawk
