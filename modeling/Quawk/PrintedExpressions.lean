import Quawk.RedirectLaw
import Quawk.StringLiterals

open TokenParser (run_bind separated separated_stop separated_turn)

namespace quawk

theorem escaped_char_eq (char : Char) : escaped_char char = escape_character char := by
  unfold escaped_char
  split_ifs with hbackslash hquote hnewline htab
  · subst hbackslash; rfl
  · subst hquote; rfl
  · subst hnewline; rfl
  · subst htab; rfl
  · exact (escape_character_plain (by simp [hbackslash, hquote, hnewline, htab])).symm

theorem decode_string_token (value : Text) : decode_string_literal (string_token value) = .ok value := by
  change decode_characters (('"' :: value.flatMap escaped_char ++ ['"']).tail.dropLast) = _
  rw [List.cons_append, List.tail_cons, List.dropLast_concat, funext escaped_char_eq, decode_escaped]

theorem word_ne {name other : Name} (h : (name != other) = true) : (word name).text ≠ some other.toList := fun heq =>
  bne_iff_ne.mp h (String.toList_inj.mp (Option.some.inj heq))

namespace Parsed

variable {tokens : List Token} {expression : Expr}

/-- An expression of a level without a loop. -/
theorem of_reads (hstarts : ∃ token rest, tokens = token :: rest ∧ is_expression_start token.kind = true)
    (hends : 13 ≤ posix_level expression → ends_in_increment tokens = false)
    (hreads : Reads (parser_level expression) tokens expression) (hlevel : parser_level expression ∉ CHAIN_LEVELS) :
    Parsed tokens expression := ⟨hstarts, hends, hreads, fun h => absurd h hlevel⟩

theorem string_literal (value : Text) : Parsed [string_token value] (.string_literal value) := by
  refine of_reads ⟨_, _, rfl, rfl⟩ (fun _ => rfl) (fun depth rest _ _ => ?_) (by simp [parser_level, CHAIN_LEVELS])
  change parse_primary_expression _ (string_token value :: rest) = _
  unfold parse_primary_expression
  rw [run_bind run_current]
  refine (run_bind (run_advance fun h => by cases h) _).trans ?_
  rw [decode_string_token]
  rfl

theorem regex_literal (raw_text : Text) : Parsed [placeless .regex raw_text] (.regex_literal raw_text) := by
  refine of_reads ⟨_, _, rfl, rfl⟩ (fun _ => rfl) (fun depth rest _ _ => ?_) (by simp [parser_level, CHAIN_LEVELS])
  change parse_primary_expression _ (placeless .regex raw_text :: rest) = _
  unfold parse_primary_expression
  rw [run_bind run_current]
  exact run_bind (run_advance fun h => by cases h) _

theorem numeric_literal {raw_text : Text} (h : (python_float raw_text).isSome = true) :
    Parsed [placeless .number raw_text] (.numeric_literal raw_text) := by
  refine of_reads ⟨_, _, rfl, rfl⟩ (fun _ => rfl) (fun depth rest _ _ => ?_) (by simp [parser_level, CHAIN_LEVELS])
  obtain ⟨value, hvalue⟩ := Option.isSome_iff_exists.mp h
  change parse_primary_expression _ (placeless .number raw_text :: rest) = _
  unfold parse_primary_expression
  rw [run_bind run_current]
  refine (run_bind (run_advance fun h => by cases h) _).trans ?_
  have hkept : python_float ((placeless .number raw_text).text.getD []) = some value := hvalue
  simp only [hkept]
  rfl

/-- A name that is no word of the parser, before a token that does not take it for a call or an array. -/
theorem name {name : Name} (h : (name != "getline" && name != "length") = true) : Parsed [word name] (.name name) := by
  rw [Bool.and_eq_true] at h
  refine of_reads ⟨_, _, rfl, rfl⟩ (fun _ => rfl) (fun depth rest _ hfollows => ?_) (by simp [parser_level, CHAIN_LEVELS])
  obtain ⟨hlevel⟩ := hfollows
  next token rest =>
  have hlparen : token.kind ≠ .lparen := fun heq => by
    rw [heq] at hlevel
    exact absurd (show 14 ≤ 13 from hlevel) (by decide)
  have hlbracket : token.kind ≠ .lbracket := fun heq => by
    rw [heq] at hlevel
    exact absurd (show 14 ≤ 13 from hlevel) (by decide)
  change parse_primary_expression _ (word name :: token :: rest) = _
  unfold parse_primary_expression
  rw [run_bind run_current]
  have hpeek : peek_kind (word name :: token :: rest) = .ok (token.kind, word name :: token :: rest) := rfl
  change (if (word name).text = some "getline".toList then _ else _ : Parser Expr) _ = _
  rw [if_neg (word_ne h.1), run_bind hpeek, if_neg hlparen, if_neg hlbracket, run_bind (run_advance fun h => by cases h),
    if_neg (word_ne h.2)]
  change Except.ok (Expr.name (String.ofList name.toList), token :: rest) = _
  rw [String.ofList_toList]

theorem follow_level_unary {tokens : List Token} {kind : TokenKind} (h : follow_level tokens kind ≤ 12) :
    follow_level tokens kind ≤ 11 := by
  unfold follow_level at h ⊢
  split at h <;> grind

theorem ends_in_increment_cons {token : Token} {tokens : List Token} (h : tokens ≠ []) :
    ends_in_increment (token :: tokens) = ends_in_increment tokens := by
  unfold ends_in_increment
  rw [show token :: tokens = [token] ++ tokens from rfl, last_kind_append h]

/-- A `$` takes the operand behind it, but no increment. -/
theorem dollar {index : Expr} (hreads : Reads 11 tokens index) (hne : tokens ≠ [])
    (hincrement : ends_in_increment tokens = false) (hfield : field_expression index = .ok expression)
    (hlevel : parser_level expression = 12) : Parsed (sign .dollar :: tokens) expression := by
  have hend : ends_in_increment (sign .dollar :: tokens) = false := (ends_in_increment_cons hne).trans hincrement
  refine of_reads ⟨_, _, rfl, rfl⟩ (fun _ => hend) ?_ (by simp [hlevel, CHAIN_LEVELS])
  rw [hlevel]
  intro depth rest hlength hfollows
  rw [List.length_cons] at hlength
  obtain ⟨depth, rfl⟩ : ∃ less, depth = less + 1 := ⟨depth - 1, by omega⟩
  have hinner : Follows 12 tokens rest := hfollows.of_cons hne
  obtain ⟨hfollow⟩ := hfollows
  next token rest =>
  obtain ⟨hunary⟩ := hinner
  have hindex : (expression_calls (depth + 1)).parse_unary_expression (tokens ++ token :: rest) = .ok (index, token :: rest) :=
    hreads depth _ (by omega) ⟨follow_level_unary hunary⟩
  have hprimary : parse_primary_expression (expression_calls (depth + 1)) (sign .dollar :: (tokens ++ token :: rest)) =
      .ok (expression, token :: rest) := by
    unfold parse_primary_expression
    rw [run_bind run_current]
    refine (run_bind (run_advance fun h => by cases h) _).trans ?_
    rw [run_bind hindex, hfield]
    rfl
  change parse_postfix_expression _ _ = _
  unfold parse_postfix_expression
  rw [List.cons_append, run_bind hprimary, run_bind run_current, postfix_op_none hfollow hend]
  rfl

theorem index_without_dot {index : Nat} (h : python_int (index_text index) = some index) : '.' ∉ index_text index := by
  unfold python_int at h
  split at h
  · next hdigits =>
    intro hmem
    exact absurd (List.all_eq_true.mp hdigits.1 '.' hmem) (by decide)
  · cases h

theorem field_at {index : Nat} (h : field_writable index = true) :
    Parsed [sign .dollar, placeless .number (index_text index)] (.field_at index) := by
  rw [field_writable, Bool.and_eq_true, beq_iff_eq] at h
  refine dollar ((numeric_literal h.2).reads_le (show 11 ≤ 13 by decide)) (List.cons_ne_nil _ _) rfl ?_ rfl
  rw [field_expression, if_neg (index_without_dot h.1), h.1]
  rfl

theorem field {index : Expr} (h : Parsed tokens index) (hwritable : index_writable index = true) :
    Parsed (sign .dollar :: enclosed 13 index tokens) (.field index) := by
  have hfits : operand_fits 13 11 index = true := by
    rw [operand_fits, Bool.or_eq_true, decide_eq_true_eq, decide_eq_true_eq]
    cases index with
    | binary left op right => exact .inl (show posix_binary_level op < 13 by cases op <;> decide)
    | unary op operand => exact .inl (show posix_unary_level op < 13 by cases op <;> decide)
    | assign _ _ _ | conditional _ _ _ | postfix_op _ _ => exact .inl (show _ < 13 by simp [posix_level])
    | _ => exact .inr (show 11 ≤ _ by simp [parser_level])
  refine dollar (h.reads_enclosed hfits (by decide)) (h.enclosed_ne_nil 13) h.enclosed_ends ?_ rfl
  cases index with
  | numeric_literal raw_text =>
    have hdot : '.' ∈ raw_text := List.contains_iff_mem.mp hwritable
    exact if_pos hdot
  | _ => rfl

end Parsed

section Lists

variable {kind : TokenKind} (hkind : kind = .rparen ∨ kind = .rbracket)

include hkind

theorem follows_list_end (tokens : List Token) (items : List Expr) (rest : List Token) :
    Follows 0 tokens (posix_rest items ++ sign kind :: rest) := by
  cases items with
  | nil => obtain rfl | rfl := hkind <;> exact follows_sign (Nat.le_refl 0)
  | cons next items => exact follows_sign (Nat.le_refl 0)

theorem separated_parsed (depth : Nat) (rest : List Token) : (items : List Expr) →
    (∀ item ∈ items, Parsed (posix_tokens item) item) → (turns : Nat) → (posix_rest items).length ≤ depth →
    (posix_rest items).length < turns →
    separated comma (parse_level (expression_calls depth) 0) .unfinished turns (posix_rest items ++ sign kind :: rest) =
      .ok (items, sign kind :: rest)
  | [], _, turns, _, hturns => by
    obtain ⟨turns, rfl⟩ : ∃ fewer, turns = fewer + 1 := ⟨turns - 1, by omega⟩
    refine separated_stop ((run_comma _ _).trans ?_)
    obtain rfl | rfl := hkind <;> rfl
  | next :: items, hitems, turns, hlength, hturns => by
    simp only [posix_rest, List.length_append, List.length_cons] at hlength hturns
    obtain ⟨turns, rfl⟩ : ∃ fewer, turns = fewer + 1 := ⟨turns - 1, by omega⟩
    have hread := (hitems next List.mem_cons_self).reads_le (Nat.zero_le _) depth (posix_rest items ++ sign kind :: rest)
      (by omega) (follows_list_end hkind _ _ _)
    rw [posix_rest, List.cons_append, List.cons_append, List.append_assoc]
    exact separated_turn (run_comma _ _) hread (separated_parsed depth rest items
      (fun item hmem => hitems item (List.mem_cons_of_mem _ hmem)) turns (by omega) (by omega))

/-- The expressions of a list up to the bracket behind them. -/
theorem comma_separated_parsed {first : Expr} {items : List Expr} (hitems : ∀ item ∈ first :: items, Parsed (posix_tokens item) item)
    {depth : Nat} (rest : List Token) (hlength : (posix_list (first :: items)).length ≤ depth) :
    comma_separated (parse_expression (expression_calls (depth + 1)) []) (posix_list (first :: items) ++ sign kind :: rest) =
      .ok (first :: items, sign kind :: rest) := by
  rw [posix_list, List.length_append] at hlength
  have hread : parse_expression (expression_calls (depth + 1)) []
      (posix_tokens first ++ (posix_rest items ++ sign kind :: rest)) = .ok (first, posix_rest items ++ sign kind :: rest) :=
    (hitems first List.mem_cons_self).reads_le (Nat.zero_le _) depth _ (by omega) (follows_list_end hkind _ _ _)
  have hmore : with_turns (separated comma (parse_expression (expression_calls (depth + 1)) []) .unfinished)
      (posix_rest items ++ sign kind :: rest) = .ok (items, sign kind :: rest) :=
    separated_parsed hkind depth rest items (fun item hmem => hitems item (List.mem_cons_of_mem _ hmem)) _ (by omega)
      (by simp only [List.length_append]; omega)
  unfold comma_separated
  rw [posix_list, List.append_assoc, run_bind hread, run_bind hmore]
  rfl

end Lists

namespace Parsed

theorem call {function : Name} {args : List Expr} (hargs : ∀ item ∈ args, Parsed (posix_tokens item) item)
    (hname : (function != "getline") = true) :
    Parsed (word function :: sign .lparen :: posix_list args ++ [sign .rparen]) (.call function args) := by
  refine of_reads ⟨_, _, rfl, rfl⟩ (fun _ => ?_) (fun depth rest hlength _ => ?_) (by simp [parser_level, CHAIN_LEVELS])
  · unfold ends_in_increment
    rw [last_kind_append (List.cons_ne_nil _ _)]
    rfl
  simp only [List.length_append, List.length_cons, List.length_nil] at hlength
  obtain ⟨depth, rfl⟩ : ∃ less, depth = less + 1 := ⟨depth - 1, by omega⟩
  have hcall : parse_call_expression (expression_calls (depth + 1))
      (word function :: sign .lparen :: (posix_list args ++ sign .rparen :: rest)) = .ok (.call function args, rest) := by
    have hword : expect .ident (word function :: sign .lparen :: (posix_list args ++ sign .rparen :: rest)) =
        .ok (word function, sign .lparen :: (posix_list args ++ sign .rparen :: rest)) := run_expect rfl
    have hdone : Except.ok (Expr.call (token_name (word function)) args, rest) =
        (Except.ok (Expr.call function args, rest) : Except ParseFailure _) := by
      change Except.ok (Expr.call (String.ofList function.toList) args, rest) = _
      rw [String.ofList_toList]
    unfold parse_call_expression
    rw [run_bind hword, run_bind (run_expect_sign .lparen _)]
    cases args with
    | nil => exact hdone
    | cons first items =>
      obtain ⟨token, later, htokens, hstart⟩ := (hargs first List.mem_cons_self).starts
      have hnot : (token.kind == .rparen) = false := beq_false_of_ne fun heq => by
        rw [heq] at hstart
        exact absurd hstart (by decide)
      have hcheck : check .rparen (posix_list (first :: items) ++ sign .rparen :: rest) =
          .ok (false, posix_list (first :: items) ++ sign .rparen :: rest) := by
        rw [posix_list, htokens, List.cons_append, List.cons_append, run_check, hnot]
      rw [run_bind hcheck, if_neg Bool.false_ne_true, run_bind (comma_separated_parsed (.inl rfl) hargs rest (by omega))]
      exact (run_bind (run_expect_sign .rparen _) _).trans hdone
  have hpeek : peek_kind (word function :: sign .lparen :: (posix_list args ++ sign .rparen :: rest)) =
      .ok (.lparen, word function :: sign .lparen :: (posix_list args ++ sign .rparen :: rest)) := rfl
  rw [List.cons_append, List.cons_append, List.cons_append, List.cons_append, List.append_assoc, List.singleton_append]
  change parse_primary_expression _ _ = _
  unfold parse_primary_expression
  rw [run_bind run_current]
  change (if (word function).text = some "getline".toList then _ else _ : Parser Expr) _ = _
  rw [if_neg (word_ne hname), run_bind hpeek, if_pos rfl, hcall]

theorem array_index {name : Name} {index : Expr} {extra_indexes : List Expr}
    (hindexes : ∀ item ∈ index :: extra_indexes, Parsed (posix_tokens item) item) (hname : (name != "getline") = true) :
    Parsed (posix_tokens (.array_index name index extra_indexes)) (.array_index name index extra_indexes) := by
  have htokens : posix_tokens (.array_index name index extra_indexes) =
      word name :: sign .lbracket :: posix_list (index :: extra_indexes) ++ [sign .rbracket] := by
    rw [posix_tokens, posix_list]
    rfl
  rw [htokens]
  refine of_reads ⟨_, _, rfl, rfl⟩ (fun _ => ?_) (fun depth rest hlength _ => ?_) (by simp [parser_level, CHAIN_LEVELS])
  · unfold ends_in_increment
    rw [last_kind_append (List.cons_ne_nil _ _)]
    rfl
  simp only [List.length_append, List.length_cons, List.length_nil] at hlength
  obtain ⟨depth, rfl⟩ : ∃ less, depth = less + 1 := ⟨depth - 1, by omega⟩
  have hword : expect .ident (word name :: sign .lbracket :: (posix_list (index :: extra_indexes) ++ sign .rbracket :: rest)) =
      .ok (word name, sign .lbracket :: (posix_list (index :: extra_indexes) ++ sign .rbracket :: rest)) := run_expect rfl
  have hsubscripts : parse_array_subscripts (expression_calls (depth + 1))
      (sign .lbracket :: (posix_list (index :: extra_indexes) ++ sign .rbracket :: rest)) = .ok (index :: extra_indexes, rest) := by
    unfold parse_array_subscripts
    rw [run_bind (run_expect_sign .lbracket _), run_bind (comma_separated_parsed (.inr rfl) hindexes rest (by omega)),
      run_bind (run_expect_sign .rbracket _)]
    rfl
  have hpeek : peek_kind (word name :: sign .lbracket :: (posix_list (index :: extra_indexes) ++ sign .rbracket :: rest)) =
      .ok (.lbracket, word name :: sign .lbracket :: (posix_list (index :: extra_indexes) ++ sign .rbracket :: rest)) := rfl
  rw [List.cons_append, List.cons_append, List.cons_append, List.cons_append, List.append_assoc, List.singleton_append]
  change parse_primary_expression _ _ = _
  unfold parse_primary_expression
  rw [run_bind run_current]
  change (if (word name).text = some "getline".toList then _ else _ : Parser Expr) _ = _
  rw [if_neg (word_ne hname), run_bind hpeek, if_neg (by decide), if_pos rfl]
  unfold parse_array_index_expression
  rw [run_bind hword, run_bind hsubscripts]
  change Except.ok (Expr.array_index (String.ofList name.toList) index extra_indexes, rest) = _
  rw [String.ofList_toList]

theorem unary {operand : Expr} (op : UnaryOp) (h : Parsed tokens operand)
    (hfits : operand_fits (posix_unary_level op) 11 operand = true) :
    Parsed (sign (unary_kind op) :: enclosed (posix_unary_level op) operand tokens) (.unary op operand) := by
  have hne := h.enclosed_ne_nil (posix_unary_level op)
  refine of_reads ⟨_, _, rfl, by cases op <;> rfl⟩ (fun hlevel => ?_) (fun depth rest hlength hfollows => ?_)
    (by simp [parser_level, CHAIN_LEVELS])
  · exact absurd (show 13 ≤ posix_unary_level op from hlevel) (by cases op <;> decide)
  rw [List.length_cons] at hlength
  obtain ⟨depth, rfl⟩ : ∃ less, depth = less + 1 := ⟨depth - 1, by omega⟩
  have hoperand : (expression_calls (depth + 1)).parse_unary_expression (enclosed (posix_unary_level op) operand tokens ++ rest) =
      .ok (operand, rest) :=
    h.reads_enclosed hfits (by decide) depth rest (by omega) (hfollows.of_cons hne)
  have hop : unary_op_from_token (sign (unary_kind op)).kind = some op := by cases op <;> rfl
  change parse_unary_expression _ _ = _
  unfold parse_unary_expression
  rw [List.cons_append, run_bind run_current, hop]
  refine (run_bind (run_advance ?_) _).trans ?_
  · cases op <;> exact fun h => by cases h
  · rw [run_bind hoperand]
    rfl

theorem postfix_op {operand : Expr} (op : PostfixOp) (h : Parsed tokens operand)
    (hfits : operand_fits 13 13 operand = true) :
    Parsed (enclosed 13 operand tokens ++ [sign (postfix_kind op)]) (.postfix_op operand op) := by
  obtain ⟨token, later, htokens, hstart⟩ := h.enclosed_starts 13
  refine of_reads ⟨token, later ++ [sign (postfix_kind op)], by rw [htokens]; rfl, hstart⟩ (fun hlevel => ?_)
    (fun depth rest hlength _ => ?_) (by simp [parser_level, CHAIN_LEVELS])
  · exact absurd (show 13 ≤ 12 from hlevel) (by decide)
  rw [List.length_append, List.length_singleton] at hlength
  have hoperand : parse_primary_expression (expression_calls depth)
      (enclosed 13 operand tokens ++ sign (postfix_kind op) :: rest) = .ok (operand, sign (postfix_kind op) :: rest) := by
    have hbound : (if ends_in_increment (enclosed 13 operand tokens) then 8 else 13) ≤ 13 := by split <;> decide
    exact h.reads_enclosed hfits (by decide) depth _ (by omega) (follows_sign (by cases op <;> exact hbound))
  have hop : postfix_op_from_token (sign (postfix_kind op)).kind = some op := by cases op <;> rfl
  change parse_postfix_expression _ _ = _
  unfold parse_postfix_expression
  rw [List.append_assoc, List.singleton_append, run_bind hoperand, run_bind run_current, hop]
  refine (run_bind (run_advance ?_) _).trans rfl
  cases op <;> exact fun h => by cases h

section Binary

variable {left right : Expr} {before behind : List Token}

/-- An operator of a chain, with its token. -/
theorem chain {op : BinaryOp} {kind : TokenKind} {least more : Nat} (hchain : parser_binary_level op ∈ CHAIN_LEVELS)
    (hposix : posix_binary_level op < 13) (hkind : level_operators (parser_binary_level op) kind = some op)
    (hconcat : parser_binary_level op ≠ 7) (hleft : Parsed before left) (hright : Parsed behind right)
    (hfits : operand_fits least (parser_binary_level op) left = true)
    (hfits' : operand_fits more (parser_binary_level op + 1) right = true) :
    Parsed (enclosed least left before ++ [sign kind] ++ enclosed more right behind) (.binary left op right) := by
  have hlevel : parser_level (.binary left op right) = parser_binary_level op := rfl
  generalize parser_binary_level op = level at *
  have hbound : level < 13 := by
    simp only [CHAIN_LEVELS, List.mem_cons, List.not_mem_nil, or_false] at hchain
    omega
  have heof : kind ≠ .eof := fun heq => by
    rw [heq] at hkind
    simp only [CHAIN_LEVELS, List.mem_cons, List.not_mem_nil, or_false] at hchain
    obtain rfl | rfl | rfl | rfl | rfl | rfl | rfl := hchain <;> cases hkind
  have haccumulates : Accumulates level (enclosed least left before ++ [sign kind] ++ enclosed more right behind)
      (.binary left op right) := by
    refine (hleft.accumulates_enclosed hfits hbound).step (hright.reads_enclosed hfits' (by omega))
      (hright.enclosed_ne_nil more) (fun rest => ?_) fun rest => follows_sign (follow_level_of_operator hkind).le
    have hop : level_operators level (sign kind).kind = some op := hkind
    rw [chain_operator.eq_2 level hconcat, operator_token, List.singleton_append, run_bind run_current, hop]
    exact run_bind (run_advance heof) _
  obtain ⟨token, later, htokens, hstart⟩ := hleft.enclosed_starts least
  refine ⟨⟨token, later ++ [sign kind] ++ enclosed more right behind, by rw [htokens]; rfl, hstart⟩, fun h => ?_, ?_, ?_⟩
  · exact absurd (show 13 ≤ posix_binary_level op from h) (by omega)
  · exact hlevel ▸ haccumulates.reads hchain
  · exact hlevel ▸ haccumulates

/-- A token behind which an operand stands takes the expression before it no further than an addition. -/
theorem adjacent_follow {before later : List Token} {token : Token} (hstart : is_expression_start token.kind = true)
    (h : adjacent before (token :: later) = true) : follow_level before token.kind ≤ 8 := by
  rw [adjacent, List.head?_cons, Option.any_some] at h
  simp only [is_expression_start, List.contains_iff_mem, List.mem_cons, List.not_mem_nil, or_false] at hstart
  obtain hkind | hkind | hkind | hkind | hkind | hkind | hkind | hkind | hkind | hkind | hkind := hstart <;>
    rw [hkind] at h ⊢ <;> unfold follow_level <;> simp_all

/-- Two expressions side by side. -/
theorem concatenation (hleft : Parsed before left) (hright : Parsed behind right) (hfits : operand_fits 7 7 left = true)
    (hfits' : operand_fits 8 8 right = true) (hadjacent : adjacent (enclosed 7 left before) (enclosed 8 right behind) = true) :
    Parsed (enclosed 7 left before ++ [] ++ enclosed 8 right behind) (.binary left .concat right) := by
  obtain ⟨token, later, htokens, hstart⟩ := hleft.enclosed_starts 7
  obtain ⟨token', later', htokens', hstart'⟩ := hright.enclosed_starts 8
  have haccumulates : Accumulates 7 (enclosed 7 left before ++ [] ++ enclosed 8 right behind) (.binary left .concat right) := by
    refine (hleft.accumulates_enclosed hfits (by decide)).step (hright.reads_enclosed hfits' (by decide))
      (hright.enclosed_ne_nil 8) (fun rest => ?_) fun rest => ?_
    · rw [List.nil_append, htokens']
      change (concat_operator (token' :: (later' ++ rest))) = _
      rw [concat_operator, run_bind run_current, hstart']
      rfl
    · rw [List.nil_append, htokens', List.cons_append]
      exact ⟨adjacent_follow hstart' (htokens' ▸ hadjacent)⟩
  refine ⟨⟨token, later ++ [] ++ enclosed 8 right behind, by rw [htokens]; rfl, hstart⟩, fun h => ?_, ?_, haccumulates⟩
  · exact absurd (show 13 ≤ 7 from h) (by decide)
  · exact haccumulates.reads (by decide)

theorem in_array (hleft : Parsed before left) (hright : Parsed behind right) (hfits : operand_fits 4 7 left = true)
    (hfits' : operand_fits 5 7 right = true) :
    Parsed (enclosed 4 left before ++ [sign .in_kw] ++ enclosed 5 right behind) (.binary left .in_op right) := by
  obtain ⟨token, later, htokens, hstart⟩ := hleft.enclosed_starts 4
  refine of_reads ⟨token, later ++ [sign .in_kw] ++ enclosed 5 right behind, by rw [htokens]; rfl, hstart⟩ (fun h => ?_)
    (fun depth rest hlength hfollows => ?_) (show 6 ∉ CHAIN_LEVELS by decide)
  · exact absurd (show 13 ≤ 4 from h) (by decide)
  simp only [List.length_append, List.length_singleton] at hlength
  have hfirst : parse_concat_expression (expression_calls depth)
      (enclosed 4 left before ++ sign .in_kw :: (enclosed 5 right behind ++ rest)) =
        .ok (left, sign .in_kw :: (enclosed 5 right behind ++ rest)) :=
    hleft.reads_enclosed hfits (by decide) depth _ (by omega) (follows_sign (Nat.le_refl 7))
  have hsecond : parse_concat_expression (expression_calls depth) (enclosed 5 right behind ++ rest) = .ok (right, rest) :=
    hright.reads_enclosed hfits' (by decide) depth _ (by omega)
      ((hfollows.of_append (hright.enclosed_ne_nil 5)).mono (show 6 ≤ 7 by decide))
  change parse_in_expression _ _ = _
  unfold parse_in_expression
  rw [List.append_assoc, List.append_assoc, List.singleton_append, run_bind hfirst, run_bind (run_check .in_kw)]
  refine (run_bind (run_advance fun h => by cases h) _).trans ?_
  rw [run_bind hsecond]
  rfl

theorem power (hleft : Parsed before left) (hright : Parsed behind right) (hfits : operand_fits 12 11 left = true)
    (hfits' : operand_fits 11 10 right = true) :
    Parsed (enclosed 12 left before ++ [sign .caret] ++ enclosed 11 right behind) (.binary left .pow right) := by
  obtain ⟨token, later, htokens, hstart⟩ := hleft.enclosed_starts 12
  refine of_reads ⟨token, later ++ [sign .caret] ++ enclosed 11 right behind, by rw [htokens]; rfl, hstart⟩ (fun h => ?_)
    (fun depth rest hlength hfollows => ?_) (show 10 ∉ CHAIN_LEVELS by decide)
  · exact absurd (show 13 ≤ 11 from h) (by decide)
  simp only [List.length_append, List.length_singleton] at hlength
  obtain ⟨depth, rfl⟩ : ∃ less, depth = less + 1 := ⟨depth - 1, by omega⟩
  have hfirst : parse_unary_expression (expression_calls (depth + 1))
      (enclosed 12 left before ++ sign .caret :: (enclosed 11 right behind ++ rest)) =
        .ok (left, sign .caret :: (enclosed 11 right behind ++ rest)) :=
    hleft.reads_enclosed hfits (by decide) (depth + 1) _ (by omega) (follows_sign (Nat.le_refl 11))
  have hsecond : (expression_calls (depth + 1)).parse_power_expression (enclosed 11 right behind ++ rest) =
      .ok (right, rest) :=
    hright.reads_enclosed hfits' (by decide) depth _ (by omega) (hfollows.of_append (hright.enclosed_ne_nil 11))
  change parse_power_expression _ _ = _
  unfold parse_power_expression
  rw [List.append_assoc, List.append_assoc, List.singleton_append, run_bind hfirst, run_bind (run_check .caret)]
  refine (run_bind (run_advance fun h => by cases h) _).trans ?_
  rw [run_bind hsecond]
  rfl

end Binary

theorem conditional {test if_true if_false : Expr} {before middle behind : List Token} (htest : Parsed before test)
    (htrue : Parsed middle if_true) (hfalse : Parsed behind if_false) (hfits : operand_fits 2 2 test = true)
    (hfits' : operand_fits 1 1 if_false = true) :
    Parsed (enclosed 2 test before ++ sign .question :: middle ++ sign .colon :: enclosed 1 if_false behind)
      (.conditional test if_true if_false) := by
  obtain ⟨token, later, htokens, hstart⟩ := htest.enclosed_starts 2
  refine of_reads ⟨token, later ++ sign .question :: middle ++ sign .colon :: enclosed 1 if_false behind, by rw [htokens]; rfl,
    hstart⟩ (fun h => ?_) (fun depth rest hlength hfollows => ?_) (show 1 ∉ CHAIN_LEVELS by decide)
  · exact absurd (show 13 ≤ 1 from h) (by decide)
  simp only [List.length_append, List.length_cons] at hlength
  obtain ⟨depth, rfl⟩ : ∃ less, depth = less + 1 := ⟨depth - 1, by omega⟩
  have hfirst : parse_logical_or_expression (expression_calls (depth + 1)) []
      (enclosed 2 test before ++ sign .question :: (middle ++ sign .colon :: (enclosed 1 if_false behind ++ rest))) =
        .ok (test, sign .question :: (middle ++ sign .colon :: (enclosed 1 if_false behind ++ rest))) :=
    htest.reads_enclosed hfits (by decide) (depth + 1) _ (by omega) (follows_sign (Nat.le_refl 2))
  have hsecond : parse_expression (expression_calls (depth + 1)) []
      (middle ++ sign .colon :: (enclosed 1 if_false behind ++ rest)) =
        .ok (if_true, sign .colon :: (enclosed 1 if_false behind ++ rest)) :=
    htrue.reads_le (Nat.zero_le _) depth _ (by omega) (follows_sign (Nat.le_refl 0))
  have hthird : (expression_calls (depth + 1)).parse_conditional_expression (enclosed 1 if_false behind ++ rest) =
      .ok (if_false, rest) :=
    hfalse.reads_enclosed hfits' (by decide) depth _ (by omega)
      ((hfollows.of_append (List.cons_ne_nil _ _)).of_cons (hfalse.enclosed_ne_nil 1))
  change parse_conditional_expression _ _ _ = _
  unfold parse_conditional_expression
  rw [List.append_assoc, List.append_assoc, List.cons_append, List.cons_append, run_bind hfirst, run_bind (run_check .question)]
  refine (run_bind (run_advance fun h => by cases h) _).trans ?_
  rw [run_bind hsecond, run_bind (run_expect_sign .colon _), run_bind hthird]
  rfl

theorem assign {target_expression value : Expr} {target : LValue} {before behind : List Token} (op : AssignOp)
    (htarget : Parsed before target_expression) (hassigns : assignment_target target_expression = .ok target)
    (hlevel : 1 ≤ parser_level target_expression) (hvalue : Parsed behind value) :
    Parsed (before ++ sign (assign_kind op) :: behind) (.assign target op value) := by
  obtain ⟨token, later, htokens, hstart⟩ := htarget.starts
  refine of_reads ⟨token, later ++ sign (assign_kind op) :: behind, by rw [htokens]; rfl, hstart⟩ (fun h => ?_)
    (fun depth rest hlength hfollows => ?_) (show 0 ∉ CHAIN_LEVELS by decide)
  · exact absurd (show 13 ≤ 0 from h) (by decide)
  simp only [List.length_append, List.length_cons] at hlength
  obtain ⟨depth, rfl⟩ : ∃ less, depth = less + 1 := ⟨depth - 1, by omega⟩
  have hfirst : parse_conditional_expression (expression_calls (depth + 1)) []
      (before ++ sign (assign_kind op) :: (behind ++ rest)) =
        .ok (target_expression, sign (assign_kind op) :: (behind ++ rest)) :=
    htarget.reads_le hlevel (depth + 1) _ (by omega) (follows_sign (by cases op <;> exact Nat.le_refl 1))
  have hsecond : (expression_calls (depth + 1)).parse_assignment_expression [] (behind ++ rest) = .ok (value, rest) :=
    hvalue.reads_le (Nat.zero_le _) depth _ (by omega)
      ((hfollows.of_append (List.cons_ne_nil _ _)).of_cons hvalue.ne_nil)
  have hop : assignment_op_from_token (sign (assign_kind op)).kind = some op := by cases op <;> rfl
  have hadvance : advance (sign (assign_kind op) :: (behind ++ rest)) = .ok (sign (assign_kind op), behind ++ rest) :=
    run_advance (by cases op <;> exact fun h => by cases h)
  have htaken : (liftM (assignment_target target_expression) : Parser LValue) (sign (assign_kind op) :: (behind ++ rest)) =
      .ok (target, sign (assign_kind op) :: (behind ++ rest)) := by
    rw [hassigns]
    rfl
  change parse_assignment_expression _ _ _ = _
  unfold parse_assignment_expression
  rw [List.append_assoc, List.cons_append, run_bind hfirst, run_bind run_current, hop]
  refine (run_bind htaken _).trans ((run_bind hadvance _).trans ?_)
  rw [run_bind hsecond]
  rfl

end Parsed

/-- What the operators of a node ask of the operands. -/
theorem binary_parsed {left right : Expr} (op : BinaryOp) (hleft : Parsed (posix_tokens left) left)
    (hright : Parsed (posix_tokens right) right) (h : node_fits (.binary left op right) = true) :
    Parsed (posix_tokens (.binary left op right)) (.binary left op right) := by
  rw [node_fits, Bool.and_eq_true, Bool.and_eq_true, Bool.or_eq_true] at h
  obtain ⟨⟨hfits, hfits'⟩, hadjacent⟩ := h
  rw [posix_tokens]
  cases op with
  | concat => exact .concatenation hleft hright hfits hfits' (hadjacent.resolve_left (by decide))
  | in_op => exact .in_array hleft hright hfits hfits'
  | pow => exact .power hleft hright hfits hfits'
  | _ => exact .chain (by decide) (by decide) rfl (by decide) hleft hright hfits hfits'

/-- A field with a whole number as its index is assigned under the number that `str` writes. -/
theorem whole_target {raw_text : Text} (hwhole : raw_text.contains '.' = false)
    (hwritable : target_writable (.field (.numeric_literal raw_text)) = true) :
    ∃ index, raw_text = index_text index ∧ field_writable index = true ∧
      assignment_target (.field_at index) = .ok (.field (.numeric_literal raw_text)) := by
  rw [target_writable, hwhole, Bool.false_or] at hwritable
  cases hindex : python_int raw_text with
  | none =>
    rw [hindex] at hwritable
    cases hwritable
  | some index =>
    simp only [hindex, Bool.and_eq_true, beq_iff_eq, decide_eq_true_eq] at hwritable
    obtain ⟨⟨htext, hfield⟩, hless⟩ := hwritable
    refine ⟨index, htext, hfield, ?_⟩
    rw [htext]
    exact if_pos hless

mutual

theorem expression_parsed : (expression : Expr) → writable expression = true → fits expression = true →
    Parsed (posix_tokens expression) expression
  | .string_literal value, _, _ => .string_literal value
  | .numeric_literal _, hwritable, _ => .numeric_literal hwritable
  | .regex_literal raw_text, _, _ => .regex_literal raw_text
  | .name _, hwritable, _ => .name hwritable
  | .field_at _, hwritable, _ => .field_at hwritable
  | .field index, hwritable, hfits => by
    simp only [writable, fits, throughout, Bool.and_eq_true] at hwritable hfits
    exact .field (expression_parsed index hwritable.2 hfits.2) hwritable.1
  | .call function args, hwritable, hfits => by
    simp only [writable, fits, throughout, Bool.and_eq_true] at hwritable hfits
    exact .call (expressions_parsed args hwritable.2 hfits.2) hwritable.1
  | .array_index name index extra_indexes, hwritable, hfits => by
    simp only [writable, fits, throughout, Bool.and_eq_true] at hwritable hfits
    have hindex := expression_parsed index hwritable.1.2 hfits.1.2
    refine .array_index (fun item hmem => ?_) hwritable.1.1
    obtain rfl | hmem := List.mem_cons.mp hmem
    · exact hindex
    · exact expressions_parsed extra_indexes hwritable.2 hfits.2 item hmem
  | .getline _ _, hwritable, _ => by cases hwritable
  | .binary left op right, hwritable, hfits => by
    simp only [writable, fits, throughout, Bool.and_eq_true] at hwritable hfits
    exact binary_parsed op (expression_parsed left hwritable.1.2 hfits.1.2) (expression_parsed right hwritable.2 hfits.2)
      hfits.1.1
  | .conditional test if_true if_false, hwritable, hfits => by
    simp only [writable, fits, throughout, Bool.and_eq_true] at hwritable hfits
    have hnode := hfits.1.1.1
    rw [node_fits, Bool.and_eq_true] at hnode
    exact .conditional (expression_parsed test hwritable.1.1.2 hfits.1.1.2) (expression_parsed if_true hwritable.1.2 hfits.1.2)
      (expression_parsed if_false hwritable.2 hfits.2) hnode.1 hnode.2
  | .assign target op value, hwritable, hfits => by
    simp only [writable, fits, throughout, Bool.and_eq_true] at hwritable hfits
    obtain ⟨expression, htarget, hassigns, hlevel⟩ := target_parsed target hwritable.1.1 hwritable.1.2 hfits.1.2
    exact .assign op htarget hassigns hlevel (expression_parsed value hwritable.2 hfits.2)
  | .unary op operand, hwritable, hfits => by
    simp only [writable, fits, throughout, Bool.and_eq_true] at hwritable hfits
    exact .unary op (expression_parsed operand hwritable.2 hfits.2) hfits.1
  | .postfix_op operand op, hwritable, hfits => by
    simp only [writable, fits, throughout, Bool.and_eq_true] at hwritable hfits
    exact .postfix_op op (expression_parsed operand hwritable.2 hfits.2) hfits.1

theorem expressions_parsed : (expressions : List Expr) → throughout_list node_writable expressions = true →
    throughout_list node_fits expressions = true → ∀ item ∈ expressions, Parsed (posix_tokens item) item
  | [], _, _, _, hmem => absurd hmem List.not_mem_nil
  | first :: rest, hwritable, hfits, item, hmem => by
    rw [throughout_list, Bool.and_eq_true] at hwritable hfits
    have hfirst := expression_parsed first hwritable.1 hfits.1
    obtain rfl | hmem := List.mem_cons.mp hmem
    · exact hfirst
    · exact expressions_parsed rest hwritable.2 hfits.2 item hmem

theorem target_parsed : (target : LValue) → target_writable target = true →
    throughout_target node_writable target = true → throughout_target node_fits target = true →
    ∃ expression, Parsed (posix_target target) expression ∧ assignment_target expression = .ok target ∧
      1 ≤ parser_level expression
  | .name name, hwritable, _, _ => ⟨.name name, .name hwritable, rfl, by simp [parser_level]⟩
  | .array name subscripts, hwritable, hparts, hfits => by
    rw [target_writable, Bool.and_eq_true] at hwritable
    have hitems := expressions_parsed subscripts hparts hfits
    cases subscripts with
    | nil => exact absurd hwritable.2 (by decide)
    | cons index extra_indexes =>
      refine ⟨.array_index name index extra_indexes, ?_, rfl, by simp [parser_level]⟩
      have htokens : posix_target (.array name (index :: extra_indexes)) = posix_tokens (.array_index name index extra_indexes) := by
        rw [posix_target, posix_tokens, posix_list]
        rfl
      rw [htokens]
      exact .array_index hitems hwritable.1
  | .field index, hwritable, hparts, hfits => by
    have hindex := expression_parsed index hparts hfits
    by_cases hwhole : index_writable index = true
    · refine ⟨.field index, ?_, rfl, by simp [parser_level]⟩
      rw [posix_target]
      exact .field hindex hwhole
    · cases index with
      | numeric_literal raw_text =>
        obtain ⟨whole, rfl, hfield, hassigns⟩ := whole_target (Bool.eq_false_iff.mpr hwhole) hwritable
        exact ⟨.field_at whole, .field_at hfield, hassigns, by simp [parser_level]⟩
      | _ => exact absurd rfl hwhole

end

/-- Printed with only the parentheses that the POSIX table asks for, an expression is read back as it is before any token
that ends an expression, where the parser groups the operands of its operators as the table does. -/
theorem posix_round_trip {expression : Expr} (hwritable : writable expression = true) (hfits : fits expression = true)
    {depth : Nat} {rest : List Token} (hdepth : (posix_tokens expression).length ≤ depth)
    (hrest : Follows 0 (posix_tokens expression) rest) :
    parse_expression (expression_calls (depth + 1)) [] (posix_tokens expression ++ rest) = .ok (expression, rest) :=
  (expression_parsed expression hwritable hfits).reads_le (Nat.zero_le _) depth rest hdepth hrest

/-- `s = n > m ? "many" : i++ !b` -/
def chosen_text : Expr :=
  .assign (.name "s") .plain (.conditional (.binary (.name "n") .greater (.name "m")) (.string_literal "many".toList)
    (.binary (.postfix_op (.name "i") .post_inc) .concat (.unary .not (.name "b"))))

theorem posix_round_trip_chosen :
    parse_expression (expression_calls 20) [] (posix_tokens chosen_text ++ [placeless .eof []]) =
      .ok (chosen_text, [placeless .eof []]) :=
  posix_round_trip (by decide) (by decide) (show (posix_tokens chosen_text).length ≤ 19 by decide) ⟨by decide⟩

end quawk
