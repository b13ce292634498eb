import Quawk.FrontEnd
import Quawk.Grammar
import Quawk.SpelledText

namespace quawk

/-- The scanner's expectation behind a token, if a slash stands where it is taken for an operator. -/
def slash_step (expect_operand : Bool) (kind : TokenKind) : Option Bool :=
  if expect_operand = true ∧ (kind = .slash ∨ kind = .slash_equal) then none
  else some (operand_after expect_operand kind)

/-- What the scanner may expect behind a word of a nonterminal: no operand behind an expression. -/
def expectations (name : Nonterminal) : List Bool :=
  if name ∈ [.subscript_list, .lvalue, .expr, .assign_expr, .conditional_expr, .or_expr, .and_expr, .compare_expr,
    .match_expr, .in_expr, .concat_expr, .add_expr, .mul_expr, .pow_expr, .unary_expr, .postfix_expr, .primary,
    .func_call, .bare_length_call, .getline_expr, .getline_target_only, .getline_named_target]
  then [false] else [false, true]

/-- What it may expect before one: an operator of assignment comes behind its target. -/
def expectations_before (name : Nonterminal) : List Bool := if name = .assign_op then [false] else [false, true]

theorem rules_keep_expectations (name : Nonterminal) :
    ∃ behind, (quawk_ebnf name).follow slash_step expectations_before expectations (expectations_before name) =
      some behind ∧ behind ⊆ expectations name := by
  cases name <;> exact ⟨_, rfl, by decide⟩

/-- The grammar has a slash only where the scanner takes it for an operator. -/
theorem derivable_slashes {kinds : List TokenKind} (h : Derivable .program kinds) (expect_operand : Bool) :
    ∃ last, kinds.foldlM slash_step expect_operand = some last := by
  obtain ⟨last, _, hlast⟩ := h.follow rules_keep_expectations [false, true] _ rfl expect_operand
    (by cases expect_operand <;> decide)
  exact ⟨last, hlast⟩

/-- Every regex of a token sequence stands where the scanner expects an operand. -/
def regexes_expected (expect_operand : Bool) : List TokenKind → Bool
  | [] => true
  | kind :: kinds => (kind != .regex || expect_operand) && regexes_expected (operand_after expect_operand kind) kinds

variable {classes : CharClasses}

theorem spelled_ne_eof {kind : TokenKind} {chars rest : Text} (h : Spelled classes kind chars rest) : kind ≠ .eof := by
  cases h with
  | punctuation hkind => exact lookup_ne_eof (by decide) hkind
  | operator hkind => exact lookup_ne_eof (by decide) hkind
  | word => exact keyword_ne_eof _
  | _ => decide

theorem spelled_length {kind : TokenKind} {chars rest : Text} (h : Spelled classes kind chars rest) :
    rest.length < (chars ++ rest).length := by
  have hne : chars ≠ [] := by cases h <;> simp
  have := List.length_pos_of_ne_nil hne
  rw [List.length_append]
  omega

theorem lookup_forall {K : Type} [BEq K] [LawfulBEq K] {table : List (K × TokenKind)} (holds : TokenKind → Prop)
    (htable : ∀ entry ∈ table, holds entry.2) {key : K} {kind : TokenKind} (h : table.lookup key = some kind) :
    holds kind := by
  obtain ⟨before, after, heq, _⟩ := List.lookup_eq_some_iff.mp h
  exact htable (key, kind) (heq ▸ List.mem_append_right _ List.mem_cons_self)

theorem spelled_regex {kind : TokenKind} {chars rest : Text} (h : Spelled classes kind chars rest)
    (hkind : kind = .regex) : ∃ body, chars = '/' :: body := by
  cases h with
  | punctuation hlookup => exact absurd hkind (lookup_forall (· ≠ .regex) (by decide) hlookup)
  | operator hlookup => exact absurd hkind (lookup_forall (· ≠ .regex) (by decide) hlookup)
  | @word first chars =>
    cases hlookup : KEYWORDS.lookup (String.ofList (first :: chars)) with
    | none => rw [hlookup] at hkind; cases hkind
    | some keyword =>
      have hkeywords : ∀ keyword ∈ KEYWORDS.map Prod.snd, keyword ≠ .regex := by decide
      rw [hlookup] at hkind
      exact absurd hkind (lookup_forall (· ≠ .regex) (fun entry hentry => hkeywords _ (List.mem_map_of_mem hentry)) hlookup)
  | regex => exact ⟨_, rfl⟩
  | _ => cases hkind

/-- A slash that is taken for an operator where a regex is written. -/
theorem scan_token_misread (rest : Text) : ∃ token later after,
    scan_token classes text_stream ⟨'/' :: rest, false⟩ = .ok (some token, ⟨later, after⟩) ∧ token.kind ≠ .eof ∧
      token.kind ≠ .regex ∧ later.length < ('/' :: rest).length := by
  by_cases hequal : rest.head? = some '='
  · obtain ⟨later, rfl⟩ : ∃ later, rest = '=' :: later := List.head?_eq_some_iff.mp hequal
    have hspelled : Spelled classes .slash_equal ['/', '='] later := .slash_equal
    exact ⟨_, later, _, scan_token_spelled hspelled nofun fun _ => rfl, nofun, nofun, by simp⟩
  · have hspelled : Spelled classes .slash ['/'] rest := .slash hequal
    exact ⟨_, rest, _, scan_token_spelled hspelled nofun fun _ => rfl, nofun, nofun, Nat.lt_succ_self _⟩

/-- Another token in front of the others. -/
theorem lexed_cons {later : Except LexFailure (List Token)} {token : Token} {kind : TokenKind} {kinds : List TokenKind} :
    (∃ lexed, later.map (token :: ·) = .ok lexed ∧ lexed.map Token.kind = kind :: kinds) ↔
      token.kind = kind ∧ ∃ lexed, later = .ok lexed ∧ lexed.map Token.kind = kinds := by
  cases later with
  | error failure => simp [Except.map]
  | ok tokens => simp [Except.map]

/-- The scanner gives the tokens that a text is written with exactly if it expects an operand at every regex. -/
theorem written_scan {tokens : List (TokenKind × Text)} {text : Text} (h : WrittenAs classes tokens text)
    {expect_operand : Bool} {last : Bool} (hslashes : (tokens.map Prod.fst).foldlM slash_step expect_operand = some last) :
    Reaches classes expect_operand text fun scanned =>
      (∃ lexed, scanned = .ok lexed ∧ lexed.map Token.kind = tokens.map Prod.fst ++ [.eof]) ↔
        regexes_expected expect_operand (tokens.map Prod.fst) = true := by
  induction h generalizing expect_operand with
  | @done gap hgap =>
    have hend : Reaches classes expect_operand [] fun scanned =>
        (∃ lexed, scanned = .ok lexed ∧ lexed.map Token.kind = [] ++ [.eof]) ↔ regexes_expected expect_operand [] = true :=
      reaches_end ⟨fun _ => rfl, fun _ => ⟨_, rfl, rfl⟩⟩
    have hreaches := hgap.reaches hend
    rw [List.append_nil] at hreaches
    exact hreaches
  | @token kind chars gap rest tokens hgap hspelled _ ih =>
    refine hgap.reaches ?_
    rw [List.map_cons, List.foldlM_cons] at hslashes
    obtain ⟨after, hstep, hlater⟩ := Option.bind_eq_some_iff.mp hslashes
    unfold slash_step at hstep
    split_ifs at hstep with hslash
    obtain rfl := Option.some.inj hstep
    simp only [List.map_cons, List.cons_append]
    by_cases hregex : kind = .regex ∧ expect_operand = false
    · -- the slash of the regex is taken for an operator
      obtain ⟨rfl, rfl⟩ := hregex
      obtain ⟨body, rfl⟩ := spelled_regex hspelled rfl
      obtain ⟨token, later, after, hscanned, heof, hkind, hless⟩ :
          ∃ token later after, scan_token classes _ ⟨_, _⟩ = _ ∧ _ := scan_token_misread (body ++ rest)
      refine reaches_token heof hscanned hless fun fuel _ => ?_
      dsimp only
      rw [lexed_cons]
      exact ⟨fun ⟨hsame, _⟩ => absurd hsame hkind, fun h => by cases h⟩
    · have hoperand : kind = .regex → expect_operand = true := fun heq => by
        by_contra hfalse
        exact hregex ⟨heq, Bool.eq_false_of_not_eq_true hfalse⟩
      have hscanned := scan_token_spelled hspelled hoperand fun h => by
        by_contra htrue
        exact hslash ⟨Bool.eq_true_of_not_eq_false htrue, h⟩
      refine reaches_token (spelled_ne_eof hspelled) hscanned (spelled_length hspelled) fun fuel hfuel => ?_
      dsimp only
      rw [lexed_cons]
      have hrest := ih hlater fuel hfuel
      dsimp only at hrest
      have hexpected : (kind != .regex || expect_operand) = true := by
        rw [Bool.or_eq_true, bne_iff_ne]
        by_cases h : kind = .regex
        · exact .inr (hoperand h)
        · exact .inl h
      unfold regexes_expected
      rw [hexpected, Bool.true_and, ← hrest]
      exact ⟨And.right, fun h => ⟨rfl, h⟩⟩

/-- The scanner tells the slashes of a program apart, so that it gives the tokens that the program is written with, exactly
if every regex stands at the start or behind a token after which it expects an operand. -/
theorem slashes_classified_iff (classes : CharClasses) {tokens : List (TokenKind × Text)} {text : Text}
    (hderivable : Derivable .program (tokens.map Prod.fst)) (hwritten : WrittenAs classes tokens text) :
    (∃ lexed, lex classes (.from_inline text) = .ok lexed ∧ lexed.map Token.kind = tokens.map Prod.fst ++ [.eof]) ↔
      regexes_expected true (tokens.map Prod.fst) = true := by
  obtain ⟨last, hslashes⟩ := derivable_slashes hderivable true
  have hscan := written_scan hwritten hslashes (text.length + 1) (Nat.lt_succ_self _)
  dsimp only at hscan
  rw [← hscan]
  have hsame := congrArg (Option.map (List.map Prod.fst)) (lex_of_scan classes text)
  have hkinds : Prod.fst ∘ shape = Token.kind := rfl
  simp only [Option.map_map, List.map_comp_map, hkinds] at hsame
  have hiff (scanned : Except LexFailure (List Token)) (kinds : List TokenKind) :
      (∃ lexed, scanned = .ok lexed ∧ lexed.map Token.kind = kinds) ↔
        scanned.toOption.map (List.map Token.kind) = some kinds := by
    cases scanned with
    | error failure => exact ⟨fun ⟨_, h, _⟩ => (nomatch h), nofun⟩
    | ok lexed =>
      refine ⟨fun ⟨lexed', h, hlexed⟩ => ?_, fun h => ⟨lexed, rfl, Option.some.inj h⟩⟩
      obtain rfl := Except.ok.inj h
      exact congrArg some hlexed
  rw [hiff, hiff, hsame]

theorem seq_empty {first second : Rule} {kinds : List TokenKind} (h : Ebnf.Derives quawk_ebnf first kinds)
    (h' : Ebnf.Derives quawk_ebnf second []) : Ebnf.Derives quawk_ebnf (.seq first second) kinds := by
  have hseq := h.seq h'
  rwa [List.append_nil] at hseq

theorem expr_of_mul {kinds : List TokenKind} (h : Derivable .mul_expr kinds) : Derivable .expr kinds := by
  have hadd : Derivable .add_expr kinds := .nonterminal (seq_empty h .star_nil)
  have hconcat : Derivable .concat_expr kinds := .nonterminal (seq_empty hadd .star_nil)
  have hin : Derivable .in_expr kinds := .nonterminal (seq_empty hconcat .opt_none)
  have hmatch : Derivable .match_expr kinds := .nonterminal (seq_empty hin .star_nil)
  have hcompare : Derivable .compare_expr kinds := .nonterminal (seq_empty hmatch .star_nil)
  have hand : Derivable .and_expr kinds := .nonterminal (seq_empty hcompare .star_nil)
  have hor : Derivable .or_expr kinds := .nonterminal (seq_empty hand .star_nil)
  have hconditional : Derivable .conditional_expr kinds := .nonterminal (seq_empty hor .opt_none)
  exact .nonterminal (.nonterminal (.alt_left hconditional))

theorem pow_of_primary {kinds : List TokenKind} (h : Derivable .primary kinds) : Derivable .pow_expr kinds := by
  have hincrement : Derivable .postfix_expr kinds := .nonterminal (seq_empty h .opt_none)
  have hunary : Derivable .unary_expr kinds := .nonterminal (.alt_right hincrement)
  exact .nonterminal (seq_empty hunary .opt_none)

theorem pow_of_ident : Derivable .pow_expr [.ident] :=
  pow_of_primary (.nonterminal (.alt_right (.alt_right (.alt_right (.alt_right (.alt_left (.nonterminal (.terminal _))))))))

theorem expr_of_pow {kinds : List TokenKind} (h : Derivable .pow_expr kinds) : Derivable .expr kinds :=
  expr_of_mul (.nonterminal (seq_empty h .star_nil))

theorem program_of_pattern_action {kinds : List TokenKind} (h : Derivable .pattern_action kinds) :
    Derivable .program kinds := by
  have hitems := Ebnf.Derives.star_cons (.nonterminal (.alt_right h) : Derivable .item kinds) .star_nil
  rw [List.append_nil] at hitems
  exact .nonterminal hitems

/-- The tokens of `x/y`. -/
def quotient_tokens : List (TokenKind × Text) := [(.ident, ['x']), (.slash, ['/']), (.ident, ['y'])]

theorem quotient_derivable : Derivable .program (quotient_tokens.map Prod.fst) := by
  have hmul : Derivable .mul_expr [.ident, .slash, .ident] :=
    .nonterminal (.seq pow_of_ident (.star_cons (.seq (.alt_right (.alt_left (.terminal _))) pow_of_ident) .star_nil))
  have hpattern : Derivable .pattern [.ident, .slash, .ident] := .nonterminal (.alt_right (.alt_right (expr_of_mul hmul)))
  exact program_of_pattern_action (.nonterminal (.alt_right (.alt_left (seq_empty hpattern .opt_none))))

theorem spelled_letter {char : Char} (hchar : char ∈ ['x', 'y']) {rest : Text}
    (hrest : Stops (is_word_char latin_classes) rest) : Spelled latin_classes .ident [char] rest := by
  simp only [List.mem_cons, List.not_mem_nil, or_false] at hchar
  obtain rfl | rfl := hchar
  · have hword : Spelled latin_classes ((KEYWORDS.lookup (String.ofList ['x'])).getD .ident) ['x'] rest :=
      .word (by decide) (by simp) hrest
    exact hword
  · have hword : Spelled latin_classes ((KEYWORDS.lookup (String.ofList ['y'])).getD .ident) ['y'] rest :=
      .word (by decide) (by simp) hrest
    exact hword

theorem quotient_written : WrittenAs latin_classes quotient_tokens ['x', '/', 'y'] :=
  .token .nil (spelled_letter (by decide) (fun next hnext => by cases hnext; rfl))
    (.token .nil (.slash (by decide)) (.token .nil (spelled_letter (by decide) nofun) (.done .nil)))

theorem slashes_classified_quotient : ∃ lexed, lex latin_classes (.from_inline ['x', '/', 'y']) = .ok lexed ∧
    lexed.map Token.kind = [.ident, .slash, .ident, .eof] :=
  (slashes_classified_iff latin_classes quotient_derivable quotient_written).mpr rfl

/-- The tokens of `{print x>>/y/}`. -/
def append_tokens : List (TokenKind × Text) :=
  [(.lbrace, ['\x7b']), (.print_kw, "print".toList), (.ident, ['x']), (.greater_greater, ['>', '>']),
    (.regex, ['/', 'y', '/']), (.rbrace, ['\x7d'])]

theorem append_derivable : Derivable .program (append_tokens.map Prod.fst) := by
  have hregex : Derivable .expr [.regex] :=
    expr_of_pow (pow_of_primary (.nonterminal (.alt_right (.alt_right (.alt_left (.terminal _))))))
  have hredirect : Derivable .output_redirect [.greater_greater, .regex] :=
    .nonterminal (.alt_right (.alt_left (.seq (.terminal _) hregex)))
  have hlist : Derivable .expr_list [.ident] := .nonterminal (seq_empty (expr_of_pow pow_of_ident) .star_nil)
  have hprint : Derivable .print_stmt [.print_kw, .ident, .greater_greater, .regex] :=
    .nonterminal (.seq (.terminal _) (.seq (.opt_some hlist) (.opt_some hredirect)))
  have hstmt : Derivable .stmt [.print_kw, .ident, .greater_greater, .regex] := by
    refine .nonterminal ?_
    iterate 13 refine .alt_right ?_
    exact .nonterminal (.alt_left hprint)
  have hlist : Derivable .stmt_list [.print_kw, .ident, .greater_greater, .regex] :=
    .nonterminal (seq_empty hstmt (seq_empty .star_nil .opt_none))
  have haction : Derivable .action [.lbrace, .print_kw, .ident, .greater_greater, .regex, .rbrace] :=
    .nonterminal (.seq (.terminal _) (.seq (.opt_some hlist) (.terminal _)))
  exact program_of_pattern_action (.nonterminal (.alt_right (.alt_right haction)))

theorem append_written : WrittenAs latin_classes append_tokens "\x7bprint x>>/y/\x7d".toList := by
  have hprint (rest : Text) (hrest : Stops (is_word_char latin_classes) rest) :
      Spelled latin_classes .print_kw "print".toList rest := by
    have hword : Spelled latin_classes ((KEYWORDS.lookup (String.ofList "print".toList)).getD .ident) "print".toList
        rest := .word (by decide) (List.all_eq_true.mp (by decide)) hrest
    exact hword
  have hregex : Spelled latin_classes .regex ('/' :: ['y'] ++ ['/']) ['\x7d'] :=
    .regex (.plain (by decide) (by decide) .nil)
  refine .token .nil (.punctuation rfl fun next hnext => by cases hnext; rfl) (.token .nil (hprint _ ?_) ?_)
  · intro next hnext
    cases hnext
    rfl
  · refine .token (.blank rfl .nil) (spelled_letter (by decide) fun next hnext => by cases hnext; rfl) ?_
    refine .token .nil (.operator rfl (by decide)) (.token .nil hregex ?_)
    exact .token .nil (.punctuation rfl nofun) (.done .nil)

/-- The regex behind `>>` is scanned as a division. -/
theorem slash_misread : Derivable .program (append_tokens.map Prod.fst) ∧
    WrittenAs latin_classes append_tokens "\x7bprint x>>/y/\x7d".toList ∧
    ¬ ∃ lexed, lex latin_classes (.from_inline "\x7bprint x>>/y/\x7d".toList) = .ok lexed ∧
      lexed.map Token.kind = append_tokens.map Prod.fst ++ [.eof] := by
  refine ⟨append_derivable, append_written, fun ⟨lexed, hlex, hkinds⟩ => ?_⟩
  have hscanned : (lex latin_classes (.from_inline "\x7bprint x>>/y/\x7d".toList)).toOption.map (List.map Token.kind) =
      some [.lbrace, .print_kw, .ident, .greater_greater, .slash, .ident, .slash, .rbrace, .eof] := by
    decide +kernel
  rw [hlex] at hscanned
  have hsame := (Option.some.inj hscanned).symm.trans hkinds
  revert hsame
  decide

end quawk
