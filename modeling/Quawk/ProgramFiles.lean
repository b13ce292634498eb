import Quawk.LogicalSource

namespace quawk

/-- Two tokens of one kind and text, at places that belong together. -/
structure Token.Matches (points : SourcePoint → SourcePoint → Prop) (token token' : Token) : Prop where
  kind : token.kind = token'.kind
  text : token.text = token'.text
  start : points token.span.start token'.span.start
  stop : points token.span.stop token'.span.stop

/-- Two scans that end the same way. -/
inductive Agree {α β : Type} (points : SourcePoint → SourcePoint → Prop) (values : α → β → Prop) :
    Except LexFailure α → Except LexFailure β → Prop where
  | ok {value : α} {value' : β} (h : values value value') : Agree points values (.ok value) (.ok value')
  | lex_error {message : LexMessage} {span span' : SourceSpan} (hstart : points span.start span'.start)
    (hstop : points span.stop span'.stop) :
    Agree points values (.error (.lex_error message span)) (.error (.lex_error message span'))
  | unfinished : Agree points values (.error .unfinished) (.error .unfinished)

theorem Agree.ite {α β : Type} {points : SourcePoint → SourcePoint → Prop} {values : α → β → Prop} {p : Prop} [Decidable p]
    {first second : Except LexFailure α} {first' second' : Except LexFailure β} (hfirst : Agree points values first first')
    (hsecond : Agree points values second second') :
    Agree points values (if p then first else second) (if p then first' else second') := by
  by_cases h : p
  · rwa [if_pos h, if_pos h]
  · rwa [if_neg h, if_neg h]

/-- Two scanners at the same place. -/
structure Lexer.Matches {S S' : Type} (states : S → S' → Prop) (lexer : Lexer S) (lexer' : Lexer S') : Prop where
  cursor : states lexer.cursor lexer'.cursor
  expect_operand : lexer.expect_operand = lexer'.expect_operand

/-- Two scanned tokens, if any, and the scanners behind them. -/
structure Scanned {S S' : Type} (points : SourcePoint → SourcePoint → Prop) (states : S → S' → Prop)
    (scanned : Option Token × Lexer S) (scanned' : Option Token × Lexer S') : Prop where
  token : Option.Rel (Token.Matches points) scanned.1 scanned'.1
  lexer : scanned.2.Matches states scanned'.2

namespace Scanned

variable {S S' : Type} {classes : CharClasses} {stream : CharStream S SourcePoint} {stream' : CharStream S' SourcePoint}
variable {points : SourcePoint → SourcePoint → Prop} {states : S → S' → Prop} {cursor : S} {cursor' : S'}
variable {start start' : SourcePoint} {lexer : Lexer S} {lexer' : Lexer S'}

theorem skip_while (sim : stream.Simulates stream' points states) (predicate : Char → Bool) (fuel : Nat)
    (h : states cursor cursor') :
    states (skip_while stream predicate fuel cursor) (skip_while stream' predicate fuel cursor') := by
  induction fuel generalizing cursor cursor' with
  | zero => exact h
  | succ fuel ih =>
    unfold quawk.skip_while
    rw [← sim.peek h 0]
    split
    · exact h
    · split
      · exact ih (sim.advance h)
      · exact h

theorem take_while (sim : stream.Simulates stream' points states) (predicate : Char → Bool) (fuel : Nat)
    (h : states cursor cursor') :
    (take_while stream predicate fuel cursor).1 = (take_while stream' predicate fuel cursor').1 ∧
      states (take_while stream predicate fuel cursor).2 (take_while stream' predicate fuel cursor').2 := by
  induction fuel generalizing cursor cursor' with
  | zero => exact ⟨rfl, h⟩
  | succ fuel ih =>
    unfold quawk.take_while
    rw [← sim.peek h 0]
    split
    · exact ⟨rfl, h⟩
    · split
      · obtain ⟨htext, hstates⟩ := ih (sim.advance h)
        exact ⟨by simp only [sim.char h, htext], hstates⟩
      · exact ⟨rfl, h⟩

theorem take_number (sim : stream.Simulates stream' points states) (seen_decimal : Bool) (fuel : Nat)
    (h : states cursor cursor') :
    (take_number classes stream seen_decimal fuel cursor).1 =
        (take_number classes stream' seen_decimal fuel cursor').1 ∧
      states (take_number classes stream seen_decimal fuel cursor).2
        (take_number classes stream' seen_decimal fuel cursor').2 := by
  induction fuel generalizing cursor cursor' seen_decimal with
  | zero => exact ⟨rfl, h⟩
  | succ fuel ih =>
    unfold quawk.take_number
    rw [← sim.peek h 0]
    split
    · exact ⟨rfl, h⟩
    · dsimp only
      split
      · obtain ⟨htext, hstates⟩ := ih _ (sim.advance h)
        exact ⟨by simp only [sim.char h, htext], hstates⟩
      · exact ⟨rfl, h⟩

theorem take_string (sim : stream.Simulates stream' points states) (escaped : Bool) (fuel : Nat)
    (h : states cursor cursor') :
    (take_string stream escaped fuel cursor).1 = (take_string stream' escaped fuel cursor').1 ∧
      (take_string stream escaped fuel cursor).2.1 = (take_string stream' escaped fuel cursor').2.1 ∧
      states (take_string stream escaped fuel cursor).2.2 (take_string stream' escaped fuel cursor').2.2 := by
  induction fuel generalizing cursor cursor' escaped with
  | zero => exact ⟨rfl, rfl, h⟩
  | succ fuel ih =>
    unfold quawk.take_string
    rw [← sim.peek h 0]
    split
    · exact ⟨rfl, rfl, h⟩
    · split
      · exact ⟨rfl, rfl, h⟩
      · dsimp only
        split
        · exact ⟨by rw [sim.char h], rfl, sim.advance h⟩
        · obtain ⟨htext, hclosed, hstates⟩ := ih _ (sim.advance h)
          exact ⟨by simp only [sim.char h, htext], hclosed, hstates⟩

theorem take_regex (sim : stream.Simulates stream' points states) (escaped in_char_class : Bool) (fuel : Nat)
    (h : states cursor cursor') :
    (take_regex stream escaped in_char_class fuel cursor).1 =
        (take_regex stream' escaped in_char_class fuel cursor').1 ∧
      (take_regex stream escaped in_char_class fuel cursor).2.1 =
        (take_regex stream' escaped in_char_class fuel cursor').2.1 ∧
      states (take_regex stream escaped in_char_class fuel cursor).2.2
        (take_regex stream' escaped in_char_class fuel cursor').2.2 := by
  induction fuel generalizing cursor cursor' escaped in_char_class with
  | zero => exact ⟨rfl, rfl, h⟩
  | succ fuel ih =>
    unfold quawk.take_regex
    rw [← sim.peek h 0]
    split
    · exact ⟨rfl, rfl, h⟩
    · split
      · exact ⟨rfl, rfl, h⟩
      · dsimp only
        split
        · exact ⟨by rw [sim.char h], rfl, sim.advance h⟩
        · obtain ⟨htext, hclosed, hstates⟩ := ih _ _ (sim.advance h)
          exact ⟨by simp only [sim.char h, htext], hclosed, hstates⟩

theorem token_from (sim : stream.Simulates stream' points states) (kind : TokenKind) (text : Option Text)
    (hstart : points start start') (h : lexer.Matches states lexer') :
    Scanned points states (token_from stream start kind text lexer) (token_from stream' start' kind text lexer') := by
  refine ⟨.some ⟨rfl, rfl, hstart, sim.point h.cursor⟩, h.cursor, ?_⟩
  simp only [quawk.token_from, finish_token, h.expect_operand]

theorem scan_multi_char_operator (sim : stream.Simulates stream' points states) (hstart : points start start')
    (h : lexer.Matches states lexer') :
    Option.Rel (Scanned points states) (scan_multi_char_operator stream start lexer)
      (scan_multi_char_operator stream' start' lexer') := by
  unfold quawk.scan_multi_char_operator
  rw [sim.peek h.cursor 0, sim.peek h.cursor 1]
  cases stream'.peek lexer'.cursor 0 with
  | none => exact .none
  | some first =>
    cases stream'.peek lexer'.cursor 1 with
    | none => exact .none
    | some second =>
      dsimp only [Option.bind_eq_bind, Option.bind_some]
      cases MULTI_CHAR_TOKEN_KINDS.lookup (first, second) with
      | none => exact .none
      | some kind => exact .some (token_from sim kind none hstart ⟨sim.advance (sim.advance h.cursor), h.expect_operand⟩)

theorem scan_identifier_or_keyword (sim : stream.Simulates stream' points states) (hstart : points start start')
    (h : lexer.Matches states lexer') :
    Scanned points states (scan_identifier_or_keyword classes stream start lexer)
      (scan_identifier_or_keyword classes stream' start' lexer') := by
  obtain ⟨htext, hstates⟩ := take_while sim (fun char => classes.isalnum char || char == '_')
    (stream.remaining lexer.cursor) h.cursor
  unfold quawk.scan_identifier_or_keyword
  rw [← sim.remaining h.cursor]
  dsimp only
  rw [← htext]
  exact token_from sim _ _ hstart ⟨hstates, h.expect_operand⟩

theorem scan_number (sim : stream.Simulates stream' points states) (hstart : points start start')
    (h : lexer.Matches states lexer') :
    Scanned points states (scan_number classes stream start lexer) (scan_number classes stream' start' lexer') := by
  obtain ⟨htext, hstates⟩ : _ = (quawk.take_number classes stream' false _ lexer'.cursor).1 ∧ _ :=
    take_number sim false (stream.remaining lexer.cursor) h.cursor
  unfold quawk.scan_number
  rw [← sim.remaining h.cursor]
  dsimp only
  rw [← htext]
  exact token_from sim _ _ hstart ⟨hstates, h.expect_operand⟩

theorem scan_string_literal (sim : stream.Simulates stream' points states) (hstart : points start start')
    (h : lexer.Matches states lexer') :
    Agree points (Scanned points states) (scan_string_literal stream start lexer)
      (scan_string_literal stream' start' lexer') := by
  have hnext := sim.advance h.cursor
  obtain ⟨htext, hclosed, hstates⟩ := take_string sim false (stream.remaining (stream.advance lexer.cursor).2) hnext
  unfold quawk.scan_string_literal
  dsimp only
  rw [← sim.remaining hnext, ← hclosed, ← htext, ← sim.char h.cursor]
  split
  · exact .ok (token_from sim _ _ hstart ⟨hstates, h.expect_operand⟩)
  · exact .lex_error hstart (sim.point hstates)

theorem scan_regex_literal (sim : stream.Simulates stream' points states) (hstart : points start start')
    (h : lexer.Matches states lexer') :
    Agree points (Scanned points states) (scan_regex_literal stream start lexer)
      (scan_regex_literal stream' start' lexer') := by
  have hnext := sim.advance h.cursor
  obtain ⟨htext, hclosed, hstates⟩ :=
    take_regex sim false false (stream.remaining (stream.advance lexer.cursor).2) hnext
  unfold quawk.scan_regex_literal
  dsimp only
  rw [← sim.remaining hnext, ← hclosed, ← htext, ← sim.char h.cursor]
  split
  · exact .ok (token_from sim _ _ hstart ⟨hstates, h.expect_operand⟩)
  · exact .lex_error hstart (sim.point hstates)

theorem scan_slash_or_regex (sim : stream.Simulates stream' points states) (hstart : points start start')
    (h : lexer.Matches states lexer') :
    Agree points (Scanned points states) (scan_slash_or_regex stream start lexer)
      (scan_slash_or_regex stream' start' lexer') := by
  have hnext := sim.advance h.cursor
  unfold quawk.scan_slash_or_regex
  dsimp only
  rw [← h.expect_operand, ← sim.peek h.cursor 1]
  split
  · exact scan_regex_literal sim hstart h
  · split
    · exact .ok (token_from sim _ _ hstart ⟨sim.advance hnext, rfl⟩)
    · exact .ok (token_from sim _ _ hstart ⟨hnext, rfl⟩)

/-- One token: the two scanners see the same characters, and so take the same branch. -/
theorem scan_token (sim : stream.Simulates stream' points states) (h : lexer.Matches states lexer') :
    Agree points (Scanned points states) (scan_token classes stream lexer) (scan_token classes stream' lexer') := by
  have hstart := sim.point h.cursor
  have hnext := sim.advance h.cursor
  have hoperator := scan_multi_char_operator sim hstart h
  unfold quawk.scan_token
  dsimp only
  rw [← sim.peek h.cursor 0, ← sim.peek h.cursor 1]
  cases stream.peek lexer.cursor 0 with
  | none => exact .ok ⟨.some ⟨rfl, rfl, hstart, hstart⟩, h⟩
  | some char =>
    refine .ite ?_ (.ite (.ok ⟨.none, sim.advance hnext, h.expect_operand⟩)
      (.ite (.ok (token_from sim _ _ hstart ⟨hnext, h.expect_operand⟩)) (.ite ?_ (.ite (scan_slash_or_regex sim hstart h) ?_))))
    · rw [skip_horizontal_whitespace, skip_horizontal_whitespace, ← sim.remaining h.cursor]
      exact .ok ⟨.none, skip_while sim _ _ h.cursor, h.expect_operand⟩
    · rw [skip_comment, skip_comment, ← sim.remaining h.cursor]
      exact .ok ⟨.none, skip_while sim _ _ h.cursor, h.expect_operand⟩
    · generalize quawk.scan_multi_char_operator stream _ lexer = scanned at hoperator ⊢
      generalize quawk.scan_multi_char_operator stream' _ lexer' = scanned' at hoperator ⊢
      cases hoperator with
      | some hscanned => exact .ok hscanned
      | none =>
        cases PUNCTUATION_KINDS.lookup char with
        | some kind => exact .ok (token_from sim _ _ hstart ⟨hnext, h.expect_operand⟩)
        | none =>
          exact .ite (scan_string_literal sim hstart h) (.ite (.ok (scan_identifier_or_keyword sim hstart h))
            (.ite (.ok (scan_number sim hstart h)) (.lex_error hstart (sim.point hnext))))

theorem scan_tokens (sim : stream.Simulates stream' points states) (fuel : Nat) (h : lexer.Matches states lexer') :
    Agree points (List.Forall₂ (Token.Matches points)) (scan_tokens classes stream fuel lexer)
      (scan_tokens classes stream' fuel lexer') := by
  induction fuel generalizing lexer lexer' with
  | zero => exact .unfinished
  | succ fuel ih =>
    have hscanned : Agree points (Scanned points states) (quawk.scan_token classes stream lexer) _ := scan_token sim h
    unfold quawk.scan_tokens
    generalize quawk.scan_token classes stream lexer = scanned at hscanned
    generalize quawk.scan_token classes stream' lexer' = scanned' at hscanned
    cases hscanned with
    | lex_error hstart hstop => exact .lex_error hstart hstop
    | unfinished => exact .unfinished
    | @ok scanned scanned' hvalues =>
      obtain ⟨token, lexer⟩ := scanned
      obtain ⟨token', lexer'⟩ := scanned'
      have hlater := ih hvalues.lexer
      cases hvalues.token with
      | none => exact hlater
      | @some token token' htoken =>
        simp only [bind, Except.bind, ← htoken.kind]
        dsimp only at hlater
        generalize quawk.scan_tokens classes stream fuel lexer = later at hlater
        generalize quawk.scan_tokens classes stream' fuel lexer' = later' at hlater
        split
        · exact .ok (.cons htoken .nil)
        · cases hlater with
          | ok htokens => exact .ok (.cons htoken htokens)
          | lex_error hstart hstop => exact .lex_error hstart hstop
          | unfinished => exact .unfinished

end Scanned

/-- The places of the same character in the files and in their joined text. -/
def SamePlace (texts : List Text) (point point' : SourcePoint) : Prop :=
  ∃ offset ≤ (joined texts).length, point = origin 0 texts offset ∧ point' = ⟨0, offset⟩

/-- Two cursors that have taken as much of the two programs. -/
def SameTaken (source source' : ProgramSource) (cursor cursor' : ValidCursor) : Prop :=
  ∃ taken, SourceCursor.Taken source taken cursor.val ∧ SourceCursor.Taken source' taken cursor'.val

theorem files_simulate (source : ProgramSource) :
    source_stream.Simulates source_stream (SamePlace source.texts)
      (SameTaken source (.from_inline (joined source.texts))) where
  peek := by
    rintro cursor cursor' ⟨taken, h, h'⟩ offset
    exact (h.peek offset).trans (h'.peek offset).symm
  advance := by
    rintro cursor cursor' ⟨taken, h, h'⟩
    exact ⟨_, h.advance.2, h'.advance.2⟩
  point := by
    rintro cursor cursor' ⟨taken, h, h'⟩
    exact ⟨taken, h.within, h.point, h'.point⟩
  remaining := by
    rintro cursor cursor' ⟨taken, h, h'⟩
    exact h.rest_length.trans h'.rest_length.symm

theorem lex_joined (classes : CharClasses) (source : ProgramSource) :
    Agree (SamePlace source.texts) (List.Forall₂ (Token.Matches (SamePlace source.texts))) (lex classes source)
      (lex classes (.from_inline (joined source.texts))) := by
  have sim := files_simulate source
  have hstart : SameTaken source (.from_inline (joined source.texts))
      ⟨.start source, SourceCursor.start_valid _⟩ ⟨.start (.from_inline (joined source.texts)), SourceCursor.start_valid _⟩ :=
    ⟨0, .start _, .start _⟩
  unfold lex scan_stream
  rw [← sim.remaining hstart]
  exact Scanned.scan_tokens sim _ ⟨hstart, rfl⟩

/-- The cursor behind that many steps. -/
def advanced (source : ProgramSource) (taken : Nat) : SourceCursor :=
  (fun cursor => cursor.advance.2)^[taken] (.start source)

theorem advanced_taken (source : ProgramSource) (taken : Nat) :
    SourceCursor.Taken source (min taken (joined source.texts).length) (advanced source taken) := by
  induction taken with
  | zero => exact (Nat.zero_min _).symm ▸ .start source
  | succ taken ih =>
    have hnext := ih.advance.2
    have hmin : min (min taken (joined source.texts).length + 1) (joined source.texts).length =
        min (taken + 1) (joined source.texts).length := by omega
    rw [hmin] at hnext
    unfold advanced at hnext ⊢
    rwa [Function.iterate_succ_apply']

/-- A character of the joined texts is the one at its origin, or the newline behind the file there. -/
theorem origin_char (index : Nat) (texts : List Text) {offset : Nat} (h : offset < (joined texts).length) :
    ∃ text, texts[(origin index texts offset).file_index - index]? = some text ∧
      index ≤ (origin index texts offset).file_index ∧
      (text ++ separator text)[(origin index texts offset).offset]? = (joined texts)[offset]? := by
  fun_induction origin index texts offset with
  | case1 => exact absurd h (Nat.not_lt_zero _)
  | case2 index text offset => exact ⟨text, by simp, Nat.le_refl _, List.getElem?_append_left h⟩
  | case3 index text next later offset length hinside =>
    refine ⟨text, by simp, Nat.le_refl _, ?_⟩
    rw [joined]
    exact (List.getElem?_append_left hinside).symm
  | case4 index text next later offset length hinside ih =>
    have hlater : offset - length < (joined (next :: later)).length := by
      rw [joined, List.length_append] at h
      omega
    obtain ⟨found, hfound, hindex, hchar⟩ := ih hlater
    refine ⟨found, ?_, by omega, ?_⟩
    · have hsucc : (origin (index + 1) (next :: later) (offset - length)).file_index - index =
          (origin (index + 1) (next :: later) (offset - length)).file_index - (index + 1) + 1 := by omega
      rw [hsucc]
      exact hfound
    · rw [hchar, joined, List.getElem?_append_right (Nat.le_of_not_lt hinside)]

theorem from_files_texts (files : List (String × Text)) :
    (ProgramSource.from_files files).texts = files.map Prod.snd := by
  simp [ProgramSource.texts, ProgramSource.from_files, Function.comp_def]

/-- Program files are read as their texts on lines of their own, and every token keeps its place in its file. -/
theorem files_as_one (classes : CharClasses) (files : List (String × Text)) :
    (∀ taken, (∀ offset, (advanced (.from_files files) taken).peek offset =
          (joined (files.map Prod.snd))[taken + offset]?) ∧
        (advanced (.from_files files) taken).advance.1 = (joined (files.map Prod.snd))[taken]? ∧
        ((advanced (.from_files files) taken).is_at_end = true ↔ (joined (files.map Prod.snd)).length ≤ taken)) ∧
      Agree (SamePlace (files.map Prod.snd)) (List.Forall₂ (Token.Matches (SamePlace (files.map Prod.snd))))
        (lex classes (.from_files files)) (lex classes (.from_inline (joined (files.map Prod.snd)))) ∧
      ∀ offset < (joined (files.map Prod.snd)).length, ∃ name text,
        files[(origin 0 (files.map Prod.snd) offset).file_index]? = some (name, text) ∧
          (text ++ separator text)[(origin 0 (files.map Prod.snd) offset).offset]? =
            (joined (files.map Prod.snd))[offset]? := by
  rw [← from_files_texts]
  refine ⟨fun taken => ?_, lex_joined classes _, fun offset hoffset => ?_⟩
  · have htaken := advanced_taken (.from_files files) taken
    rcases Nat.lt_or_ge taken (joined (ProgramSource.from_files files).texts).length with hinside | hend
    · rw [Nat.min_eq_left (Nat.le_of_lt hinside)] at htaken
      exact ⟨htaken.peek, htaken.advance.1, htaken.is_at_end.trans (by omega)⟩
    · rw [Nat.min_eq_right hend] at htaken
      refine ⟨fun offset => ?_, ?_, htaken.is_at_end.trans (by omega)⟩
      · rw [htaken.peek, List.getElem?_eq_none (by omega), List.getElem?_eq_none (by omega)]
      · rw [htaken.advance.1, List.getElem?_eq_none (Nat.le_refl _), List.getElem?_eq_none hend]
  · obtain ⟨text, htext, _, hchar⟩ := origin_char 0 _ hoffset
    rw [from_files_texts, List.getElem?_map, Nat.sub_zero] at htext
    obtain ⟨⟨name, text'⟩, hfile, rfl⟩ := Option.map_eq_some_iff.mp htext
    exact ⟨name, text', from_files_texts files ▸ hfile, hchar⟩

end quawk
