import Quawk.ScanSteps

namespace quawk

theorem extract_behind {before chars rest : Text} {first last : Nat} (hlast : last ≤ chars.length) :
    (before ++ (chars ++ rest)).extract (before.length + first) (before.length + last) = chars.extract first last := by
  rw [List.extract_eq_take_drop, List.extract_eq_take_drop, List.drop_append, List.drop_eq_nil_of_le (by omega),
    List.nil_append, show before.length + first - before.length = first by omega,
    show before.length + last - (before.length + first) = last - first by omega, List.drop_append,
    List.take_append_of_le_length]
  rw [List.length_drop]
  omega

theorem drop_behind {before chars rest : Text} {last : Nat} (hlast : last ≤ chars.length) :
    (before ++ (chars ++ rest)).drop (before.length + last) = chars.drop last ++ rest := by
  rw [List.drop_append, List.drop_eq_nil_of_le (by omega), List.nil_append,
    show before.length + last - before.length = last by omega, List.drop_append_of_le_length hlast]

/-- Every character of a gap is in a piece that the scanner passes over in one call. -/
theorem Gap.piece {gap rest : Text} (h : Gap gap rest) {offset : Nat} (hoffset : offset < gap.length) :
    ∃ first last, first ≤ offset ∧ offset < last ∧ last ≤ gap.length ∧
      Trivia (gap.extract first last) (gap.drop last ++ rest) := by
  induction h generalizing offset with
  | nil => cases hoffset
  | @blank char gap rest hchar _ ih =>
    cases offset with
    | zero =>
      refine ⟨0, 1, Nat.le_refl _, Nat.one_pos, Nat.succ_le_succ (Nat.zero_le _), .blanks (by simp [List.extract]) ?_⟩
      intro other hmem
      obtain rfl : other = char := by simpa [List.extract] using hmem
      exact hchar
    | succ offset =>
      obtain ⟨first, last, hfirst, hlast, hlength, htrivia⟩ := ih (Nat.lt_of_succ_lt_succ hoffset)
      refine ⟨first + 1, last + 1, Nat.succ_le_succ hfirst, Nat.succ_lt_succ hlast, Nat.succ_le_succ hlength, ?_⟩
      simpa [List.extract] using htrivia
  | @continued gap rest _ ih =>
    by_cases hpair : offset < 2
    · exact ⟨0, 2, Nat.zero_le _, hpair, by simp, .continued⟩
    · obtain ⟨first, last, hfirst, hlast, hlength, htrivia⟩ := @ih (offset - 2) (by simp at hoffset; omega)
      refine ⟨first + 2, last + 2, by omega, by omega, by simp; omega, ?_⟩
      simpa [List.extract] using htrivia
  | @comment body rest hbody hrest =>
    refine ⟨0, ('#' :: body).length, Nat.zero_le _, hoffset, Nat.le_refl _, ?_⟩
    rw [List.drop_length, List.nil_append, List.extract_eq_take_drop, Nat.sub_zero, List.drop_zero, List.take_length]
    exact .comment hbody hrest

/-- From a position on the spans of tokens make up a text with what the scanner passes over. -/
structure SpansTile (text : Text) (position : Nat) (tokens : List Token) : Prop where
  within : ∀ token ∈ tokens, token.span.start.file_index = 0 ∧ token.span.stop.file_index = 0 ∧
    token.span.start.offset ≤ token.span.stop.offset ∧ token.span.stop.offset ≤ text.length
  behind : ∀ token ∈ tokens, position ≤ token.span.start.offset
  ordered : tokens.Pairwise fun token later => token.span.stop.offset ≤ later.span.start.offset
  carried : ∀ token ∈ tokens, ∀ chars ∈ token.text,
    text.extract token.span.start.offset token.span.stop.offset = chars
  /-- What is in no span is part of a run of blanks, of a continued line's end or of a comment that meets no span. -/
  outside : ∀ offset, position ≤ offset → offset < text.length →
    (∀ token ∈ tokens, ¬ (token.span.start.offset ≤ offset ∧ offset < token.span.stop.offset)) →
      ∃ first last, position ≤ first ∧ first ≤ offset ∧ offset < last ∧
        (∀ token ∈ tokens, token.span.stop.offset ≤ first ∨ last ≤ token.span.start.offset) ∧
        Trivia (text.extract first last) (text.drop last)

variable {classes : CharClasses} {file : SourceFile}

theorem place_in_file {before chars : Text} (h : file.text = before ++ chars) :
    place ⟨[file]⟩ chars = ⟨0, before.length⟩ := by
  have hoffset : file.text.length - chars.length = before.length := by rw [h, List.length_append, Nat.add_sub_cancel]
  exact congrArg (SourcePoint.mk 0) hoffset

/-- The characters of a gap before the spans of the tokens behind it. -/
theorem gap_outside {before gap rest : Text} {tokens : List Token} (hgap : Gap gap rest)
    (htokens : ∀ token ∈ tokens, (before ++ gap).length ≤ token.span.start.offset) {offset : Nat}
    (hlow : before.length ≤ offset) (hhigh : offset < (before ++ gap).length) :
    ∃ first last, before.length ≤ first ∧ first ≤ offset ∧ offset < last ∧
      (∀ token ∈ tokens, token.span.stop.offset ≤ first ∨ last ≤ token.span.start.offset) ∧
      Trivia ((before ++ (gap ++ rest)).extract first last) ((before ++ (gap ++ rest)).drop last) := by
  rw [List.length_append] at hhigh htokens
  obtain ⟨first, last, hfirst, hlast, hlength, htrivia⟩ := hgap.piece (show offset - before.length < gap.length by omega)
  refine ⟨before.length + first, before.length + last, by omega, by omega, by omega, fun token hmem => .inr ?_, ?_⟩
  · have hstart := htokens token hmem
    omega
  · rwa [extract_behind hlength, drop_behind hlength]

/-- The end of a text has an empty span behind the last gap. -/
theorem SpansTile.eof {before gap : Text} (hgap : Gap gap []) : SpansTile (before ++ gap) before.length
    [⟨.eof, ⟨⟨0, (before ++ gap).length⟩, ⟨0, (before ++ gap).length⟩⟩, none⟩] := by
  refine ⟨fun token hmem => ?_, fun token hmem => ?_, List.pairwise_singleton _ _, fun token hmem => ?_, ?_⟩
  · rw [List.mem_singleton.mp hmem]
    exact ⟨rfl, rfl, Nat.le_refl _, Nat.le_refl _⟩
  · rw [List.mem_singleton.mp hmem, List.length_append]
    exact Nat.le_add_right _ _
  · rw [List.mem_singleton.mp hmem]
    exact nofun
  · intro offset hlow hhigh _
    have hstart : ∀ token ∈ [(⟨.eof, ⟨⟨0, (before ++ gap).length⟩, ⟨0, (before ++ gap).length⟩⟩, none⟩ : Token)],
        (before ++ gap).length ≤ token.span.start.offset := by
      intro token hmem
      rw [List.mem_singleton.mp hmem]
    have hpiece := gap_outside hgap hstart hlow hhigh
    rwa [List.append_nil] at hpiece

/-- A gap and a token before spans that make up what follows. -/
theorem SpansTile.token {before gap chars rest : Text} {kind : TokenKind} {kept : Option Text} {tokens : List Token}
    (hgap : Gap gap (chars ++ rest)) (hkept : ∀ other ∈ kept, other = chars)
    (hlater : SpansTile (before ++ (gap ++ (chars ++ rest))) (before ++ gap ++ chars).length tokens) :
    SpansTile (before ++ (gap ++ (chars ++ rest))) before.length
      (⟨kind, ⟨⟨0, (before ++ gap).length⟩, ⟨0, (before ++ gap ++ chars).length⟩⟩, kept⟩ :: tokens) := by
  have hstop : (before ++ gap ++ chars).length = (before ++ gap).length + chars.length := List.length_append
  have hstart : (before ++ gap).length = before.length + gap.length := List.length_append
  refine ⟨fun token hmem => ?_, fun token hmem => ?_, ?_, fun token hmem => ?_, ?_⟩
  · obtain rfl | hmem := List.mem_cons.mp hmem
    · refine ⟨rfl, rfl, hstop ▸ Nat.le_add_right _ _, ?_⟩
      simp only [List.length_append]
      omega
    · exact hlater.within token hmem
  · obtain rfl | hmem := List.mem_cons.mp hmem
    · exact hstart ▸ Nat.le_add_right _ _
    · have hbehind := hlater.behind token hmem
      omega
  · exact List.pairwise_cons.mpr ⟨fun token hmem => hlater.behind token hmem, hlater.ordered⟩
  · obtain rfl | hmem := List.mem_cons.mp hmem
    · intro other hother
      have hextract := @extract_behind (before ++ gap) chars rest 0 chars.length (Nat.le_refl _)
      have hwhole : chars.extract 0 chars.length = chars := by
        rw [List.extract_eq_take_drop, Nat.sub_zero, List.drop_zero, List.take_length]
      rw [Nat.add_zero, ← hstop, hwhole, List.append_assoc] at hextract
      rw [hkept other hother]
      exact hextract
    · exact hlater.carried token hmem
  · intro offset hlow hhigh hspans
    obtain hinside | hbehind := Nat.lt_or_ge offset (before ++ gap).length
    · refine gap_outside hgap (fun token hmem => ?_) hlow hinside
      obtain rfl | hmem := List.mem_cons.mp hmem
      · exact Nat.le_refl _
      · have hbehind := hlater.behind token hmem
        omega
    · have hfirst := hspans _ List.mem_cons_self
      dsimp only at hfirst
      obtain ⟨first, last, hposition, hoffset, hlast, hmeets, htrivia⟩ := hlater.outside offset (by omega) hhigh
        fun token hmem => hspans token (List.mem_cons_of_mem _ hmem)
      refine ⟨first, last, by omega, hoffset, hlast, fun token hmem => ?_, htrivia⟩
      obtain rfl | hmem := List.mem_cons.mp hmem
      · exact .inl hposition
      · exact hmeets token hmem

theorem tiled_spans {chars : Text} {tokens : List Token} (h : Tiled classes ⟨[file]⟩ chars tokens) (before : Text)
    (htext : file.text = before ++ chars) : SpansTile file.text before.length tokens := by
  induction h generalizing before with
  | @eof gap hgap =>
    have hend : place ⟨[file]⟩ [] = ⟨0, file.text.length⟩ := place_in_file (List.append_nil _).symm
    rw [hend, htext]
    exact .eof hgap
  | @token kind gap chars rest tokens hgap hspelled _ ih =>
    have hbefore : file.text = (before ++ gap) ++ (chars ++ rest) := by rw [htext, List.append_assoc]
    have hafter : file.text = (before ++ gap ++ chars) ++ rest := by rw [hbefore]; simp only [List.append_assoc]
    have hlater := ih _ hafter
    have hkept : ∀ other ∈ kept_text kind chars, other = chars := by
      intro other hother
      unfold kept_text at hother
      split_ifs at hother
      · exact (Option.some.inj hother).symm
      · cases hother
    rw [place_in_file hbefore, place_in_file hafter]
    rw [htext] at hlater ⊢
    exact .token hgap hkept hlater

/-- The scan of one file ends, every call of it taking a character or finding the end, and the spans of its tokens make
up the text. -/
theorem token_spans_tile (classes : CharClasses) (file : SourceFile) :
    (∀ lexer, Scans source_stream lexer (scan_token classes source_stream lexer)) ∧
      ScanEnds (lex classes ⟨[file]⟩) ∧
      ∀ tokens, lex classes ⟨[file]⟩ = .ok tokens → SpansTile file.text 0 tokens :=
  ⟨scan_token_scans, lex_ends classes _, fun _ h => tiled_spans (lex_tiled h) [] rfl⟩

end quawk
