import Mathlib.Data.List.DropRight
import Mathlib.Order.Lattice
import Quawk.Lib.Bisect
import Quawk.Source

open Bisect (bisect_right bisect_right_append)

namespace quawk

/-- The offsets behind the newlines of a text whose first character has this index. -/
def starts_behind (index : Nat) : Text → List Nat
  | [] => []
  | char :: rest => if char = '\n' then (index + 1) :: starts_behind (index + 1) rest else starts_behind (index + 1) rest

/-- Return the starting offset of each physical line in `text`. -/
def build_line_starts (text : Text) : List Nat := 0 :: starts_behind 0 text

structure ResolvedLocation where
  source_name : String
  line : Nat
  column : Nat
  line_text : Text
  deriving DecidableEq

/-- The steps back over newlines before the end of a file. -/
def before_newlines (text : Text) : Nat → Nat
  | 0 => 0
  | offset + 1 => if text[offset]? = some '\n' then before_newlines text offset else offset + 1

def rstrip_newlines (text : Text) : Text := text.rdropWhile (· == '\n')

namespace SourceFile

def line_starts (file : SourceFile) : List Nat := build_line_starts file.text

/-- The offset to resolve: the end of a file is taken back to where the last line with something on it ends. -/
def effective_offset (file : SourceFile) (offset : Int) : Nat :=
  let clamped_offset := (min (max offset 0) file.text.length).toNat
  if clamped_offset = file.text.length then before_newlines file.text clamped_offset else clamped_offset

/-- Resolve a file-local offset into human-readable source coordinates. -/
def resolve (file : SourceFile) (offset : Int) : ResolvedLocation :=
  let effective_offset := file.effective_offset offset
  let line_index := bisect_right file.line_starts effective_offset - 1
  let line_start := file.line_starts.getD line_index 0
  let next_line_start := file.line_starts[line_index + 1]?.getD file.text.length
  let line_text := rstrip_newlines ((file.text.take next_line_start).drop line_start)
  ⟨file.name, line_index + 1, (effective_offset - line_start) + 1, line_text⟩

end SourceFile

/-- An offset of a text lies on the line between `before` and `after`, at one of its characters or at its end. -/
structure LineAt (text : Text) (offset : Nat) (before line after : Text) : Prop where
  text_eq : text = before ++ (line ++ after)
  starts : before = [] ∨ before.getLast? = some '\n'
  unbroken : '\n' ∉ line
  ends : after = [] ∨ after.head? = some '\n'
  start_le : before.length ≤ offset
  le_end : offset ≤ before.length + line.length

theorem lineAt_zero (text : Text) :
    LineAt text 0 [] (text.takeWhile (· != '\n')) (text.dropWhile (· != '\n')) where
  text_eq := List.takeWhile_append_dropWhile.symm
  starts := .inl rfl
  unbroken hmem := absurd (List.mem_takeWhile_imp hmem) (by decide)
  ends := by
    cases hdrop : text.dropWhile (· != '\n') with
    | nil => exact .inl rfl
    | cons first rest =>
      have hhead := List.head?_dropWhile_not (· != '\n') text
      rw [hdrop] at hhead
      exact .inr (congrArg some (by simpa using hhead))
  start_le := Nat.le_refl _
  le_end := Nat.zero_le _

/-- Every offset of a text lies on a line. -/
theorem exists_lineAt {text : Text} {offset : Nat} (h : offset ≤ text.length) :
    ∃ before line after, LineAt text offset before line after := by
  induction text generalizing offset with
  | nil =>
    obtain rfl : offset = 0 := Nat.le_zero.mp h
    exact ⟨_, _, _, lineAt_zero []⟩
  | cons char text ih =>
    cases offset with
    | zero => exact ⟨_, _, _, lineAt_zero (char :: text)⟩
    | succ offset =>
      obtain ⟨before, line, after, rfl, hstarts, hunbroken, hends, hstart, hend⟩ := ih (Nat.le_of_succ_le_succ h)
      by_cases hfirst : before = [] ∧ char ≠ '\n'
      · obtain ⟨rfl, hchar⟩ := hfirst
        refine ⟨[], char :: line, after, rfl, .inl rfl, ?_, hends, Nat.zero_le _, ?_⟩
        · exact fun hmem => (List.mem_cons.mp hmem).elim (fun heq => hchar heq.symm) hunbroken
        · rw [List.length_cons, ← Nat.add_assoc]
          exact Nat.succ_le_succ hend
      · refine ⟨char :: before, line, after, rfl, .inr ?_, hunbroken, hends, Nat.succ_le_succ hstart, ?_⟩
        · cases before with
          | nil => exact congrArg some (by_contra fun hchar => hfirst ⟨rfl, hchar⟩)
          | cons first before => rw [List.getLast?_cons_cons, hstarts.resolve_left (List.cons_ne_nil _ _)]
        · rw [List.length_cons]
          omega

section Starts

theorem starts_behind_append (index : Nat) (before after : Text) :
    starts_behind index (before ++ after) = starts_behind index before ++ starts_behind (index + before.length) after := by
  induction before generalizing index with
  | nil => rfl
  | cons char before ih =>
    have hlength : index + (char :: before).length = index + 1 + before.length := by
      rw [List.length_cons]
      omega
    rw [List.cons_append, starts_behind, starts_behind, hlength, ih]
    split_ifs with hchar
    · rfl
    · rfl

theorem starts_behind_line (index : Nat) {line : Text} (h : '\n' ∉ line) : starts_behind index line = [] := by
  induction line generalizing index with
  | nil => rfl
  | cons char line ih =>
    rw [List.mem_cons, not_or] at h
    rw [starts_behind, if_neg (Ne.symm h.1), ih _ h.2]

theorem length_starts_behind (index : Nat) (text : Text) : (starts_behind index text).length = text.count '\n' := by
  induction text generalizing index with
  | nil => rfl
  | cons char text ih =>
    by_cases hchar : char = '\n'
    · rw [starts_behind, if_pos hchar, hchar, List.length_cons, ih, List.count_cons_self]
    · rw [starts_behind, if_neg hchar, ih, List.count_cons_of_ne hchar]

theorem starts_behind_bounds {index : Nat} {text : Text} :
    ∀ start ∈ starts_behind index text, index < start ∧ start ≤ index + text.length := by
  induction text generalizing index with
  | nil => exact nofun
  | cons char text ih =>
    intro start hmem
    rw [starts_behind] at hmem
    rw [List.length_cons]
    split_ifs at hmem with hchar
    · obtain rfl | hmem := List.mem_cons.mp hmem
      · omega
      · have hbounds := ih start hmem
        omega
    · have hbounds := ih start hmem
      omega

/-- The last line of a text starts at its end if it ends in a newline. -/
theorem getLast_line_starts {before : Text} (h : before = [] ∨ before.getLast? = some '\n') :
    (build_line_starts before)[before.count '\n']? = some before.length := by
  cases before using List.reverseRecOn with
  | nil => rfl
  | append_singleton before char =>
    have hchar : char = '\n' := by
      obtain hnil | hlast := h
      · exact absurd hnil (by simp)
      · simpa using hlast
    have hcount : (before ++ [char]).count '\n' = (starts_behind 0 before).length + 1 := by
      rw [List.count_append, ← length_starts_behind 0, hchar]
      rfl
    have hstarts : build_line_starts (before ++ [char]) = 0 :: (starts_behind 0 before ++ [before.length + 1]) := by
      rw [build_line_starts, starts_behind_append, hchar]
      simp [starts_behind]
    rw [hstarts, hcount, List.getElem?_cons_succ, List.getElem?_concat_length, List.length_append]
    rfl

variable {text before line after : Text} {offset : Nat}

theorem LineAt.line_starts (h : LineAt text offset before line after) :
    build_line_starts text = build_line_starts before ++ starts_behind (before.length + line.length) after := by
  rw [h.text_eq, build_line_starts, starts_behind_append, starts_behind_append, starts_behind_line _ h.unbroken,
    Nat.zero_add, List.nil_append]
  rfl

theorem LineAt.bisect_line_starts (h : LineAt text offset before line after) :
    bisect_right (build_line_starts text) offset = before.count '\n' + 1 := by
  have hbefore : ∀ start ∈ build_line_starts before, ¬ offset < start := by
    intro start hmem
    have hstart := h.start_le
    obtain rfl | hmem := List.mem_cons.mp hmem
    · exact Nat.not_lt_zero _
    · have hbounds := starts_behind_bounds start hmem
      omega
  have hafter : ∀ start ∈ starts_behind (before.length + line.length) after, offset < start :=
    fun start hmem => Nat.lt_of_le_of_lt h.le_end (starts_behind_bounds start hmem).1
  rw [h.line_starts, bisect_right_append hbefore hafter, build_line_starts, List.length_cons, length_starts_behind]

theorem LineAt.line_start (h : LineAt text offset before line after) :
    (build_line_starts text)[before.count '\n']? = some before.length := by
  have hstart := getLast_line_starts h.starts
  rw [h.line_starts, List.getElem?_append_left (List.getElem?_eq_some_iff.mp hstart).1, hstart]

/-- The next line starts behind the newline, and where there is no next line the text ends. -/
theorem LineAt.next_line_start (h : LineAt text offset before line after) :
    (build_line_starts text)[before.count '\n' + 1]?.getD text.length = before.length + (line ++ after.take 1).length := by
  have hlength : before.count '\n' + 1 = (build_line_starts before).length := by
    rw [build_line_starts, List.length_cons, length_starts_behind]
  rw [h.line_starts, hlength, List.getElem?_append_right (Nat.le_refl _), Nat.sub_self]
  cases after with
  | nil =>
    rw [h.text_eq]
    simp [starts_behind]
  | cons first rest =>
    obtain rfl : first = '\n' := by simpa using h.ends
    rw [starts_behind, if_pos rfl]
    simp [Nat.add_assoc]

theorem rstrip_line {line after : Text} (hline : '\n' ∉ line) (hends : after = [] ∨ after.head? = some '\n') :
    rstrip_newlines (line ++ after.take 1) = line := by
  have hkept : rstrip_newlines line = line := by
    refine List.rdropWhile_eq_self_iff.mpr fun hne hlast => hline ?_
    rw [← beq_iff_eq.mp hlast]
    exact List.getLast_mem hne
  cases after with
  | nil => simpa using hkept
  | cons first rest =>
    obtain rfl : first = '\n' := by simpa using hends
    rw [List.take_succ_cons, List.take_zero, rstrip_newlines, List.rdropWhile_concat_pos _ _ _ rfl]
    exact hkept

/-- What an offset is resolved to that is taken for one of this line. -/
theorem LineAt.resolve_eq {file : SourceFile} {given : Int} (heffective : file.effective_offset given = offset)
    (h : LineAt file.text offset before line after) :
    file.resolve given = ⟨file.name, before.count '\n' + 1, offset - before.length + 1, line⟩ := by
  have htaken : (file.text.take (before.length + (line ++ after.take 1).length)).drop before.length = line ++ after.take 1 := by
    rw [h.text_eq, List.take_length_add_append, List.drop_left]
    have hsplit : line ++ after = line ++ after.take 1 ++ after.drop 1 := by rw [List.append_assoc, List.take_append_drop]
    rw [hsplit, List.take_left]
  unfold SourceFile.resolve SourceFile.line_starts
  dsimp only
  rw [heffective, h.bisect_line_starts, Nat.add_sub_cancel, List.getD_eq_getElem?_getD, h.line_start, h.next_line_start,
    Option.getD_some, htaken, rstrip_line h.unbroken h.ends]

end Starts

/-- A location names the line of an offset and the character on it, and shows the line without its newline. -/
structure Located (text : Text) (offset : Nat) (location : ResolvedLocation) : Prop where
  counted : 1 ≤ location.line ∧ 1 ≤ location.column
  offset_eq : ∃ line_start, (build_line_starts text)[location.line - 1]? = some line_start ∧
    line_start + location.column - 1 = offset
  before_next : ∀ next_line_start, (build_line_starts text)[location.line]? = some next_line_start → offset < next_line_start
  line_text : ∃ before after, text = before ++ (location.line_text ++ after) ∧
    (build_line_starts text)[location.line - 1]? = some before.length ∧ '\n' ∉ location.line_text ∧
    (after = [] ∨ after.head? = some '\n')

theorem located_of_effective {file : SourceFile} {given : Int} {offset : Nat} (h : offset ≤ file.text.length)
    (heffective : file.effective_offset given = offset) : Located file.text offset (file.resolve given) := by
  obtain ⟨before, line, after, hline⟩ := exists_lineAt h
  rw [hline.resolve_eq heffective]
  refine ⟨⟨Nat.le_add_left _ _, Nat.le_add_left _ _⟩, ⟨before.length, hline.line_start, ?_⟩, fun next hnext => ?_,
    before, after, hline.text_eq, hline.line_start, hline.unbroken, hline.ends⟩
  · have hstart := hline.start_le
    dsimp only
    omega
  · have hlength : before.count '\n' + 1 = (build_line_starts before).length := by
      rw [build_line_starts, List.length_cons, length_starts_behind]
    rw [hline.line_starts, hlength, List.getElem?_append_right (Nat.le_refl _)] at hnext
    exact Nat.lt_of_le_of_lt hline.le_end (starts_behind_bounds next (List.mem_of_getElem? hnext)).1

theorem effective_offset_inside {file : SourceFile} {offset : Nat} (h : offset < file.text.length) :
    file.effective_offset offset = offset := by
  have hclamped : (min (max (offset : Int) 0) file.text.length).toNat = offset := by omega
  unfold SourceFile.effective_offset
  dsimp only
  rw [hclamped, if_neg h.ne]

theorem before_newlines_append {body : Text} (h : body.getLast? ≠ some '\n') (count steps : Nat) (hsteps : steps ≤ count) :
    before_newlines (body ++ List.replicate count '\n') (body.length + steps) = body.length := by
  induction steps with
  | zero =>
    cases body using List.reverseRecOn with
    | nil => rfl
    | append_singleton body char =>
      have hchar : ¬ (body ++ [char] ++ List.replicate count '\n')[body.length]? = some '\n' := by
        rw [List.append_assoc, List.getElem?_append_right (Nat.le_refl _), Nat.sub_self]
        simpa using h
      rw [Nat.add_zero, List.length_append, List.length_singleton, before_newlines, if_neg hchar]
  | succ steps ih =>
    have hnewline : (body ++ List.replicate count '\n')[body.length + steps]? = some '\n' := by
      rw [List.getElem?_append_right (Nat.le_add_right _ _), Nat.add_sub_cancel_left, List.getElem?_replicate_of_lt hsteps]
    rw [← Nat.add_assoc, before_newlines, if_pos hnewline, ih (Nat.le_of_succ_le hsteps)]

theorem effective_offset_end {file : SourceFile} {body : Text} {count : Nat}
    (htext : file.text = body ++ List.replicate count '\n') (h : body.getLast? ≠ some '\n') :
    file.effective_offset file.text.length = body.length := by
  have hclamped : (min (max (file.text.length : Int) 0) file.text.length).toNat = file.text.length := by omega
  unfold SourceFile.effective_offset
  dsimp only
  rw [hclamped, if_pos rfl, htext, List.length_append, List.length_replicate]
  exact before_newlines_append h count count (Nat.le_refl _)

theorem Located.offset_unique {text : Text} {first second : Nat} {location other : ResolvedLocation}
    (hfirst : Located text first location) (hsecond : Located text second other)
    (hline : location.line = other.line) (hcolumn : location.column = other.column) : first = second := by
  obtain ⟨start, hstart, rfl⟩ := hfirst.offset_eq
  obtain ⟨start', hstart', rfl⟩ := hsecond.offset_eq
  rw [hline, hstart', Option.some.injEq] at hstart
  rw [hstart, hcolumn]

/-- The location of an offset inside a file gives the offset back, with the line it lies on, and that of the end of the
file is where the text before the trailing newlines ends; so two offsets inside a file have different locations. -/
theorem locations_invert_offsets (file : SourceFile) :
    (∀ offset : Nat, offset < file.text.length → Located file.text offset (file.resolve offset)) ∧
      (∀ body count, file.text = body ++ List.replicate count '\n' → body.getLast? ≠ some '\n' →
        Located file.text body.length (file.resolve file.text.length)) ∧
      ∀ first second : Nat, first < file.text.length → second < file.text.length →
        (file.resolve first).line = (file.resolve second).line →
          (file.resolve first).column = (file.resolve second).column → first = second := by
  have hinside : ∀ offset : Nat, offset < file.text.length → Located file.text offset (file.resolve offset) :=
    fun offset h => located_of_effective h.le (effective_offset_inside h)
  refine ⟨hinside, fun body count htext hbody => ?_, fun first second hfirst hsecond => ?_⟩
  · have hlength : body.length ≤ file.text.length := by
      rw [htext, List.length_append]
      exact Nat.le_add_right _ _
    exact located_of_effective hlength (effective_offset_end htext hbody)
  · exact (hinside first hfirst).offset_unique (hinside second hsecond)

/-- The newline that ends a file of one line. -/
theorem locations_invert_offsets_newline : Located ['a', '\n'] 1 (SourceFile.resolve ⟨"f", ['a', '\n']⟩ 1) ∧
    Located ['a', '\n'] 1 (SourceFile.resolve ⟨"f", ['a', '\n']⟩ 2) :=
  ⟨(locations_invert_offsets ⟨"f", ['a', '\n']⟩).1 1 (by decide),
    (locations_invert_offsets ⟨"f", ['a', '\n']⟩).2.1 ['a'] 1 rfl (by decide)⟩

end quawk
