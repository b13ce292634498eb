import Quawk.Lexer

namespace quawk

/-- The newline that keeps a text apart from the next one. -/
def separator (text : Text) : Text := if text.getLast? = some '\n' then [] else ['\n']

/-- The texts one after the other, each but the last one ending in a newline. -/
def joined : List Text → Text
  | [] => []
  | [text] => text
  | text :: next :: later => text ++ separator text ++ joined (next :: later)

/-- Where the character at an offset of the joined texts comes from. -/
def origin (index : Nat) : List Text → Nat → SourcePoint
  | [], offset => ⟨index, offset⟩
  | [_], offset => ⟨index, offset⟩
  | text :: next :: later, offset =>
    let length := (text ++ separator text).length
    if offset < length then ⟨index, offset⟩ else origin (index + 1) (next :: later) (offset - length)

namespace ProgramSource

def texts (source : ProgramSource) : List Text := source.files.map (·.text)

end ProgramSource

/-- The characters of a file, with where they are. -/
def file_points (index : Nat) (text : Text) : List (Char × SourcePoint) :=
  text.zipIdx.map fun (char, offset) => (char, ⟨index, offset⟩)

/-- The newline that keeps a file apart from the next one. -/
def boundary_points (index : Nat) (file : SourceFile) : List (Char × SourcePoint) :=
  if file.text.getLast? = some '\n' then [] else [('\n', ⟨index, file.text.length⟩)]

/-- The logical program from a file on: the files one after the other, each on lines of its own. -/
def logical_points (index : Nat) : List SourceFile → List (Char × SourcePoint)
  | [] => []
  | [file] => file_points index file.text
  | file :: next :: later =>
    file_points index file.text ++ (boundary_points index file ++ logical_points (index + 1) (next :: later))

namespace SourceCursor

/-- What is left of the logical program. -/
def rest (cursor : SourceCursor) : List (Char × SourcePoint) :=
  (logical_points cursor.file_index (cursor.source.files.drop cursor.file_index)).drop cursor.offset

/-- A cursor stands in one of its files, or behind it, at the newline that the file lacks. -/
structure Valid (cursor : SourceCursor) : Prop where
  index : cursor.source.files = [] ∨ cursor.file_index < cursor.source.files.length
  inside : ∀ file, cursor.source.files[cursor.file_index]? = some file → cursor.offset ≤ file.text.length
  boundary : cursor.at_boundary_newline = true → ∃ file next later,
    cursor.source.files.drop cursor.file_index = file :: next :: later ∧ cursor.offset = file.text.length ∧
      file.text.getLast? ≠ some '\n'

end SourceCursor

namespace SourceCursor

variable {cursor : SourceCursor} {file next : SourceFile} {later : List SourceFile}

/-- A cursor that hides nothing: it stands at a character, at the newline between two files, or at the end. -/
def Exposed (cursor : SourceCursor) : Prop :=
  ∀ file later, cursor.source.files.drop cursor.file_index = file :: later →
    cursor.at_boundary_newline = true ∨ cursor.offset < file.text.length ∨ later = []

theorem files_getElem? (h : cursor.source.files.drop cursor.file_index = file :: later) :
    cursor.source.files[cursor.file_index]? = some file := by
  have hget := congrArg (·[0]?) h
  simpa using hget

theorem drop_succ (h : cursor.source.files.drop cursor.file_index = file :: later) :
    cursor.source.files.drop (cursor.file_index + 1) = later := by
  rw [← List.drop_drop, h]
  rfl

theorem normalize_of_exposed (h : cursor.Exposed) : cursor.normalize = cursor := by
  unfold normalize
  cases hfiles : cursor.source.files.drop cursor.file_index with
  | nil => rfl
  | cons file later =>
    unfold normalize_from
    obtain hboundary | hinside | rfl := h file later hfiles
    · rw [if_pos hboundary]
    · rw [if_pos hinside, ite_self]
    · simp

theorem file_points_length (index : Nat) (text : Text) : (file_points index text).length = text.length := by
  simp [file_points]

/-- Behind a file that is not the last one. -/
theorem logical_points_drop (index : Nat) (file next : SourceFile) (later : List SourceFile) :
    (logical_points index (file :: next :: later)).drop file.text.length =
      boundary_points index file ++ logical_points (index + 1) (next :: later) := by
  have hlength := file_points_length index file.text
  rw [logical_points, ← hlength, List.drop_left]

theorem normalize_spec (files : List SourceFile) (h : cursor.Valid)
    (hfiles : cursor.source.files.drop cursor.file_index = files) :
    (cursor.normalize_from files).Valid ∧ (cursor.normalize_from files).Exposed ∧
      (cursor.normalize_from files).rest = cursor.rest ∧ (cursor.normalize_from files).source = cursor.source := by
  induction files generalizing cursor with
  | nil => exact ⟨h, (fun file later hcons => by rw [normalize_from, hfiles] at hcons; cases hcons), rfl, rfl⟩
  | cons file later ih =>
    have hexposed (hcases : cursor.at_boundary_newline = true ∨ cursor.offset < file.text.length ∨ later = []) :
        cursor.Exposed := by
      intro other others hcons
      rw [hfiles] at hcons
      obtain ⟨rfl, rfl⟩ := List.cons.inj hcons
      exact hcases
    unfold normalize_from
    split_ifs with hboundary hinside hlast hnewline
    · exact ⟨h, hexposed (.inl hboundary), rfl, rfl⟩
    · exact ⟨h, hexposed (.inr (.inl hinside)), rfl, rfl⟩
    · exact ⟨h, hexposed (.inr (.inr hlast)), rfl, rfl⟩
    all_goals
      obtain ⟨next, later, rfl⟩ := List.exists_cons_of_ne_nil hlast
      have hoffset : cursor.offset = file.text.length :=
        Nat.le_antisymm (h.inside file (files_getElem? hfiles)) (Nat.le_of_not_lt hinside)
    · have hnext := drop_succ hfiles
      have hvalid : ({ cursor with file_index := cursor.file_index + 1, offset := 0 } : SourceCursor).Valid := by
        refine ⟨.inr ?_, fun _ _ => Nat.zero_le _, fun htrue => absurd htrue hboundary⟩
        have hlength := congrArg List.length hnext
        simp only [List.length_drop, List.length_cons] at hlength ⊢
        omega
      obtain ⟨hvalid', hexposed', hrest, hsource⟩ := ih hvalid hnext
      refine ⟨hvalid', hexposed', hrest.trans ?_, hsource⟩
      simp only [rest, hfiles, hnext, List.drop_zero]
      rw [hoffset, logical_points_drop, boundary_points, if_pos hnewline, List.nil_append]
    · refine ⟨⟨h.index, h.inside, fun _ => ⟨file, next, later, hfiles, hoffset, hnewline⟩⟩, ?_, rfl, rfl⟩
      exact fun _ _ _ => .inl rfl

/-- What a normalized cursor stands at. -/
theorem normalized (h : cursor.Valid) : cursor.normalize.Valid ∧ cursor.normalize.Exposed ∧
    cursor.normalize.rest = cursor.rest ∧ cursor.normalize.source = cursor.source :=
  normalize_spec _ h rfl

theorem logical_points_getElem? (index : Nat) (later : List SourceFile) {offset : Nat}
    (h : offset < file.text.length) :
    (logical_points index (file :: later))[offset]? = some (file.text[offset], ⟨index, offset⟩) := by
  have hhere : (file_points index file.text)[offset]? = some (file.text[offset], ⟨index, offset⟩) := by
    simp [file_points, h]
  cases later with
  | nil => exact hhere
  | cons next later =>
    rw [logical_points, List.getElem?_append_left (by rwa [file_points_length])]
    exact hhere

/-- Where a cursor stands: at the end, or at the first character that is left. -/
inductive Stands (cursor : SourceCursor) : List (Char × SourcePoint) → Prop where
  | at_end (hcurrent : cursor.current = none) (hpoint : cursor.point = cursor.source.eof_point)
    (hadvance : cursor.advance = (none, cursor.normalize)) (hend : cursor.is_at_end = true) : Stands cursor []
  | at_char (char : Char) (point : SourcePoint) (tail : List (Char × SourcePoint))
    (hcurrent : cursor.current = some char) (hpoint : cursor.point = point)
    (hchar : cursor.advance.1 = some char) (hvalid : cursor.advance.2.Valid) (hrest : cursor.advance.2.rest = tail)
    (hsource : cursor.advance.2.source = cursor.source) (hend : cursor.is_at_end = false) :
    Stands cursor ((char, point) :: tail)

theorem exposed_at_end (h : cursor.Exposed) (hend : cursor.is_at_end = true)
    (hboundary : cursor.at_boundary_newline = false) : Stands cursor [] := by
  have hnormal := normalize_of_exposed h
  refine .at_end ?_ ?_ ?_ hend
  · unfold current
    simp [hnormal, hend]
  · unfold point
    simp [hnormal, hend, hboundary]
  · unfold advance current
    simp [hnormal, hend]

theorem exposed_not_at_end (h : cursor.Exposed)
    (hfiles : cursor.source.files.drop cursor.file_index = file :: later)
    (hinside : cursor.at_boundary_newline = true ∨ cursor.offset < file.text.length) : cursor.is_at_end = false := by
  unfold is_at_end
  rw [normalize_of_exposed h]
  dsimp only
  cases hlast : cursor.source.files.getLast? with
  | none =>
    rw [List.getLast?_eq_none_iff.mp hlast] at hfiles
    simp at hfiles
  | some last =>
    dsimp only
    rw [Bool.eq_false_iff]
    intro hend
    simp only [Bool.and_eq_true, Bool.not_eq_true', beq_iff_eq, decide_eq_true_eq] at hend
    obtain ⟨⟨hboundary, hindex⟩, hoffset⟩ := hend
    have hinside := hinside.resolve_left (by simp [hboundary])
    have hsame : last = file := by
      rw [List.getLast?_eq_getElem?, ← hindex, Nat.add_sub_cancel, files_getElem? hfiles] at hlast
      exact (Option.some.inj hlast).symm
    rw [hsame] at hoffset
    omega

theorem exposed_stands (h : cursor.Exposed) (hvalid : cursor.Valid) : Stands cursor cursor.rest := by
  have hnormal := normalize_of_exposed h
  cases hfiles : cursor.source.files.drop cursor.file_index with
  | nil =>
    have hempty : cursor.source.files = [] := by
      refine hvalid.index.resolve_right fun hindex => ?_
      have hlength := congrArg List.length hfiles
      simp only [List.length_drop, List.length_nil] at hlength
      omega
    have hboundary : cursor.at_boundary_newline = false := by
      rw [Bool.eq_false_iff]
      intro htrue
      obtain ⟨_, _, _, hcons, _⟩ := hvalid.boundary htrue
      rw [hfiles] at hcons
      cases hcons
    have hend : cursor.is_at_end = true := by
      unfold is_at_end
      rw [hnormal]
      dsimp only
      rw [hempty]
      rfl
    rw [rest, hfiles, logical_points, List.drop_nil]
    exact exposed_at_end h hend hboundary
  | cons file later =>
    have hfile := files_getElem? hfiles
    cases hboundary : cursor.at_boundary_newline with
    | true =>
      obtain ⟨_, next, others, hcons, hoffset, hnewline⟩ := hvalid.boundary hboundary
      rw [hfiles] at hcons
      obtain ⟨rfl, rfl⟩ := List.cons.inj hcons
      have hend := exposed_not_at_end h hfiles (.inl hboundary)
      have hadvance : cursor.advance =
          (some '\n', { cursor with file_index := cursor.file_index + 1, offset := 0, at_boundary_newline := false }) := by
        unfold advance current
        simp [hnormal, hend, hboundary]
      have hrest : cursor.rest =
          ('\n', ⟨cursor.file_index, cursor.offset⟩) :: logical_points (cursor.file_index + 1) (next :: others) := by
        rw [rest, hfiles, hoffset, logical_points_drop, boundary_points, if_neg hnewline]
        rfl
      have hnext := drop_succ hfiles
      rw [hrest]
      refine .at_char _ _ _ ?_ ?_ ?_ ?_ ?_ ?_ hend
      · unfold current
        simp [hnormal, hend, hboundary]
      · unfold point
        rw [hnormal]
        simp [hboundary, hfile, hoffset]
      · rw [hadvance]
      · rw [hadvance]
        refine ⟨.inr ?_, fun _ _ => Nat.zero_le _, fun htrue => nomatch htrue⟩
        have hlength := congrArg List.length hnext
        simp only [List.length_drop, List.length_cons] at hlength ⊢
        omega
      · rw [hadvance, rest]
        dsimp only
        rw [hnext, List.drop_zero]
      · rw [hadvance]
    | false =>
      by_cases hinside : cursor.offset < file.text.length
      · have hend := exposed_not_at_end h hfiles (.inr hinside)
        have hcurrent : cursor.current = some file.text[cursor.offset] := by
          unfold current
          simp [hnormal, hend, hboundary, hfile, hinside]
        have hadvance : cursor.advance =
            (some file.text[cursor.offset], { cursor with offset := cursor.offset + 1 }) := by
          unfold advance
          simp [hnormal, hcurrent, hboundary]
        have hget := logical_points_getElem? cursor.file_index later hinside
        obtain ⟨hlength, hget⟩ := List.getElem?_eq_some_iff.mp hget
        rw [rest, hfiles, List.drop_eq_getElem_cons hlength, hget]
        refine .at_char _ _ _ hcurrent ?_ ?_ ?_ ?_ ?_ hend
        · unfold point
          rw [hnormal]
          simp [hboundary, hend]
        · rw [hadvance]
        · rw [hadvance]
          refine ⟨hvalid.index, fun other hother => ?_, fun htrue => ?_⟩
          · obtain rfl : file = other := Option.some.inj (hfile.symm.trans hother)
            exact hinside
          · rw [hboundary] at htrue
            cases htrue
        · rw [hadvance, rest]
          dsimp only
          rw [hfiles]
        · rw [hadvance]
      · obtain hboundary' | hinside' | rfl := h file later hfiles
        · rw [hboundary] at hboundary'
          cases hboundary'
        · exact absurd hinside' hinside
        · have hindex : cursor.file_index + 1 = cursor.source.files.length := by
            have hlength := congrArg List.length hfiles
            simp only [List.length_drop, List.length_singleton] at hlength
            omega
          have hlast : cursor.source.files.getLast? = some file := by
            rw [List.getLast?_eq_getElem?, ← hindex, Nat.add_sub_cancel, hfile]
          have hend : cursor.is_at_end = true := by
            unfold is_at_end
            rw [hnormal]
            simp [hlast, hboundary, hindex, Nat.le_of_not_lt hinside]
          have hrest : cursor.rest = [] := by
            rw [rest, hfiles, logical_points]
            exact List.drop_eq_nil_of_le (by rw [file_points_length]; omega)
          rw [hrest]
          exact exposed_at_end h hend hboundary

theorem stands (hvalid : cursor.Valid) : Stands cursor cursor.rest := by
  obtain ⟨hvalid', hexposed, hrest, hsource⟩ := normalized hvalid
  have hnormal := normalize_of_exposed hexposed
  have hcurrent : cursor.normalize.current = cursor.current := by unfold current; rw [hnormal]
  have hpoint : cursor.normalize.point = cursor.point := by unfold point; rw [hnormal]
  have hadvance : cursor.normalize.advance = cursor.advance := by unfold advance; rw [hnormal]
  have hend : cursor.normalize.is_at_end = cursor.is_at_end := by unfold is_at_end; rw [hnormal]
  have hstands := exposed_stands hexposed hvalid'
  rw [hrest] at hstands
  generalize cursor.rest = left at hstands
  cases hstands with
  | at_end hnone heof hlast hend' =>
    rw [hadvance, hnormal] at hlast
    exact .at_end (hcurrent ▸ hnone) (by rw [← hpoint, heof, hsource]) hlast (hend ▸ hend')
  | at_char char point tail hchar hat hfirst hvalid'' hrest' hsource' hend' =>
    rw [hadvance] at hfirst hvalid'' hrest' hsource'
    exact .at_char _ _ _ (hcurrent ▸ hchar) (hpoint ▸ hat) hfirst hvalid'' hrest' (hsource'.trans hsource)
      (hend ▸ hend')

/-- One step forward: a cursor stays inside its files, and takes the first character of what is left. -/
theorem advance_spec (hvalid : cursor.Valid) :
    cursor.advance.1 = cursor.current ∧ cursor.advance.2.Valid ∧ cursor.advance.2.rest = cursor.rest.tail ∧
      cursor.advance.2.source = cursor.source := by
  have hstands := stands hvalid
  generalize hleft : cursor.rest = left at hstands
  cases hstands with
  | at_end hnone _ hend =>
    obtain ⟨hvalid', _, hrest, hsource⟩ := normalized hvalid
    rw [hend, hnone]
    exact ⟨rfl, hvalid', hrest.trans hleft, hsource⟩
  | at_char char point tail hcurrent _ hchar hvalid' hrest hsource =>
    exact ⟨hchar.trans hcurrent.symm, hvalid', hrest, hsource⟩

theorem current_eq (hvalid : cursor.Valid) : cursor.current = cursor.rest.head?.map Prod.fst := by
  have hstands := stands hvalid
  generalize cursor.rest = left at hstands
  cases hstands with
  | at_end hnone => exact hnone
  | at_char _ _ _ hcurrent => exact hcurrent

/-- Looking ahead is looking at what is left. -/
theorem peek_eq (offset : Nat) (hvalid : cursor.Valid) : cursor.peek offset = (cursor.rest[offset]?).map Prod.fst := by
  induction offset generalizing cursor with
  | zero => rw [← List.head?_eq_getElem?]; exact current_eq hvalid
  | succ offset ih =>
    obtain ⟨hchar, hvalid', hrest, _⟩ := advance_spec hvalid
    rw [current_eq hvalid] at hchar
    have hnext := ih hvalid'
    rw [peek]
    rw [hrest, List.getElem?_tail] at hnext
    generalize cursor.advance = step at hchar hnext
    obtain ⟨char, probe⟩ := step
    cases char with
    | some char => exact hnext
    | none =>
      have hempty : cursor.rest = [] := by simpa using hchar.symm
      rw [hempty]
      rfl

theorem point_eq (hvalid : cursor.Valid) :
    cursor.point = ((cursor.rest.head?).map Prod.snd).getD cursor.source.eof_point := by
  have hstands := stands hvalid
  generalize cursor.rest = left at hstands
  cases hstands with
  | at_end _ hpoint => exact hpoint
  | at_char _ _ _ _ hpoint => exact hpoint

theorem is_at_end_eq (hvalid : cursor.Valid) : cursor.is_at_end = cursor.rest.isEmpty := by
  have hstands := stands hvalid
  generalize cursor.rest = left at hstands
  cases hstands with
  | at_end _ _ _ hend => exact hend
  | at_char _ _ _ _ _ _ _ _ _ hend => exact hend

theorem start_valid (source : ProgramSource) : (start source).Valid :=
  ⟨source.files.eq_nil_or_concat.imp_right fun ⟨_, _, hfiles⟩ => by simp [start, hfiles],
    fun _ _ => Nat.zero_le _, fun htrue => nomatch htrue⟩

end SourceCursor

theorem file_points_getElem? (index : Nat) (text : Text) (offset : Nat) :
    (file_points index text)[offset]? = text[offset]?.map fun char => (char, ⟨index, offset⟩) := by
  simp only [file_points, List.getElem?_map, List.getElem?_zipIdx, Option.map_map, Nat.zero_add]
  rfl

theorem file_points_get (index : Nat) (file : SourceFile) (offset : Nat) :
    (file_points index file.text ++ boundary_points index file)[offset]? =
      (file.text ++ separator file.text)[offset]?.map fun char => (char, ⟨index, offset⟩) := by
  by_cases hinside : offset < file.text.length
  · rw [List.getElem?_append_left (by rwa [SourceCursor.file_points_length]), List.getElem?_append_left hinside]
    exact file_points_getElem? index file.text offset
  · rw [List.getElem?_append_right (by rw [SourceCursor.file_points_length]; omega),
      List.getElem?_append_right (by omega), SourceCursor.file_points_length, boundary_points, separator]
    split_ifs
    · rfl
    · by_cases hhere : offset = file.text.length
      · simp [hhere]
      · obtain ⟨more, hmore⟩ := Nat.exists_eq_add_of_lt (Nat.lt_of_le_of_ne (Nat.le_of_not_lt hinside) (Ne.symm hhere))
        have hsub : offset - file.text.length = more + 1 := by omega
        rw [hsub]
        rfl

/-- The character at an offset of the joined texts is the one the cursor sees there, with the place it comes from. -/
theorem logical_points_get (index : Nat) (files : List SourceFile) (offset : Nat) :
    (logical_points index files)[offset]? = (joined (files.map (·.text)))[offset]?.map fun char =>
      (char, origin index (files.map (·.text)) offset) := by
  fun_induction logical_points index files generalizing offset with
  | case1 => rfl
  | case2 index file => exact file_points_getElem? index file.text offset
  | case3 index file next later ih =>
    have hhere := file_points_get index file
    have hlength : (file_points index file.text ++ boundary_points index file).length =
        (file.text ++ separator file.text).length := by
      rw [boundary_points, separator]
      split_ifs <;> simp [SourceCursor.file_points_length]
    simp only [List.map_cons, joined, origin] at ih ⊢
    rw [← List.append_assoc]
    by_cases hinside : offset < (file.text ++ separator file.text).length
    · rw [if_pos hinside, List.getElem?_append_left (hlength ▸ hinside), List.getElem?_append_left hinside]
      exact hhere offset
    · rw [if_neg hinside, List.getElem?_append_right (hlength ▸ Nat.le_of_not_lt hinside),
        List.getElem?_append_right (Nat.le_of_not_lt hinside), hlength]
      exact ih _

theorem logical_points_length (index : Nat) (files : List SourceFile) :
    (logical_points index files).length = (joined (files.map (·.text))).length := by
  have hget := logical_points_get index files
  refine Nat.le_antisymm ?_ ?_
  · rw [← List.getElem?_eq_none_iff, hget]
    simp
  · have hnone := hget (logical_points index files).length
    rw [List.getElem?_eq_none_iff.mpr (Nat.le_refl _)] at hnone
    simpa using hnone.symm

/-- Behind the joined texts is the end of the last file. -/
theorem origin_end (index : Nat) (texts : List Text) (h : texts ≠ []) :
    origin index texts (joined texts).length =
      ⟨index + texts.length - 1, (texts.getLast h).length⟩ := by
  fun_induction joined texts generalizing index with
  | case1 => exact absurd rfl h
  | case2 text => rfl
  | case3 text next later ih =>
    have hlast := ih (index + 1) (List.cons_ne_nil _ _)
    rw [origin, if_neg (by rw [List.length_append]; omega), List.length_append, Nat.add_sub_cancel_left, hlast,
      List.getLast_cons (List.cons_ne_nil _ _)]
    simp only [List.length_cons, SourcePoint.mk.injEq, and_true]
    omega

theorem origin_eof (source : ProgramSource) :
    origin 0 source.texts (joined source.texts).length = source.eof_point := by
  unfold ProgramSource.eof_point
  cases hlast : source.files.getLast? with
  | none =>
    rw [ProgramSource.texts, List.getLast?_eq_none_iff.mp hlast]
    rfl
  | some last =>
    have hfiles : source.files ≠ [] := by rintro hnil; rw [hnil] at hlast; cases hlast
    have hnonempty : source.texts ≠ [] := by simpa [ProgramSource.texts] using hfiles
    have hsame : source.files.getLast hfiles = last := by
      rw [List.getLast?_eq_some_getLast hfiles] at hlast
      exact Option.some.inj hlast
    rw [origin_end 0 source.texts hnonempty]
    simp only [ProgramSource.texts, List.getLast_map, List.length_map, hsame, Nat.zero_add]

namespace SourceCursor

/-- A cursor that has taken that many characters of the logical program. -/
structure Taken (source : ProgramSource) (taken : Nat) (cursor : SourceCursor) : Prop where
  valid : cursor.Valid
  source_eq : cursor.source = source
  within : taken ≤ (joined source.texts).length
  rest_eq : cursor.rest = (logical_points 0 source.files).drop taken

namespace Taken

variable {source : ProgramSource} {taken : Nat} {cursor : SourceCursor}

protected theorem start (source : ProgramSource) : Taken source 0 (start source) :=
  ⟨start_valid source, rfl, Nat.zero_le _, rfl⟩

theorem rest_get (h : Taken source taken cursor) (offset : Nat) : cursor.rest[offset]? =
    (joined source.texts)[taken + offset]?.map fun char => (char, origin 0 source.texts (taken + offset)) := by
  rw [h.rest_eq, List.getElem?_drop]
  exact logical_points_get 0 source.files (taken + offset)

theorem peek (h : Taken source taken cursor) (offset : Nat) :
    cursor.peek offset = (joined source.texts)[taken + offset]? := by
  rw [peek_eq offset h.valid, h.rest_get, Option.map_map]
  exact congrFun Option.map_id _

theorem rest_length (h : Taken source taken cursor) : cursor.rest.length = (joined source.texts).length - taken := by
  rw [h.rest_eq, List.length_drop]
  exact congrArg (· - taken) (logical_points_length 0 source.files)

theorem is_at_end (h : Taken source taken cursor) :
    cursor.is_at_end = true ↔ taken = (joined source.texts).length := by
  have hlength := h.rest_length
  have hwithin := h.within
  rw [is_at_end_eq h.valid, List.isEmpty_iff_length_eq_zero]
  omega

theorem point (h : Taken source taken cursor) : cursor.point = origin 0 source.texts taken := by
  have hfirst := h.rest_get 0
  rw [point_eq h.valid, List.head?_eq_getElem?, hfirst, Nat.add_zero]
  by_cases hend : taken = (joined source.texts).length
  · rw [hend, List.getElem?_eq_none (Nat.le_refl _), h.source_eq, origin_eof]
    rfl
  · rw [List.getElem?_eq_getElem (Nat.lt_of_le_of_ne h.within hend)]
    rfl

/-- One step forward takes the character there is, and stays at the end behind the last one. -/
theorem advance (h : Taken source taken cursor) : cursor.advance.1 = (joined source.texts)[taken]? ∧
    Taken source (min (taken + 1) (joined source.texts).length) cursor.advance.2 := by
  obtain ⟨hchar, hvalid, hrest, hsource⟩ := advance_spec h.valid
  refine ⟨hchar.trans (h.peek 0), hvalid, hsource.trans h.source_eq, Nat.min_le_right _ _, ?_⟩
  rw [hrest, h.rest_eq, List.tail_drop]
  rcases Nat.lt_or_ge taken (joined source.texts).length with hless | hend
  · rw [Nat.min_eq_left hless]
  · have hlength := logical_points_length 0 source.files
    rw [Nat.min_eq_right (Nat.le_succ_of_le hend), List.drop_eq_nil_of_le, List.drop_eq_nil_of_le]
    · exact Nat.le_of_eq hlength
    · exact hlength.trans_le (Nat.le_succ_of_le hend)

end Taken

end SourceCursor

/-- The cursors that stand in their files. -/
abbrev ValidCursor : Type := { cursor : SourceCursor // cursor.Valid }

open SourceCursor in
def source_stream : CharStream ValidCursor SourcePoint where
  peek cursor := cursor.val.peek
  advance cursor := (cursor.val.advance.1, ⟨cursor.val.advance.2, (advance_spec cursor.property).2.1⟩)
  point cursor := cursor.val.point
  remaining cursor := cursor.val.rest.length
  advance_char cursor := (advance_spec cursor.property).1
  remaining_advance cursor char h := by
    obtain ⟨_, _, hrest, _⟩ := advance_spec cursor.property
    rw [peek_eq 0 cursor.property] at h
    rw [hrest, List.length_tail]
    cases hleft : cursor.val.rest with
    | nil => rw [hleft] at h; cases h
    | cons first rest => rfl
  remaining_le cursor := by
    obtain ⟨_, _, hrest, _⟩ := advance_spec cursor.property
    rw [hrest, List.length_tail]
    exact Nat.sub_le _ _

/-- Lex inline text or tracked program input into tokens. -/
def lex (classes : CharClasses) (source : ProgramSource) : Except LexFailure (List Token) :=
  scan_stream classes source_stream ⟨SourceCursor.start source, SourceCursor.start_valid source⟩

end quawk
