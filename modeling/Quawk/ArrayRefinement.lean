import Mathlib.Data.List.ReduceOption
import Quawk.ArrayStore

namespace quawk

variable {Number : Type}

/-- Arrays as maps from their names to maps from keys to a text and a number. -/
abbrev ArrayMaps (Number : Type) := Name → Text → Option (Text × Number)

/-- The pieces under `1`, `2` and so on, counted from `count`. -/
def numbered (count : Nat) : List Text → Text → Option Text
  | [], _ => none
  | piece :: pieces, key => if key = Nat.toDigits 10 count then some piece else numbered (count + 1) pieces key

section Maps

variable (doubles : Doubles Number) (regcomp : Text → Option Regex)

/-- The pieces of a text: between blanks, the whole of it, or between matches; there are none if the separator is no
regular expression. -/
def split_pieces (text : Text) : Option Text → List Text
  | none => qk_split_whitespace_fields [] text
  | some separator =>
    if separator = [] then [text]
    else match regcomp separator with
      | none => []
      | some regex => regex_pieces regex text

theorem split_pieces_of_ne_nil (text : Text) {separator : Text} (hseparator : separator ≠ []) :
    split_pieces regcomp text (some separator) =
      ((regcomp separator).map fun regex => regex_pieces regex text).getD [] := by
  unfold split_pieces
  dsimp only
  rw [if_neg hseparator]
  cases regcomp separator <;> rfl

/-- The text and number of an element that holds a text. -/
def Doubles.element (text : Text) : Text × Number := (text, doubles.qk_parse_awk_numeric_prefix text)

open Classical in
/-- What an operation does to the maps, and what it returns. -/
noncomputable def ArrayMaps.apply (maps : ArrayMaps Number) :
    StoreOperation Number Text → ArrayResult Number × ArrayMaps Number
  | .set_string array_name key value =>
    (.done, Function.update maps array_name (Function.update (maps array_name) key (some (doubles.element value))))
  | .set_number array_name key value convfmt =>
    (.done, Function.update maps array_name (Function.update (maps array_name) key
      (some (doubles.qk_format_number_with_text value convfmt, value))))
  | .get array_name key => (.text (((maps array_name key).map Prod.fst).getD []), maps)
  | .get_number array_name key => (.number (((maps array_name key).map Prod.snd).getD (doubles.of_int 0)), maps)
  | .contains array_name key => (.flag (maps array_name key).isSome, maps)
  | .delete array_name key =>
    (.done, Function.update maps array_name (Function.update (maps array_name) key none))
  | .clear array_name => (.done, Function.update maps array_name fun _ => none)
  | .length array_name => (.count {key | (maps array_name key).isSome}.ncard, maps)
  | .split text array_name separator =>
    let pieces := split_pieces regcomp text separator
    (.count pieces.length,
      Function.update maps array_name fun key => (numbered 1 pieces key).map doubles.element)

/-- The results of a run on maps, and the maps it leads to. -/
noncomputable def ArrayMaps.run (maps : ArrayMaps Number) : List (StoreOperation Number Text) →
    List (ArrayResult Number) × ArrayMaps Number
  | [] => ([], maps)
  | operation :: operations =>
    let (result, after) := maps.apply doubles regcomp operation
    let (results, final) := ArrayMaps.run after operations
    (result :: results, final)

end Maps

namespace ArrayStore

variable (doubles : Doubles Number) (regcomp : Text → Option Regex) (store : ArrayStore Number)

/-- The number an element has, or will have once it is asked for. -/
def cell_view (cell : ArrayCell Number) : Text × Number :=
  (cell.value, cell.number.getD ( doubles.qk_parse_awk_numeric_prefix cell.value))

def maps : ArrayMaps Number := fun array_name key => (store.find_entry array_name key).map (cell_view doubles)

/-- The text an argument has when the operation starts. -/
def argument_text (pointer : StringPointer) : Text := (store.read pointer).getD []

theorem read_taken (pointer : StringPointer) : store.read (store.taken pointer) = some (store.argument_text pointer) := by
  unfold taken argument_text
  cases hread : store.read pointer with
  | none => rfl
  | some text => simpa using hread

theorem find_array_set (array_name : Name) (array : LinkedTable Text (ArrayCell Number)) (other : Name) :
    (store.set_array array_name array).qk_find_array other =
      if other = array_name then array else store.qk_find_array other := by
  unfold qk_find_array set_array
  rw [LinkedTable.find_put]
  split_ifs <;> rfl

theorem find_entry_set (array_name : Name) (array : LinkedTable Text (ArrayCell Number)) (other : Name) (key : Text) :
    (store.set_array array_name array).find_entry other key =
      if other = array_name then array.find key else store.find_entry other key := by
  unfold find_entry
  rw [find_array_set]
  split_ifs <;> rfl

/-- The maps after one array was replaced. -/
theorem maps_set_array (array_name : Name) (array : LinkedTable Text (ArrayCell Number)) :
    (store.set_array array_name array).maps doubles =
      Function.update (store.maps doubles) array_name fun key => (array.find key).map (cell_view doubles) := by
  funext other key
  unfold maps
  rw [find_entry_set]
  by_cases hother : other = array_name
  · rw [if_pos hother, hother, Function.update_self]
  · rw [if_neg hother, Function.update_of_ne hother]

theorem maps_put (array_name : Name) (key : Text) (cell : ArrayCell Number) :
    (store.set_array array_name ((store.qk_find_array array_name).put key cell)).maps doubles =
      Function.update (store.maps doubles) array_name
        (Function.update (store.maps doubles array_name) key (some (cell_view doubles cell))) := by
  rw [maps_set_array]
  congr 1
  funext other
  rw [LinkedTable.find_put]
  by_cases hother : other = key
  · rw [if_pos hother, hother, Function.update_self]
    rfl
  · rw [if_neg hother, Function.update_of_ne hother]
    rfl

/-- Storing what an element has already changes no map. -/
theorem maps_put_same {array_name : Name} {key : Text} {cell cell' : ArrayCell Number}
    (h : store.find_entry array_name key = some cell) (hview : cell_view doubles cell' = cell_view doubles cell) :
    (store.set_array array_name ((store.qk_find_array array_name).put key cell')).maps doubles = store.maps doubles := by
  rw [maps_put, hview]
  have hcell : some (cell_view doubles cell) = store.maps doubles array_name key := by
    rw [maps, h]
    rfl
  rw [hcell, Function.update_eq_self, Function.update_eq_self]

theorem maps_of_arrays {after : ArrayStore Number} (h : after.arrays = store.arrays) :
    after.maps doubles = store.maps doubles := by
  unfold maps find_entry qk_find_array
  rw [h]

theorem set_cell_refines (array_name : Name) {key value : StringPointer} {key_text text : Text} (number : Number)
    (hkey : store.read key = some key_text) (hvalue : store.read value = some text) :
    ∃ after, store.qk_array_set_cell array_name key value number = some after ∧
      after.maps doubles = Function.update (store.maps doubles) array_name
        (Function.update (store.maps doubles array_name) key_text (some (text, number))) := by
  refine ⟨_, by simp only [qk_array_set_cell, hkey, hvalue]; rfl, ?_⟩
  exact store.maps_put doubles array_name key_text ⟨text, some number⟩

theorem set_number_refines (array_name : Name) {key : StringPointer} {key_text : Text} (value : Number) (convfmt : Text)
    (hkey : store.read key = some key_text) :
    ∃ after, store.qk_array_set_number doubles array_name key value convfmt = some after ∧
      after.maps doubles = Function.update (store.maps doubles) array_name
        (Function.update (store.maps doubles array_name) key_text
          (some (doubles.qk_format_number_with_text value convfmt, value))) := by
  have hkey' : { store with scratch := doubles.qk_format_number_with_text value convfmt }.read (.owned key_text) =
      some key_text := rfl
  have hvalue : { store with scratch := doubles.qk_format_number_with_text value convfmt }.read .scratch =
      some (doubles.qk_format_number_with_text value convfmt) := rfl
  obtain ⟨after, hafter, hmaps⟩ := set_cell_refines doubles _ array_name value hkey' hvalue
  refine ⟨after, ?_, hmaps⟩
  simp only [qk_array_set_number, hkey]
  exact hafter

theorem get_number_refines (array_name : Name) {key : StringPointer} {key_text : Text}
    (hkey : store.read key = some key_text) :
    ∃ after, store.qk_array_get_number doubles array_name key =
        some (((store.maps doubles array_name key_text).map Prod.snd).getD (doubles.of_int 0), after) ∧
      after.maps doubles = store.maps doubles := by
  unfold maps
  cases hfind : store.find_entry array_name key_text with
  | none => exact ⟨store, by simp [qk_array_get_number, hkey, hfind], rfl⟩
  | some cell =>
    obtain ⟨value, number⟩ := cell
    cases number with
    | some number => exact ⟨store, by simp [qk_array_get_number, hkey, hfind, cell_view], rfl⟩
    | none =>
      refine ⟨store.set_array array_name ((store.qk_find_array array_name).put key_text
        ⟨value, some ( doubles.qk_parse_awk_numeric_prefix value)⟩), ?_, store.maps_put_same doubles hfind rfl⟩
      simp [qk_array_get_number, hkey, hfind, cell_view]

theorem delete_refines (array_name : Name) {key : StringPointer} {key_text : Text}
    (hkey : store.read key = some key_text) :
    ∃ after, store.qk_array_delete array_name key = some after ∧
      after.maps doubles = Function.update (store.maps doubles) array_name
        (Function.update (store.maps doubles array_name) key_text none) := by
  cases hfind : store.arrays.find array_name with
  | none =>
    refine ⟨store, by simp [qk_array_delete, hkey, hfind], ?_⟩
    have hempty : store.maps doubles array_name = fun _ => none := by
      funext key
      simp [maps, find_entry, qk_find_array, hfind]
    have hsame : Function.update (store.maps doubles array_name) key_text none = store.maps doubles array_name := by
      rw [hempty]
      exact Function.update_eq_self key_text fun _ => none
    rw [hsame, Function.update_eq_self]
  | some array =>
    refine ⟨store.set_array array_name (array.erase key_text), by simp [qk_array_delete, hkey, hfind], ?_⟩
    rw [maps_set_array]
    congr 1
    funext other
    rw [LinkedTable.find_erase]
    by_cases hother : other = key_text
    · rw [if_pos hother, hother, Function.update_self]
      rfl
    · rw [if_neg hother, Function.update_of_ne hother]
      simp [maps, find_entry, qk_find_array, hfind]

theorem maps_cleared (array_name : Name) :
    (store.make_clear array_name).maps doubles = Function.update (store.maps doubles) array_name fun _ => none :=
  store.maps_set_array doubles array_name LinkedTable.empty

theorem clear_refines (array_name : Name) : (store.qk_array_clear array_name).maps doubles =
    Function.update (store.maps doubles) array_name fun _ => none := by
  unfold qk_array_clear
  cases hfind : store.arrays.find array_name with
  | none =>
    have hempty : store.maps doubles array_name = fun _ => none := by
      funext key
      simp [maps, find_entry, qk_find_array, hfind]
    rw [← hempty, Function.update_eq_self]
  | some array => exact store.maps_cleared doubles array_name

theorem length_refines (array_name : Name) :
    store.qk_array_length array_name = {key | (store.maps doubles array_name key).isSome}.ncard := by
  unfold qk_array_length
  rw [LinkedTable.size_eq_ncard]
  congr 1
  ext key
  simp [maps, find_entry]

theorem toDigits_injective {first second : Nat} (h : Nat.toDigits 10 first = Nat.toDigits 10 second) :
    first = second := by
  have hvalue := congrArg (Nat.ofDigitChars 10 · 0) h
  simpa [Nat.ofDigitChars_ten_toDigits] using hvalue

theorem numbered_below {count below : Nat} (h : below < count) (pieces : List Text) :
    numbered count pieces (Nat.toDigits 10 below) = none := by
  induction pieces generalizing count with
  | nil => rfl
  | cons piece pieces ih =>
    have hne : Nat.toDigits 10 below ≠ Nat.toDigits 10 count := fun heq => by
      have hsame := toDigits_injective heq
      omega
    rw [numbered, if_neg hne]
    exact ih (by omega)

/-- The pieces end up under their numbers; what is there under other keys stays. -/
theorem maps_store_pieces (array_name : Name) (count : Nat) (pieces : List Text) :
    (store.store_pieces doubles array_name count pieces).maps doubles =
      Function.update (store.maps doubles) array_name fun key =>
        ((numbered count pieces key).map doubles.element).or (store.maps doubles array_name key) := by
  induction pieces generalizing store count with
  | nil =>
    simp only [numbered, Option.map_none, Option.none_or, store_pieces]
    exact (Function.update_eq_self array_name (store.maps doubles)).symm
  | cons piece pieces ih =>
    rw [store_pieces, ih, maps_put, Function.update_idem]
    congr 1
    funext key
    rw [Function.update_self, numbered]
    by_cases hkey : key = Nat.toDigits 10 count
    · rw [if_pos hkey, hkey, numbered_below (Nat.lt_succ_self count), Function.update_self]
      rfl
    · rw [if_neg hkey, Function.update_of_ne hkey]

theorem split_maps (array_name : Name) (pieces : List Text) :
    ((store.make_clear array_name).store_pieces doubles array_name 1 pieces).maps doubles =
      Function.update (store.maps doubles) array_name fun key => (numbered 1 pieces key).map doubles.element := by
  rw [maps_store_pieces, maps_cleared, Function.update_idem]
  congr 1
  funext key
  rw [Function.update_self, Option.or_none]

/-- A pointer into an array. -/
def points_into (array_name : Name) : StringPointer → Prop
  | .element other _ | .key other _ => other = array_name
  | .owned _ | .scratch => False

/-- A text outside the array is still there after the array was cleared. -/
theorem read_make_clear {array_name : Name} {pointer : StringPointer} (h : ¬ points_into array_name pointer) :
    (store.make_clear array_name).read pointer = store.read pointer := by
  cases pointer with
  | owned | scratch => rfl
  | element other key | key other key =>
    have hne : other ≠ array_name := h
    simp only [read, make_clear, find_entry_set, if_neg hne]

/-- An element of the array is freed when the array is cleared. -/
theorem read_make_clear_freed {array_name : Name} {pointer : StringPointer} (h : points_into array_name pointer) :
    (store.make_clear array_name).read pointer = none := by
  cases pointer with
  | owned | scratch => cases h
  | element other key | key other key =>
    have heq : other = array_name := h
    simp only [read, make_clear, find_entry_set, if_pos heq]
    rfl

/-- A split may take its text and its separator from anywhere but the array it fills; and a text in the scratch buffer
only where no match is copied there. -/
structure SplitsSafely (text : StringPointer) (array_name : Name) (separator : Option StringPointer) : Prop where
  text_apart : ¬ points_into array_name (store.taken text)
  separator_apart : ∀ pointer, separator = some pointer → ¬ points_into array_name (store.taken pointer)
  not_copied : text = StringPointer.scratch → ∀ pointer regex, separator = some pointer → store.argument_text pointer ≠ [] →
    regcomp (store.argument_text pointer) = some regex → regex.exec store.scratch = none

theorem c_string_self (text : Text) : c_string (text.map some) 0 = text := by
  induction text with
  | nil => rfl
  | cons char text ih =>
    simp only [c_string, List.drop_zero, List.map_cons, List.takeWhile_cons, Option.isSome_some, if_true,
      List.reduceOption_cons_of_some] at ih ⊢
    rw [ih]

theorem regex_pieces_none {regex : Regex} {text : Text} (h : regex.exec text = none) :
    regex_pieces regex text = [text] := by
  rw [regex_pieces]
  split
  · rfl
  · next heq => rw [h] at heq; cases heq

/-- A safe split stores the pieces of its text, and returns how many they are. -/
theorem split_refines {text : StringPointer} {array_name : Name} {separator : Option StringPointer}
    (hsafe : store.SplitsSafely regcomp text array_name separator) :
    ∃ after, store.qk_split_into_array doubles regcomp (store.taken text) array_name (separator.map store.taken) =
        some ((split_pieces regcomp (store.argument_text text) (separator.map store.argument_text)).length, after) ∧
      after.maps doubles = Function.update (store.maps doubles) array_name fun key =>
        (numbered 1 (split_pieces regcomp (store.argument_text text) (separator.map store.argument_text)) key).map
          doubles.element := by
  have hbuffer : (store.make_clear array_name).read (store.taken text) = some (store.argument_text text) := by
    rw [store.read_make_clear hsafe.text_apart, read_taken]
  cases separator with
  | none =>
    refine ⟨_, by simp only [qk_split_into_array, hbuffer, Option.map_none]; rfl, ?_⟩
    exact store.split_maps doubles array_name _
  | some pointer =>
    have hseparator : (store.make_clear array_name).read (store.taken pointer) = some (store.argument_text pointer) := by
      rw [store.read_make_clear (hsafe.separator_apart pointer rfl), read_taken]
    by_cases hempty : store.argument_text pointer = []
    · refine ⟨(store.make_clear array_name).store_pieces doubles array_name 1 [store.argument_text text], ?_, ?_⟩
      · simp [qk_split_into_array, hbuffer, hseparator, hempty, split_pieces]
      · simp only [split_pieces, Option.map_some, hempty, if_true]
        exact store.split_maps doubles array_name _
    · cases hregcomp : regcomp (store.argument_text pointer) with
      | none =>
        refine ⟨store.make_clear array_name, ?_, ?_⟩
        · simp [qk_split_into_array, hbuffer, hseparator, hempty, hregcomp, split_pieces]
        · simp only [split_pieces, Option.map_some, hempty, if_false, hregcomp, numbered, Option.map_none]
          exact store.maps_cleared doubles array_name
      | some regex =>
        simp only [split_pieces, Option.map_some, hempty, if_false, hregcomp]
        cases htaken : store.taken text with
        | owned | element | key =>
          rw [htaken] at hbuffer
          refine ⟨{ (store.make_clear array_name).store_pieces doubles array_name 1
              (regex_pieces regex (store.argument_text text)) with
            scratch := ((regex_pieces regex (store.argument_text text)).dropLast.getLast?).getD store.scratch }, ?_, ?_⟩
          · simp only [qk_split_into_array, hbuffer, hseparator, hempty, hregcomp, if_false, Option.bind_eq_bind,
              Option.bind_some]
            rfl
          · exact (maps_of_arrays doubles _ rfl).trans (store.split_maps doubles array_name _)
        | scratch =>
          have htext : text = .scratch := by
            unfold taken at htaken
            split_ifs at htaken
            exact htaken
          have hexec := hsafe.not_copied htext pointer regex rfl hempty hregcomp
          have hscratch : store.argument_text text = store.scratch := by rw [htext]; rfl
          rw [htaken] at hbuffer
          rw [hscratch, regex_pieces_none hexec]
          have hpieces : scratch_pieces regex (store.scratch.length + 1) (store.scratch.map some) 0 =
              some ([store.scratch], store.scratch.map some) := by
            simp only [scratch_pieces, c_string_self, hexec]
          refine ⟨{ (store.make_clear array_name).store_pieces doubles array_name 1 [store.scratch] with
            scratch := store.scratch }, ?_, ?_⟩
          · have hkept : (store.make_clear array_name).scratch = store.scratch := rfl
            simp only [qk_split_into_array, hbuffer, hseparator, hempty, hregcomp, if_false, Option.bind_eq_bind,
              Option.bind_some, hkept, hpieces, c_string_self]
            rfl
          · exact (maps_of_arrays doubles _ rfl).trans (store.split_maps doubles array_name _)

/-- A text that points into the array it is split into is freed before it is read. -/
theorem split_freed {text : StringPointer} {array_name : Name} (h : points_into array_name (store.taken text))
    (separator : Option StringPointer) :
    store.qk_split_into_array doubles regcomp (store.taken text) array_name separator = none := by
  simp [qk_split_into_array, store.read_make_clear_freed h]

/-- An operation that is a split is a safe one. -/
def Safe : StoreOperation Number StringPointer → Prop
  | .split text array_name separator => store.SplitsSafely regcomp text array_name separator
  | _ => True

/-- Every operation of a run is safe in the store it is applied to. -/
def SafeRun (store : ArrayStore Number) : List (StoreOperation Number StringPointer) → Prop
  | [] => True
  | operation :: operations => store.Safe regcomp operation ∧
    ∀ result after, store.apply doubles regcomp operation = some (result, after) → after.SafeRun operations

/-- The operations of a run on the texts their arguments have when they start. -/
def argument_texts (store : ArrayStore Number) : List (StoreOperation Number StringPointer) →
    List (StoreOperation Number Text)
  | [] => []
  | operation :: operations =>
    operation.map_arguments store.argument_text ::
      match store.apply doubles regcomp operation with
      | some (_, after) => after.argument_texts operations
      | none => []

theorem apply_refines {operation : StoreOperation Number StringPointer} (hsafe : store.Safe regcomp operation) :
    ∃ after, store.apply doubles regcomp operation =
        some (((store.maps doubles).apply doubles regcomp (operation.map_arguments store.argument_text)).1, after) ∧
      after.maps doubles =
        ((store.maps doubles).apply doubles regcomp (operation.map_arguments store.argument_text)).2 := by
  cases operation with
  | set_string array_name key value =>
    obtain ⟨after, hafter, hmaps⟩ := store.set_cell_refines doubles array_name
      ( doubles.qk_parse_awk_numeric_prefix (store.argument_text value)) (store.read_taken key) (store.read_taken value)
    refine ⟨after, ?_, hmaps⟩
    simp [apply, perform, StoreOperation.map_arguments, qk_array_set_string, read_taken, hafter, ArrayMaps.apply]
  | set_number array_name key value convfmt =>
    obtain ⟨after, hafter, hmaps⟩ := store.set_number_refines doubles array_name value convfmt
      (store.read_taken key)
    refine ⟨after, ?_, hmaps⟩
    simp [apply, perform, StoreOperation.map_arguments, hafter, ArrayMaps.apply]
  | get array_name key =>
    refine ⟨store, ?_, rfl⟩
    simp [apply, perform, StoreOperation.map_arguments, qk_array_get, read_taken, ArrayMaps.apply, maps,
      Option.map_map, Function.comp_def, cell_view]
  | get_number array_name key =>
    obtain ⟨after, hafter, hmaps⟩ := store.get_number_refines doubles array_name (store.read_taken key)
    refine ⟨after, ?_, hmaps⟩
    simp [apply, perform, StoreOperation.map_arguments, hafter, ArrayMaps.apply]
  | contains array_name key =>
    refine ⟨store, ?_, rfl⟩
    simp [apply, perform, StoreOperation.map_arguments, qk_array_contains, read_taken, ArrayMaps.apply, maps]
  | delete array_name key =>
    obtain ⟨after, hafter, hmaps⟩ := store.delete_refines doubles array_name (store.read_taken key)
    refine ⟨after, ?_, hmaps⟩
    simp [apply, perform, StoreOperation.map_arguments, hafter, ArrayMaps.apply]
  | clear array_name => exact ⟨_, rfl, store.clear_refines doubles array_name⟩
  | length array_name =>
    refine ⟨store, ?_, rfl⟩
    simp [apply, perform, StoreOperation.map_arguments, ArrayMaps.apply, store.length_refines doubles]
  | split text array_name separator =>
    obtain ⟨after, hafter, hmaps⟩ := store.split_refines doubles regcomp hsafe
    refine ⟨after, ?_, hmaps⟩
    simp [apply, perform, StoreOperation.map_arguments, hafter, ArrayMaps.apply]

/-- A run of safe operations reads no freed text, returns what the maps return, and leads to a store that stands for
the maps they lead to, with every array name and every key of an array once. -/
theorem array_store_refines (operations : List (StoreOperation Number StringPointer))
    (hsafe : store.SafeRun doubles regcomp operations) :
    ∃ final, store.run doubles regcomp operations =
        some (((store.maps doubles).run doubles regcomp (store.argument_texts doubles regcomp operations)).1, final) ∧
      final.maps doubles =
        ((store.maps doubles).run doubles regcomp (store.argument_texts doubles regcomp operations)).2 ∧
      (final.arrays.entries.map Prod.fst).Nodup ∧
      ∀ array_name array, final.arrays.find array_name = some array → (array.entries.map Prod.fst).Nodup := by
  induction operations generalizing store with
  | nil => exact ⟨store, rfl, rfl, store.arrays.unique, fun _ array _ => array.unique⟩
  | cons operation operations ih =>
    obtain ⟨after, hafter, hmaps⟩ := store.apply_refines doubles regcomp hsafe.1
    obtain ⟨final, hfinal, hfinal_maps, hunique⟩ := ih after (hsafe.2 _ after hafter)
    refine ⟨final, ?_, ?_, hunique⟩
    · simp only [run, hafter, argument_texts, ArrayMaps.run, ← hmaps, Option.bind_eq_bind, Option.bind_some, hfinal]
      rfl
    · simp only [hafter, argument_texts, ArrayMaps.run, ← hmaps, hfinal_maps]

theorem array_store_refines_split :
    ∃ final, (⟨LinkedTable.empty, []⟩ : ArrayStore Rat).run .rational (fun _ => none)
        [.split (.owned ['a', ' ', 'b']) "A" none, .get "A" (.owned ['2'])] =
      some ((((⟨LinkedTable.empty, []⟩ : ArrayStore Rat).maps .rational).run .rational (fun _ => none)
        ((⟨LinkedTable.empty, []⟩ : ArrayStore Rat).argument_texts .rational (fun _ => none)
          [.split (.owned ['a', ' ', 'b']) "A" none, .get "A" (.owned ['2'])])).1, final) := by
  obtain ⟨final, hrun, _⟩ := array_store_refines .rational (fun _ => none) (⟨LinkedTable.empty, []⟩ : ArrayStore Rat)
    [.split (.owned ['a', ' ', 'b']) "A" none, .get "A" (.owned ['2'])]
    ⟨⟨id, (fun _ h => nomatch h), (fun h => nomatch h)⟩, fun _ _ _ => ⟨trivial, fun _ _ _ => trivial⟩⟩
  exact ⟨final, hrun⟩

/-- `,` as a regular expression. -/
def comma : Regex where
  exec text := if text.findIdx (· == ',') < text.length then
      some (text.findIdx (· == ','), text.findIdx (· == ',') + 1) else none
  bounds text first last h := by
    split_ifs at h with hfound
    obtain ⟨rfl, rfl⟩ := Prod.mk.inj (Option.some.inj h)
    omega

/-- `split(A[1], A)` reads the element after it was freed, and `split("a" ",b", A, ",")` copies a piece of the scratch
buffer onto itself. -/
theorem array_store_diverges :
    (¬ ∃ results final, (⟨LinkedTable.empty, []⟩ : ArrayStore Rat).run .rational (fun _ => none)
      [.set_string "A" (.owned ['1']) (.owned ['a', ' ', 'b']), .split (.element "A" ['1']) "A" none] =
        some (results, final)) ∧
    ¬ ∃ results final, (⟨LinkedTable.empty, ['a', ',', 'b']⟩ : ArrayStore Rat).run .rational (fun _ => some comma)
      [.split .scratch "A" (some (.owned [',']))] = some (results, final) := by
  constructor
  · intro ⟨_, _, hrun⟩
    cases hrun
  · intro ⟨_, _, hrun⟩
    cases hrun

end ArrayStore

end quawk
