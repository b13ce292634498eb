import Quawk.RuntimeScalars

namespace quawk

/-- A compiled regular expression: where `regexec` finds its first match in a text, if there is one. -/
structure Regex where
  exec : Text → Option (Nat × Nat)
  bounds : ∀ text first last, exec text = some (first, last) → first ≤ last ∧ last ≤ text.length

/-- An element: its text, and its number as far as it was worked out. -/
structure ArrayCell (Number : Type) where
  value : Text
  number : Option Number

variable {Number : Type}

structure ArrayStore (Number : Type) where
  arrays : LinkedTable Name (LinkedTable Text (ArrayCell Number))
  /-- What the scratch buffer holds. -/
  scratch : Text

/-- A string argument: a text of its own, or a pointer to the text of an element, to its key, or to the scratch
buffer. -/
inductive StringPointer where
  | owned (text : Text)
  | element (array_name : Name) (key : Text)
  | key (array_name : Name) (key : Text)
  | scratch

namespace ArrayStore

/-- `qk_find_array`, without making one. -/
def qk_find_array (store : ArrayStore Number) (array_name : Name) : LinkedTable Text (ArrayCell Number) :=
  (store.arrays.find array_name).getD LinkedTable.empty

def find_entry (store : ArrayStore Number) (array_name : Name) (key : Text) : Option (ArrayCell Number) :=
  (store.qk_find_array array_name).find key

/-- The text under a pointer; there is none when the element was freed. -/
def read (store : ArrayStore Number) : StringPointer → Option Text
  | .owned text => some text
  | .element array_name key => (store.find_entry array_name key).map ArrayCell.value
  | .key array_name key => (store.find_entry array_name key).map fun _ => key
  | .scratch => some store.scratch

/-- A pointer as an operation gets it: for an element that is absent, to the empty string. -/
def taken (store : ArrayStore Number) (pointer : StringPointer) : StringPointer :=
  if (store.read pointer).isSome then pointer else .owned []

def set_array (store : ArrayStore Number) (array_name : Name) (array : LinkedTable Text (ArrayCell Number)) :
    ArrayStore Number := { store with arrays := store.arrays.put array_name array }

/-- `qk_find_array` and `qk_clear_array`: an array that is not there is made. -/
def make_clear (store : ArrayStore Number) (array_name : Name) : ArrayStore Number :=
  store.set_array array_name LinkedTable.empty

/-- The key and the value are copied before anything is freed. Reading a text that was freed has no result. -/
def qk_array_set_cell (store : ArrayStore Number) (array_name : Name) (key value : StringPointer) (number : Number) :
    Option (ArrayStore Number) := do
  let key ← store.read key
  let copy ← store.read value
  return store.set_array array_name ((store.qk_find_array array_name).put key ⟨copy, some number⟩)

def qk_array_get (store : ArrayStore Number) (array_name : Name) (key : StringPointer) : Option Text := do
  let key ← store.read key
  return ((store.find_entry array_name key).map ArrayCell.value).getD []

def qk_array_contains (store : ArrayStore Number) (array_name : Name) (key : StringPointer) : Option Bool := do
  let key ← store.read key
  return (store.find_entry array_name key).isSome

def qk_array_delete (store : ArrayStore Number) (array_name : Name) (key : StringPointer) :
    Option (ArrayStore Number) := do
  let key ← store.read key
  match store.arrays.find array_name with
  | none => return store
  | some array => return store.set_array array_name (array.erase key)

def qk_array_clear (store : ArrayStore Number) (array_name : Name) : ArrayStore Number :=
  match store.arrays.find array_name with
  | none => store
  | some _ => store.set_array array_name LinkedTable.empty

def qk_array_length (store : ArrayStore Number) (array_name : Name) : Nat := (store.qk_find_array array_name).size

end ArrayStore

/-- The pieces between the matches. After an empty match the next character is skipped. -/
def regex_pieces (regex : Regex) (text : Text) : List Text :=
  match hexec : regex.exec text with
  | none => [text]
  | some (first, last) =>
    text.take first ::
      if first = last then
        if last = text.length then [[]] else regex_pieces regex (text.drop (last + 1))
      else regex_pieces regex (text.drop last)
termination_by text.length
decreasing_by
  · obtain ⟨_, hlast⟩ := regex.bounds text first last hexec
    simp only [List.length_drop]
    omega
  · obtain ⟨hfirst, hlast⟩ := regex.bounds text first last hexec
    simp only [List.length_drop]
    omega

/-- The text of a buffer from an offset on; `none` is a terminator. -/
def c_string (memory : List (Option Char)) (offset : Nat) : Text :=
  ((memory.drop offset).takeWhile Option.isSome).reduceOption

/-- The same loop over a text in the scratch buffer, into which each piece is copied: there is no result where the
copied regions overlap, and the terminator that is written may end the text. -/
def scratch_pieces (regex : Regex) : Nat → List (Option Char) → Nat → Option (List Text × List (Option Char))
  | 0, _, _ => none
  | fuel + 1, memory, offset =>
    let cursor := c_string memory offset
    match regex.exec cursor with
    | none => some ([cursor], memory)
    | some (first, last) =>
      if 0 < first ∧ offset < first then none
      else
        let piece := cursor.take first
        let memory := piece.map some ++ none :: memory.drop (first + 1)
        let next :=
          if first = last then
            if c_string memory (offset + last) = [] then some ([[]], memory)
            else scratch_pieces regex fuel memory (offset + last + 1)
          else scratch_pieces regex fuel memory (offset + last)
        next.map fun (pieces, memory) => (piece :: pieces, memory)

namespace ArrayStore

variable (doubles : Doubles Number) (regcomp : Text → Option Regex)

/-- The pieces are stored under `1`, `2` and so on. -/
def store_pieces (store : ArrayStore Number) (array_name : Name) : Nat → List Text → ArrayStore Number
  | _, [] => store
  | count, piece :: pieces =>
    store_pieces
      (store.set_array array_name ((store.qk_find_array array_name).put (Nat.toDigits 10 count)
        ⟨piece, some ( doubles.qk_parse_awk_numeric_prefix piece)⟩))
      array_name (count + 1) pieces

/-- The array is cleared before the text and the separator are read. -/
def qk_split_into_array (store : ArrayStore Number) (text : StringPointer) (array_name : Name)
    (separator : Option StringPointer) : Option (Nat × ArrayStore Number) := do
  let cleared := store.make_clear array_name
  let buffer ← cleared.read text
  match separator with
  | none =>
    let pieces := qk_split_whitespace_fields [] buffer
    return (pieces.length, cleared.store_pieces doubles array_name 1 pieces)
  | some separator =>
    let separator ← cleared.read separator
    if separator = [] then return (1, cleared.store_pieces doubles array_name 1 [buffer])
    else match regcomp separator with
      | none => return (0, cleared)
      | some regex =>
        match text with
        | .scratch =>
          let (pieces, memory) ← scratch_pieces regex (cleared.scratch.length + 1) (cleared.scratch.map some) 0
          return (pieces.length,
            { cleared.store_pieces doubles array_name 1 pieces with scratch := c_string memory 0 })
        | .owned _ | .element _ _ | .key _ _ =>
          let pieces := regex_pieces regex buffer
          return (pieces.length,
            { cleared.store_pieces doubles array_name 1 pieces with scratch := (pieces.dropLast.getLast?).getD cleared.scratch })

/-- A number an element has not been asked for yet is worked out and kept. -/
def qk_array_get_number (store : ArrayStore Number) (array_name : Name) (key : StringPointer) :
    Option (Number × ArrayStore Number) := do
  let key ← store.read key
  match store.find_entry array_name key with
  | none => return (doubles.of_int 0, store)
  | some ⟨_, some number⟩ => return (number, store)
  | some ⟨value, none⟩ =>
    let number := doubles.qk_parse_awk_numeric_prefix value
    return (number, store.set_array array_name ((store.qk_find_array array_name).put key ⟨value, some number⟩))

def qk_array_set_string (store : ArrayStore Number) (array_name : Name) (key value : StringPointer) :
    Option (ArrayStore Number) := do
  let text ← store.read value
  store.qk_array_set_cell array_name key value ( doubles.qk_parse_awk_numeric_prefix text)

/-- The key is copied before the number is formatted into the scratch buffer. -/
def qk_array_set_number (store : ArrayStore Number) (array_name : Name) (key : StringPointer) (value : Number)
    (convfmt : Text) : Option (ArrayStore Number) := do
  let stable_key ← store.read key
  { store with scratch := doubles.qk_format_number_with_text value convfmt }.qk_array_set_cell array_name
    (.owned stable_key) .scratch value

end ArrayStore

/-- The operations on arrays; a number is stored under the `CONVFMT` that is in force. -/
inductive StoreOperation (Number : Type) (Argument : Type) where
  | set_string (array_name : Name) (key value : Argument)
  | set_number (array_name : Name) (key : Argument) (value : Number) (convfmt : Text)
  | get (array_name : Name) (key : Argument)
  | get_number (array_name : Name) (key : Argument)
  | contains (array_name : Name) (key : Argument)
  | delete (array_name : Name) (key : Argument)
  | clear (array_name : Name)
  | length (array_name : Name)
  | split (text : Argument) (array_name : Name) (separator : Option Argument)

/-- What an operation returns. -/
inductive ArrayResult (Number : Type) where
  | done
  | text (text : Text)
  | number (number : Number)
  | flag (flag : Bool)
  | count (count : Nat)

def StoreOperation.map_arguments {A B : Type} (change : A → B) : StoreOperation Number A → StoreOperation Number B
  | .set_string array_name key value => .set_string array_name (change key) (change value)
  | .set_number array_name key value convfmt => .set_number array_name (change key) value convfmt
  | .get array_name key => .get array_name (change key)
  | .get_number array_name key => .get_number array_name (change key)
  | .contains array_name key => .contains array_name (change key)
  | .delete array_name key => .delete array_name (change key)
  | .clear array_name => .clear array_name
  | .length array_name => .length array_name
  | .split text array_name separator => .split (change text) array_name (separator.map change)

namespace ArrayStore

variable (doubles : Doubles Number) (regcomp : Text → Option Regex)

/-- One operation on pointers as they were taken; there is no result where a freed text is read. -/
def perform (store : ArrayStore Number) : StoreOperation Number StringPointer →
    Option (ArrayResult Number × ArrayStore Number)
  | .set_string array_name key value =>
    (store.qk_array_set_string doubles array_name key value).map fun after => (.done, after)
  | .set_number array_name key value convfmt =>
    (store.qk_array_set_number doubles array_name key value convfmt).map fun after => (.done, after)
  | .get array_name key => (store.qk_array_get array_name key).map fun text => (.text text, store)
  | .get_number array_name key =>
    (store.qk_array_get_number doubles array_name key).map fun (number, after) => (.number number, after)
  | .contains array_name key => (store.qk_array_contains array_name key).map fun flag => (.flag flag, store)
  | .delete array_name key => (store.qk_array_delete array_name key).map fun after => (.done, after)
  | .clear array_name => some (.done, store.qk_array_clear array_name)
  | .length array_name => some (.count (store.qk_array_length array_name), store)
  | .split text array_name separator =>
    (store.qk_split_into_array doubles regcomp text array_name separator).map fun (count, after) => (.count count, after)

/-- An operation takes its pointers from the store it is applied to. -/
def apply (store : ArrayStore Number) (operation : StoreOperation Number StringPointer) :
    Option (ArrayResult Number × ArrayStore Number) :=
  store.perform doubles regcomp (operation.map_arguments store.taken)

/-- The results of a run and the store it leads to, if it does not read a freed text. -/
def run (store : ArrayStore Number) : List (StoreOperation Number StringPointer) →
    Option (List (ArrayResult Number) × ArrayStore Number)
  | [] => some ([], store)
  | operation :: operations => do
    let (result, after) ← store.apply doubles regcomp operation
    let (results, final) ← after.run operations
    return (result :: results, final)

end ArrayStore

end quawk
