import Quawk.Lib.GrowingTable
import Quawk.PreassignedValues

open GrowingTable (Doubled ensure_capacity ensure_capacity_spec entry entry_set)

namespace quawk

/-- The two tables of slots. -/
structure SlotTables (Number : Type) where
  numeric_slots : List Number
  string_slots : List (SlotCell Number)

/-- A cell that was never stored to. -/
def SlotCell.fresh {Number : Type} : SlotCell Number := ⟨none, none⟩

/-- What `size_t` overflows at, and the sizes of the entries. -/
def SIZE_MODULUS : Nat := 2 ^ 64
def NUMBER_SIZE : Nat := 8
def CELL_SIZE : Nat := 24

/-- The bytes of so many slots can still be counted. -/
def SLOT_LIMIT : Nat := 2 ^ 59

namespace SlotTables

variable {Number : Type} (doubles : Doubles Number) (allocates : Nat → Bool) (format_text : Text)
  (tables : SlotTables Number)

def created : SlotTables Number := ⟨[], []⟩

def qk_ensure_numeric_slot_capacity (required_count : Nat) : Option (Bool × SlotTables Number) := do
  let (ensured, numeric_slots) ←
    ensure_capacity SIZE_MODULUS NUMBER_SIZE allocates (doubles.of_int 0) tables.numeric_slots required_count
  pure (ensured, { tables with numeric_slots })

def qk_ensure_string_slot_capacity (required_count : Nat) : Option (Bool × SlotTables Number) := do
  let (ensured, string_slots) ←
    ensure_capacity SIZE_MODULUS CELL_SIZE allocates .fresh tables.string_slots required_count
  pure (ensured, { tables with string_slots })

def qk_slot_get_number (slot_index : Int) : Number :=
  if slot_index < 0 then doubles.of_int 0
  else
    let index := slot_index.toNat
    match tables.string_slots[index]? with
    | some ⟨some number, _⟩ => number
    | _ => tables.numeric_slots[index]?.getD (doubles.of_int 0)

/-- The cell is written where there is room for it. -/
def qk_slot_set_number (slot_index : Int) (value : Number) : Option (SlotTables Number) :=
  if slot_index < 0 then pure tables
  else do
    let required_count := slot_index.toNat + 1
    let (ensured, tables) ← tables.qk_ensure_numeric_slot_capacity doubles allocates required_count
    if !ensured then pure tables
    else do
      let (_, tables) ← tables.qk_ensure_string_slot_capacity allocates required_count
      let index := slot_index.toNat
      pure ⟨tables.numeric_slots.set index value, tables.string_slots.set index ⟨some value, none⟩⟩

/-- The text of a slot, which a number then keeps. -/
def qk_slot_get_string (slot_index : Int) : Text × SlotTables Number :=
  if slot_index < 0 then ([], tables)
  else
    let index := slot_index.toNat
    match tables.string_slots[index]? with
    | none => ([], tables)
    | some ⟨_, some string⟩ => (string, tables)
    | some ⟨none, none⟩ => ([], tables)
    | some ⟨some number, none⟩ =>
      let copy := doubles.qk_format_number_with_text number format_text
      if allocates (copy.length + 1) then
        (copy, { tables with string_slots := tables.string_slots.set index ⟨some number, some copy⟩ })
      else ([], tables)

def qk_slot_set_string (slot_index : Int) (value : Option Text) : Option (SlotTables Number) :=
  if slot_index < 0 then pure tables
  else do
    let required_count := slot_index.toNat + 1
    let (ensured, tables) ← tables.qk_ensure_string_slot_capacity allocates required_count
    if !ensured then pure tables
    else
      let index := slot_index.toNat
      let copy := value.getD []
      if allocates (copy.length + 1) then
        pure { tables with
          string_slots := tables.string_slots.set index ⟨some ( doubles.qk_parse_awk_numeric_prefix copy), some copy⟩ }
      else pure tables

end SlotTables

/-- A program's calls on slots. -/
inductive SlotCall (Number : Type) where
  | set_number (slot_index : Int) (value : Number)
  | set_string (slot_index : Int) (value : Option Text)
  | get_number (slot_index : Int)
  | get_string (slot_index : Int)

namespace SlotCall

variable {Number : Type}

def slot_index : SlotCall Number → Int
  | set_number slot_index _ | set_string slot_index _ | get_number slot_index | get_string slot_index => slot_index

def apply (doubles : Doubles Number) (allocates : Nat → Bool) (format_text : Text) (tables : SlotTables Number) :
    SlotCall Number → Option (SlotTables Number)
  | set_number slot_index value => tables.qk_slot_set_number doubles allocates slot_index value
  | set_string slot_index value => tables.qk_slot_set_string doubles allocates slot_index value
  | get_number _ => pure tables
  | get_string slot_index => pure (tables.qk_slot_get_string doubles allocates format_text slot_index).2

/-- What is written has an index for which there can be a table. -/
def Fits : SlotCall Number → Prop
  | set_number slot_index _ | set_string slot_index _ => slot_index < SLOT_LIMIT
  | get_number _ | get_string _ => True

/-- What a slot was last given, if this call is the next one. -/
def written (index : Int) (value : StoredValue Number) : SlotCall Number → StoredValue Number
  | set_number slot_index number => if slot_index = index then .number number else value
  | set_string slot_index text => if slot_index = index then .string (text.getD []) else value
  | get_number _ | get_string _ => value

end SlotCall

/-- What a slot was last given. -/
def last_written {Number : Type} (calls : List (SlotCall Number)) (index : Int) : StoredValue Number :=
  calls.foldl (SlotCall.written index) .unset

namespace SlotTables

variable {Number : Type} {doubles : Doubles Number} {allocates : Nat → Bool} {format_text : Text}
  {tables : SlotTables Number} {index : Nat}

def cell (tables : SlotTables Number) : Nat → SlotCell Number := entry .fresh tables.string_slots

def number (doubles : Doubles Number) (tables : SlotTables Number) : Nat → Number :=
  entry (doubles.of_int 0) tables.numeric_slots

theorem qk_slot_get_number_eq (doubles : Doubles Number) (tables : SlotTables Number) (index : Nat) :
    tables.qk_slot_get_number doubles index = (tables.cell index).number.getD (tables.number doubles index) := by
  unfold qk_slot_get_number cell number entry
  rw [if_neg (Int.not_lt.mpr (Int.natCast_nonneg index))]
  dsimp only
  rw [Int.toNat_natCast]
  rcases tables.string_slots[index]? with _ | ⟨_ | number, string⟩ <;> rfl

theorem qk_slot_get_string_eq (hall : ∀ size, allocates size = true) (tables : SlotTables Number) (index : Nat) :
    tables.qk_slot_get_string doubles allocates format_text index =
      match tables.cell index with
      | ⟨_, some string⟩ => (string, tables)
      | ⟨none, none⟩ => ([], tables)
      | ⟨some number, none⟩ =>
        (doubles.qk_format_number_with_text number format_text, { tables with
          string_slots := tables.string_slots.set index
            ⟨some number, some (doubles.qk_format_number_with_text number format_text)⟩ }) := by
  unfold qk_slot_get_string cell entry
  rw [if_neg (Int.not_lt.mpr (Int.natCast_nonneg index))]
  dsimp only
  rw [Int.toNat_natCast]
  rcases tables.string_slots[index]? with _ | ⟨_ | number, _ | string⟩
  · rfl
  · rfl
  · rfl
  · exact if_pos (hall _)
  · rfl

/-- The tables have counts from which they can grow up to the limit. -/
structure Grown (tables : SlotTables Number) : Prop where
  numeric : Doubled 59 tables.numeric_slots.length
  string : Doubled 59 tables.string_slots.length

theorem ensure_numeric_spec (doubles : Doubles Number) (allocates : Nat → Bool) (hgrown : tables.Grown) {required_count : Nat}
    (hrequired : required_count ≤ SLOT_LIMIT) :
    ∃ ensured after, tables.qk_ensure_numeric_slot_capacity doubles allocates required_count = some (ensured, after) ∧
      (after.cell = tables.cell ∧ after.number doubles = tables.number doubles) ∧ after.Grown ∧
      (ensured = true → required_count ≤ after.numeric_slots.length) ∧
      ((∀ size, allocates size = true) → ensured = true) := by
  obtain ⟨ensured, numeric_slots, hnumeric, hnumbers, hlength, hensured, hdoubled⟩ :=
    @ensure_capacity_spec _ (doubles.of_int 0) tables.numeric_slots required_count SIZE_MODULUS NUMBER_SIZE allocates 59
      (by decide) (by decide) (by decide) hgrown.numeric hrequired
  unfold qk_ensure_numeric_slot_capacity
  rw [hnumeric]
  exact ⟨_, _, rfl, ⟨rfl, hnumbers⟩, ⟨hdoubled, hgrown.string⟩, hlength, hensured⟩

theorem ensure_string_spec (doubles : Doubles Number) (allocates : Nat → Bool) (hgrown : tables.Grown) {required_count : Nat}
    (hrequired : required_count ≤ SLOT_LIMIT) :
    ∃ ensured after, tables.qk_ensure_string_slot_capacity allocates required_count = some (ensured, after) ∧
      (after.cell = tables.cell ∧ after.number doubles = tables.number doubles) ∧ after.Grown ∧
      (ensured = true → required_count ≤ after.string_slots.length) ∧
      ((∀ size, allocates size = true) → ensured = true) ∧ after.numeric_slots = tables.numeric_slots := by
  obtain ⟨ensured, string_slots, hstring, hcells, hlength, hensured, hdoubled⟩ :=
    @ensure_capacity_spec _ SlotCell.fresh tables.string_slots required_count SIZE_MODULUS CELL_SIZE allocates 59
      (by decide) (by decide) (by decide) hgrown.string hrequired
  unfold qk_ensure_string_slot_capacity
  rw [hstring]
  exact ⟨_, _, rfl, ⟨hcells, rfl⟩, ⟨hgrown.numeric, hdoubled⟩, hlength, hensured, rfl⟩

theorem qk_slot_set_number_spec (hall : ∀ size, allocates size = true) (hgrown : tables.Grown) {index : Nat}
    (hindex : index < SLOT_LIMIT) (value : Number) :
    ∃ after, tables.qk_slot_set_number doubles allocates index value = some after ∧ after.Grown ∧
      after.cell = Function.update tables.cell index ⟨some value, none⟩ ∧
      after.number doubles = Function.update (tables.number doubles) index value := by
  obtain ⟨ensured, middle, hnumeric, ⟨hcells, hnumbers⟩, hmiddle, hnumeric_length, hensured⟩ :=
    ensure_numeric_spec doubles allocates hgrown hindex
  obtain ⟨ensured', after, hstring, ⟨hcells', hnumbers'⟩, hafter, hstring_length, hensured', hslots⟩ :=
    ensure_string_spec doubles allocates hmiddle hindex
  obtain rfl := hensured hall
  have hset : tables.qk_slot_set_number doubles allocates index value =
      some ⟨after.numeric_slots.set index value, after.string_slots.set index ⟨some value, none⟩⟩ := by
    unfold qk_slot_set_number
    rw [if_neg (Int.not_lt.mpr (Int.natCast_nonneg index))]
    simp only [Int.toNat_natCast, hnumeric, Option.bind_eq_bind, Option.bind_some, Bool.not_true, Bool.false_eq_true,
      ↓reduceIte, hstring]
    rfl
  have hlength := hnumeric_length rfl
  rw [← hslots] at hlength
  have hcell : entry SlotCell.fresh (after.string_slots.set index ⟨some value, none⟩) =
      Function.update tables.cell index ⟨some value, none⟩ := by
    rw [entry_set (hstring_length (hensured' hall)), ← hcells, ← hcells']
    rfl
  have hnumber : entry (doubles.of_int 0) (after.numeric_slots.set index value) =
      Function.update (tables.number doubles) index value := by
    rw [entry_set hlength, ← hnumbers, ← hnumbers']
    rfl
  refine ⟨_, hset, ⟨?_, ?_⟩, hcell, hnumber⟩
  · rw [List.length_set]
    exact hafter.numeric
  · rw [List.length_set]
    exact hafter.string

theorem qk_slot_set_string_spec (hall : ∀ size, allocates size = true) (hgrown : tables.Grown) {index : Nat}
    (hindex : index < SLOT_LIMIT) (value : Option Text) :
    ∃ after, tables.qk_slot_set_string doubles allocates index value = some after ∧ after.Grown ∧
      after.cell = Function.update tables.cell index
        ⟨some ( doubles.qk_parse_awk_numeric_prefix (value.getD [])), some (value.getD [])⟩ ∧
      after.number doubles = tables.number doubles := by
  obtain ⟨ensured, after, hstring, ⟨hcells, hnumbers⟩, hafter, hlength, hensured, -⟩ :=
    ensure_string_spec doubles allocates hgrown hindex
  obtain rfl := hensured hall
  have hset : tables.qk_slot_set_string doubles allocates index value =
      some ⟨after.numeric_slots, after.string_slots.set index
        ⟨some ( doubles.qk_parse_awk_numeric_prefix (value.getD [])), some (value.getD [])⟩⟩ := by
    unfold qk_slot_set_string
    rw [if_neg (Int.not_lt.mpr (Int.natCast_nonneg index))]
    simp only [Int.toNat_natCast, hstring, Option.bind_eq_bind, Option.bind_some, Bool.not_true, Bool.false_eq_true,
      ↓reduceIte, hall]
    rfl
  have hcell : entry SlotCell.fresh (after.string_slots.set index
      ⟨some ( doubles.qk_parse_awk_numeric_prefix (value.getD [])), some (value.getD [])⟩) =
      Function.update tables.cell index
        ⟨some ( doubles.qk_parse_awk_numeric_prefix (value.getD [])), some (value.getD [])⟩ := by
    rw [entry_set (hlength rfl), ← hcells]
    rfl
  refine ⟨_, hset, ⟨hafter.numeric, ?_⟩, hcell, hnumbers⟩
  rw [List.length_set]
  exact hafter.string

/-- The entries of a slot hold a value: its cell the number and the text, and the text of a number only if it was read. -/
def CellHolds (doubles : Doubles Number) (format_text : Text) (cell : SlotCell Number) (number : Number) :
    StoredValue Number → Prop
  | .unset => cell = .fresh ∧ number = doubles.of_int 0
  | .number value => cell = ⟨some value, none⟩ ∨ cell = ⟨some value, some (doubles.qk_format_number_with_text value format_text)⟩
  | .string text => cell = ⟨some ( doubles.qk_parse_awk_numeric_prefix text), some text⟩

/-- Every slot holds its value. -/
def Holds (doubles : Doubles Number) (format_text : Text) (tables : SlotTables Number) (value : Nat → StoredValue Number) : Prop :=
  ∀ index, CellHolds doubles format_text (tables.cell index) (tables.number doubles index) (value index)

variable {value : Nat → StoredValue Number}

theorem Holds.of_entries {after : SlotTables Number} (h : tables.Holds doubles format_text value)
    (hsame : after.cell = tables.cell ∧ after.number doubles = tables.number doubles) :
    after.Holds doubles format_text value := by
  intro index
  rw [hsame.1, hsame.2]
  exact h index

theorem CellHolds.number_of {cell : SlotCell Number} {number : Number} {stored : StoredValue Number}
    (h : CellHolds doubles format_text cell number stored) : cell.number.getD number = doubles.number_of stored := by
  cases stored with
  | unset =>
    rw [h.1, h.2]
    rfl
  | number value => obtain rfl | rfl := h <;> rfl
  | string text =>
    obtain rfl := h
    rfl

theorem Holds.number_eq (h : tables.Holds doubles format_text value) (index : Nat) :
    tables.qk_slot_get_number doubles index = doubles.number_of (value index) := by
  rw [qk_slot_get_number_eq]
  exact (h index).number_of

theorem Holds.string_eq (hall : ∀ size, allocates size = true) (h : tables.Holds doubles format_text value) (index : Nat) :
    (tables.qk_slot_get_string doubles allocates format_text index).1 = doubles.text_of format_text (value index) := by
  have hindex := h index
  rw [qk_slot_get_string_eq hall]
  generalize tables.cell index = cell at hindex ⊢
  generalize value index = stored at hindex ⊢
  cases stored with
  | unset =>
    obtain ⟨rfl, -⟩ := hindex
    rfl
  | number value => obtain rfl | rfl := hindex <;> rfl
  | string text =>
    obtain rfl := hindex
    rfl

theorem Holds.update {after : SlotTables Number} {new_cell : SlotCell Number} {new_value : StoredValue Number}
    (h : tables.Holds doubles format_text value) (hcell : after.cell = Function.update tables.cell index new_cell)
    (hnumber : ∀ other, other ≠ index → after.number doubles other = tables.number doubles other)
    (hnew : CellHolds doubles format_text new_cell (after.number doubles index) new_value) :
    after.Holds doubles format_text (Function.update value index new_value) := by
  intro other
  obtain rfl | hne := eq_or_ne other index
  · rwa [hcell, Function.update_self, Function.update_self]
  · rw [hcell, Function.update_of_ne hne, Function.update_of_ne hne, hnumber other hne]
    exact h other

theorem cell_set (h : tables.cell index ≠ .fresh) (new_cell : SlotCell Number) :
    (⟨tables.numeric_slots, tables.string_slots.set index new_cell⟩ : SlotTables Number).cell =
      Function.update tables.cell index new_cell := by
  refine entry_set (Nat.lt_of_not_le fun hle => h ?_) new_cell
  rw [cell, entry, List.getElem?_eq_none hle]
  rfl

/-- Reading the text of a slot leaves every value. -/
theorem Holds.get_string (hall : ∀ size, allocates size = true) (h : tables.Holds doubles format_text value) (index : Nat) :
    (tables.qk_slot_get_string doubles allocates format_text index).2.Holds doubles format_text value := by
  rw [qk_slot_get_string_eq hall]
  have hindex := h index
  rcases hcell : tables.cell index with ⟨_ | number, _ | string⟩
  · exact h
  · exact h
  · have hvalue : value index = .number number := by
      rw [hcell] at hindex
      cases hvalue : value index <;> rw [hvalue] at hindex
      · cases hindex.1
      · obtain heq | heq := hindex <;> cases heq
        rfl
      · cases hindex
    have hne : tables.cell index ≠ .fresh := by
      rw [hcell]
      exact nofun
    have hnew : CellHolds doubles format_text ⟨some number, some (doubles.qk_format_number_with_text number format_text)⟩
        (tables.number doubles index) (.number number) := .inr rfl
    have hupdated := h.update (cell_set hne _) (fun _ _ => rfl) hnew
    rwa [← hvalue, Function.update_eq_self] at hupdated
  · exact h

/-- The tables grow within their limit, and every slot holds its value. -/
structure Kept (doubles : Doubles Number) (format_text : Text) (tables : SlotTables Number)
    (value : Nat → StoredValue Number) : Prop where
  grown : tables.Grown
  holds : tables.Holds doubles format_text value

theorem created_kept : (created : SlotTables Number).Kept doubles format_text fun _ => .unset :=
  ⟨⟨.inl rfl, .inl rfl⟩, fun _ => ⟨rfl, rfl⟩⟩

theorem get_string_grown (hall : ∀ size, allocates size = true) (hgrown : tables.Grown) (index : Nat) :
    (tables.qk_slot_get_string doubles allocates format_text index).2.Grown := by
  rw [qk_slot_get_string_eq hall]
  rcases tables.cell index with ⟨_ | number, _ | string⟩
  · exact hgrown
  · exact hgrown
  · refine ⟨hgrown.numeric, ?_⟩
    rw [List.length_set]
    exact hgrown.string
  · exact hgrown

/-- Every call leaves each slot with what it was last given. -/
theorem Kept.apply (hall : ∀ size, allocates size = true) {call : SlotCall Number} (hfits : call.Fits)
    (h : tables.Kept doubles format_text value) :
    ∃ after, call.apply doubles allocates format_text tables = some after ∧
      after.Kept doubles format_text fun index => call.written index (value index) := by
  have hupdate : ∀ (index : Nat) (new_value : StoredValue Number),
      (fun other : Nat => if (index : Int) = other then new_value else value other) = Function.update value index new_value := by
    intro index new_value
    funext other
    rw [Function.update_apply]
    simp only [Int.natCast_inj, eq_comm]
  have hnegative : ∀ (index : Nat) (new_value : StoredValue Number),
      (fun other : Nat => if Int.negSucc index = other then new_value else value other) = value :=
    fun index new_value => funext fun other => if_neg nofun
  cases call with
  | set_number slot_index number =>
    cases slot_index with
    | ofNat index =>
      have hindex : index < SLOT_LIMIT := Int.ofNat_lt.mp hfits
      obtain ⟨after, hset, hgrown, hcell, hnumber⟩ := @qk_slot_set_number_spec _ doubles _ _ hall h.grown _ hindex number
      refine ⟨after, hset, hgrown, (hupdate index _).symm ▸ h.holds.update hcell (fun other hne => ?_) (.inl rfl)⟩
      exact (congrFun hnumber other).trans (Function.update_of_ne hne _ _)
    | negSucc index => exact ⟨tables, if_pos (Int.negSucc_lt_zero index), (hnegative index (.number number)).symm ▸ h⟩
  | set_string slot_index text =>
    cases slot_index with
    | ofNat index =>
      have hindex : index < SLOT_LIMIT := Int.ofNat_lt.mp hfits
      obtain ⟨after, hset, hgrown, hcell, hnumber⟩ := @qk_slot_set_string_spec _ doubles _ _ hall h.grown _ hindex text
      exact ⟨after, hset, hgrown,
        (hupdate index _).symm ▸ h.holds.update hcell (fun other _ => congrFun hnumber other) rfl⟩
    | negSucc index =>
      exact ⟨tables, if_pos (Int.negSucc_lt_zero index), (hnegative index (.string (text.getD []))).symm ▸ h⟩
  | get_number => exact ⟨tables, rfl, h⟩
  | get_string slot_index =>
    cases slot_index with
    | ofNat index => exact ⟨_, rfl, get_string_grown hall h.grown index, h.holds.get_string hall index⟩
    | negSucc index =>
      have hkept : (tables.qk_slot_get_string doubles allocates format_text (.negSucc index)).2 = tables :=
        congrArg Prod.snd (if_pos (Int.negSucc_lt_zero index))
      exact ⟨tables, congrArg some hkept, h⟩

theorem Kept.run (hall : ∀ size, allocates size = true) {calls : List (SlotCall Number)} (hfits : ∀ call ∈ calls, call.Fits)
    (h : tables.Kept doubles format_text value) :
    ∃ after, calls.foldlM (SlotCall.apply doubles allocates format_text) tables = some after ∧
      after.Kept doubles format_text fun index => calls.foldl (SlotCall.written index) (value index) := by
  induction calls generalizing tables value with
  | nil => exact ⟨tables, rfl, h⟩
  | cons call calls ih =>
    obtain ⟨middle, hcall, hmiddle⟩ := h.apply hall (hfits call List.mem_cons_self)
    obtain ⟨after, hcalls, hafter⟩ := ih (fun other hmem => hfits other (List.mem_cons_of_mem call hmem)) hmiddle
    refine ⟨after, ?_, hafter⟩
    rw [List.foldlM_cons, hcall]
    exact hcalls

end SlotTables

section Runs

variable {Number : Type} (doubles : Doubles Number) (allocates : Nat → Bool) (format_text : Text)

/-- The tables behind a list of calls. -/
def slots_after (calls : List (SlotCall Number)) : Option (SlotTables Number) :=
  calls.foldlM (SlotCall.apply doubles allocates format_text) .created

/-- The number and the text a slot reads as. -/
def slot_views (tables : SlotTables Number) (slot_index : Int) : Number × Text :=
  (tables.qk_slot_get_number doubles slot_index, (tables.qk_slot_get_string doubles allocates format_text slot_index).1)

variable {doubles allocates format_text}

theorem SlotTables.Holds.views {tables : SlotTables Number} {value : Nat → StoredValue Number}
    (h : tables.Holds doubles format_text value) (hall : ∀ size, allocates size = true) (index : Nat) :
    slot_views doubles allocates format_text tables index =
      (doubles.number_of (value index), doubles.text_of format_text (value index)) := by
  rw [slot_views, h.number_eq, h.string_eq hall]

theorem slot_views_negative (tables : SlotTables Number) {slot_index : Int} (h : slot_index < 0) :
    slot_views doubles allocates format_text tables slot_index = (doubles.of_int 0, []) := by
  have hnumber : tables.qk_slot_get_number doubles slot_index = doubles.of_int 0 := if_pos h
  have hstring : tables.qk_slot_get_string doubles allocates format_text slot_index = ([], tables) := if_pos h
  rw [slot_views, hnumber, hstring]

/-- Two tables that hold the same value in a slot are read alike there. -/
theorem SlotTables.Holds.views_eq {tables after : SlotTables Number} {value later : Nat → StoredValue Number}
    (h : tables.Holds doubles format_text value) (hafter : after.Holds doubles format_text later)
    (hall : ∀ size, allocates size = true) {slot_index : Int} (hsame : ∀ index : Nat, slot_index = index → later index = value index) :
    slot_views doubles allocates format_text after slot_index = slot_views doubles allocates format_text tables slot_index := by
  cases slot_index with
  | ofNat index =>
    have hviews := hafter.views hall index
    rw [hsame index rfl] at hviews
    exact hviews.trans (h.views hall index).symm
  | negSucc index =>
    rw [slot_views_negative after (Int.negSucc_lt_zero index), slot_views_negative tables (Int.negSucc_lt_zero index)]

theorem slots_after_kept (hall : ∀ size, allocates size = true) {calls : List (SlotCall Number)}
    (hfits : ∀ call ∈ calls, call.Fits) :
    ∃ tables, slots_after doubles allocates format_text calls = some tables ∧
      tables.Kept doubles format_text fun index => last_written calls index :=
  SlotTables.created_kept.run hall hfits

theorem last_written_append (calls : List (SlotCall Number)) {call : SlotCall Number} {slot_index : Int}
    (h : call.slot_index ≠ slot_index) : last_written (calls ++ [call]) slot_index = last_written calls slot_index := by
  have hkept : call.written slot_index (last_written calls slot_index) = last_written calls slot_index := by
    cases call with
    | set_number other number => exact if_neg h
    | set_string other text => exact if_neg h
    | get_number => rfl
    | get_string => rfl
  exact List.foldl_append.trans hkept

end Runs

/-- As long as the bytes of the slots that are written can be counted: what is read of a slot is what it was last given;
below zero there are no slots; a table that grows keeps what is read; and a call on a slot leaves what is read of the
others. -/
theorem slot_tables_keep_values {Number : Type} (doubles : Doubles Number) (allocates : Nat → Bool) (format_text : Text)
    (hall : ∀ size, allocates size = true) {calls : List (SlotCall Number)} (hfits : ∀ call ∈ calls, call.Fits) :
    ∃ tables, slots_after doubles allocates format_text calls = some tables ∧
      (∀ slot_index : Int, 0 ≤ slot_index → slot_views doubles allocates format_text tables slot_index =
        (doubles.number_of (last_written calls slot_index), doubles.text_of format_text (last_written calls slot_index))) ∧
      (∀ slot_index : Int, slot_index < 0 ∨ last_written calls slot_index = .unset →
        slot_views doubles allocates format_text tables slot_index = (doubles.of_int 0, [])) ∧
      (∀ required_count ≤ SLOT_LIMIT,
        (∃ grown, tables.qk_ensure_numeric_slot_capacity doubles allocates required_count = some (true, grown) ∧
          ∀ slot_index : Int, slot_views doubles allocates format_text grown slot_index =
            slot_views doubles allocates format_text tables slot_index) ∧
        ∃ grown, tables.qk_ensure_string_slot_capacity allocates required_count = some (true, grown) ∧
          ∀ slot_index : Int, slot_views doubles allocates format_text grown slot_index =
            slot_views doubles allocates format_text tables slot_index) ∧
      ∀ call : SlotCall Number, call.Fits →
        ∃ after, slots_after doubles allocates format_text (calls ++ [call]) = some after ∧
          ∀ slot_index : Int, call.slot_index ≠ slot_index → slot_views doubles allocates format_text after slot_index =
            slot_views doubles allocates format_text tables slot_index := by
  obtain ⟨tables, hcalls, hkept⟩ := @slots_after_kept _ doubles _ format_text hall _ hfits
  have hwritten : ∀ slot_index : Int, 0 ≤ slot_index → slot_views doubles allocates format_text tables slot_index =
      (doubles.number_of (last_written calls slot_index), doubles.text_of format_text (last_written calls slot_index)) := by
    intro slot_index hindex
    obtain ⟨index, rfl⟩ := Int.eq_ofNat_of_zero_le hindex
    exact hkept.holds.views hall index
  refine ⟨tables, hcalls, hwritten, fun slot_index hunset => ?_, fun required_count hrequired => ⟨?_, ?_⟩, fun call hcall => ?_⟩
  · by_cases hnegative : slot_index < 0
    · exact slot_views_negative _ hnegative
    · rw [hwritten slot_index (Int.not_lt.mp hnegative), hunset.resolve_left hnegative]
      rfl
  · obtain ⟨ensured, grown, hensure, hsame, -, -, hensured⟩ :=
      SlotTables.ensure_numeric_spec doubles allocates hkept.grown hrequired
    rw [hensured hall] at hensure
    exact ⟨grown, hensure, fun _ => hkept.holds.views_eq (hkept.holds.of_entries hsame) hall fun _ _ => rfl⟩
  · obtain ⟨ensured, grown, hensure, hsame, -, -, hensured, -⟩ :=
      SlotTables.ensure_string_spec doubles allocates hkept.grown hrequired
    rw [hensured hall] at hensure
    exact ⟨grown, hensure, fun _ => hkept.holds.views_eq (hkept.holds.of_entries hsame) hall fun _ _ => rfl⟩
  · have hmore : ∀ other ∈ calls ++ [call], other.Fits := by
      intro other hmem
      obtain hmem | hmem := List.mem_append.mp hmem
      · exact hfits other hmem
      · exact List.mem_singleton.mp hmem ▸ hcall
    obtain ⟨after, hafter, hkept_after⟩ := @slots_after_kept _ doubles _ format_text hall _ hmore
    refine ⟨after, hafter, fun slot_index hne => ?_⟩
    exact hkept.holds.views_eq hkept_after.holds hall fun index heq => last_written_append calls (heq ▸ hne)

/-- A number and a text in two slots. -/
theorem slot_tables_keep_values_two :
    ∃ tables, slots_after Doubles.rational (fun _ => true) QK_DEFAULT_CONVFMT
        [.set_number 10 5, .set_string 7 (some ['a'])] = some tables ∧
      slot_views Doubles.rational (fun _ => true) QK_DEFAULT_CONVFMT tables 7 =
        ( Doubles.rational.qk_parse_awk_numeric_prefix ['a'], ['a']) ∧
      slot_views Doubles.rational (fun _ => true) QK_DEFAULT_CONVFMT tables 3 = (Doubles.rational.of_int 0, []) := by
  have hfits : ∀ call ∈ ([.set_number 10 5, .set_string 7 (some ['a'])] : List (SlotCall Rat)), call.Fits := by
    intro call hmem
    obtain rfl | hmem := List.mem_cons.mp hmem
    · change (10 : Int) < SLOT_LIMIT
      decide
    · rw [List.mem_singleton.mp hmem]
      change (7 : Int) < SLOT_LIMIT
      decide
  obtain ⟨tables, hcalls, hwritten, hunset, -⟩ :=
    slot_tables_keep_values Doubles.rational (fun _ => true) QK_DEFAULT_CONVFMT (fun _ => rfl) hfits
  exact ⟨tables, hcalls, hwritten 7 (by decide), hunset 3 (.inr rfl)⟩

/-- A text that is written below zero is not read. -/
theorem slot_tables_below_zero : ¬ ∀ (calls : List (SlotCall Rat)) (slot_index : Int),
    (slots_after Doubles.rational (fun _ => true) QK_DEFAULT_CONVFMT calls).map (fun tables =>
        slot_views Doubles.rational (fun _ => true) QK_DEFAULT_CONVFMT tables slot_index) =
      some (Doubles.rational.number_of (last_written calls slot_index),
        Doubles.rational.text_of QK_DEFAULT_CONVFMT (last_written calls slot_index)) := by
  intro h
  have htext := congrArg Prod.snd (Option.some.inj (h [.set_string (-1) (some ['a'])] (-1)))
  cases htext

end quawk
