import Mathlib.Data.List.Pairwise

namespace HeapMemory

/-- A range of addresses that was allocated as one. -/
structure Block where
  start : Nat
  size : Nat
  deriving DecidableEq

def Block.stop (block : Block) : Nat := block.start + block.size

/-- Two blocks have no address in common, and each is told by where it starts. -/
def Block.Apart (block other : Block) : Prop :=
  block.start ≠ other.start ∧ (block.stop ≤ other.start ∨ other.stop ≤ block.start)

theorem Block.Apart.symm {block other : Block} (h : block.Apart other) : other.Apart block := ⟨h.1.symm, h.2.symm⟩

instance : Std.Symm Block.Apart := ⟨fun _ _ h => h.symm⟩

theorem Block.Apart.ne {block other : Block} (h : block.Apart other) : block ≠ other := fun heq => h.1 (heq ▸ rfl)

/-- The live blocks, and what stands at the addresses. The address 0 is the null pointer. -/
structure Memory where
  blocks : List Block
  bytes : Nat → UInt8
  separated : blocks.Pairwise Block.Apart
  nonnull : ∀ block ∈ blocks, 0 < block.start

/-- Where an allocator puts a block, if it has room for it. -/
structure Allocator where
  place : Memory → Nat → Option Nat
  fresh : ∀ memory size start, place memory size = some start →
    0 < start ∧ ∀ block ∈ memory.blocks, Block.Apart ⟨start, size⟩ block

/-- The allocator has room for every block. -/
def Allocator.Serves (allocator : Allocator) : Prop := ∀ memory size, allocator.place memory size ≠ none

namespace Memory

variable (memory : Memory)

/-- The range lies in one live block. -/
def Within (start length : Nat) : Prop :=
  ∃ block ∈ memory.blocks, block.start ≤ start ∧ start + length ≤ block.stop

instance (start length : Nat) : Decidable (memory.Within start length) := inferInstanceAs (Decidable (∃ _ ∈ _, _))

/-- A read outside the live blocks is undefined. -/
def load (address : Nat) : Option UInt8 := if memory.Within address 1 then some (memory.bytes address) else none

def store (address : Nat) (byte : UInt8) : Option Memory :=
  if memory.Within address 1 then
    some { memory with bytes := fun other => if other = address then byte else memory.bytes other }
  else none

/-- A copy between ranges that overlap is undefined. -/
def memcpy (destination source length : Nat) : Option Memory :=
  if memory.Within destination length ∧ memory.Within source length ∧
      (destination + length ≤ source ∨ source + length ≤ destination) then
    some { memory with bytes := fun address =>
      if destination ≤ address ∧ address < destination + length then memory.bytes (source + (address - destination))
      else memory.bytes address }
  else none

/-- The steps to the end of a text. -/
def strlen_from : Nat → Nat → Option Nat
  | 0, _ => none
  | fuel + 1, address => do
    let byte ← memory.load address
    if byte = 0 then some 0
    else
      let length ← strlen_from fuel (address + 1)
      some (length + 1)

/-- No live block has an address from here on. -/
def extent : Nat := (memory.blocks.map Block.stop).foldr max 0

def strlen (address : Nat) : Option Nat := memory.strlen_from memory.extent address

/-- The memory with one more block. -/
def with_block (block : Block) (bytes : Nat → UInt8) (hpos : 0 < block.start)
    (hapart : ∀ other ∈ memory.blocks, block.Apart other) : Memory where
  blocks := block :: memory.blocks
  bytes := bytes
  separated := List.pairwise_cons.mpr ⟨hapart, memory.separated⟩
  nonnull := List.forall_mem_cons.mpr ⟨hpos, memory.nonnull⟩

def without (block : Block) : Memory where
  blocks := memory.blocks.erase block
  bytes := memory.bytes
  separated := memory.separated.sublist List.erase_sublist
  nonnull other hmem := memory.nonnull other (List.mem_of_mem_erase hmem)

variable (allocator : Allocator)

/-- A new block holds whatever stood at its addresses. -/
def malloc (size : Nat) : Nat × Memory :=
  match h : allocator.place memory size with
  | none => (0, memory)
  | some start => (start, memory.with_block ⟨start, size⟩ memory.bytes (allocator.fresh _ _ _ h).1 (allocator.fresh _ _ _ h).2)

/-- The block a pointer was allocated as. -/
def block_at (pointer : Nat) : Option Block := memory.blocks.find? (·.start = pointer)

/-- The bytes of a block that is moved, as far as it is kept. -/
def moved_bytes (block : Block) (start size : Nat) (address : Nat) : UInt8 :=
  if start ≤ address ∧ address < start + min block.size size then memory.bytes (block.start + (address - start))
  else memory.bytes address

/-- A block may be moved; where there is no room it stays. -/
def realloc (pointer size : Nat) : Option (Nat × Memory) :=
  if pointer = 0 then some (memory.malloc allocator size)
  else do
    let block ← memory.block_at pointer
    match h : allocator.place (memory.without block) size with
    | none => some (0, memory)
    | some start => some (start, (memory.without block).with_block ⟨start, size⟩ (memory.moved_bytes block start size)
        (allocator.fresh _ _ _ h).1 (allocator.fresh _ _ _ h).2)

def free (pointer : Nat) : Option Memory :=
  if pointer = 0 then some memory else (memory.block_at pointer).map memory.without

/-- These bytes stand from this address on. -/
def Contains (address : Nat) (text : List UInt8) : Prop :=
  ∀ index byte, text[index]? = some byte → memory.bytes (address + index) = byte

/-- A text stands in a block, with the byte that ends it. -/
structure Spells (block : Block) (address : Nat) (text : List UInt8) : Prop where
  live : block ∈ memory.blocks
  start_le : block.start ≤ address
  le_stop : address + (text.length + 1) ≤ block.stop
  bytes : memory.Contains address (text ++ [0])
  unbroken : 0 ∉ text

/-- A block is kept with what it holds. -/
def Keeps (block : Block) (after : Memory) : Prop :=
  block ∈ after.blocks ∧ ∀ address, block.start ≤ address → address < block.stop → after.bytes address = memory.bytes address

variable {memory} {after : Memory} {block other : Block} {address : Nat} {text later : List UInt8}

theorem contains_append : memory.Contains address (text ++ later) ↔
    memory.Contains address text ∧ memory.Contains (address + text.length) later := by
  refine ⟨fun h => ⟨fun index byte hbyte => ?_, fun index byte hbyte => ?_⟩, fun h index byte hbyte => ?_⟩
  · refine h index byte ?_
    rw [List.getElem?_append_left (List.getElem?_eq_some_iff.mp hbyte).1, hbyte]
  · rw [Nat.add_assoc]
    refine h (text.length + index) byte ?_
    rw [List.getElem?_append_right (Nat.le_add_right _ _), Nat.add_sub_cancel_left, hbyte]
  · obtain hless | hle := Nat.lt_or_ge index text.length
    · rw [List.getElem?_append_left hless] at hbyte
      exact h.1 index byte hbyte
    · rw [List.getElem?_append_right hle] at hbyte
      have hrest := h.2 (index - text.length) byte hbyte
      rwa [Nat.add_assoc, Nat.add_sub_cancel' hle] at hrest

theorem Contains.congr_at {moved : Nat} (h : memory.Contains address text)
    (hsame : ∀ index, index < text.length → after.bytes (moved + index) = memory.bytes (address + index)) :
    after.Contains moved text := by
  intro index byte hbyte
  rw [hsame index (List.getElem?_eq_some_iff.mp hbyte).1]
  exact h index byte hbyte

theorem Keeps.refl (hlive : block ∈ memory.blocks) : memory.Keeps block memory := ⟨hlive, fun _ _ _ => rfl⟩

theorem Keeps.trans {last : Memory} (h : memory.Keeps block after) (hlater : after.Keeps block last) : memory.Keeps block last :=
  ⟨hlater.1, fun address hstart hstop => (hlater.2 address hstart hstop).trans (h.2 address hstart hstop)⟩

theorem Spells.kept (h : memory.Spells block address text) (hkept : memory.Keeps block after) :
    after.Spells block address text := by
  refine ⟨hkept.1, h.start_le, h.le_stop, h.bytes.congr_at fun index hindex => ?_, h.unbroken⟩
  have hstart := h.start_le
  have hstop := h.le_stop
  rw [List.length_append, List.length_singleton] at hindex
  exact hkept.2 _ (by omega) (by omega)

theorem apart_of_mem (hblock : block ∈ memory.blocks) (hother : other ∈ memory.blocks) (hne : block ≠ other) :
    block.Apart other :=
  memory.separated.forall hblock hother hne

theorem stop_le_extent (h : block ∈ memory.blocks) : block.stop ≤ memory.extent := by
  unfold extent
  generalize memory.blocks = blocks at h
  induction blocks with
  | nil => cases h
  | cons first blocks ih =>
    rw [List.map_cons, List.foldr_cons]
    obtain rfl | hmem := List.mem_cons.mp h
    · exact Nat.le_max_left _ _
    · exact Nat.le_trans (ih hmem) (Nat.le_max_right _ _)

theorem strlen_from_eq (hlive : block ∈ memory.blocks) (hstart : block.start ≤ address)
    (hstop : address + (text.length + 1) ≤ block.stop) (hbytes : memory.Contains address (text ++ [0])) (hunbroken : 0 ∉ text)
    {fuel : Nat} (hfuel : text.length < fuel) : memory.strlen_from fuel address = some text.length := by
  induction text generalizing fuel address with
  | nil =>
    obtain ⟨fuel, rfl⟩ := Nat.exists_eq_succ_of_ne_zero (Nat.ne_of_gt hfuel)
    have hload : memory.load address = some 0 := by
      rw [load, if_pos ⟨block, hlive, hstart, hstop⟩]
      exact congrArg some (hbytes 0 0 rfl)
    rw [strlen_from, hload]
    rfl
  | cons first text ih =>
    obtain ⟨fuel, rfl⟩ := Nat.exists_eq_succ_of_ne_zero (Nat.ne_of_gt (Nat.zero_lt_of_lt hfuel))
    rw [List.length_cons] at hstop hfuel
    have hload : memory.load address = some first := by
      rw [load, if_pos ⟨block, hlive, hstart, by omega⟩]
      exact congrArg some (hbytes 0 first rfl)
    have hfirst : first ≠ 0 := fun heq => hunbroken (heq ▸ List.mem_cons_self)
    have hrest : memory.Contains (address + 1) (text ++ [0]) := (@contains_append memory address [first] (text ++ [0])).mp hbytes |>.2
    have hlength := ih (Nat.le_succ_of_le hstart) (by omega) hrest (fun hmem => hunbroken (List.mem_cons_of_mem _ hmem))
      (Nat.lt_of_succ_lt_succ hfuel)
    rw [strlen_from, hload]
    simp only [Option.bind_eq_bind, Option.bind_some, if_neg hfirst, hlength, List.length_cons]

theorem Spells.strlen (h : memory.Spells block address text) : memory.strlen address = some text.length := by
  have hextent := stop_le_extent h.live
  have hstop := h.le_stop
  exact strlen_from_eq h.live h.start_le h.le_stop h.bytes h.unbroken (by omega)

/-- Nothing is changed but a range of bytes. -/
structure Written (memory : Memory) (start length : Nat) (after : Memory) : Prop where
  blocks : after.blocks = memory.blocks
  outside : ∀ address, address < start ∨ start + length ≤ address → after.bytes address = memory.bytes address

variable {start length destination source : Nat} {byte : UInt8}

theorem Written.keeps (h : memory.Written start length after) (hblock : block ∈ memory.blocks) (hstart : block.start ≤ start)
    (hstop : start + length ≤ block.stop) (hother : other ∈ memory.blocks) (hne : other ≠ block) : memory.Keeps other after := by
  refine ⟨h.blocks ▸ hother, fun address hfirst hlast => h.outside address ?_⟩
  have hapart := (apart_of_mem hother hblock hne).2
  omega

theorem store_spec (hblock : block ∈ memory.blocks) (hstart : block.start ≤ address) (hstop : address + 1 ≤ block.stop) :
    ∃ after, memory.store address byte = some after ∧ memory.Written address 1 after ∧ after.Contains address [byte] := by
  rw [store, if_pos ⟨block, hblock, hstart, hstop⟩]
  refine ⟨_, rfl, ⟨rfl, fun other hother => if_neg (by omega)⟩, fun index found hfound => ?_⟩
  obtain ⟨rfl, rfl⟩ : index = 0 ∧ byte = found := by
    cases index with
    | zero => exact ⟨rfl, Option.some.inj hfound⟩
    | succ index => cases hfound
  exact if_pos rfl

/-- What is copied from one block to another is written there. -/
theorem memcpy_spec (hblock : block ∈ memory.blocks) (hother : other ∈ memory.blocks) (hne : block ≠ other)
    (hinto : block.start ≤ destination ∧ destination + length ≤ block.stop)
    (hfrom : other.start ≤ source ∧ source + length ≤ other.stop) :
    ∃ after, memory.memcpy destination source length = some after ∧ memory.Written destination length after ∧
      ∀ text : List UInt8, text.length = length → memory.Contains source text → after.Contains destination text := by
  have hapart := (apart_of_mem hblock hother hne).2
  rw [memcpy, if_pos ⟨⟨block, hblock, hinto⟩, ⟨other, hother, hfrom⟩, by omega⟩]
  refine ⟨_, rfl, ⟨rfl, fun address haddress => if_neg (by omega)⟩, fun text htext hcontains index byte hbyte => ?_⟩
  have hindex := (List.getElem?_eq_some_iff.mp hbyte).1
  dsimp only
  rw [if_pos (by omega), Nat.add_sub_cancel_left]
  exact hcontains index byte hbyte

variable {allocator : Allocator}

/-- A block that was not there before is there now, and the other blocks are kept. -/
structure Added (memory : Memory) (block : Block) (after : Memory) : Prop where
  live : block ∈ after.blocks
  fresh : block ∉ memory.blocks
  nonnull : block.start ≠ 0
  keeps : ∀ other ∈ memory.blocks, memory.Keeps other after

theorem malloc_spec (memory : Memory) (allocator : Allocator) (size : Nat) :
    memory.malloc allocator size = (0, memory) ∧ ¬ allocator.Serves ∨
      ∃ block after, memory.malloc allocator size = (block.start, after) ∧ block.size = size ∧ memory.Added block after := by
  unfold malloc
  split
  · next hplace => exact .inl ⟨rfl, fun hserves => hserves memory size hplace⟩
  · next start hplace =>
    obtain ⟨hpos, hapart⟩ := allocator.fresh _ _ _ hplace
    refine .inr ⟨⟨start, size⟩, _, rfl, rfl, List.mem_cons_self, fun hmem => (hapart _ hmem).ne rfl, Nat.ne_of_gt hpos,
      fun other hother => ⟨List.mem_cons_of_mem _ hother, fun _ _ _ => rfl⟩⟩

theorem block_at_eq (h : block ∈ memory.blocks) : memory.block_at block.start = some block := by
  unfold block_at
  cases hfind : memory.blocks.find? (·.start = block.start) with
  | none => exact absurd (List.find?_eq_none.mp hfind block h) (by simp)
  | some found =>
    have hstart : found.start = block.start := by simpa using List.find?_some hfind
    by_contra hne
    have hapart := apart_of_mem (List.mem_of_find?_eq_some hfind) h fun heq => hne (congrArg some heq)
    exact hapart.1 hstart

theorem mem_without (hother : other ∈ memory.blocks) (hne : other ≠ block) : other ∈ (memory.without block).blocks :=
  (List.mem_erase_of_ne hne).mpr hother

theorem free_spec (h : block ∈ memory.blocks) :
    ∃ after, memory.free block.start = some after ∧ ∀ other ∈ memory.blocks, other ≠ block → memory.Keeps other after := by
  rw [free, if_neg (Nat.ne_of_gt (memory.nonnull block h)), block_at_eq h]
  exact ⟨_, rfl, fun other hother hne => ⟨mem_without hother hne, fun _ _ _ => rfl⟩⟩

/-- A block that is moved keeps its bytes as far as it has room for them. -/
theorem realloc_spec (allocator : Allocator) (size : Nat) (h : block ∈ memory.blocks) :
    memory.realloc allocator block.start size = some (0, memory) ∧ ¬ allocator.Serves ∨
      ∃ moved after, memory.realloc allocator block.start size = some (moved.start, after) ∧ moved.size = size ∧
        moved ∈ after.blocks ∧ moved.start ≠ 0 ∧
        (∀ other ∈ memory.blocks, other ≠ block → memory.Keeps other after ∧ other ≠ moved) ∧
        ∀ index, index < block.size → index < size → after.bytes (moved.start + index) = memory.bytes (block.start + index) := by
  unfold realloc
  rw [if_neg (Nat.ne_of_gt (memory.nonnull block h)), block_at_eq h, Option.bind_eq_bind, Option.bind_some]
  split
  · next hplace => exact .inl ⟨rfl, fun hserves => hserves _ size hplace⟩
  · next start hplace =>
    obtain ⟨hpos, hapart⟩ := allocator.fresh _ _ _ hplace
    refine .inr ⟨⟨start, size⟩, _, rfl, rfl, List.mem_cons_self, Nat.ne_of_gt hpos, fun other hother hne => ?_,
      fun index hindex hsize => ?_⟩
    · have hother' := mem_without hother hne
      refine ⟨⟨List.mem_cons_of_mem _ hother', fun address hstart hstop => if_neg ?_⟩, (hapart _ hother').symm.ne⟩
      have hranges := (hapart _ hother').2
      change start + size ≤ other.start ∨ other.stop ≤ start at hranges
      omega
    · change memory.moved_bytes block start size (start + index) = _
      rw [moved_bytes, if_pos (by omega), Nat.add_sub_cancel_left]

end Memory

end HeapMemory
