import Quawk.ArrayStore
import Quawk.Lib.LiveList

namespace quawk

/-- The entries of an array with the addresses they were allocated at. An address is not given out twice, so that a
pointer to a freed entry is never one to another. -/
structure LiveArray (Number : Type) where
  table : LinkedTable Text (Nat × ArrayCell Number)
  allocated : Nat
  below : ∀ entry ∈ table.entries, entry.2.1 < allocated
  apart : (table.entries.map fun entry => entry.2.1).Nodup

namespace LiveArray

variable {Number : Type} (array : LiveArray Number)

/-- Where the entries are, and their keys. -/
def places : List (Nat × Text) := array.table.entries.map fun entry => (entry.2.1, entry.1)

/-- `qk_array_set_cell`: an entry keeps its place, and a new one goes to the head. -/
def qk_array_set_cell (key : Text) (cell : ArrayCell Number) : LiveArray Number :=
  match h : array.table.find key with
  | some (address, old) =>
    have hsame : (array.table.put key (address, cell)).entries.map (fun entry => entry.2.1) = _ :=
      array.table.put_map_of_find h _ rfl
    { table := array.table.put key (address, cell)
      allocated := array.allocated
      below := fun entry hmem => by
        have haddress := List.mem_map_of_mem (f := fun entry => entry.2.1) hmem
        rw [hsame] at haddress
        obtain ⟨before, hbefore, heq⟩ := List.mem_map.mp haddress
        exact heq ▸ array.below before hbefore
      apart := hsame ▸ array.apart }
  | none =>
    have hnew := array.table.put_of_find_none (array.allocated, cell) h
    { table := array.table.put key (array.allocated, cell)
      allocated := array.allocated + 1
      below := fun entry hmem => by
        rw [hnew] at hmem
        obtain rfl | hmem := List.mem_cons.mp hmem
        · exact Nat.lt_succ_self _
        · exact Nat.lt_succ_of_lt (array.below entry hmem)
      apart := by
        rw [hnew]
        refine List.nodup_cons.mpr ⟨fun hmem => ?_, array.apart⟩
        obtain ⟨entry, hentry, heq⟩ := List.mem_map.mp hmem
        exact absurd (array.below entry hentry) (heq ▸ Nat.lt_irrefl _) }

/-- `qk_array_delete_value`. -/
def qk_array_delete_value (key : Text) : LiveArray Number where
  table := array.table.erase key
  allocated := array.allocated
  below entry h := array.below entry (List.mem_of_mem_eraseP h)
  apart := array.apart.sublist (List.eraseP_sublist.map _)

def qk_clear_array : LiveArray Number where
  table := LinkedTable.empty
  allocated := array.allocated
  below _ h := absurd h List.not_mem_nil
  apart := List.nodup_nil

/-- The key under a pointer; there is none when the entry was freed. -/
def read_key (address : Nat) : Option Text := array.places.lookup address

def qk_array_first_key : Option Nat := array.places.head?.map Prod.fst

def qk_array_next_key (current_key : Text) : Option Nat :=
  (LiveList.next_of (·.2 == current_key) array.places).map Prod.fst

/-- An address that has not been given out. -/
def Unallocated (place : Nat × Text) : Prop := array.allocated ≤ place.1

/-- What happens to an array between two moments. -/
structure Later (before after : LiveArray Number) : Prop where
  changed : LiveList.Changed before.Unallocated before.places after.places
  allocated : before.allocated ≤ after.allocated

theorem Later.refl : Later array array := ⟨LiveList.Changed.refl _ _, Nat.le_refl _⟩

theorem Later.trans {before between after : LiveArray Number} (h : Later before between) (h' : Later between after) :
    Later before after :=
  ⟨h.changed.trans h'.changed fun _ hfresh => Nat.le_trans h.allocated hfresh, Nat.le_trans h.allocated h'.allocated⟩

theorem set_cell_later (key : Text) (cell : ArrayCell Number) : Later array (array.qk_array_set_cell key cell) := by
  unfold qk_array_set_cell
  split
  · next address old h =>
    have hsame : (array.table.put key (address, cell)).entries.map (fun entry => (entry.2.1, entry.1)) = _ :=
      array.table.put_map_of_find h _ rfl
    refine ⟨?_, Nat.le_refl _⟩
    unfold places
    rw [hsame]
    exact .refl _ _
  · next h =>
    refine ⟨?_, Nat.le_succ _⟩
    unfold places
    rw [array.table.put_of_find_none (array.allocated, cell) h]
    have hfresh : array.Unallocated (array.allocated, key) := Nat.le_refl array.allocated
    exact .insert hfresh _

theorem delete_value_later (key : Text) : Later array (array.qk_array_delete_value key) :=
  ⟨.remove (List.eraseP_sublist.map _), Nat.le_refl _⟩

theorem clear_later : Later array array.qk_clear_array := ⟨.remove (List.nil_sublist _), Nat.le_refl _⟩

/-- The operations that insert into an array or delete from it. -/
inductive Mutation : LiveArray Number → LiveArray Number → Prop where
  | set_cell (array : LiveArray Number) (key : Text) (cell : ArrayCell Number) :
    Mutation array (array.qk_array_set_cell key cell)
  | delete_value (array : LiveArray Number) (key : Text) : Mutation array (array.qk_array_delete_value key)
  | clear (array : LiveArray Number) : Mutation array array.qk_clear_array

theorem mutations_later {before after : LiveArray Number} (h : Relation.ReflTransGen Mutation before after) :
    Later before after := by
  induction h with
  | refl => exact .refl _
  | tail _ hmutation ih =>
    cases hmutation with
    | set_cell key cell => exact ih.trans (set_cell_later _ key cell)
    | delete_value key => exact ih.trans (delete_value_later _ key)
    | clear => exact ih.trans (clear_later _)

theorem places_nodup : array.places.Nodup := by
  have hkeys := array.table.unique
  unfold places
  refine List.Nodup.of_map Prod.snd ?_
  rwa [List.map_map]

theorem places_below {place : Nat × Text} (h : place ∈ array.places) : ¬ array.Unallocated place := by
  obtain ⟨entry, hentry, rfl⟩ := List.mem_map.mp h
  exact Nat.not_le_of_lt (array.below entry hentry)

/-- A pointer to an entry that is there reads its key. -/
theorem read_key_of_mem {place : Nat × Text} (h : place ∈ array.places) : array.read_key place.1 = some place.2 := by
  refine LinkedTable.lookup_of_mem ?_ h
  have hapart := array.apart
  rwa [places, List.map_map]

theorem mem_of_read_key {address : Nat} {key : Text} (h : array.read_key address = some key) :
    (address, key) ∈ array.places := by
  obtain ⟨front, rest, heq, _⟩ := List.lookup_eq_some_iff.mp h
  rw [heq]
  exact List.mem_append_right _ List.mem_cons_self

/-- An entry keeps its key as long as it is there. -/
theorem Later.key_kept {before after : LiveArray Number} (h : Later before after) {place : Nat × Text} {key : Text}
    (hplace : place ∈ before.places) (hread : after.read_key place.1 = some key) : key = place.2 := by
  have hmem : (place.1, key) ∈ before.places :=
    h.changed.mem (after.mem_of_read_key hread) fun hfresh => before.places_below hplace hfresh
  have hsame := before.read_key_of_mem hmem
  rw [before.read_key_of_mem hplace] at hsame
  exact (Option.some.inj hsame).symm

/-- The key behind one that is there. -/
theorem next_key_of_append {place : Nat × Text} {front rest : List (Nat × Text)}
    (h : array.places = front ++ place :: rest) : array.qk_array_next_key place.2 = rest.head?.map Prod.fst := by
  have hkeys : (array.places.map Prod.snd).Nodup := by
    have hunique := array.table.unique
    rwa [places, List.map_map]
  rw [h, List.map_append, List.map_cons] at hkeys
  unfold qk_array_next_key
  rw [h, LiveList.next_of_append _ (by simp)]
  intro other hother
  rw [beq_eq_false_iff_ne]
  intro heq
  exact (List.disjoint_of_nodup_append hkeys (List.mem_map_of_mem hother)
    (heq ▸ List.mem_cons_self)).elim

end LiveArray

section Loop

variable {Number W : Type} (array : W → LiveArray Number)

/-- One turn of a loop: the entry whose key is bound, and the world before and after the body. -/
structure Turn (W : Type) where
  address : Nat
  before : W
  after : W
  goes_on : Bool

inductive LoopStop where
  /-- There is no further key. -/
  | ended
  /-- The body left the loop. -/
  | left
  /-- The key the loop stands at was freed, and is read. -/
  | freed_key
  | out_of_fuel
  deriving DecidableEq

/-- The loop that `lower_runtime_for_in_statement` writes. The body is given the pointer to the key; it tells whether
it comes to the step of the loop or leaves the loop. In an array without entries `qk_array_next_key` compares the key
with none, and so does not read it. -/
def for_in_loop (body : Nat → W → Bool × W) : Nat → Option Nat → W → List (Turn W) × LoopStop
  | _, none, _ => ([], .ended)
  | 0, some _, _ => ([], .out_of_fuel)
  | fuel + 1, some current_key, world =>
    let (goes_on, after) := body current_key world
    let turn := ⟨current_key, world, after, goes_on⟩
    if goes_on then
      match (array after).read_key current_key with
      | none => ([turn], if (array after).places.isEmpty then .ended else .freed_key)
      | some key =>
        let (turns, stop) := for_in_loop body fuel ((array after).qk_array_next_key key) after
        (turn :: turns, stop)
    else ([turn], .left)

def lower_runtime_for_in_statement (body : Nat → W → Bool × W) (fuel : Nat) (world : W) : List (Turn W) × LoopStop :=
  for_in_loop array body fuel (array world).qk_array_first_key world

/-- What a loop is for: the entries that are there at its start have one turn each, unless they are deleted first. -/
def snapshot_loop (body : Nat → W → Bool × W) : List (Nat × Text) → W → List (Turn W) × LoopStop
  | [], _ => ([], .ended)
  | place :: rest, world =>
    if place ∈ (array world).places then
      let (goes_on, after) := body place.1 world
      let turn := ⟨place.1, world, after, goes_on⟩
      if goes_on then
        let (turns, stop) := snapshot_loop body rest after
        (turn :: turns, stop)
      else ([turn], .left)
    else snapshot_loop body rest world

/-- Behind a body that lets the loop go on the entry whose key is bound is there, or the array has no entry at all. -/
def Turn.KeepsEntry (turn : Turn W) : Prop :=
  turn.goes_on = true →
    (array turn.after).places.isEmpty = true ∨ ((array turn.after).read_key turn.address).isSome = true

instance : DecidablePred (Turn.KeepsEntry array) := fun turn =>
  inferInstanceAs (Decidable (turn.goes_on = true →
    (array turn.after).places.isEmpty = true ∨ ((array turn.after).read_key turn.address).isSome = true))

/-- The body's inserting and deleting. -/
def BodyMutates (body : Nat → W → Bool × W) : Prop :=
  ∀ current_key world, Relation.ReflTransGen LiveArray.Mutation (array world) (array (body current_key world).2)

variable {array} {body : Nat → W → Bool × W}

/-- Where no entry is left, no turn is. -/
theorem snapshot_loop_of_empty {world : W} (hempty : (array world).places = []) (rest : List (Nat × Text)) :
    snapshot_loop array body rest world = ([], .ended) := by
  induction rest with
  | nil => rfl
  | cons place rest ih => rw [snapshot_loop, if_neg (by rw [hempty]; exact List.not_mem_nil), ih]

open LiveArray LiveList in
/-- The loop takes the turns of the snapshot, or it reads the key of an entry that a body deleted. -/
theorem for_in_loop_cases (hbody : BodyMutates array body) {rest front : List (Nat × Text)} {world : W}
    (hplaces : (array world).places = front ++ upcoming (array world).places rest) (hrest : rest.Nodup)
    (hbelow : ∀ place ∈ rest, ¬ (array world).Unallocated place) {fuel : Nat} (hfuel : rest.length ≤ fuel) :
    let run := for_in_loop array body fuel ((upcoming (array world).places rest).head?.map Prod.fst) world
    let snapshot := snapshot_loop array body rest world
    (∀ turn ∈ snapshot.1, turn.KeepsEntry array) ∧ run = snapshot ∨
      (∃ turn ∈ snapshot.1, ¬ turn.KeepsEntry array) ∧ run.2 = .freed_key := by
  induction rest generalizing front world fuel with
  | nil => cases fuel <;> exact .inl ⟨fun _ hmem => absurd hmem List.not_mem_nil, rfl⟩
  | cons place rest ih =>
    obtain ⟨hplace, hnodup⟩ := List.nodup_cons.mp hrest
    have hbelow' : ∀ other ∈ rest, ¬ (array world).Unallocated other := fun other hmem =>
      hbelow other (List.mem_cons_of_mem _ hmem)
    by_cases hhere : place ∈ (array world).places
    · obtain ⟨fuel, rfl⟩ : ∃ less, fuel = less + 1 := ⟨fuel - 1, by rw [List.length_cons] at hfuel; omega⟩
      have hfirst : upcoming (array world).places (place :: rest) =
          place :: upcoming (array world).places rest := List.filter_cons_of_pos (by simpa using hhere)
      have hlater := mutations_later (hbody place.1 world)
      obtain ⟨front', hafter⟩ := hlater.changed.upcoming hplaces (array world).places_nodup hrest hbelow
      rw [hfirst, List.head?_cons, Option.map_some]
      unfold snapshot_loop for_in_loop
      rw [if_pos hhere]
      generalize body place.1 world = turn at hlater hafter ⊢
      obtain ⟨goes_on, after⟩ := turn
      cases goes_on with
      | false => exact .inl ⟨fun turn hmem => by rw [List.mem_singleton.mp hmem]; exact (fun h => nomatch h), rfl⟩
      | true =>
        simp only [if_true]
        cases hkey : (array after).read_key place.1 with
        | none =>
          by_cases hempty : (array after).places.isEmpty = true
          · have hnone := @snapshot_loop_of_empty _ _ array body after (List.isEmpty_iff.mp hempty) rest
            simp only [hnone, if_pos hempty]
            refine .inl ⟨fun turn hmem _ => .inl ?_, trivial⟩
            rw [List.mem_singleton.mp hmem]
            exact hempty
          · simp only [if_neg hempty]
            exact .inr ⟨⟨_, List.mem_cons_self, fun hkeeps => by simpa [hkey, hempty] using hkeeps rfl⟩, trivial⟩
        | some key =>
          obtain rfl := hlater.key_kept hhere hkey
          have hthere : place ∈ (array after).places := (array after).mem_of_read_key hkey
          have hrest' : upcoming (array after).places (place :: rest) =
              place :: upcoming (array after).places rest := List.filter_cons_of_pos (by simpa using hthere)
          dsimp only at hafter
          rw [hrest'] at hafter
          have hsplit := hafter
          rw [← List.singleton_append, ← List.append_assoc] at hsplit
          have hturns := ih hsplit hnodup
            (fun other hmem hfresh => hbelow' other hmem (Nat.le_trans hlater.allocated hfresh))
            (Nat.le_of_succ_le_succ hfuel)
          dsimp only at hturns ⊢
          rw [(array after).next_key_of_append hafter]
          obtain ⟨hkeeps, heq⟩ | ⟨⟨turn, hmem, hfreed⟩, hstop⟩ := hturns
          · rw [heq]
            refine .inl ⟨fun turn hmem => ?_, rfl⟩
            obtain rfl | hmem := List.mem_cons.mp hmem
            · exact fun _ => .inr (Option.isSome_iff_exists.mpr ⟨_, hkey⟩)
            · exact hkeeps turn hmem
          · exact .inr ⟨⟨turn, List.mem_cons_of_mem _ hmem, hfreed⟩, hstop⟩
    · have hskip : upcoming (array world).places (place :: rest) = upcoming (array world).places rest :=
        List.filter_cons_of_neg (by simpa using hhere)
      rw [hskip] at hplaces ⊢
      unfold snapshot_loop
      rw [if_neg hhere]
      exact ih hplaces hnodup hbelow' (Nat.le_of_succ_le hfuel)

/-- The loop comes to an end; no key has two turns, or one after it was deleted; and if no body leaves the loop, every
key of its start has a turn, or was deleted. -/
structure VisitsOnce (array : W → LiveArray Number) (start : W) (run : List (Turn W) × LoopStop) : Prop where
  ends : run.2 = .ended ∨ run.2 = .left
  once : (run.1.map fun turn => (array turn.before).read_key turn.address).Nodup
  present : ∀ turn ∈ run.1, ∃ place ∈ (array start).places, place.1 = turn.address ∧
    place ∈ (array turn.before).places
  visited : run.2 = .ended → ∀ place ∈ (array start).places,
    (∃ turn ∈ run.1, turn.address = place.1) ∨ ∃ turn ∈ run.1, place ∉ (array turn.after).places

theorem snapshot_ends (places : List (Nat × Text)) (world : W) :
    (snapshot_loop array body places world).2 = .ended ∨ (snapshot_loop array body places world).2 = .left := by
  induction places generalizing world with
  | nil => exact .inl rfl
  | cons place rest ih =>
    unfold snapshot_loop
    dsimp only
    split
    · split
      · exact ih _
      · exact .inr rfl
    · exact ih world

theorem snapshot_keys (places : List (Nat × Text)) (world : W) :
    ((snapshot_loop array body places world).1.map fun turn => (array turn.before).read_key turn.address).Sublist
      (places.map fun place => some place.2) := by
  induction places generalizing world with
  | nil => exact List.Sublist.refl _
  | cons place rest ih =>
    unfold snapshot_loop
    dsimp only
    split
    · next hhere =>
      have hkey := (array world).read_key_of_mem hhere
      split
      · rw [List.map_cons, List.map_cons, hkey]
        exact (ih _).cons_cons _
      · rw [List.map_singleton, List.map_cons, hkey]
        exact (List.nil_sublist _).cons_cons _
    · exact (ih world).cons _

theorem snapshot_present (places : List (Nat × Text)) (world : W) :
    ∀ turn ∈ (snapshot_loop array body places world).1, ∃ place ∈ places, place.1 = turn.address ∧
      place ∈ (array turn.before).places := by
  induction places generalizing world with
  | nil => exact fun _ hmem => absurd hmem List.not_mem_nil
  | cons place rest ih =>
    have hrest (after : W) : ∀ turn ∈ (snapshot_loop array body rest after).1, ∃ found ∈ place :: rest,
        found.1 = turn.address ∧ found ∈ (array turn.before).places := fun turn hmem => by
      obtain ⟨found, hfound, hplace⟩ := ih after turn hmem
      exact ⟨found, List.mem_cons_of_mem _ hfound, hplace⟩
    unfold snapshot_loop
    dsimp only
    split
    · next hhere =>
      have hfirst : ∃ found ∈ place :: rest, found.1 = place.1 ∧ found ∈ (array world).places :=
        ⟨place, List.mem_cons_self, rfl, hhere⟩
      split
      · exact List.forall_mem_cons.mpr ⟨hfirst, hrest _⟩
      · exact List.forall_mem_cons.mpr ⟨hfirst, fun _ hmem => absurd hmem List.not_mem_nil⟩
    · exact hrest world

/-- A key that is there has a turn, or one of the bodies deletes it. -/
theorem snapshot_visited (places : List (Nat × Text)) (world : W)
    (hended : (snapshot_loop array body places world).2 = .ended) :
    ∀ place ∈ places, place ∈ (array world).places →
      (∃ turn ∈ (snapshot_loop array body places world).1, turn.address = place.1) ∨
        ∃ turn ∈ (snapshot_loop array body places world).1, place ∉ (array turn.after).places := by
  induction places generalizing world with
  | nil => exact fun _ hmem => absurd hmem List.not_mem_nil
  | cons first rest ih =>
    intro place hmem hthere
    unfold snapshot_loop at hended ⊢
    by_cases hhere : first ∈ (array world).places
    · rw [if_pos hhere] at hended ⊢
      dsimp only at hended ⊢
      split at hended
      · next hgoes_on =>
        rw [if_pos hgoes_on]
        obtain rfl | hmem := List.mem_cons.mp hmem
        · exact .inl ⟨_, List.mem_cons_self, rfl⟩
        · by_cases hafter : place ∈ (array (body first.1 world).2).places
          · refine (ih _ hended place hmem hafter).imp ?_ ?_
            all_goals
              rintro ⟨turn, hturn, hplace⟩
              exact ⟨turn, List.mem_cons_of_mem _ hturn, hplace⟩
          · exact .inr ⟨_, List.mem_cons_self, hafter⟩
      · cases hended
    · rw [if_neg hhere] at hended ⊢
      obtain rfl | hmem := List.mem_cons.mp hmem
      · exact absurd hthere hhere
      · exact ih world hended place hmem hthere

theorem snapshot_visits_once (start : W) :
    VisitsOnce array start (snapshot_loop array body (array start).places start) where
  ends := snapshot_ends _ start
  once := by
    have hkeys : ((array start).places.map fun place => some place.2).Nodup := by
      have hunique := (array start).table.unique
      have hmap : (array start).places.map (fun place => some place.2) =
          ((array start).table.entries.map Prod.fst).map some := by
        simp [LiveArray.places]
      rw [hmap]
      exact hunique.map (Option.some_injective _)
    exact hkeys.sublist (snapshot_keys _ start)
  present := snapshot_present _ start
  visited hended place hmem := snapshot_visited _ start hended place hmem hmem

open LiveArray LiveList in
/-- The loop comes to an end and visits the keys as it should exactly if no body deletes the entry of its own key and
lets the loop go on. A turn for each entry is enough. -/
theorem for_in_visits_once (hbody : BodyMutates array body) (start : W) {fuel : Nat}
    (hfuel : (array start).places.length ≤ fuel) :
    VisitsOnce array start (lower_runtime_for_in_statement array body fuel start) ↔
      ∀ turn ∈ (snapshot_loop array body (array start).places start).1, turn.KeepsEntry array := by
  have hall : upcoming (array start).places (array start).places = (array start).places :=
    List.filter_eq_self.mpr fun place hmem => by simpa using hmem
  have hfront : (array start).places = [] ++ upcoming (array start).places (array start).places := hall.symm
  have hcases := for_in_loop_cases hbody hfront (array start).places_nodup
    (fun place hmem => (array start).places_below hmem) hfuel
  rw [hall] at hcases
  unfold lower_runtime_for_in_statement
  rw [qk_array_first_key]
  obtain ⟨hkeeps, hrun⟩ | ⟨⟨turn, hmem, hfreed⟩, hstop⟩ := hcases
  · rw [hrun]
    exact ⟨fun _ => hkeeps, fun _ => snapshot_visits_once start⟩
  · refine ⟨fun hvisits => ?_, fun hkeeps => absurd (hkeeps turn hmem) hfreed⟩
    obtain hended | hleft := hvisits.ends
    · rw [hstop] at hended
      cases hended
    · rw [hstop] at hleft
      cases hleft

end Loop

section Nested

variable {Number W : Type} {array : W → LiveArray Number} {body : Nat → W → Bool × W}

/-- The world a loop leaves. -/
def loop_world (start : W) (run : List (Turn W) × LoopStop) : W := (run.1.getLast?.map Turn.after).getD start

theorem loop_world_cons (start : W) (turn : Turn W) (turns : List (Turn W)) (stop : LoopStop) :
    loop_world start (turn :: turns, stop) = loop_world turn.after (turns, stop) := by
  unfold loop_world
  rw [List.getLast?_cons]
  cases turns.getLast? <;> rfl

/-- What a loop does to the array is what its bodies do, so that a loop may stand in the body of another one. -/
theorem for_in_loop_mutates (hbody : BodyMutates array body) (fuel : Nat) (cursor : Option Nat) (world : W) :
    Relation.ReflTransGen LiveArray.Mutation (array world)
      (array (loop_world world (for_in_loop array body fuel cursor world))) := by
  induction fuel generalizing cursor world with
  | zero => cases cursor <;> exact .refl
  | succ fuel ih =>
    cases cursor with
    | none => exact .refl
    | some current_key =>
      have hturn := hbody current_key world
      unfold for_in_loop
      dsimp only
      split
      · split
        · exact hturn
        · rw [loop_world_cons]
          exact hturn.trans (ih _ _)
      · exact hturn

/-- A body that is a loop of its own over the array. -/
def nested_body (array : W → LiveArray Number) (inner : Nat → Nat → W → Bool × W) (fuel : Nat) (current_key : Nat)
    (world : W) : Bool × W :=
  (true, loop_world world (lower_runtime_for_in_statement array (inner current_key) fuel world))

theorem nested_mutates {inner : Nat → Nat → W → Bool × W} (hinner : ∀ current_key, BodyMutates array (inner current_key))
    (fuel : Nat) : BodyMutates array (nested_body array inner fuel) :=
  fun current_key world => for_in_loop_mutates (hinner current_key) fuel _ world

end Nested

/-- An array with these keys. -/
def array_of_keys (keys : List Text) : LiveArray Int :=
  keys.foldl (fun array key => array.qk_array_set_cell key ⟨[], none⟩)
    ⟨LinkedTable.empty, 0, fun _ h => absurd h List.not_mem_nil, List.nodup_nil⟩

/-- `A["c"]`. -/
def insert_body (_ : Nat) (array : LiveArray Int) : Bool × LiveArray Int :=
  (true, array.qk_array_set_cell ['c'] ⟨[], none⟩)

/-- `delete A[k]`. -/
def delete_own_body (current_key : Nat) (array : LiveArray Int) : Bool × LiveArray Int :=
  (true, ((array.read_key current_key).map array.qk_array_delete_value).getD array)

theorem for_in_visits_once_inserting : VisitsOnce id (array_of_keys [['a'], ['b']])
    (lower_runtime_for_in_statement id insert_body 2 (array_of_keys [['a'], ['b']])) :=
  (for_in_visits_once (fun _ array => .single (.set_cell array _ _)) _ (by decide)).mpr (by decide)

theorem delete_own_mutates : BodyMutates id delete_own_body := by
  intro current_key array
  unfold delete_own_body
  cases (array : LiveArray Int).read_key current_key with
  | none => exact .refl
  | some key => exact .single (.delete_value array key)

/-- The only entry may be deleted: no key is compared then. -/
example : VisitsOnce id (array_of_keys [['a']])
    (lower_runtime_for_in_statement id delete_own_body 1 (array_of_keys [['a']])) :=
  ⟨.inl rfl, by decide, by decide, by decide⟩

/-- The loop reads the key of an entry that was deleted, with others left. -/
theorem for_in_freed_key : BodyMutates id delete_own_body ∧ ∀ fuel, ¬ VisitsOnce id (array_of_keys [['a'], ['b']])
    (lower_runtime_for_in_statement id delete_own_body fuel (array_of_keys [['a'], ['b']])) := by
  refine ⟨delete_own_mutates, fun fuel hvisits => ?_⟩
  have hends := hvisits.ends
  cases fuel with
  | zero => exact absurd hends (by decide)
  | succ fuel =>
    have hstop : (lower_runtime_for_in_statement id delete_own_body (fuel + 1) (array_of_keys [['a'], ['b']])).2 =
        .freed_key := rfl
    rw [hstop] at hends
    exact absurd hends (by decide)

end quawk
