import Mathlib.Data.List.Nodup
import Mathlib.Data.Set.Card

/-- Entries under distinct keys in a linked list, which is searched from its head. -/
structure LinkedTable (K V : Type) where
  entries : List (K × V)
  unique : (entries.map Prod.fst).Nodup

namespace LinkedTable

variable {K V W : Type} [DecidableEq K]

def empty : LinkedTable K V := ⟨[], List.nodup_nil⟩

def find (table : LinkedTable K V) (key : K) : Option V := table.entries.lookup key

def size (table : LinkedTable K V) : Nat := table.entries.length

/-- The entry is changed where it stands; a new one goes to the head. -/
def put (table : LinkedTable K V) (key : K) (value : V) : LinkedTable K V :=
  if h : key ∈ table.entries.map Prod.fst then
    { entries := table.entries.map fun entry => if entry.1 = key then (key, value) else entry
      unique := by
        have hkeys : (Prod.fst ∘ fun entry : K × V => if entry.1 = key then (key, value) else entry) =
            Prod.fst := by
          funext entry
          simp only [Function.comp]
          split_ifs with heq
          · exact heq.symm
          · rfl
        rw [List.map_map, hkeys]
        exact table.unique }
  else ⟨(key, value) :: table.entries, List.nodup_cons.mpr ⟨h, table.unique⟩⟩

/-- The first entry under the key is unlinked. -/
def erase (table : LinkedTable K V) (key : K) : LinkedTable K V :=
  { entries := table.entries.eraseP fun entry => entry.1 = key
    unique := table.unique.sublist (List.eraseP_sublist.map Prod.fst) }

def map_values (table : LinkedTable K V) (change : V → W) : LinkedTable K W :=
  { entries := table.entries.map fun entry => (entry.1, change entry.2)
    unique := by
      rw [List.map_map]
      exact table.unique }

@[simp]
theorem find_empty (key : K) : (empty : LinkedTable K V).find key = none := rfl

theorem lookup_isSome_iff (entries : List (K × V)) (key : K) :
    (entries.lookup key).isSome ↔ key ∈ entries.map Prod.fst := by
  induction entries with
  | nil => simp
  | cons entry entries ih =>
    obtain ⟨name, kept⟩ := entry
    by_cases heq : key = name
    · simp [heq]
    · have hne : (key == name) = false := by simpa using heq
      simp only [List.lookup_cons, hne, List.map_cons, List.mem_cons, heq, false_or]
      exact ih

theorem lookup_eq_none {entries : List (K × V)} {key : K} (h : key ∉ entries.map Prod.fst) :
    entries.lookup key = none := by
  rw [← lookup_isSome_iff] at h
  exact Option.not_isSome_iff_eq_none.mp h

theorem find_isSome_iff (table : LinkedTable K V) (key : K) :
    (table.find key).isSome ↔ key ∈ table.entries.map Prod.fst := lookup_isSome_iff table.entries key

theorem lookup_map_replace {entries : List (K × V)} {key : K} (value : V)
    (h : key ∈ entries.map Prod.fst) (other : K) :
    (entries.map fun entry => if entry.1 = key then (key, value) else entry).lookup other =
      if other = key then some value else entries.lookup other := by
  induction entries with
  | nil => cases h
  | cons entry entries ih =>
    obtain ⟨name, kept⟩ := entry
    by_cases hkey : name = key
    · subst hkey
      by_cases hother : other = name
      · simp [hother]
      · have hne : (other == name) = false := by simpa using hother
        simp only [List.map_cons, if_true, List.lookup_cons, hne, hother, if_false]
        by_cases hrest : name ∈ entries.map Prod.fst
        · rw [ih hrest, if_neg hother]
        · congr 1
          refine (List.map_congr_left fun rest hmem => ?_).trans (List.map_id _)
          exact if_neg fun heq => hrest (List.mem_map.mpr ⟨rest, hmem, heq⟩)
    · have hrest : key ∈ entries.map Prod.fst := by
        obtain heq | hmem := List.mem_cons.mp h
        · exact absurd heq.symm hkey
        · exact hmem
      simp only [List.map_cons, if_neg hkey, List.lookup_cons, ih hrest]
      by_cases hother : other = key
      · have hne : (key == name) = false := by simpa using fun heq => hkey heq.symm
        simp [hother, hne]
      · simp [hother]

theorem find_put (table : LinkedTable K V) (key : K) (value : V) (other : K) :
    (table.put key value).find other = if other = key then some value else table.find other := by
  unfold put find
  by_cases hmem : key ∈ table.entries.map Prod.fst
  · simp only [dif_pos hmem]
    exact lookup_map_replace value hmem other
  · simp only [dif_neg hmem]
    by_cases hother : other = key
    · simp [hother]
    · have hne : (other == key) = false := by simpa using hother
      simp [List.lookup_cons, hne, hother]

@[simp]
theorem find_put_self (table : LinkedTable K V) (key : K) (value : V) :
    (table.put key value).find key = some value := by
  rw [find_put, if_pos rfl]

theorem find_put_of_ne (table : LinkedTable K V) {key other : K} (value : V) (h : other ≠ key) :
    (table.put key value).find other = table.find other := by
  rw [find_put, if_neg h]

theorem lookup_eraseP {entries : List (K × V)} (h : (entries.map Prod.fst).Nodup) (key other : K) :
    (entries.eraseP fun entry => entry.1 = key).lookup other =
      if other = key then none else entries.lookup other := by
  induction entries with
  | nil => simp
  | cons entry entries ih =>
    obtain ⟨name, kept⟩ := entry
    obtain ⟨hfresh, hrest⟩ := List.nodup_cons.mp h
    by_cases hkey : name = key
    · subst hkey
      rw [List.eraseP_cons_of_pos (by simp)]
      by_cases hother : other = name
      · rw [if_pos hother, lookup_eq_none (by rw [hother]; exact hfresh)]
      · have hne : (other == name) = false := by simpa using hother
        simp [List.lookup_cons, hne, hother]
    · rw [List.eraseP_cons_of_neg (by simpa using hkey), List.lookup_cons, List.lookup_cons, ih hrest]
      by_cases hother : other = key
      · have hne : (key == name) = false := by simpa using fun heq => hkey heq.symm
        simp [hother, hne]
      · simp [hother]

theorem find_erase (table : LinkedTable K V) (key other : K) :
    (table.erase key).find other = if other = key then none else table.find other :=
  lookup_eraseP table.unique key other

theorem lookup_map_values (entries : List (K × V)) (change : V → W) (key : K) :
    (entries.map fun entry => (entry.1, change entry.2)).lookup key = (entries.lookup key).map change := by
  induction entries with
  | nil => rfl
  | cons entry entries ih =>
    obtain ⟨name, kept⟩ := entry
    simp only [List.map_cons, List.lookup_cons]
    split
    · rfl
    · exact ih

@[simp]
theorem find_map_values (table : LinkedTable K V) (change : V → W) (key : K) :
    (table.map_values change).find key = (table.find key).map change :=
  lookup_map_values table.entries change key

/-- The size counts the keys. -/
theorem size_eq_ncard (table : LinkedTable K V) : table.size = {key | (table.find key).isSome}.ncard := by
  have hkeys : {key | (table.find key).isSome} = (table.entries.map Prod.fst).toFinset := by
    ext key
    simp only [Set.mem_ofPred_eq, find_isSome_iff, List.coe_toFinset]
  rw [hkeys, Set.ncard_coe_finset, List.toFinset_card_of_nodup table.unique, List.length_map]
  rfl

/-- An entry is found under its key. -/
theorem lookup_of_mem {entries : List (K × V)} (h : (entries.map Prod.fst).Nodup) {entry : K × V}
    (hmem : entry ∈ entries) : entries.lookup entry.1 = some entry.2 := by
  induction entries with
  | nil => cases hmem
  | cons first entries ih =>
    obtain ⟨hfresh, hrest⟩ := List.nodup_cons.mp h
    obtain ⟨name, kept⟩ := first
    obtain rfl | hmem := List.mem_cons.mp hmem
    · rw [List.lookup_cons, beq_self_eq_true]
    · have hne : (entry.1 == name) = false := beq_eq_false_iff_ne.mpr fun heq =>
        hfresh (List.mem_map.mpr ⟨entry, hmem, heq⟩)
      rw [List.lookup_cons, hne]
      exact ih hrest hmem

/-- Changing an entry where it stands leaves what is read of it and not changed. -/
theorem put_map_of_find (table : LinkedTable K V) {key : K} {old value : V} (h : table.find key = some old)
    (view : K × V → W) (hview : view (key, value) = view (key, old)) :
    (table.put key value).entries.map view = table.entries.map view := by
  have hmem : key ∈ table.entries.map Prod.fst := (find_isSome_iff table key).mp (by simp [h])
  unfold put
  rw [dif_pos hmem]
  dsimp only
  rw [List.map_map]
  refine List.map_congr_left fun entry hentry => ?_
  rw [Function.comp_apply]
  split_ifs with hkey
  · have hfound := lookup_of_mem table.unique hentry
    rw [hkey] at hfound
    have hold : entry.2 = old := Option.some.inj (hfound.symm.trans h)
    rw [hview, ← hkey, ← hold]
  · rfl

/-- A new entry goes to the head. -/
theorem put_of_find_none (table : LinkedTable K V) {key : K} (value : V) (h : table.find key = none) :
    (table.put key value).entries = (key, value) :: table.entries := by
  have hmem : key ∉ table.entries.map Prod.fst := fun hmem => by
    have hsome := (find_isSome_iff table key).mpr hmem
    rw [h] at hsome
    cases hsome
  unfold put
  rw [dif_neg hmem]

end LinkedTable
