import Mathlib.Data.List.Nodup

/-! A list that is changed while it is walked: new members go in front, and members are taken out anywhere. -/

namespace LiveList

variable {α : Type}

/-- What changes leave of a list: the members still there keep their order, behind the new ones. -/
def Changed (fresh : α → Prop) (before after : List α) : Prop :=
  ∃ inserted kept, after = inserted ++ kept ∧ kept.Sublist before ∧ ∀ member ∈ inserted, fresh member

theorem Changed.refl (fresh : α → Prop) (members : List α) : Changed fresh members members :=
  ⟨[], members, rfl, List.Sublist.refl _, fun _ hmem => absurd hmem List.not_mem_nil⟩

theorem Changed.insert {fresh : α → Prop} {member : α} (h : fresh member) (members : List α) :
    Changed fresh members (member :: members) :=
  ⟨[member], members, rfl, List.Sublist.refl _, fun _ hmem => List.mem_singleton.mp hmem ▸ h⟩

theorem Changed.remove {fresh : α → Prop} {members left : List α} (h : left.Sublist members) :
    Changed fresh members left :=
  ⟨[], left, rfl, h, fun _ hmem => absurd hmem List.not_mem_nil⟩

theorem Changed.trans {fresh fresh' : α → Prop} {before between after : List α} (h : Changed fresh before between)
    (h' : Changed fresh' between after) (hfresh : ∀ member, fresh' member → fresh member) :
    Changed fresh before after := by
  obtain ⟨inserted, kept, rfl, hkept, hinserted⟩ := h
  obtain ⟨inserted', kept', rfl, hkept', hinserted'⟩ := h'
  obtain ⟨left, right, rfl, hleft, hright⟩ := List.sublist_append_iff.mp hkept'
  refine ⟨inserted' ++ left, right, (List.append_assoc ..).symm, hright.trans hkept, fun member hmem => ?_⟩
  obtain hmem | hmem := List.mem_append.mp hmem
  · exact hfresh member (hinserted' member hmem)
  · exact hinserted member (hleft.subset hmem)

/-- A member that is not new was there before. -/
theorem Changed.mem {fresh : α → Prop} {before after : List α} (h : Changed fresh before after) {member : α}
    (hmem : member ∈ after) (hold : ¬ fresh member) : member ∈ before := by
  obtain ⟨inserted, kept, rfl, hkept, hinserted⟩ := h
  obtain hmem | hmem := List.mem_append.mp hmem
  · exact absurd (hinserted member hmem) hold
  · exact hkept.subset hmem

/-- The member behind the first one that is looked for. -/
def next_of (found : α → Bool) (members : List α) : Option α := (members.dropWhile (!found ·)).tail.head?

theorem next_of_append {found : α → Bool} {member : α} {front rest : List α} (hfront : ∀ other ∈ front, found other = false)
    (hmember : found member = true) : next_of found (front ++ member :: rest) = rest.head? := by
  rw [next_of, List.dropWhile_append_of_pos fun other hmem => by rw [hfront other hmem]; rfl,
    List.dropWhile_cons_of_neg (by rw [hmember]; simp)]
  rfl

variable [DecidableEq α]

/-- A part of a list without repetition is what the list has of its members. -/
theorem filter_mem_of_sublist {part whole : List α} (h : part.Sublist whole) (hwhole : whole.Nodup) :
    whole.filter (· ∈ part) = part := by
  induction h with
  | slnil => rfl
  | @cons part whole first hpart ih =>
    obtain ⟨hfirst, hwhole⟩ := List.nodup_cons.mp hwhole
    have hout : first ∉ part := fun hmem => hfirst (hpart.subset hmem)
    rw [List.filter_cons_of_neg (by simpa using hout), ih hwhole]
  | @cons_cons part whole first hpart ih =>
    obtain ⟨hfirst, hwhole⟩ := List.nodup_cons.mp hwhole
    rw [List.filter_cons_of_pos (by simp)]
    have hrest : whole.filter (· ∈ first :: part) = whole.filter (· ∈ part) := by
      refine List.filter_congr fun member hmem => ?_
      have hne : member ≠ first := fun heq => hfirst (heq ▸ hmem)
      simp [hne]
    rw [hrest, ih hwhole]

/-- What is still there of the members that are yet to come. -/
def upcoming (members rest : List α) : List α := rest.filter (· ∈ members)

/-- The members yet to come stay together at the end of the list, whatever is changed. -/
theorem Changed.upcoming {fresh : α → Prop} {before after front rest : List α} (h : Changed fresh before after)
    (hbefore : before = front ++ upcoming before rest) (hnodup : before.Nodup) (hrest : rest.Nodup)
    (hold : ∀ member ∈ rest, ¬ fresh member) : ∃ front', after = front' ++ LiveList.upcoming after rest := by
  obtain ⟨inserted, kept, hafter, hkept, hinserted⟩ := h
  rw [hbefore] at hkept hnodup
  obtain ⟨left, right, rfl, hleft, hright⟩ := List.sublist_append_iff.mp hkept
  have hpart : right.Sublist rest := hright.trans List.filter_sublist
  have hsame : LiveList.upcoming after rest = right := by
    rw [← filter_mem_of_sublist hpart hrest]
    refine List.filter_congr fun member hmem => ?_
    have hiff : member ∈ after ↔ member ∈ right := by
      rw [hafter]
      refine ⟨fun hin => ?_, fun hin => List.mem_append_right _ (List.mem_append_right _ hin)⟩
      obtain hin | hin := List.mem_append.mp hin
      · exact absurd (hinserted member hin) (hold member hmem)
      · obtain hin | hin := List.mem_append.mp hin
        · have hfront : member ∈ front := hleft.subset hin
          have hthere : member ∈ LiveList.upcoming before rest := by
            refine List.mem_filter.mpr ⟨hmem, ?_⟩
            rw [decide_eq_true_eq, hbefore]
            exact List.mem_append_left _ hfront
          exact (List.disjoint_of_nodup_append hnodup hfront hthere).elim
        · exact hin
    simpa using hiff
  exact ⟨inserted ++ left, by rw [hsame, hafter, List.append_assoc]⟩

end LiveList
