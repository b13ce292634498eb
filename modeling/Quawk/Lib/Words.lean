import Mathlib.Data.List.Basic

namespace Words

variable {α : Type} {is_break : α → Bool} {text piece : List α}

/-- The runs of elements between breaks, in their order. -/
def words (is_break : α → Bool) (text : List α) : List (List α) :=
  (text.splitOnP is_break).filter fun piece => !piece.isEmpty

theorem not_break_of_mem_splitOnP (h : piece ∈ text.splitOnP is_break) : ∀ element ∈ piece, is_break element = false := by
  induction text generalizing piece with
  | nil =>
    rw [List.splitOnP_nil, List.mem_singleton] at h
    exact fun element hmem => absurd (h ▸ hmem) List.not_mem_nil
  | cons first rest ih =>
    rw [List.splitOnP_cons_eq_if_modifyHead] at h
    by_cases hfirst : is_break first = true
    · rw [if_pos hfirst, List.mem_cons] at h
      obtain rfl | hrest := h
      · exact fun element hmem => absurd hmem List.not_mem_nil
      · exact ih hrest
    · rw [if_neg hfirst] at h
      obtain ⟨head, tail, hsplit⟩ := List.exists_cons_of_ne_nil (List.splitOnP_ne_nil is_break rest)
      rw [hsplit] at ih
      rw [hsplit, List.modifyHead_cons, List.mem_cons] at h
      obtain rfl | htail := h
      · intro element hmem
        obtain rfl | hmem := List.mem_cons.mp hmem
        · simpa using hfirst
        · exact ih List.mem_cons_self element hmem
      · exact ih (List.mem_cons_of_mem head htail)

/-- A word is not empty, and there is no break in it. -/
theorem mem_words (h : piece ∈ words is_break text) : piece ≠ [] ∧ ∀ element ∈ piece, is_break element = false := by
  obtain ⟨hmem, hne⟩ := List.mem_filter.mp h
  exact ⟨by simpa using hne, not_break_of_mem_splitOnP hmem⟩

@[simp]
theorem words_nil : words is_break ([] : List α) = [] := by simp [words, List.splitOnP_nil]

theorem words_append_break {element : α} (h : is_break element = true) (front back : List α) :
    words is_break (front ++ element :: back) = words is_break front ++ words is_break back := by
  unfold words
  rw [List.splitOnP_append_cons front back h, List.filter_append]

theorem words_cons_break {element : α} (h : is_break element = true) (text : List α) :
    words is_break (element :: text) = words is_break text := words_append_break h [] text

theorem words_of_run (hne : text ≠ []) (h : ∀ element ∈ text, is_break element = false) : words is_break text = [text] := by
  unfold words
  rw [List.splitOnP_eq_singleton h]
  simp [hne]

theorem words_run_break {element : α} (hne : piece ≠ []) (hpiece : ∀ other ∈ piece, is_break other = false)
    (h : is_break element = true) (text : List α) :
    words is_break (piece ++ element :: text) = piece :: words is_break text := by
  rw [words_append_break h, words_of_run hne hpiece, List.singleton_append]

/-- The words together are everything but the breaks. -/
theorem flatten_words (text : List α) : (words is_break text).flatten = text.filter fun element => !is_break element := by
  have hsplit : ∀ text : List α, (text.splitOnP is_break).flatten = text.filter fun element => !is_break element := by
    intro text
    induction text with
    | nil => simp [List.splitOnP_nil]
    | cons first rest ih =>
      obtain ⟨head, tail, hrest⟩ := List.exists_cons_of_ne_nil (List.splitOnP_ne_nil is_break rest)
      rw [hrest] at ih
      rw [List.splitOnP_cons_eq_if_modifyHead, hrest]
      by_cases hfirst : is_break first = true
      · simpa [hfirst] using ih
      · simpa [hfirst] using ih
  unfold words
  rw [← hsplit text, List.flatten_filter_not_isEmpty]

/-- Breaks in front of a text begin no word. -/
theorem words_append_breaks {front : List α} (h : ∀ element ∈ front, is_break element = true) (back : List α) :
    words is_break (front ++ back) = words is_break back := by
  induction front with
  | nil => rfl
  | cons first rest ih =>
    rw [List.cons_append, words_cons_break (h first List.mem_cons_self)]
    exact ih fun element hmem => h element (List.mem_cons_of_mem first hmem)

/-- Words joined by breaks are read back. -/
theorem words_intercalate {separator : List α} {pieces : List (List α)} (hne : separator ≠ [])
    (hseparator : ∀ element ∈ separator, is_break element = true)
    (hpieces : ∀ piece ∈ pieces, piece ≠ [] ∧ ∀ element ∈ piece, is_break element = false) :
    words is_break (List.intercalate separator pieces) = pieces := by
  induction pieces with
  | nil => exact words_nil
  | cons first rest ih =>
    obtain ⟨hfirst, hrun⟩ := hpieces first List.mem_cons_self
    cases rest with
    | nil => simpa using words_of_run hfirst hrun
    | cons second others =>
      obtain ⟨begin_break, breaks, rfl⟩ := List.exists_cons_of_ne_nil hne
      have hbreaks : ∀ element ∈ breaks, is_break element = true := fun element hmem =>
        hseparator element (List.mem_cons_of_mem begin_break hmem)
      rw [List.intercalate_cons_cons, List.append_assoc, List.cons_append,
        words_run_break hfirst hrun (hseparator begin_break List.mem_cons_self), words_append_breaks hbreaks,
        ih fun piece hmem => hpieces piece (List.mem_cons_of_mem first hmem)]

theorem intercalate_nil_left (pieces : List (List α)) : List.intercalate [] pieces = pieces.flatten := by
  induction pieces with
  | nil => rfl
  | cons first rest ih =>
    cases rest with
    | nil => simp
    | cons second others =>
      rw [List.intercalate_cons_cons, ih, List.append_nil]
      rfl

/-- Of joined words, the breaks are left out of the separator only. -/
theorem filter_intercalate (separator : List α) {pieces : List (List α)}
    (hpieces : ∀ piece ∈ pieces, ∀ element ∈ piece, is_break element = false) :
    (List.intercalate separator pieces).filter (fun element => !is_break element) =
      List.intercalate (separator.filter fun element => !is_break element) pieces := by
  induction pieces with
  | nil => rfl
  | cons first rest ih =>
    have hfirst : first.filter (fun element => !is_break element) = first :=
      List.filter_eq_self.mpr fun element hmem => by rw [hpieces first List.mem_cons_self element hmem]; rfl
    cases rest with
    | nil => simpa using hfirst
    | cons second others =>
      rw [List.intercalate_cons_cons, List.intercalate_cons_cons, List.filter_append, List.filter_append, hfirst,
        ih fun piece hmem => hpieces piece (List.mem_cons_of_mem first hmem)]

end Words
