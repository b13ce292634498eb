import Quawk.SubstituteSpans
import Quawk.SubstituteTargets

open Matching (Matcher exec Successive)
open Spans (replaced)

namespace quawk

/-- The replacement read character by character; a backslash waits for the character behind it. -/
def reference_replacement (matched : Text) : Bool → Text → Text
  | false, [] => []
  | true, [] => ['\\']
  | false, char :: rest =>
    if char = '&' then matched ++ reference_replacement matched false rest
    else if char = '\\' then reference_replacement matched true rest
    else char :: reference_replacement matched false rest
  | true, char :: rest =>
    if char = '&' ∨ char = '\\' then char :: reference_replacement matched false rest
    else '\\' :: char :: reference_replacement matched false rest

theorem append_replacement_plain {char : Char} (rest matched : Text) (hand : char ≠ '&') (hbackslash : char ≠ '\\') :
    qk_append_substitute_replacement (char :: rest) matched = char :: qk_append_substitute_replacement rest matched := by
  rw [qk_append_substitute_replacement] <;> simp_all

theorem append_replacement_backslash {char : Char} (rest matched : Text) (hand : char ≠ '&') (hbackslash : char ≠ '\\') :
    qk_append_substitute_replacement ('\\' :: char :: rest) matched =
      '\\' :: char :: qk_append_substitute_replacement rest matched := by
  rw [qk_append_substitute_replacement, append_replacement_plain rest matched hand hbackslash] <;> simp_all

/-- The code adds what the replacement says, also with a backslash still waiting. -/
theorem reference_replacement_eq (matched replacement : Text) :
    reference_replacement matched false replacement = qk_append_substitute_replacement replacement matched ∧
      reference_replacement matched true replacement = qk_append_substitute_replacement ('\\' :: replacement) matched := by
  induction replacement with
  | nil => exact ⟨rfl, rfl⟩
  | cons char rest ih =>
    obtain ⟨hplain, hwaiting⟩ := ih
    by_cases hand : char = '&'
    · subst hand
      exact ⟨congrArg (matched ++ ·) hplain, congrArg ('&' :: ·) hplain⟩
    · by_cases hbackslash : char = '\\'
      · subst hbackslash
        exact ⟨hwaiting, congrArg ('\\' :: ·) hplain⟩
      · rw [reference_replacement, reference_replacement, if_neg hand, if_neg hbackslash,
          if_neg (not_or.mpr ⟨hand, hbackslash⟩), hplain, append_replacement_plain rest matched hand hbackslash,
          append_replacement_backslash rest matched hand hbackslash]
        exact ⟨rfl, rfl⟩

section Target

open SubstituteRuntime

variable {Number : Type} (doubles : Doubles Number) (is_zero : Number → Prop)

/-- The code replaces the matches of the reference, gives their number, and leaves the target with the text that has every
one replaced; without a match it changes nothing. -/
def SubstitutesAsReference (pattern : Matcher Char) (replacement : Text) (global : Bool) (target : SubstituteTarget)
    (runtime : SubstituteRuntime Number) : Prop :=
  let text := runtime.target_text doubles target
  let spans := replaced_spans (posix_regex pattern) global 0 text
  ReferenceSpans pattern text global spans ∧
    ∃ after, runtime.substitute doubles (posix_regex pattern) replacement global target = some (spans.length, after) ∧
      (spans ≠ [] → after.target_text doubles target =
        replaced (fun matched => reference_replacement matched false replacement) text 0 spans) ∧
      (spans = [] → runtime.Unchanged doubles is_zero after)

/-- `^a` -/
def caret_a : Matcher Char where
  accepts is_start _ piece := is_start && piece == ['a']
  at_start _ _ h := by cases h

/-- Before the first record, with every scalar of one value. -/
def empty_runtime (value : StoredValue Rat) : SubstituteRuntime Rat where
  scalars _ := value
  unread _ := .unset
  parameters _ := []
  keys _ := []
  numbers _ := 0
  filename := ['-']
  convfmt := QK_DEFAULT_CONVFMT
  record := record_start [' ']
  store := ⟨LinkedTable.empty, []⟩

end Target

end quawk
