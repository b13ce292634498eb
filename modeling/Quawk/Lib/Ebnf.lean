import Mathlib.Data.List.Lattice

/-- The right-hand side of a grammar rule over tokens `T` and nonterminals `N`. -/
inductive Ebnf (T N : Type) where
  | empty
  | terminal (token : T)
  | nonterminal (name : N)
  | seq (first second : Ebnf T N)
  | alt (left right : Ebnf T N)
  | opt (body : Ebnf T N)
  | star (body : Ebnf T N)

namespace Ebnf

variable {T N S : Type}

/-- One after the other. -/
def all : List (Ebnf T N) → Ebnf T N
  | [] => .empty
  | [rule] => rule
  | rule :: next :: rules => .seq rule (all (next :: rules))

/-- One of them. -/
def any : Ebnf T N → List (Ebnf T N) → Ebnf T N
  | rule, [] => rule
  | rule, next :: rules => .alt rule (any next rules)

/-- The words of a rule. -/
inductive Derives (rules : N → Ebnf T N) : Ebnf T N → List T → Prop where
  | empty : Derives rules .empty []
  | terminal (token : T) : Derives rules (.terminal token) [token]
  | nonterminal {name : N} {word : List T} (h : Derives rules (rules name) word) :
    Derives rules (.nonterminal name) word
  | seq {first second : Ebnf T N} {word word' : List T} (h : Derives rules first word)
    (h' : Derives rules second word') : Derives rules (.seq first second) (word ++ word')
  | alt_left {left right : Ebnf T N} {word : List T} (h : Derives rules left word) : Derives rules (.alt left right) word
  | alt_right {left right : Ebnf T N} {word : List T} (h : Derives rules right word) :
    Derives rules (.alt left right) word
  | opt_none {body : Ebnf T N} : Derives rules (.opt body) []
  | opt_some {body : Ebnf T N} {word : List T} (h : Derives rules body word) : Derives rules (.opt body) word
  | star_nil {body : Ebnf T N} : Derives rules (.star body) []
  | star_cons {body : Ebnf T N} {word word' : List T} (h : Derives rules body word)
    (h' : Derives rules (.star body) word') : Derives rules (.star body) (word ++ word')

/-- The states of an automaton behind a rule, where a word of `name` that starts in one of `starts name` ends in one of
`ends name`. There are none if a token of a word may find no step. -/
def follow [DecidableEq S] (step : S → T → Option S) (starts ends : N → List S) :
    Ebnf T N → List S → Option (List S)
  | .empty, states => some states
  | .terminal token, states => states.mapM (step · token)
  | .nonterminal name, states => if states ⊆ starts name then some (ends name) else none
  | .seq first second, states => (follow step starts ends first states).bind (follow step starts ends second)
  | .alt left right, states => do
    let behind ← follow step starts ends left states
    let behind' ← follow step starts ends right states
    return behind ∪ behind'
  | .opt body, states => do
    let behind ← follow step starts ends body states
    return states ∪ behind
  | .star body, states => do
    let behind ← follow step starts ends body states
    if behind ⊆ states then return states else none

theorem mem_of_mapM {step : S → Option S} {states behind : List S} (h : states.mapM step = some behind) {state : S}
    (hmem : state ∈ states) : ∃ last ∈ behind, step state = some last := by
  induction states generalizing behind with
  | nil => cases hmem
  | cons first rest ih =>
    simp only [List.mapM_cons, Option.bind_eq_bind, Option.bind_eq_some_iff, Option.pure_def, Option.some.injEq] at h
    obtain ⟨next, hnext, later, hlater, rfl⟩ := h
    obtain rfl | hmem := List.mem_cons.mp hmem
    · exact ⟨next, List.mem_cons_self, hnext⟩
    · obtain ⟨last, hlast, heq⟩ := ih hlater hmem
      exact ⟨last, List.mem_cons_of_mem _ hlast, heq⟩

variable [DecidableEq S] {step : S → T → Option S} {rules : N → Ebnf T N} {starts ends : N → List S}

/-- If the rules keep what is said of their ends, an automaton reads every word, and ends where it is said. -/
theorem Derives.follow
    (hrules : ∀ name, ∃ behind, (rules name).follow step starts ends (starts name) = some behind ∧ behind ⊆ ends name)
    {rule : Ebnf T N} {word : List T} (h : Derives rules rule word) :
    ∀ before behind, rule.follow step starts ends before = some behind → ∀ state ∈ before,
      ∃ last ∈ behind, word.foldlM step state = some last := by
  induction h with
  | empty =>
    intro before behind hfollow state hmem
    obtain rfl := Option.some.inj hfollow
    exact ⟨state, hmem, rfl⟩
  | terminal token =>
    intro before behind hfollow state hmem
    obtain ⟨last, hlast, heq⟩ := mem_of_mapM hfollow hmem
    exact ⟨last, hlast, by rw [List.foldlM_cons, heq]; rfl⟩
  | @nonterminal name word _ ih =>
    intro before behind hfollow state hmem
    unfold Ebnf.follow at hfollow
    split_ifs at hfollow with hstarts
    obtain rfl := Option.some.inj hfollow
    obtain ⟨inner, hinner, hsubset⟩ := hrules name
    obtain ⟨last, hlast, heq⟩ := ih (starts name) inner hinner state (hstarts hmem)
    exact ⟨last, hsubset hlast, heq⟩
  | seq _ _ ih ih' =>
    intro before behind hfollow state hmem
    obtain ⟨between, hfirst, hsecond⟩ := Option.bind_eq_some_iff.mp hfollow
    obtain ⟨next, hnext, heq⟩ := ih before between hfirst state hmem
    obtain ⟨last, hlast, heq'⟩ := ih' between behind hsecond next hnext
    exact ⟨last, hlast, by rw [List.foldlM_append, heq]; exact heq'⟩
  | alt_left _ ih =>
    intro before behind hfollow state hmem
    simp only [Ebnf.follow, Option.bind_eq_bind, Option.bind_eq_some_iff, Option.pure_def, Option.some.injEq] at hfollow
    obtain ⟨left, hleft, right, hright, rfl⟩ := hfollow
    obtain ⟨last, hlast, heq⟩ := ih before left hleft state hmem
    exact ⟨last, List.mem_union_left hlast _, heq⟩
  | alt_right _ ih =>
    intro before behind hfollow state hmem
    simp only [Ebnf.follow, Option.bind_eq_bind, Option.bind_eq_some_iff, Option.pure_def, Option.some.injEq] at hfollow
    obtain ⟨left, hleft, right, hright, rfl⟩ := hfollow
    obtain ⟨last, hlast, heq⟩ := ih before right hright state hmem
    exact ⟨last, List.mem_union_right _ hlast, heq⟩
  | opt_none =>
    intro before behind hfollow state hmem
    simp only [Ebnf.follow, Option.bind_eq_bind, Option.bind_eq_some_iff, Option.pure_def, Option.some.injEq] at hfollow
    obtain ⟨inner, _, rfl⟩ := hfollow
    exact ⟨state, List.mem_union_left hmem _, rfl⟩
  | opt_some _ ih =>
    intro before behind hfollow state hmem
    simp only [Ebnf.follow, Option.bind_eq_bind, Option.bind_eq_some_iff, Option.pure_def, Option.some.injEq] at hfollow
    obtain ⟨inner, hinner, rfl⟩ := hfollow
    obtain ⟨last, hlast, heq⟩ := ih before inner hinner state hmem
    exact ⟨last, List.mem_union_right _ hlast, heq⟩
  | star_nil =>
    intro before behind hfollow state hmem
    simp only [Ebnf.follow, Option.bind_eq_bind, Option.bind_eq_some_iff] at hfollow
    obtain ⟨inner, _, hclosed⟩ := hfollow
    split_ifs at hclosed
    obtain rfl := Option.some.inj hclosed
    exact ⟨state, hmem, rfl⟩
  | star_cons _ _ ih ih' =>
    intro before behind hfollow state hmem
    have hfollow' := hfollow
    simp only [Ebnf.follow, Option.bind_eq_bind, Option.bind_eq_some_iff] at hfollow'
    obtain ⟨inner, hinner, hclosed⟩ := hfollow'
    split_ifs at hclosed with hsubset
    obtain ⟨next, hnext, heq⟩ := ih before inner hinner state hmem
    obtain ⟨last, hlast, heq'⟩ := ih' before behind hfollow next (hsubset hnext)
    exact ⟨last, hlast, by rw [List.foldlM_append, heq]; exact heq'⟩

end Ebnf
