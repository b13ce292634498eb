import Quawk.TypeVisits

namespace quawk

/-- The scalar holds a value of the kind that a construct standing before the `position`-th one
gave it, and some construct notes a type for the scalar. -/
def KindStore.HoldsNoted (program : Program) (store : KindStore) (position : Nat) (name : Name)
    (kind : Kind) : Prop :=
  store.HoldsFromBefore position name kind ∧ ¬ NotesNone name (assigning_constructs program)

/-- The step gives a value the pass accounts for. Either the pass visits the construct (which is
not sure of exit values, the body of the target's own for-in loop and the late parts of loops
over more than three names) and the value comes through leaves whose values were given earlier
in the text; or the target already holds a value of the same kind given earlier in the text; or
no construct notes a type for the target at all. -/
def Event.Accounted (program : Program) (store : KindStore) : Event → Prop
  | .assign position kind =>
    ∀ construct, (assigning_constructs program)[position]? = some construct →
      (construct.noted = true ∧
        construct.given.MayGive program.defines construct.formals (store.HoldsNoted program position)
          (fun _ => False) kind) ∨
      store.HoldsFromBefore position construct.target kind ∨
      NotesNone construct.target (assigning_constructs program)
  | _ => True

theorem incremented_source {held : Option Held} {kind : Kind} {source : Nat}
    (h : incremented held = ⟨kind, some source⟩) : held = some ⟨kind, some source⟩ := by
  unfold incremented at h
  split at h
  · next heq => rw [h]
  · simp at h

/-- A value whose source is known was given by that construct, in this step or before it. -/
theorem KindStep.source_gave {program : Program} {store store' : KindStore} {event : Event}
    (hstep : KindStep program store event store') {name : Name} {kind : Kind} {source : Nat}
    (hholds : store' name = some ⟨kind, some source⟩) :
    (event = .assign source kind ∧
      ∃ construct, (assigning_constructs program)[source]? = some construct ∧ construct.target = name) ∨
    store name = some ⟨kind, some source⟩ := by
  cases hstep with
  | @assign position construct given hconstruct _ =>
    by_cases hname : name = construct.target
    · rw [hname, Function.update_self] at hholds
      simp only [Option.some.injEq, Held.mk.injEq] at hholds
      obtain ⟨rfl, rfl⟩ := hholds
      exact Or.inl ⟨rfl, construct, hconstruct, hname.symm⟩
    · exact Or.inr (by rwa [Function.update_of_ne hname] at hholds)
  | @increment target =>
    by_cases hname : name = target
    · rw [hname, Function.update_self, Option.some.injEq] at hholds
      exact Or.inr (hname ▸ incremented_source hholds)
    · exact Or.inr (by rwa [Function.update_of_ne hname] at hholds)
  | @builtin target given _ =>
    by_cases hname : name = target
    · simp [hname] at hholds
    · exact Or.inr (by rwa [Function.update_of_ne hname] at hholds)

theorem KindRun.source_gave {program : Program} {initial store : KindStore}
    {steps : List (KindStore × Event)} (hrun : KindRun program initial steps store)
    (hinitial : initial.Preassigned) {name : Name} {kind : Kind} {source : Nat}
    (hholds : store name = some ⟨kind, some source⟩) :
    (∃ construct, (assigning_constructs program)[source]? = some construct ∧ construct.target = name) ∧
      ∃ before, (before, Event.assign source kind) ∈ steps := by
  induction hrun with
  | start => exact absurd (hinitial name _ hholds) (by simp)
  | step hrun hstep ih =>
    obtain ⟨rfl, hconstruct⟩ | hheld := hstep.source_gave hholds
    · exact ⟨hconstruct, _, List.mem_append_right _ (List.mem_singleton_self _)⟩
    · obtain ⟨hconstruct, before, hmem⟩ := ih hheld
      exact ⟨hconstruct, before, List.mem_append_left _ hmem⟩

/-- The store before any step of a run is the store after a part of that run. -/
theorem KindRun.before_step {program : Program} {initial store before : KindStore}
    {steps : List (KindStore × Event)} {event : Event} (hrun : KindRun program initial steps store)
    (hmem : (before, event) ∈ steps) :
    ∃ part, KindRun program initial part before ∧ ∀ step ∈ part, step ∈ steps := by
  induction hrun with
  | start => simp at hmem
  | step hrun hstep ih =>
    rw [List.mem_append, List.mem_singleton] at hmem
    obtain hmem | heq := hmem
    · obtain ⟨part, hpart, hsub⟩ := ih hmem
      exact ⟨part, hpart, fun step h => List.mem_append_left _ (hsub step h)⟩
    · obtain ⟨rfl, -⟩ := Prod.mk.inj heq
      exact ⟨_, hrun, fun step h => List.mem_append_left _ h⟩

/-- In every run whose steps the pass accounts for, each value an assigning construct gives to a
scalar belongs to the type inferred for the scalar. -/
theorem infer_variable_types_sound (program : Program) (initial store : KindStore)
    (steps : List (KindStore × Event)) (hinitial : initial.Preassigned)
    (hrun : KindRun program initial steps store)
    (haccounted : ∀ before event, (before, event) ∈ steps → event.Accounted program before) :
    ∀ before position kind construct, (before, Event.assign position kind) ∈ steps →
      (assigning_constructs program)[position]? = some construct →
      (infer_variable_types program construct.target).Admits kind := by
  -- Values of scalars the pass notes no type for are left out: nothing covers them.
  let gives : Nat → Kind → Prop := fun position kind =>
    (∃ before, (before, Event.assign position kind) ∈ steps) ∧
      ∀ construct, (assigning_constructs program)[position]? = some construct →
        ¬ NotesNone construct.target (assigning_constructs program)
  have hbefore : ∀ before position, (∃ kind, (before, Event.assign position kind) ∈ steps) →
      ∀ name kind, before.HoldsNoted program position name kind →
        GivenBefore (assigning_constructs program) gives position name kind := by
    rintro before position ⟨_, hmem⟩ name kind ⟨⟨source, hlt, hholds⟩, hnotes⟩
    obtain ⟨part, hpart, hsub⟩ := hrun.before_step hmem
    obtain ⟨⟨construct, hget, rfl⟩, earlier, hearlier⟩ := hpart.source_gave hinitial hholds
    refine ⟨source, construct, hlt, hget, rfl, ⟨earlier, hsub _ hearlier⟩, fun other hother => ?_⟩
    rw [hget] at hother
    rwa [← Option.some.inj hother]
  have hjust : Justified program.defines (assigning_constructs program) gives := by
    rintro position construct kind hget ⟨⟨before, hmem⟩, hnotes⟩
    have hgiven := hbefore before position ⟨kind, hmem⟩
    obtain ⟨hnoted, hmay⟩ | hholds | hnone := haccounted before _ hmem construct hget
    · exact Or.inl ⟨hnoted, Given.MayGive.mono hmay hgiven⟩
    · exact Or.inr (hgiven _ _ ⟨hholds, hnotes construct hget⟩)
    · exact absurd hnone (hnotes construct hget)
  intro before position kind construct hmem hget
  by_cases hnone : NotesNone construct.target (assigning_constructs program)
  · rw [infer_variable_types_of_notesNone hnone]
    trivial
  · refine (infer_variable_types_covers hjust hget ⟨⟨before, hmem⟩, fun other hother => ?_⟩).admits
    rw [hget] at hother
    rwa [← Option.some.inj hother]

/-- `function f() { x = y } BEGIN { y = "a"; f(); x = 1 }` -/
def late_copy_program : Program :=
  ⟨[.function ⟨"f", [], [.assign (.name "x") .plain (.name "y")]⟩,
    .pattern_action (some .begin_pattern)
      (some [.assign (.name "y") .plain (.string_literal ['a']), .expr (.call "f" []),
        .assign (.name "x") .plain (.numeric_literal ['1'])])]⟩

theorem infer_variable_types_unsound :
    ¬ ∀ (program : Program) (initial store : KindStore) (steps : List (KindStore × Event)),
      initial.Preassigned → KindRun program initial steps store →
      ∀ before position kind construct, (before, Event.assign position kind) ∈ steps →
        (assigning_constructs program)[position]? = some construct →
        (infer_variable_types program construct.target).Admits kind := by
  intro hsound
  let store : KindStore := fun _ => none
  let store' : KindStore := Function.update store "y" (some ⟨.string, some 1⟩)
  have hfirst : KindStep late_copy_program store (.assign 1 .string) store' :=
    @KindStep.assign _ _ _ ⟨"y", .expression (.string_literal ['a']), [], true⟩ _ rfl rfl
  have hsecond : KindStep late_copy_program store' (.assign 0 .string)
      (Function.update store' "x" (some ⟨.string, some 0⟩)) := by
    refine @KindStep.assign _ _ _ ⟨"x", .expression (.name "y"), [], true⟩ _ rfl fun held hheld => ?_
    simp only [store', Function.update_self, Option.some.injEq] at hheld
    rw [← hheld]
  have hadmits := hsound late_copy_program store _ _ (fun _ _ h => by cases h)
    ((KindRun.start.step hfirst).step hsecond) store' 0 .string
    ⟨"x", .expression (.name "y"), [], true⟩ (by simp) rfl
  have hnumeric : infer_variable_types late_copy_program "x" = .numeric := by decide
  rw [hnumeric] at hadmits
  cases hadmits

/-- `BEGIN { y = "a"; x = y }` -/
def copy_program : Program :=
  ⟨[.pattern_action (some .begin_pattern)
    (some [.assign (.name "y") .plain (.string_literal ['a']), .assign (.name "x") .plain (.name "y")])]⟩

theorem infer_variable_types_sound_copy :
    (infer_variable_types copy_program "x").Admits .string := by
  let store : KindStore := fun _ => none
  let store' : KindStore := Function.update store "y" (some ⟨.string, some 0⟩)
  have hfirst : KindStep copy_program store (.assign 0 .string) store' :=
    @KindStep.assign _ _ _ ⟨"y", .expression (.string_literal ['a']), [], true⟩ _ rfl rfl
  have hsecond : KindStep copy_program store' (.assign 1 .string)
      (Function.update store' "x" (some ⟨.string, some 1⟩)) := by
    refine @KindStep.assign _ _ _ ⟨"x", .expression (.name "y"), [], true⟩ _ rfl fun held hheld => ?_
    simp only [store', Function.update_self, Option.some.injEq] at hheld
    rw [← hheld]
  refine infer_variable_types_sound copy_program store _ _ (fun _ _ h => by cases h)
    ((KindRun.start.step hfirst).step hsecond) ?_ store' 1 .string
    ⟨"x", .expression (.name "y"), [], true⟩ (by simp) rfl
  intro before event hmem
  simp only [List.nil_append, List.cons_append, List.mem_cons, List.not_mem_nil, or_false,
    Prod.mk.injEq] at hmem
  obtain ⟨rfl, rfl⟩ | ⟨rfl, rfl⟩ := hmem
  · rintro construct hget
    obtain rfl := Option.some.inj hget
    exact Or.inl ⟨rfl, rfl⟩
  · rintro construct hget
    obtain rfl := Option.some.inj hget
    refine Or.inl ⟨rfl, ⟨0, by decide, rfl⟩, fun hnone => ?_⟩
    exact absurd (hnone ⟨"y", .expression (.string_literal ['a']), [], true⟩ (List.mem_cons_self ..) rfl) (by decide)

end quawk
