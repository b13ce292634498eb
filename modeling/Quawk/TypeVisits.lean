import Mathlib.Algebra.Order.BigOperators.Group.Finset
import Mathlib.Data.Finset.Card
import Mathlib.Tactic.Ring
import Quawk.TypeLattice

namespace quawk

/-- The relation of two type maps that agree on one name. -/
def SameAt (name : Name) (before after : VariableTypes) : Prop := after name = before name

instance (name : Name) : IsPreorder VariableTypes (SameAt name) where
  refl _ := rfl
  trans _ _ _ h1 h2 := Eq.trans h2 h1

theorem note_assignment_inflationary (name : Name) (assigned : VariableTypes → LatticeType)
    (local_names : List Name) : (note_assignment name assigned local_names).Inflationary := by
  refine ⟨fun types => ?_, fun types => ?_⟩
  · dsimp only [note_assignment]
    split_ifs
    · exact le_refl types
    · exact le_refl types
    · exact le_update_self_iff.mpr (@le_sup_left _ _ (types name) _)
  · dsimp only [note_assignment]
    split_ifs with hlocal hsame
    · simp
    · simp
    · simpa [Function.update_eq_self_iff] using hsame

theorem note_assignment_sameAt {name other : Name} {assigned : VariableTypes → LatticeType}
    {local_names : List Name}
    (hother : name ∉ local_names → other = name → ∀ types, assigned types = .unknown) :
    (note_assignment name assigned local_names).Keeps (SameAt other) := by
  intro types
  dsimp only [note_assignment]
  split_ifs with hlocal hsame
  · exact rfl
  · exact rfl
  · refine Function.update_of_ne (fun heq => hsame ?_) _ _
    rw [hother hlocal heq types]
    cases types name <;> rfl

theorem note_assignment_covers {name : Name} {assigned : VariableTypes → LatticeType}
    {local_names : List Name} {types : VariableTypes} {kind : Kind} (hname : name ∉ local_names)
    (hcovers : (assigned types).Covers kind) :
    ((note_assignment name assigned local_names types).2 name).Covers kind := by
  have hle : assigned types ≤ join (types name) (assigned types) := @le_sup_right _ _ (types name) _
  dsimp only [note_assignment]
  rw [if_neg hname]
  split_ifs with hsame
  · exact hcovers.mono (hle.trans_eq hsame)
  · simpa using hcovers.mono hle

theorem note_lvalue_inflationary (assigned : VariableTypes → LatticeType) (local_names : List Name)
    (target : LValue) : (note_lvalue assigned local_names target).Inflationary := by
  cases target with
  | name name => exact note_assignment_inflationary name assigned local_names
  | array _ _ => exact ChangeStep.inflationary_skip
  | field _ => exact ChangeStep.inflationary_skip

section Tracks

variable (defines : Name → Bool) (all : List Construct) (gives : Nat → Kind → Prop)

/-- A construct standing before the `position`-th one gives the scalar a value of the kind. -/
def GivenBefore (position : Nat) (name : Name) (kind : Kind) : Prop :=
  ∃ (source : Nat) (construct : Construct), source < position ∧ all[source]? = some construct ∧
    construct.target = name ∧ gives source kind

/-- Each value given comes, at a place the pass visits, through leaves given their values earlier
in the text, or the target was given a value of the same kind earlier in the text. -/
def Justified : Prop :=
  ∀ position construct kind, all[position]? = some construct → gives position kind →
    (construct.noted = true ∧
      construct.given.MayGive defines construct.formals (GivenBefore all gives position)
        (fun _ => False) kind) ∨
    GivenBefore all gives position construct.target kind

/-- The types account for all values given by the first `count` constructs. -/
def AccountsFor (types : VariableTypes) (count : Nat) : Prop :=
  ∀ position < count, ∀ construct kind, all[position]? = some construct → gives position kind →
    (types construct.target).Covers kind

variable {defines all gives}

theorem AccountsFor.mono {types types' : VariableTypes} {count : Nat}
    (h : AccountsFor all gives types count) (hle : types ≤ types') :
    AccountsFor all gives types' count :=
  fun position hposition construct kind hget hgives =>
    (h position hposition construct kind hget hgives).mono (hle construct.target)

theorem AccountsFor.covers_givenBefore {types : VariableTypes} {count : Nat} {name : Name}
    {kind : Kind} (h : AccountsFor all gives types count)
    (hbefore : GivenBefore all gives count name kind) : (types name).Covers kind := by
  obtain ⟨source, construct, hlt, hget, rfl, hgives⟩ := hbefore
  exact h source hlt construct kind hget hgives

theorem AccountsFor.succ {types types' : VariableTypes} {count : Nat}
    (h : AccountsFor all gives types count) (hle : types ≤ types')
    (hlast : ∀ construct kind, all[count]? = some construct → gives count kind →
      (types' construct.target).Covers kind) : AccountsFor all gives types' (count + 1) := by
  intro position hposition construct kind hget hgives
  obtain hlt | rfl := Nat.lt_succ_iff_lt_or_eq.mp hposition
  · exact h.mono hle position hlt construct kind hget hgives
  · exact hlast construct kind hget hgives

/-- Constructs the pass never comes to are accounted for by the earlier ones. -/
theorem AccountsFor.append_unnoted {types : VariableTypes} {before constructs after : List Construct}
    (hjust : Justified defines all gives) (hall : all = before ++ (constructs ++ after))
    (hunnoted : ∀ construct ∈ constructs, construct.noted = false)
    (h : AccountsFor all gives types before.length) :
    AccountsFor all gives types (before ++ constructs).length := by
  induction constructs generalizing before with
  | nil => simpa using h
  | cons first rest ih =>
    have hfirst : all[before.length]? = some first := by simp [hall]
    have hnext : AccountsFor all gives types (before ++ [first]).length := by
      rw [List.length_append]
      refine h.succ (le_refl types) fun construct kind hget hgives => ?_
      obtain ⟨hnoted, -⟩ | hbefore := hjust _ _ _ hget hgives
      · rw [hfirst] at hget
        obtain rfl := Option.some.inj hget
        simp [hunnoted first (by simp)] at hnoted
      · exact h.covers_givenBefore hbefore
    have hall' : all = (before ++ [first]) ++ (rest ++ after) := by simp [hall]
    have hrest := ih hall'
      (fun construct hmem => hunnoted construct (List.mem_cons_of_mem _ hmem)) hnext
    simpa using hrest

variable (defines all gives) in
/-- What the visit of a piece of the program does for the constructs of that piece. -/
structure Tracks (scope : Scope) (visit : Visit) (constructs : List Construct) : Prop where
  inflationary : visit.Inflationary
  frame : ∀ name, NotesNone name constructs → visit.Keeps (SameAt name)
  reached : ∀ construct ∈ constructs, construct.noted = true → scope.reached = true
  accounts : ∀ before after types, all = before ++ (constructs ++ after) →
    AccountsFor all gives types before.length →
    AccountsFor all gives (visit types).2 (before ++ constructs).length

theorem Tracks.skip (scope : Scope) : Tracks all gives scope ChangeStep.skip [] where
  inflationary := ChangeStep.inflationary_skip
  frame _ _ := ChangeStep.keeps_skip
  reached := by simp
  accounts before after types _ h := by rwa [List.append_nil]

theorem Tracks.seq {scope : Scope} {first second : Visit} {constructs constructs' : List Construct}
    (h1 : Tracks all gives scope first constructs) (h2 : Tracks all gives scope second constructs') :
    Tracks all gives scope (first.seq second) (constructs ++ constructs') where
  inflationary := h1.inflationary.seq h2.inflationary
  frame name hname := by
    obtain ⟨hname, hname'⟩ := hname.of_append
    exact (h1.frame name hname).seq (h2.frame name hname')
  reached construct hmem := by
    obtain hmem | hmem := List.mem_append.mp hmem
    · exact h1.reached construct hmem
    · exact h2.reached construct hmem
  accounts before after types hall h := by
    have hfirst := h1.accounts before (constructs' ++ after) types (by simp [hall]) h
    have hsecond := h2.accounts (before ++ constructs) after _ (by simp [hall]) hfirst
    rwa [List.append_assoc] at hsecond

/-- A piece the pass never visits, all of whose constructs are known not to be noted. -/
theorem Tracks.unvisited {scope : Scope} {visit : Visit} {constructs : List Construct}
    (hjust : Justified defines all gives)
    (h : Tracks all gives (scope.restrict false) visit constructs) :
    Tracks all gives scope ChangeStep.skip constructs where
  inflationary := ChangeStep.inflationary_skip
  frame _ _ := ChangeStep.keeps_skip
  reached construct hmem hnoted := by simpa [Scope.restrict] using h.reached construct hmem hnoted
  accounts before after types hall haccounts := by
    refine haccounts.append_unnoted hjust hall fun construct hmem => ?_
    by_contra hnoted
    simpa [Scope.restrict] using h.reached construct hmem (by simpa using hnoted)

theorem note_lvalue_tracks (hjust : Justified defines all gives) (scope : Scope) (given : Given)
    (target : LValue) :
    Tracks all gives scope (note_lvalue given.type scope.local_names target)
      (lvalue_construct scope given target) := by
  cases target with
  | array _ _ => exact Tracks.skip scope
  | field _ => exact Tracks.skip scope
  | name name =>
    refine ⟨note_lvalue_inflationary _ _ _, fun other hother => ?_, fun construct hmem hnoted => ?_,
      fun before after types hall haccounts => ?_⟩
    · refine note_assignment_sameAt fun hlocal heq types => given.type_of_untyped ?_ types
      have hformal : name ∉ scope.formals := fun h => hlocal (List.mem_append_right _ h)
      exact hother ⟨name, given, scope.formals, scope.reached && name ∉ scope.loop_names⟩
        (by simp [lvalue_construct, hformal]) heq.symm
    · simp only [lvalue_construct] at hmem
      split_ifs at hmem with hformal
      · cases hmem
      · obtain rfl := List.mem_singleton.mp hmem
        simp only [Bool.and_eq_true] at hnoted
        exact hnoted.1
    · have hle := (note_lvalue_inflationary given.type scope.local_names (.name name)).le types
      by_cases hformal : name ∈ scope.formals
      · simp only [lvalue_construct, if_pos hformal, List.append_nil]
        exact haccounts.mono hle
      · simp only [lvalue_construct, if_neg hformal] at hall ⊢
        rw [List.length_append]
        refine haccounts.succ hle fun construct kind hget hgives => ?_
        obtain ⟨hnoted, hmay⟩ | hbefore := hjust _ _ _ hget hgives
        · obtain rfl : _ = construct := by simpa [hall] using hget
          simp only [Bool.and_eq_true] at hnoted
          have hlocal : name ∉ scope.local_names := by
            simpa [Scope.local_names, hformal] using hnoted.2
          refine note_assignment_covers hlocal ?_
          cases given with
          | expression value =>
            exact infer_expression_type_covers (fun _ _ h => haccounts.covers_givenBefore h) _ _ hmay
          | number => exact hmay
          | string => exact hmay
        · exact (haccounts.covers_givenBefore hbefore).mono (hle _)

theorem note_substitute_target_tracks (hjust : Justified defines all gives) (scope : Scope)
    (function : Name) (args : List Expr) :
    Tracks all gives scope (note_substitute_target function args scope.local_names)
      (substitute_construct scope function args) := by
  unfold note_substitute_target substitute_construct
  split_ifs
  · cases substitute_target args with
    | some lvalue => exact note_lvalue_tracks hjust scope .string lvalue
    | none => exact Tracks.skip scope
  · exact Tracks.skip scope

mutual

theorem visit_expression_tracks (hjust : Justified defines all gives) (scope : Scope) :
    ∀ expression, Tracks all gives scope (visit_expression scope.local_names expression)
      (expression_constructs scope expression)
  | .assign target op value =>
    ((visit_expression_tracks hjust scope value).seq
      (visit_lvalue_indexes_tracks hjust scope target)).seq
      (assigned_given_type op value ▸ note_lvalue_tracks hjust scope (assigned_given op value) target)
  | .binary left _ right =>
    (visit_expression_tracks hjust scope left).seq (visit_expression_tracks hjust scope right)
  | .conditional test if_true if_false =>
    ((visit_expression_tracks hjust scope test).seq (visit_expression_tracks hjust scope if_true)).seq
      (visit_expression_tracks hjust scope if_false)
  | .unary _ operand => visit_expression_tracks hjust scope operand
  | .postfix_op operand _ => visit_expression_tracks hjust scope operand
  | .call function args =>
    (visit_expressions_tracks hjust scope args).seq
      (note_substitute_target_tracks hjust scope function args)
  | .array_index _ index extra_indexes =>
    (visit_expression_tracks hjust scope index).seq
      (visit_expressions_tracks hjust scope extra_indexes)
  | .field index => visit_expression_tracks hjust scope index
  | .getline (some target) (some source) =>
    ((visit_expression_tracks hjust scope source).seq
      (visit_lvalue_indexes_tracks hjust scope target)).seq
      (note_lvalue_tracks hjust scope .string target)
  | .getline (some target) none =>
    (visit_lvalue_indexes_tracks hjust scope target).seq
      (note_lvalue_tracks hjust scope .string target)
  | .getline none (some source) => visit_expression_tracks hjust scope source
  | .getline none none => Tracks.skip scope
  | .string_literal _ | .numeric_literal _ | .regex_literal _ | .name _ | .field_at _ =>
    Tracks.skip scope

theorem visit_expressions_tracks (hjust : Justified defines all gives) (scope : Scope) :
    ∀ expressions, Tracks all gives scope (visit_expressions scope.local_names expressions)
      (expressions_constructs scope expressions)
  | [] => Tracks.skip scope
  | expression :: rest =>
    (visit_expression_tracks hjust scope expression).seq (visit_expressions_tracks hjust scope rest)

theorem visit_lvalue_indexes_tracks (hjust : Justified defines all gives) (scope : Scope) :
    ∀ target, Tracks all gives scope (visit_lvalue_indexes scope.local_names target)
      (lvalue_index_constructs scope target)
  | .name _ => Tracks.skip scope
  | .array _ subscripts => visit_expressions_tracks hjust scope subscripts
  | .field index => visit_expression_tracks hjust scope index

end

theorem visit_option_tracks (hjust : Justified defines all gives) (scope : Scope)
    (expression : Option Expr) :
    Tracks all gives scope (visit_option scope.local_names expression)
      (option_constructs scope expression) := by
  cases expression with
  | none => exact Tracks.skip scope
  | some expression => exact visit_expression_tracks hjust scope expression

/-- How far the named scalars have climbed the lattice. -/
def loop_height (names : Finset Name) (types : VariableTypes) : Nat :=
  ∑ name ∈ names, (types name).height

theorem loop_height_le (names : Finset Name) (types : VariableTypes) :
    loop_height names types ≤ 2 * names.card := by
  rw [mul_comm]
  exact Finset.sum_le_card_nsmul _ _ _ fun name _ => (types name).height_le_two

/-- A loop over at most three names settles: its last iteration visits everything and changes
nothing. -/
theorem converge_settles_of_loop_settles {step : Visit} {constructs : List Construct}
    (hstep : step.Inflationary)
    (hframe : ∀ name, NotesNone name constructs → step.Keeps (SameAt name))
    (hsettles : loop_settles constructs = true) (types : VariableTypes) :
    step (step.converge max_fixpoint_iterations types).2 =
      (false, (step.converge max_fixpoint_iterations types).2) := by
  let names := (constructs.map Construct.target).toFinset
  have hcard : names.card ≤ 3 := by
    rw [List.card_toFinset]
    simpa [loop_settles] using hsettles
  refine hstep.converge_settles (loop_height names) 6 (fun before hne => ?_) (fun after => ?_) ?_
  · obtain ⟨name, hname⟩ := Function.ne_iff.mp hne
    have hmem : name ∈ names := by
      by_contra hout
      refine hname (hframe name (fun construct hmem htarget => absurd ?_ hout) before)
      rw [← htarget]
      exact List.mem_toFinset.mpr (List.mem_map_of_mem hmem)
    exact Finset.sum_lt_sum (fun other _ => LatticeType.height_mono (hstep.le before other))
      ⟨name, hmem, LatticeType.height_lt (hstep.le before name) (Ne.symm hname)⟩
  · have := loop_height_le names after
    omega
  · unfold max_fixpoint_iterations
    omega

theorem Tracks.converge_first {scope : Scope} {body other : Visit} {constructs : List Construct}
    (hbody : Tracks all gives scope body constructs) (hother : other.Inflationary)
    {before after : List Construct} {types : VariableTypes}
    (hall : all = before ++ (constructs ++ after)) (h : AccountsFor all gives types before.length) :
    AccountsFor all gives ((body.or_else other).converge max_fixpoint_iterations types).2
      (before ++ constructs).length :=
  ((hbody.accounts before after types hall h).mono (hother.le_or_else types)).mono
    ((hbody.inflationary.or_else hother).le_converge_succ 7 types)

/-- The condition of a do-while loop, or the updates of a for loop, are accounted for after the
loop: either the pass came to them, or no construct in them is noted. -/
theorem Tracks.converge_late {scope : Scope} {body other late : Visit}
    {constructs others lates : List Construct} (hjust : Justified defines all gives)
    (hbody : Tracks all gives scope body constructs) (hother : other.Inflationary)
    (hframe : ∀ name, NotesNone name others → other.Keeps (SameAt name))
    (hlate : Tracks all gives (scope.restrict (loop_settles (constructs ++ others))) late lates)
    (hvisited : ∀ types, other types = (false, types) → (late types).2 = types)
    {before after : List Construct} {types : VariableTypes}
    (hall : all = before ++ (constructs ++ (lates ++ after)))
    (h : AccountsFor all gives types before.length) :
    AccountsFor all gives ((body.or_else other).converge max_fixpoint_iterations types).2
      (before ++ (constructs ++ lates)).length := by
  have hfirst := hbody.converge_first hother hall h
  rw [← List.append_assoc]
  have hall' : all = (before ++ constructs) ++ (lates ++ after) := by simp [hall]
  cases hsettles : loop_settles (constructs ++ others) with
  | true =>
    have hstep := converge_settles_of_loop_settles (hbody.inflationary.or_else hother)
      (fun name hname => (hbody.frame name hname.of_append.1).or_else (hframe name hname.of_append.2))
      hsettles types
    have hunchanged := hvisited _ (hbody.inflationary.of_or_else_eq hstep).2
    rw [← hunchanged]
    exact hlate.accounts _ after _ hall' hfirst
  | false =>
    refine hfirst.append_unnoted hjust hall' fun construct hmem => ?_
    by_contra hnoted
    simpa [Scope.restrict, hsettles] using hlate.reached construct hmem (by simpa using hnoted)

theorem Tracks.while_loop {scope : Scope} {condition body : Visit}
    {constructs constructs' : List Construct} (hcondition : Tracks all gives scope condition constructs)
    (hbody : Tracks all gives scope body constructs') :
    Tracks all gives scope
      (condition.seq ((body.or_else condition).converge max_fixpoint_iterations))
      (constructs ++ constructs') where
  inflationary :=
    hcondition.inflationary.seq ((hbody.inflationary.or_else hcondition.inflationary).converge _)
  frame name hname := by
    obtain ⟨hname, hname'⟩ := hname.of_append
    exact (hcondition.frame name hname).seq
      (((hbody.frame name hname').or_else (hcondition.frame name hname)).converge _)
  reached := (hcondition.seq hbody).reached
  accounts before after types hall h := by
    rw [List.append_assoc] at hall
    have hfirst := hcondition.accounts before (constructs' ++ after) types hall h
    have hall' : all = (before ++ constructs) ++ (constructs' ++ after) := by rw [hall]; simp
    have hloop := hbody.converge_first hcondition.inflationary hall' hfirst
    rwa [List.append_assoc] at hloop

theorem Tracks.do_while_loop {scope : Scope} {condition body : Visit}
    {constructs conditions lates : List Construct} (hjust : Justified defines all gives)
    (hbody : Tracks all gives scope body constructs)
    (hcondition : Tracks all gives scope condition conditions)
    (hlate : Tracks all gives (scope.restrict (loop_settles (constructs ++ conditions))) condition lates) :
    Tracks all gives scope ((body.or_else condition).converge max_fixpoint_iterations)
      (constructs ++ lates) where
  inflationary := (hbody.inflationary.or_else hcondition.inflationary).converge _
  frame name hname := by
    obtain ⟨hname, hname'⟩ := hname.of_append
    exact ((hbody.frame name hname).or_else (hlate.frame name hname')).converge _
  reached construct hmem hnoted := by
    obtain hmem | hmem := List.mem_append.mp hmem
    · exact hbody.reached construct hmem hnoted
    · have hreached := hlate.reached construct hmem hnoted
      simp only [Scope.restrict, Bool.and_eq_true] at hreached
      exact hreached.1
  accounts before after types hall h :=
    have hall' : all = before ++ (constructs ++ (lates ++ after)) := by rw [hall]; simp
    hbody.converge_late hjust hcondition.inflationary hcondition.frame hlate
      (fun types heq => by rw [heq]) hall' h

theorem visit_any_unchanged {local_names : List Name} {expressions : List Expr} {types : VariableTypes}
    (h : (visit_any local_names expressions types).1 = false) :
    visit_expressions local_names expressions types = visit_any local_names expressions types := by
  induction expressions generalizing types with
  | nil => rfl
  | cons expression rest ih =>
    simp only [visit_any] at h ⊢
    cases hflag : (visit_expression local_names expression types).1 with
    | true => rw [ChangeStep.or_else_of_changed hflag, hflag] at h; cases h
    | false =>
      rw [ChangeStep.or_else_of_unchanged hflag] at h ⊢
      simp only [visit_expressions, ChangeStep.seq, ih h, hflag, Bool.or_false]

theorem visit_any_inflationary (hjust : Justified defines all gives) (scope : Scope)
    (expressions : List Expr) : (visit_any scope.local_names expressions).Inflationary := by
  induction expressions with
  | nil => exact ChangeStep.inflationary_skip
  | cons expression rest ih => exact (visit_expression_tracks hjust scope expression).inflationary.or_else ih

theorem visit_any_frame (hjust : Justified defines all gives) (scope : Scope) (expressions : List Expr)
    {name : Name} (hname : NotesNone name (expressions_constructs scope expressions)) :
    (visit_any scope.local_names expressions).Keeps (SameAt name) := by
  induction expressions with
  | nil => exact ChangeStep.keeps_skip
  | cons expression rest ih =>
    obtain ⟨hname, hname'⟩ := hname.of_append
    exact ((visit_expression_tracks hjust scope expression).frame name hname).or_else (ih hname')

theorem Tracks.for_loop {scope : Scope} {body : Visit} {constructs : List Construct}
    (hjust : Justified defines all gives) (hbody : Tracks all gives scope body constructs)
    (condition : Option Expr) (update : List Expr) :
    Tracks all gives scope
      ((visit_option scope.local_names condition).seq
        (((body.or_else (visit_any scope.local_names update)).or_else
          (visit_option scope.local_names condition)).converge max_fixpoint_iterations))
      (option_constructs scope condition ++ (constructs ++
        expressions_constructs
          (scope.restrict
            (loop_settles (constructs ++ expressions_constructs scope update ++
              option_constructs scope condition)))
          update)) := by
  have hcondition := visit_option_tracks hjust scope condition
  have hupdate := visit_any_inflationary hjust scope update
  have hother := hupdate.or_else hcondition.inflationary
  have hlate := visit_expressions_tracks hjust
    (scope.restrict
      (loop_settles (constructs ++ (expressions_constructs scope update ++
        option_constructs scope condition)))) update
  rw [ChangeStep.or_else_assoc, List.append_assoc constructs]
  refine ⟨hcondition.inflationary.seq ((hbody.inflationary.or_else hother).converge _),
    fun name hname => ?_, fun construct hmem hnoted => ?_, fun before after types hall h => ?_⟩
  · obtain ⟨hcond, hname⟩ := hname.of_append
    obtain ⟨hbodies, hlates⟩ := hname.of_append
    have hany := visit_any_frame hjust _ update hlates
    exact (hcondition.frame name hcond).seq
      (((hbody.frame name hbodies).or_else (hany.or_else (hcondition.frame name hcond))).converge _)
  · obtain hmem | hmem := List.mem_append.mp hmem
    · exact hcondition.reached construct hmem hnoted
    · obtain hmem | hmem := List.mem_append.mp hmem
      · exact hbody.reached construct hmem hnoted
      · have hreached := hlate.reached construct hmem hnoted
        simp only [Scope.restrict, Bool.and_eq_true] at hreached
        exact hreached.1
  · rw [List.append_assoc] at hall
    have hfirst := hcondition.accounts before _ types hall h
    rw [← List.append_assoc]
    simp only [List.append_assoc] at hall
    rw [← List.append_assoc] at hall
    refine hbody.converge_late hjust hother (fun name hname => ?_) hlate (fun types heq => ?_) hall hfirst
    · obtain ⟨hupdates, hcond⟩ := hname.of_append
      exact (visit_any_frame hjust scope update hupdates).or_else (hcondition.frame name hcond)
    · have hany := (hupdate.of_or_else_eq heq).1
      show (visit_expressions scope.local_names update types).2 = types
      rw [visit_any_unchanged (by rw [hany]), hany]

theorem Tracks.for_in_loop {scope : Scope} {body : Visit} {constructs : List Construct} {name : Name}
    (h : Tracks all gives (scope.in_loop_over name) body constructs) :
    Tracks all gives scope (body.converge max_fixpoint_iterations) constructs where
  inflationary := h.inflationary.converge _
  frame other hother := (h.frame other hother).converge _
  reached := h.reached
  accounts before after types hall haccounts :=
    (h.accounts before after types hall haccounts).mono (h.inflationary.le_converge_succ 7 types)

mutual

theorem visit_statement_tracks (hjust : Justified defines all gives) :
    ∀ statement scope, Tracks all gives scope (visit_statement statement scope.local_names)
      (statement_constructs statement scope)
  | .assign target op value, scope =>
    ((visit_expression_tracks hjust scope value).seq
      (visit_lvalue_indexes_tracks hjust scope target)).seq
      (assigned_given_type op value ▸ note_lvalue_tracks hjust scope (assigned_given op value) target)
  | .expr value, scope => visit_expression_tracks hjust scope value
  | .print arguments redirect, scope | .printf arguments redirect, scope =>
    (visit_expressions_tracks hjust scope arguments).seq
      (visit_option_tracks hjust scope (redirect.map OutputRedirect.target))
  | .block statements, scope => visit_statements_tracks hjust statements scope
  | .if_stmt condition then_branch none, scope =>
    (visit_expression_tracks hjust scope condition).seq
      (visit_statement_tracks hjust then_branch scope)
  | .if_stmt condition then_branch (some else_branch), scope =>
    ((visit_expression_tracks hjust scope condition).seq
      (visit_statement_tracks hjust then_branch scope)).seq
      (visit_statement_tracks hjust else_branch scope)
  | .while_stmt condition body, scope =>
    (visit_expression_tracks hjust scope condition).while_loop (visit_statement_tracks hjust body scope)
  | .do_while body condition, scope =>
    (visit_statement_tracks hjust body scope).do_while_loop hjust
      (visit_expression_tracks hjust scope condition) (visit_expression_tracks hjust _ condition)
  | .for_stmt init condition update body, scope => by
    have hinit := visit_expressions_tracks hjust scope init
    have hloop := (visit_statement_tracks hjust body scope).for_loop hjust condition update
    have htracks := hinit.seq hloop
    simp only [visit_statement, statement_constructs, List.append_assoc] at htracks ⊢
    rwa [ChangeStep.seq_assoc]
  | .for_in name iterable body, scope =>
    ((visit_expression_tracks hjust scope iterable).seq
      (note_lvalue_tracks hjust scope .string (.name name))).seq
      (visit_statement_tracks hjust body (scope.in_loop_over name)).for_in_loop
  | .delete target, scope => visit_lvalue_indexes_tracks hjust scope target
  | .return_stmt value, scope => visit_option_tracks hjust scope value
  | .exit value, scope => (visit_option_tracks hjust (scope.restrict false) value).unvisited hjust
  | .break_stmt, scope | .continue_stmt, scope | .next, scope | .nextfile, scope => Tracks.skip scope

theorem visit_statements_tracks (hjust : Justified defines all gives) :
    ∀ statements scope, Tracks all gives scope (visit_statements statements scope.local_names)
      (statements_constructs statements scope)
  | [], scope => Tracks.skip scope
  | statement :: rest, scope =>
    (visit_statement_tracks hjust statement scope).seq (visit_statements_tracks hjust rest scope)

end

theorem visit_pattern_tracks (hjust : Justified defines all gives) :
    ∀ pattern, Tracks all gives ⟨[], [], true⟩ (visit_pattern pattern) (pattern_constructs pattern)
  | .expr test => visit_expression_tracks hjust ⟨[], [], true⟩ test
  | .range left right => (visit_pattern_tracks hjust left).seq (visit_pattern_tracks hjust right)
  | .begin_pattern | .end_pattern => Tracks.skip _

theorem Tracks.in_scope {scope scope' : Scope} {visit : Visit} {constructs : List Construct}
    (h : Tracks all gives scope visit constructs) (hreached : scope'.reached = true) :
    Tracks all gives scope' visit constructs where
  inflationary := h.inflationary
  frame := h.frame
  reached _ _ _ := hreached
  accounts := h.accounts

theorem visit_item_tracks (hjust : Justified defines all gives) (item : Item) :
    Tracks all gives ⟨[], [], true⟩ (visit_item item) (item_constructs item) := by
  cases item with
  | function definition =>
    exact (visit_statements_tracks hjust definition.body ⟨definition.params, [], true⟩).in_scope rfl
  | pattern_action pattern action =>
    refine Tracks.seq ?_ ?_
    · cases pattern with
      | none => exact Tracks.skip _
      | some pattern => exact visit_pattern_tracks hjust pattern
    · cases action with
      | none => exact Tracks.skip _
      | some action => exact visit_statements_tracks hjust action ⟨[], [], true⟩

theorem visit_items_tracks (hjust : Justified defines all gives) (items : List Item) :
    Tracks all gives ⟨[], [], true⟩ (visit_items items) (items_constructs items) := by
  induction items with
  | nil => exact Tracks.skip _
  | cons item rest ih => exact (visit_item_tracks hjust item).seq ih

end Tracks

/-- The inferred types account for every value given by a construct whose value comes through
leaves given their values earlier in the text. -/
theorem infer_variable_types_covers {defines : Name → Bool} {program : Program}
    {gives : Nat → Kind → Prop} (hjust : Justified defines (assigning_constructs program) gives)
    {position : Nat} {construct : Construct} {kind : Kind}
    (hget : (assigning_constructs program)[position]? = some construct) (hgives : gives position kind) :
    (infer_variable_types program construct.target).Covers kind := by
  have hvisit := (visit_items_tracks hjust program.items).accounts [] [] (fun _ => .unknown)
    (by simp [assigning_constructs]) (fun position hposition => absurd hposition (Nat.not_lt_zero _))
  refine hvisit position ?_ construct kind hget hgives
  obtain ⟨hlt, -⟩ := List.getElem?_eq_some_iff.mp hget
  exact hlt

/-- A scalar that is only given untyped values stays at `unknown`. -/
theorem infer_variable_types_of_notesNone {program : Program} {name : Name}
    (h : NotesNone name (assigning_constructs program)) : infer_variable_types program name = .unknown :=
  have hjust : Justified program.defines [] fun _ _ => False := fun _ _ _ hget => by simp at hget
  (visit_items_tracks hjust program.items).frame name h (fun _ => .unknown)

end quawk
