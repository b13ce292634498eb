import Mathlib.Data.Set.Basic

namespace AccessPath

/-- One access on a control-flow path. A gap marks a place where an analysis that does not follow
the path takes the named variables to be assigned, or leaves their accesses out. -/
inductive AccessEvent (α : Type) where
  | read (name : α)
  | write (name : α)
  | gap (names : List α)
  deriving DecidableEq

/-- The accesses on the paths through a piece of code. -/
abbrev AccessPaths (α : Type) := Set (List (AccessEvent α))

/-- How control leaves a statement. -/
inductive Outcome where
  | normal | broke | continued | left
  deriving DecidableEq, Repr

/-- The paths through a statement, each with the way it ends. -/
abbrev StatementPaths (α : Type) := Set (List (AccessEvent α) × Outcome)

variable {α : Type}

namespace AccessPaths

/-- The paths through two pieces of code, one after the other. -/
def seq (first second : AccessPaths α) : AccessPaths α :=
  {path | ∃ front ∈ first, ∃ back ∈ second, path = front ++ back}

theorem seq_nil (paths : AccessPaths α) : paths.seq {[]} = paths := by
  ext path
  constructor
  · rintro ⟨front, hfront, _, rfl, rfl⟩
    rwa [List.append_nil]
  · exact fun hpath => ⟨path, hpath, [], rfl, (List.append_nil path).symm⟩

theorem seq_singleton (front back : List (AccessEvent α)) :
    seq {front} {back} = {front ++ back} := by
  ext path
  constructor
  · rintro ⟨_, rfl, _, rfl, rfl⟩
    rfl
  · rintro rfl
    exact ⟨front, rfl, back, rfl, rfl⟩

end AccessPaths

namespace StatementPaths

def of_paths (paths : AccessPaths α) : StatementPaths α :=
  {run | run.1 ∈ paths ∧ run.2 = .normal}

def after_paths (first : AccessPaths α) (second : StatementPaths α) : StatementPaths α :=
  {run | ∃ front ∈ first, ∃ back, (back, run.2) ∈ second ∧ run.1 = front ++ back}

/-- The second statement is run only when the first ends normally. -/
def seq (first second : StatementPaths α) : StatementPaths α :=
  {run | (run ∈ first ∧ run.2 ≠ .normal) ∨
    ∃ front back, (front, Outcome.normal) ∈ first ∧ (back, run.2) ∈ second ∧ run.1 = front ++ back}

/-- The paths that end with control leaving the surrounding code. -/
def leaving (paths : AccessPaths α) : StatementPaths α :=
  {run | run.1 ∈ paths ∧ run.2 = .left}

end StatementPaths

/-- The events between the end of a loop body and the next iteration. -/
def on_body_end (on_continue : List (AccessEvent α)) : Outcome → List (AccessEvent α)
  | .continued => on_continue
  | _ => []

/-- The paths of a loop that tests before each iteration. -/
inductive LoopPath (test : AccessPaths α) (body : StatementPaths α) (on_continue : List (AccessEvent α))
    (step : AccessPaths α) : List (AccessEvent α) → Outcome → Prop where
  | stop {tested : List (AccessEvent α)} (htest : tested ∈ test) :
      LoopPath test body on_continue step tested .normal
  | broke {tested run : List (AccessEvent α)} (htest : tested ∈ test) (hbody : (run, Outcome.broke) ∈ body) :
      LoopPath test body on_continue step (tested ++ run) .normal
  | left {tested run : List (AccessEvent α)} (htest : tested ∈ test) (hbody : (run, Outcome.left) ∈ body) :
      LoopPath test body on_continue step (tested ++ run) .left
  | again {tested run stepped rest : List (AccessEvent α)} {outcome outcome' : Outcome}
      (htest : tested ∈ test) (hbody : (run, outcome) ∈ body)
      (hend : outcome = .normal ∨ outcome = .continued) (hstep : stepped ∈ step)
      (hrest : LoopPath test body on_continue step rest outcome') :
      LoopPath test body on_continue step
        (tested ++ (run ++ (on_body_end on_continue outcome ++ (stepped ++ rest)))) outcome'

/-- The paths of a loop that tests after each iteration. -/
inductive DoPath (test : AccessPaths α) (body : StatementPaths α) (on_continue : List (AccessEvent α)) :
    List (AccessEvent α) → Outcome → Prop where
  | broke {run : List (AccessEvent α)} (hbody : (run, Outcome.broke) ∈ body) :
      DoPath test body on_continue run .normal
  | left {run : List (AccessEvent α)} (hbody : (run, Outcome.left) ∈ body) :
      DoPath test body on_continue run .left
  | stop {run tested : List (AccessEvent α)} {outcome : Outcome} (hbody : (run, outcome) ∈ body)
      (hend : outcome = .normal ∨ outcome = .continued) (htest : tested ∈ test) :
      DoPath test body on_continue (run ++ (on_body_end on_continue outcome ++ tested)) .normal
  | again {run tested rest : List (AccessEvent α)} {outcome outcome' : Outcome}
      (hbody : (run, outcome) ∈ body) (hend : outcome = .normal ∨ outcome = .continued)
      (htest : tested ∈ test) (hrest : DoPath test body on_continue rest outcome') :
      DoPath test body on_continue
        (run ++ (on_body_end on_continue outcome ++ (tested ++ rest))) outcome'

section Untouched

variable {name : α}

/-- The name is neither read nor written on a path none of whose gaps concerns it. -/
def Untouched (name : α) (path : List (AccessEvent α)) : Prop :=
  (∀ names, .gap names ∈ path → name ∉ names) → .read name ∉ path ∧ .write name ∉ path

theorem Untouched.append {front back : List (AccessEvent α)} (h1 : Untouched name front)
    (h2 : Untouched name back) : Untouched name (front ++ back) := by
  intro hgaps
  obtain ⟨hread, hwrite⟩ := h1 fun names hmem => hgaps names (List.mem_append_left _ hmem)
  obtain ⟨hread', hwrite'⟩ := h2 fun names hmem => hgaps names (List.mem_append_right _ hmem)
  exact ⟨by simp [hread, hread'], by simp [hwrite, hwrite']⟩

theorem Untouched.nil : Untouched name ([] : List (AccessEvent α)) := fun _ => by simp

theorem Untouched.gap (names : List α) : Untouched name [.gap names] := fun _ => by simp

theorem Untouched.body_end (names : List α) (outcome : Outcome) :
    Untouched name (on_body_end [.gap names] outcome) := by
  cases outcome
  case continued => exact Untouched.gap names
  all_goals exact Untouched.nil

theorem Untouched.loop {test step : AccessPaths α} {body : StatementPaths α} {names : List α}
    (htest : ∀ path ∈ test, Untouched name path)
    (hbody : ∀ path outcome, (path, outcome) ∈ body → Untouched name path)
    (hstep : ∀ path ∈ step, Untouched name path) {path : List (AccessEvent α)} {outcome : Outcome}
    (hpath : LoopPath test body [.gap names] step path outcome) : Untouched name path := by
  induction hpath with
  | stop hmem => exact htest _ hmem
  | broke hmem hrun | left hmem hrun => exact (htest _ hmem).append (hbody _ _ hrun)
  | again hmem hrun _ hbetween _ ih =>
    exact (htest _ hmem).append ((hbody _ _ hrun).append ((Untouched.body_end _ _).append
      ((hstep _ hbetween).append ih)))

theorem Untouched.do_loop {test : AccessPaths α} {body : StatementPaths α} {names : List α}
    (htest : ∀ path ∈ test, Untouched name path)
    (hbody : ∀ path outcome, (path, outcome) ∈ body → Untouched name path)
    {path : List (AccessEvent α)} {outcome : Outcome}
    (hpath : DoPath test body [.gap names] path outcome) : Untouched name path := by
  induction hpath with
  | broke hrun | left hrun => exact hbody _ _ hrun
  | stop hrun _ hmem => exact (hbody _ _ hrun).append ((Untouched.body_end _ _).append (htest _ hmem))
  | again hrun _ hmem _ ih =>
    exact (hbody _ _ hrun).append ((Untouched.body_end _ _).append ((htest _ hmem).append ih))

end Untouched

section Definite

variable [DecidableEq α] (name : α)

/-- Whether the name has been assigned after the path. -/
def assigned_by (assigned : Bool) : List (AccessEvent α) → Bool
  | [] => assigned
  | .write other :: path => assigned_by (assigned || other = name) path
  | _ :: path => assigned_by assigned path

/-- Every read of the name comes after a write of it. -/
def ReadsAssigned (assigned : Bool) : List (AccessEvent α) → Prop
  | [] => True
  | .read other :: path => (other = name → assigned = true) ∧ ReadsAssigned assigned path
  | .write other :: path => ReadsAssigned (assigned || other = name) path
  | .gap _ :: path => ReadsAssigned assigned path

/-- At every gap that concerns the name it has been assigned. -/
def Heeds (assigned : Bool) : List (AccessEvent α) → Prop
  | [] => True
  | .read _ :: path => Heeds assigned path
  | .write other :: path => Heeds (assigned || other = name) path
  | .gap names :: path => (name ∈ names → assigned = true) ∧ Heeds assigned path

variable {name}

theorem assigned_by_append (assigned : Bool) (front back : List (AccessEvent α)) :
    assigned_by name assigned (front ++ back) =
      assigned_by name (assigned_by name assigned front) back := by
  induction front generalizing assigned with
  | nil => rfl
  | cons event front ih => cases event <;> exact ih _

theorem readsAssigned_append (assigned : Bool) (front back : List (AccessEvent α)) :
    ReadsAssigned name assigned (front ++ back) ↔
      ReadsAssigned name assigned front ∧
        ReadsAssigned name (assigned_by name assigned front) back := by
  induction front generalizing assigned with
  | nil => simp [ReadsAssigned, assigned_by]
  | cons event front ih =>
    cases event <;> simp [ReadsAssigned, assigned_by, ih, and_assoc]

theorem heeds_append (assigned : Bool) (front back : List (AccessEvent α)) :
    Heeds name assigned (front ++ back) ↔
      Heeds name assigned front ∧ Heeds name (assigned_by name assigned front) back := by
  induction front generalizing assigned with
  | nil => simp [Heeds, assigned_by]
  | cons event front ih =>
    cases event <;> simp [Heeds, assigned_by, ih, and_assoc]

theorem assigned_by_of_assigned (path : List (AccessEvent α)) : assigned_by name true path = true := by
  induction path with
  | nil => rfl
  | cons event path ih => cases event <;> simpa [assigned_by] using ih

theorem readsAssigned_of_assigned (path : List (AccessEvent α)) : ReadsAssigned name true path := by
  induction path with
  | nil => trivial
  | cons event path ih =>
    cases event with
    | read other => exact ⟨fun _ => rfl, ih⟩
    | write other => simpa [ReadsAssigned] using ih
    | gap names => exact ih

theorem readsAssigned_of_not_mem {path : List (AccessEvent α)} (h : .read name ∉ path) (assigned : Bool) :
    ReadsAssigned name assigned path := by
  induction path generalizing assigned with
  | nil => trivial
  | cons event path ih =>
    rw [List.mem_cons, not_or] at h
    cases event with
    | read other => exact ⟨fun heq => absurd (heq ▸ rfl) h.1, ih h.2 assigned⟩
    | write other => exact ih h.2 _
    | gap names => exact ih h.2 assigned

theorem assigned_by_of_not_mem {path : List (AccessEvent α)} (h : .write name ∉ path) (assigned : Bool) :
    assigned_by name assigned path = assigned := by
  induction path generalizing assigned with
  | nil => rfl
  | cons event path ih =>
    rw [List.mem_cons, not_or] at h
    cases event with
    | read other => exact ih h.2 assigned
    | write other =>
      have hne : other ≠ name := fun heq => h.1 (heq ▸ rfl)
      simpa [assigned_by, hne] using ih h.2 assigned
    | gap names => exact ih h.2 assigned

variable (name) in
/-- On every path that heeds the gaps, started with the name assigned when `before` holds, reads
come after writes, and the name is assigned at the end when `after` holds. -/
def Covers (before after : Prop) (paths : AccessPaths α) : Prop :=
  ∀ path ∈ paths, ∀ assigned : Bool, (before → assigned = true) → Heeds name assigned path →
    ReadsAssigned name assigned path ∧ (after → assigned_by name assigned path = true)

variable (name) in
def CoversStatement (before after : Prop) (paths : StatementPaths α) : Prop :=
  ∀ path outcome, (path, outcome) ∈ paths → ∀ assigned : Bool, (before → assigned = true) →
    Heeds name assigned path →
    ReadsAssigned name assigned path ∧
      (outcome = .normal → after → assigned_by name assigned path = true)

variable {before middle after before' after' : Prop}

theorem Covers.imp {paths : AccessPaths α} (h : Covers name before after paths)
    (hbefore : before → before') (hafter : after' → after) : Covers name before' after' paths := by
  intro path hpath assigned hassigned hheeds
  obtain ⟨hreads, hwritten⟩ := h path hpath assigned (hassigned ∘ hbefore) hheeds
  exact ⟨hreads, hwritten ∘ hafter⟩

theorem Covers.nil (h : after → before) : Covers name before after ({[]} : AccessPaths α) := by
  rintro path rfl assigned hassigned -
  exact ⟨trivial, hassigned ∘ h⟩

theorem Covers.seq {first second : AccessPaths α} (h1 : Covers name before middle first)
    (h2 : Covers name middle after second) : Covers name before after (first.seq second) := by
  rintro _ ⟨front, hfront, back, hback, rfl⟩ assigned hassigned hheeds
  rw [heeds_append] at hheeds
  obtain ⟨hreads1, hwritten1⟩ := h1 front hfront assigned hassigned hheeds.1
  obtain ⟨hreads2, hwritten2⟩ := h2 back hback _ hwritten1 hheeds.2
  rw [readsAssigned_append, assigned_by_append]
  exact ⟨⟨hreads1, hreads2⟩, hwritten2⟩

theorem Covers.union {first second : AccessPaths α} (h1 : Covers name before after first)
    (h2 : Covers name before after second) : Covers name before after (first ∪ second) := by
  rintro path (hpath | hpath)
  · exact h1 path hpath
  · exact h2 path hpath

theorem CoversStatement.imp {paths : StatementPaths α} (h : CoversStatement name before after paths)
    (hbefore : before → before') (hafter : after' → after) :
    CoversStatement name before' after' paths := by
  intro path outcome hpath assigned hassigned hheeds
  obtain ⟨hreads, hwritten⟩ := h path outcome hpath assigned (hassigned ∘ hbefore) hheeds
  exact ⟨hreads, fun hnormal => hwritten hnormal ∘ hafter⟩

/-- A name that was assigned before stays so. -/
theorem Covers.kept {paths : AccessPaths α} (h : Covers name before after paths) :
    Covers name before (before ∨ after) paths := by
  intro path hpath assigned hassigned hheeds
  obtain ⟨hreads, hwritten⟩ := h path hpath assigned hassigned hheeds
  refine ⟨hreads, fun hor => hor.elim (fun hbefore => ?_) hwritten⟩
  rw [hassigned hbefore, assigned_by_of_assigned]

theorem CoversStatement.kept {paths : StatementPaths α} (h : CoversStatement name before after paths) :
    CoversStatement name before (before ∨ after) paths := by
  intro path outcome hpath assigned hassigned hheeds
  obtain ⟨hreads, hwritten⟩ := h path outcome hpath assigned hassigned hheeds
  refine ⟨hreads, fun hnormal hor => hor.elim (fun hbefore => ?_) (hwritten hnormal)⟩
  rw [hassigned hbefore, assigned_by_of_assigned]

theorem Covers.of_paths {paths : AccessPaths α} (h : Covers name before after paths) :
    CoversStatement name before after (StatementPaths.of_paths paths) := by
  rintro path outcome ⟨hpath, -⟩ assigned hassigned hheeds
  obtain ⟨hreads, hwritten⟩ := h path hpath assigned hassigned hheeds
  exact ⟨hreads, fun _ => hwritten⟩

theorem Covers.leaving {paths : AccessPaths α} (h : Covers name before after paths) :
    CoversStatement name before after' (StatementPaths.leaving paths) := by
  rintro path outcome ⟨hpath, houtcome⟩ assigned hassigned hheeds
  obtain ⟨hreads, -⟩ := h path hpath assigned hassigned hheeds
  exact ⟨hreads, fun hnormal => absurd (houtcome.symm.trans hnormal) (by decide)⟩

theorem Covers.after_paths {first : AccessPaths α} {second : StatementPaths α}
    (h1 : Covers name before middle first) (h2 : CoversStatement name middle after second) :
    CoversStatement name before after (StatementPaths.after_paths first second) := by
  rintro _ outcome ⟨front, hfront, back, hback, rfl⟩ assigned hassigned hheeds
  rw [heeds_append] at hheeds
  obtain ⟨hreads1, hwritten1⟩ := h1 front hfront assigned hassigned hheeds.1
  obtain ⟨hreads2, hwritten2⟩ := h2 back outcome hback _ hwritten1 hheeds.2
  rw [readsAssigned_append, assigned_by_append]
  exact ⟨⟨hreads1, hreads2⟩, hwritten2⟩

theorem CoversStatement.seq {first second : StatementPaths α}
    (h1 : CoversStatement name before middle first) (h2 : CoversStatement name middle after second) :
    CoversStatement name before after (first.seq second) := by
  rintro path outcome (⟨hpath, hnormal⟩ | ⟨front, back, hfront, hback, rfl⟩) assigned hassigned hheeds
  · obtain ⟨hreads, -⟩ := h1 path outcome hpath assigned hassigned hheeds
    exact ⟨hreads, fun h => absurd h hnormal⟩
  · rw [heeds_append] at hheeds
    obtain ⟨hreads1, hwritten1⟩ := h1 front .normal hfront assigned hassigned hheeds.1
    obtain ⟨hreads2, hwritten2⟩ := h2 back outcome hback _ (hwritten1 rfl) hheeds.2
    rw [readsAssigned_append, assigned_by_append]
    exact ⟨⟨hreads1, hreads2⟩, hwritten2⟩

theorem CoversStatement.union {first second : StatementPaths α}
    (h1 : CoversStatement name before after first) (h2 : CoversStatement name before after second) :
    CoversStatement name before after (first ∪ second) := by
  rintro path outcome (hpath | hpath)
  · exact h1 path outcome hpath
  · exact h2 path outcome hpath

/-- A loop whose gaps before the next iteration make up for what a `continue` jumps over. -/
theorem Covers.loop {test step : AccessPaths α} {body : StatementPaths α} {names : List α}
    {tested stepped : Prop} (htest : Covers name before tested test)
    (hbody : CoversStatement name tested middle body)
    (hstep : Covers name middle stepped step) (hjump : middle → tested ∨ name ∈ names)
    {path : List (AccessEvent α)} {outcome : Outcome}
    (hpath : LoopPath test body [.gap names] step path outcome) {assigned : Bool}
    (hassigned : before → assigned = true) (hheeds : Heeds name assigned path) :
    ReadsAssigned name assigned path ∧
      (outcome = .normal → tested → assigned_by name assigned path = true) := by
  induction hpath generalizing assigned with
  | stop hmem =>
    obtain ⟨hreads, hwritten⟩ := htest _ hmem assigned hassigned hheeds
    exact ⟨hreads, fun _ => hwritten⟩
  | broke hmem hrun | left hmem hrun =>
    rw [heeds_append] at hheeds
    obtain ⟨hreads, hwritten⟩ := htest _ hmem assigned hassigned hheeds.1
    obtain ⟨hreads', -⟩ := hbody _ _ hrun _ hwritten hheeds.2
    rw [readsAssigned_append, assigned_by_append]
    refine ⟨⟨hreads, hreads'⟩, fun _ htested => ?_⟩
    rw [hwritten htested, assigned_by_of_assigned]
  | @again front run between rest ending outcome hmem hrun hend hbetween hrest ih =>
    simp only [heeds_append] at hheeds
    obtain ⟨htests, hruns, hgap, hsteps, hrests⟩ := hheeds
    obtain ⟨hread_test, hwritten⟩ := htest _ hmem assigned hassigned htests
    obtain ⟨hread_body, hwritten'⟩ := hbody _ _ hrun _ hwritten hruns
    have hmiddle : middle → assigned_by name (assigned_by name (assigned_by name assigned front) run)
        (on_body_end [.gap names] ending) = true := by
      intro hmid
      obtain rfl | rfl := hend
      · exact hwritten' rfl hmid
      · obtain htested | hname := hjump hmid
        · rw [hwritten htested, assigned_by_of_assigned, assigned_by_of_assigned]
        · exact hgap.1 hname
    have hread_end : ReadsAssigned name (assigned_by name (assigned_by name assigned front) run)
        (on_body_end [.gap names] ending) := by
      obtain rfl | rfl := hend <;> trivial
    obtain ⟨hread_step, -⟩ := hstep _ hbetween _ hmiddle hsteps
    obtain ⟨hread_rest, hwritten_rest⟩ := ih
      (fun hb => by rw [hassigned hb]; simp only [assigned_by_of_assigned]) hrests
    simp only [readsAssigned_append, assigned_by_append]
    exact ⟨⟨hread_test, hread_body, hread_end, hread_step, hread_rest⟩, hwritten_rest⟩

theorem Covers.do_loop {test : AccessPaths α} {body : StatementPaths α} {names : List α}
    (hbody : CoversStatement name before middle body) (htest : Covers name middle after test)
    (hjump : middle → before ∨ name ∈ names) {path : List (AccessEvent α)} {outcome : Outcome}
    (hpath : DoPath test body [.gap names] path outcome) {assigned : Bool}
    (hassigned : before → assigned = true) (hheeds : Heeds name assigned path) :
    ReadsAssigned name assigned path := by
  have hmiddle : ∀ {run : List (AccessEvent α)} {ending : Outcome} {assigned : Bool},
      (run, ending) ∈ body → ending = .normal ∨ ending = .continued → (before → assigned = true) →
      Heeds name assigned run → Heeds name (assigned_by name assigned run) (on_body_end [.gap names] ending) →
      middle → assigned_by name (assigned_by name assigned run) (on_body_end [.gap names] ending) = true := by
    rintro run ending assigned hrun (rfl | rfl) hassigned hruns hgap hmid
    · exact (hbody _ _ hrun assigned hassigned hruns).2 rfl hmid
    · obtain hb | hname := hjump hmid
      · rw [hassigned hb, assigned_by_of_assigned, assigned_by_of_assigned]
      · exact hgap.1 hname
  have hread_end : ∀ (assigned : Bool) {ending : Outcome}, ending = .normal ∨ ending = .continued →
      ReadsAssigned name assigned (on_body_end [.gap names] ending) := by
    rintro assigned ending (rfl | rfl) <;> trivial
  induction hpath generalizing assigned with
  | broke hrun | left hrun => exact (hbody _ _ hrun assigned hassigned hheeds).1
  | stop hrun hend hmem =>
    simp only [heeds_append] at hheeds
    obtain ⟨hruns, hgap, htests⟩ := hheeds
    simp only [readsAssigned_append]
    exact ⟨(hbody _ _ hrun assigned hassigned hruns).1, hread_end _ hend,
      (htest _ hmem _ (hmiddle hrun hend hassigned hruns hgap) htests).1⟩
  | again hrun hend hmem hrest ih =>
    simp only [heeds_append] at hheeds
    obtain ⟨hruns, hgap, htests, hrests⟩ := hheeds
    simp only [readsAssigned_append]
    refine ⟨(hbody _ _ hrun assigned hassigned hruns).1, hread_end _ hend,
      (htest _ hmem _ (hmiddle hrun hend hassigned hruns hgap) htests).1, ih (fun hb => ?_) hrests⟩
    rw [hassigned hb]
    simp only [assigned_by_of_assigned]

variable (name) in
/-- The values the reads of the name return, when it starts as `cell` and the writes store the
successive `values`. -/
def values_read {β : Type} : (Nat → β) → β → List (AccessEvent α) → List β
  | _, _, [] => []
  | values, cell, .read other :: path =>
    if other = name then cell :: values_read values cell path else values_read values cell path
  | values, cell, .write other :: path =>
    if other = name then values_read (fun index => values (index + 1)) (values 0) path
    else values_read values cell path
  | values, cell, .gap _ :: path => values_read values cell path

/-- What a name held before a path does not show when every read comes after a write. -/
theorem ReadsAssigned.values_read_eq {β : Type} {assigned : Bool} {path : List (AccessEvent α)}
    (h : ReadsAssigned name assigned path) (values : Nat → β) {cell cell' : β}
    (hcell : assigned = true → cell = cell') :
    values_read name values cell path = values_read name values cell' path := by
  induction path generalizing assigned values cell cell' with
  | nil => rfl
  | cons event path ih =>
    cases event with
    | read other =>
      simp only [values_read]
      split_ifs with hother
      · rw [hcell (h.1 hother), ih h.2 values fun _ => rfl]
      · exact ih h.2 values hcell
    | write other =>
      simp only [values_read]
      split_ifs with hother
      · rfl
      · exact ih h values (by simpa [hother] using hcell)
    | gap names => exact ih h values hcell

end Definite

end AccessPath
