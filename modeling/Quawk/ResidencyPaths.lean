import Quawk.ControlPaths

open AccessPath

namespace quawk

variable {tracked : Finset Name}

@[simp] theorem combine_results_after (assigned_after : Finset Name) (results : List (AnalysisResult tracked)) :
    (combine_results assigned_after results).assigned_after = assigned_after := by
  cases results <;> rfl

theorem mem_combine_read_before {assigned_after : Finset Name} {results : List (AnalysisResult tracked)}
    {name : Name} :
    name ∈ (combine_results assigned_after results).read_before_assignment_names ↔
      ∃ result ∈ results, name ∈ result.read_before_assignment_names := by
  induction results with
  | nil => simp [combine_results, empty_result]
  | cons result results ih =>
    simp only [combine_results, List.foldr_cons, AnalysisResult.merge, Finset.mem_union] at ih ⊢
    rw [ih]
    simp

theorem mem_combine_encountered {assigned_after : Finset Name} {results : List (AnalysisResult tracked)}
    {name : Name} :
    name ∈ (combine_results assigned_after results).encountered_names ↔
      ∃ result ∈ results, name ∈ result.encountered_names := by
  induction results with
  | nil => simp [combine_results, empty_result]
  | cons result results ih =>
    simp only [combine_results, List.foldr_cons, AnalysisResult.merge, Finset.mem_union] at ih ⊢
    rw [ih]
    simp

section Names

variable {name other : Name} {assigned : Finset Name} {bound : List Name} {prior : Bool}

@[simp] theorem read_name_after : (read_name tracked other assigned bound).assigned_after = assigned := by
  unfold read_name
  split_ifs <;> rfl

theorem mem_read_name_read_before (htracked : name ∈ tracked) :
    name ∈ (read_name tracked other assigned bound).read_before_assignment_names ↔
      other ∉ bound ∧ other = name ∧ name ∉ assigned := by
  unfold read_name
  split_ifs with hskip hassigned <;> simp [empty_result] <;> grind

theorem mem_read_name_encountered (htracked : name ∈ tracked) :
    name ∈ (read_name tracked other assigned bound).encountered_names ↔ other ∉ bound ∧ other = name := by
  unfold read_name
  split_ifs with hskip <;> simp [empty_result] <;> grind

theorem mem_assign_name_after (htracked : name ∈ tracked) :
    name ∈ (assign_name tracked other assigned bound prior).assigned_after ↔
      name ∈ assigned ∨ other ∉ bound ∧ other = name := by
  unfold assign_name
  split_ifs with hskip <;> simp [empty_result] <;> grind

theorem mem_assign_name_read_before (htracked : name ∈ tracked) :
    name ∈ (assign_name tracked other assigned bound prior).read_before_assignment_names ↔
      other ∉ bound ∧ other = name ∧ prior = true ∧ name ∉ assigned := by
  unfold assign_name
  split_ifs with hskip hprior <;> simp [empty_result] <;> grind

theorem mem_assign_name_encountered (htracked : name ∈ tracked) :
    name ∈ (assign_name tracked other assigned bound prior).encountered_names ↔
      other ∉ bound ∧ other = name := by
  unfold assign_name
  split_ifs with hskip <;> simp [empty_result] <;> grind

end Names

section Names

variable {name : Name} {front back : List (AccessEvent Name)}

theorem mem_written_append :
    name ∈ written_names (front ++ back) ↔ name ∈ written_names front ∨ name ∈ written_names back := by
  simp [written_names]

theorem mem_touched_append :
    name ∈ touched_names (front ++ back) ↔ name ∈ touched_names front ∨ name ∈ touched_names back := by
  simp [touched_names]

theorem mem_written_names : name ∈ written_names front ↔ .write name ∈ front := by
  unfold written_names
  rw [List.mem_filterMap]
  constructor
  · rintro ⟨event, hmem, heq⟩
    cases event <;> simp_all
  · exact fun hmem => ⟨_, hmem, rfl⟩

theorem mem_touched_names : name ∈ touched_names front ↔ .read name ∈ front ∨ .write name ∈ front := by
  unfold touched_names
  rw [List.mem_filterMap]
  constructor
  · rintro ⟨event, hmem, heq⟩
    cases event <;> simp_all
  · rintro (hmem | hmem)
    · exact ⟨_, hmem, rfl⟩
    · exact ⟨_, hmem, rfl⟩

/-- A piece of path that at most writes one scalar. -/
def OnlyWrites (events : List (AccessEvent Name)) : Prop :=
  events = [] ∨ ∃ name, events = [.write name]

theorem scalar_event_onlyWrites (bound : List Name) (other : Name) :
    OnlyWrites (scalar_event bound other (.write other)) := by
  unfold scalar_event
  split_ifs
  · exact Or.inl rfl
  · exact Or.inr ⟨other, rfl⟩

theorem write_event_onlyWrites (bound : List Name) (target : LValue) :
    OnlyWrites (write_event bound target) := by
  cases target with
  | name other => exact scalar_event_onlyWrites bound other
  | array _ _ => exact Or.inl rfl
  | field _ => exact Or.inl rfl

theorem substitute_write_onlyWrites (bound : List Name) (function : Name) (args : List Expr) :
    OnlyWrites (substitute_write bound function args) := by
  unfold substitute_write
  split_ifs
  · cases substitute_target args with
    | none => exact Or.inl rfl
    | some target => exact write_event_onlyWrites bound target
  · exact Or.inl rfl

end Names

structure Analyzed (name : Name) (assigned : Finset Name) (result : AnalysisResult tracked)
    (events : List (AccessEvent Name)) (paths : AccessPaths Name) : Prop where
  after : name ∈ result.assigned_after → name ∈ assigned ∨ name ∈ written_names events
  within : ∀ path ∈ paths, .read name ∈ path ∨ .write name ∈ path → name ∈ touched_names events
  covers : name ∉ result.read_before_assignment_names →
    Covers name (name ∈ assigned) (name ∈ result.assigned_after) paths
  untouched : name ∉ result.encountered_names → ∀ path ∈ paths, Untouched name path

structure AnalyzedStatement (name : Name) (assigned : Finset Name) (result : AnalysisResult tracked)
    (events : List (AccessEvent Name)) (paths : StatementPaths Name) : Prop where
  after : name ∈ result.assigned_after → name ∈ assigned ∨ name ∈ written_names events
  covers : name ∉ result.read_before_assignment_names →
    CoversStatement name (name ∈ assigned) (name ∈ result.assigned_after) paths
  untouched : name ∉ result.encountered_names →
    ∀ path outcome, (path, outcome) ∈ paths → Untouched name path

section Pieces

variable {name : Name} {assigned : Finset Name}
  {first second third : AnalysisResult tracked} {events events' events'' : List (AccessEvent Name)}
  {paths paths' paths'' : AccessPaths Name}

theorem Analyzed.empty :
    Analyzed name assigned (empty_result assigned : AnalysisResult tracked) [] {[]} where
  after := Or.inl
  within := by
    rintro _ rfl (h | h) <;> cases h
  covers _ := Covers.nil id
  untouched _ := by
    rintro _ rfl
    exact Untouched.nil

theorem Analyzed.seq (h1 : Analyzed name assigned first events paths)
    (h2 : Analyzed name first.assigned_after second events' paths') :
    Analyzed name assigned (combine_results second.assigned_after [first, second])
      (events ++ events') (paths.seq paths') where
  after hmem := by
    rw [combine_results_after] at hmem
    rw [mem_written_append]
    obtain hmem | hmem := h2.after hmem
    · exact (h1.after hmem).imp_right Or.inl
    · exact Or.inr (Or.inr hmem)
  within := by
    rintro _ ⟨front, hfront, back, hback, rfl⟩ hmem
    simp only [List.mem_append, mem_touched_append] at hmem ⊢
    have := h1.within front hfront
    have := h2.within back hback
    tauto
  covers hread := by
    simp only [mem_combine_read_before, List.mem_cons, List.not_mem_nil, or_false, exists_eq_or_imp,
      exists_eq_left, not_or] at hread
    rw [combine_results_after]
    exact (h1.covers hread.1).seq (h2.covers hread.2)
  untouched hencountered := by
    simp only [mem_combine_encountered, List.mem_cons, List.not_mem_nil, or_false, exists_eq_or_imp,
      exists_eq_left, not_or] at hencountered
    rintro _ ⟨front, hfront, back, hback, rfl⟩
    exact (h1.untouched hencountered.1 front hfront).append (h2.untouched hencountered.2 back hback)

/-- The right operand of a short circuit; skipping it leaves a gap. -/
theorem Analyzed.skippable (h : Analyzed name assigned first events paths) :
    Analyzed name assigned first events ({[AccessEvent.gap (written_names events)]} ∪ paths) where
  after := h.after
  within := by
    rintro path (rfl | hpath) hmem
    · simp at hmem
    · exact h.within path hpath hmem
  covers hread := by
    refine Covers.union ?_ (h.covers hread)
    rintro path rfl known hassigned hheeds
    refine ⟨trivial, fun hafter => ?_⟩
    exact (h.after hafter).elim hassigned hheeds.1
  untouched hencountered := by
    rintro path (rfl | hpath)
    · exact Untouched.gap _
    · exact h.untouched hencountered path hpath

theorem covers_string_write {before : Prop} (hwrites : OnlyWrites events) :
    Covers name before before {string_write events} := by
  rintro _ rfl known hassigned -
  obtain rfl | ⟨other, rfl⟩ := hwrites
  · exact ⟨trivial, hassigned⟩
  · exact ⟨trivial, fun hbefore => by simp [string_write, assigned_by, hassigned hbefore]⟩

theorem untouched_string_write (hwrites : OnlyWrites events) : Untouched name (string_write events) := by
  intro hgaps
  have hout := hgaps _ (List.mem_cons_self ..)
  rw [mem_written_names] at hout
  obtain rfl | ⟨other, rfl⟩ := hwrites
  · simp [string_write]
  · simpa [string_write] using hout

/-- The analysis does not count the writes of `getline`, `sub` and for-in targets. -/
theorem Analyzed.target_write (h : Analyzed name assigned first events paths)
    (hwrites : OnlyWrites events') :
    Analyzed name assigned first (events ++ events') (paths.seq {string_write events'}) where
  after hmem := (h.after hmem).imp_right fun hmem => mem_written_append.mpr (Or.inl hmem)
  within := by
    rintro _ ⟨front, hfront, back, rfl, rfl⟩ hmem
    have hin := h.within front hfront
    have hback : AccessEvent.read name ∈ events' ∨ .write name ∈ events' → name ∈ touched_names events' :=
      mem_touched_names.mpr
    simp only [string_write, List.mem_append, List.mem_cons, reduceCtorEq, false_or,
      mem_touched_append] at hmem ⊢
    tauto
  covers hread := (h.covers hread).seq (covers_string_write hwrites)
  untouched hencountered := by
    rintro _ ⟨front, hfront, back, rfl, rfl⟩
    exact (h.untouched hencountered front hfront).append (untouched_string_write hwrites)

theorem Analyzed.read (htracked : name ∈ tracked) (other : Name) (bound : List Name) :
    Analyzed name assigned (read_name tracked other assigned bound)
      (scalar_event bound other (.read other)) {scalar_event bound other (.read other)} := by
  refine ⟨fun hmem => Or.inl (by simpa using hmem), ?_, fun hread => ?_, fun hencountered => ?_⟩
  · rintro _ rfl hmem
    exact mem_touched_names.mpr hmem
  · rw [mem_read_name_read_before htracked] at hread
    rintro _ rfl known hassigned -
    rw [read_name_after]
    by_cases hbound : other ∈ bound
    · rw [scalar_event, if_pos hbound]
      exact ⟨trivial, hassigned⟩
    · rw [scalar_event, if_neg hbound]
      refine ⟨⟨fun heq => hassigned ?_, trivial⟩, hassigned⟩
      by_contra hout
      exact hread ⟨hbound, heq, hout⟩
  · rw [mem_read_name_encountered htracked] at hencountered
    rintro _ rfl -
    by_cases hbound : other ∈ bound
    · simp [scalar_event, hbound]
    · have hother : name ≠ other := fun heq => hencountered ⟨hbound, heq.symm⟩
      simp [scalar_event, hbound, hother]

theorem covers_onlyWrites {before : Prop} (hwrites : OnlyWrites events) :
    Covers name before (before ∨ name ∈ written_names events) {events} := by
  rintro _ rfl known hassigned -
  obtain rfl | ⟨other, rfl⟩ := hwrites
  · exact ⟨trivial, fun hafter => hassigned (hafter.resolve_right (by simp [written_names]))⟩
  · refine ⟨trivial, ?_⟩
    rintro (hbefore | hmem)
    · simp [assigned_by, hassigned hbefore]
    · simp [assigned_by, mem_written_names.mp hmem |> List.mem_singleton.mp |> AccessEvent.write.inj]

/-- The scalar a compound assignment reads, or a plain one only writes. -/
def assigned_scalar (bound : List Name) : LValue → Option Name
  | .name name => if name ∈ bound then none else some name
  | _ => none

theorem write_event_eq (bound : List Name) (target : LValue) :
    write_event bound target = ((assigned_scalar bound target).map AccessEvent.write).toList := by
  cases target with
  | name other => by_cases h : other ∈ bound <;> simp [write_event, scalar_event, assigned_scalar, h]
  | array _ _ => rfl
  | field _ => rfl

theorem mem_written_scalar_event {other : Name} {bound : List Name} :
    name ∈ written_names (scalar_event bound other (.write other)) ↔ other ∉ bound ∧ other = name := by
  rw [mem_written_names]
  by_cases h : other ∈ bound <;> simp [scalar_event, h, eq_comm]

theorem assign_target_after {target : LValue} {op : AssignOp} {bound : List Name} (htracked : name ∈ tracked)
    (h : name ∈ (assign_target tracked target op first second bound).assigned_after) :
    name ∈ second.assigned_after ∨ name ∈ written_names (write_event bound target) := by
  cases target with
  | array _ _ => exact Or.inl (by simpa [assign_target] using h)
  | field _ => exact Or.inl (by simpa [assign_target] using h)
  | name other =>
    rw [assign_target, combine_results_after, mem_assign_name_after htracked] at h
    exact h.imp_right mem_written_scalar_event.mpr

theorem not_read_before_assign_target {target : LValue} {op : AssignOp} {bound : List Name}
    (htracked : name ∈ tracked)
    (h : name ∉ (assign_target tracked target op first second bound).read_before_assignment_names) :
    name ∉ first.read_before_assignment_names ∧ name ∉ second.read_before_assignment_names ∧
      (op ≠ .plain → assigned_scalar bound target = some name → name ∈ second.assigned_after) := by
  cases target with
  | array _ _ => simpa [assign_target, mem_combine_read_before, assigned_scalar] using h
  | field _ => simpa [assign_target, mem_combine_read_before, assigned_scalar] using h
  | name other =>
    simp only [assign_target, mem_combine_read_before, List.mem_cons, List.not_mem_nil, or_false,
      exists_eq_or_imp, exists_eq_left, not_or] at h
    refine ⟨h.1, h.2.1, fun hop hscalar => ?_⟩
    obtain ⟨hbound, rfl⟩ : other ∉ bound ∧ other = name := by
      simpa [assigned_scalar] using hscalar
    by_contra hout
    exact h.2.2 ((mem_assign_name_read_before htracked).mpr ⟨hbound, rfl, by simpa using hop, hout⟩)

theorem not_encountered_assign_target {target : LValue} {op : AssignOp} {bound : List Name}
    (htracked : name ∈ tracked)
    (h : name ∉ (assign_target tracked target op first second bound).encountered_names) :
    name ∉ first.encountered_names ∧ name ∉ second.encountered_names ∧
      assigned_scalar bound target ≠ some name := by
  cases target with
  | array _ _ => simpa [assign_target, mem_combine_encountered, assigned_scalar] using h
  | field _ => simpa [assign_target, mem_combine_encountered, assigned_scalar] using h
  | name other =>
    simp only [assign_target, mem_combine_encountered, List.mem_cons, List.not_mem_nil, or_false,
      exists_eq_or_imp, exists_eq_left, not_or] at h
    refine ⟨h.1, h.2.1, fun hscalar => ?_⟩
    obtain ⟨hbound, rfl⟩ : other ∉ bound ∧ other = name := by
      simpa [assigned_scalar] using hscalar
    exact h.2.2 ((mem_assign_name_encountered htracked).mpr ⟨hbound, rfl⟩)

theorem mem_early_read (name : Name) (bound : List Name) (op : AssignOp) (value : Expr) (target : LValue) :
    (.read name ∈ early_read bound op value target ↔
      op ≠ .plain ∧ assigned_scalar bound target = some name) ∧
    .write name ∉ early_read bound op value target := by
  cases target with
  | array _ _ => simp [early_read, assigned_scalar]
  | field _ => simp [early_read, assigned_scalar]
  | name other =>
    by_cases h : op = .plain ∨ other ∈ bound
    · simp only [early_read, if_pos h, List.not_mem_nil, false_iff, not_and, not_false_eq_true, and_true]
      rintro hop hscalar
      simp [assigned_scalar, h.resolve_left hop] at hscalar
    · rw [not_or] at h
      simp [early_read, assigned_scalar, h.1, h.2, eq_comm]

theorem Analyzed.assign_expression {target : LValue} {op : AssignOp} {value : Expr} {bound : List Name}
    (htracked : name ∈ tracked) (hindex : Analyzed name assigned first events paths)
    (hvalue : Analyzed name first.assigned_after second (accesses bound value) paths') :
    Analyzed name assigned (assign_target tracked target op first second bound)
      (events ++ accesses bound value ++ write_event bound target)
      (((paths.seq {early_read bound op value target}).seq paths').seq {write_event bound target}) where
  after hmem := by
    simp only [mem_written_append]
    obtain hmem | hmem := assign_target_after htracked hmem
    · obtain hmem | hmem := hvalue.after hmem
      · exact (hindex.after hmem).imp_right fun h => Or.inl (Or.inl h)
      · exact Or.inr (Or.inl (Or.inr hmem))
    · exact Or.inr (Or.inr hmem)
  within := by
    rintro _ ⟨_, ⟨_, ⟨front, hfront, _, rfl, rfl⟩, back, hback, rfl⟩, _, rfl, rfl⟩ hmem
    have hin := hindex.within front hfront
    have hin' := hvalue.within back hback
    have hearly := mem_early_read name bound op value target
    have hwrite : name ∈ touched_names (write_event bound target) ↔ assigned_scalar bound target = some name := by
      rw [mem_touched_names, write_event_eq]
      cases assigned_scalar bound target <;> simp [eq_comm]
    have hwritten : .write name ∈ write_event bound target ∨ .read name ∈ write_event bound target →
        name ∈ touched_names (write_event bound target) := fun h => mem_touched_names.mpr h.symm
    simp only [List.mem_append, mem_touched_append] at hmem ⊢
    tauto
  covers hread := by
    obtain ⟨hread, hread', hprior⟩ := not_read_before_assign_target htracked hread
    have hearly : Covers name (name ∈ first.assigned_after) (name ∈ first.assigned_after)
        {early_read bound op value target} := by
      rintro _ rfl known hassigned hheeds
      cases target with
      | array _ _ => exact ⟨trivial, hassigned⟩
      | field _ => exact ⟨trivial, hassigned⟩
      | name other =>
        by_cases h : op = .plain ∨ other ∈ bound
        · simp only [early_read, if_pos h]
          exact ⟨trivial, hassigned⟩
        · simp only [early_read, if_neg h] at hheeds ⊢
          rw [not_or] at h
          refine ⟨⟨?_, trivial⟩, hassigned⟩
          rintro rfl
          have hscalar : assigned_scalar bound (.name other) = some other := by
            simp [assigned_scalar, h.2]
          obtain hmem | hmem := hvalue.after (hprior h.1 hscalar)
          · exact hassigned hmem
          · exact hheeds.1 (by simpa using hmem)
    exact (((hindex.covers hread).seq hearly).seq (hvalue.covers hread')).seq
      ((covers_onlyWrites (write_event_onlyWrites bound target)).imp id (assign_target_after htracked))
  untouched hencountered := by
    obtain ⟨hindexes, hvalues, hscalar⟩ := not_encountered_assign_target htracked hencountered
    rintro _ ⟨_, ⟨_, ⟨front, hfront, _, rfl, rfl⟩, back, hback, rfl⟩, _, rfl, rfl⟩
    have hearly := mem_early_read name bound op value target
    refine (((hindex.untouched hindexes front hfront).append fun _ => ?_).append
      (hvalue.untouched hvalues back hback)).append fun _ => ?_
    · exact ⟨fun hmem => hscalar (hearly.1.mp hmem).2, hearly.2⟩
    · rw [write_event_eq]
      cases heq : assigned_scalar bound target with
      | none => simp
      | some other =>
        rw [heq, ne_eq, Option.some.injEq] at hscalar
        simp [Ne.symm hscalar]

theorem mem_late_read (name : Name) (bound : List Name) (op : AssignOp) (target : LValue) :
    (.read name ∈ late_read bound op target ↔
      op ≠ .plain ∧ assigned_scalar bound target = some name) ∧
    .write name ∉ late_read bound op target := by
  cases target with
  | array _ _ => simp [late_read, assigned_scalar]
  | field _ => simp [late_read, assigned_scalar]
  | name other =>
    by_cases hop : op = .plain <;> by_cases hbound : other ∈ bound <;>
      simp [late_read, scalar_event, assigned_scalar, hop, hbound, eq_comm]

theorem Analyzed.assign_statement {target : LValue} {op : AssignOp} {bound : List Name}
    (htracked : name ∈ tracked) (hindex : Analyzed name assigned first events paths)
    (hvalue : Analyzed name first.assigned_after second events' paths') :
    AnalyzedStatement name assigned (assign_target tracked target op first second bound)
      (events ++ events' ++ write_event bound target)
      (.of_paths (((paths.seq paths').seq {late_read bound op target}).seq {write_event bound target})) where
  after hmem := by
    simp only [mem_written_append]
    obtain hmem | hmem := assign_target_after htracked hmem
    · obtain hmem | hmem := hvalue.after hmem
      · exact (hindex.after hmem).imp_right fun h => Or.inl (Or.inl h)
      · exact Or.inr (Or.inl (Or.inr hmem))
    · exact Or.inr (Or.inr hmem)
  covers hread := by
    obtain ⟨hread, hread', hprior⟩ := not_read_before_assign_target htracked hread
    have hlate : Covers name (name ∈ second.assigned_after) (name ∈ second.assigned_after)
        {late_read bound op target} := by
      rintro _ rfl known hassigned -
      cases target with
      | array _ _ => exact ⟨trivial, hassigned⟩
      | field _ => exact ⟨trivial, hassigned⟩
      | name other =>
        by_cases hop : op = .plain
        · simp only [late_read, if_pos hop]
          exact ⟨trivial, hassigned⟩
        · by_cases hbound : other ∈ bound
          · simp only [late_read, if_neg hop, scalar_event, if_pos hbound]
            exact ⟨trivial, hassigned⟩
          · simp only [late_read, if_neg hop, scalar_event, if_neg hbound]
            refine ⟨⟨?_, trivial⟩, hassigned⟩
            rintro rfl
            exact hassigned (hprior hop (by simp [assigned_scalar, hbound]))
    exact ((((hindex.covers hread).seq (hvalue.covers hread')).seq hlate).seq
      ((covers_onlyWrites (write_event_onlyWrites bound target)).imp id (assign_target_after htracked))).of_paths
  untouched hencountered := by
    obtain ⟨hindexes, hvalues, hscalar⟩ := not_encountered_assign_target htracked hencountered
    rintro _ outcome ⟨⟨_, ⟨_, ⟨front, hfront, back, hback, rfl⟩, _, rfl, rfl⟩, _, rfl, rfl⟩, -⟩
    have hlate := mem_late_read name bound op target
    refine (((hindex.untouched hindexes front hfront).append
      (hvalue.untouched hvalues back hback)).append fun _ => ?_).append fun _ => ?_
    · exact ⟨fun hmem => hscalar (hlate.1.mp hmem).2, hlate.2⟩
    · rw [write_event_eq]
      cases heq : assigned_scalar bound target with
      | none => simp
      | some other =>
        rw [heq, ne_eq, Option.some.injEq] at hscalar
        simp [Ne.symm hscalar]

theorem Analyzed.write (htracked : name ∈ tracked) (other : Name) (bound : List Name) :
    Analyzed name assigned (assign_name tracked other assigned bound false)
      (scalar_event bound other (.write other)) {scalar_event bound other (.write other)} := by
  have hafter : name ∈ (assign_name tracked other assigned bound false).assigned_after →
      name ∈ assigned ∨ name ∈ written_names (scalar_event bound other (.write other)) := fun hmem =>
    ((mem_assign_name_after htracked).mp hmem).imp_right mem_written_scalar_event.mpr
  refine ⟨hafter, ?_, fun _ => ?_, fun hencountered => ?_⟩
  · rintro _ rfl hmem
    exact mem_touched_names.mpr hmem
  · exact (covers_onlyWrites (scalar_event_onlyWrites bound other)).imp id hafter
  · rw [mem_assign_name_encountered htracked] at hencountered
    rintro _ rfl -
    by_cases hbound : other ∈ bound
    · simp [scalar_event, hbound]
    · have hother : name ≠ other := fun heq => hencountered ⟨hbound, heq.symm⟩
      simp [scalar_event, hbound, hother]

theorem Analyzed.increment (htracked : name ∈ tracked) (other : Name) (bound : List Name) :
    Analyzed name assigned (increment_name tracked other assigned bound)
      (increment_events bound other) {increment_events bound other} := by
  rw [increment_events, ← AccessPaths.seq_singleton]
  exact (Analyzed.read htracked other bound).seq (Analyzed.write htracked other bound)

theorem Analyzed.conditional (htest : Analyzed name assigned first events paths)
    (htrue : Analyzed name first.assigned_after second events' paths')
    (hfalse : Analyzed name first.assigned_after third events'' paths'') :
    Analyzed name assigned
      (combine_results (second.assigned_after ∩ third.assigned_after) [first, second, third])
      (events ++ events' ++ events'') (paths.seq (paths' ∪ paths'')) where
  after hmem := by
    rw [combine_results_after, Finset.mem_inter] at hmem
    simp only [mem_written_append]
    obtain hmem | hmem := htrue.after hmem.1
    · exact (htest.after hmem).imp_right fun h => Or.inl (Or.inl h)
    · exact Or.inr (Or.inl (Or.inr hmem))
  within := by
    rintro _ ⟨front, hfront, back, hback | hback, rfl⟩ hmem
    · have hin := htest.within front hfront
      have hin' := htrue.within back hback
      simp only [List.mem_append, mem_touched_append] at hmem ⊢
      tauto
    · have hin := htest.within front hfront
      have hin' := hfalse.within back hback
      simp only [List.mem_append, mem_touched_append] at hmem ⊢
      tauto
  covers hread := by
    simp only [mem_combine_read_before, List.mem_cons, List.not_mem_nil, or_false, exists_eq_or_imp,
      exists_eq_left, not_or] at hread
    rw [combine_results_after, Finset.mem_inter]
    exact (htest.covers hread.1).seq
      (((htrue.covers hread.2.1).imp id And.left).union ((hfalse.covers hread.2.2).imp id And.right))
  untouched hencountered := by
    simp only [mem_combine_encountered, List.mem_cons, List.not_mem_nil, or_false, exists_eq_or_imp,
      exists_eq_left, not_or] at hencountered
    rintro _ ⟨front, hfront, back, hback | hback, rfl⟩
    · exact (htest.untouched hencountered.1 front hfront).append
        (htrue.untouched hencountered.2.1 back hback)
    · exact (htest.untouched hencountered.1 front hfront).append
        (hfalse.untouched hencountered.2.2 back hback)

end Pieces

section Statements

variable {name : Name} {assigned : Finset Name}
  {first second third : AnalysisResult tracked} {events events' events'' : List (AccessEvent Name)}
  {paths paths' : AccessPaths Name} {runs runs' : StatementPaths Name}

theorem Analyzed.statement (h : Analyzed name assigned first events paths) :
    AnalyzedStatement name assigned first events (.of_paths paths) where
  after := h.after
  covers hread := (h.covers hread).of_paths
  untouched hencountered path _ hpath := h.untouched hencountered path hpath.1

theorem AnalyzedStatement.seq (h1 : AnalyzedStatement name assigned first events runs)
    (h2 : AnalyzedStatement name first.assigned_after second events' runs') :
    AnalyzedStatement name assigned (combine_results second.assigned_after [first, second])
      (events ++ events') (runs.seq runs') where
  after hmem := by
    rw [combine_results_after] at hmem
    rw [mem_written_append]
    obtain hmem | hmem := h2.after hmem
    · exact (h1.after hmem).imp_right Or.inl
    · exact Or.inr (Or.inr hmem)
  covers hread := by
    simp only [mem_combine_read_before, List.mem_cons, List.not_mem_nil, or_false, exists_eq_or_imp,
      exists_eq_left, not_or] at hread
    rw [combine_results_after]
    exact (h1.covers hread.1).seq (h2.covers hread.2)
  untouched hencountered := by
    simp only [mem_combine_encountered, List.mem_cons, List.not_mem_nil, or_false, exists_eq_or_imp,
      exists_eq_left, not_or] at hencountered
    rintro path outcome (⟨hpath, -⟩ | ⟨front, back, hfront, hback, rfl⟩)
    · exact h1.untouched hencountered.1 path outcome hpath
    · exact (h1.untouched hencountered.1 front _ hfront).append
        (h2.untouched hencountered.2 back outcome hback)

/-- An expression, and then a statement that may be skipped. -/
theorem Analyzed.guard (h1 : Analyzed name assigned first events paths)
    (h2 : AnalyzedStatement name first.assigned_after second events' runs) :
    AnalyzedStatement name assigned
      (combine_results (first.assigned_after ∩ second.assigned_after) [first, second])
      (events ++ events') (.after_paths paths (.of_paths {[]} ∪ runs)) where
  after hmem := by
    rw [combine_results_after, Finset.mem_inter] at hmem
    exact (h1.after hmem.1).imp_right fun h => mem_written_append.mpr (Or.inl h)
  covers hread := by
    simp only [mem_combine_read_before, List.mem_cons, List.not_mem_nil, or_false, exists_eq_or_imp,
      exists_eq_left, not_or] at hread
    rw [combine_results_after, Finset.mem_inter]
    exact (h1.covers hread.1).after_paths
      ((Covers.nil And.left).of_paths.union ((h2.covers hread.2).imp id And.right))
  untouched hencountered := by
    simp only [mem_combine_encountered, List.mem_cons, List.not_mem_nil, or_false, exists_eq_or_imp,
      exists_eq_left, not_or] at hencountered
    rintro _ outcome ⟨front, hfront, back, ⟨rfl, -⟩ | hback, rfl⟩
    · exact (h1.untouched hencountered.1 front hfront).append Untouched.nil
    · exact (h1.untouched hencountered.1 front hfront).append
        (h2.untouched hencountered.2 back outcome hback)

/-- An expression, and then one of two statements. -/
theorem Analyzed.branch (htest : Analyzed name assigned first events paths)
    (htrue : AnalyzedStatement name first.assigned_after second events' runs)
    (hfalse : AnalyzedStatement name first.assigned_after third events'' runs') :
    AnalyzedStatement name assigned
      (combine_results (second.assigned_after ∩ third.assigned_after) [first, second, third])
      (events ++ events' ++ events'') (.after_paths paths (runs ∪ runs')) where
  after hmem := by
    rw [combine_results_after, Finset.mem_inter] at hmem
    simp only [mem_written_append]
    obtain hmem | hmem := htrue.after hmem.1
    · exact (htest.after hmem).imp_right fun h => Or.inl (Or.inl h)
    · exact Or.inr (Or.inl (Or.inr hmem))
  covers hread := by
    simp only [mem_combine_read_before, List.mem_cons, List.not_mem_nil, or_false, exists_eq_or_imp,
      exists_eq_left, not_or] at hread
    rw [combine_results_after, Finset.mem_inter]
    exact (htest.covers hread.1).after_paths
      (((htrue.covers hread.2.1).imp id And.left).union ((hfalse.covers hread.2.2).imp id And.right))
  untouched hencountered := by
    simp only [mem_combine_encountered, List.mem_cons, List.not_mem_nil, or_false, exists_eq_or_imp,
      exists_eq_left, not_or] at hencountered
    rintro _ outcome ⟨front, hfront, back, hback | hback, rfl⟩
    · exact (htest.untouched hencountered.1 front hfront).append
        (htrue.untouched hencountered.2.1 back outcome hback)
    · exact (htest.untouched hencountered.1 front hfront).append
        (hfalse.untouched hencountered.2.2 back outcome hback)

theorem Analyzed.while_loop (htest : Analyzed name assigned first events paths)
    (hbody : AnalyzedStatement name first.assigned_after second events' runs) :
    AnalyzedStatement name assigned (combine_results first.assigned_after [first, second])
      (events ++ events') {run | LoopPath paths runs [.gap []] {[]} run.1 run.2} where
  after hmem := by
    rw [combine_results_after] at hmem
    exact (htest.after hmem).imp_right fun h => mem_written_append.mpr (Or.inl h)
  covers hread := by
    simp only [mem_combine_read_before, List.mem_cons, List.not_mem_nil, or_false, exists_eq_or_imp,
      exists_eq_left, not_or] at hread
    intro path outcome hpath known hassigned hheeds
    rw [combine_results_after]
    exact Covers.loop (htest.covers hread.1) ((hbody.covers hread.2).imp id False.elim) (Covers.nil id)
      (fun hnever : False => hnever.elim) hpath hassigned hheeds
  untouched hencountered := by
    simp only [mem_combine_encountered, List.mem_cons, List.not_mem_nil, or_false, exists_eq_or_imp,
      exists_eq_left, not_or] at hencountered
    intro path outcome hpath
    refine Untouched.loop (htest.untouched hencountered.1) (hbody.untouched hencountered.2) ?_ hpath
    rintro _ rfl
    exact Untouched.nil

theorem AnalyzedStatement.do_loop (hbody : AnalyzedStatement name assigned first events runs)
    (htest : Analyzed name first.assigned_after second events' paths) :
    AnalyzedStatement name assigned (combine_results assigned [first, second])
      (events ++ events') {run | DoPath paths runs [.gap (written_names events)] run.1 run.2} where
  after hmem := by
    rw [combine_results_after] at hmem
    exact Or.inl hmem
  covers hread := by
    simp only [mem_combine_read_before, List.mem_cons, List.not_mem_nil, or_false, exists_eq_or_imp,
      exists_eq_left, not_or] at hread
    intro path outcome hpath known hassigned hheeds
    refine ⟨Covers.do_loop (hbody.covers hread.1) (htest.covers hread.2) hbody.after hpath hassigned
      hheeds, fun _ hafter => ?_⟩
    rw [combine_results_after] at hafter
    rw [hassigned hafter, assigned_by_of_assigned]
  untouched hencountered := by
    simp only [mem_combine_encountered, List.mem_cons, List.not_mem_nil, or_false, exists_eq_or_imp,
      exists_eq_left, not_or] at hencountered
    intro path outcome hpath
    exact Untouched.do_loop (htest.untouched hencountered.2) (hbody.untouched hencountered.1) hpath

theorem Analyzed.for_loop (hinit : Analyzed name assigned first events paths)
    {condition update : AnalysisResult tracked} {conditions updates : List (AccessEvent Name)}
    {tests steps : AccessPaths Name}
    (hcondition : Analyzed name first.assigned_after condition conditions tests)
    (hbody : AnalyzedStatement name condition.assigned_after second events' runs)
    (hupdate : Analyzed name second.assigned_after update updates steps) :
    AnalyzedStatement name assigned
      (combine_results condition.assigned_after [first, condition, second, update])
      (events ++ conditions ++ events' ++ updates)
      (.after_paths paths {run | LoopPath tests runs [.gap (written_names events')] steps run.1 run.2}) where
  after hmem := by
    rw [combine_results_after] at hmem
    simp only [mem_written_append]
    obtain hmem | hmem := hcondition.after hmem
    · exact (hinit.after hmem).imp_right fun h => Or.inl (Or.inl (Or.inl h))
    · exact Or.inr (Or.inl (Or.inl (Or.inr hmem)))
  covers hread := by
    simp only [mem_combine_read_before, List.mem_cons, List.not_mem_nil, or_false, exists_eq_or_imp,
      exists_eq_left, not_or] at hread
    rw [combine_results_after]
    exact (hinit.covers hread.1).after_paths fun path outcome hpath known hassigned hheeds =>
      Covers.loop (hcondition.covers hread.2.1) (hbody.covers hread.2.2.1) (hupdate.covers hread.2.2.2)
        hbody.after hpath hassigned hheeds
  untouched hencountered := by
    simp only [mem_combine_encountered, List.mem_cons, List.not_mem_nil, or_false, exists_eq_or_imp,
      exists_eq_left, not_or] at hencountered
    rintro _ outcome ⟨front, hfront, back, hback, rfl⟩
    exact (hinit.untouched hencountered.1 front hfront).append
      (Untouched.loop (hcondition.untouched hencountered.2.1) (hbody.untouched hencountered.2.2.1)
        (hupdate.untouched hencountered.2.2.2) hback)

theorem Analyzed.for_in_loop (hiterable : Analyzed name assigned first events paths)
    (hwrites : OnlyWrites events'')
    (hbody : AnalyzedStatement name first.assigned_after second events' runs) :
    AnalyzedStatement name assigned (combine_results first.assigned_after [first, second])
      (events ++ events'' ++ events')
      (.after_paths paths {run | LoopPath {[]} (.after_paths {string_write events''} runs) [.gap []] {[]}
        run.1 run.2}) where
  after hmem := by
    rw [combine_results_after] at hmem
    simp only [mem_written_append]
    exact (hiterable.after hmem).imp_right fun h => Or.inl (Or.inl h)
  covers hread := by
    simp only [mem_combine_read_before, List.mem_cons, List.not_mem_nil, or_false, exists_eq_or_imp,
      exists_eq_left, not_or] at hread
    rw [combine_results_after]
    refine (hiterable.covers hread.1).after_paths fun path outcome hpath known hassigned hheeds => ?_
    exact Covers.loop (Covers.nil id)
      (((covers_string_write hwrites).after_paths (hbody.covers hread.2)).imp id False.elim)
      (Covers.nil id) (fun hnever : False => hnever.elim) hpath hassigned hheeds
  untouched hencountered := by
    simp only [mem_combine_encountered, List.mem_cons, List.not_mem_nil, or_false, exists_eq_or_imp,
      exists_eq_left, not_or] at hencountered
    rintro _ outcome ⟨front, hfront, back, hback, rfl⟩
    refine (hiterable.untouched hencountered.1 front hfront).append
      (Untouched.loop ?_ ?_ ?_ hback)
    · rintro _ rfl
      exact Untouched.nil
    · rintro _ _ ⟨_, rfl, run, hrun, rfl⟩
      exact (untouched_string_write hwrites).append (hbody.untouched hencountered.2 run _ hrun)
    · rintro _ rfl
      exact Untouched.nil

/-- `print` computes its redirect target first, though the analysis comes to it last. -/
theorem Analyzed.redirect (harguments : Analyzed name assigned first events paths)
    (htarget : Analyzed name first.assigned_after second events' paths') :
    Analyzed name assigned (combine_results second.assigned_after [first, second]) (events ++ events')
      ((({[AccessEvent.gap ((written_names events).filter (· ∈ touched_names events'))]} :
        AccessPaths Name).seq paths').seq paths) where
  after := (harguments.seq htarget).after
  within := by
    rintro _ ⟨_, ⟨_, rfl, back, hback, rfl⟩, front, hfront, rfl⟩ hmem
    refine (harguments.seq htarget).within (front ++ back) ⟨front, hfront, back, hback, rfl⟩ ?_
    simp only [List.mem_append, List.mem_singleton, reduceCtorEq, false_or] at hmem ⊢
    tauto
  covers hread := by
    simp only [mem_combine_read_before, List.mem_cons, List.not_mem_nil, or_false, exists_eq_or_imp,
      exists_eq_left, not_or] at hread
    rw [combine_results_after]
    rintro _ ⟨_, ⟨_, rfl, back, hback, rfl⟩, front, hfront, rfl⟩ known hassigned hheeds
    rw [List.append_assoc, List.singleton_append] at hheeds ⊢
    simp only [Heeds, ReadsAssigned, assigned_by, heeds_append, readsAssigned_append,
      assigned_by_append] at hheeds ⊢
    obtain ⟨hgap, htargets, harguments'⟩ := hheeds
    by_cases htouched : name ∈ touched_names events'
    · have hbefore : name ∈ first.assigned_after → known = true := fun hmem =>
        (harguments.after hmem).elim hassigned fun hwritten =>
          hgap (List.mem_filter.mpr ⟨hwritten, by simpa using htouched⟩)
      obtain ⟨hreads, hwritten⟩ := htarget.covers hread.2 back hback known hbefore htargets
      have hkept : name ∈ assigned → assigned_by name known back = true := fun hmem => by
        rw [hassigned hmem, assigned_by_of_assigned]
      refine ⟨⟨hreads, (harguments.covers hread.1 front hfront _ hkept harguments').1⟩, fun hmem => ?_⟩
      rw [hwritten hmem, assigned_by_of_assigned]
    · have hnone := fun h => htouched (htarget.within back hback h)
      have hsame : assigned_by name known back = known :=
        assigned_by_of_not_mem (fun h => hnone (Or.inr h)) known
      have hreads : ReadsAssigned name known back :=
        readsAssigned_of_not_mem (fun h => hnone (Or.inl h)) known
      rw [hsame] at harguments' ⊢
      obtain ⟨hreads', hwritten⟩ := harguments.covers hread.1 front hfront known hassigned harguments'
      refine ⟨⟨hreads, hreads'⟩, fun hmem => hwritten ?_⟩
      exact (htarget.after hmem).resolve_right fun h =>
        htouched (mem_touched_names.mpr (Or.inr (mem_written_names.mp h)))
  untouched hencountered := by
    simp only [mem_combine_encountered, List.mem_cons, List.not_mem_nil, or_false, exists_eq_or_imp,
      exists_eq_left, not_or] at hencountered
    rintro _ ⟨_, ⟨_, rfl, back, hback, rfl⟩, front, hfront, rfl⟩
    exact ((Untouched.gap _).append (htarget.untouched hencountered.2 back hback)).append
      (harguments.untouched hencountered.1 front hfront)

/-- The analysis leaves exit values out; a gap with all names of the value stands for it. -/
theorem Analyzed.exit (h : Analyzed name assigned first events paths) :
    AnalyzedStatement name assigned (empty_result assigned : AnalysisResult tracked) events
      (.leaving (({[AccessEvent.gap (touched_names events)]} : AccessPaths Name).seq paths)) where
  after := Or.inl
  covers _ := by
    rintro _ outcome ⟨⟨_, rfl, back, hback, rfl⟩, rfl⟩ known hassigned hheeds
    refine ⟨?_, fun hnormal => absurd hnormal (by decide)⟩
    by_cases htouched : name ∈ touched_names events
    · rw [hheeds.1 htouched]
      exact readsAssigned_of_assigned _
    · refine readsAssigned_of_not_mem (fun hmem => htouched (h.within back hback (Or.inl ?_))) known
      simpa using hmem
  untouched _ := by
    rintro _ outcome ⟨⟨_, rfl, back, hback, rfl⟩, -⟩ hgaps
    have hout := hgaps _ (List.mem_cons_self ..)
    have hnone := fun hmem => hout (h.within back hback hmem)
    simp only [List.mem_append, List.mem_singleton, reduceCtorEq, false_or]
    exact ⟨fun hmem => hnone (Or.inl hmem), fun hmem => hnone (Or.inr hmem)⟩

theorem Analyzed.leaving (h : Analyzed name assigned first events paths) :
    AnalyzedStatement name assigned first events (.leaving paths) where
  after := h.after
  covers hread := (h.covers hread).leaving
  untouched hencountered path _ hpath := h.untouched hencountered path hpath.1

theorem AnalyzedStatement.jump {outcome : Outcome} (houtcome : outcome ≠ .normal) :
    AnalyzedStatement name assigned (empty_result assigned : AnalysisResult tracked) []
      {run : List (AccessEvent Name) × Outcome | run.1 = [] ∧ run.2 = outcome} where
  after := Or.inl
  covers _ := by
    rintro _ _ ⟨rfl, rfl⟩ known - -
    exact ⟨trivial, fun hnormal => absurd hnormal houtcome⟩
  untouched _ := by
    rintro _ _ ⟨rfl, -⟩
    exact Untouched.nil

end Statements

end quawk
