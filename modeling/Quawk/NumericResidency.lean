import Quawk.NumericMeaning
import Quawk.ResidencyPaths

namespace quawk

open StructuredCode (Operands)
open StatefulRun (Result Run)
open StatefulRun.Run (Alike Coupled)

section Forgetting

variable {R : Runtime} {α β : Type} {forgotten assigned gained known : Finset Name}

/-- Two states that differ at most in the forgotten variables that are not known. -/
structure AgreeBut (forgotten known : Finset Name) (first second : NumericState R) : Prop where
  numbers : ∀ name, (name ∈ forgotten → name ∈ known) → first.numbers name = second.numbers name
  active : first.active = second.active
  world : first.world = second.world
  exit_requested : first.exit_requested = second.exit_requested
  exit_status : first.exit_status = second.exit_status

theorem AgreeBut.mono {fewer : Finset Name} {first second : NumericState R} (h : AgreeBut forgotten known first second)
    (hfewer : ∀ name ∈ forgotten, name ∈ fewer → name ∈ known) : AgreeBut forgotten fewer first second where
  numbers name hname := h.numbers name fun hmem => hfewer name hmem (hname hmem)
  active := h.active
  world := h.world
  exit_requested := h.exit_requested
  exit_status := h.exit_status

theorem AgreeBut.refl (state : NumericState R) : AgreeBut forgotten known state state :=
  ⟨fun _ _ => rfl, rfl, rfl, rfl, rfl⟩

theorem AgreeBut.trans {first second third : NumericState R} (h1 : AgreeBut forgotten known first second)
    (h2 : AgreeBut forgotten known second third) : AgreeBut forgotten known first third :=
  ⟨fun name hname => (h1.numbers name hname).trans (h2.numbers name hname), h1.active.trans h2.active,
    h1.world.trans h2.world, h1.exit_requested.trans h2.exit_requested, h1.exit_status.trans h2.exit_status⟩

/-- A run that only reads variables known to agree: from two states that agree where it starts, it does the same
and gains the knowledge of more variables. -/
def Insensitive (forgotten assigned gained : Finset Name) (meaning : Meaning R α) : Prop :=
  ∀ known, assigned ⊆ known →
    Coupled (AgreeBut forgotten known) meaning meaning (fun _ => AgreeBut forgotten (known ∪ gained)) (AgreeBut forgotten ∅)

theorem agree_of_subset {first second : NumericState R} (h : AgreeBut forgotten known first second)
    (hsubset : assigned ⊆ known) : AgreeBut forgotten (known ∪ assigned) first second :=
  h.mono fun _ _ hmem => (Finset.mem_union.mp hmem).elim id fun hassigned => hsubset hassigned

theorem AgreeBut.forget {first second : NumericState R} (h : AgreeBut forgotten known first second) :
    AgreeBut forgotten ∅ first second :=
  h.mono fun _ _ hmem => absurd hmem (Finset.notMem_empty _)

theorem Insensitive.pure (value : α) : Insensitive (R := R) forgotten assigned assigned (Pure.pure value) :=
  fun _ hsubset => .pure fun _ _ h => agree_of_subset h hsubset

theorem Insensitive.crash : Insensitive (R := R) (α := α) forgotten assigned gained Run.crash :=
  fun _ _ => .crash fun _ _ h => h.forget

theorem Insensitive.bind {later : Finset Name} {meaning : Meaning R α} {next : α → Meaning R β}
    (h : Insensitive forgotten assigned gained meaning) (hnext : ∀ value, Insensitive forgotten gained later (next value)) :
    Insensitive forgotten assigned later (meaning >>= next) := by
  intro known hsubset
  refine (h known hsubset).bind fun value => ?_
  refine (hnext value (known ∪ gained) Finset.subset_union_right).mono (fun _ _ h => h) (fun _ _ _ h => ?_) fun _ _ h => h
  refine h.mono fun name _ hmem => ?_
  simp only [Finset.mem_union] at hmem ⊢
  tauto

theorem Insensitive.weaken (fewer : Finset Name) {meaning : Meaning R α} (h : Insensitive forgotten assigned gained meaning)
    (hfewer : ∀ name ∈ forgotten, name ∈ fewer → name ∈ gained ∨ name ∈ assigned) :
    Insensitive forgotten assigned fewer meaning := by
  intro known hsubset
  refine (h known hsubset).mono (fun _ _ h => h) (fun _ _ _ h => h.mono fun name hforgotten hmem => ?_) fun _ _ h => h
  rw [Finset.mem_union] at hmem ⊢
  obtain hknown | hmem := hmem
  · exact .inl hknown
  · exact (hfewer name hforgotten hmem).symm.imp_left fun hassigned => hsubset hassigned

theorem Insensitive.branch {other : Finset Name} {condition : Prop} [Decidable condition] {first second : Meaning R α}
    (htrue : Insensitive forgotten assigned gained first) (hfalse : Insensitive forgotten assigned other second) :
    Insensitive forgotten assigned (gained ∩ other) (if condition then first else second) := by
  have hfirst := htrue.weaken (gained ∩ other) fun _ _ hmem => .inl (Finset.mem_inter.mp hmem).1
  have hsecond := hfalse.weaken (gained ∩ other) fun _ _ hmem => .inl (Finset.mem_inter.mp hmem).2
  exact fun known hsubset => .branch (fun _ => hfirst known hsubset) fun _ => hsecond known hsubset

theorem Insensitive.call {types : List Ty} {type : Ty} (f : Op types type) (operands : Operands (Value R.Number) types) :
    Insensitive forgotten assigned assigned (runtime_call f operands) := by
  intro known hsubset first second h
  have hagree : AgreeBut forgotten known { first with world := (R.perform f operands second.world).2 }
      { second with world := (R.perform f operands second.world).2 } :=
    ⟨h.numbers, h.active, rfl, h.exit_requested, h.exit_status⟩
  unfold runtime_call
  rw [h.world]
  exact .value (agree_of_subset hagree hsubset)

theorem Insensitive.read {name : Name} (h : name ∈ forgotten → name ∈ assigned) :
    Insensitive (R := R) forgotten assigned assigned (read_number name) := by
  intro known hsubset first second hagree
  unfold read_number
  rw [hagree.numbers name fun hmem => hsubset (h hmem)]
  exact .value (agree_of_subset hagree hsubset)

theorem Insensitive.write {name : Name} (value : R.Number)
    (h : ∀ other ∈ forgotten, other ∈ gained → other ∈ assigned ∨ other = name) :
    Insensitive forgotten assigned gained (write_number name value) := by
  intro known hsubset first second hagree
  refine .value ⟨fun other hother => ?_, hagree.active, hagree.world, hagree.exit_requested, hagree.exit_status⟩
  simp only [Function.update_apply]
  split
  · rfl
  · next hne =>
    refine hagree.numbers other fun hmem => ?_
    obtain hknown | hgained := Finset.mem_union.mp (hother hmem)
    · exact hknown
    · exact hsubset ((h other hmem hgained).resolve_right hne)

end Forgetting

section Expressions

variable {tracked : Finset Name} (forgotten : Finset Name)

/-- No forgotten variable is read before it is assigned. -/
def AssignedFirst (result : AnalysisResult tracked) : Prop := ∀ name ∈ forgotten, name ∉ result.read_before_assignment_names

instance (result : AnalysisResult tracked) : Decidable (AssignedFirst forgotten result) :=
  inferInstanceAs (Decidable (∀ name ∈ forgotten, _))

variable (tracked)

/-- The right operand of `&&` and `||` counts as evaluated in the analysis; it must assign no forgotten variable that
is read later. -/
def heeds_expression : Expr → Finset Name → Bool
  | .field index, assigned => heeds_expression index assigned
  | .call _ [argument], assigned => heeds_expression argument assigned
  | .binary left op right, assigned =>
    let after_left := (analyze_expression tracked [] left assigned).assigned_after
    heeds_expression left assigned && heeds_expression right after_left &&
      (operator_of_numbers op ||
        decide (∀ name ∈ forgotten, name ∈ (analyze_expression tracked [] right after_left).assigned_after → name ∈ after_left))
  | .conditional test if_true if_false, assigned =>
    let after_test := (analyze_expression tracked [] test assigned).assigned_after
    heeds_expression test assigned && heeds_expression if_true after_test && heeds_expression if_false after_test
  | .assign (.name _) _ value, assigned => heeds_expression value assigned
  | .unary _ operand, assigned => heeds_expression operand assigned
  | _, _ => true

variable {tracked forgotten}

theorem AssignedFirst.combine {assigned_after : Finset Name} {results : List (AnalysisResult tracked)} :
    AssignedFirst forgotten (combine_results assigned_after results) ↔ ∀ result ∈ results, AssignedFirst forgotten result := by
  simp only [AssignedFirst, mem_combine_read_before, not_exists, not_and]
  exact ⟨fun h result hmem name hname => h name hname result hmem, fun h name hname result hmem => h result hmem name hname⟩

variable {R : Runtime} (arithmetic : NumberArithmetic R) {assigned gained later : Finset Name}

theorem truth_of_insensitive {meaning : Meaning R R.Number} (h : Insensitive forgotten assigned gained meaning) :
    Insensitive forgotten assigned gained (truth_of arithmetic meaning) := h.bind fun _ => .pure _

theorem operation_insensitive {op : BinaryOp} {left right : Meaning R R.Number}
    (hleft : Insensitive forgotten assigned gained left) (hright : Insensitive forgotten gained later right)
    (hskipped : operator_of_numbers op = true ∨ ∀ name ∈ forgotten, name ∈ later → name ∈ gained) :
    Insensitive forgotten assigned later (operation arithmetic op left right) := by
  have hlogical (decided : Bool) (hskipped : ∀ name ∈ forgotten, name ∈ later → name ∈ gained) :
      Insensitive forgotten assigned later (logical arithmetic decided left right) := by
    refine (truth_of_insensitive arithmetic hleft).bind fun holds => ?_
    have hboth : Insensitive forgotten gained (gained ∩ later) (if holds = decided then pure (arithmetic.of_bool decided)
        else truth_of arithmetic right >>= fun holds => pure (arithmetic.of_bool holds)) :=
      .branch (.pure _) ((truth_of_insensitive arithmetic hright).bind fun holds => .pure _)
    exact hboth.weaken _ fun name hname hmem =>
      .inl (Finset.mem_inter.mpr ⟨hskipped name hname hmem, hmem⟩)
  have hplain : Insensitive forgotten assigned later (do
      let left ← left
      let right ← right
      pure (arithmetic.binary op left right)) := hleft.bind fun _ => hright.bind fun _ => .pure _
  cases op <;> first
    | exact hplain
    | exact hlogical _ (hskipped.resolve_left (by decide))
    | exact .crash

theorem field_number_insensitive (index : Int) : Insensitive (R := R) forgotten assigned assigned (field_number index) :=
  (Insensitive.call _ _).bind fun _ => (Insensitive.call _ _).bind fun _ => .call _ _

/-- A name that is read here is known, or not forgotten. -/
theorem settled_read (htracked : forgotten ⊆ tracked) {name : Name}
    (h : AssignedFirst forgotten (read_name tracked name assigned [])) (hmem : name ∈ forgotten) : name ∈ assigned := by
  by_contra hnot
  exact h name hmem ((mem_read_name_read_before (htracked hmem)).mpr ⟨List.not_mem_nil, rfl, hnot⟩)

theorem assign_number_insensitive (htracked : forgotten ⊆ tracked) {name : Name} {op : AssignOp} (update : R.Number)
    (h : AssignedFirst forgotten (assign_name tracked name assigned [] (op ≠ .plain))) :
    Insensitive forgotten assigned (assign_name tracked name assigned [] (op ≠ .plain)).assigned_after
      (assign_number arithmetic name op update) := by
  have hgained : ∀ other ∈ forgotten, other ∈ (assign_name tracked name assigned [] (op ≠ .plain)).assigned_after →
      other ∈ assigned ∨ other = name := fun other hother hmem =>
    ((mem_assign_name_after (htracked hother)).mp hmem).imp_right fun heq => heq.2.symm
  by_cases hop : op = .plain
  · -- A plain assignment looks at the old number only to drop it.
    subst hop
    exact (Insensitive.write update hgained).bind fun _ => .pure update
  · have hread : name ∈ forgotten → name ∈ assigned := by
      intro hmem
      by_contra hnot
      exact h name hmem ((mem_assign_name_read_before (htracked hmem)).mpr
        ⟨List.not_mem_nil, rfl, by simpa using hop, hnot⟩)
    exact (Insensitive.read hread).bind fun _ => (Insensitive.write _ hgained).bind fun _ => .pure _

theorem increment_number_insensitive (htracked : forgotten ⊆ tracked) (name : Name) (delta : Increment) (return_old : Bool)
    (h : AssignedFirst forgotten (increment_name tracked name assigned [])) :
    Insensitive forgotten assigned (increment_name tracked name assigned []).assigned_after
      (increment_number arithmetic (some name) delta return_old) := by
  have hread := AssignedFirst.combine.mp h _ List.mem_cons_self
  rw [increment_name, combine_results_after, read_name_after]
  refine (Insensitive.read (settled_read htracked hread)).bind fun _ => (Insensitive.write _ fun other hother hmem => ?_).bind
    fun _ => .pure _
  exact ((mem_assign_name_after (htracked hother)).mp hmem).imp_right fun heq => heq.2.symm

/-- An expression does the same from any two states that agree on what the analysis takes for assigned. -/
theorem number_of_insensitive (htracked : forgotten ⊆ tracked) : (expression : Expr) → (assigned : Finset Name) →
    heeds_expression tracked forgotten expression assigned = true →
    AssignedFirst forgotten (analyze_expression tracked [] expression assigned) →
    Insensitive forgotten assigned (analyze_expression tracked [] expression assigned).assigned_after
      (number_of arithmetic expression)
  | .numeric_literal _, _, _, _ => .pure _
  | .name name, assigned, _, h => by
    rw [analyze_expression, read_name_after, number_of]
    cases counter name with
    | some f => exact .call f ()
    | none => exact .read (settled_read htracked h)
  | .field_at index, _, _, _ => field_number_insensitive index
  | .field index, assigned, hheeds, h =>
    (number_of_insensitive htracked index assigned hheeds h).bind fun _ => (Insensitive.call _ _).bind fun _ =>
      field_number_insensitive _
  | .call function [argument], assigned, hheeds, h => by
    rw [number_of]
    simp only [analyze_expression, analyze_expression_sequence, combine_results_after, AssignedFirst.combine, List.mem_cons,
      List.not_mem_nil, or_false, forall_eq_or_imp] at h ⊢
    cases numeric_function function with
    | some f => exact (number_of_insensitive htracked argument assigned hheeds h.1).bind fun _ => .call f _
    | none => exact .crash
  | .binary left op right, assigned, hheeds, h => by
    simp only [heeds_expression, Bool.and_eq_true, Bool.or_eq_true, decide_eq_true_eq] at hheeds
    simp only [analyze_expression, combine_results_after, AssignedFirst.combine, List.mem_cons, List.not_mem_nil, or_false,
      forall_eq_or_imp, forall_eq] at h ⊢
    exact operation_insensitive arithmetic (number_of_insensitive htracked left assigned hheeds.1.1 h.1)
      (number_of_insensitive htracked right _ hheeds.1.2 h.2) hheeds.2
  | .conditional test if_true if_false, assigned, hheeds, h => by
    simp only [heeds_expression, Bool.and_eq_true] at hheeds
    simp only [analyze_expression, combine_results_after, AssignedFirst.combine, List.mem_cons, List.not_mem_nil, or_false,
      forall_eq_or_imp, forall_eq] at h ⊢
    exact (truth_of_insensitive arithmetic (number_of_insensitive htracked test assigned hheeds.1.1 h.1)).bind fun _ =>
      .branch (number_of_insensitive htracked if_true _ hheeds.1.2 h.2.1)
        (number_of_insensitive htracked if_false _ hheeds.2 h.2.2)
  | .assign (.name name) op value, assigned, hheeds, h => by
    simp only [analyze_expression, analyze_lvalue_indexes, assign_target, combine_results_after, AssignedFirst.combine,
      List.mem_cons, List.not_mem_nil, or_false, forall_eq_or_imp, forall_eq] at h ⊢
    exact (number_of_insensitive htracked value assigned hheeds h.2.1).bind fun update =>
      assign_number_insensitive arithmetic htracked update h.2.2
  | .unary op operand, assigned, hheeds, h => by
    cases op with
    | uplus => exact number_of_insensitive htracked operand assigned hheeds h
    | uminus => exact (number_of_insensitive htracked operand assigned hheeds h).bind fun _ => .pure _
    | not =>
      exact (truth_of_insensitive arithmetic (number_of_insensitive htracked operand assigned hheeds h)).bind
        fun _ => .pure _
    | pre_inc | pre_dec =>
      cases operand with
      | name name => exact increment_number_insensitive arithmetic htracked name _ _ h
      | _ => exact .crash
  | .postfix_op operand op, assigned, _, h => by
    cases operand with
    | name name => cases op <;> exact increment_number_insensitive arithmetic htracked name _ _ h
    | _ => cases op <;> exact .crash
  | .string_literal _, _, _, _ | .regex_literal _, _, _, _ | .array_index _ _ _, _, _, _ | .getline _ _, _, _, _
  | .call _ [], _, _, _ | .call _ (_ :: _ :: _), _, _, _ | .assign (.array _ _) _ _, _, _, _
  | .assign (.field _) _ _, _, _, _ => .crash

end Expressions

end quawk
