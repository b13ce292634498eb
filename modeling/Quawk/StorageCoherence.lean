import Quawk.ScalarWrites

open StructuredCode (Operands)
open StructuredCode.Code (emit)

namespace quawk

open Numeral (qk_is_full_numeric_string qk_parse_awk_numeric_prefix)

variable {formats : NumberFormats} {state : LoweringState} {name : Name} {cells : ScalarCells} {value : CellContent}
  {source : Name} {arithmetic : Arithmetic}

theorem WritesOnly.performs {allowed : List Cell} (expression : Expr) :
    WritesOnly allowed (performs expression : Code ReadValue Unit) := trivial

theorem expression_writes_only (state : LoweringState) (expression : Expr) (name : Name) (op : AssignOp)
    (operand : ComparisonOperand) :
    WritesOnly (name_cells state name)
      (lower_runtime_assignment_expression state expression (.name name) op operand.known) := by
  unfold lower_runtime_assignment_expression
  dsimp only
  split_ifs
  · unfold lower_runtime_param_assignment_expression
    split_ifs
    · exact .bind (.known_string operand) fun text => .bind (.performs expression) fun _ =>
        .bind (.store_parameter state name text) fun _ => .bind (.load_parameter state name) fun _ => .silent rfl
    · refine .bind (.load_parameter state name) fun _ => .bind (.silent rfl) fun current =>
        .bind (.known_number operand) fun number => .bind (.combine op current number) fun _ =>
          .bind (.performs expression) fun _ => ?_
      exact .bind (.bind (.silent rfl) fun _ => .silent rfl) fun text =>
        .bind (.store_parameter state name text) fun _ => trivial
  · unfold lower_runtime_state_assignment_expression
    refine .address fun cell hcell => .bind (.silent rfl) fun current => .bind (.known_number operand) fun number =>
      .bind (.combine op current number) fun _ => .bind (.performs expression) fun _ => .bind (.store ?_) fun _ => trivial
    simpa [written_by] using hcell
  · unfold lower_runtime_scalar_assignment_expression
    refine .scalar_name ?_
    split
    · unfold lower_runtime_copy_expression
      refine .scalar_name (.bind (.performs expression) fun _ => .bind (.entry rfl) fun _ => ?_)
      split
      · rename_i index _ hindex _
        have hslot : ∀ cell ∈ [Cell.slot index], cell ∈ name_cells state name := by simpa using slot_mem hindex
        exact .bind (.silent rfl) fun _ => .bind (.store hslot) fun _ => trivial
      · exact .silent rfl
    · split_ifs
      · unfold lower_runtime_string_to_scalar_expression
        refine .bind (.known_string operand) fun text => .bind (.performs expression) fun _ => ?_
        cases hindex : runtime_name_slot_index state name with
        | none => exact .bind (.entry rfl) fun _ => .silent rfl
        | some index =>
          have hslot : ∀ cell ∈ [Cell.slot index], cell ∈ name_cells state name := by simpa using slot_mem hindex
          dsimp only
          split_ifs
          · exact .bind (.store hslot) fun _ => .bind (.silent rfl) fun _ => .bind (.store hslot) fun _ => trivial
          · exact .bind (.entry rfl) fun _ => .bind (.silent rfl) fun _ => .bind (.store hslot) fun _ => trivial
      · exact .bind (.current_number state name _) fun current => .bind (.known_number operand) fun number =>
          .bind (.combine op current number) fun stored => .bind (.performs expression) fun _ =>
            .bind (.store_number state name stored) fun _ => trivial

theorem string_assignment_writes_only (state : LoweringState) (expression : Expr) (name : Name)
    (operand : ComparisonOperand) :
    WritesOnly (name_cells state name) (lower_runtime_string_assignment state expression (.name name) operand.known) := by
  unfold lower_runtime_string_assignment
  dsimp only
  split_ifs
  · trivial
  · exact .bind (.known_string operand) fun text => .bind (.performs expression) fun _ =>
      .bind (.store_parameter state name text) fun _ => .load_parameter state name
  · trivial
  · change WritesOnly _ (lower_runtime_string_to_scalar state name operand.text)
    unfold lower_runtime_string_to_scalar
    cases hindex : runtime_name_slot_index state name with
    | none => exact .scalar_name (.bind (.entry rfl) fun _ => .silent rfl)
    | some index =>
      have hslot : ∀ cell ∈ [Cell.slot index], cell ∈ name_cells state name := by simpa using slot_mem hindex
      dsimp only
      by_cases hstring : runtime_name_uses_string_slot_runtime state name = true
      · rw [if_pos hstring]
        exact .bind (.store hslot) fun _ => .silent rfl
      · rw [if_neg hstring]
        refine .scalar_name (.bind (.entry rfl) fun _ => .bind (.store hslot) fun _ => ?_)
        split_ifs <;> exact .silent rfl

/-- The forms in which a scalar is written: an assignment statement, an assignment whose number or whose string is
used, `++` and `--`, and the target of `getline`, `sub` and `gsub`. -/
inductive WriteForm where
  | statement (op : AssignOp) (operand : ComparisonOperand)
  | expression (source : Expr) (op : AssignOp) (operand : ComparisonOperand)
  | string_expression (source : Expr) (operand : ComparisonOperand)
  | increment (source : Expr) (delta : Increment) (return_old : Bool)
  | target (text : Text)

section Form

variable (formats : NumberFormats) (arithmetic : Arithmetic) (state : LoweringState) (name : Name)

def WriteForm.code : WriteForm → Code ReadValue Unit
  | .statement op operand => lower_runtime_assignment_statement state (.name name) op operand.known
  | .expression source op operand => do
    let _ ← lower_runtime_assignment_expression state source (.name name) op operand.known
    pure ()
  | .string_expression source operand => do
    let _ ← lower_runtime_string_assignment state source (.name name) operand.known
    pure ()
  | .increment source delta return_old => do
    let _ ← lower_runtime_increment_expression state source (some (.name name)) delta return_old
    pure ()
  | .target text => lower_runtime_assign_string_lvalue state (.name name) text

/-- The value an assignment gives, copied or computed; a scalar that was not written gives what its cells hold. -/
def AssignmentGives (cells : ScalarCells) (values : Name → Option CellContent) (op : AssignOp)
    (operand : ComparisonOperand) (value : CellContent) : Prop :=
  match copied_name state name op operand.expression with
  | some source =>
    match values source with
    | some held => value = held
    | none => HoldsValue formats state source cells value
  | none => Written formats arithmetic state name op operand cells value

/-- The value a form writes. -/
def WriteForm.Gives (cells : ScalarCells) (values : Name → Option CellContent) (value : CellContent) :
    WriteForm → Prop
  | .statement op operand => AssignmentGives formats arithmetic state name cells values op operand value
  | .expression _ op operand => AssignmentGives formats arithmetic state name cells values op operand value
  | .string_expression _ operand =>
    operand.text = value.string_view formats ∧ runtime_assignment_preserves_string state operand.expression = true
  | .increment _ delta _ => ∃ current, NumberRead formats state name cells current ∧
    value = .number (arithmetic delta.opcode current (.finite 1))
  | .target text => value = .string text

/-- The scalars that a form reads to write its own: the one that is copied, and its own where it is counted on. -/
def WriteForm.Reads (source : Name) : WriteForm → Prop
  | .statement op operand | .expression _ op operand =>
    copied_name state name op operand.expression = some source ∨ op ≠ .plain ∧ source = name
  | .increment _ _ _ => source = name
  | .string_expression _ _ | .target _ => False

/-- Where a form keeps the value it writes. -/
def WriteForm.Kept (value : CellContent) : WriteForm → Prop
  | .statement op operand =>
    match copied_name state name op operand.expression with
    | some source => CopyKept formats state name source value
    | none => StoreKept formats state name (stores_text state op operand.expression) value
  | .expression _ op operand =>
    match copied_name state name op operand.expression with
    | some source => CopyKept formats state name source value
    | none => ExpressionKept formats state name (stores_text state op operand.expression) value
  | .string_expression _ _ => scalar_home state name ≠ .number ∧ TextKeeps formats value
  | .increment _ _ _ => StoreKept formats state name false value
  | .target _ => scalar_home state name ≠ .number

end Form

theorem WriteForm.writes_only (state : LoweringState) (name : Name) (form : WriteForm) :
    WritesOnly (name_cells state name) (form.code state name) := by
  cases form with
  | statement op operand => exact assignment_writes_only state name op operand
  | expression source op operand => exact .bind (expression_writes_only state source name op operand) fun _ => trivial
  | string_expression source operand =>
    exact .bind (string_assignment_writes_only state source name operand) fun _ => trivial
  | increment source delta return_old =>
    exact .bind (increment_writes_only state source name delta return_old) fun _ => trivial
  | target text => exact .assign_string state name text

theorem run_cells_ignored {α : Type} {code : Code ReadValue α} {result : α} {after : ScalarCells}
    (h : run_cells formats arithmetic code cells = some (result, after)) :
    run_cells formats arithmetic (code >>= fun _ => pure ()) cells = some ((), after) := by
  rw [run_cells_bind, h]
  rfl

theorem copied_name_cases {op : AssignOp} {expression : Expr} (h : copied_name state name op expression = some source) :
    op = .plain ∧ ¬ state.is_function_param_string name = true ∧
      ¬ runtime_name_uses_numeric_slot_state state name = true ∧ copies_scalar state name expression = some source ∧
      runtime_name_uses_scalar_runtime state source = true := by
  unfold copied_name at h
  split_ifs at h with hcopies
  refine ⟨hcopies.1, by simp [hcopies.2.1], by simp [hcopies.2.2], h, ?_⟩
  unfold copies_scalar at h
  split at h
  · split_ifs at h with hscalar
    obtain rfl := Option.some.inj h
    exact hscalar.1
  · cases h

theorem AssignmentGives.copied {values : Name → Option CellContent} {op : AssignOp} {operand : ComparisonOperand}
    (hcopied : copied_name state name op operand.expression = some source)
    (hvalues : ∀ held, values source = some held → HoldsValue formats state source cells held)
    (h : AssignmentGives formats arithmetic state name cells values op operand value) :
    HoldsValue formats state source cells value := by
  unfold AssignmentGives at h
  rw [hcopied] at h
  dsimp only at h
  split at h
  · rename_i held hheld
    rw [h]
    exact hvalues held hheld
  · exact h

/-- A write that is kept leaves its value in the cells. -/
theorem WriteForm.run_kept (hscalar : ProgramScalar state name) {form : WriteForm} {after : ScalarCells}
    {values : Name → Option CellContent}
    (hvalues : ∀ source held, form.Reads state name source → values source = some held →
      HoldsValue formats state source cells held)
    (hgives : form.Gives formats arithmetic state name cells values value) (hkept : form.Kept formats state name value)
    (hwrite : run_cells formats arithmetic (form.code state name) cells = some ((), after)) :
    HoldsValue formats state name after value := by
  have hafter {code : Code ReadValue Unit} (hcode : form.code state name = code)
      (h : ∃ expected, run_cells formats arithmetic code cells = some ((), expected) ∧
        HoldsValue formats state name expected value) : HoldsValue formats state name after value := by
    obtain ⟨expected, hrun, hholds⟩ := h
    rw [hcode, hrun] at hwrite
    rw [← (Prod.mk.inj (Option.some.inj hwrite)).2]
    exact hholds
  have hignored {α : Type} {code : Code ReadValue α}
      (hcode : form.code state name = (code >>= fun _ => pure ()))
      (h : ∃ result expected, run_cells formats arithmetic code cells = some (result, expected) ∧
        HoldsValue formats state name expected value) : HoldsValue formats state name after value := by
    obtain ⟨result, expected, hrun, hholds⟩ := h
    exact hafter hcode ⟨expected, run_cells_ignored hrun, hholds⟩
  cases form with
  | statement op operand =>
    refine hafter rfl ?_
    simp only [WriteForm.Gives, WriteForm.Kept] at hgives hkept
    cases hcopied : copied_name state name op operand.expression with
    | none =>
      unfold AssignmentGives at hgives
      rw [hcopied] at hgives hkept
      exact run_assignment_statement hscalar op operand hcopied hgives hkept
    | some source =>
      have hholds := AssignmentGives.copied hcopied (fun held => hvalues source held (Or.inl hcopied)) hgives
      rw [hcopied] at hkept
      obtain ⟨hop, hparam, hnumeric, hcopies, hsource⟩ := copied_name_cases hcopied
      have hsource_param : ¬ state.is_function_param_string source = true := fun hparam => by
        rw [param_not_scalar hparam] at hsource
        cases hsource
      have hrun := run_copy_statement arithmetic hscalar hsource hparam hsource_param hholds hkept
      unfold WriteForm.code lower_runtime_assignment_statement lower_runtime_scalar_assignment_statement
        lower_runtime_scalar_name lower_runtime_constant_string
      dsimp only
      rw [if_neg hparam, if_neg (by simp [hscalar.reusable, hnumeric]), run_cells_bind, run_cells_emit rfl,
        Option.bind_some, if_pos hop]
      change ∃ expected, run_cells formats arithmetic (match copies_scalar state name operand.expression with
        | some _ => _ | none => _) cells = _ ∧ _
      rw [hcopies]
      exact hrun
  | expression source op operand =>
    refine hignored rfl ?_
    simp only [WriteForm.Gives, WriteForm.Kept] at hgives hkept
    cases hcopied : copied_name state name op operand.expression with
    | none =>
      unfold AssignmentGives at hgives
      rw [hcopied] at hgives hkept
      exact run_assignment_expression hscalar source op operand hcopied hgives hkept
    | some copied =>
      have hholds := AssignmentGives.copied hcopied (fun held => hvalues copied held (Or.inl hcopied)) hgives
      rw [hcopied] at hkept
      obtain ⟨hop, hparam, hnumeric, hcopies, hsource⟩ := copied_name_cases hcopied
      have hsource_param : ¬ state.is_function_param_string copied = true := fun hparam => by
        rw [param_not_scalar hparam] at hsource
        cases hsource
      have hrun := run_copy_expression arithmetic hscalar hsource source hparam hsource_param hholds hkept
      unfold lower_runtime_assignment_expression lower_runtime_scalar_assignment_expression
        lower_runtime_scalar_name lower_runtime_constant_string
      dsimp only
      rw [if_neg hparam, if_neg (by simp [hscalar.reusable, hnumeric]), run_cells_bind, run_cells_emit rfl,
        Option.bind_some, if_pos hop]
      change ∃ result expected, run_cells formats arithmetic (match copies_scalar state name operand.expression with
        | some _ => _ | none => _) cells = _ ∧ _
      rw [hcopies]
      exact hrun
  | string_expression source operand =>
    exact hignored rfl (run_string_assignment hscalar source operand hgives.2 hgives.1 hkept.1 hkept.2)
  | increment source delta return_old =>
    exact hignored rfl (run_increment hscalar source delta return_old hgives hkept)
  | target text =>
    refine hafter rfl ?_
    simp only [WriteForm.Gives] at hgives
    subst hgives
    exact run_assign_string arithmetic cells hscalar hkept (show TextKeeps formats (.string text) from ⟨rfl, rfl⟩)

theorem OwnSlots.same_name (h : OwnSlots state) {other : Name} {cell : Cell} (hother : cell ∈ name_cells state other)
    (hcell : cell ∈ name_cells state name) : other = name :=
  h.cell_name ⟨state, other, cell, .unset, hother, ⟨rfl, rfl⟩, Or.inl rfl⟩ hcell

/-- A program with two variables that are given numbers and strings. -/
def mixed_scalars : LoweringState where
  variable_indexes := ["x", "y"]
  slot_allocation := allocate_slots_for_variable_indexes ["x", "y"]
  type_info := fun _ => .mixed
  array_names := []
  function_defs := []
  local_numeric_names := ∅
  function_param_strings := []
  loop_string_bindings := []

theorem mixed_scalars_ownSlots : OwnSlots mixed_scalars := ⟨rfl, List.nodup_nil⟩

theorem mixed_scalars_x : ProgramScalar mixed_scalars "x" := ⟨by decide, by decide, rfl, Or.inl (by decide)⟩

theorem mixed_scalars_y : ProgramScalar mixed_scalars "y" := ⟨by decide, by decide, rfl, Or.inl (by decide)⟩

theorem mixed_scalars_home : scalar_home mixed_scalars "x" = .mixed_slot 0 := rfl

/-- Sums and differences. -/
def sums : Arithmetic
  | .fadd, .finite left, .finite right => .finite (left + right)
  | .fsub, .finite left, .finite right => .finite (left - right)
  | _, _, _ => .nan

end quawk
