import Quawk.ExpressionErrors
import Quawk.LowerProgram

open StructuredCode.Code (emit Within generate bind_eq_error bind_eq_ok)

namespace quawk

variable {V : Ty → Type} {access : Name → Nat → Prop} {tolerated : Prop} {state : LoweringState}
  {keys : Name → Option (V .ptr)}

section Value

variable {value : Lowered V} (hvalue : value.Proper access tolerated) (op : AssignOp)
include hvalue

theorem field_assignment_statement_proper {index : Code V (V .i64)} (hindex : Proper access tolerated index) :
    Proper access tolerated (lower_runtime_field_assignment_statement state index op value) := by
  refine hindex.bind fun _ => ite_proper (fun _ => ?_) fun _ => ?_
  · exact hvalue.string.bind fun _ => emit_void_proper trivial
  · exact .emit_bind trivial fun _ => .emit_bind trivial fun _ =>
      combined_proper hvalue op _ fun _ => emit_void_proper trivial

theorem param_assignment_statement_proper (name : Name) :
    Proper access tolerated (lower_runtime_param_assignment_statement state name op value) := by
  refine ite_proper (fun _ => ?_) fun _ => ?_
  · exact hvalue.string.bind fun _ => store_parameter_proper name _
  · refine (load_parameter_proper name).bind fun _ => .emit_bind trivial fun _ => ?_
    exact combined_proper hvalue op _ fun _ =>
      (string_from_numeric_value_proper _).bind fun _ => store_parameter_proper name _

theorem array_assignment_statement_proper (name : Name) {key : Code V (V .ptr)} (hkey : Proper access tolerated key) :
    Proper access tolerated (lower_runtime_array_assignment_statement state name key op value) := by
  refine (constant_string_proper _).bind fun _ => hkey.bind fun _ => ite_proper (fun _ => ?_) fun _ => ?_
  · exact hvalue.string.bind fun _ => emit_void_proper trivial
  · exact .emit_bind trivial fun _ => combined_proper hvalue op _ fun _ => emit_void_proper trivial

theorem state_assignment_statement_proper {name : Name} (haccess : state.Accesses access)
    (hname : is_reusable_runtime_state_name name ∨ runtime_name_uses_numeric_slot_state state name) :
    Proper access tolerated (lower_runtime_state_assignment_statement state name op value) := by
  refine (variable_address_proper haccess hname).bind fun _ => hvalue.numeric.bind fun _ => ?_
  refine ite_proper (fun _ => emit_void_proper trivial) fun _ => .emit_bind trivial fun _ => ?_
  exact (combine_numeric_assignment_proper op _ _).bind fun _ => emit_void_proper trivial

omit hvalue in
theorem copy_statement_proper (name source : Name) (target_name : V .ptr) :
    Proper access tolerated (lower_runtime_copy_statement state name source target_name) := by
  refine (constant_string_proper _).bind fun _ => emit_void_bind trivial ?_
  split
  · exact .emit_bind trivial fun _ => emit_void_proper trivial
  · trivial

theorem string_to_scalar_statement_proper (name : Name) (target_name : V .ptr) :
    Proper access tolerated (lower_runtime_string_to_scalar_statement state name value target_name) := by
  refine hvalue.string.bind fun _ => ?_
  split
  · exact ite_proper (fun _ => emit_void_proper trivial) fun _ => emit_void_bind trivial (emit_void_proper trivial)
  · exact emit_void_proper trivial

theorem scalar_assignment_statement_proper (name : Name) :
    Proper access tolerated (lower_runtime_scalar_assignment_statement state name op value) := by
  refine (constant_string_proper _).bind fun _ => ?_
  split
  · exact copy_statement_proper name _ _
  · refine ite_proper (fun _ => string_to_scalar_statement_proper hvalue name _) fun _ => ?_
    exact (current_number_proper name _).bind fun _ => combined_proper hvalue op _ fun _ =>
      store_runtime_number_proper name _ _

theorem assignment_statement_proper {target : LoweredLValue V} (htarget : target.Proper access tolerated)
    (haccess : state.Accesses access) :
    Proper access tolerated (lower_runtime_assignment_statement state target op value) := by
  cases target with
  | field index => exact field_assignment_statement_proper hvalue op htarget
  | array name key =>
    exact ite_proper (fun _ => param_assignment_statement_proper hvalue op name) fun _ =>
      array_assignment_statement_proper hvalue op name htarget
  | name name =>
    refine ite_proper (fun _ => param_assignment_statement_proper hvalue op name) fun _ => ?_
    exact ite_proper (fun hname => state_assignment_statement_proper hvalue op haccess hname) fun _ =>
      scalar_assignment_statement_proper hvalue op name

theorem print_fragment_proper : Proper access tolerated (lower_runtime_print_fragment state value) :=
  ite_proper (fun _ => hvalue.string.bind fun _ => emit_void_proper trivial) fun _ =>
    hvalue.numeric.bind fun _ => emit_void_proper trivial

theorem output_fragment_proper (output_handle : V .handle) :
    Proper access tolerated (lower_runtime_output_fragment state output_handle value) :=
  ite_proper (fun _ => hvalue.string.bind fun _ => emit_void_proper trivial) fun _ =>
    hvalue.numeric.bind fun _ => emit_void_proper trivial

/-- Whatever error the number of an expression statement raises, another one takes its place. -/
theorem side_effect_proper : Proper access tolerated (lower_runtime_side_effect_expression state value) := by
  refine ite_proper (fun _ => hvalue.string.bind fun _ => trivial) fun _ => ?_
  exact ⟨hvalue.numeric, fun _ _ => raise_proper (not_misuse rfl rfl), fun _ => trivial⟩

theorem exit_status_proper : Proper access tolerated (lower_exit_status value) :=
  hvalue.numeric.bind fun _ => .emit trivial

end Value

theorem return_value_proper {value : Option (Lowered V)} (h : ∀ value' ∈ value, value'.Proper access tolerated) :
    Proper access tolerated (lower_return_value state value) := by
  cases value with
  | none => exact constant_string_proper []
  | some value =>
    exact ite_proper (fun _ => (h value rfl).string) fun _ =>
      (h value rfl).numeric.bind fun _ => string_from_numeric_value_proper _

theorem delete_statement_proper {target : LoweredLValue V} (h : target.Proper access tolerated) :
    Proper access tolerated (lower_runtime_delete_statement target) := by
  cases target with
  | field index => exact raise_proper (not_misuse rfl rfl)
  | name name => exact (constant_string_proper _).bind fun _ => emit_void_proper trivial
  | array name key => exact (constant_string_proper _).bind fun _ => h.bind fun _ => emit_void_proper trivial

section Output

variable {arguments : List (Lowered V)} (h : ∀ argument ∈ arguments, argument.Proper access tolerated)
  {redirect : Option (OutputRedirectKind × Lowered V)}
  (hredirect : ∀ redirected ∈ redirect, redirected.2.Proper access tolerated)
include h

theorem print_fragments_proper : Proper access tolerated (lower_runtime_print_fragments state arguments) := by
  induction arguments with
  | nil => trivial
  | cons argument rest ih =>
    have hfirst : Proper access tolerated (lower_runtime_print_fragment state argument) :=
      print_fragment_proper (h argument List.mem_cons_self)
    cases rest with
    | nil => exact hfirst
    | cons other rest =>
      exact hfirst.bind fun _ => emit_void_bind trivial (ih fun other hmem => h other (List.mem_cons_of_mem _ hmem))

theorem output_fragments_proper (output_handle : V .handle) :
    Proper access tolerated (lower_runtime_output_fragments state output_handle arguments) := by
  induction arguments with
  | nil => trivial
  | cons argument rest ih =>
    have hfirst : Proper access tolerated (lower_runtime_output_fragment state output_handle argument) :=
      output_fragment_proper (h argument List.mem_cons_self) output_handle
    cases rest with
    | nil => exact hfirst
    | cons other rest =>
      exact hfirst.bind fun _ => emit_void_bind trivial (ih fun other hmem => h other (List.mem_cons_of_mem _ hmem))

include hredirect

theorem print_statement_proper :
    Proper access tolerated (lower_runtime_print_statement state arguments redirect) := by
  have hrecord {next : V .ptr → Code V Unit} (hnext : ∀ field_ptr, Proper access tolerated (next field_ptr)) :
      Proper access tolerated (load_current_record >>= next) := ⟨trivial, fun _ => ⟨trivial, hnext⟩⟩
  match redirect, arguments with
  | some (kind, target), [] =>
    refine (hredirect (kind, target) rfl).string.bind fun _ => .emit_bind trivial fun _ => hrecord fun _ => ?_
    exact emit_void_bind trivial (emit_void_proper trivial)
  | some (kind, target), argument :: rest =>
    refine (hredirect (kind, target) rfl).string.bind fun _ => .emit_bind trivial fun _ => ?_
    exact (output_fragments_proper h _).bind fun _ => emit_void_proper trivial
  | none, [] => exact hrecord fun _ => emit_void_proper trivial
  | none, argument :: rest => exact (print_fragments_proper h).bind fun _ => emit_void_proper trivial

omit h hredirect in
theorem printf_operand_proper (specifier : Char) {argument : Lowered V} (h : argument.Proper access tolerated) :
    Proper access tolerated (lower_runtime_printf_operand specifier argument) := by
  refine ite_proper (fun _ => (captured_string_proper h).bind fun _ => trivial) fun _ => ?_
  exact ite_proper (fun _ => h.numeric.bind fun _ => .emit_bind trivial fun _ => trivial) fun _ =>
    h.numeric.bind fun _ => trivial

omit h hredirect in
theorem printf_operands_proper {operands : List (Char × Lowered V)}
    (h : ∀ operand ∈ operands, operand.2.Proper access tolerated) :
    Proper access tolerated (lower_runtime_printf_operands operands) := by
  induction operands with
  | nil => trivial
  | cons operand rest ih =>
    refine (printf_operand_proper operand.1 (h operand List.mem_cons_self)).bind fun _ => ?_
    exact (ih fun other hmem => h other (List.mem_cons_of_mem _ hmem)).bind fun _ => trivial

theorem literal_printf_proper (format : Text) :
    Proper access tolerated (lower_runtime_literal_printf format arguments redirect) := by
  refine ite_proper (fun _ => raise_proper (not_misuse rfl rfl)) fun _ => ?_
  refine (printf_operands_proper fun operand hmem => h _ (List.of_mem_zip hmem).2).bind fun _ => ?_
  refine (constant_string_proper format).bind fun _ => ?_
  match redirect with
  | none => exact emit_void_proper trivial
  | some (kind, target) =>
    exact (hredirect (kind, target) rfl).string.bind fun _ => .emit_bind trivial fun _ => emit_void_proper trivial

theorem dynamic_printf_proper {format : Lowered V} (hformat : format.Proper access tolerated) :
    Proper access tolerated (lower_runtime_dynamic_printf state format arguments redirect) := by
  refine hformat.string.bind fun _ => (formatted_proper h _).bind fun _ => ?_
  match redirect with
  | none => exact emit_void_proper trivial
  | some (kind, target) =>
    exact (hredirect (kind, target) rfl).string.bind fun _ => .emit_bind trivial fun _ => emit_void_proper trivial

theorem printf_statement_proper :
    Proper access tolerated (lower_runtime_printf_statement state arguments redirect) := by
  match arguments with
  | [] => exact raise_proper (not_misuse rfl rfl)
  | format :: arguments =>
    have hrest := fun other hmem => h other (List.mem_cons_of_mem format hmem)
    unfold lower_runtime_printf_statement
    dsimp only
    split
    · exact literal_printf_proper hrest hredirect _
    · exact dynamic_printf_proper hrest hredirect (h format List.mem_cons_self)

omit hredirect in
theorem side_effects_proper :
    Proper access tolerated (lower_runtime_side_effect_expressions state arguments) := by
  induction arguments with
  | nil => trivial
  | cons expression rest ih =>
    exact (side_effect_proper (h expression List.mem_cons_self)).bind fun _ =>
      ih fun other hmem => h other (List.mem_cons_of_mem _ hmem)

end Output

/-- The limits of the code in a block, and of the errors of its statements. -/
def Block.Proper (access : Name → Nat → Prop) (tolerated : Prop) : Block V → Prop
  | .skip | .break_statement | .continue_statement | .next_statement | .nextfile_statement => True
  | .seq first second => first.Proper access tolerated ∧ second.Proper access tolerated
  | .code lowered => quawk.Proper access tolerated lowered
  | .if_statement _ condition then_branch =>
    quawk.Proper access tolerated condition ∧ then_branch.Proper access tolerated
  | .if_else_statement _ condition then_branch else_branch =>
    quawk.Proper access tolerated condition ∧ then_branch.Proper access tolerated ∧
      else_branch.Proper access tolerated
  | .while_statement _ condition body => quawk.Proper access tolerated condition ∧ body.Proper access tolerated
  | .do_while_statement body _ condition => body.Proper access tolerated ∧ quawk.Proper access tolerated condition
  | .for_statement init _ condition body update =>
    quawk.Proper access tolerated init ∧ quawk.Proper access tolerated condition ∧ body.Proper access tolerated ∧
      quawk.Proper access tolerated update
  | .for_in_statement _ body => ∀ key, (body key).Proper access tolerated
  | .exit_statement status => ∀ lowered ∈ status, quawk.Proper access tolerated lowered
  | .return_statement value => quawk.Proper access tolerated value
  | .raise message => is_misuse_error message → tolerated

/-- The statements of a block put down from front to back. -/
def Block.generate : Block (fun _ => Unit) → Except (Option String) Unit
  | .skip | .break_statement | .continue_statement | .next_statement | .nextfile_statement => .ok ()
  | .seq first second => first.generate >>= fun _ => second.generate
  | .code lowered => lowered.generate
  | .if_statement _ condition then_branch => condition.generate >>= fun _ => then_branch.generate
  | .if_else_statement _ condition then_branch else_branch =>
    condition.generate >>= fun _ => then_branch.generate >>= fun _ => else_branch.generate
  | .while_statement _ condition body => condition.generate >>= fun _ => body.generate
  | .do_while_statement body _ condition => body.generate >>= fun _ => condition.generate >>= fun _ => .ok ()
  | .for_statement init _ condition body update =>
    init.generate >>= fun _ => condition.generate >>= fun _ => body.generate >>= fun _ => update.generate
  | .for_in_statement _ body => (body ()).generate
  | .exit_statement none => .ok ()
  | .exit_statement (some status) => status.generate >>= fun _ => .ok ()
  | .return_statement value => value.generate >>= fun _ => .ok ()
  | .raise message => .error (some message)

theorem Block.Proper.error_of_generate {block : Block fun _ => Unit} {message : String}
    (h : block.Proper access tolerated) (hgenerate : block.generate = .error (some message)) :
    is_misuse_error message → tolerated := by
  induction block with
  | skip | break_statement | continue_statement | next_statement | nextfile_statement => cases hgenerate
  | seq first second ih_first ih_second =>
    obtain hfirst | ⟨_, _, hsecond⟩ := bind_eq_error hgenerate
    · exact ih_first h.1 hfirst
    · exact ih_second h.2 hsecond
  | code lowered => exact Within.error_of_generate h hgenerate
  | if_statement test condition then_branch ih =>
    obtain hcondition | ⟨_, _, hbranch⟩ := bind_eq_error hgenerate
    · exact Within.error_of_generate h.1 hcondition
    · exact ih h.2 hbranch
  | if_else_statement test condition then_branch else_branch ih_then ih_else =>
    obtain hcondition | ⟨_, _, hgenerate⟩ := bind_eq_error hgenerate
    · exact Within.error_of_generate h.1 hcondition
    · obtain hthen | ⟨_, _, helse⟩ := bind_eq_error hgenerate
      · exact ih_then h.2.1 hthen
      · exact ih_else h.2.2 helse
  | while_statement test condition body ih =>
    obtain hcondition | ⟨_, _, hbody⟩ := bind_eq_error hgenerate
    · exact Within.error_of_generate h.1 hcondition
    · exact ih h.2 hbody
  | do_while_statement body test condition ih =>
    obtain hbody | ⟨_, _, hgenerate⟩ := bind_eq_error hgenerate
    · exact ih h.1 hbody
    · obtain hcondition | ⟨_, _, hdone⟩ := bind_eq_error hgenerate
      · exact Within.error_of_generate h.2 hcondition
      · cases hdone
  | for_statement init test condition body update ih =>
    obtain hinit | ⟨_, _, hgenerate⟩ := bind_eq_error hgenerate
    · exact Within.error_of_generate h.1 hinit
    · obtain hcondition | ⟨_, _, hgenerate⟩ := bind_eq_error hgenerate
      · exact Within.error_of_generate h.2.1 hcondition
      · obtain hbody | ⟨_, _, hupdate⟩ := bind_eq_error hgenerate
        · exact ih h.2.2.1 hbody
        · exact Within.error_of_generate h.2.2.2 hupdate
  | for_in_statement array_name body ih => exact ih () (h ()) hgenerate
  | exit_statement status =>
    cases status with
    | none => cases hgenerate
    | some status =>
      obtain hstatus | ⟨_, _, hdone⟩ := bind_eq_error hgenerate
      · exact Within.error_of_generate (h status rfl) hstatus
      · cases hdone
  | return_statement value =>
    obtain hvalue | ⟨_, _, hdone⟩ := bind_eq_error hgenerate
    · exact Within.error_of_generate h hvalue
    · cases hdone
  | raise other =>
    cases hgenerate
    exact h

def calls_in_option : Option Expr → List (Name × List Expr)
  | some expression => calls_in_expression expression
  | none => []

mutual

/-- The calls of a statement, in every position. -/
def calls_in_statement : Stmt → List (Name × List Expr)
  | .assign target _ value => calls_in_lvalue target ++ calls_in_expression value
  | .block statements => calls_in_statements statements
  | .delete target => calls_in_lvalue target
  | .if_stmt condition then_branch none => calls_in_expression condition ++ calls_in_statement then_branch
  | .if_stmt condition then_branch (some else_branch) =>
    calls_in_expression condition ++ (calls_in_statement then_branch ++ calls_in_statement else_branch)
  | .while_stmt condition body => calls_in_expression condition ++ calls_in_statement body
  | .do_while body condition => calls_in_statement body ++ calls_in_expression condition
  | .for_stmt init condition update body =>
    calls_in_expressions init ++ (calls_in_option condition ++ (calls_in_expressions update ++ calls_in_statement body))
  | .for_in _ iterable body => calls_in_expression iterable ++ calls_in_statement body
  | .print arguments redirect | .printf arguments redirect =>
    calls_in_expressions arguments ++ calls_in_option (redirect.map OutputRedirect.target)
  | .expr value => calls_in_expression value
  | .exit value | .return_stmt value => calls_in_option value
  | .break_stmt | .continue_stmt | .next | .nextfile => []

def calls_in_statements : List Stmt → List (Name × List Expr)
  | [] => []
  | statement :: rest => calls_in_statement statement ++ calls_in_statements rest

end

mutual

/-- Whether a `break`, `continue`, `next`, `nextfile` or `return` stands where lowering takes none. -/
def misplaced_in_statement : Stmt → Surroundings → Bool
  | .break_stmt, place | .continue_stmt, place => !place.in_loop
  | .next, place | .nextfile, place => place.in_function
  | .return_stmt _, place => !place.in_function
  | .block statements, place => misplaced_in_statements statements place
  | .if_stmt _ then_branch none, place => misplaced_in_statement then_branch place
  | .if_stmt _ then_branch (some else_branch), place =>
    misplaced_in_statement then_branch place || misplaced_in_statement else_branch place
  | .while_stmt _ body, place | .do_while body _, place | .for_stmt _ _ _ body, place | .for_in _ _ body, place =>
    misplaced_in_statement body { place with in_loop := true }
  | _, _ => false

def misplaced_in_statements : List Stmt → Surroundings → Bool
  | [], _ => false
  | statement :: rest, place => misplaced_in_statement statement place || misplaced_in_statements rest place

end

theorem LoweringState.Accesses.bind_loop_string (h : state.Accesses access) (name : Name) :
    (state.bind_loop_string name).Accesses access := by
  intro other index hother hindex
  refine h other index (hother.imp_right fun hnumeric => ?_) hindex
  simp only [runtime_name_uses_numeric_slot_state, runtime_name_uses_scalar_runtime, runtime_name_is_inferred_numeric,
    runtime_name_slot_index, LoweringState.is_loop_string_binding, LoweringState.bind_loop_string,
    LoweringState.is_function_param_string, LoweringState.param_slot, List.contains_cons] at hnumeric ⊢
  grind

theorem option_proper (haccess : state.Accesses access) {value : Option Expr}
    (h : CallsHold tolerated state.function_defs (calls_in_option value)) :
    ∀ lowered ∈ value.map (lower_expression state keys), lowered.Proper access tolerated := by
  cases value with
  | none => exact fun _ hmem => nomatch hmem
  | some value =>
    rintro _ ⟨⟩
    exact expression_proper haccess value h

theorem redirect_proper (haccess : state.Accesses access) {redirect : Option OutputRedirect}
    (h : CallsHold tolerated state.function_defs (calls_in_option (redirect.map OutputRedirect.target))) :
    ∀ redirected ∈ redirect.map fun redirect => (redirect.kind, lower_expression state keys redirect.target),
      redirected.2.Proper access tolerated := by
  cases redirect with
  | none => exact fun _ hmem => nomatch hmem
  | some redirect =>
    rintro _ ⟨⟩
    exact expression_proper haccess redirect.target h

/-- A statement out of place raises an error of misuse. -/
theorem place_proper {message : String} {allowed : Bool} {block : Block V}
    (hplace : tolerated ∨ (!allowed) = false) (h : block.Proper access tolerated) :
    (if allowed then block else .raise message : Block V).Proper access tolerated := by
  cases allowed with
  | true => exact h
  | false => exact fun _ => hplace.resolve_right (by simp)

/-- Two parts of a statement, none with a statement out of place. -/
theorem both_placed {first second : Bool} (h : tolerated ∨ (first || second) = false) :
    (tolerated ∨ first = false) ∧ (tolerated ∨ second = false) := by
  simp only [Bool.or_eq_false_iff] at h
  exact ⟨h.imp_right And.left, h.imp_right And.right⟩

mutual

/-- By induction on the statement; a loop binds its key and is a place for `break`. -/
theorem statement_proper : (statement : Stmt) → (state : LoweringState) → (keys : Name → Option (V .ptr)) →
    (place : Surroundings) → state.Accesses access →
    CallsHold tolerated state.function_defs (calls_in_statement statement) →
    tolerated ∨ misplaced_in_statement statement place = false →
    (lower_statement statement state keys place).Proper access tolerated
  | .assign target op value, state, keys, place, haccess, h, _ => by
    obtain ⟨htarget, hvalue⟩ := callsHold_append.mp h
    exact assignment_statement_proper (expression_proper haccess value hvalue) op
      (lvalue_proper haccess target htarget) haccess
  | .block statements, state, keys, place, haccess, h, hplace =>
    statements_proper statements state keys place haccess h hplace
  | .break_stmt, state, keys, place, _, _, hplace => place_proper hplace trivial
  | .continue_stmt, state, keys, place, _, _, hplace => place_proper hplace trivial
  | .delete target, state, keys, place, haccess, h, _ => delete_statement_proper (lvalue_proper haccess target h)
  | .if_stmt condition then_branch none, state, keys, place, haccess, h, hplace => by
    obtain ⟨hcondition, hthen⟩ := callsHold_append.mp h
    exact ⟨(expression_proper haccess condition hcondition).condition,
      statement_proper then_branch state keys place haccess hthen hplace⟩
  | .if_stmt condition then_branch (some else_branch), state, keys, place, haccess, h, hplace => by
    obtain ⟨hcondition, hbranches⟩ := callsHold_append.mp h
    obtain ⟨hthen, helse⟩ := callsHold_append.mp hbranches
    obtain ⟨hplace_then, hplace_else⟩ := both_placed hplace
    exact ⟨(expression_proper haccess condition hcondition).condition,
      statement_proper then_branch state keys place haccess hthen hplace_then,
      statement_proper else_branch state keys place haccess helse hplace_else⟩
  | .while_stmt condition body, state, keys, place, haccess, h, hplace => by
    obtain ⟨hcondition, hbody⟩ := callsHold_append.mp h
    exact ⟨(expression_proper haccess condition hcondition).condition,
      statement_proper body state keys _ haccess hbody hplace⟩
  | .do_while body condition, state, keys, place, haccess, h, hplace => by
    obtain ⟨hbody, hcondition⟩ := callsHold_append.mp h
    exact ⟨statement_proper body state keys _ haccess hbody hplace,
      (expression_proper haccess condition hcondition).condition⟩
  | .for_stmt init condition update body, state, keys, place, haccess, h, hplace => by
    obtain ⟨hinit, h⟩ := callsHold_append.mp h
    obtain ⟨hcondition, h⟩ := callsHold_append.mp h
    obtain ⟨hupdate, hbody⟩ := callsHold_append.mp h
    refine ⟨side_effects_proper (expressions_proper haccess init hinit), ?_,
      statement_proper body state keys _ haccess hbody hplace,
      side_effects_proper (expressions_proper haccess update hupdate)⟩
    cases condition with
    | none => exact Within.emit trivial
    | some condition => exact (expression_proper haccess condition hcondition).condition
  | .for_in name (.name array_name) body, state, keys, place, haccess, h, hplace => fun key =>
    statement_proper body (state.bind_loop_string name) (bind_key keys name key) _ (haccess.bind_loop_string name)
      h hplace
  | .for_in _ (.string_literal _) _, _, _, _, _, _, _ | .for_in _ (.numeric_literal _) _, _, _, _, _, _, _
  | .for_in _ (.regex_literal _) _, _, _, _, _, _, _ | .for_in _ (.field_at _) _, _, _, _, _, _, _
  | .for_in _ (.field _) _, _, _, _, _, _, _ | .for_in _ (.call _ _) _, _, _, _, _, _, _
  | .for_in _ (.array_index _ _ _) _, _, _, _, _, _, _ | .for_in _ (.getline _ _) _, _, _, _, _, _, _
  | .for_in _ (.binary _ _ _) _, _, _, _, _, _, _ | .for_in _ (.conditional _ _ _) _, _, _, _, _, _, _
  | .for_in _ (.assign _ _ _) _, _, _, _, _, _, _ | .for_in _ (.unary _ _) _, _, _, _, _, _, _
  | .for_in _ (.postfix_op _ _) _, _, _, _, _, _, _ =>
    fun hmisuse => absurd hmisuse (Bool.eq_false_iff.mp (not_misuse rfl rfl))
  | .return_stmt value, state, keys, place, haccess, h, hplace =>
    place_proper hplace (return_value_proper (option_proper haccess h))
  | .print arguments redirect, state, keys, place, haccess, h, _ => by
    obtain ⟨harguments, hredirect⟩ := callsHold_append.mp h
    exact print_statement_proper (expressions_proper haccess arguments harguments) (redirect_proper haccess hredirect)
  | .printf arguments redirect, state, keys, place, haccess, h, _ => by
    obtain ⟨harguments, hredirect⟩ := callsHold_append.mp h
    exact printf_statement_proper (expressions_proper haccess arguments harguments) (redirect_proper haccess hredirect)
  | .expr value, state, keys, place, haccess, h, _ => side_effect_proper (expression_proper haccess value h)
  | .next, state, keys, ⟨in_function, in_loop⟩, _, _, hplace => by
    cases in_function with
    | true => exact fun _ => hplace.resolve_right (by simp [misplaced_in_statement])
    | false => trivial
  | .nextfile, state, keys, ⟨in_function, in_loop⟩, _, _, hplace => by
    cases in_function with
    | true => exact fun _ => hplace.resolve_right (by simp [misplaced_in_statement])
    | false => trivial
  | .exit value, state, keys, place, haccess, h, _ => by
    cases value with
    | none => exact fun _ hmem => nomatch hmem
    | some value =>
      rintro _ ⟨⟩
      exact exit_status_proper (expression_proper haccess value h)

theorem statements_proper : (statements : List Stmt) → (state : LoweringState) →
    (keys : Name → Option (V .ptr)) → (place : Surroundings) → state.Accesses access →
    CallsHold tolerated state.function_defs (calls_in_statements statements) →
    tolerated ∨ misplaced_in_statements statements place = false →
    (lower_statements statements state keys place).Proper access tolerated
  | [], _, _, _, _, _, _ => trivial
  | statement :: rest, state, keys, place, haccess, h, hplace => by
    obtain ⟨hfirst, hrest⟩ := callsHold_append.mp h
    obtain ⟨hplace_first, hplace_rest⟩ := both_placed hplace
    exact ⟨statement_proper statement state keys place haccess hfirst hplace_first,
      statements_proper rest state keys place haccess hrest hplace_rest⟩

end

/-- What is lowered after the last statement that counts is nothing. -/
theorem lower_until_proper (ends : Stmt → Bool) (place : Surroundings) (haccess : state.Accesses access)
    {statements : List Stmt} (h : CallsHold tolerated state.function_defs (calls_in_statements statements))
    (hplace : tolerated ∨ misplaced_in_statements statements place = false) :
    (lower_until state ends place statements : Block V).Proper access tolerated := by
  induction statements with
  | nil => trivial
  | cons statement rest ih =>
    obtain ⟨hfirst, hrest⟩ := callsHold_append.mp h
    obtain ⟨hplace_first, hplace_rest⟩ := both_placed hplace
    refine ⟨statement_proper statement state _ place haccess hfirst hplace_first, ?_⟩
    split
    · trivial
    · exact ih hrest hplace_rest

/-- The limits of the code of a record-phase item. -/
def RecordBlock.Proper (access : Name → Nat → Prop) (tolerated : Prop) : RecordBlock V → Prop
  | .always action => action.Proper access tolerated
  | .on_match _ condition action => quawk.Proper access tolerated condition ∧ action.Proper access tolerated
  | .on_range _ active _ _ left_condition right_condition action =>
    quawk.Proper access tolerated active ∧ quawk.Proper access tolerated left_condition ∧
      quawk.Proper access tolerated right_condition ∧ action.Proper access tolerated
  | .raise message => is_misuse_error message → tolerated

/-- The code of a program is within the limits. -/
structure ProgramBlocks.Proper (access : Name → Nat → Prop) (tolerated : Prop) (blocks : ProgramBlocks V) : Prop where
  begin_actions : ∀ action ∈ blocks.begin_actions, action.Proper access tolerated
  record_items : ∀ item ∈ blocks.record_items, item.Proper access tolerated
  end_actions : ∀ action ∈ blocks.end_actions, action.Proper access tolerated
  functions : ∀ function ∈ blocks.functions, function.body.Proper access tolerated

theorem action_or_default_proper (haccess : state.Accesses access) {action : Option Action}
    (h : ∀ statements ∈ action, CallsHold tolerated state.function_defs (calls_in_statements statements))
    (hplace : ∀ statements ∈ action, tolerated ∨ misplaced_in_statements statements in_phase = false) :
    (lower_runtime_action_or_default state action : Block V).Proper access tolerated := by
  cases action with
  | none => exact ⟨trivial, fun _ => ⟨trivial, fun _ => emit_void_proper trivial⟩⟩
  | some statements => exact lower_until_proper ends_action in_phase haccess (h _ rfl) (hplace _ rfl)

/-- The calls of a pattern. -/
def calls_in_pattern : Pattern → List (Name × List Expr)
  | .expr test => calls_in_expression test
  | .range left right => calls_in_pattern left ++ calls_in_pattern right
  | .begin_pattern | .end_pattern => []

theorem record_item_proper (haccess : state.Accesses access) {item : NormalizedRecordItem}
    (hpattern : ∀ pattern ∈ item.pattern, CallsHold tolerated state.function_defs (calls_in_pattern pattern))
    (h : ∀ statements ∈ item.action, CallsHold tolerated state.function_defs (calls_in_statements statements))
    (hplace : ∀ statements ∈ item.action, tolerated ∨ misplaced_in_statements statements in_phase = false)
    (hrange : ∀ name ∈ item.range_state_name, is_reusable_runtime_state_name name) :
    (lower_runtime_record_item state item : RecordBlock V).Proper access tolerated := by
  have haction : (lower_runtime_action_or_default state item.action : Block V).Proper access tolerated :=
    action_or_default_proper haccess h hplace
  obtain ⟨pattern, action, range_name⟩ := item
  match pattern with
  | none => exact haction
  | some (.expr test) => exact ⟨(expression_proper haccess test (hpattern _ rfl)).condition, haction⟩
  | some .begin_pattern | some .end_pattern => exact fun hmisuse => absurd hmisuse (Bool.eq_false_iff.mp (not_misuse rfl rfl))
  | some (.range left right) =>
    cases range_name with
    | none => exact fun hmisuse => absurd hmisuse (Bool.eq_false_iff.mp (not_misuse rfl rfl))
    | some name =>
      obtain ⟨hleft, hright⟩ := callsHold_append.mp (hpattern _ rfl)
      match left, right with
      | .expr left, .expr right =>
        exact ⟨variable_address_proper haccess (.inl (hrange name rfl)),
          (expression_proper haccess left hleft).condition, (expression_proper haccess right hright).condition, haction⟩
      | .begin_pattern, _ | .end_pattern, _ | .range _ _, _ | .expr _, .begin_pattern | .expr _, .end_pattern
      | .expr _, .range _ _ => exact fun hmisuse => absurd hmisuse (Bool.eq_false_iff.mp (not_misuse rfl rfl))

/-- Every action and every record item of the phases is that of an item of the program. -/
structure PhasesOf (items : List Item) (phases : PhaseItems) : Prop where
  begin_actions : ∀ action ∈ phases.begin_actions, .pattern_action (some .begin_pattern) (some action) ∈ items
  record_items : ∀ item ∈ phases.record_items, .pattern_action item.pattern item.action ∈ items ∧
    ∀ name ∈ item.range_state_name, is_reusable_runtime_state_name name
  end_actions : ∀ action ∈ phases.end_actions, .pattern_action (some .end_pattern) (some action) ∈ items

theorem range_state_name_reusable (index : Nat) : is_reusable_runtime_state_name (range_state_name index) = true := by
  simp [is_reusable_runtime_state_name, range_state_name]

theorem normalize_item_phases {items : List Item} {phases later : PhaseItems} {item : Item} (hmem : item ∈ items)
    (h : PhasesOf items phases) (hnormalize : normalize_item phases item = .ok later) : PhasesOf items later := by
  match item with
  | .function _ =>
    cases hnormalize
    exact h
  | .pattern_action none (some action) =>
    cases hnormalize
    refine ⟨h.begin_actions, fun record hrecord => ?_, h.end_actions⟩
    obtain hrecord | hrecord := List.mem_append.mp hrecord
    · exact h.record_items record hrecord
    · cases List.mem_singleton.mp hrecord
      exact ⟨hmem, fun _ hname => nomatch hname⟩
  | .pattern_action (some .begin_pattern) (some action) =>
    cases hnormalize
    refine ⟨fun other hother => ?_, h.record_items, h.end_actions⟩
    obtain hother | hother := List.mem_append.mp hother
    · exact h.begin_actions other hother
    · cases List.mem_singleton.mp hother
      exact hmem
  | .pattern_action (some .end_pattern) (some action) =>
    cases hnormalize
    refine ⟨h.begin_actions, h.record_items, fun other hother => ?_⟩
    obtain hother | hother := List.mem_append.mp hother
    · exact h.end_actions other hother
    · cases List.mem_singleton.mp hother
      exact hmem
  | .pattern_action (some (.expr test)) action =>
    cases hnormalize
    refine ⟨h.begin_actions, fun record hrecord => ?_, h.end_actions⟩
    obtain hrecord | hrecord := List.mem_append.mp hrecord
    · exact h.record_items record hrecord
    · cases List.mem_singleton.mp hrecord
      exact ⟨hmem, fun _ hname => nomatch hname⟩
  | .pattern_action (some (.range left right)) action =>
    cases hnormalize
    refine ⟨h.begin_actions, fun record hrecord => ?_, h.end_actions⟩
    obtain hrecord | hrecord := List.mem_append.mp hrecord
    · exact h.record_items record hrecord
    · cases List.mem_singleton.mp hrecord
      refine ⟨hmem, ?_⟩
      rintro _ ⟨⟩
      exact range_state_name_reusable _
  | .pattern_action none none | .pattern_action (some .begin_pattern) none
  | .pattern_action (some .end_pattern) none => cases hnormalize

theorem normalize_items_phases {all items : List Item} {phases later : PhaseItems} (hsub : items ⊆ all)
    (h : PhasesOf all phases) (hnormalize : items.foldlM normalize_item phases = .ok later) : PhasesOf all later := by
  induction items generalizing phases with
  | nil =>
    cases hnormalize
    exact h
  | cons item rest ih =>
    rw [List.foldlM_cons] at hnormalize
    cases hitem : normalize_item phases item with
    | error message =>
      rw [hitem] at hnormalize
      cases hnormalize
    | ok next =>
      rw [hitem] at hnormalize
      exact ih (fun other hother => hsub (List.mem_cons_of_mem _ hother))
        (normalize_item_phases (hsub List.mem_cons_self) h hitem) hnormalize

theorem normalized_phases {program : Program} {normalized_program : NormalizedLoweringProgram}
    (h : normalize_program_for_lowering program = .ok normalized_program) :
    ∃ phases, PhasesOf program.items phases ∧ normalized_program.begin_actions = phases.begin_actions ∧
      normalized_program.record_items = phases.record_items ∧ normalized_program.end_actions = phases.end_actions := by
  obtain ⟨phases, hphases, h⟩ := bind_eq_ok h
  obtain ⟨variable_indexes, _, h⟩ := bind_eq_ok h
  cases h
  refine ⟨phases, normalize_items_phases (fun _ hmem => hmem) ⟨?_, ?_, ?_⟩ hphases, rfl, rfl, rfl⟩
  · exact fun _ hmem => nomatch hmem
  · exact fun _ hmem => nomatch hmem
  · exact fun _ hmem => nomatch hmem

/-- The calls of an item of the program. -/
def calls_in_item : Item → List (Name × List Expr)
  | .function definition => calls_in_statements definition.body
  | .pattern_action pattern action =>
    (pattern.map calls_in_pattern).getD [] ++ (action.map calls_in_statements).getD []

/-- Whether an item has a statement out of place. -/
def misplaced_in_item : Item → Bool
  | .function definition => misplaced_in_statements definition.body in_function
  | .pattern_action _ (some action) => misplaced_in_statements action in_phase
  | .pattern_action _ none => false

theorem insert_definition_mem {definitions : List FunctionDef} {definition other : FunctionDef}
    (h : other ∈ insert_definition definitions definition) : other ∈ definitions ∨ other = definition := by
  unfold insert_definition at h
  split at h
  · obtain ⟨earlier, hmem, rfl⟩ := List.mem_map.mp h
    split
    · exact .inr rfl
    · exact .inl hmem
  · simpa using h

/-- Every function of the program is defined by one of its items. -/
theorem function_defs_mem {program : Program} {definition : FunctionDef} (h : definition ∈ program.function_defs) :
    .function definition ∈ program.items := by
  have hfold (definitions kept : List FunctionDef) (h : definition ∈ definitions.foldl insert_definition kept) :
      definition ∈ definitions ∨ definition ∈ kept := by
    induction definitions generalizing kept with
    | nil => exact .inr h
    | cons first rest ih =>
      obtain hrest | hkept := ih _ h
      · exact .inl (List.mem_cons_of_mem _ hrest)
      · obtain hkept | rfl := insert_definition_mem hkept
        · exact .inr hkept
        · exact .inl List.mem_cons_self
  obtain hmem | hmem := hfold _ _ h
  · obtain ⟨item, hitem, hdefinition⟩ := List.mem_filterMap.mp hmem
    cases item with
    | function other =>
      cases hdefinition
      exact hitem
    | pattern_action pattern action => cases hdefinition
  · cases hmem

/-- The lowered program is within the limits, if its calls hold and its statements are in place. -/
theorem program_proper {program : Program} {normalized_program : NormalizedLoweringProgram}
    (h : normalize_program_for_lowering program = .ok normalized_program) (type_info : VariableTypes)
    (haccess : ∀ unit, (lowering_state program normalized_program type_info unit).Accesses access)
    (hcalls : ∀ item ∈ program.items, CallsHold tolerated program.function_defs (calls_in_item item))
    (hplace : ∀ item ∈ program.items, tolerated ∨ misplaced_in_item item = false) :
    (lower_reusable_program program normalized_program type_info : ProgramBlocks V).Proper access tolerated := by
  obtain ⟨phases, hphases, hbegin, hrecord, hend⟩ := normalized_phases h
  refine ⟨fun block hblock => ?_, fun block hblock => ?_, fun block hblock => ?_, fun function hfunction => ?_⟩
  · obtain ⟨action, haction, rfl⟩ := List.mem_map.mp hblock
    have hmem := hphases.begin_actions action (hbegin ▸ haction)
    exact lower_until_proper ends_action in_phase (haccess .begin_phase)
      (callsHold_append.mp (hcalls _ hmem)).2 (hplace _ hmem)
  · obtain ⟨item, hitem, rfl⟩ := List.mem_map.mp hblock
    obtain ⟨hmem, hrange⟩ := hphases.record_items item (hrecord ▸ hitem)
    obtain ⟨hpattern, haction⟩ := callsHold_append.mp (hcalls _ hmem)
    refine record_item_proper (haccess .record_phase) (fun pattern hsome => ?_) (fun statements hsome => ?_)
      (fun statements hsome => ?_) hrange
    · rw [Option.mem_def.mp hsome] at hpattern
      exact hpattern
    · rw [Option.mem_def.mp hsome] at haction
      exact haction
    · have hplaced := hplace _ hmem
      rw [Option.mem_def.mp hsome] at hplaced
      exact hplaced
  · obtain ⟨action, haction, rfl⟩ := List.mem_map.mp hblock
    have hmem := hphases.end_actions action (hend ▸ haction)
    exact lower_until_proper ends_action in_phase (haccess .end_phase)
      (callsHold_append.mp (hcalls _ hmem)).2 (hplace _ hmem)
  · obtain ⟨definition, hdefinition, rfl⟩ := List.mem_map.mp hfunction
    have hmem := function_defs_mem hdefinition
    exact lower_until_proper ends_function in_function (haccess (.user_function definition)) (hcalls _ hmem)
      (hplace _ hmem)

end quawk
