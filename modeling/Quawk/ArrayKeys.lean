import Quawk.LowerStmt
import Quawk.TextPointers

open StructuredCode (Operands)
open StructuredCode.Code (emit)

namespace quawk

/-- No value has a character of the separator. -/
def SubsepFree (separator : Text) (values : List Text) : Prop :=
  separator ≠ [] ∧ ∀ value ∈ values, ∀ char ∈ value, char ∉ separator

/-- The text before the first separator. -/
theorem takeWhile_before {separator value later : Text} (hseparator : separator ≠ [])
    (hvalue : ∀ char ∈ value, char ∉ separator) :
    (value ++ (separator ++ later)).takeWhile (fun char => !separator.contains char) = value := by
  obtain ⟨first, rest, rfl⟩ := List.exists_cons_of_ne_nil hseparator
  rw [List.takeWhile_append_of_pos fun char hmem => by simpa using hvalue char hmem]
  simp

theorem intercalate_injective {separator : Text} {values values' : List Text} (hfree : SubsepFree separator values)
    (hfree' : SubsepFree separator values') (hlength : values'.length = values.length)
    (h : separator.intercalate values' = separator.intercalate values) : values' = values := by
  induction values generalizing values' with
  | nil => exact List.eq_nil_of_length_eq_zero hlength
  | cons value values ih =>
    cases values' with
    | nil => cases hlength
    | cons value' values' =>
      have hlength' : values'.length = values.length := Nat.succ.inj hlength
      cases values with
      | nil =>
        obtain rfl := List.eq_nil_of_length_eq_zero hlength'
        simpa using h
      | cons next values =>
        cases values' with
        | nil => cases hlength'
        | cons next' values' =>
          rw [List.intercalate_cons_cons, List.intercalate_cons_cons, List.append_assoc, List.append_assoc] at h
          have hvalue : value' = value := by
            rw [← takeWhile_before hfree'.1 (hfree'.2 value' List.mem_cons_self), h,
              takeWhile_before hfree.1 (hfree.2 value List.mem_cons_self)]
          rw [hvalue, List.append_cancel_left_eq, List.append_cancel_left_eq] at h
          have hrest := ih ⟨hfree.1, fun other hmem => hfree.2 other (List.mem_cons_of_mem _ hmem)⟩
            ⟨hfree'.1, fun other hmem => hfree'.2 other (List.mem_cons_of_mem _ hmem)⟩ hlength' h
          rw [hvalue, hrest]

section Keys

variable {Number : Type} (runtime : PointerRuntime Number) (state : LoweringState) (separator : Text)

/-- When each of the remaining subscripts is joined to the key, the texts of the key and of `SUBSEP` are still there,
and its own text is not in the scratch buffer, in which the key is built. -/
def JoinsKept (subsep : StoragePointer) : StoragePointer → Text → List (Lowered (PointerValue Number)) → List Text →
    PointerMemory → Prop
  | key, text, [], [], memory => memory.read key = some text
  | key, text, subscript :: subscripts, value :: values, memory =>
    ∃ right after, run_pointers runtime (lower_runtime_array_key state subscript) memory = some (right, after) ∧
      after.read right = some value ∧ (∀ block, right ≠ .scratch block) ∧ after.read key = some text ∧
        after.read subsep = some separator ∧
          let joined := (after.qk_store_scratch (text ++ separator)).qk_store_scratch (text ++ separator ++ value)
          JoinsKept subsep joined.scratch_pointer (text ++ separator ++ value) subscripts values joined
  | _, _, _, _, _ => False

/-- The subscripts have these values, one after the other, and `SUBSEP` is the separator, and all of them are there
when they are joined. -/
def SubscriptsKept (memory : PointerMemory) : List (Lowered (PointerValue Number)) → List Text → Prop
  | [subscript], [value] =>
    ∃ key after, run_pointers runtime (lower_runtime_array_key state subscript) memory = some (key, after) ∧
      after.read key = some value
  | subscript :: subscripts, value :: values =>
    ∃ key after subsep before, run_pointers runtime (lower_runtime_array_key state subscript) memory = some (key, after) ∧
      runtime.run_op .qk_scalar_get_inline (.constant "SUBSEP".toList, ()) after = some (subsep, before) ∧
        JoinsKept runtime state separator subsep key value subscripts values before
  | _, _ => False

variable {runtime state separator}

theorem run_concat {memory : PointerMemory} {left right : StoragePointer} {left_text right_text : Text}
    (hleft : memory.read left = some left_text) (hright : memory.read right = some right_text) :
    run_pointers runtime (emit .qk_concat (left, right, ())) memory =
      some ((memory.qk_store_scratch (left_text ++ right_text)).scratch_pointer,
        memory.qk_store_scratch (left_text ++ right_text)) := by
  have hconcat : memory.qk_concat left right = some ((memory.qk_store_scratch (left_text ++ right_text)).scratch_pointer,
      memory.qk_store_scratch (left_text ++ right_text)) := by
    unfold PointerMemory.qk_concat
    rw [hleft, hright]
    rfl
  rw [run_pointers_emit]
  exact hconcat

/-- Joining the remaining subscripts adds the separator and the value of each to the key. -/
theorem run_joined_subscripts {subsep key : StoragePointer} {text : Text}
    {subscripts : List (Lowered (PointerValue Number))} {values : List Text} {memory : PointerMemory}
    (h : JoinsKept runtime state separator subsep key text subscripts values memory) :
    ∃ joined after, run_pointers runtime (lower_runtime_joined_subscripts state subsep key subscripts) memory =
      some (joined, after) ∧ after.read joined = some (text ++ (values.map (separator ++ ·)).flatten) := by
  induction subscripts generalizing key text values memory with
  | nil =>
    cases values with
    | nil => exact ⟨key, memory, rfl, (show memory.read key = some text from h).trans (by simp)⟩
    | cons _ _ => exact h.elim
  | cons subscript subscripts ih =>
    cases values with
    | nil => exact h.elim
    | cons value values =>
      obtain ⟨right, after, hright, hvalue, houtside, hkey, hsubsep, hrest⟩ := h
      obtain ⟨joined, final, hrun, hread⟩ := ih hrest
      refine ⟨joined, final, ?_, ?_⟩
      · have hjoined := after.read_scratch_pointer (text ++ separator)
        have hright_there : (after.qk_store_scratch (text ++ separator)).read right = some value :=
          (after.read_store_scratch _ houtside).trans hvalue
        rw [lower_runtime_joined_subscripts, run_pointers_bind, hright, Option.bind_some, run_pointers_bind,
          run_concat hkey hsubsep, Option.bind_some, run_pointers_bind, run_concat hjoined hright_there, Option.bind_some]
        exact hrun
      · rw [hread]
        simp

theorem intercalate_cons_eq (value : Text) (values : List Text) :
    separator.intercalate (value :: values) = value ++ (values.map (separator ++ ·)).flatten := by
  induction values generalizing value with
  | nil => simp
  | cons next values ih =>
    rw [List.intercalate_cons_cons, ih]
    simp

theorem run_array_subscripts {subscripts : List (Lowered (PointerValue Number))} {values : List Text}
    {memory : PointerMemory} (h : SubscriptsKept runtime state separator memory subscripts values) :
    ∃ key after, run_pointers runtime (lower_runtime_array_subscripts state subscripts) memory = some (key, after) ∧
      after.read key = some (separator.intercalate values) := by
  match subscripts, values, h with
  | [subscript], [value], ⟨key, after, hrun, hread⟩ =>
    exact ⟨key, after, hrun, by rw [hread, List.intercalate_singleton]⟩
  | subscript :: next :: subscripts, value :: values, ⟨key, after, subsep, before, hrun, hsubsep, hjoins⟩ =>
    obtain ⟨joined, final, hjoined, hread⟩ := run_joined_subscripts hjoins
    refine ⟨joined, final, ?_, by rw [hread, intercalate_cons_eq]⟩
    unfold lower_runtime_array_subscripts lower_runtime_scalar_name lower_runtime_constant_string
    rw [run_pointers_bind, hrun, Option.bind_some, run_pointers_bind, run_pointers_emit]
    change (run_pointers runtime (do
      let subsep_value ← emit .qk_scalar_get_inline (StoragePointer.constant "SUBSEP".toList, ())
      lower_runtime_joined_subscripts state subsep_value key (next :: subscripts)) after) = _
    rw [run_pointers_bind, run_pointers_emit, hsubsep]
    exact hjoined
  | [_], _ :: _ :: _, ⟨_, _, _, _, _, _, hjoins⟩ => exact hjoins.elim

variable (runtime state)

/-- The values of the subscripts, evaluated once in order. -/
def SubscriptValues : List (Lowered (PointerValue Number)) → List Text → PointerMemory → Prop
  | [], [], _ => True
  | subscript :: subscripts, value :: values, memory =>
    ∃ pointer after, run_pointers runtime (lower_runtime_array_key state subscript) memory = some (pointer, after) ∧
      after.read pointer = some value ∧ SubscriptValues subscripts values after
  | _, _, _ => False

/-- The code of the key of an element. -/
def element_key (keys : Name → Option StoragePointer) (index : Expr) (extra_indexes : List Expr) :
    Code (PointerValue Number) StoragePointer :=
  lower_runtime_array_subscripts state (lower_expressions state keys (index :: extra_indexes))

/-- What is done with an element. -/
inductive ElementOperation (Number : Type) where
  | read_number
  | read_string
  | delete
  | assign (op : AssignOp) (value : Lowered (PointerValue Number))
  | increment (expression : Expr) (delta : Increment) (return_old : Bool)

/-- The code of an operation on the element, whose result is left. -/
def element_code (keys : Name → Option StoragePointer) (name : Name) (index : Expr) (extra_indexes : List Expr) :
    ElementOperation Number → Code (PointerValue Number) Unit
  | .read_number => do
    let _ ← (lower_expression state keys (.array_index name index extra_indexes)).numeric
    pure ()
  | .read_string => do
    let _ ← (lower_expression state keys (.array_index name index extra_indexes)).string
    pure ()
  | .delete => lower_runtime_delete_statement (lower_lvalue state keys (.array name (index :: extra_indexes)))
  | .assign op value =>
    lower_runtime_array_assignment_statement state name (element_key state keys index extra_indexes) op value
  | .increment expression delta return_old => do
    let _ ← lower_runtime_increment_expression state expression
      (lower_increment_operand state keys (.array_index name index extra_indexes)) delta return_old
    pure ()

/-- What an operation does between its key and its last access to the element. -/
def element_work (name_ptr key_ptr : StoragePointer) : ElementOperation Number → Code (PointerValue Number) Unit
  | .read_number | .read_string | .delete => pure ()
  | .assign op value =>
    if op = .plain ∧ runtime_assignment_preserves_string state value.expression then do
      let _ ← value.string
      pure ()
    else do
      let current_value ← emit .qk_array_get_number (name_ptr, key_ptr, ())
      let numeric_value ← value.numeric
      let _ ← combine_numeric_assignment op current_value numeric_value
      pure ()
  | .increment _ delta _ => do
    let old_value ← emit .qk_array_get_number (name_ptr, key_ptr, ())
    let _ ← lower_runtime_incremented delta old_value
    pure ()

variable {runtime state}

section Accesses

variable {key : StoragePointer} {after before final : PointerMemory} {text : Text}

theorem run_pointers_drop {α : Type} {code : Code (PointerValue Number) α} {memory : PointerMemory}
    (h : run_pointers runtime (code >>= fun _ => pure ()) memory = some ((), final)) :
    ∃ value, run_pointers runtime code memory = some (value, final) := by
  rw [run_pointers_bind] at h
  obtain ⟨⟨value, other⟩, hcode, heq⟩ := Option.bind_eq_some_iff.mp h
  obtain rfl : other = final := (Prod.mk.inj (Option.some.inj heq)).2
  exact ⟨value, hcode⟩

/-- After its work, an operation accesses the element under the text its key has then. -/
theorem accessed_after_work {α : Type} {work : Code (PointerValue Number) α} {last : α → Code (PointerValue Number) Unit}
    (hlast : ∀ value, before.read key = some text → run_pointers runtime (last value) before = some ((), final) →
      final.accessed = before.accessed ++ [text])
    (hwork : run_pointers runtime (work >>= fun _ => pure ()) after = some ((), before))
    (hkey : before.read key = some text) (hrun : run_pointers runtime (work >>= last) after = some ((), final)) :
    final.accessed = before.accessed ++ [text] := by
  obtain ⟨value, hvalue⟩ := run_pointers_drop hwork
  rw [run_pointers_bind, hvalue, Option.bind_some] at hrun
  exact hlast value hkey hrun

theorem accessed_emit {types : List Ty} {type : Ty} {f : Op types type}
    {operands : Operands (PointerValue Number) types} (haccess : runtime.run_op f operands = runtime.access f operands key)
    (hkey : before.read key = some text)
    (hrun : run_pointers runtime (emit f operands >>= fun _ => pure ()) before = some ((), final)) :
    final.accessed = before.accessed ++ [text] := by
  obtain ⟨value, hvalue⟩ := run_pointers_drop hrun
  rw [run_pointers_emit, haccess] at hvalue
  exact accessed_of_access hkey hvalue

theorem accessed_emit_void {types : List Ty} {f : Op types .unit}
    {operands : Operands (PointerValue Number) types} (haccess : runtime.run_op f operands = runtime.access f operands key)
    (hkey : before.read key = some text)
    (hrun : run_pointers runtime (emit_void f operands) before = some ((), final)) :
    final.accessed = before.accessed ++ [text] := by
  rw [run_pointers_emit_void, haccess] at hrun
  obtain ⟨⟨value, other⟩, hvalue, heq⟩ := Option.map_eq_some_iff.mp hrun
  obtain rfl : other = final := (Prod.mk.inj heq).2
  exact accessed_of_access hkey hvalue

/-- The code after the key. -/
theorem run_element {α : Type} {key_code : Code (PointerValue Number) StoragePointer} {memory : PointerMemory}
    (hkey : run_pointers runtime key_code memory = some (key, after)) (name : Name)
    (rest : StoragePointer → StoragePointer → Code (PointerValue Number) α) :
    run_pointers runtime (do
      let array_name_ptr ← lower_runtime_constant_string name.toList
      let key_ptr ← key_code
      rest array_name_ptr key_ptr) memory = run_pointers runtime (rest (.constant name.toList) key) after := by
  rw [run_pointers_bind, lower_runtime_constant_string, run_pointers_emit]
  change run_pointers runtime (key_code >>= rest (.constant name.toList)) memory = _
  rw [run_pointers_bind, hkey, Option.bind_some]

/-- Each operation accesses the element under the text that the key still has after the work. -/
theorem element_accessed {keys : Name → Option StoragePointer} {name : Name} {index : Expr} {extra_indexes : List Expr}
    {memory : PointerMemory} (operation : ElementOperation Number)
    (hkey : run_pointers runtime (element_key state keys index extra_indexes) memory = some (key, after))
    (hwork : run_pointers runtime (element_work state (.constant name.toList) key operation) after = some ((), before))
    (hkept : before.read key = some text)
    (hrun : run_pointers runtime (element_code state keys name index extra_indexes operation) memory =
      some ((), final)) : final.accessed = before.accessed ++ [text] := by
  cases operation with
  | read_number =>
    obtain rfl : after = before := (Prod.mk.inj (Option.some.inj hwork)).2
    simp only [element_code, lower_expression, lowered_array_element, lowered_views] at hrun
    obtain ⟨value, hvalue⟩ := run_pointers_drop hrun
    have helement := run_element hkey name fun name_ptr key_ptr =>
      (emit Op.qk_array_get_number (name_ptr, key_ptr, ()) : Code (PointerValue Number) Number)
    rw [element_key, lower_expressions] at helement
    rw [helement, run_pointers_emit] at hvalue
    exact accessed_of_access hkept hvalue
  | read_string =>
    obtain rfl : after = before := (Prod.mk.inj (Option.some.inj hwork)).2
    simp only [element_code, lower_expression, lowered_array_element, lowered_views] at hrun
    obtain ⟨value, hvalue⟩ := run_pointers_drop hrun
    have helement := run_element hkey name fun name_ptr key_ptr =>
      (emit Op.qk_array_get (name_ptr, key_ptr, ()) : Code (PointerValue Number) StoragePointer)
    rw [element_key, lower_expressions] at helement
    rw [helement, run_pointers_emit] at hvalue
    exact accessed_of_access hkept hvalue
  | delete =>
    obtain rfl : after = before := (Prod.mk.inj (Option.some.inj hwork)).2
    simp only [element_code, lower_lvalue, lower_runtime_delete_statement] at hrun
    have helement := run_element hkey name fun name_ptr key_ptr =>
      (emit_void Op.qk_array_delete (name_ptr, key_ptr, ()) : Code (PointerValue Number) Unit)
    rw [element_key] at helement
    rw [helement] at hrun
    exact accessed_emit_void rfl hkept hrun
  | assign op value =>
    simp only [element_code, lower_runtime_array_assignment_statement] at hrun
    rw [run_element hkey] at hrun
    unfold element_work at hwork
    dsimp only at hwork
    split_ifs at hrun hwork with hstring
    · exact accessed_after_work (fun _ => accessed_emit_void rfl) hwork hkept hrun
    · rw [run_pointers_bind] at hwork
      obtain ⟨⟨current, read⟩, hcurrent, hwork⟩ := Option.bind_eq_some_iff.mp hwork
      rw [run_pointers_bind] at hwork
      obtain ⟨⟨update, evaluated⟩, hupdate, hwork⟩ := Option.bind_eq_some_iff.mp hwork
      rw [run_pointers_bind, hcurrent, Option.bind_some, run_pointers_bind, hupdate, Option.bind_some] at hrun
      exact accessed_after_work (fun _ => accessed_emit_void rfl) hwork hkept hrun
  | increment expression delta return_old =>
    simp only [element_code, lower_increment_operand, lower_runtime_increment_expression] at hrun
    obtain ⟨value, hvalue⟩ := run_pointers_drop hrun
    have helement := run_element hkey name fun name_ptr key_ptr => (do
      let old_value ← emit Op.qk_array_get_number (name_ptr, key_ptr, ())
      let new_value ← lower_runtime_incremented delta old_value
      performs expression
      emit_void Op.qk_array_set_number (name_ptr, key_ptr, new_value, ())
      pure (if return_old then old_value else new_value) : Code (PointerValue Number) Number)
    rw [element_key, lower_expressions] at helement
    rw [helement, run_pointers_bind] at hvalue
    unfold element_work at hwork
    dsimp only at hwork
    rw [run_pointers_bind] at hwork
    obtain ⟨⟨old_value, read⟩, hold, hwork⟩ := Option.bind_eq_some_iff.mp hwork
    obtain ⟨new_value, hnew⟩ := run_pointers_drop hwork
    rw [hold, Option.bind_some, run_pointers_bind, hnew, Option.bind_some] at hvalue
    change run_pointers runtime (emit_void Op.qk_array_set_number (StoragePointer.constant name.toList, key, new_value, ()) >>=
      fun _ => pure (if return_old then old_value else new_value)) before = some (value, final) at hvalue
    rw [run_pointers_bind] at hvalue
    obtain ⟨⟨_, other⟩, hset, heq⟩ := Option.bind_eq_some_iff.mp hvalue
    obtain rfl : other = final := (Prod.mk.inj (Option.some.inj heq)).2
    exact accessed_emit_void rfl hkept hset

end Accesses

variable (runtime state)

end Keys

/-- Whole numbers as their texts, and a `SUBSEP` that nothing was assigned to. -/
def literal_runtime : PointerRuntime Text where
  value_of _ := 0
  format_number _ value := value
  perform {types type} f operands memory :=
    match types, type, f, operands with
    | _, _, .qk_scalar_get_inline, _ => some (.constant ['\x1c'], memory)
    | _, _, .number (.literal raw_text), _ => some (raw_text, memory)
    | _, _, _, _ => none

/-- A scratch buffer with room for 63 characters. -/
def fresh_memory : PointerMemory := ⟨0, 64, [], fun _ => none, []⟩

/-- A program without variables. -/
def no_key_variables : LoweringState where
  variable_indexes := []
  slot_allocation := allocate_slots_for_variable_indexes []
  type_info := fun _ => .mixed
  array_names := ["A"]
  function_defs := []
  local_numeric_names := ∅
  function_param_strings := []
  loop_string_bindings := []

end quawk
