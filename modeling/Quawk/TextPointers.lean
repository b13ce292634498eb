import Quawk.LowerViews
import Quawk.Substrings

open StructuredCode (Operands)
open StructuredCode.Code (emit)

namespace quawk

/-- Where a text is: in a block of the scratch buffer, in storage that may be freed, or in the program. -/
inductive StoragePointer where
  | scratch (block : Nat)
  | stored (address : Nat)
  | constant (text : Text)
  deriving DecidableEq

/-- The scratch buffer is moved to another block when it grows. The keys that elements were accessed under are kept in
order. -/
structure PointerMemory where
  scratch_block : Nat
  scratch_capacity : Nat
  scratch_buffer : Text
  stored : Nat → Option Text
  accessed : List Text

namespace PointerMemory

/-- The text under a pointer; there is none in a block that was left or storage that was freed. -/
def read (memory : PointerMemory) : StoragePointer → Option Text
  | .scratch block => if block = memory.scratch_block then some memory.scratch_buffer else none
  | .stored address => memory.stored address
  | .constant text => some text

/-- `qk_store_scratch` -/
def qk_store_scratch (memory : PointerMemory) (text : Text) : PointerMemory :=
  if memory.scratch_capacity < text.length + 1 then
    { memory with
      scratch_block := memory.scratch_block + 1
      scratch_capacity := text.length + 1
      scratch_buffer := text }
  else { memory with scratch_buffer := text }

def scratch_pointer (memory : PointerMemory) : StoragePointer := .scratch memory.scratch_block

/-- `qk_concat`: an operand in the scratch buffer is copied before the buffer is written. -/
def qk_concat (memory : PointerMemory) (left right : StoragePointer) : Option (StoragePointer × PointerMemory) := do
  let left ← memory.read left
  let right ← memory.read right
  let memory := memory.qk_store_scratch (left ++ right)
  some (memory.scratch_pointer, memory)

/-- A copy from the scratch buffer to its start, of this many characters, reaches back over itself, which is undefined. -/
def CopiesOntoItself (memory : PointerMemory) (pointer : StoragePointer) (start_index length : Nat) : Prop :=
  pointer = memory.scratch_pointer ∧ start_index < length

instance (memory : PointerMemory) (pointer : StoragePointer) (start_index length : Nat) :
    Decidable (memory.CopiesOntoItself pointer start_index length) := inferInstanceAs (Decidable (_ ∧ _))

/-- `qk_store_scratch` of a part of the text under a pointer -/
def store_part (memory : PointerMemory) (pointer : StoragePointer) (text : Text) (start_index length : Nat) :
    Option (StoragePointer × PointerMemory) :=
  if memory.CopiesOntoItself pointer start_index length then none
  else
    let stored := memory.qk_store_scratch ((text.drop start_index).take length)
    some (stored.scratch_pointer, stored)

def qk_substr2 (memory : PointerMemory) (pointer : StoragePointer) (start : Int) : Option (StoragePointer × PointerMemory) := do
  let text ← memory.read pointer
  let length := text.length
  let start_index := if start ≤ 1 then 0 else (start - 1).toNat
  let start_index := if length < start_index then length else start_index
  memory.store_part pointer text start_index (length - start_index)

def qk_substr3 (memory : PointerMemory) (pointer : StoragePointer) (start length : Int) :
    Option (StoragePointer × PointerMemory) :=
  if length ≤ 0 then some (.constant [], memory)
  else do
    let text ← memory.read pointer
    let text_length := text.length
    let start_index := if start ≤ 1 then 0 else (start - 1).toNat
    let start_index := if text_length < start_index then text_length else start_index
    let slice_length := length.toNat
    let slice_length := if text_length - start_index < slice_length then text_length - start_index else slice_length
    memory.store_part pointer text start_index slice_length

theorem read_scratch_pointer (memory : PointerMemory) (text : Text) :
    (memory.qk_store_scratch text).read (memory.qk_store_scratch text).scratch_pointer = some text := by
  unfold read scratch_pointer
  dsimp only
  rw [if_pos rfl]
  unfold qk_store_scratch
  split_ifs <;> rfl

/-- What is not in the scratch buffer stays when the buffer is written. -/
theorem read_store_scratch (memory : PointerMemory) (text : Text) {pointer : StoragePointer}
    (h : ∀ block, pointer ≠ .scratch block) : (memory.qk_store_scratch text).read pointer = memory.read pointer := by
  cases pointer with
  | scratch block => exact absurd rfl (h block)
  | stored address =>
    unfold read qk_store_scratch
    split_ifs <;> rfl
  | constant _ => rfl

end PointerMemory

/-- What operands stand for, when pointers are kept apart from the texts they point to. -/
abbrev PointerValue (Number : Type) : Ty → Type
  | .double => Number
  | .i1 => Bool
  | .i8 => Option Char
  | .i32 | .i64 => Int
  | .ptr => StoragePointer
  | .addr | .slot | .arrays | .handle => Nat
  | .unit => Unit

/-- Numbers, the values and the texts they have under the `CONVFMT` there is, and what the other instructions do, which
is not looked into: one may write the scratch buffer, free texts or have no result. -/
structure PointerRuntime (Number : Type) where
  value_of : Number → Rat
  format_number : PointerMemory → Number → Text
  perform : {types : List Ty} → {type : Ty} → Op types type → Operands (PointerValue Number) types → PointerMemory →
    Option (PointerValue Number type × PointerMemory)

section Running

variable {Number : Type} (runtime : PointerRuntime Number)

/-- An access to an element reads its key. -/
def PointerRuntime.access {types : List Ty} {type : Ty} (f : Op types type)
    (operands : Operands (PointerValue Number) types) (key : StoragePointer) (memory : PointerMemory) :
    Option (PointerValue Number type × PointerMemory) := do
  let text ← memory.read key
  let (result, after) ← runtime.perform f operands memory
  some (result, { after with accessed := memory.accessed ++ [text] })

def PointerRuntime.run_op {types : List Ty} {type : Ty} (f : Op types type)
    (operands : Operands (PointerValue Number) types) (memory : PointerMemory) :
    Option (PointerValue Number type × PointerMemory) :=
  match types, type, f, operands with
  | _, _, .string_constant text, _ => some (.constant text, memory)
  | _, _, .qk_concat, (left, right, _) => memory.qk_concat left right
  | _, _, .qk_format_number, (value, _) =>
    let memory := memory.qk_store_scratch (runtime.format_number memory value)
    some (memory.scratch_pointer, memory)
  | _, _, .fptosi_i64, (value, _) => (fptosi 64 (runtime.value_of value)).map fun whole => (whole, memory)
  | _, _, .qk_substr2, (text, start, _) => memory.qk_substr2 text start
  | _, _, .qk_substr3, (text, start, length, _) => memory.qk_substr3 text start length
  | _, _, .qk_array_get, (name, key, _) => runtime.access .qk_array_get (name, key, ()) key memory
  | _, _, .qk_array_get_number, (name, key, _) => runtime.access .qk_array_get_number (name, key, ()) key memory
  | _, _, .qk_array_set_string, (name, key, text, _) =>
    runtime.access .qk_array_set_string (name, key, text, ()) key memory
  | _, _, .qk_array_set_number, (name, key, number, _) =>
    runtime.access .qk_array_set_number (name, key, number, ()) key memory
  | _, _, .qk_array_delete, (name, key, _) => runtime.access .qk_array_delete (name, key, ()) key memory
  | _, _, f, operands => runtime.perform f operands memory

/-- The result of a code and the memory it leaves; there is none where the code reads what is not there. -/
def run_pointers {α : Type} : Code (PointerValue Number) α → PointerMemory → Option (α × PointerMemory)
  | .done value, memory => some (value, memory)
  | .op f operands next, memory =>
    (runtime.run_op f operands memory).bind fun result => run_pointers (next result.1) result.2
  | .note _ next, memory => run_pointers next memory
  | .choice _ condition if_true if_false next, memory =>
    (if condition then run_pointers if_true memory else run_pointers if_false memory).bind fun result =>
      run_pointers (next result.1) result.2
  | .short_circuit decided _ condition right next, memory =>
    (if condition = decided then some (decided, memory) else run_pointers right memory).bind fun result =>
      run_pointers (next result.1) result.2
  | .guarded _ condition body next, memory =>
    (if condition then run_pointers body memory else some ((), memory)).bind fun result => run_pointers next result.2
  | .attempt _ _ _, _ | .raise _, _ | .crash, _ => none

variable {runtime}

theorem run_pointers_bind {α β : Type} (code : Code (PointerValue Number) α) (next : α → Code (PointerValue Number) β)
    (memory : PointerMemory) : run_pointers runtime (code >>= next) memory =
      (run_pointers runtime code memory).bind fun result => run_pointers runtime (next result.1) result.2 := by
  change run_pointers runtime (StructuredCode.Code.bind code next) memory = _
  induction code generalizing memory with
  | done value => rfl
  | op f operands rest ih =>
    simp only [StructuredCode.Code.bind, run_pointers, ih, Option.bind_assoc]
  | note _ rest ih => exact ih next memory
  | choice _ condition if_true if_false rest _ _ ih =>
    simp only [StructuredCode.Code.bind, run_pointers, ih, Option.bind_assoc]
  | short_circuit decided _ condition right rest _ ih =>
    simp only [StructuredCode.Code.bind, run_pointers, ih, Option.bind_assoc]
  | guarded _ condition body rest _ ih =>
    simp only [StructuredCode.Code.bind, run_pointers, ih, Option.bind_assoc]
  | attempt _ _ _ _ _ _ => rfl
  | raise _ => rfl
  | crash => rfl

theorem run_pointers_emit {types : List Ty} {type : Ty} {f : Op types type}
    {operands : Operands (PointerValue Number) types} (memory : PointerMemory) :
    run_pointers runtime (emit f operands) memory = runtime.run_op f operands memory := by
  unfold emit
  simp only [run_pointers]
  cases runtime.run_op f operands memory <;> rfl

theorem run_pointers_emit_void {types : List Ty} {f : Op types .unit} {operands : Operands (PointerValue Number) types}
    (memory : PointerMemory) :
    run_pointers runtime (emit_void f operands) memory =
      (runtime.run_op f operands memory).map fun result => ((), result.2) := by
  unfold emit_void
  simp only [run_pointers]
  cases runtime.run_op f operands memory <;> rfl

theorem accessed_of_access {types : List Ty} {type : Ty} {f : Op types type}
    {operands : Operands (PointerValue Number) types} {key : StoragePointer} {memory after : PointerMemory} {text : Text}
    {result : PointerValue Number type} (hkey : memory.read key = some text)
    (h : runtime.access f operands key memory = some (result, after)) : after.accessed = memory.accessed ++ [text] := by
  unfold PointerRuntime.access at h
  rw [hkey, Option.bind_eq_bind, Option.bind_some] at h
  obtain ⟨⟨_, other⟩, -, heq⟩ := Option.bind_eq_some_iff.mp h
  obtain ⟨-, rfl⟩ := Prod.mk.inj (Option.some.inj heq)
  rfl

end Running

end quawk
