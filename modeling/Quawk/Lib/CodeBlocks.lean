import Quawk.Lib.CodeLimits

namespace StructuredCode

variable {Ty : Type} {Op : List Ty → Ty → Type} {Note : Type} {bit : Ty} {α β : Type}

namespace Code

/-- The generator writes the code down to its end. -/
def completes (code : Code Op Note bit (fun _ => Unit) α) : Bool :=
  match generate code with
  | .ok _ => true
  | .error _ => false

/-- The code is written into the block it begins in. -/
def one_block : {α : Type} → Code Op Note bit (fun _ => Unit) α → Bool
  | _, .done _ => true
  | _, .op _ _ next => one_block (next ())
  | _, .note _ next => one_block next
  | _, .choice .. | _, .short_circuit .. | _, .guarded .. => false
  | _, .attempt first handler next =>
    one_block first && one_block (next ()) &&
      match generate first with
      | .error (some message) => one_block (handler message)
      | _ => true
  | _, .raise _ => true
  | _, .crash => true

/-- What is written of the code has its blocks in order: each phi stands behind two arms that end in the blocks it
names, the ones they begin in. -/
def joins_named : {α : Type} → Code Op Note bit (fun _ => Unit) α → Bool
  | _, .done _ => true
  | _, .op _ _ next => joins_named (next ())
  | _, .note _ next => joins_named next
  | _, .choice _ _ if_true if_false next =>
    if_true.completes && if_true.one_block && if_false.completes && if_false.one_block && joins_named (next ())
  | _, .short_circuit _ _ _ right next => right.completes && joins_named right && joins_named (next ())
  | _, .guarded _ _ body next => body.completes && joins_named body && joins_named next
  | _, .attempt first handler next =>
    joins_named first && joins_named (next ()) &&
      match generate first with
      | .error (some message) => joins_named (handler message)
      | _ => true
  | _, .raise _ => true
  | _, .crash => true

/-- The code is written to its end, and what is written is valid. -/
def accepted (code : Code Op Note bit (fun _ => Unit) α) : Bool := code.completes && code.joins_named

theorem generate_bind (code : Code Op Note bit (fun _ => Unit) α) (next : α → Code Op Note bit (fun _ => Unit) β) :
    generate (code >>= next) = generate code >>= fun value => generate (next value) := by
  change generate (code.bind next) = _
  induction code with
  | done value => rfl
  | op f operands rest ih => exact ih () next
  | note mark rest ih => exact ih next
  | choice test condition if_true if_false rest _ _ ih =>
    simp only [Code.bind, generate, ih, bind_assoc]
  | short_circuit decided left condition right rest _ ih =>
    simp only [Code.bind, generate, ih, bind_assoc]
  | guarded test condition body rest _ ih =>
    simp only [Code.bind, generate, ih, bind_assoc]
  | attempt first handler rest _ _ ih =>
    simp only [Code.bind, generate]
    split
    · simp only [ih, bind_assoc]
    · rfl
    · exact ih () next
  | raise message => rfl
  | crash => rfl

theorem completes_iff {code : Code Op Note bit (fun _ => Unit) α} :
    code.completes = true ↔ ∃ value, generate code = .ok value := by
  unfold completes
  cases generate code with
  | ok value => exact iff_of_true rfl ⟨value, rfl⟩
  | error error => exact iff_of_false Bool.false_ne_true fun ⟨_, h⟩ => nomatch h

theorem joins_named_bind {code : Code Op Note bit (fun _ => Unit) α} {value : α}
    (next : α → Code Op Note bit (fun _ => Unit) β) (h : generate code = .ok value) :
    (code >>= next).joins_named = (code.joins_named && (next value).joins_named) := by
  change (code.bind next).joins_named = _
  induction code with
  | done other =>
    cases h
    rfl
  | op f operands rest ih => exact ih () next h
  | note mark rest ih => exact ih next h
  | choice test condition if_true if_false rest _ _ ih =>
    obtain ⟨_, -, h⟩ := bind_eq_ok h
    obtain ⟨_, -, h⟩ := bind_eq_ok h
    simp only [Code.bind, joins_named, ih () next h, Bool.and_assoc]
  | short_circuit decided left condition right rest _ ih =>
    obtain ⟨_, -, h⟩ := bind_eq_ok h
    simp only [Code.bind, joins_named, ih () next h, Bool.and_assoc]
  | guarded test condition body rest _ ih =>
    obtain ⟨_, -, h⟩ := bind_eq_ok h
    simp only [Code.bind, joins_named, ih next h, Bool.and_assoc]
  | attempt first handler rest _ _ ih =>
    have hrest : generate (rest ()) = .ok value := by
      unfold generate at h
      split at h
      · exact (bind_eq_ok h).choose_spec.2
      · cases h
      · exact h
    simp only [Code.bind, joins_named, ih () next hrest, Bool.and_assoc, Bool.and_comm]
  | raise message => cases h
  | crash => cases h

/-- Code in front of other code. -/
theorem accepted_bind {code : Code Op Note bit (fun _ => Unit) Unit} {next : Unit → Code Op Note bit (fun _ => Unit) β} :
    (code >>= next).accepted = true ↔ code.accepted = true ∧ (next ()).accepted = true := by
  unfold accepted completes
  rw [generate_bind]
  cases hcode : generate code with
  | error error => exact iff_of_false (fun h => nomatch h) fun h => nomatch h.1
  | ok value =>
    rw [joins_named_bind next hcode]
    simp only [Bool.and_eq_true, true_and]
    exact ⟨fun h => ⟨h.2.1, h.1, h.2.2⟩, fun h => ⟨h.2.1, h.1, h.2.2⟩⟩

/-- Two arms are accepted where each of them is written into one block. -/
theorem accepted_choice {type : Ty} {test : Note} {condition : Unit}
    {if_true if_false : Code Op Note bit (fun _ => Unit) Unit} :
    (@choice Ty Op Note bit (fun _ => Unit) Unit type test condition if_true if_false done).accepted = true ↔
      (if_true.completes = true ∧ if_true.one_block = true) ∧ if_false.completes = true ∧ if_false.one_block = true := by
  have hcompletes : (@choice Ty Op Note bit (fun _ => Unit) Unit type test condition if_true if_false done).completes =
      (if_true.completes && if_false.completes) := by
    unfold completes
    simp only [generate]
    cases generate if_true with
    | error error => rfl
    | ok value => cases generate if_false <;> rfl
  unfold accepted
  rw [hcompletes]
  simp only [joins_named, Bool.and_eq_true, and_true]
  exact ⟨fun h => ⟨⟨h.1.1, h.2.1.1.2⟩, h.1.2, h.2.2⟩, fun h => ⟨⟨h.1.1, h.2.1⟩, ⟨⟨h.1.1, h.1.2⟩, h.2.1⟩, h.2.2⟩⟩

/-- One instruction is accepted. -/
theorem accepted_emit {types : List Ty} {type : Ty} (f : Op types type) (operands : Operands (fun _ => Unit) types) :
    (emit f operands : Code Op Note bit (fun _ => Unit) Unit).accepted = true := rfl

end Code

end StructuredCode
