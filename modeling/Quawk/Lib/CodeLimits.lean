import Quawk.Lib.StructuredCode

namespace StructuredCode

variable {Ty : Type} {Op : List Ty → Ty → Type} {Note : Type} {bit : Ty} {V : Ty → Type} {α β : Type}

/-- What code may contain: the instructions it may write and the errors it may raise. -/
structure Limits (Op : List Ty → Ty → Type) where
  op : {types : List Ty} → {type : Ty} → Op types type → Prop
  error : String → Prop

namespace Code

/-- The code writes only instructions and raises only errors within the limits, whatever its
operands are. What a handler may raise depends on what it is given. -/
def Within (limits : Limits Op) : {α : Type} → Code Op Note bit V α → Prop
  | _, .done _ => True
  | _, .op f _ next => limits.op f ∧ ∀ value, Within limits (next value)
  | _, .note _ next => Within limits next
  | _, .choice _ _ if_true if_false next =>
    Within limits if_true ∧ Within limits if_false ∧ ∀ value, Within limits (next value)
  | _, .short_circuit _ _ _ right next => Within limits right ∧ ∀ value, Within limits (next value)
  | _, .guarded _ _ body next => Within limits body ∧ Within limits next
  | _, .attempt first handler next =>
    Within limits first ∧ (∀ message, limits.error message → Within limits (handler message)) ∧
      ∀ value, Within limits (next value)
  | _, .raise message => limits.error message
  | _, .crash => True

variable {limits : Limits Op}

theorem Within.emit {types : List Ty} {type : Ty} {f : Op types type} {operands : Operands V types}
    (h : limits.op f) : (emit f operands : Code Op Note bit V (V type)).Within limits :=
  ⟨h, fun _ => trivial⟩

/-- One instruction in front of other code. -/
theorem Within.emit_bind {types : List Ty} {type : Ty} {f : Op types type} {operands : Operands V types}
    {next : V type → Code Op Note bit V α} (h : limits.op f) (hnext : ∀ value, (next value).Within limits) :
    (Code.emit f operands >>= next).Within limits :=
  ⟨h, hnext⟩

/-- Code may be put down in front of other code. -/
theorem Within.bind {code : Code Op Note bit V α} {next : α → Code Op Note bit V β} (h : code.Within limits)
    (hnext : ∀ value, (next value).Within limits) : (code >>= next).Within limits := by
  change (code.bind next).Within limits
  induction code with
  | done value => exact hnext value
  | op f operands rest ih => exact ⟨h.1, fun value => ih value (h.2 value) hnext⟩
  | note mark rest ih => exact ih h hnext
  | choice test condition if_true if_false rest _ _ ih =>
    exact ⟨h.1, h.2.1, fun value => ih value (h.2.2 value) hnext⟩
  | short_circuit decided left condition right rest _ ih =>
    exact ⟨h.1, fun value => ih value (h.2 value) hnext⟩
  | guarded test condition body rest _ ih => exact ⟨h.1, ih h.2 hnext⟩
  | attempt first handler rest _ _ ih =>
    exact ⟨h.1, h.2.1, fun value => ih value (h.2.2 value) hnext⟩
  | raise message => exact h
  | crash => trivial

/-- Writes the code down from front to back: its result, or the error that stops it, which has
no message where it is not one that `attempt` catches. -/
def generate : {α : Type} → Code Op Note bit (fun _ => Unit) α → Except (Option String) α
  | _, .done value => .ok value
  | _, .op _ _ next => generate (next ())
  | _, .note _ next => generate next
  | _, .choice _ _ if_true if_false next =>
    generate if_true >>= fun _ => generate if_false >>= fun _ => generate (next ())
  | _, .short_circuit _ _ _ right next => generate right >>= fun _ => generate (next ())
  | _, .guarded _ _ body next => generate body >>= fun _ => generate next
  | _, .attempt first handler next =>
    match generate first with
    | .error (some message) => generate (handler message) >>= fun _ => generate (next ())
    | .error none => .error none
    | .ok _ => generate (next ())
  | _, .raise message => .error (some message)
  | _, .crash => .error none

theorem bind_eq_error {ε : Type} {first : Except ε α} {next : α → Except ε β} {error : ε}
    (h : (first >>= next) = .error error) :
    first = .error error ∨ ∃ value, first = .ok value ∧ next value = .error error := by
  cases first with
  | error other =>
    cases h
    exact .inl rfl
  | ok value => exact .inr ⟨value, rfl, h⟩

theorem bind_eq_ok {ε : Type} {first : Except ε α} {next : α → Except ε β} {result : β}
    (h : (first >>= next) = .ok result) : ∃ value, first = .ok value ∧ next value = .ok result := by
  cases first with
  | error error => cases h
  | ok value => exact ⟨value, rfl, h⟩

/-- The error that stops the generator is within the limits of the code. -/
theorem Within.error_of_generate {code : Code Op Note bit (fun _ => Unit) α} {message : String}
    (h : code.Within limits) (hgenerate : code.generate = .error (some message)) : limits.error message := by
  induction code generalizing message with
  | done value => cases hgenerate
  | op f operands rest ih => exact ih () (h.2 ()) hgenerate
  | note mark rest ih => exact ih h hgenerate
  | choice test condition if_true if_false rest ih_true ih_false ih =>
    obtain htrue | ⟨_, _, hgenerate⟩ := bind_eq_error hgenerate
    · exact ih_true h.1 htrue
    · obtain hfalse | ⟨_, _, hrest⟩ := bind_eq_error hgenerate
      · exact ih_false h.2.1 hfalse
      · exact ih () (h.2.2 ()) hrest
  | short_circuit decided left condition right rest ih_right ih =>
    obtain hright | ⟨_, _, hrest⟩ := bind_eq_error hgenerate
    · exact ih_right h.1 hright
    · exact ih () (h.2 ()) hrest
  | guarded test condition body rest ih_body ih =>
    obtain hbody | ⟨_, _, hrest⟩ := bind_eq_error hgenerate
    · exact ih_body h.1 hbody
    · exact ih h.2 hrest
  | attempt first handler rest ih_first ih_handler ih =>
    unfold generate at hgenerate
    split at hgenerate
    · rename_i caught hcaught
      obtain hhandler | ⟨_, _, hrest⟩ := bind_eq_error hgenerate
      · exact ih_handler caught (h.2.1 caught (ih_first h.1 hcaught)) hhandler
      · exact ih () (h.2.2 ()) hrest
    · cases hgenerate
    · exact ih () (h.2.2 ()) hgenerate
  | raise other =>
    cases hgenerate
    exact h
  | crash => cases hgenerate

end Code

end StructuredCode
