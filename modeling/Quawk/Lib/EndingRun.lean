import Quawk.Lib.StatefulRun

namespace StatefulRun

namespace Run

variable {S α β γ : Type}

def Ends (run : Run S α) (start : S) (value : α) (after : S) : Prop := run start = (.value value, after)

theorem bind_of_ends {first : Run S α} {next : α → Run S β} {start middle : S} {value : α}
    (h : first.Ends start value middle) : (first >>= next) start = next value middle := by
  change Run.bind first next start = _
  unfold Run.bind
  rw [show first start = (.value value, middle) from h]

theorem bind_assoc (first : Run S α) (next : α → Run S β) (last : β → Run S γ) :
    first >>= next >>= last = first >>= fun value => next value >>= last := by
  funext start
  change Run.bind (Run.bind first next) last start = Run.bind first (fun value => Run.bind (next value) last) start
  unfold Run.bind
  rcases first start with ⟨value | _ | _ | _, middle⟩ <;> rfl

theorem bind_pure (first : Run S α) : first >>= Pure.pure = first := by
  funext start
  change Run.bind first Run.pure start = _
  unfold Run.bind
  rcases first start with ⟨value | _ | _ | _, middle⟩ <;> rfl

theorem pure_bind (value : α) (next : α → Run S β) : Pure.pure value >>= next = next value := rfl

end Run

end StatefulRun
