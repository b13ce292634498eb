import Mathlib.Data.List.Basic

/-- A parser takes tokens from the front of a list, or fails. -/
abbrev TokenParser (T E A : Type) := StateT (List T) (Except E) A

namespace TokenParser

variable {T E A B O : Type}

/-- What comes of a run on `tokens`: `post` holds of the value and the tokens left, or `fails` of the error. -/
def Meets (parser : TokenParser T E A) (tokens : List T) (post : A → List T → Prop) (fails : E → Prop) : Prop :=
  match parser tokens with
  | .ok (value, rest) => post value rest
  | .error failure => fails failure

variable {parser : TokenParser T E A} {tokens : List T} {post : A → List T → Prop} {fails : E → Prop}

theorem Meets.mono {post' : A → List T → Prop} (h : Meets parser tokens post fails)
    (himp : ∀ value rest, post value rest → post' value rest) : Meets parser tokens post' fails := by
  unfold Meets at h ⊢
  split
  · next hrun => rw [hrun] at h; exact himp _ _ h
  · next hrun => rw [hrun] at h; exact h

theorem Meets.and {post' : A → List T → Prop} (h : Meets parser tokens post fails)
    (h' : Meets parser tokens post' fails) :
    Meets parser tokens (fun value rest => post value rest ∧ post' value rest) fails := by
  unfold Meets at h h' ⊢
  split
  · next hrun => rw [hrun] at h h'; exact ⟨h, h'⟩
  · next hrun => rw [hrun] at h; exact h

@[simp] theorem meets_pure (value : A) : Meets (pure value) tokens post fails ↔ post value tokens := Iff.rfl

@[simp] theorem meets_throw (failure : E) :
    Meets (throw failure : TokenParser T E A) tokens post fails ↔ fails failure := Iff.rfl

@[simp] theorem meets_get {post : List T → List T → Prop} :
    Meets (get : TokenParser T E (List T)) tokens post fails ↔ post tokens tokens := Iff.rfl

@[simp] theorem meets_set (state : List T) {post : PUnit → List T → Prop} :
    Meets (set state : TokenParser T E PUnit) tokens post fails ↔ post ⟨⟩ state := Iff.rfl

theorem meets_bind (next : A → TokenParser T E B) {post : B → List T → Prop} :
    Meets (parser >>= next) tokens post fails ↔
      Meets parser tokens (fun value rest => Meets (next value) rest post fails) fails := by
  have hbind : (parser >>= next) tokens = parser tokens >>= fun run => next run.1 run.2 := rfl
  unfold Meets
  rw [hbind]
  cases parser tokens <;> rfl

@[simp] theorem meets_map (f : A → B) {post : B → List T → Prop} :
    Meets (f <$> parser) tokens post fails ↔ Meets parser tokens (fun value rest => post (f value) rest) fails := by
  rw [map_eq_pure_bind, meets_bind]
  rfl

theorem meets_ite {condition : Prop} [Decidable condition] {other : TokenParser T E A} :
    Meets (if condition then parser else other) tokens post fails ↔
      if condition then Meets parser tokens post fails else Meets other tokens post fails := by
  split <;> rfl

/-- `left`, and operators with an operand each for as long as there is an operator. -/
def left_assoc (operator : TokenParser T E (Option O)) (operand : TokenParser T E A) (combine : A → O → A → A)
    (unfinished : E) : Nat → A → TokenParser T E A
  | 0, _ => throw unfinished
  | fuel + 1, left => do
    match ← operator with
    | none => return left
    | some op =>
      let right ← operand
      left_assoc operator operand combine unfinished fuel (combine left op right)

/-- The loop comes to an end if every turn takes a token. -/
theorem Meets.left_assoc {ready : List T → Prop} {operator : TokenParser T E (Option O)}
    {operand : TokenParser T E A} {combine : A → O → A → A} {unfinished : E}
    (hoperator : ∀ tokens, ready tokens → Meets operator tokens
      (fun op rest => ready rest ∧ rest.length ≤ tokens.length ∧ (op = none → rest = tokens)) fails)
    (hoperand : ∀ tokens, ready tokens → Meets operand tokens
      (fun _ rest => ready rest ∧ rest.length < tokens.length) fails)
    {turns : Nat} (left : A) (hready : ready tokens) (hturns : tokens.length < turns) :
    Meets (left_assoc operator operand combine unfinished turns left) tokens
      (fun value rest => ready rest ∧ rest.length ≤ tokens.length ∧
        (value = left ∧ rest = tokens ∨ ∃ inner op right, value = combine inner op right)) fails := by
  induction turns generalizing left tokens with
  | zero => omega
  | succ turns ih =>
    unfold TokenParser.left_assoc
    rw [meets_bind]
    refine (hoperator tokens hready).mono fun op rest ⟨hrest, hle, hnone⟩ => ?_
    cases op with
    | none =>
      obtain rfl := hnone rfl
      exact ⟨hrest, hle, .inl ⟨rfl, rfl⟩⟩
    | some op =>
      dsimp only
      rw [meets_bind]
      refine (hoperand rest hrest).mono fun right later ⟨hlater, hless⟩ => ?_
      refine (ih (combine left op right) hlater (by omega)).mono fun value last ⟨hlast, hle', hvalue⟩ => ?_
      refine ⟨hlast, by omega, .inr ?_⟩
      obtain ⟨rfl, _⟩ | hvalue := hvalue
      · exact ⟨left, op, right, rfl⟩
      · exact hvalue

/-- Items after an item, for as long as there is a separator before the next one. -/
def separated (separator : TokenParser T E Bool) (item : TokenParser T E A) (unfinished : E) :
    Nat → TokenParser T E (List A)
  | 0 => throw unfinished
  | fuel + 1 => do
    if ← separator then
      let value ← item
      return value :: (← separated separator item unfinished fuel)
    else return []

theorem Meets.separated {ready : List T → Prop} {separator : TokenParser T E Bool} {item : TokenParser T E A}
    {unfinished : E}
    (hseparator : ∀ tokens, ready tokens → Meets separator tokens
      (fun _ rest => ready rest ∧ rest.length ≤ tokens.length) fails)
    (hitem : ∀ tokens, ready tokens → Meets item tokens (fun _ rest => ready rest ∧ rest.length < tokens.length) fails)
    {turns : Nat} (hready : ready tokens) (hturns : tokens.length < turns) :
    Meets (separated separator item unfinished turns) tokens
      (fun _ rest => ready rest ∧ rest.length ≤ tokens.length) fails := by
  induction turns generalizing tokens with
  | zero => omega
  | succ turns ih =>
    unfold TokenParser.separated
    rw [meets_bind]
    refine (hseparator tokens hready).mono fun present rest ⟨hrest, hle⟩ => ?_
    cases present with
    | false => exact ⟨hrest, hle⟩
    | true =>
      rw [if_pos rfl, meets_bind]
      refine (hitem rest hrest).mono fun value later ⟨hlater, hless⟩ => ?_
      rw [meets_bind]
      exact (ih hlater (by omega)).mono fun _ last ⟨hlast, hle'⟩ => ⟨hlast, by omega⟩

theorem run_bind {value : A} {rest : List T} (h : parser tokens = .ok (value, rest)) (next : A → TokenParser T E B) :
    (parser >>= next) tokens = next value rest := by
  change (parser tokens >>= fun run => next run.1 run.2) = next value rest
  rw [h]
  rfl

theorem run_bind_error {failure : E} (h : parser tokens = .error failure) (next : A → TokenParser T E B) :
    (parser >>= next) tokens = .error failure := by
  change (parser tokens >>= fun run => next run.1 run.2) = .error failure
  rw [h]
  rfl

section Loops

variable {operator : TokenParser T E (Option O)} {operand item : TokenParser T E A} {combine : A → O → A → A}
  {separator : TokenParser T E Bool} {unfinished : E} {turns : Nat} {left right value : A} {values : List A} {op : O}
  {later rest last : List T}

theorem left_assoc_stop (h : operator tokens = .ok (none, rest)) :
    left_assoc operator operand combine unfinished (turns + 1) left tokens = .ok (left, rest) := by
  unfold left_assoc
  rw [run_bind h]
  rfl

theorem left_assoc_turn (hoperator : operator tokens = .ok (some op, later))
    (hoperand : operand later = .ok (right, rest)) :
    left_assoc operator operand combine unfinished (turns + 1) left tokens =
      left_assoc operator operand combine unfinished turns (combine left op right) rest := by
  rw [left_assoc, run_bind hoperator]
  dsimp only
  rw [run_bind hoperand]

theorem separated_stop (h : separator tokens = .ok (false, rest)) :
    separated separator item unfinished (turns + 1) tokens = .ok ([], rest) := by
  unfold separated
  rw [run_bind h]
  rfl

theorem separated_turn (hseparator : separator tokens = .ok (true, later)) (hitem : item later = .ok (value, rest))
    (hmore : separated separator item unfinished turns rest = .ok (values, last)) :
    separated separator item unfinished (turns + 1) tokens = .ok (value :: values, last) := by
  rw [separated, run_bind hseparator, if_pos rfl, run_bind hitem, run_bind hmore]
  rfl

end Loops

end TokenParser
