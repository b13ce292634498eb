import Mathlib.Data.List.Basic

/-- What a scanner sees of its input: the characters ahead, one step forward, where it is, and how many characters
are left. -/
structure CharStream (S P : Type) where
  peek : S → Nat → Option Char
  advance : S → Option Char × S
  point : S → P
  remaining : S → Nat
  /-- A step forward takes the character that is seen. -/
  advance_char : ∀ state, (advance state).1 = peek state 0
  remaining_advance : ∀ state char, peek state 0 = some char → remaining (advance state).2 + 1 = remaining state
  remaining_le : ∀ state, remaining (advance state).2 ≤ remaining state

namespace CharStream

variable {S S' P P' : Type}

/-- The characters of a list, with the points they come from. -/
def ofList (eof : P) : CharStream (List (Char × P)) P where
  peek state offset := (state[offset]?).map Prod.fst
  advance
    | [] => (none, [])
    | (char, _) :: rest => (some char, rest)
  point
    | [] => eof
    | (_, point) :: _ => point
  remaining := List.length
  advance_char state := by cases state <;> rfl
  remaining_advance state char h := by
    cases state with
    | nil => cases h
    | cons first rest => rfl
  remaining_le state := by
    cases state with
    | nil => exact Nat.le_refl _
    | cons first rest => exact Nat.le_succ _

/-- Two streams that show the same characters at related points, however far they are read. -/
structure Simulates (stream : CharStream S P) (stream' : CharStream S' P') (points : P → P' → Prop)
    (states : S → S' → Prop) : Prop where
  peek : ∀ {state state'}, states state state' → ∀ offset, stream.peek state offset = stream'.peek state' offset
  advance : ∀ {state state'}, states state state' → states (stream.advance state).2 (stream'.advance state').2
  point : ∀ {state state'}, states state state' → points (stream.point state) (stream'.point state')
  remaining : ∀ {state state'}, states state state' → stream.remaining state = stream'.remaining state'

variable {stream : CharStream S P} {stream' : CharStream S' P'} {points : P → P' → Prop} {states : S → S' → Prop}

theorem Simulates.char (h : stream.Simulates stream' points states) {state : S} {state' : S'}
    (hstates : states state state') : (stream.advance state).1 = (stream'.advance state').1 := by
  rw [stream.advance_char, stream'.advance_char]
  exact h.peek hstates 0

theorem remaining_pos {state : S} {char : Char} (h : stream.peek state 0 = some char) : 0 < stream.remaining state := by
  have hless := stream.remaining_advance state char h
  omega

end CharStream
