import Quawk.NumeralSyntax
import Quawk.PreassignedValues

open StructuredCode.Code (bind_eq_ok)

namespace quawk

variable {Number : Type}

/-- The blanks beyond ASCII. -/
def WIDE_SPACES : List Nat :=
  [0x85, 0xa0, 0x1680, 0x2028, 0x2029, 0x202f, 0x205f, 0x3000] ++ (List.range 11).map (0x2000 + ·)

/-- What `float` takes from either end of a text. -/
def is_float_space (char : Char) : Bool := is_numeric_space char || WIDE_SPACES.contains char.toNat

/-- Python takes an underscore out of a number only where a digit stands on both sides of it. -/
def remove_underscores (previous : Option Char) : Text → Option Text
  | [] => if previous = some '_' then none else some []
  | '_' :: rest => if previous.any is_decimal_digit then remove_underscores (some '_') rest else none
  | char :: rest =>
    if previous = some '_' ∧ ¬ is_decimal_digit char then none
    else (remove_underscores (some char) rest).map (char :: ·)

/-- Python's words for infinity and for no number, in either case. -/
def python_word (text : Text) : Option Numeral.Value :=
  let (negative, unsigned) := read_sign text
  let lower := unsigned.map Char.toLower
  if lower = "infinity".toList ∨ lower = "inf".toList then some (.infinity negative)
  else if lower = "nan".toList then some .nan
  else none

/-- `float` of a text: a numeral between blanks, with nothing left over. -/
def python_float (text : Text) : Option Numeral.Value := do
  let stripped := (text.dropWhile is_float_space).rdropWhile is_float_space
  let numeral ← remove_underscores none stripped
  match python_word numeral with
  | some value => some value
  | none =>
    match Numeral.read_decimal is_decimal_digit numeral with
    | some (value, []) => some (.finite value)
    | _ => none

/-- Why an assignment is refused. -/
inductive AssignmentError where
  /-- `invalid -v assignment …: expected name=value` -/
  | no_value (assignment : Text)
  /-- `invalid -v variable name …` -/
  | invalid_name (name : Text)

/-- The name and the text of an assignment. -/
def assignment_parts (assignment : Text) : Name × Text :=
  (String.ofList (assignment.takeWhile (· != '=')), (assignment.dropWhile (· != '=')).drop 1)

/-- The text of the last `-v` of a name. -/
def last_text (assignments : List Text) (name : Name) : Option Text :=
  (assignments.map assignment_parts).reverse.lookup name

section Parse

-- The double nearest to a number that is spelled out.
variable (round : Numeral.Value → Number)

def assignment_value (raw_value : Text) : InitialVariableValue Number :=
  match python_float raw_value with
  | some value => .number (round value)
  | none => .string raw_value

def parse_assignment (assignment : Text) : Except AssignmentError (Name × InitialVariableValue Number) :=
  if '=' ∉ assignment then throw (.no_value assignment)
  else
    let (name, raw_value) := assignment_parts assignment
    if is_identifier name then pure (name, assignment_value round raw_value)
    else throw (.invalid_name name.toList)

/-- Parse ordered `-v name=value` assignments for execution. -/
def parse_assignments (assignments : List Text) : Except AssignmentError (InitialVariables Number) :=
  assignments.mapM (parse_assignment round)

variable {round} {assignments : List Text} {initial_variables : InitialVariables Number}

theorem parse_assignment_ok {assignment : Text} {assigned : Name × InitialVariableValue Number}
    (h : parse_assignment round assignment = .ok assigned) :
    assigned = ((assignment_parts assignment).1, assignment_value round (assignment_parts assignment).2) ∧
      is_identifier assigned.1 = true := by
  unfold parse_assignment at h
  dsimp only at h
  split_ifs at h with hequals hname
  cases h
  exact ⟨rfl, hname⟩

theorem parse_assignments_eq (h : parse_assignments round assignments = .ok initial_variables) :
    initial_variables = assignments.map (fun assignment =>
        ((assignment_parts assignment).1, assignment_value round (assignment_parts assignment).2)) ∧
      ∀ assigned ∈ initial_variables, is_identifier assigned.1 = true := by
  unfold parse_assignments at h
  induction assignments generalizing initial_variables with
  | nil =>
    cases h
    exact ⟨rfl, fun _ hmem => nomatch hmem⟩
  | cons assignment rest ih =>
    rw [List.mapM_cons] at h
    obtain ⟨assigned, hfirst, h⟩ := bind_eq_ok h
    obtain ⟨parsed, hrest, h⟩ := bind_eq_ok h
    obtain ⟨rfl, hname⟩ := parse_assignment_ok hfirst
    obtain ⟨rfl, hnames⟩ := ih hrest
    cases h
    exact ⟨rfl, List.forall_mem_cons.mpr ⟨hname, hnames⟩⟩

theorem last_value_of_text (h : parse_assignments round assignments = .ok initial_variables) {name : Name} {text : Text}
    (hlast : last_text assignments name = some text) :
    last_value initial_variables name = some (assignment_value round text) := by
  rw [(parse_assignments_eq h).1]
  unfold last_value
  unfold last_text at hlast
  rw [← List.map_reverse] at hlast ⊢
  generalize assignments.reverse = reversed at hlast ⊢
  induction reversed with
  | nil => cases hlast
  | cons assignment rest ih =>
    rw [List.map_cons, List.lookup_cons] at hlast ⊢
    cases hname : name == (assignment_parts assignment).1 with
    | true =>
      rw [hname] at hlast
      exact congrArg (fun text => some (assignment_value round text)) (Option.some.inj hlast)
    | false =>
      rw [hname] at hlast
      exact ih hlast

end Parse

end quawk
