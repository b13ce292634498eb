import Mathlib.Data.Bool.AllAny
import Mathlib.Data.List.TakeWhile
import Mathlib.Data.Nat.Digits.Defs

namespace CFormat

def FLAGS : List Char := ['-', '+', ' ', '#', '0']

def INTEGER_SPECIFIERS : List Char := ['c', 'd', 'i', 'o', 'u', 'x', 'X']

def DOUBLE_SPECIFIERS : List Char := ['a', 'A', 'e', 'E', 'f', 'g', 'G']

def SPECIFIERS : List Char := 's' :: (INTEGER_SPECIFIERS ++ DOUBLE_SPECIFIERS)

def is_flag (char : Char) : Bool := FLAGS.contains char

/-- A conversion of one argument; a precision may have no digits. -/
structure Conversion where
  flags : List Char
  width : List Char
  precision : Option (List Char)
  specifier : Char
  flags_are_flags : ∀ char ∈ flags, is_flag char = true
  width_digits : ∀ char ∈ width, char.isDigit = true
  width_head : ∀ char ∈ width.head?, is_flag char = false
  precision_digits : ∀ digits ∈ precision, ∀ char ∈ digits, char.isDigit = true
  known : specifier ∈ SPECIFIERS

def precision_text : Option (List Char) → List Char
  | none => []
  | some digits => '.' :: digits

namespace Conversion

variable (conversion : Conversion)

/-- What stands between the `%` and the specifier. -/
def options_text : List Char := conversion.flags ++ conversion.width ++ precision_text conversion.precision

def is_integer : Bool := INTEGER_SPECIFIERS.contains conversion.specifier

def is_string : Bool := conversion.specifier == 's'

def has_empty_precision : Bool := conversion.precision == some []

end Conversion

/-- Pieces of a format: a character that stands for itself, `%%`, or a conversion. -/
inductive Piece where
  | literal (char : Char) (not_percent : char ≠ '%')
  | percent
  | conversion (inner : Conversion)

def Piece.text : Piece → List Char
  | literal char _ => [char]
  | percent => ['%', '%']
  | conversion inner => '%' :: (inner.options_text ++ [inner.specifier])

def format_text (pieces : List Piece) : List Char := pieces.flatMap Piece.text

def conversions : List Piece → List Conversion
  | [] => []
  | .conversion conversion :: pieces => conversion :: conversions pieces
  | .literal _ _ :: pieces | .percent :: pieces => conversions pieces

/-- The precision, when there is a dot, and the text after it. -/
def read_precision : List Char → Option (List Char) × List Char
  | '.' :: rest => (some (rest.takeWhile Char.isDigit), rest.dropWhile Char.isDigit)
  | rest => (none, rest)

theorem read_precision_digits (text : List Char) :
    ∀ digits ∈ (read_precision text).1, ∀ char ∈ digits, char.isDigit = true := by
  unfold read_precision
  split
  · rintro digits hdigits char hchar
    obtain rfl := Option.some.inj hdigits
    exact List.mem_takeWhile_imp hchar
  · rintro digits hdigits
    cases hdigits

theorem dropWhile_head (p : Char → Bool) (text : List Char) : ∀ char ∈ (text.dropWhile p).head?, p char = false := by
  intro char hchar
  have hsome := List.head?_dropWhile_not p text
  rw [Option.mem_def.mp hchar] at hsome
  simpa using hsome

theorem takeWhile_head {p : Char → Bool} {text : List Char} {char : Char} (h : char ∈ (text.takeWhile p).head?) :
    char ∈ text.head? := by
  cases text with
  | nil => cases h
  | cons first text =>
    rw [List.takeWhile_cons] at h
    split at h
    · exact h
    · cases h

/-- What follows a `%`: a conversion, and the text after it. -/
def read_conversion (text : List Char) : Option (Conversion × List Char) :=
  let unflagged := text.dropWhile is_flag
  let narrow := unflagged.dropWhile Char.isDigit
  match (read_precision narrow).2 with
  | [] => none
  | specifier :: after =>
    if known : specifier ∈ SPECIFIERS then
      some (⟨text.takeWhile is_flag, unflagged.takeWhile Char.isDigit, (read_precision narrow).1, specifier,
        fun _ hchar => List.mem_takeWhile_imp hchar, fun _ hchar => List.mem_takeWhile_imp hchar,
        fun char hchar => dropWhile_head is_flag text char (takeWhile_head hchar), read_precision_digits narrow,
        known⟩, after)
    else none

theorem read_precision_length (text : List Char) : (read_precision text).2.length ≤ text.length := by
  unfold read_precision
  split
  · exact (List.length_dropWhile_le ..).trans (Nat.le_succ _)
  · exact le_rfl

theorem read_conversion_length {text : List Char} {conversion : Conversion} {after : List Char}
    (h : read_conversion text = some (conversion, after)) : after.length < text.length := by
  simp only [read_conversion] at h
  have hlength := (read_precision_length ((text.dropWhile is_flag).dropWhile Char.isDigit)).trans
    ((List.length_dropWhile_le ..).trans (List.length_dropWhile_le ..))
  split at h
  · cases h
  · next specifier rest hrest =>
    rw [hrest, List.length_cons] at hlength
    split_ifs at h
    cases h
    omega

/-- The pieces of a format; a format that is none of C's has no meaning. -/
def read_pieces : List Char → Option (List Piece)
  | [] => some []
  | '%' :: '%' :: rest => (read_pieces rest).map (Piece.percent :: ·)
  | char :: rest =>
    if h : char = '%' then
      match _hread : read_conversion rest with
      | none => none
      | some (conversion, after) => (read_pieces after).map (Piece.conversion conversion :: ·)
    else (read_pieces rest).map (Piece.literal char h :: ·)
termination_by text => text.length
decreasing_by
  · simp only [List.length_cons]
    omega
  · have hlength := read_conversion_length _hread
    rw [List.length_cons]
    omega
  · simp

theorem specifier_is_no_digit : ∀ specifier ∈ SPECIFIERS, specifier.isDigit = false :=
  List.all_iff_forall_prop.mp (by decide)

theorem specifier_is_no_flag : ∀ specifier ∈ SPECIFIERS, is_flag specifier = false :=
  List.all_iff_forall_prop.mp (by decide)

theorem specifier_is_no_dot : ∀ specifier ∈ SPECIFIERS, specifier ≠ '.' :=
  List.all_iff_forall_prop.mp (by decide)

theorem specifier_is_no_percent : ∀ specifier ∈ SPECIFIERS, specifier ≠ '%' :=
  List.all_iff_forall_prop.mp (by decide)

theorem flag_is_no_specifier : ∀ flag ∈ FLAGS, flag ∉ SPECIFIERS :=
  List.all_iff_forall_prop.mp (by decide)

theorem digit_is_no_specifier {char : Char} (h : char.isDigit = true) : char ∉ SPECIFIERS :=
  fun hmem => by
    rw [specifier_is_no_digit char hmem] at h
    cases h

theorem takeWhile_dropWhile_append {p : Char → Bool} {front : List Char} (rest : List Char) (hfront : ∀ char ∈ front, p char = true)
    (hrest : ∀ char ∈ rest.head?, p char = false) :
    (front ++ rest).takeWhile p = front ∧ (front ++ rest).dropWhile p = rest := by
  rw [List.takeWhile_append_of_pos hfront, List.dropWhile_append_of_pos hfront]
  cases rest with
  | nil => simp
  | cons next rest =>
    have hnext := hrest next rfl
    simp [hnext]

/-- The options of a conversion are flags, digits and a dot. -/
theorem Conversion.options_property {p : Char → Prop} (conversion : Conversion) (hflags : ∀ flag ∈ FLAGS, p flag)
    (hdigits : ∀ char, char.isDigit = true → p char) (hdot : p '.') : ∀ char ∈ conversion.options_text, p char := by
  intro char hchar
  simp only [options_text, List.mem_append, precision_text] at hchar
  rcases hchar with (hflag | hwidth) | hprecision
  · exact hflags char (by simpa [is_flag] using conversion.flags_are_flags char hflag)
  · exact hdigits char (conversion.width_digits char hwidth)
  · split at hprecision
    · cases hprecision
    · next digits hsome =>
      rcases List.mem_cons.mp hprecision with rfl | hdigit
      · exact hdot
      · exact hdigits char (conversion.precision_digits digits hsome char hdigit)

theorem Conversion.options_no_percent (conversion : Conversion) : ∀ char ∈ conversion.options_text, char ≠ '%' :=
  conversion.options_property (List.all_iff_forall_prop.mp (by decide))
    (fun _ hdigit heq => by rw [heq] at hdigit; cases hdigit) (by decide)

theorem Conversion.options_no_specifier (conversion : Conversion) :
    ∀ char ∈ conversion.options_text, char ∉ SPECIFIERS :=
  conversion.options_property flag_is_no_specifier (fun _ => digit_is_no_specifier) (by decide)

/-- The text after the flags begins with a digit that is no flag, a dot, or the specifier. -/
theorem Conversion.head_after_flags (conversion : Conversion) (after : List Char) :
    ∀ char ∈ (conversion.width ++ (precision_text conversion.precision ++ conversion.specifier :: after)).head?,
      is_flag char = false := by
  intro char hchar
  cases hwidth : conversion.width with
  | cons digit width =>
    rw [hwidth] at hchar
    exact conversion.width_head char (by rw [hwidth]; exact hchar)
  | nil =>
    rw [hwidth] at hchar
    unfold precision_text at hchar
    split at hchar
    · obtain rfl := Option.some.inj hchar
      exact specifier_is_no_flag _ conversion.known
    · obtain rfl := Option.some.inj hchar
      decide

theorem Conversion.head_after_width (conversion : Conversion) (after : List Char) {p : Char → Bool}
    (hdot : p '.' = false) (hspecifiers : ∀ specifier ∈ SPECIFIERS, p specifier = false) :
    ∀ char ∈ (precision_text conversion.precision ++ conversion.specifier :: after).head?, p char = false := by
  intro char hchar
  unfold precision_text at hchar
  split at hchar
  · obtain rfl := Option.some.inj hchar
    exact hspecifiers _ conversion.known
  · obtain rfl := Option.some.inj hchar
    exact hdot

theorem Conversion.read_precision_text (conversion : Conversion) (after : List Char) :
    read_precision (precision_text conversion.precision ++ conversion.specifier :: after) =
      (conversion.precision, conversion.specifier :: after) := by
  have hdigit := specifier_is_no_digit _ conversion.known
  unfold precision_text
  split
  · next hnone =>
    unfold read_precision
    split
    · next heq => exact absurd (List.cons.inj heq).1 (specifier_is_no_dot _ conversion.known)
    · rw [hnone]
      rfl
  · next digits hsome =>
    obtain ⟨htake, hdrop⟩ := takeWhile_dropWhile_append (conversion.specifier :: after)
      (conversion.precision_digits digits hsome) (by simp [hdigit])
    rw [hsome]
    exact Prod.ext (congrArg some htake) hdrop

theorem read_conversion_text (conversion : Conversion) (after : List Char) :
    read_conversion (conversion.options_text ++ conversion.specifier :: after) = some (conversion, after) := by
  obtain ⟨hflags, hunflagged⟩ := takeWhile_dropWhile_append _ conversion.flags_are_flags
    (conversion.head_after_flags after)
  obtain ⟨hwidth, hnarrow⟩ := takeWhile_dropWhile_append _ conversion.width_digits 
    (conversion.head_after_width after (by decide) specifier_is_no_digit)
  have hprecision := conversion.read_precision_text after
  have htext : conversion.options_text ++ conversion.specifier :: after =
      conversion.flags ++ (conversion.width ++ (precision_text conversion.precision ++ conversion.specifier :: after)) := by
    simp [Conversion.options_text]
  rw [htext]
  simp only [read_conversion, hflags, hunflagged, hwidth, hnarrow, hprecision]
  rw [dif_pos conversion.known]

theorem read_precision_sound (text : List Char) :
    precision_text (read_precision text).1 ++ (read_precision text).2 = text := by
  unfold read_precision
  split
  · simp [precision_text]
  · rfl

theorem read_conversion_sound {text : List Char} {conversion : Conversion} {after : List Char}
    (h : read_conversion text = some (conversion, after)) :
    text = conversion.options_text ++ conversion.specifier :: after := by
  simp only [read_conversion] at h
  have hprecision := read_precision_sound ((text.dropWhile is_flag).dropWhile Char.isDigit)
  split at h
  · cases h
  · next specifier rest hrest =>
    split_ifs at h
    cases h
    rw [hrest] at hprecision
    have hwhole : text.takeWhile is_flag ++ ((text.dropWhile is_flag).takeWhile Char.isDigit ++
        (text.dropWhile is_flag).dropWhile Char.isDigit) = text := by
      rw [List.takeWhile_append_dropWhile, List.takeWhile_append_dropWhile]
    rw [← hprecision] at hwhole
    simpa only [Conversion.options_text, List.append_assoc] using hwhole.symm

theorem read_conversion_percent (rest : List Char) : read_conversion ('%' :: rest) = none := by
  have hflag : is_flag '%' = false := by decide
  have hdigit : '%'.isDigit = false := by decide
  have hspecifier : '%' ∉ SPECIFIERS := by decide +kernel
  simp [read_conversion, read_precision, hflag, hdigit, hspecifier]

theorem read_pieces_literal {char : Char} (h : char ≠ '%') (rest : List Char) :
    read_pieces (char :: rest) = (read_pieces rest).map (Piece.literal char h :: ·) := by
  rw [read_pieces]
  · rw [dif_neg h]
  · intro _ heq
    exact absurd heq h

theorem read_pieces_conversion {rest after : List Char} {conversion : Conversion}
    (h : read_conversion rest = some (conversion, after)) :
    read_pieces ('%' :: rest) = (read_pieces after).map (Piece.conversion conversion :: ·) := by
  rw [read_pieces]
  · rw [dif_pos rfl]
    split
    · next hnone => rw [h] at hnone; cases hnone
    · next hsome =>
      rw [h] at hsome
      cases hsome
      rfl
  · intro rest' _ heq
    rw [heq, read_conversion_percent] at h
    cases h

theorem read_pieces_malformed {rest : List Char} (h : read_conversion rest = none) (hhead : rest.head? ≠ some '%') :
    read_pieces ('%' :: rest) = none := by
  rw [read_pieces]
  · rw [dif_pos rfl]
    split
    · rfl
    · next hsome => rw [h] at hsome; cases hsome
  · intro rest' _ heq
    exact hhead (by rw [heq]; rfl)

theorem format_text_cons (piece : Piece) (pieces : List Piece) :
    format_text (piece :: pieces) = piece.text ++ format_text pieces := rfl

theorem read_pieces_format (pieces : List Piece) : read_pieces (format_text pieces) = some pieces := by
  induction pieces with
  | nil => simp [format_text, read_pieces]
  | cons piece pieces ih =>
    rw [format_text_cons]
    cases piece with
    | literal char hchar =>
      change read_pieces (char :: format_text pieces) = _
      rw [read_pieces_literal hchar, ih]
      rfl
    | percent =>
      change read_pieces ('%' :: '%' :: format_text pieces) = _
      rw [read_pieces, ih]
      rfl
    | conversion inner =>
      have htext : (Piece.conversion inner).text ++ format_text pieces =
          '%' :: (inner.options_text ++ inner.specifier :: format_text pieces) := by
        simp [Piece.text]
      rw [htext, read_pieces_conversion (read_conversion_text inner _), ih]
      rfl

theorem read_pieces_sound {text : List Char} {pieces : List Piece} (h : read_pieces text = some pieces) :
    format_text pieces = text := by
  fun_induction read_pieces text generalizing pieces with
  | case1 =>
    cases h
    rfl
  | case2 rest ih =>
    obtain ⟨more, hmore, rfl⟩ := Option.map_eq_some_iff.mp h
    rw [format_text_cons, ih hmore]
    rfl
  | case3 _ _ _ => cases h
  | case4 rest conversion after hread _ ih =>
    obtain ⟨more, hmore, rfl⟩ := Option.map_eq_some_iff.mp h
    rw [format_text_cons, ih hmore, read_conversion_sound hread]
    simp [Piece.text]
  | case5 char rest _ hchar ih =>
    obtain ⟨more, hmore, rfl⟩ := Option.map_eq_some_iff.mp h
    rw [format_text_cons, ih hmore]
    rfl

section Print

variable {Number : Type}

/-- An argument as C passes it. -/
inductive Argument (Number : Type) where
  | int (value : Int)
  | double (value : Number)
  | string (text : List Char)

def blanks (count : Nat) : List Char := List.replicate count ' '

def zeros (count : Nat) : List Char := List.replicate count '0'

namespace Conversion

variable (conversion : Conversion)

def has_flag (flag : Char) : Bool := conversion.flags.contains flag

def width_value : Nat := Nat.ofDigitChars 10 conversion.width 0

def precision_value : Option Nat := conversion.precision.map fun digits => Nat.ofDigitChars 10 digits 0

/-- Fill up to the width with blanks. -/
def padded (text : List Char) : List Char :=
  let missing := blanks (conversion.width_value - text.length)
  if conversion.has_flag '-' then text ++ missing else missing ++ text

def is_signed : Bool := ['d', 'i'].contains conversion.specifier

def base : Nat :=
  if conversion.specifier = 'o' then 8
  else if conversion.specifier = 'x' ∨ conversion.specifier = 'X' then 16
  else 10

/-- The digits of a number, as many as the precision asks for; zero has none under the precision zero. -/
def digits_text (magnitude : Nat) : List Char :=
  let digits := if magnitude = 0 ∧ conversion.precision_value = some 0 then [] else Nat.toDigits conversion.base magnitude
  let digits := if conversion.specifier = 'X' then digits.map Char.toUpper else digits
  let digits := zeros (conversion.precision_value.getD 1 - digits.length) ++ digits
  if conversion.specifier = 'o' ∧ conversion.has_flag '#' ∧ digits.head? ≠ some '0' then '0' :: digits else digits

/-- The sign, or the mark of a hexadecimal number. -/
def sign_text (value : Int) : List Char :=
  if conversion.is_signed then
    if value < 0 then ['-']
    else if conversion.has_flag '+' then ['+']
    else if conversion.has_flag ' ' then [' ']
    else []
  else if conversion.has_flag '#' ∧ conversion.base = 16 ∧ value ≠ 0 then ['0', conversion.specifier]
  else []

/-- A whole number of any size. -/
def integer_text (value : Int) : List Char :=
  let sign := conversion.sign_text value
  let digits := conversion.digits_text value.natAbs
  if conversion.has_flag '0' ∧ ¬conversion.has_flag '-' ∧ conversion.precision = none then
    sign ++ zeros (conversion.width_value - sign.length - digits.length) ++ digits
  else conversion.padded (sign ++ digits)

def string_text (text : List Char) : List Char :=
  conversion.padded (match conversion.precision_value with
    | none => text
    | some length => text.take length)

def char_text (value : Int) : List Char := conversion.padded [Char.ofNat (value % 256).toNat]

/-- The number an `int` is read as. -/
def int_reading (value : Int) : Int := if conversion.is_signed then value else value % 2 ^ 32

-- What the C library writes for a conversion of a number with a fraction.
variable (double_text : Conversion → Number → List Char)

/-- What a conversion writes; an argument of another type than it takes has no meaning. -/
def output : Argument Number → Option (List Char)
  | .int value =>
    if conversion.is_integer then
      some (if conversion.specifier = 'c' then conversion.char_text value
        else conversion.integer_text (conversion.int_reading value))
    else none
  | .string text => if conversion.is_string then some (conversion.string_text text) else none
  | .double value =>
    if conversion.is_integer ∨ conversion.is_string then none else some (double_text conversion value)

end Conversion

def NoNul (text : List Char) : Prop := '\x00' ∉ text

theorem noNul_append {left right : List Char} : NoNul (left ++ right) ↔ NoNul left ∧ NoNul right := by
  simp [NoNul, not_or]

theorem noNul_replicate {char : Char} (h : char ≠ '\x00') (count : Nat) : NoNul (List.replicate count char) :=
  fun hmem => h (List.eq_of_mem_replicate hmem).symm

theorem digitChar_ne_nul :
    ∀ digit < 16, Nat.digitChar digit ≠ '\x00' ∧ (Nat.digitChar digit).toUpper ≠ '\x00' := by
  decide

theorem mem_toDigits {base : Nat} (hbase : 1 < base) (value : Nat) :
    ∀ char ∈ Nat.toDigits base value, ∃ digit < base, char = Nat.digitChar digit := by
  induction value using Nat.strong_induction_on with
  | _ value ih =>
    intro char hmem
    rw [Nat.toDigits_eq_if hbase] at hmem
    split_ifs at hmem with hsmall
    · exact ⟨value, hsmall, List.mem_singleton.mp hmem⟩
    · rcases List.mem_append.mp hmem with hmore | hlast
      · exact ih (value / base) (Nat.div_lt_self (by omega) hbase) char hmore
      · exact ⟨value % base, Nat.mod_lt _ (by omega), List.mem_singleton.mp hlast⟩

namespace Conversion

variable (conversion : Conversion)

theorem noNul_padded {text : List Char} : NoNul (conversion.padded text) ↔ NoNul text := by
  have hblanks := noNul_replicate (show ' ' ≠ '\x00' by decide) (conversion.width_value - text.length)
  unfold padded blanks
  split_ifs <;> simp [noNul_append, hblanks]

theorem base_bounds : 1 < conversion.base ∧ conversion.base ≤ 16 := by
  unfold base
  split_ifs <;> omega

theorem noNul_digits (magnitude : Nat) : NoNul (conversion.digits_text magnitude) := by
  obtain ⟨hbase, hbase_le⟩ := conversion.base_bounds
  have hdigits : ∀ char ∈ Nat.toDigits conversion.base magnitude, char ≠ '\x00' ∧ char.toUpper ≠ '\x00' := by
    intro char hmem
    obtain ⟨digit, hdigit, rfl⟩ := mem_toDigits hbase magnitude char hmem
    exact digitChar_ne_nul digit (by omega)
  have hplain : NoNul (Nat.toDigits conversion.base magnitude) := fun hmem => (hdigits _ hmem).1 rfl
  have hupper : NoNul ((Nat.toDigits conversion.base magnitude).map Char.toUpper) := fun hmem => by
    obtain ⟨char, hchar, heq⟩ := List.mem_map.mp hmem
    exact (hdigits char hchar).2 heq
  have hzeros (count : Nat) : NoNul (zeros count) := noNul_replicate (by decide) count
  have hcons (text : List Char) : NoNul ('0' :: text) ↔ NoNul text := by simp [NoNul]
  have hnil : NoNul [] := by simp [NoNul]
  simp only [digits_text]
  split_ifs <;> simp only [hcons, noNul_append, hzeros, true_and, List.map_nil] <;> assumption

theorem noNul_sign (value : Int) : NoNul (conversion.sign_text value) := by
  have hspecifier : conversion.specifier ≠ '\x00' := fun heq => by
    have hknown := conversion.known
    rw [heq] at hknown
    revert hknown
    decide
  unfold sign_text
  split_ifs <;> simp [NoNul, hspecifier.symm]

theorem noNul_integer (value : Int) : NoNul (conversion.integer_text value) := by
  have hsign := conversion.noNul_sign value
  have hdigits := conversion.noNul_digits value.natAbs
  have hzeros (count : Nat) : NoNul (zeros count) := noNul_replicate (by decide) count
  simp only [integer_text]
  split_ifs
  · simp [noNul_append, hsign, hdigits, hzeros]
  · simp [noNul_padded, noNul_append, hsign, hdigits]

theorem noNul_string {text : List Char} (h : NoNul text) : NoNul (conversion.string_text text) := by
  rw [string_text, noNul_padded]
  split
  · exact h
  · exact fun hmem => h (List.mem_of_mem_take hmem)

theorem noNul_char (value : Int) : NoNul (conversion.char_text value) ↔ value % 256 ≠ 0 := by
  rw [char_text, noNul_padded, NoNul, List.mem_singleton]
  have hrange : (value % 256).toNat < 256 := by omega
  have hvalid : (value % 256).toNat.isValidChar := .inl (by omega)
  have hcode : (Char.ofNat (value % 256).toNat).toNat = (value % 256).toNat := by
    rw [Char.ofNat, dif_pos hvalid]
    rfl
  constructor
  · intro hne hzero
    exact hne (by rw [hzero]; rfl)
  · intro hne heq
    rw [← heq] at hcode
    change 0 = _ at hcode
    omega

end Conversion

variable (double_text : Conversion → Number → List Char)

/-- What is printed for the pieces of a format; it has no meaning when arguments are missing. -/
def print : List Piece → List (Argument Number) → Option (List Char)
  | [], _ => some []
  | .literal char _ :: pieces, arguments => (print pieces arguments).map (char :: ·)
  | .percent :: pieces, arguments => (print pieces arguments).map ('%' :: ·)
  | .conversion _ :: _, [] => none
  | .conversion conversion :: pieces, argument :: arguments =>
    match conversion.output double_text argument with
    | none => none
    | some text => (print pieces arguments).map (text ++ ·)

/-- `printf` of C: what is written for a format and its arguments, where it has a meaning. -/
def c_printf (format : List Char) (arguments : List (Argument Number)) : Option (List Char) :=
  match read_pieces format with
  | none => none
  | some pieces => print double_text pieces arguments

theorem c_printf_format (pieces : List Piece) (arguments : List (Argument Number)) :
    c_printf double_text (format_text pieces) arguments = print double_text pieces arguments := by
  rw [c_printf, read_pieces_format]

end Print

end CFormat
