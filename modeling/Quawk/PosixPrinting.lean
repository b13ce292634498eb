import Quawk.Parser
import Quawk.SpelledText

namespace quawk

/-- The token of an operator or of a bracket. -/
def sign (kind : TokenKind) : Token := placeless kind []

def word (name : Name) : Token := placeless .ident name.toList

/-- Two expressions side by side have no token between them. -/
def binary_kind : BinaryOp → Option TokenKind
  | .add => some .plus | .sub => some .minus | .mul => some .star | .div => some .slash | .mod => some .percent
  | .pow => some .caret | .less => some .less | .less_equal => some .less_equal | .greater => some .greater
  | .greater_equal => some .greater_equal | .equal => some .equal_equal | .not_equal => some .not_equal
  | .logical_and => some .and_and | .logical_or => some .or_or | .match_op => some .match_op
  | .not_match => some .not_match | .in_op => some .in_kw | .concat => none

def unary_kind : UnaryOp → TokenKind
  | .uplus => .plus | .uminus => .minus | .not => .bang | .pre_inc => .plus_plus | .pre_dec => .minus_minus

def postfix_kind : PostfixOp → TokenKind
  | .post_inc => .plus_plus | .post_dec => .minus_minus

def assign_kind : AssignOp → TokenKind
  | .plain => .equal | .add => .plus_equal | .sub => .minus_equal | .mul => .star_equal | .div => .slash_equal
  | .mod => .percent_equal | .pow => .caret_equal

/-- How tight the operands of an operator bind at least, left and right; on the side it groups to, as tight as itself. -/
structure OperandLevels where
  left : Nat
  right : Nat

/-- The operands of the POSIX table, from assignments at 0 and `?:` at 1 to `++` at 12, `$` at 13 and primaries at 14. -/
def posix_operands : BinaryOp → OperandLevels
  | .logical_or => ⟨2, 3⟩
  | .logical_and => ⟨3, 4⟩
  | .in_op => ⟨4, 5⟩
  | .match_op | .not_match => ⟨5, 6⟩
  | .less | .less_equal | .greater | .greater_equal | .equal | .not_equal => ⟨7, 7⟩
  | .concat => ⟨7, 8⟩
  | .add | .sub => ⟨8, 9⟩
  | .mul | .div | .mod => ⟨9, 10⟩
  | .pow => ⟨12, 11⟩

def posix_binary_level : BinaryOp → Nat
  | .less | .less_equal | .greater | .greater_equal | .equal | .not_equal => 6
  | op => min (posix_operands op).left (posix_operands op).right

def posix_unary_level : UnaryOp → Nat
  | .pre_inc | .pre_dec => 12
  | .uplus | .uminus | .not => 10

/-- How tight an expression binds in the POSIX table. -/
def posix_level : Expr → Nat
  | .assign _ _ _ => 0
  | .conditional _ _ _ => 1
  | .binary _ op _ => posix_binary_level op
  | .unary op _ => posix_unary_level op
  | .postfix_op _ _ => 12
  | .field_at _ | .field _ => 13
  | _ => 14

/-- `tokens` of `expression`, in parentheses if they bind less than `level`. -/
def enclosed (level : Nat) (expression : Expr) (tokens : List Token) : List Token :=
  if posix_level expression < level then sign .lparen :: tokens ++ [sign .rparen] else tokens

/-- What a string literal writes for a character. -/
def escaped_char (char : Char) : Text :=
  if char = '\\' then ['\\', '\\']
  else if char = '"' then ['\\', '"']
  else if char = '\n' then ['\\', 'n']
  else if char = '\t' then ['\\', 't']
  else [char]

def string_token (value : Text) : Token := placeless .string ('"' :: value.flatMap escaped_char ++ ['"'])

mutual

/-- The tokens of an expression with only the parentheses that the POSIX table asks for. -/
def posix_tokens : Expr → List Token
  | .string_literal value => [string_token value]
  | .numeric_literal raw_text => [placeless .number raw_text]
  | .regex_literal raw_text => [placeless .regex raw_text]
  | .name name => [word name]
  | .field_at index => [sign .dollar, placeless .number (index_text index)]
  | .field index => sign .dollar :: enclosed 13 index (posix_tokens index)
  | .call function args => word function :: sign .lparen :: posix_list args ++ [sign .rparen]
  | .array_index array_name index extra_indexes =>
    word array_name :: sign .lbracket :: posix_tokens index ++ posix_rest extra_indexes ++ [sign .rbracket]
  | .getline _ _ => [word "getline"]
  | .binary left op right =>
    enclosed (posix_operands op).left left (posix_tokens left) ++ ((binary_kind op).map sign).toList ++
      enclosed (posix_operands op).right right (posix_tokens right)
  | .conditional test if_true if_false =>
    enclosed 2 test (posix_tokens test) ++ sign .question :: posix_tokens if_true ++
      sign .colon :: enclosed 1 if_false (posix_tokens if_false)
  | .assign target op value => posix_target target ++ sign (assign_kind op) :: posix_tokens value
  | .unary op operand => sign (unary_kind op) :: enclosed (posix_unary_level op) operand (posix_tokens operand)
  | .postfix_op operand op => enclosed 13 operand (posix_tokens operand) ++ [sign (postfix_kind op)]

def posix_list : List Expr → List Token
  | [] => []
  | first :: rest => posix_tokens first ++ posix_rest rest

/-- The expressions of a list behind the first. -/
def posix_rest : List Expr → List Token
  | [] => []
  | next :: rest => sign .comma :: posix_tokens next ++ posix_rest rest

def posix_target : LValue → List Token
  | .name name => [word name]
  | .array name subscripts => word name :: sign .lbracket :: posix_list subscripts ++ [sign .rbracket]
  | .field index => sign .dollar :: enclosed 13 index (posix_tokens index)

end

section Throughout

variable (holds : Expr → Bool)

mutual

/-- `holds` of an expression and of all expressions in it. -/
def throughout : Expr → Bool
  | .field index => holds (.field index) && throughout index
  | .call function args => holds (.call function args) && throughout_list args
  | .array_index name index extra_indexes =>
    holds (.array_index name index extra_indexes) && throughout index && throughout_list extra_indexes
  | .binary left op right => holds (.binary left op right) && throughout left && throughout right
  | .conditional test if_true if_false =>
    holds (.conditional test if_true if_false) && throughout test && throughout if_true && throughout if_false
  | .assign target op value => holds (.assign target op value) && throughout_target target && throughout value
  | .unary op operand => holds (.unary op operand) && throughout operand
  | .postfix_op operand op => holds (.postfix_op operand op) && throughout operand
  | leaf => holds leaf

def throughout_list : List Expr → Bool
  | [] => true
  | first :: rest => throughout first && throughout_list rest

def throughout_target : LValue → Bool
  | .name _ => true
  | .array _ subscripts => throughout_list subscripts
  | .field index => throughout index

end

end Throughout

/-- A field with a whole number as its index is a `field_at`. -/
def index_writable : Expr → Bool
  | .numeric_literal raw_text => raw_text.contains '.'
  | _ => true

/-- A number that `int` and `float` take, written without leading zeros. -/
def field_writable (index : Nat) : Bool :=
  python_int (index_text index) == some index && (python_float (index_text index)).isSome

/-- A target that the parser gives: a whole number is written as `str` does. -/
def target_writable : LValue → Bool
  | .name name => name != "getline" && name != "length"
  | .array name subscripts => name != "getline" && !subscripts.isEmpty
  | .field (.numeric_literal raw_text) =>
    raw_text.contains '.' || match python_int raw_text with
      | some index => raw_text == index_text index && field_writable index && decide (index < FLOAT_OVERFLOW)
      | none => false
  | .field _ => true

/-- The operators, with operands that are no words of the parser and have a value. -/
def node_writable : Expr → Bool
  | .numeric_literal raw_text => (python_float raw_text).isSome
  | .name name => name != "getline" && name != "length"
  | .field_at index => field_writable index
  | .field index => index_writable index
  | .call function _ => function != "getline"
  | .array_index name _ _ => name != "getline"
  | .assign target _ _ => target_writable target
  | .getline _ _ => false
  | _ => true

/-- An expression tree over the operators. -/
def writable (expression : Expr) : Bool := throughout node_writable expression

/-- The operands that the parser takes: comparisons bind less than `~`, and that less than `in`, which does not group. -/
def parser_operands : BinaryOp → OperandLevels
  | .logical_or => ⟨2, 3⟩
  | .logical_and => ⟨3, 4⟩
  | .less | .less_equal | .greater | .greater_equal | .equal | .not_equal => ⟨4, 5⟩
  | .match_op | .not_match => ⟨5, 6⟩
  | .in_op => ⟨7, 7⟩
  | .concat => ⟨7, 8⟩
  | .add | .sub => ⟨8, 9⟩
  | .mul | .div | .mod => ⟨9, 10⟩
  | .pow => ⟨11, 10⟩

def parser_binary_level : BinaryOp → Nat
  | .in_op => 6
  | op => min (parser_operands op).left (parser_operands op).right

/-- The level of the parser that an expression is read at; a `$` takes the `++` behind it. -/
def parser_level : Expr → Nat
  | .assign _ _ _ => 0
  | .conditional _ _ _ => 1
  | .binary _ op _ => parser_binary_level op
  | .unary _ _ => 11
  | .postfix_op _ _ | .field_at _ | .field _ => 12
  | _ => 13

/-- An operand that the table leaves bare is one for the parser, too. -/
def operand_fits (posix_least parser_least : Nat) (operand : Expr) : Bool :=
  decide (posix_level operand < posix_least) || decide (parser_least ≤ parser_level operand)

def last_kind (tokens : List Token) : Option TokenKind := tokens.getLast?.map Token.kind

def ends_in_name (tokens : List Token) : Bool := last_kind tokens == some .ident

def ends_in_increment (tokens : List Token) : Bool :=
  last_kind tokens == some .plus_plus || last_kind tokens == some .minus_minus

/-- Behind an operand these tokens start another: no sign that the operand takes, no list of arguments of a name. -/
def adjacent (left right : List Token) : Bool :=
  right.head?.any fun token =>
    match token.kind with
    | .plus | .minus => false
    | .plus_plus | .minus_minus => ends_in_increment left
    | .lparen => !ends_in_name left
    | _ => true

/-- The parser groups the operands of a node as the table does. -/
def node_fits : Expr → Bool
  | .field index => operand_fits 13 11 index
  | .binary left op right =>
    operand_fits (posix_operands op).left (parser_operands op).left left &&
      operand_fits (posix_operands op).right (parser_operands op).right right &&
      (op != .concat || adjacent (enclosed 7 left (posix_tokens left)) (enclosed 8 right (posix_tokens right)))
  | .conditional test _ if_false => operand_fits 2 2 test && operand_fits 1 1 if_false
  | .unary op operand => operand_fits (posix_unary_level op) 11 operand
  | .postfix_op operand _ => operand_fits 13 13 operand
  | _ => true

/-- The parser groups the operands of every node as the table does. -/
def fits (expression : Expr) : Bool := throughout node_fits expression

end quawk
