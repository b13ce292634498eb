import Quawk.CommandLine
import Quawk.Lexer
import Quawk.Lib.TokenParser

open TokenParser (left_assoc separated)

namespace quawk

/-- What ends a parse. Only the first is an error of the language, the others are exceptions of Python. -/
inductive ParseFailure where
  | parse_error (message : String)
  | index_error
  | value_error
  | overflow_error
  /-- The parser goes on without an end. -/
  | unfinished
  deriving DecidableEq

/-- The tokens from the index of the parser on. -/
abbrev Parser (α : Type) := TokenParser Token ParseFailure α

def parse_error {α : Type} (message : String) : Parser α := throw (.parse_error message)

/-- Return the current token without consuming it. -/
def current : Parser Token := do
  match ← get with
  | [] => throw .index_error
  | token :: _ => return token

/-- Consume and return the current token. -/
def advance : Parser Token := do
  match ← get with
  | [] => throw .index_error
  | token :: rest =>
    if token.kind = .eof then return token
    else
      set rest
      return token

/-- Report whether the current token has `kind`. -/
def check (kind : TokenKind) : Parser Bool := do
  let token ← current
  return token.kind == kind

/-- Return the kind of the next token without consuming it; behind the last one it is that of the last one. -/
def peek_kind : Parser TokenKind := do
  match ← get with
  | _ :: next :: _ => return next.kind
  | [token] => return token.kind
  | [] => throw .index_error

/-- Consume a token of `kind` or raise a parse error at the current span. -/
def expect (kind : TokenKind) : Parser Token := do
  let token ← current
  if token.kind = kind then
    let tokens ← get
    set tokens.tail
    return token
  else parse_error s!"expected {kind.name}, got {token.kind.name}"

def is_separator (token : Token) : Bool := token.kind == .newline || token.kind == .semicolon

/-- Consume statement separators and report whether any were present. -/
def consume_separators : Parser Bool := do
  let tokens ← get
  let rest := tokens.dropWhile is_separator
  set rest
  let _ ← current
  return rest.length < tokens.length

def is_statement_terminator : Parser Bool := do
  let token ← current
  return [.rbrace, .newline, .semicolon].contains token.kind

def PRINT_REDIRECT_START_KINDS : List TokenKind := [.greater, .greater_greater, .pipe]

def is_output_redirect_start : Parser Bool := do
  let token ← current
  return PRINT_REDIRECT_START_KINDS.contains token.kind

/-- The operator of an assignment token. -/
def assignment_op_from_token : TokenKind → Option AssignOp
  | .equal => some .plain
  | .plus_equal => some .add
  | .minus_equal => some .sub
  | .star_equal => some .mul
  | .slash_equal => some .div
  | .percent_equal => some .mod
  | .caret_equal => some .pow
  | _ => none

/-- Return the comparison operator for `kind`, if any. -/
def comparison_op_from_token : TokenKind → Option BinaryOp
  | .less => some .less
  | .less_equal => some .less_equal
  | .greater => some .greater
  | .greater_equal => some .greater_equal
  | .equal_equal => some .equal
  | .not_equal => some .not_equal
  | _ => none

def match_op_from_token : TokenKind → Option BinaryOp
  | .match_op => some .match_op
  | .not_match => some .not_match
  | _ => none

def additive_op_from_token : TokenKind → Option BinaryOp
  | .plus => some .add
  | .minus => some .sub
  | _ => none

def multiplicative_op_from_token : TokenKind → Option BinaryOp
  | .star => some .mul
  | .slash => some .div
  | .percent => some .mod
  | _ => none

def unary_op_from_token : TokenKind → Option UnaryOp
  | .plus => some .uplus
  | .minus => some .uminus
  | .bang => some .not
  | .plus_plus => some .pre_inc
  | .minus_minus => some .pre_dec
  | _ => none

def postfix_op_from_token : TokenKind → Option PostfixOp
  | .plus_plus => some .post_inc
  | .minus_minus => some .post_dec
  | _ => none

def logical_or_from_token : TokenKind → Option BinaryOp
  | .or_or => some .logical_or
  | _ => none

def logical_and_from_token : TokenKind → Option BinaryOp
  | .and_and => some .logical_and
  | _ => none

/-- Report whether `kind` can begin an expression for concatenation parsing. -/
def is_expression_start (kind : TokenKind) : Bool :=
  [.string, .number, .regex, .ident, .dollar, .lparen, .plus, .minus, .bang, .plus_plus, .minus_minus].contains kind

/-- What a character after a backslash stands for. -/
def decode_escape (escaped : Char) : Except ParseFailure Char :=
  match escaped with
  | '\\' | '"' => return escaped
  | 'n' => return '\n'
  | 't' => return '\t'
  | _ => throw (.parse_error (String.ofList ("unsupported escape sequence: \\".toList ++ [escaped])))

/-- The characters between the quotes, each escape as what it stands for. -/
def decode_characters : Text → Except ParseFailure Text
  | [] => return []
  | ['\\'] => throw (.parse_error "unterminated escape sequence in string literal")
  | '\\' :: escaped :: rest => return (← decode_escape escaped) :: (← decode_characters rest)
  | char :: rest => return char :: (← decode_characters rest)

/-- Decode the raw text of a string token into its runtime value. -/
def decode_string_literal (token : Token) : Except ParseFailure Text :=
  decode_characters ((token.text.getD []).tail.dropLast)

/-- `int` of the text of a token takes at most so many digits. -/
def MAX_INT_DIGITS : Nat := 4300

def python_int (raw_text : Text) : Option Nat :=
  if raw_text.all is_decimal_digit ∧ raw_text.length ≤ MAX_INT_DIGITS then some (Numeral.digits_value raw_text) else none

/-- The least whole number that `float` rounds to infinity, and does not take. -/
@[irreducible] def FLOAT_OVERFLOW : Nat := 2 ^ 1024 - 2 ^ 970

def token_name (token : Token) : Name := String.ofList (token.text.getD [])

/-- The calls of the expression parser that go back to an outer level. -/
structure ExpressionCalls where
  parse_assignment_expression : List TokenKind → Parser Expr
  parse_conditional_expression : Parser Expr
  parse_power_expression : Parser Expr
  parse_unary_expression : Parser Expr

section Expressions

variable (self : ExpressionCalls)

/-- Parse an expression with the current precedence rules. -/
def parse_expression (stop_kinds : List TokenKind) : Parser Expr := self.parse_assignment_expression stop_kinds

/-- A loop of the parser: every turn takes a token, so one turn more than there are tokens is enough. -/
def with_turns {α : Type} (loop : Nat → Parser α) : Parser α := do
  let tokens ← get
  loop (tokens.length + 1)

def comma : Parser Bool := do
  if ← check .comma then
    let _ ← advance
    return true
  else return false

/-- One item, and one more after every comma. -/
def comma_separated {α : Type} (item : Parser α) : Parser (List α) := do
  let first ← item
  return first :: (← with_turns (separated comma item .unfinished))

/-- Parse a comma-separated expression list. -/
def parse_expression_list (stop_kinds : List TokenKind) : Parser (List Expr) :=
  comma_separated (parse_expression self stop_kinds)

def parse_parenthesized_expression : Parser Expr := do
  let _ ← expect .lparen
  let expression ← parse_expression self []
  let _ ← expect .rparen
  return expression

/-- Parse one bracketed array subscript list. -/
def parse_array_subscripts : Parser (List Expr) := do
  let _ ← expect .lbracket
  let subscripts ← comma_separated (parse_expression self [])
  let _ ← expect .rbracket
  return subscripts

/-- Parse one lvalue in expression or statement position. -/
def parse_lvalue : Parser LValue := do
  let token ← current
  match token.kind with
  | .ident =>
    let name_token ← advance
    if ← check .lbracket then
      let subscripts ← parse_array_subscripts self
      return .array (token_name name_token) subscripts
    else return .name (token_name name_token)
  | .dollar =>
    let _ ← advance
    let index ← parse_expression self []
    return .field index
  | kind => parse_error s!"expected lvalue, got {kind.name}"

/-- Parse one associative-array indexed-read expression. -/
def parse_array_index_expression : Parser Expr := do
  let name_token ← expect .ident
  match ← parse_array_subscripts self with
  | [] => throw .index_error
  | index :: extra_indexes => return .array_index (token_name name_token) index extra_indexes

/-- Parse one function call expression. -/
def parse_call_expression : Parser Expr := do
  let name_token ← expect .ident
  let _ ← expect .lparen
  let args ← if ← check .rparen then pure [] else comma_separated (parse_expression self [])
  let _ ← expect .rparen
  return .call (token_name name_token) args

/-- The file after `<`, if there is one. -/
def parse_getline_source : Parser (Option Expr) := do
  if ← check .less then
    let _ ← advance
    return some (← parse_expression self [])
  else return none

/-- Parse one POSIX `getline` expression in the currently claimed forms. -/
def parse_getline_expression : Parser Expr := do
  let _ ← expect .ident
  if ← check .less then
    let source ← parse_getline_source self
    return .getline none source
  else
    let token ← current
    let target ← if token.kind = .ident ∨ token.kind = .dollar then some <$> parse_lvalue self else pure none
    let source ← parse_getline_source self
    return .getline target source

/-- The field under a parsed index: a whole number, or an expression. -/
def field_expression : Expr → Except ParseFailure Expr
  | .numeric_literal raw_text =>
    if '.' ∈ raw_text then return .field (.numeric_literal raw_text)
    else match python_int raw_text with
      | some index => return .field_at index
      | none => throw .value_error
  | index => return .field index

/-- Parse a primary expression. -/
def parse_primary_expression : Parser Expr := do
  let token ← current
  match token.kind with
  | .string =>
    let literal_token ← advance
    return .string_literal (← decode_string_literal literal_token)
  | .number =>
    let literal_token ← advance
    let raw_text := literal_token.text.getD []
    match python_float raw_text with
    | some _ => return .numeric_literal raw_text
    | none => throw .value_error
  | .regex =>
    let regex_token ← advance
    return .regex_literal (regex_token.text.getD [])
  | .ident =>
    if token.text = some "getline".toList then parse_getline_expression self
    else
      let next_kind ← peek_kind
      if next_kind = .lparen then parse_call_expression self
      else if next_kind = .lbracket then parse_array_index_expression self
      else
        let name_token ← advance
        if token.text = some "length".toList then return .call "length" []
        else return .name (token_name name_token)
  | .dollar =>
    let _ ← advance
    let index ← self.parse_unary_expression
    field_expression index
  | .lparen => parse_parenthesized_expression self
  | kind => parse_error s!"expected expression, got {kind.name}"

/-- Parse postfix increment and decrement expressions. -/
def parse_postfix_expression : Parser Expr := do
  let expression ← parse_primary_expression self
  let token ← current
  match postfix_op_from_token token.kind with
  | none => return expression
  | some op =>
    let _ ← advance
    return .postfix_op expression op

/-- Parse unary prefix expressions. -/
def parse_unary_expression : Parser Expr := do
  let token ← current
  match unary_op_from_token token.kind with
  | some op =>
    let _ ← advance
    let operand ← self.parse_unary_expression
    return .unary op operand
  | none => parse_postfix_expression self

/-- Parse right-associative power expressions. -/
def parse_power_expression : Parser Expr := do
  let expression ← parse_unary_expression self
  if ← check .caret then
    let _ ← advance
    let right ← self.parse_power_expression
    return .binary expression .pow right
  else return expression

/-- The current token taken as an operator, unless it is one of `stop_kinds` or none. -/
def operator_token (stop_kinds : List TokenKind) (op_from_token : TokenKind → Option BinaryOp) :
    Parser (Option BinaryOp) := do
  let token ← current
  match if stop_kinds.contains token.kind then none else op_from_token token.kind with
  | none => return none
  | some op =>
    let _ ← advance
    return some op

/-- Operands with operators between them, grouped to the left. -/
def binary_level (operator : Parser (Option BinaryOp)) (operand : Parser Expr) : Parser Expr := do
  let expression ← operand
  with_turns fun turns => left_assoc operator operand .binary .unfinished turns expression

/-- Parse multiplicative expressions. -/
def parse_multiplicative_expression : Parser Expr :=
  binary_level (operator_token [] multiplicative_op_from_token) (parse_power_expression self)

/-- Parse additive expressions. -/
def parse_additive_expression : Parser Expr :=
  binary_level (operator_token [] additive_op_from_token) (parse_multiplicative_expression self)

/-- Two expressions side by side have no token between them. -/
def concat_operator : Parser (Option BinaryOp) := do
  let token ← current
  return if is_expression_start token.kind then some .concat else none

/-- Parse implicit concatenation expressions. -/
def parse_concat_expression : Parser Expr := binary_level concat_operator (parse_additive_expression self)

/-- Parse `in` expressions. -/
def parse_in_expression : Parser Expr := do
  let expression ← parse_concat_expression self
  if ← check .in_kw then
    let _ ← advance
    let right ← parse_concat_expression self
    return .binary expression .in_op right
  else return expression

/-- Parse `~` and `!~` expressions. -/
def parse_match_expression : Parser Expr :=
  binary_level (operator_token [] match_op_from_token) (parse_in_expression self)

/-- Parse equality and relational comparisons. -/
def parse_comparison_expression (stop_kinds : List TokenKind) : Parser Expr :=
  binary_level (operator_token stop_kinds comparison_op_from_token) (parse_match_expression self)

/-- Parse logical-AND expressions. -/
def parse_logical_and_expression (stop_kinds : List TokenKind) : Parser Expr :=
  binary_level (operator_token [] logical_and_from_token) (parse_comparison_expression self stop_kinds)

/-- Parse logical-OR expressions. -/
def parse_logical_or_expression (stop_kinds : List TokenKind) : Parser Expr :=
  binary_level (operator_token [] logical_or_from_token) (parse_logical_and_expression self stop_kinds)

/-- Parse ternary conditional expressions. -/
def parse_conditional_expression (stop_kinds : List TokenKind) : Parser Expr := do
  let expression ← parse_logical_or_expression self stop_kinds
  if ← check .question then
    let _ ← advance
    let if_true ← parse_expression self []
    let _ ← expect .colon
    let if_false ← self.parse_conditional_expression
    return .conditional expression if_true if_false
  else return expression

/-- The target of an assignment; the index of a field is also kept as a `float`. -/
def assignment_target (expression : Expr) : Except ParseFailure LValue :=
  match expression, expression_to_lvalue expression with
  | .field_at index, some target => if index < FLOAT_OVERFLOW then return target else throw .overflow_error
  | _, some target => return target
  | _, none => throw (.parse_error "expected assignable expression on left-hand side")

/-- Parse assignment expressions with right associativity. -/
def parse_assignment_expression (stop_kinds : List TokenKind) : Parser Expr := do
  let expression ← parse_conditional_expression self stop_kinds
  let token ← current
  match assignment_op_from_token token.kind with
  | none => return expression
  | some op =>
    let target ← assignment_target expression
    let _ ← advance
    let value ← self.parse_assignment_expression []
    return .assign target op value

end Expressions

/-- Every call back to an outer level comes after a token, so as many levels as there are tokens are enough. -/
def expression_calls : Nat → ExpressionCalls
  | 0 => ⟨fun _ => throw .unfinished, throw .unfinished, throw .unfinished, throw .unfinished⟩
  | depth + 1 =>
    let self := expression_calls depth
    ⟨parse_assignment_expression self, parse_conditional_expression self [], parse_power_expression self,
      parse_unary_expression self⟩

section Statements

variable (calls : ExpressionCalls) (self : Parser Stmt)

/-- Parse one `print`/`printf` redirect tail. -/
def parse_output_redirect : Parser OutputRedirect := do
  let token ← advance
  match token.kind with
  | .greater => return ⟨.write, ← parse_expression calls []⟩
  | .greater_greater => return ⟨.append, ← parse_expression calls []⟩
  | .pipe => return ⟨.pipe, ← parse_expression calls []⟩
  | kind => parse_error s!"expected output redirect, got {kind.name}"

def parse_optional_redirect : Parser (Option OutputRedirect) := do
  if ← is_output_redirect_start then some <$> parse_output_redirect calls else return none

/-- Parse a `print` statement with an optional expression list. -/
def parse_print_statement : Parser Stmt := do
  let _ ← expect .print_kw
  if ← is_statement_terminator then return .print [] none
  else
    let arguments ← if ← is_output_redirect_start then pure [] else
      parse_expression_list calls PRINT_REDIRECT_START_KINDS
    let redirect ← parse_optional_redirect calls
    return .print arguments redirect

/-- Parse a `printf` statement. -/
def parse_printf_statement : Parser Stmt := do
  let _ ← expect .printf_kw
  let arguments ←
    if ← check .lparen then do
      let _ ← advance
      let arguments ← parse_expression_list calls [.rparen]
      let _ ← expect .rparen
      pure arguments
    else parse_expression_list calls PRINT_REDIRECT_START_KINDS
  let redirect ← parse_optional_redirect calls
  return .printf arguments redirect

/-- Parse a generic expression statement, folding bare assignments into statements. -/
def parse_expression_statement : Parser Stmt := do
  match ← parse_expression calls [] with
  | .assign target op value => return .assign target op value
  | expression => return .expr expression

/-- The value of an `exit` or a `return`, if there is one. -/
def parse_optional_value : Parser (Option Expr) := do
  if ← is_statement_terminator then return none else some <$> parse_expression calls []

def parse_exit_statement : Parser Stmt := do
  let _ ← expect .exit_kw
  return .exit (← parse_optional_value calls)

def parse_return_statement : Parser Stmt := do
  let _ ← expect .return_kw
  return .return_stmt (← parse_optional_value calls)

/-- Parse a `delete` statement over the supported lvalue forms. -/
def parse_delete_statement : Parser Stmt := do
  let _ ← expect .delete_kw
  return .delete (← parse_lvalue calls)

/-- A statement that may stand on a line of its own after its head. -/
def parse_body : Parser Stmt := do
  let _ ← consume_separators
  self

def parse_while_statement : Parser Stmt := do
  let _ ← expect .while_kw
  let condition ← parse_parenthesized_expression calls
  let body ← parse_body self
  return .while_stmt condition body

def parse_do_while_statement : Parser Stmt := do
  let _ ← expect .do_kw
  let body ← parse_body self
  let _ ← consume_separators
  let _ ← expect .while_kw
  let condition ← parse_parenthesized_expression calls
  return .do_while body condition

def parse_for_in_statement : Parser Stmt := do
  let name_token ← expect .ident
  let _ ← expect .in_kw
  let iterable ← parse_expression calls []
  let _ ← expect .rparen
  let body ← parse_body self
  return .for_in (token_name name_token) iterable body

/-- What stands before a token that ends it, if anything does. -/
def parse_unless {α : Type} (kind : TokenKind) (absent : α) (part : Parser α) : Parser α := do
  if ← check kind then return absent else part

def parse_classic_for_statement : Parser Stmt := do
  let init ← parse_unless .semicolon [] (parse_expression_list calls [])
  let _ ← expect .semicolon
  let condition ← parse_unless .semicolon none (some <$> parse_expression calls [])
  let _ ← expect .semicolon
  let update ← parse_unless .rparen [] (parse_expression_list calls [])
  let _ ← expect .rparen
  let body ← parse_body self
  return .for_stmt init condition update body

/-- Parse either a classic `for` loop or a `for (name in array)` loop. -/
def parse_for_statement : Parser Stmt := do
  let _ ← expect .for_kw
  let _ ← expect .lparen
  let token ← current
  let next_kind ← peek_kind
  if token.kind = .ident ∧ next_kind = .in_kw then parse_for_in_statement calls self
  else parse_classic_for_statement calls self

/-- Parse an `if` statement with optional `else` support; the separators before what is no `else` are given back. -/
def parse_if_statement : Parser Stmt := do
  let _ ← expect .if_kw
  let condition ← parse_parenthesized_expression calls
  let then_branch ← parse_body self
  let after_then ← get
  let _ ← consume_separators
  if ← check .else_kw then
    let _ ← advance
    let else_branch ← parse_body self
    return .if_stmt condition then_branch (some else_branch)
  else
    set after_then
    return .if_stmt condition then_branch none

/-- There is a statement after separators, unless the list ends with them. -/
def next_statement : Parser Bool := do
  if ← consume_separators then return !(← check .rbrace) else return false

/-- Parse a braced statement list shared by actions and block statements. -/
def parse_braced_statements : Parser (List Stmt) := do
  let _ ← expect .lbrace
  let _ ← consume_separators
  let statements ← parse_unless .rbrace [] do
    let first ← self
    return first :: (← with_turns (separated next_statement self .unfinished))
  let _ ← expect .rbrace
  return statements

/-- The statements of one word. -/
def parse_word_statement (kind : TokenKind) (statement : Stmt) : Parser Stmt := do
  let _ ← expect kind
  return statement

/-- Parse a statement in the current supported subset. -/
def parse_statement : Parser Stmt := do
  let token ← current
  match token.kind with
  | .lbrace => .block <$> parse_braced_statements self
  | .break_kw => parse_word_statement .break_kw .break_stmt
  | .continue_kw => parse_word_statement .continue_kw .continue_stmt
  | .delete_kw => parse_delete_statement calls
  | .do_kw => parse_do_while_statement calls self
  | .exit_kw => parse_exit_statement calls
  | .for_kw => parse_for_statement calls self
  | .if_kw => parse_if_statement calls self
  | .next_kw => parse_word_statement .next_kw .next
  | .nextfile_kw => parse_word_statement .nextfile_kw .nextfile
  | .print_kw => parse_print_statement calls
  | .printf_kw => parse_printf_statement calls
  | .return_kw => parse_return_statement calls
  | .while_kw => parse_while_statement calls self
  | kind =>
    if is_expression_start kind then parse_expression_statement calls
    else parse_error s!"expected statement, got {kind.name}"

end Statements

/-- A statement inside a statement comes after a token, too. -/
def statement_calls (calls : ExpressionCalls) : Nat → Parser Stmt
  | 0 => throw .unfinished
  | depth + 1 => parse_statement calls (statement_calls calls depth)

section Items

variable (calls : ExpressionCalls) (statement : Parser Stmt)

/-- Parse one non-range pattern atom. -/
def parse_pattern_atom : Parser Pattern := do
  let token ← current
  match token.kind with
  | .begin_kw =>
    let _ ← advance
    return .begin_pattern
  | .end_kw =>
    let _ ← advance
    return .end_pattern
  | _ => .expr <$> parse_expression calls []

/-- Parse one top-level pattern, including range patterns. -/
def parse_pattern : Parser Pattern := do
  let pattern ← parse_pattern_atom calls
  if ← check .comma then
    let _ ← advance
    let right ← parse_pattern_atom calls
    return .range pattern right
  else return pattern

/-- Parse a braced action block. -/
def parse_action : Parser Action := parse_braced_statements statement

/-- Parse one top-level pattern-action item. -/
def parse_pattern_action : Parser Item := do
  if ← check .lbrace then
    let bare_action ← parse_action statement
    return .pattern_action none (some bare_action)
  else
    let pattern ← parse_pattern calls
    let action ← if ← check .lbrace then some <$> parse_action statement else pure none
    return .pattern_action (some pattern) action

/-- Parse the optional identifier list in one function signature. -/
def parse_parameter_list : Parser (List Name) := do
  if ← check .rparen then return []
  else comma_separated (token_name <$> expect .ident)

/-- Parse one top-level function definition. -/
def parse_function_definition : Parser Item := do
  let _ ← expect .function_kw
  let name_token ← expect .ident
  let _ ← expect .lparen
  let params ← parse_parameter_list
  let _ ← expect .rparen
  let body ← parse_action statement
  return .function ⟨token_name name_token, params, body⟩

/-- Parse one top-level item. -/
def parse_item : Parser Item := do
  if ← check .function_kw then parse_function_definition statement else parse_pattern_action calls statement

def next_item : Parser Bool := return !(← check .eof)

def parse_separated_item : Parser Item := do
  let item ← parse_item calls statement
  let _ ← consume_separators
  return item

/-- Parse the whole program and require EOF afterward. -/
def parse_program : Parser Program := do
  let _ ← consume_separators
  let items ← with_turns (separated next_item (parse_separated_item calls statement) .unfinished)
  let _ ← expect .eof
  match items with
  | [] =>
    -- the index is behind the end of the tokens by now
    let token ← current
    parse_error s!"expected pattern-action, got {token.kind.name}"
  | items => return ⟨items⟩

end Items

/-- Parse tokens into the generalized AST for the current supported subset. -/
def parse (tokens : List Token) : Except ParseFailure Program := do
  let calls := expression_calls (tokens.length + 1)
  let (program, _) ← parse_program calls (statement_calls calls (tokens.length + 1)) tokens
  return program

end quawk
