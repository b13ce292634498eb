import Quawk.Source

namespace quawk

inductive TokenKind where
  | begin_kw | break_kw | continue_kw | delete_kw | do_kw | end_kw | else_kw | exit_kw | for_kw | function_kw
  | if_kw | in_kw | next_kw | nextfile_kw | print_kw | printf_kw | return_kw | while_kw | ident | string | number
  | regex | less | less_equal | greater | greater_equal | greater_greater | equal_equal | not_equal | or_or | pipe
  | and_and | match_op | not_match | plus | minus | star | slash | percent | caret | bang | equal | plus_equal
  | minus_equal | star_equal | slash_equal | percent_equal | caret_equal | plus_plus | minus_minus | dollar
  | question | colon | lbrace | rbrace | lparen | rparen | lbracket | rbracket | comma | semicolon | newline | eof
  deriving DecidableEq, Repr

namespace TokenKind

/-- The name of the kind in an error. -/
def name : TokenKind → String
  | .begin_kw => "BEGIN" | .break_kw => "BREAK" | .continue_kw => "CONTINUE" | .delete_kw => "DELETE"
  | .do_kw => "DO" | .end_kw => "END" | .else_kw => "ELSE" | .exit_kw => "EXIT" | .for_kw => "FOR"
  | .function_kw => "FUNCTION" | .if_kw => "IF" | .in_kw => "IN" | .next_kw => "NEXT" | .nextfile_kw => "NEXTFILE"
  | .print_kw => "PRINT" | .printf_kw => "PRINTF" | .return_kw => "RETURN" | .while_kw => "WHILE"
  | .ident => "IDENT" | .string => "STRING" | .number => "NUMBER" | .regex => "REGEX" | .less => "LESS"
  | .less_equal => "LESS_EQUAL" | .greater => "GREATER" | .greater_equal => "GREATER_EQUAL"
  | .greater_greater => "GREATER_GREATER" | .equal_equal => "EQUAL_EQUAL" | .not_equal => "NOT_EQUAL"
  | .or_or => "OR_OR" | .pipe => "PIPE" | .and_and => "AND_AND" | .match_op => "MATCH" | .not_match => "NOT_MATCH"
  | .plus => "PLUS" | .minus => "MINUS" | .star => "STAR" | .slash => "SLASH" | .percent => "PERCENT"
  | .caret => "CARET" | .bang => "BANG" | .equal => "EQUAL" | .plus_equal => "PLUS_EQUAL"
  | .minus_equal => "MINUS_EQUAL" | .star_equal => "STAR_EQUAL" | .slash_equal => "SLASH_EQUAL"
  | .percent_equal => "PERCENT_EQUAL" | .caret_equal => "CARET_EQUAL" | .plus_plus => "PLUS_PLUS"
  | .minus_minus => "MINUS_MINUS" | .dollar => "DOLLAR" | .question => "QUESTION" | .colon => "COLON"
  | .lbrace => "LBRACE" | .rbrace => "RBRACE" | .lparen => "LPAREN" | .rparen => "RPAREN" | .lbracket => "LBRACKET"
  | .rbracket => "RBRACKET" | .comma => "COMMA" | .semicolon => "SEMICOLON" | .newline => "NEWLINE" | .eof => "EOF"

end TokenKind

def KEYWORDS : List (String × TokenKind) :=
  [("BEGIN", .begin_kw), ("break", .break_kw), ("continue", .continue_kw), ("delete", .delete_kw), ("do", .do_kw),
    ("END", .end_kw), ("else", .else_kw), ("exit", .exit_kw), ("for", .for_kw), ("function", .function_kw),
    ("if", .if_kw), ("in", .in_kw), ("next", .next_kw), ("nextfile", .nextfile_kw), ("print", .print_kw),
    ("printf", .printf_kw), ("return", .return_kw), ("while", .while_kw)]

def PUNCTUATION_KINDS : List (Char × TokenKind) :=
  [('<', .less), ('>', .greater), ('|', .pipe), ('+', .plus), ('-', .minus), ('*', .star), ('%', .percent),
    ('^', .caret), ('!', .bang), ('~', .match_op), ('$', .dollar), ('=', .equal), ('?', .question), (':', .colon),
    ('{', .lbrace), ('}', .rbrace), ('(', .lparen), (')', .rparen), ('[', .lbracket), (']', .rbracket),
    (',', .comma), (';', .semicolon)]

def MULTI_CHAR_TOKEN_KINDS : List ((Char × Char) × TokenKind) :=
  [(('<', '='), .less_equal), (('>', '='), .greater_equal), (('>', '>'), .greater_greater),
    (('=', '='), .equal_equal), (('!', '='), .not_equal), (('|', '|'), .or_or), (('&', '&'), .and_and),
    (('!', '~'), .not_match), (('+', '='), .plus_equal), (('-', '='), .minus_equal), (('*', '='), .star_equal),
    (('/', '='), .slash_equal), (('%', '='), .percent_equal), (('^', '='), .caret_equal), (('+', '+'), .plus_plus),
    (('-', '-'), .minus_minus)]

/-- The kinds after which an operand is expected. -/
def OPERAND_CONTEXT_KINDS : List TokenKind :=
  [.and_and, .bang, .caret, .colon, .comma, .dollar, .do_kw, .else_kw, .equal, .equal_equal, .exit_kw, .greater,
    .greater_equal, .if_kw, .in_kw, .lbrace, .lbracket, .less, .less_equal, .lparen, .match_op, .minus, .newline,
    .not_equal, .not_match, .or_or, .percent, .plus, .plus_equal, .minus_equal, .star_equal, .slash_equal,
    .percent_equal, .caret_equal, .print_kw, .printf_kw, .question, .return_kw, .semicolon, .slash, .star]

structure SourceSpan where
  start : SourcePoint
  stop : SourcePoint
  deriving DecidableEq, Repr

structure Token where
  kind : TokenKind
  span : SourceSpan
  text : Option Text
  deriving DecidableEq, Repr

end quawk
