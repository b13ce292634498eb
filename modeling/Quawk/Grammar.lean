import Quawk.Lib.Ebnf
import Quawk.Token

namespace quawk

open Ebnf (all any)

/-- The nonterminals of the concrete syntax. -/
inductive Nonterminal where
  | program | item | function_def | param_list | pattern_action | pattern_range | pattern | action | stmt_list | sep
  | stmt | for_init | for_update | expr_list | simple_stmt | print_stmt | printf_stmt | output_redirect
  | subscript_list | lvalue | expr | assign_expr | assign_op | conditional_expr | or_expr | and_expr | compare_expr
  | rel_op | eq_op | match_expr | in_expr | concat_expr | add_expr | mul_expr | pow_expr | unary_expr | postfix_expr
  | primary | func_call | arg_list | bare_length_call | getline_expr | getline_target_only | getline_named_target
  deriving DecidableEq, Repr

/-- A part of a rule. -/
abbrev Rule := Ebnf TokenKind Nonterminal

/-- A token of a rule. -/
def tok (kind : TokenKind) : Rule := .terminal kind

/-- A nonterminal of a rule. -/
def non (name : Nonterminal) : Rule := .nonterminal name

/-- `body`, and more of them behind a separator. -/
def listed (separator body : Rule) : Rule := .seq body (.star (.seq separator body))

/-- The rules of `quawk.ebnf`. The words `getline` and `length` are identifiers of the scanner. -/
def quawk_ebnf : Nonterminal → Rule
  | .program => .star (non .item)
  | .item => any (non .function_def) [non .pattern_action]
  | .function_def =>
    all [tok .function_kw, tok .ident, tok .lparen, .opt (non .param_list), tok .rparen, non .action]
  | .param_list => listed (tok .comma) (tok .ident)
  | .pattern_action =>
    any (all [non .pattern_range, .opt (non .action)]) [all [non .pattern, .opt (non .action)], non .action]
  | .pattern_range => all [non .pattern, tok .comma, non .pattern]
  | .pattern => any (tok .begin_kw) [tok .end_kw, non .expr]
  | .action => all [tok .lbrace, .opt (non .stmt_list), tok .rbrace]
  | .stmt_list => all [non .stmt, .star (.seq (non .sep) (non .stmt)), .opt (non .sep)]
  | .sep => any (tok .semicolon) [all [tok .newline, .star (tok .newline)]]
  | .stmt => any (non .action)
    [all [tok .if_kw, tok .lparen, non .expr, tok .rparen, non .stmt, .opt (.seq (tok .else_kw) (non .stmt))],
      all [tok .while_kw, tok .lparen, non .expr, tok .rparen, non .stmt],
      all [tok .do_kw, non .stmt, tok .while_kw, tok .lparen, non .expr, tok .rparen],
      all [tok .for_kw, tok .lparen, .opt (non .for_init), tok .semicolon, .opt (non .expr), tok .semicolon,
        .opt (non .for_update), tok .rparen, non .stmt],
      all [tok .for_kw, tok .lparen, tok .ident, tok .in_kw, non .expr, tok .rparen, non .stmt],
      tok .break_kw, tok .continue_kw, tok .next_kw, tok .nextfile_kw, all [tok .exit_kw, .opt (non .expr)],
      all [tok .return_kw, .opt (non .expr)], all [tok .delete_kw, non .lvalue], non .simple_stmt]
  | .for_init => non .expr_list
  | .for_update => non .expr_list
  | .expr_list => listed (tok .comma) (non .expr)
  | .simple_stmt => any (non .print_stmt) [non .printf_stmt, non .expr]
  | .print_stmt => all [tok .print_kw, .opt (non .expr_list), .opt (non .output_redirect)]
  | .printf_stmt =>
    all [tok .printf_kw,
      any (listed (tok .comma) (non .expr)) [all [tok .lparen, listed (tok .comma) (non .expr), tok .rparen]],
      .opt (non .output_redirect)]
  | .output_redirect =>
    any (.seq (tok .greater) (non .expr)) [.seq (tok .greater_greater) (non .expr), .seq (tok .pipe) (non .expr)]
  | .subscript_list => listed (tok .comma) (non .expr)
  | .lvalue =>
    any (tok .ident) [all [tok .ident, tok .lbracket, non .subscript_list, tok .rbracket], .seq (tok .dollar) (non .expr)]
  | .expr => non .assign_expr
  | .assign_expr => any (non .conditional_expr) [all [non .lvalue, non .assign_op, non .assign_expr]]
  | .assign_op =>
    any (tok .equal) [tok .plus_equal, tok .minus_equal, tok .star_equal, tok .slash_equal, tok .percent_equal,
      tok .caret_equal]
  | .conditional_expr =>
    .seq (non .or_expr) (.opt (all [tok .question, non .expr, tok .colon, non .conditional_expr]))
  | .or_expr => listed (tok .or_or) (non .and_expr)
  | .and_expr => listed (tok .and_and) (non .compare_expr)
  | .compare_expr => listed (any (non .rel_op) [non .eq_op]) (non .match_expr)
  | .rel_op => any (tok .less) [tok .less_equal, tok .greater, tok .greater_equal]
  | .eq_op => any (tok .equal_equal) [tok .not_equal]
  | .match_expr => listed (any (tok .match_op) [tok .not_match]) (non .in_expr)
  | .in_expr => .seq (non .concat_expr) (.opt (.seq (tok .in_kw) (non .concat_expr)))
  | .concat_expr => .seq (non .add_expr) (.star (non .add_expr))
  | .add_expr => listed (any (tok .plus) [tok .minus]) (non .mul_expr)
  | .mul_expr => listed (any (tok .star) [tok .slash, tok .percent]) (non .pow_expr)
  | .pow_expr => .seq (non .unary_expr) (.opt (.seq (tok .caret) (non .pow_expr)))
  | .unary_expr =>
    any (.seq (any (tok .plus) [tok .minus, tok .bang, tok .plus_plus, tok .minus_minus]) (non .unary_expr))
      [non .postfix_expr]
  | .postfix_expr => .seq (non .primary) (.opt (any (tok .plus_plus) [tok .minus_minus]))
  | .primary =>
    any (tok .number) [tok .string, tok .regex, non .getline_expr, non .bare_length_call, non .lvalue, non .func_call,
      all [tok .lparen, non .expr, tok .rparen]]
  | .func_call => all [tok .ident, tok .lparen, .opt (non .arg_list), tok .rparen]
  | .arg_list => listed (tok .comma) (non .expr)
  | .bare_length_call => tok .ident
  | .getline_expr =>
    any (all [tok .ident, tok .less, non .expr])
      [.seq (tok .ident) (non .getline_target_only), all [tok .ident, non .getline_named_target, tok .less, non .expr]]
  | .getline_target_only => any (tok .ident) [.seq (tok .dollar) (non .expr)]
  | .getline_named_target => tok .ident

/-- The token sequences of a nonterminal. -/
def Derivable (name : Nonterminal) (kinds : List TokenKind) : Prop := Ebnf.Derives quawk_ebnf (non name) kinds

end quawk
