import Quawk.Ast

namespace quawk

def BUILTIN_FUNCTION_NAMES : List Name :=
  ["atan2", "close", "cos", "exp", "gsub", "index", "int", "length", "log", "match", "rand", "sin",
    "split", "sqrt", "srand", "sprintf", "sub", "substr", "system", "tolower", "toupper"]

def BUILTIN_VARIABLE_NAMES : List Name :=
  ["ARGC", "CONVFMT", "FS", "FILENAME", "FNR", "NF", "NR", "OFMT", "OFS", "ORS", "RS", "RLENGTH",
    "RSTART", "SUBSEP"]

def BUILTIN_ARRAY_NAMES : List Name := ["ARGV", "ENVIRON"]

/-- The argument counts a builtin takes; `sprintf` is not in the table. -/
def BUILTIN_ARITY_RULES : List (Name × List Nat) :=
  [("atan2", [2]), ("close", [1]), ("cos", [1]), ("exp", [1]), ("gsub", [2, 3]), ("index", [2]), ("int", [1]),
    ("length", [0, 1]), ("log", [1]), ("match", [2]), ("rand", [0]), ("sin", [1]), ("split", [2, 3]),
    ("sqrt", [1]), ("srand", [0, 1]), ("sub", [2, 3]), ("substr", [2, 3]), ("system", [1]), ("tolower", [1]),
    ("toupper", [1])]

/-- Report whether one builtin accepts the supplied argument count. -/
def builtin_accepts_arity (name : Name) (arg_count : Nat) : Bool :=
  if name = "sprintf" then 1 ≤ arg_count
  else match BUILTIN_ARITY_RULES.lookup name with
    | some allowed => allowed.contains arg_count
    | none => false

def is_builtin_function_name (name : Name) : Bool :=
  BUILTIN_FUNCTION_NAMES.contains name

def is_builtin_variable_name (name : Name) : Bool :=
  BUILTIN_VARIABLE_NAMES.contains name

/-- Lowering-only names that stay in `%quawk.state`. -/
def is_reusable_runtime_state_name (name : Name) : Bool :=
  "__range.".toList.isPrefixOf name.toList

/-- The synthetic state name of the `index`-th range pattern. -/
def range_state_name (index : Nat) : Name :=
  "__range." ++ toString index

end quawk
