import Quawk.Ast
import Quawk.Lib.StructuredCode

namespace quawk

/-- The LLVM types of operands. `ptr` is a string; the pointers to numbers, to result slots and
to the argument arrays of `qk_sprintf`, and output handles, are kept apart from it. -/
inductive Ty where
  | double | i1 | i8 | i32 | i64 | ptr | addr | slot | arrays | handle | unit
  deriving DecidableEq, Repr

/-- A number known when the code is generated: a literal, or the `awk_numeric_prefix` of a
string literal. -/
inductive NumericConstant where
  | literal (raw_text : Text)
  | leading_number (text : Text)
  | zero
  | one
  deriving DecidableEq, Repr

inductive FloatPredicate where
  | olt | ole | ogt | oge | oeq | one
  deriving DecidableEq, Repr

/-- The instructions the backend writes, with the types of their operands. The pointers `%rt`
and `%state` are left out of the operands, since every function passes its own ones on. -/
inductive Op : List Ty → Ty → Type where
  -- Constants, written where they are used.
  | number (value : NumericConstant) : Op [] .double
  | integer (value : Nat) : Op [] .i64
  | word (value : Nat) : Op [] .i32
  | truth (value : Bool) : Op [] .i1
  | null_ptr : Op [] .ptr
  -- Addresses.
  | string_constant (text : Text) : Op [] .ptr
  | local_variable (name : Name) : Op [] .addr
  | state_variable (name : Name) (index : Nat) : Op [] .addr
  | result_slot : Op [] .slot
  | argument_arrays (count : Nat) : Op [] .arrays
  -- Memory.
  | load_double : Op [.addr] .double
  | store_double : Op [.double, .addr] .unit
  | load_parameter (slot : Nat) : Op [] .ptr
  | store_parameter (slot : Nat) : Op [.ptr] .unit
  | load_slot : Op [.slot] .ptr
  | store_slot : Op [.ptr, .slot] .unit
  | load_char : Op [.ptr] .i8
  | store_argument (count index : Nat) : Op [.arrays, .double, .ptr] .unit
  -- Arithmetic.
  | fadd : Op [.double, .double] .double
  | fsub : Op [.double, .double] .double
  | fmul : Op [.double, .double] .double
  | fdiv : Op [.double, .double] .double
  | llvm_trunc : Op [.double] .double
  | llvm_pow : Op [.double, .double] .double
  | fcmp (predicate : FloatPredicate) : Op [.double, .double] .i1
  | icmp_char : Op [.i8] .i1
  | icmp_null : Op [.ptr] .i1
  | xor_true : Op [.i1] .i1
  | uitofp_i1 : Op [.i1] .double
  | uitofp_i64 : Op [.i64] .double
  | fptosi_i64 : Op [.double] .i64
  | fptosi_i32 : Op [.double] .i32
  | select_double : Op [.i1, .double, .double] .double
  | select_i1 : Op [.i1, .i1, .i1] .i1
  -- The C library.
  | strlen : Op [.ptr] .i64
  | printf (types : List Ty) : Op (.ptr :: types) .unit
  | fprintf (types : List Ty) : Op (.handle :: .ptr :: types) .unit
  -- User functions.
  | qk_fn (function : Name) (arity : Nat) : Op (List.replicate arity .ptr) .ptr
  -- The runtime.
  | qk_get_field_inline : Op [.i64] .ptr
  | qk_set_field_string : Op [.i64, .ptr] .unit
  | qk_set_field_number : Op [.i64, .double] .unit
  | qk_print_string : Op [.ptr] .unit
  | qk_print_string_fragment : Op [.ptr] .unit
  | qk_print_number_fragment : Op [.double] .unit
  | qk_print_output_separator : Op [] .unit
  | qk_print_output_record_separator : Op [] .unit
  | qk_open_output (mode : Nat) : Op [.ptr] .handle
  | qk_close_output : Op [.ptr] .double
  | qk_write_output_string : Op [.handle, .ptr] .unit
  | qk_write_output_number : Op [.handle, .double] .unit
  | qk_write_output_separator : Op [.handle] .unit
  | qk_write_output_record_separator : Op [.handle] .unit
  | qk_regex_match_current_record : Op [.ptr] .i1
  | qk_regex_match_text : Op [.ptr, .ptr] .i1
  | qk_scalar_get_inline : Op [.ptr] .ptr
  | qk_scalar_get_number_inline : Op [.ptr] .double
  | qk_scalar_truthy : Op [.ptr] .i1
  | qk_scalar_set_string : Op [.ptr, .ptr] .unit
  | qk_scalar_set_number_inline : Op [.ptr, .double] .unit
  | qk_scalar_copy : Op [.ptr, .ptr] .unit
  | qk_slot_get_number (index : Nat) : Op [] .double
  | qk_slot_set_number (index : Nat) : Op [.double] .unit
  | qk_slot_get_string (index : Nat) : Op [] .ptr
  | qk_slot_set_string (index : Nat) : Op [.ptr] .unit
  | qk_capture_string_arg_inline : Op [.ptr] .ptr
  | qk_parse_number_text : Op [.ptr] .double
  | qk_format_number : Op [.double] .ptr
  | qk_concat : Op [.ptr, .ptr] .ptr
  | qk_index : Op [.ptr, .ptr] .double
  | qk_match : Op [.ptr, .ptr] .double
  | qk_substitute (global_replace : Bool) : Op [.ptr, .ptr, .ptr, .slot] .double
  | qk_sprintf_plain : Op [.ptr] .ptr
  | qk_sprintf (count : Nat) : Op [.ptr, .arrays] .ptr
  | qk_tolower : Op [.ptr] .ptr
  | qk_toupper : Op [.ptr] .ptr
  | qk_atan2 : Op [.double, .double] .double
  | qk_cos : Op [.double] .double
  | qk_exp : Op [.double] .double
  | qk_int_builtin : Op [.double] .double
  | qk_log : Op [.double] .double
  | qk_rand : Op [] .double
  | qk_sin : Op [.double] .double
  | qk_sqrt : Op [.double] .double
  | qk_srand0 : Op [] .double
  | qk_srand1 : Op [.double] .double
  | qk_system : Op [.ptr] .double
  | qk_getline_main_record : Op [] .double
  | qk_getline_main_string : Op [.slot] .double
  | qk_getline_file_record : Op [.ptr] .double
  | qk_getline_file_string : Op [.ptr, .slot] .double
  | qk_get_nr_inline : Op [] .double
  | qk_get_fnr_inline : Op [] .double
  | qk_get_nf_inline : Op [] .double
  | qk_get_filename_inline : Op [] .ptr
  | qk_split_into_array : Op [.ptr, .ptr, .ptr] .double
  | qk_array_get : Op [.ptr, .ptr] .ptr
  | qk_array_get_number : Op [.ptr, .ptr] .double
  | qk_array_contains : Op [.ptr, .ptr] .i1
  | qk_array_set_string : Op [.ptr, .ptr, .ptr] .unit
  | qk_array_set_number : Op [.ptr, .ptr, .double] .unit
  | qk_array_delete : Op [.ptr, .ptr] .unit
  | qk_array_clear : Op [.ptr] .unit
  | qk_array_length : Op [.ptr] .double
  | qk_array_first_key : Op [.ptr] .ptr
  | qk_array_next_key : Op [.ptr, .ptr] .ptr
  | qk_substr2 : Op [.ptr, .i64] .ptr
  | qk_substr3 : Op [.ptr, .i64, .i64] .ptr
  | qk_compare_strings_inline : Op [.ptr, .ptr, .i32] .i1
  | qk_compare_values_inline :
      Op [.ptr, .double, .i1, .i1, .ptr, .double, .i1, .i1, .i32] .i1

/-- Lowered code of expressions; its notes are the expressions it comes from. -/
abbrev Code (V : Ty → Type) : Type → Type 1 := StructuredCode.Code Op Expr .i1 V

end quawk
