import Quawk.Ast
import Quawk.Lib.CharStream

namespace quawk

structure SourcePoint where
  file_index : Nat
  offset : Nat
  deriving DecidableEq, Repr

structure SourceFile where
  name : String
  text : Text

structure ProgramSource where
  files : List SourceFile

namespace ProgramSource

/-- Create program source from one inline AWK program string. -/
def from_inline (text : Text) : ProgramSource := ⟨[⟨"<inline>", text⟩]⟩

/-- Create program source from the ordered set of `-f` inputs. -/
def from_files (files : List (String × Text)) : ProgramSource := ⟨files.map fun (name, text) => ⟨name, text⟩⟩

/-- Return the logical end-of-program point. -/
def eof_point (source : ProgramSource) : SourcePoint :=
  match source.files.getLast? with
  | none => ⟨0, 0⟩
  | some last => ⟨source.files.length - 1, last.text.length⟩

end ProgramSource

/-- Iterate through program text while preserving original file boundaries. -/
structure SourceCursor where
  source : ProgramSource
  file_index : Nat
  offset : Nat
  at_boundary_newline : Bool

namespace SourceCursor

def start (source : ProgramSource) : SourceCursor := ⟨source, 0, 0, false⟩

/-- The turns of `_normalize`, over the files from the current one on. -/
def normalize_from (cursor : SourceCursor) : List SourceFile → SourceCursor
  | [] => cursor
  | current_file :: later =>
    if cursor.at_boundary_newline then cursor
    else if cursor.offset < current_file.text.length then cursor
    else if later = [] then cursor
    else if current_file.text.getLast? = some '\n' then
      normalize_from { cursor with file_index := cursor.file_index + 1, offset := 0 } later
    else { cursor with at_boundary_newline := true }

/-- Advance past exhausted files and expose synthetic file separators. -/
def normalize (cursor : SourceCursor) : SourceCursor :=
  cursor.normalize_from (cursor.source.files.drop cursor.file_index)

/-- Report whether the cursor has consumed the logical program. -/
def is_at_end (cursor : SourceCursor) : Bool :=
  let cursor := cursor.normalize
  match cursor.source.files.getLast? with
  | none => true
  | some last =>
    !cursor.at_boundary_newline && cursor.file_index + 1 == cursor.source.files.length &&
      last.text.length ≤ cursor.offset

/-- Return the current point in the logical program stream. -/
def point (cursor : SourceCursor) : SourcePoint :=
  let cursor := cursor.normalize
  match cursor.at_boundary_newline, cursor.source.files[cursor.file_index]? with
  | true, some file => ⟨cursor.file_index, file.text.length⟩
  | _, _ => if cursor.is_at_end then cursor.source.eof_point else ⟨cursor.file_index, cursor.offset⟩

/-- The current character. Looking at it normalizes the cursor, as every operation does first. -/
def current (cursor : SourceCursor) : Option Char :=
  let cursor := cursor.normalize
  if cursor.is_at_end then none
  else if cursor.at_boundary_newline then some '\n'
  else cursor.source.files[cursor.file_index]?.bind (·.text[cursor.offset]?)

/-- Consume and return the current character, if any. -/
def advance (cursor : SourceCursor) : Option Char × SourceCursor :=
  let cursor := cursor.normalize
  match cursor.current with
  | none => (none, cursor)
  | some char =>
    if cursor.at_boundary_newline then
      (some char, { cursor with file_index := cursor.file_index + 1, offset := 0, at_boundary_newline := false })
    else (some char, { cursor with offset := cursor.offset + 1 })

/-- Return the current character, or a small lookahead, without consuming it. -/
def peek (cursor : SourceCursor) : Nat → Option Char
  | 0 => cursor.current
  | offset + 1 =>
    match cursor.advance with
    | (none, _) => none
    | (some _, probe) => probe.peek offset

end SourceCursor

end quawk
