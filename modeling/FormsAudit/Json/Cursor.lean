import FormsAudit.Json.Fault

/-!
# A place in a JSON text

A cursor is what is left to read and the place where that begins.
-/

namespace FormsAudit.Json

/-- A place in a text. -/
structure Cursor where
  line : Nat
  column : Nat
  rest : List Char
  deriving DecidableEq, Repr

namespace Cursor

/-- The beginning of a text. -/
def start (text : List Char) : Cursor := ⟨1, 0, text⟩

/-- The cursor after the character `c`, which leaves `rest`. -/
def after (cursor : Cursor) (c : Char) (rest : List Char) : Cursor :=
  if c = '\n' then ⟨cursor.line + 1, 0, rest⟩
  else ⟨cursor.line, cursor.column + c.utf8Size, rest⟩

/-- The cursor after the characters `word`, none of them a line break, which leaves `rest`. -/
def past (cursor : Cursor) (word rest : List Char) : Cursor :=
  ⟨cursor.line, cursor.column + Utf8.size word, rest⟩

/-- Whether `c` is white space between tokens. -/
def isSpace (c : Char) : Bool :=
  c = ' ' || c = '\n' || c = '\t' || c = '\r'

/-- Skips white space from the given place. -/
def skipSpaceFrom (line column : Nat) : List Char → Cursor
  | [] => ⟨line, column, []⟩
  | c :: rest =>
    if c = '\n' then skipSpaceFrom (line + 1) 0 rest
    else if isSpace c then skipSpaceFrom line (column + 1) rest
    else ⟨line, column, c :: rest⟩

/-- The cursor after white space. -/
def skipSpace (cursor : Cursor) : Cursor :=
  skipSpaceFrom cursor.line cursor.column cursor.rest

/-- The problem, placed at the cursor. -/
def fault (cursor : Cursor) (problem : Problem) : Fault :=
  ⟨problem, cursor.line, cursor.column⟩

/-- A fault of grammar at the cursor. -/
def broken (cursor : Cursor) (fault : SyntaxFault) : Fault :=
  cursor.fault (.grammar fault)

/-- A fault of grammar shown by the byte that comes next, and placed after it. -/
def brokenAhead (cursor : Cursor) (fault : SyntaxFault) : Fault :=
  match cursor.rest with
  | [] => cursor.broken fault
  | '\n' :: _ => ⟨.grammar fault, cursor.line + 1, 0⟩
  | _ => ⟨.grammar fault, cursor.line, cursor.column + 1⟩

@[simp] theorem skipSpaceFrom_nil (line column : Nat) :
    skipSpaceFrom line column [] = ⟨line, column, []⟩ := rfl

theorem skipSpaceFrom_of_not_isSpace {c : Char} (h : isSpace c = false) (line column : Nat)
    (rest : List Char) : skipSpaceFrom line column (c :: rest) = ⟨line, column, c :: rest⟩ := by
  have hbreak : c ≠ '\n' := by
    rintro rfl
    simp [isSpace] at h
  simp [skipSpaceFrom, h, hbreak]

end Cursor

end FormsAudit.Json
