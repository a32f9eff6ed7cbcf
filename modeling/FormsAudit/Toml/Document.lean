import FormsAudit.Toml.Scalar
import FormsAudit.Toml.Tree

/-!
# TOML documents

A document is a sequence of statements, each in a line of its own: the header of a table, or a key
with its value.  Read as a whole it is a record.
-/

namespace FormsAudit.Toml

open Json (Value)

/-! ## Keys -/

/-- Whether `c` may stand in a key without quotes. -/
def isKeyChar (c : Char) : Bool :=
  c.isAlphanum || c = '_' || c = '-'

/-- Reads one part of a key. -/
def readPart? (text : List Char) : Option (String × List Char) :=
  match text with
  | '"' :: rest => (readLine? '"' text.length rest).map fun (s, rest) => (String.ofList s, rest)
  | '\'' :: rest => (readLine? '\'' text.length rest).map fun (s, rest) => (String.ofList s, rest)
  | text =>
    let name := text.takeWhile isKeyChar
    if name.isEmpty then none else some (String.ofList name, text.drop name.length)

/-- Reads a key, blanks around it and around its dots included. -/
def readKey? : Nat → List Char → Option (List String × List Char)
  | 0, _ => none
  | fuel + 1, text =>
    (readPart? (skipBlanks text)).bind fun (part, rest) =>
      match skipBlanks rest with
      | '.' :: rest => (readKey? fuel rest).map fun (parts, rest) => (part :: parts, rest)
      | rest => some ([part], rest)

/-! ## Values -/

mutual

/-- Reads a value. -/
def readValue? : Nat → List Char → Option (Value × List Char)
  | 0, _ => none
  | fuel + 1, text =>
    match text with
    | '[' :: rest =>
      (readItems? fuel (skipGap rest)).map fun (items, rest) => (.list items, rest)
    | '\x7b' :: rest =>
      (readFields? fuel [] (skipGap rest)).map fun (entries, rest) =>
        (.record (entryValues entries), rest)
    | '"' :: _ | '\'' :: _ => (readText? text).map fun (s, rest) => (.text (String.ofList s), rest)
    | text => readScalar? text

/-- Reads the items of a list up to its end; a comma may follow the last. -/
def readItems? : Nat → List Char → Option (List Value × List Char)
  | 0, _ => none
  | fuel + 1, text =>
    match text with
    | ']' :: rest => some ([], rest)
    | text =>
      (readValue? fuel text).bind fun (item, rest) =>
        match skipGap rest with
        | ',' :: rest =>
          (readItems? fuel (skipGap rest)).map fun (items, rest) => (item :: items, rest)
        | ']' :: rest => some ([item], rest)
        | _ => none

/-- Reads the entries of a table between braces up to its end; a comma may follow the last. -/
def readFields? : Nat → Entries → List Char → Option (Entries × List Char)
  | 0, _, _ => none
  | fuel + 1, entries, text =>
    match text with
    | '\x7d' :: rest => some (entries, rest)
    | text =>
      match readKey? text.length text with
      | some (path, '=' :: rest) =>
        (readValue? fuel (skipBlanks rest)).bind fun (value, rest) =>
          (entries.assign? true path (.value value)).bind fun entries =>
            match skipGap rest with
            | ',' :: rest => readFields? fuel entries (skipGap rest)
            | '\x7d' :: rest => some (entries, rest)
            | _ => none
      | _ => none

end

/-! ## Statements -/

/-- A statement of a document. -/
inductive Statement where
  | header (path : List String)
  /-- A header in double brackets. -/
  | item (path : List String)
  | assignment (path : List String) (value : Value)

/-- Reads a header up to its closing brackets. -/
def readHeader? (text : List Char) : Option (Statement × List Char) :=
  match text with
  | '[' :: '[' :: rest =>
    match readKey? text.length rest with
    | some (path, ']' :: ']' :: rest) => some (.item path, rest)
    | _ => none
  | '[' :: rest =>
    match readKey? text.length rest with
    | some (path, ']' :: rest) => some (.header path, rest)
    | _ => none
  | _ => none

/-- Reads a key and its value. -/
def readAssignment? (text : List Char) : Option (Statement × List Char) :=
  match readKey? text.length text with
  | some (path, '=' :: rest) =>
    (readValue? text.length (skipBlanks rest)).map fun (value, rest) =>
      (.assignment path value, rest)
  | _ => none

/-- Reads the statements of a document. -/
def readStatements? : Nat → List Char → Option (List Statement)
  | 0, _ => none
  | fuel + 1, text =>
    match skipGap text with
    | [] => some []
    | text =>
      let statement := if text.head? = some '[' then readHeader? text else readAssignment? text
      statement.bind fun (statement, rest) =>
        (endLine? rest).bind fun rest => (readStatements? fuel rest).map (statement :: ·)

/-- A document as far as it has been built: its entries, and the header in force. -/
structure Draft where
  entries : Entries
  current : List String

/-- The document after a statement. -/
def Draft.add? (draft : Draft) : Statement → Option Draft
  | .header path => (draft.entries.open? path).map fun entries => ⟨entries, path⟩
  | .item path => (draft.entries.append? path).map fun entries => ⟨entries, path⟩
  | .assignment path value =>
    (draft.entries.within? (·.assign? true path (.value value)) draft.current).map fun entries =>
      ⟨entries, draft.current⟩

/-- The document that a text is, read as a record.  A byte order mark may come first. -/
def parse? (text : String) : Option Value :=
  let body :=
    match text.toList with
    | '\uFEFF' :: rest => rest
    | body => body
  (readStatements? (body.length + 1) body).bind fun statements =>
    (statements.foldlM Draft.add? ⟨[], []⟩).map fun draft =>
      .record (entryValues draft.entries)

end FormsAudit.Toml
