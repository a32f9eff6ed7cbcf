import FormsAudit.Json.Value
import FormsAudit.Text.Quoted

/-!
# What is wrong with a JSON text

A text may break the grammar, or say something other than what is asked for.  Either way the first
fault is told, with the place where it shows.
-/

namespace FormsAudit.Json

/-- How a text breaks the grammar. -/
inductive SyntaxFault where
  | endInList
  | endInRecord
  | endInText
  | endInValue
  | expectedColon
  | expectedListEnd
  | expectedRecordEnd
  | expectedWord
  | expectedValue
  | expectedTextKey
  | invalidEscape
  | invalidNumber
  | numberTooLarge
  | controlCharacter
  | loneSurrogate
  | endOfEscape
  | trailingComma
  | trailingCharacters
  deriving DecidableEq, Repr

/-- The fault in words. -/
def SyntaxFault.message : SyntaxFault → String
  | endInList => "EOF while parsing a list"
  | endInRecord => "EOF while parsing an object"
  | endInText => "EOF while parsing a string"
  | endInValue => "EOF while parsing a value"
  | expectedColon => "expected \x60:\x60"
  | expectedListEnd => "expected \x60,\x60 or \x60]\x60"
  | expectedRecordEnd => "expected \x60,\x60 or \x60\x7d\x60"
  | expectedWord => "expected ident"
  | expectedValue => "expected value"
  | expectedTextKey => "key must be a string"
  | invalidEscape => "invalid escape"
  | invalidNumber => "invalid number"
  | numberTooLarge => "number out of range"
  | controlCharacter =>
    "control character (\\u0000-\\u001F) found while parsing a string"
  | loneSurrogate => "lone leading surrogate in hex escape"
  | endOfEscape => "unexpected end of hex escape"
  | trailingComma => "trailing comma"
  | trailingCharacters => "trailing characters"

/-- What stands where something else is asked for. -/
inductive Found where
  | null
  | boolean (b : Bool)
  | number (n : Number)
  | text (s : String)
  | list
  | record
  deriving DecidableEq, Repr

/-- A name between backquotes. -/
def backquoted (name : String) : String :=
  "\x60" ++ name ++ "\x60"

/-- What was found, in words. -/
def Found.describe : Found → String
  | null => "null"
  | boolean b => "boolean " ++ backquoted (if b then "true" else "false")
  | number (.natural n) => "integer " ++ backquoted (toString n)
  | number (.negative n) => "integer " ++ backquoted ("-" ++ toString n)
  | number (.decimal shown) => "floating point " ++ backquoted shown
  | text s => "string " ++ Quoted.text s
  | list => "sequence"
  | record => "map"

/-- How a value fails to be what is asked for. -/
inductive Complaint where
  | wrongType (found : Found) (wanted : String)
  | wrongValue (found : Found) (wanted : String)
  | wrongLength (length : Nat) (wanted : String)
  | missingField (name : String)
  | duplicateField (name : String)
  | unknownChoice (name : String) (choices : List String)
  /-- A text refused in words of its own. -/
  | refused (reason : String)
  deriving DecidableEq, Repr

/-- The complaint in words. -/
def Complaint.message : Complaint → String
  | wrongType found wanted => s!"invalid type: {found.describe}, expected {wanted}"
  | wrongValue found wanted => s!"invalid value: {found.describe}, expected {wanted}"
  | wrongLength length wanted => s!"invalid length {length}, expected {wanted}"
  | missingField name => "missing field " ++ backquoted name
  | duplicateField name => "duplicate field " ++ backquoted name
  | unknownChoice name choices =>
    "unknown variant " ++ backquoted name ++ ", expected one of " ++
      ", ".intercalate (choices.map backquoted)
  | refused reason => reason

/-- What is wrong. -/
inductive Problem where
  | grammar (fault : SyntaxFault)
  | content (complaint : Complaint)
  deriving DecidableEq, Repr

/-- The problem in words. -/
def Problem.message : Problem → String
  | grammar fault => fault.message
  | content complaint => complaint.message

/-- What is wrong, and where.  Lines count from one, columns are the bytes read of the line. -/
structure Fault where
  problem : Problem
  line : Nat
  column : Nat
  deriving DecidableEq, Repr

/-- The fault in words. -/
def Fault.message (fault : Fault) : String :=
  s!"{fault.problem.message} at line {fault.line} column {fault.column}"

end FormsAudit.Json
