import FormsAudit.SystemError

/-!
# Tokens of a marked-up document

A document is a sequence of tokens, each with the offsets at which it starts and stops.  Offsets
count bytes from the start of the document, a byte order mark left out.  The content of a token is
kept as bytes: what characters they are is a question for the encoding.
-/

namespace FormsAudit.Markup

/-- The blanks of the markup language: space, tab, carriage return and line feed. -/
def isSpace (byte : UInt8) : Bool :=
  byte = 0x20 || byte = 0x09 || byte = 0x0D || byte = 0x0A

/-- What a token is, with the bytes inside its delimiters. -/
inductive Event where
  /-- `<?xml …?>` -/
  | declaration (content : List UInt8)
  /-- `<!DOCTYPE …>`, from the first byte that is not a blank. -/
  | doctype (content : List UInt8)
  /-- `<name …>` -/
  | startTag (content : List UInt8)
  /-- `<name …/>` -/
  | emptyTag (content : List UInt8)
  /-- `</name>`, without the blanks after the name. -/
  | endTag (name : List UInt8)
  /-- What stands between two other tokens. -/
  | text (content : List UInt8)
  /-- `<![CDATA[…]]>` -/
  | cdata (content : List UInt8)
  /-- `<!--…-->` -/
  | comment (content : List UInt8)
  /-- `<?…?>` -/
  | instruction (content : List UInt8)
  deriving DecidableEq, Repr

/-- An event and where it lies. -/
structure Token where
  start : Nat
  stop : Nat
  event : Event
  deriving DecidableEq, Repr

/-- The name in a tag: its bytes up to the first blank. -/
def tagName (content : List UInt8) : List UInt8 :=
  content.takeWhile (!isSpace ·)

/-- Why bytes are not a token. -/
inductive Rejection where
  /-- `<!` is followed by none of `-`, `[` and `D`. -/
  | unknownMarkup
  | openInstruction
  | openComment
  | openDoctype
  | openCData
  | openTag
  /-- A document type declaration names no type. -/
  | namelessDoctype
  /-- An end tag where no element is open. -/
  | unmatchedEnd (name : List UInt8)
  /-- An end tag of another name than the open element. -/
  | mismatchedEnd (expected found : List UInt8)
  /-- Two hyphens in a comment. -/
  | doubleHyphen
  deriving DecidableEq, Repr

/-- How the tokens of a document end. -/
inductive Ending where
  /-- The input ends, between two tokens. -/
  | complete (offset : Nat)
  /-- What follows is not a token; the offset is where the fault is reported. -/
  | rejected (offset : Nat) (reason : Rejection)
  /-- The bytes that follow cannot be read. -/
  | unreadable (error : SystemError)
  deriving DecidableEq, Repr

/-- The tokens of a document up to the first fault, and how they end. -/
structure Reading where
  tokens : List Token
  ending : Ending
  deriving DecidableEq, Repr

end FormsAudit.Markup
