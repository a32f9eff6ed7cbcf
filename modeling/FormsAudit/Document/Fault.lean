import FormsAudit.Encoding.Basic
import FormsAudit.Markup.Attribute
import FormsAudit.Markup.Reference

/-!
# Faults of a document

Why a document is not well formed, each cause with its words.
-/

namespace FormsAudit.Document

open Markup

/-- Why a document is not well formed. -/
inductive Fault where
  /-- Bytes that are not a token; their names are decoded for the message. -/
  | token (encoding : Encoding) (reason : Rejection)
  | declarationNotFirst
  | doctypeAfterRoot
  | secondDoctype
  | secondRoot
  | textOutsideRoot
  | unexpectedEndTag
  /-- `]]>` in text. -/
  | sectionEndInText
  | lessThanInValue
  | undecodable (encoding : Encoding)
  | illegalCharacter (c : Char)
  | attribute (fault : AttributeFault)
  | reference (fault : ReferenceFault)
  /-- The input ends inside of an element. -/
  | unclosedElement (name : String)
  | noRoot
  deriving DecidableEq, Repr

variable [WideDecoders]

/-- A name for a message: empty where it cannot be decoded. -/
def decodedName (encoding : Encoding) (name : List UInt8) : String :=
  String.ofList ((encoding.decode? name).getD [])

/-- The rejection in words. -/
def rejectionMessage (encoding : Encoding) : Rejection → String
  | .unknownMarkup => "syntax error: unknown or missed symbol in markup"
  | .openInstruction =>
    "syntax error: processing instruction or xml declaration not closed: " ++
      "`?>` not found before end of input"
  | .openComment => "syntax error: comment not closed: `-->` not found before end of input"
  | .openDoctype => "syntax error: DOCTYPE not closed: `>` not found before end of input"
  | .openCData => "syntax error: CDATA not closed: `]]>` not found before end of input"
  | .openTag => "syntax error: tag not closed: `>` not found before end of input"
  | .namelessDoctype =>
    "ill-formed document: `<!DOCTYPE>` declaration does not contain a name of a document type"
  | .unmatchedEnd name =>
    s!"ill-formed document: close tag `</{decodedName encoding name}>` does not match any open tag"
  | .mismatchedEnd expected found =>
    s!"ill-formed document: expected `</{decodedName encoding expected}>`, " ++
      s!"but `</{decodedName encoding found}>` was found"
  | .doubleHyphen => "ill-formed document: forbidden string `--` was found in a comment"

/-- The fault in words. -/
def Fault.message : Fault → String
  | .token encoding reason => rejectionMessage encoding reason
  | .declarationNotFirst => "XML declaration allowed only at the start of the document"
  | .doctypeAfterRoot => "document type declaration after the root element"
  | .secondDoctype => "document has more than one document type declaration"
  | .secondRoot => "document has more than one root element"
  | .textOutsideRoot => "text content outside of the root element"
  | .unexpectedEndTag => "unexpected end tag"
  | .sectionEndInText => "']]>' is not allowed in character data"
  | .lessThanInValue => "'<' is not allowed in attribute values"
  | .undecodable encoding => s!"input is not valid {encoding.name}"
  | .illegalCharacter c =>
    "invalid character U+" ++ Numeral.padLeft 4 (Numeral.upperHex c.toNat)
  | .attribute fault => s!"invalid attribute: {fault.message}"
  | .reference fault => fault.message
  | .unclosedElement name => s!"unexpected end of file, element <{name}> is not closed"
  | .noRoot => "no root element"

/-- A fault and the offset at which it is reported. -/
structure Failure where
  offset : Nat
  fault : Fault
  deriving DecidableEq, Repr

end FormsAudit.Document
