import FormsAudit.Document.Content
import FormsAudit.Encoding.Label
import FormsAudit.Markup.Source
import FormsAudit.Unicode.Blank

/-!
# The structure of a document

The state holds what the tokens so far commit the document to: its encoding, its open elements,
whether the root and the document type have been seen.  A token is accepted or shows that the
document is not well formed.
-/

namespace FormsAudit.Document

open Markup

/-- What the tokens so far commit the document to. -/
structure State where
  encoding : Encoding
  /-- The names of the open elements, innermost first. -/
  opened : List String
  rootSeen : Bool
  doctypeSeen : Bool
  /-- Whether the document type is the one whose elements refer to scripts. -/
  isApplication : Bool
  deriving DecidableEq, Repr

/-- The document type, and the element, that refers to scripts. -/
def applicationName : String := "Application"

/-- An element that has passed its checks. -/
structure Element where
  /-- Where its tag starts. -/
  start : Nat
  name : List UInt8
  attributes : List (String × String)
  deriving DecidableEq, Repr

/-- The document type that a declaration names: what stands before the first blank or `[`. -/
def doctypeName (content : List UInt8) : String :=
  let declared := Unicode.trimStart (Utf8.decodeLossy content)
  String.ofList (declared.takeWhile fun c => !(Unicode.isBlank c || c = '['))

namespace State

/-- Before the first token. -/
def initial (encoding : Encoding) : State :=
  ⟨encoding, [], false, false, false⟩

/-- The encoding after a declaration. -/
def declare (state : State) (declaration : List UInt8) : State :=
  match (declaredLabel? declaration).bind Encoding.ofLabel? with
  | some encoding => { state with encoding }
  | none => state

/-- The encoding in which the token at offset `start` is read.  The first token is read as UTF-8,
whatever the signature says. -/
def encodingAt (state : State) (start : Nat) : Encoding :=
  if start = 0 then .utf8 else state.encoding

variable [WideDecoders]

/-- A start tag or an empty tag is accepted with its element. -/
def acceptTag (state : State) (start : Nat) (raw : List UInt8) (empty : Bool) :
    Except Failure (State × Option Element) := do
  if state.opened.isEmpty && state.rootSeen then
    .error ⟨start, .secondRoot⟩
  else
    let attributes ← checkTag (state.encodingAt start) start raw
    let name := tagName raw
    let opened :=
      if empty then state.opened
      else String.ofList (Utf8.decodeLossy name) :: state.opened
    .ok ({ state with opened, rootSeen := true }, some ⟨start, name, attributes⟩)

/-- The state after a token, and the element that the token begins, or why the document is not well
formed. -/
def accept (state : State) (token : Token) : Except Failure (State × Option Element) :=
  let start := token.start
  let encoding := state.encodingAt start
  match token.event with
  | .declaration content =>
    if start = 0 then .ok (state.declare content, none)
    else .error ⟨start, .declarationNotFirst⟩
  | .doctype content =>
    if state.rootSeen then .error ⟨start, .doctypeAfterRoot⟩
    else if state.doctypeSeen then .error ⟨start, .secondDoctype⟩
    else
      let isApplication := doctypeName content == applicationName
      .ok ({ state with doctypeSeen := true, isApplication }, none)
  | .startTag raw => state.acceptTag start raw false
  | .emptyTag raw => state.acceptTag start raw true
  | .endTag _ =>
    match state.opened with
    | [] => .error ⟨start, .unexpectedEndTag⟩
    | _ :: outer => .ok ({ state with opened := outer }, none)
  | .text raw =>
    if state.opened.isEmpty && !raw.all isSpace then .error ⟨start, .textOutsideRoot⟩
    else (checkText encoding start raw).map fun _ => (state, none)
  | .cdata raw => (checkVerbatim encoding start 9 raw).map fun _ => (state, none)
  | .comment raw => (checkVerbatim encoding start 4 raw).map fun _ => (state, none)
  | .instruction raw => (checkVerbatim encoding start 2 raw).map fun _ => (state, none)

/-- What is missing when the document ends, at offset `stop`, in this state. -/
def finish (state : State) (stop : Nat) : Option Failure :=
  match state.opened with
  | name :: _ => some ⟨stop, .unclosedElement name⟩
  | [] => if state.rootSeen then none else some ⟨stop, .noRoot⟩

end State

end FormsAudit.Document
