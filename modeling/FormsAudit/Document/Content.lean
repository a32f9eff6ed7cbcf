import FormsAudit.Document.Fault

/-!
# Checks of the content of one token

A token's bytes must be text in the document's encoding, of legal characters only, with references
that can be resolved.  A fault is reported at the byte where it lies; the characters before it tell
how many bytes that is.
-/

namespace FormsAudit.Document

open Markup

variable [WideDecoders]

/-- The text that `raw`, which begins at offset `start`, is in the encoding.  In UTF-8 the fault lies
where the first broken sequence begins. -/
def decodeAt (encoding : Encoding) (start : Nat) (raw : List UInt8) :
    Except Failure (List Char) :=
  match encoding.decode? raw with
  | some text => .ok text
  | none =>
    let valid := if encoding = .utf8 then Utf8.validLength raw else 0
    .error ⟨start + valid, .undecodable encoding⟩

/-- The first illegal character of a text, and the characters before it. -/
def illegal? (text : List Char) : Option (List Char × Char) :=
  match text.dropWhile isLegal with
  | [] => none
  | c :: _ => some (text.takeWhile isLegal, c)

/-- Refuses a text, which begins at offset `start`, that holds an illegal character. -/
def checkLegal (encoding : Encoding) (start : Nat) (text : List Char) : Except Failure Unit :=
  match illegal? text with
  | none => .ok ()
  | some (before, c) =>
    .error ⟨start + encoding.encodedLength before, .illegalCharacter c⟩

/-- Where a fault in a reference is reported, in a text that begins at `start` in a token that begins
at `tokenStart`. -/
def referenceOffset (encoding : Encoding) (tokenStart start : Nat) : ReferenceFault → Nat
  | .unterminated before _ => start + encoding.encodedLength before
  | .unrecognized before _ => start + encoding.encodedLength before
  | .character _ => tokenStart

/-- The text with its references replaced.  A reference may stand for a character that is not legal,
which is refused at the start of the token. -/
def expandAt (encoding : Encoding) (tokenStart start : Nat) (text : List Char) :
    Except Failure (List Char) :=
  match expand text with
  | .error fault => .error ⟨referenceOffset encoding tokenStart start fault, .reference fault⟩
  | .ok expanded =>
    if text.contains '&' then
      match illegal? expanded with
      | some (_, c) => .error ⟨tokenStart, .illegalCharacter c⟩
      | none => .ok expanded
    else
      .ok expanded

/-- Where `]]>` begins in the content of a text. -/
def sectionEnd? : List UInt8 → Option Nat
  | [] => none
  | byte :: rest =>
    if [0x5D, 0x5D, 0x3E].isPrefixOf (byte :: rest) then some 0
    else (sectionEnd? rest).map (· + 1)

/-- Checks text between other tokens. -/
def checkText (encoding : Encoding) (start : Nat) (raw : List UInt8) : Except Failure Unit := do
  match sectionEnd? raw with
  | some index => .error ⟨start + index, .sectionEndInText⟩
  | none =>
    let text ← decodeAt encoding start raw
    checkLegal encoding start text
    discard (expandAt encoding start start text)

/-- Checks content in which references mean nothing, which begins `skip` bytes into its token. -/
def checkVerbatim (encoding : Encoding) (start skip : Nat) (raw : List UInt8) :
    Except Failure Unit := do
  let text ← decodeAt encoding (start + skip) raw
  checkLegal encoding (start + skip) text

/-- The values of attributes with their references replaced, beside the keys.  The attributes' values
are located by the quoted stretches of the tag, in order. -/
def expandAttributes (encoding : Encoding) (start : Nat) :
    List Attribute → List QuotedValue → Except Failure (List (String × String))
  | [], _ => .ok []
  | item :: items, values => do
    let valueStart := start + 1 + (values.head?.map (·.start)).getD 0
    let text ← decodeAt encoding valueStart item.value
    let value ← expandAt encoding start valueStart text
    let others ← expandAttributes encoding start items values.tail
    .ok ((String.ofList (Utf8.decodeLossy item.key), String.ofList value) :: others)

/-- The attributes of a tag that passes all its checks. -/
def checkTag (encoding : Encoding) (start : Nat) (raw : List UInt8) :
    Except Failure (List (String × String)) := do
  let text ← decodeAt encoding (start + 1) raw
  checkLegal encoding (start + 1) text
  let values := quotedValues raw
  match lessThanInValue? values with
  | some index => .error ⟨start + 1 + index, .lessThanInValue⟩
  | none =>
    let (items, fault) := attributes raw
    let expanded ← expandAttributes encoding start items values
    match fault with
    | some fault => .error ⟨start + 1 + fault.position, .attribute fault⟩
    | none => .ok expanded

end FormsAudit.Document
