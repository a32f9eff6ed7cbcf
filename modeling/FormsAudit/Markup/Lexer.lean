import FormsAudit.Markup.Token

/-!
# The lexer

The lexer is a machine fed one byte at a time: a byte either goes into the token that is being
collected, completes a token, or shows that there is none.  How the bytes were cut into reads can
therefore not matter to it, and what it says about a beginning of the input is not changed by what
follows (`lex_append`).  Nothing is looked at ahead of time; only the end of the input needs a word
of its own (`Lexer.finish`).
-/

namespace FormsAudit.Markup

/-- What the lexer is collecting.  Collected bytes are kept latest first. -/
inductive Mode where
  /-- Outside of markup. -/
  | text (collected : List UInt8)
  /-- After `<`. -/
  | markup
  /-- After `<!`. -/
  | bang
  /-- After `<!`, from the `[` on. -/
  | cdata (collected : List UInt8)
  /-- After `<!`, from the `-` on. -/
  | comment (collected : List UInt8)
  /-- After `<!`, from the `D` on, inside as many `<` as `depth` says. -/
  | doctype (depth : Nat) (collected : List UInt8)
  /-- After `<?`. -/
  | instruction (collected : List UInt8)
  /-- After `<`, or after `</` when `closing`, inside of the quotes `quote` if any. -/
  | tag (closing : Bool) (quote : Option UInt8) (collected : List UInt8)
  deriving DecidableEq, Repr

/-- The state of the lexer: the bytes consumed, the start of the token being collected, and the names
of the open elements, innermost first. -/
structure Lexer where
  offset : Nat
  start : Nat
  mode : Mode
  opened : List (List UInt8)
  deriving DecidableEq, Repr

/-- What a byte leads to. -/
inductive Advance where
  | collecting (next : Lexer)
  | token (token : Token) (next : Lexer)
  | rejected (offset : Nat) (reason : Rejection)
  deriving DecidableEq, Repr

namespace Lexer

/-- The lexer before the first byte. -/
def initial : Lexer := ⟨0, 0, .text [], []⟩

/-- The lexer goes on collecting, one byte further. -/
def collect (lexer : Lexer) (mode : Mode) : Advance :=
  .collecting { lexer with offset := lexer.offset + 1, mode }

/-- The byte completes `event`, and text begins after it. -/
def complete (lexer : Lexer) (event : Event) (opened : List (List UInt8)) : Advance :=
  let stop := lexer.offset + 1
  .token ⟨lexer.start, stop, event⟩ ⟨stop, stop, .text [], opened⟩

/-- There is no token here. -/
def reject (lexer : Lexer) (reason : Rejection) : Advance :=
  .rejected lexer.start reason

/-- A byte outside of markup. -/
def stepText (lexer : Lexer) (collected : List UInt8) (byte : UInt8) : Advance :=
  if byte = 0x3C then
    let next : Lexer := ⟨lexer.offset + 1, lexer.offset, .markup, lexer.opened⟩
    if collected.isEmpty then
      .collecting next
    else
      .token ⟨lexer.start, lexer.offset, .text collected.reverse⟩ next
  else
    lexer.collect (.text (byte :: collected))

/-- The token of a tag that `>` completes. -/
def completeTag (lexer : Lexer) (closing : Bool) (collected : List UInt8) : Advance :=
  if closing then
    -- blanks after the name are no part of it, unless there is nothing else
    let trimmed := collected.dropWhile isSpace
    let name := (if trimmed.isEmpty then collected else trimmed).reverse
    match lexer.opened with
    | [] => lexer.reject (.unmatchedEnd name)
    | expected :: outer =>
      if name = expected then lexer.complete (.endTag name) outer
      else lexer.reject (.mismatchedEnd expected name)
  else
    match collected with
    | 0x2F :: rest => lexer.complete (.emptyTag rest.reverse) lexer.opened
    | _ =>
      let content := collected.reverse
      lexer.complete (.startTag content) (tagName content :: lexer.opened)

/-- A byte of a tag.  A `>` inside of quotes does not end it. -/
def stepTag (lexer : Lexer) (closing : Bool) (quote : Option UInt8) (collected : List UInt8)
    (byte : UInt8) : Advance :=
  match quote with
  | some mark =>
    lexer.collect (.tag closing (if byte = mark then none else some mark) (byte :: collected))
  | none =>
    if byte = 0x3E then
      lexer.completeTag closing collected
    else if byte = 0x22 ∨ byte = 0x27 then
      lexer.collect (.tag closing (some byte) (byte :: collected))
    else
      lexer.collect (.tag closing none (byte :: collected))

/-- A byte after `<`. -/
def stepMarkup (lexer : Lexer) (byte : UInt8) : Advance :=
  if byte = 0x21 then lexer.collect .bang
  else if byte = 0x2F then lexer.collect (.tag true none [])
  else if byte = 0x3F then lexer.collect (.instruction [])
  else lexer.stepTag false none [] byte

/-- A byte after `<!`. -/
def stepBang (lexer : Lexer) (byte : UInt8) : Advance :=
  if byte = 0x5B then lexer.collect (.cdata [byte])
  else if byte = 0x2D then lexer.collect (.comment [byte])
  else if byte = 0x44 ∨ byte = 0x64 then lexer.collect (.doctype 0 [byte])
  else lexer.reject .unknownMarkup

/-- What a character data section opens with, after `<!`. -/
def cdataOpening : List UInt8 := [0x5B, 0x43, 0x44, 0x41, 0x54, 0x41, 0x5B]

/-- A byte of a character data section, which the first `]]>` ends. -/
def stepCData (lexer : Lexer) (collected : List UInt8) (byte : UInt8) : Advance :=
  match byte, collected with
  | 0x3E, 0x5D :: 0x5D :: rest =>
    let content := rest.reverse
    if cdataOpening.isPrefixOf content then
      lexer.complete (.cdata (content.drop cdataOpening.length)) lexer.opened
    else
      lexer.reject .openCData
  | _, _ => lexer.collect (.cdata (byte :: collected))

/-- How many bytes lie between the last single hyphen, or the start, and the first of two hyphens.
The hyphens that close the comment count as the second of two. -/
def doubleHyphen? : Nat → List UInt8 → Option Nat
  | _, [] => none
  | distance, byte :: rest =>
    if byte = 0x2D then
      match rest with
      | [] => some distance
      | next :: _ => if next = 0x2D then some distance else doubleHyphen? 0 rest
    else
      doubleHyphen? (distance + 1) rest

/-- A byte of a comment, which the first `-->` ends that leaves room for the opening `--`. -/
def stepComment (lexer : Lexer) (collected : List UInt8) (byte : UInt8) : Advance :=
  match byte, collected with
  | 0x3E, 0x2D :: 0x2D :: rest =>
    if rest.length < 2 then
      lexer.collect (.comment (byte :: collected))
    else
      match rest.reverse with
      | 0x2D :: 0x2D :: content =>
        match doubleHyphen? 0 content with
        | some distance => .rejected (lexer.start + 4 + distance) .doubleHyphen
        | none => lexer.complete (.comment content) lexer.opened
      | _ => lexer.reject .openComment
  | _, _ => lexer.collect (.comment (byte :: collected))

/-- What a document type declaration opens with after `<!`, in capitals. -/
def doctypeOpening : List UInt8 := [0x44, 0x4F, 0x43, 0x54, 0x59, 0x50, 0x45]

/-- The ASCII capital of a byte. -/
def upperByte (byte : UInt8) : UInt8 :=
  if 0x61 ≤ byte ∧ byte ≤ 0x7A then byte - 0x20 else byte

/-- The token of a document type declaration that `>` completes. -/
def completeDoctype (lexer : Lexer) (collected : List UInt8) : Advance :=
  let declared := collected.reverse
  if (declared.take doctypeOpening.length).map upperByte = doctypeOpening then
    match (declared.drop doctypeOpening.length).dropWhile isSpace with
    | [] => .rejected lexer.offset .namelessDoctype
    | content => lexer.complete (.doctype content) lexer.opened
  else
    lexer.reject .openDoctype

/-- A byte of a document type declaration, in which `<` and `>` balance. -/
def stepDoctype (lexer : Lexer) (depth : Nat) (collected : List UInt8) (byte : UInt8) : Advance :=
  if byte = 0x3C then
    lexer.collect (.doctype (depth + 1) (byte :: collected))
  else if byte = 0x3E then
    match depth with
    | 0 => lexer.completeDoctype collected
    | depth + 1 => lexer.collect (.doctype depth (byte :: collected))
  else
    lexer.collect (.doctype depth (byte :: collected))

/-- Whether an instruction is the declaration of the document: its target is `xml`. -/
def isDeclaration : List UInt8 → Bool
  | [0x78, 0x6D, 0x6C] => true
  | 0x78 :: 0x6D :: 0x6C :: byte :: _ => isSpace byte
  | _ => false

/-- A byte of an instruction, which the first `?>` ends.  In `<?>` the one mark does not do for
both. -/
def stepInstruction (lexer : Lexer) (collected : List UInt8) (byte : UInt8) : Advance :=
  match byte, collected with
  | 0x3E, [] => lexer.reject .openInstruction
  | 0x3E, 0x3F :: rest =>
    let content := rest.reverse
    if isDeclaration content then lexer.complete (.declaration content) lexer.opened
    else lexer.complete (.instruction content) lexer.opened
  | _, _ => lexer.collect (.instruction (byte :: collected))

/-- What the next byte leads to. -/
def step (lexer : Lexer) (byte : UInt8) : Advance :=
  match lexer.mode with
  | .text collected => lexer.stepText collected byte
  | .markup => lexer.stepMarkup byte
  | .bang => lexer.stepBang byte
  | .cdata collected => lexer.stepCData collected byte
  | .comment collected => lexer.stepComment collected byte
  | .doctype depth collected => lexer.stepDoctype depth collected byte
  | .instruction collected => lexer.stepInstruction collected byte
  | .tag closing quote collected => lexer.stepTag closing quote collected byte

/-- What the end of the input means.  Text that ends there is a last token. -/
def finish (lexer : Lexer) : Reading :=
  match lexer.mode with
  | .text [] => ⟨[], .complete lexer.offset⟩
  | .text collected =>
    ⟨[⟨lexer.start, lexer.offset, .text collected.reverse⟩], .complete lexer.offset⟩
  | .markup | .tag .. => ⟨[], .rejected lexer.start .openTag⟩
  | .bang => ⟨[], .rejected lexer.start .unknownMarkup⟩
  | .cdata _ => ⟨[], .rejected lexer.start .openCData⟩
  | .comment _ => ⟨[], .rejected lexer.start .openComment⟩
  | .doctype .. => ⟨[], .rejected lexer.start .openDoctype⟩
  | .instruction _ => ⟨[], .rejected lexer.start .openInstruction⟩

end Lexer

/-- Where the lexer stands after some bytes. -/
inductive Pause where
  | ready (lexer : Lexer)
  | rejected (offset : Nat) (reason : Rejection)
  deriving DecidableEq, Repr

/-- The tokens that `bytes` complete, and where the lexer stands after them. -/
def lex (lexer : Lexer) : List UInt8 → List Token × Pause
  | [] => ([], .ready lexer)
  | byte :: rest =>
    match lexer.step byte with
    | .collecting next => lex next rest
    | .token token next =>
      let (tokens, pause) := lex next rest
      (token :: tokens, pause)
    | .rejected offset reason => ([], .rejected offset reason)

@[simp] theorem lex_nil (lexer : Lexer) : lex lexer [] = ([], .ready lexer) := rfl

/-- Lexing two parts is lexing the first and then the second, unless the first is rejected. -/
theorem lex_append (lexer : Lexer) (first second : List UInt8) :
    lex lexer (first ++ second) =
      match lex lexer first with
      | (tokens, .ready next) =>
        (tokens ++ (lex next second).1, (lex next second).2)
      | (tokens, .rejected offset reason) => (tokens, .rejected offset reason) := by
  induction first generalizing lexer with
  | nil => simp
  | cons byte rest ih =>
    simp only [List.cons_append, lex]
    cases lexer.step byte with
    | collecting next => exact ih next
    | token token next =>
      rcases h : lex next rest with ⟨tokens, pause⟩
      cases pause <;> simp [ih next, h]
    | rejected offset reason => rfl

end FormsAudit.Markup
