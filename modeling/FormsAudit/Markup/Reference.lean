import FormsAudit.Text.Numeral
import FormsAudit.Text.Utf8
import FormsAudit.Unicode.Alphabetic

/-!
# References in text and attribute values

`&name;` and `&#number;` stand for characters.  The five predefined entities have their characters;
any other well-named entity is taken on trust and stands for nothing, since no external declaration
is read.
-/

namespace FormsAudit.Markup

/-- Whether a character may stand in a document. -/
def isLegal (c : Char) : Bool :=
  c = '\t' || c = '\n' || c = '\r' || (0x20 ≤ c.toNat && c.toNat ≤ 0xD7FF) ||
    (0xE000 ≤ c.toNat && c.toNat ≤ 0xFFFD) || 0x10000 ≤ c.toNat

/-- Why a number is no reference to a character. -/
inductive CharacterFault where
  | signed
  | numeral (fault : Numeral.Fault)
  | noCodePoint (number : Nat)
  | zero
  deriving DecidableEq, Repr

/-- The fault in words. -/
def CharacterFault.message : CharacterFault → String
  | .signed => "unexpected number sign"
  | .numeral fault => fault.message
  | .noCodePoint number => s!"`{number}` is not a valid codepoint"
  | .zero => "0x0 character is not permitted in XML"

/-- Why a text holds no reference where it should. -/
inductive ReferenceFault where
  /-- No `;` follows the `&` after `before`, in a text of `length` bytes. -/
  | unterminated (before : List Char) (length : Nat)
  /-- What stands between `before`, which ends with `&`, and `;` is no name. -/
  | unrecognized (before name : List Char)
  /-- The number after `&#` is no character. -/
  | character (fault : CharacterFault)
  deriving DecidableEq, Repr

/-- The fault in words.  Ranges count bytes of the text in UTF-8. -/
def ReferenceFault.message : ReferenceFault → String
  | .unterminated before length =>
    s!"Error while escaping character at range {Utf8.size before}..{length}: " ++
      "Cannot find ';' after '&'"
  | .unrecognized before name =>
    let start := Utf8.size before
    s!"at {start}..{start + Utf8.size name}: unrecognized entity `{String.ofList name}`"
  | .character fault => s!"invalid character reference: {fault.message}"

/-- Whether an entity may have this name. -/
def isName : List Char → Bool
  | [] => false
  | first :: rest =>
    (Unicode.isAlphabetic first || first = '_' || first = ':') &&
      rest.all fun c => Unicode.isAlphanumeric c || c = '_' || c = ':' || c = '-' || c = '.'

/-- The characters that an entity stands for. -/
def entity? (name : List Char) : Option (List Char) :=
  if name = ['l', 't'] then some ['<']
  else if name = ['g', 't'] then some ['>']
  else if name = ['a', 'm', 'p'] then some ['&']
  else if name = ['a', 'p', 'o', 's'] then some ['\'']
  else if name = ['q', 'u', 'o', 't'] then some ['"']
  else if isName name then some []
  else none

/-- The character of a number, written in decimal or after `x` in hexadecimal. -/
def characterOfNumber (number : List Char) : Except CharacterFault Char :=
  let (radix, digits) :=
    match number with
    | 'x' :: digits => (16, digits)
    | digits => (10, digits)
  match digits with
  | '+' :: _ | '-' :: _ => .error .signed
  | _ =>
    match Numeral.readDigits radix UInt32.size digits with
    | .error fault => .error (.numeral fault)
    | .ok 0 => .error .zero
    | .ok n => if n.isValidChar then .ok (Char.ofNat n) else .error (.noCodePoint n)

/-- The characters of the reference whose name stands between `&` and `;`. -/
def resolveReference (before name : List Char) : Except ReferenceFault (List Char) :=
  match name with
  | '#' :: number =>
    match characterOfNumber number with
    | .ok c => .ok [c]
    | .error fault => .error (.character fault)
  | _ =>
    match entity? name with
    | some text => .ok text
    | none => .error (.unrecognized (before ++ ['&']) name)

/-- Replaces the references in a text.  `before` is what has gone before, latest first; inside of a
reference, `opened` is what had gone before its `&`, and what has been read of its name, both latest
first. -/
def expandFrom (before : List Char) (opened : Option (List Char × List Char)) :
    List Char → Except ReferenceFault (List Char)
  | [] =>
    match opened with
    | none => .ok []
    | some (outside, _) => .error (.unterminated outside.reverse (Utf8.size before))
  | c :: rest =>
    match opened with
    | none =>
      if c = '&' then expandFrom (c :: before) (some (before, [])) rest
      else (expandFrom (c :: before) none rest).map (c :: ·)
    | some (outside, name) =>
      if c = ';' then
        match resolveReference outside.reverse name.reverse with
        | .ok text => (expandFrom (c :: before) none rest).map (text ++ ·)
        | .error fault => .error fault
      else if c = '&' then
        .error (.unterminated outside.reverse (Utf8.size before + Utf8.size (c :: rest)))
      else
        expandFrom (c :: before) (some (outside, c :: name)) rest

/-- The text with its references replaced. -/
def expand (text : List Char) : Except ReferenceFault (List Char) :=
  expandFrom [] none text

end FormsAudit.Markup
