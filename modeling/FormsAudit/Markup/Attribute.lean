import FormsAudit.Markup.Token

/-!
# Attributes of a tag

The attributes are read from the content of a tag, byte by byte, up to the first fault.  Positions
count bytes from the start of the content.  `quotedValues` finds the quoted stretches of a tag
without regard to keys.
-/

namespace FormsAudit.Markup

/-- A key and its value between quotes. -/
structure Attribute where
  key : List UInt8
  value : List UInt8
  /-- Where the value starts. -/
  start : Nat
  deriving DecidableEq, Repr

/-- Why a tag does not go on with an attribute. -/
inductive AttributeFault where
  /-- A key is not followed by `=`. -/
  | expectedEquals (position : Nat)
  /-- Nothing follows `=`. -/
  | expectedValue (position : Nat)
  /-- What follows `=` is no quote. -/
  | unquoted (position : Nat)
  /-- A value does not end. -/
  | expectedQuote (position : Nat) (quote : UInt8)
  /-- A key occurs twice. -/
  | duplicated (position previous : Nat)
  deriving DecidableEq, Repr

namespace AttributeFault

/-- Where the fault lies. -/
def position : AttributeFault → Nat
  | expectedEquals position => position
  | expectedValue position => position
  | unquoted position => position
  | expectedQuote position _ => position
  | duplicated position _ => position

/-- The fault in words. -/
def message : AttributeFault → String
  | expectedEquals position =>
    s!"position {position}: attribute key must be directly followed by `=` or space"
  | expectedValue position =>
    s!"position {position}: `=` must be followed by an attribute value"
  | unquoted position =>
    s!"position {position}: attribute value must be enclosed in `\"` or `'`"
  | expectedQuote position quote =>
    s!"position {position}: missing closing quote `{Char.ofNat quote.toNat}` in attribute value"
  | duplicated position previous =>
    s!"position {position}: duplicated attribute, previous declaration at position {previous}"

end AttributeFault

/-- Where the reader of attributes stands.  Collected bytes are kept latest first. -/
inductive AttributeMode where
  | between
  | key (start : Nat) (collected : List UInt8)
  | afterKey (start : Nat) (key : List UInt8)
  | beforeValue (key : List UInt8)
  | value (key : List UInt8) (quote : UInt8) (start : Nat) (collected : List UInt8)
  deriving DecidableEq, Repr

/-- What a byte means to the reader of attributes. -/
inductive AttributeStep where
  | go (mode : AttributeMode)
  | keyed (start : Nat) (key : List UInt8)
  | found (item : Attribute)
  | fault (fault : AttributeFault)
  deriving DecidableEq, Repr

namespace AttributeMode

/-- What the byte at `offset` means. -/
def step (mode : AttributeMode) (offset : Nat) (byte : UInt8) : AttributeStep :=
  match mode with
  | between => if isSpace byte then .go between else .go (key offset [byte])
  | key start collected =>
    if byte = 0x3D then .keyed start collected.reverse
    else if isSpace byte then .go (afterKey start collected.reverse)
    else .go (key start (byte :: collected))
  | afterKey start name =>
    if byte = 0x3D then .keyed start name
    else if isSpace byte then .go mode
    else .fault (.expectedEquals offset)
  | beforeValue name =>
    if byte = 0x22 ∨ byte = 0x27 then .go (value name byte (offset + 1) [])
    else if isSpace byte then .go mode
    else .fault (.unquoted offset)
  | value name quote start collected =>
    if byte = quote then .found ⟨name, collected.reverse, start⟩
    else .go (value name quote start (byte :: collected))

/-- What the end of the tag at `offset` means. -/
def finish (mode : AttributeMode) (offset : Nat) : Option AttributeFault :=
  match mode with
  | between => none
  | key .. | afterKey .. => some (.expectedEquals offset)
  | beforeValue _ => some (.expectedValue offset)
  | value _ quote _ _ => some (.expectedQuote offset quote)

end AttributeMode

/-- The attributes that follow from `offset` on, and the fault that ends them.  `seen` holds the keys
that may not come again; without `unique` none is held. -/
def attributesFrom (unique : Bool) (seen : List (List UInt8 × Nat)) (mode : AttributeMode)
    (offset : Nat) : List UInt8 → List Attribute × Option AttributeFault
  | [] => ([], mode.finish offset)
  | byte :: rest =>
    match mode.step offset byte with
    | .go mode => attributesFrom unique seen mode (offset + 1) rest
    | .keyed start key =>
      match seen.lookup key with
      | some previous => ([], some (.duplicated start previous))
      | none =>
        let seen := if unique then (key, start) :: seen else seen
        attributesFrom unique seen (.beforeValue key) (offset + 1) rest
    | .found item =>
      let (items, fault) := attributesFrom unique seen .between (offset + 1) rest
      (item :: items, fault)
    | .fault fault => ([], some fault)

/-- The attributes of a tag, of which no two have the same key, and the fault that ends them. -/
def attributes (content : List UInt8) : List Attribute × Option AttributeFault :=
  let name := tagName content
  attributesFrom true [] .between name.length (content.drop name.length)

/-- The first attribute of the document's declaration that names its encoding. -/
def declaredLabel? (declaration : List UInt8) : Option (List UInt8) :=
  let target := tagName declaration
  let found := (attributesFrom false [] .between target.length (declaration.drop target.length)).1
  (found.find? (·.key == "encoding".toUTF8.toList)).map (·.value)

/-- A stretch between two equal quotes. -/
structure QuotedValue where
  start : Nat
  content : List UInt8
  deriving DecidableEq, Repr

/-- The quoted stretches from `offset` on, inside of the quotes `quote` that began at a start with
the bytes collected since, latest first. -/
def quotedValuesFrom (quote : Option (UInt8 × Nat × List UInt8)) (offset : Nat) :
    List UInt8 → List QuotedValue
  | [] => []
  | byte :: rest =>
    match quote with
    | some (mark, start, collected) =>
      if byte = mark then
        ⟨start, collected.reverse⟩ :: quotedValuesFrom none (offset + 1) rest
      else
        quotedValuesFrom (some (mark, start, byte :: collected)) (offset + 1) rest
    | none =>
      if byte = 0x22 ∨ byte = 0x27 then
        quotedValuesFrom (some (byte, offset + 1, [])) (offset + 1) rest
      else
        quotedValuesFrom none (offset + 1) rest

/-- The quoted stretches of a tag, in order. -/
def quotedValues (content : List UInt8) : List QuotedValue :=
  quotedValuesFrom none 0 content

/-- Where the first `<` inside of a quoted stretch lies. -/
def lessThanInValue? (values : List QuotedValue) : Option Nat :=
  values.findSome? fun value => (value.content.findIdx? (· == 0x3C)).map (value.start + ·)

end FormsAudit.Markup
