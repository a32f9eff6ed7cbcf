import FormsAudit.Json.Lexeme

/-!
# Universally unique identifiers

Sixteen bytes, written as 32 hexadecimal digits in five groups.  They are read without the hyphens
too, and with them also between braces or after `urn:uuid:`.
-/

namespace FormsAudit

/-- A universally unique identifier. -/
structure Uuid where
  bytes : List UInt8
  length_bytes : bytes.length = 16
  deriving DecidableEq, Repr

namespace Uuid

/-- Why a text is no identifier. -/
inductive Fault where
  | character (c : Char) (position : Nat)
  | length (found : Nat)
  | groupCount (found : Nat)
  | groupLength (group expected found : Nat)
  deriving DecidableEq, Repr

/-- The fault in words. -/
def Fault.message : Fault → String
  | character c position =>
    "invalid character: expected an optional prefix of \x60urn:uuid:\x60 followed by " ++
      s!"[0-9a-fA-F-], found \x60{c}\x60 at {position}"
  | length found => s!"invalid length: expected length 32 for simple format, found {found}"
  | groupCount found => s!"invalid group count: expected 5, found {found}"
  | groupLength group expected found =>
    s!"invalid group length in group {group}: expected {expected}, found {found}"

/-- The numbers of digits of the groups. -/
def groupSizes : List Nat := [8, 4, 4, 4, 12]

/-- The byte that two hexadecimal digits make. -/
def byteOf? (high low : Char) : Option UInt8 :=
  match Json.hexDigit? high, Json.hexDigit? low with
  | some h, some l => some (h * 16 + l).toUInt8
  | _, _ => none

/-- The bytes that hexadecimal digits make. -/
def bytesOf? : List Char → Option (List UInt8)
  | [] => some []
  | [_] => none
  | high :: low :: rest =>
    match byteOf? high low, bytesOf? rest with
    | some byte, some bytes => some (byte :: bytes)
    | _, _ => none

/-- The identifier of the bytes, if there are sixteen. -/
def ofBytes? (bytes : List UInt8) : Option Uuid :=
  if h : bytes.length = 16 then some ⟨bytes, h⟩ else none

/-- The identifier written as 32 digits. -/
def ofSimple? (text : List Char) : Option Uuid :=
  (bytesOf? text).bind ofBytes?

/-- The identifier written in five groups. -/
def ofHyphenated? (text : List Char) : Option Uuid :=
  let parts := text.splitOn '-'
  if parts.map List.length = groupSizes then (bytesOf? parts.flatten).bind ofBytes? else none

/-- The prefix of an identifier that is written as a name. -/
def nameLead : List Char := "urn:uuid:".toList

/-- The text without what may surround an identifier, the number of characters before it, and
whether nothing does. -/
def unwrap (text : List Char) : List Char × Nat × Bool :=
  if text.head? = some '\x7b' ∧ text.getLast? = some '\x7d' ∧ 1 < text.length then
    ((text.drop 1).dropLast, 1, false)
  else if nameLead.isPrefixOf text then (text.drop nameLead.length, nameLead.length, false)
  else (text, 0, true)

/-- The first character that no identifier has, and the number of bytes before it. -/
def strayCharacter? (offset : Nat) : List Char → Option (Char × Nat)
  | [] => none
  | c :: rest =>
    if (Json.hexDigit? c).isSome ∨ c = '-' then strayCharacter? (offset + c.utf8Size) rest
    else some (c, offset)

/-- The first group of another size than it should have. -/
def wrongGroup (index : Nat) : List Nat → List (List Char) → Fault
  | expected :: sizes, group :: rest =>
    if group.length = expected then wrongGroup (index + 1) sizes rest
    else .groupLength index expected group.length
  | _, _ => .groupCount index

/-- Why the text is no identifier. -/
def explain (text : List Char) : Fault :=
  let (inner, offset, bare) := unwrap text
  match strayCharacter? 0 inner with
  | some (c, position) => .character c (position + offset + 1)
  | none =>
    let parts := inner.splitOn '-'
    if parts.length = 1 && bare then .length (Utf8.size inner)
    else if parts.length ≠ 5 then .groupCount parts.length
    else wrongGroup 0 groupSizes parts

/-- The identifier that the text stands for. -/
def parse (text : String) : Except Fault Uuid :=
  let chars := text.toList
  let size := Utf8.size chars
  let (inner, _, bare) := unwrap chars
  let attempt (read? : List Char → Option Uuid) (part : List Char) : Except Fault Uuid :=
    match read? part with
    | some uuid => .ok uuid
    | none => .error (explain part)
  if size = 32 then attempt ofSimple? chars
  else if size = 36 then attempt ofHyphenated? chars
  else if !bare ∧ Utf8.size inner = 36 then attempt ofHyphenated? inner
  else .error (explain chars)

/-- The digits of the identifier, two a byte. -/
def digits (uuid : Uuid) : List Char :=
  uuid.bytes.flatMap fun byte =>
    [Nat.digitChar (byte.toNat / 16), Nat.digitChar (byte.toNat % 16)]

/-- The text cut into groups of the given sizes. -/
def cut : List Nat → List Char → List (List Char)
  | [], _ => []
  | size :: sizes, text => text.take size :: cut sizes (text.drop size)

/-- The identifier as it is written. -/
def toText (uuid : Uuid) : String :=
  "-".intercalate ((cut groupSizes uuid.digits).map String.ofList)

/-- The identifier of the fourth version that random bytes make. -/
def ofRandom (bytes : List UInt8) : Uuid :=
  let sixteen := bytes.take 16 ++ List.replicate (16 - bytes.length) 0
  { bytes := (sixteen.modify 6 fun byte => (byte &&& 0x0F) ||| 0x40).modify 8 fun byte =>
      (byte &&& 0x3F) ||| 0x80
    length_bytes := by
      simp only [List.length_modify, sixteen, List.length_append, List.length_take,
        List.length_replicate]
      omega }

end Uuid

end FormsAudit
