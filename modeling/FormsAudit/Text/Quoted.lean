import FormsAudit.Text.Utf8
import FormsAudit.Unicode.Printable

/-!
# Quoted texts

A text shown between quotes, for the eye of a programmer: what does not print as itself is written
as an escape.
-/

namespace FormsAudit.Quoted

/-- `n` in hexadecimal with small letters. -/
def lowerHex (n : Nat) : List Char :=
  Nat.toDigits 16 n

/-- A character as it is written inside a quoted text.  A single quote is escaped only where
`single` asks for it. -/
def character (single : Bool) (c : Char) : List Char :=
  if c = '\x00' then ['\\', '0']
  else if c = '\t' then ['\\', 't']
  else if c = '\r' then ['\\', 'r']
  else if c = '\n' then ['\\', 'n']
  else if c = '\\' ∨ c = '"' then ['\\', c]
  else if c = '\'' ∧ single then ['\\', c]
  else if Unicode.isPrintable c then [c]
  else ['\\', 'u', '\x7b'] ++ lowerHex c.toNat ++ ['\x7d']

/-- A text between quotes. -/
def text (content : String) : String :=
  String.ofList ('"' :: content.toList.flatMap (character false) ++ ['"'])

/-- The bytes from which `Utf8.scan` makes one broken sequence are written one by one, as two
hexadecimal digits each. -/
def brokenByte (byte : UInt8) : List Char :=
  let digits := (lowerHex byte.toNat).map Char.toUpper
  ['\\', 'x'] ++ List.replicate (2 - digits.length) '0' ++ digits

/-- Writes the beginning of `bytes` that is text, then the bytes up to the next text. -/
def bytesFrom : Nat → List UInt8 → List Char
  | 0, _ => []
  | fuel + 1, bytes =>
    let valid := Utf8.validLength bytes
    let shown := (Utf8.decodeLossy (bytes.take valid)).flatMap (character true)
    match bytes.drop valid with
    | [] => shown
    | byte :: rest => shown ++ brokenByte byte ++ bytesFrom fuel rest

/-- Bytes between quotes, as text as far as they are text. -/
def bytes (content : List UInt8) : String :=
  String.ofList ('"' :: bytesFrom (content.length + 1) content ++ ['"'])

end FormsAudit.Quoted
