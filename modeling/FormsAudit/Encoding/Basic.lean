import FormsAudit.Encoding.CodePage
import FormsAudit.Encoding.Wide
import FormsAudit.Text.Utf8

/-!
# Character encodings of a document

A document is split into tokens by bytes, whatever its encoding; the encoding then decides what
characters the bytes of one token are, and how many bytes a beginning of those characters took.
-/

namespace FormsAudit

/-- An encoding that a document may be in. -/
inductive Encoding where
  | utf8
  | utf16be
  | utf16le
  /-- One byte per character, by a table. -/
  | narrow (page : CodePage)
  /-- ASCII below, private-use characters above. -/
  | userDefined
  | wide (page : WideCodePage)
  /-- Stands for labels of encodings that are refused; only nothing is well formed in it. -/
  | replacement
  deriving DecidableEq, Repr

namespace Encoding

/-- The name of the encoding in the encoding standard. -/
def name : Encoding → String
  | .utf8 => "UTF-8"
  | .utf16be => "UTF-16BE"
  | .utf16le => "UTF-16LE"
  | .narrow page => page.name
  | .userDefined => "x-user-defined"
  | .wide page => page.name
  | .replacement => "replacement"

/-- The characters of UTF-16 code units, if every surrogate is one of a pair. -/
def decodeUnits? : List Nat → Option (List Char)
  | [] => some []
  | unit :: rest =>
    if 0xD800 ≤ unit ∧ unit < 0xDC00 then
      match rest with
      | low :: rest =>
        if 0xDC00 ≤ low ∧ low < 0xE000 then
          (decodeUnits? rest).map
            (Char.ofNat (0x10000 + (unit - 0xD800) * 0x400 + (low - 0xDC00)) :: ·)
        else
          none
      | [] => none
    else if 0xDC00 ≤ unit ∧ unit < 0xE000 then
      none
    else
      (decodeUnits? rest).map (Char.ofNat unit :: ·)

/-- The code units of a sequence of bytes, if their number is even. -/
def units? (bigEndian : Bool) : List UInt8 → Option (List Nat)
  | [] => some []
  | [_] => none
  | first :: second :: rest =>
    let unit :=
      if bigEndian then first.toNat * 0x100 + second.toNat
      else second.toNat * 0x100 + first.toNat
    (units? bigEndian rest).map (unit :: ·)

/-- The character of one byte of `x-user-defined`. -/
def userDefinedChar (byte : UInt8) : Char :=
  if byte < 0x80 then Char.ofNat byte.toNat else Char.ofNat (0xF780 + (byte.toNat - 0x80))

variable [WideDecoders]

/-- The text that `bytes` are, if they are one. -/
def decode? (encoding : Encoding) (bytes : List UInt8) : Option (List Char) :=
  match encoding with
  | .utf8 => Utf8.decode? bytes
  | .utf16be => (units? true bytes).bind decodeUnits?
  | .utf16le => (units? false bytes).bind decodeUnits?
  | .narrow page => bytes.mapM page.decodeByte?
  | .userDefined => some (bytes.map userDefinedChar)
  | .wide page => WideDecoders.decode? page bytes
  | .replacement => if bytes.isEmpty then some [] else none

/-- The number of bytes that a text takes when it is written in the encoding.  UTF-16 and the
replacement encoding are never written: UTF-8 stands in for them. -/
def encodedLength (encoding : Encoding) (text : List Char) : Nat :=
  match encoding with
  | .narrow _ | .userDefined => text.length
  | .wide page => WideDecoders.encodedLength page text
  | .utf8 | .utf16be | .utf16le | .replacement => Utf8.size text

@[simp] theorem encodedLength_nil (encoding : Encoding) : encoding.encodedLength [] = 0 := by
  cases encoding with
  | wide page => exact WideDecoders.encodedLength_nil page
  | _ => rfl

end Encoding

end FormsAudit
