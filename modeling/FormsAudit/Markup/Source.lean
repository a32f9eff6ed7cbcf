import FormsAudit.Encoding.Basic
import FormsAudit.Markup.Lexer

/-!
# Sources of bytes

A source hands out its bytes in reads.  Only the first read is looked at as such: the mark or
signature of an encoding is recognised there, and only if it lies wholly inside of it.  A byte order
mark is dropped and not counted.
-/

namespace FormsAudit.Markup

/-- The bytes of a source, cut into its reads, and the error that the read after the last one meets
instead of the end of the input. -/
structure Source where
  reads : List (List UInt8)
  failure : Option SystemError
  deriving DecidableEq, Repr

/-- Cuts `bytes` into pieces of `limit` bytes, the last one shorter. -/
def pieces (limit : Nat) (bytes : List UInt8) : List (List UInt8) :=
  if _h : bytes = [] ∨ limit = 0 then
    if bytes.isEmpty then [] else [bytes]
  else
    bytes.take limit :: pieces limit (bytes.drop limit)
  termination_by bytes.length
  decreasing_by
    obtain ⟨hbytes, hlimit⟩ := not_or.mp _h
    have : 0 < bytes.length := List.length_pos_iff.mpr hbytes
    simp only [List.length_drop]
    omega

namespace Source

/-- The largest read that is asked of a source. -/
def readLimit : Nat := 8192

/-- A source that yields `bytes` in reads of at most `limit` bytes. -/
def ofBytes (bytes : List UInt8) (limit : Nat := readLimit) : Source :=
  ⟨pieces (min limit readLimit) bytes, none⟩

/-- A source that yields `bytes` and then fails. -/
def failing (bytes : List UInt8) (limit : Nat) (error : SystemError) : Source :=
  ⟨pieces (min limit readLimit) bytes, some error⟩

/-- The first read; nothing when the source has none. -/
def firstRead (source : Source) : List UInt8 :=
  source.reads.headD []

/-- All bytes of the source. -/
def bytes (source : Source) : List UInt8 :=
  source.reads.flatten

end Source

/-- The byte order mark of UTF-8. -/
def byteOrderMark : List UInt8 := [0xEF, 0xBB, 0xBF]

/-- What the first read says about the encoding. -/
structure Signature where
  encoding : Encoding
  /-- How many bytes the byte order mark takes. -/
  mark : Nat
  deriving DecidableEq, Repr

/-- The signature of a document, by the marks and the first characters `<?` of the encodings. -/
def Signature.ofFirstRead : List UInt8 → Signature
  | 0xFE :: 0xFF :: _ => ⟨.utf16be, 2⟩
  | 0xFF :: 0xFE :: _ => ⟨.utf16le, 2⟩
  | 0xEF :: 0xBB :: 0xBF :: _ => ⟨.utf8, 3⟩
  | 0x00 :: 0x3C :: 0x00 :: 0x3F :: _ => ⟨.utf16be, 0⟩
  | 0x3C :: 0x00 :: 0x3F :: 0x00 :: _ => ⟨.utf16le, 0⟩
  | _ => ⟨.utf8, 0⟩

/-- The signature of the source. -/
def Source.signature (source : Source) : Signature :=
  .ofFirstRead source.firstRead

/-- The bytes that offsets count: all but the mark. -/
def Source.content (source : Source) : List UInt8 :=
  source.bytes.drop source.signature.mark

/-- The tokens of the source. -/
def Source.tokens (source : Source) : Reading :=
  match lex .initial source.content with
  | (tokens, .rejected offset reason) => ⟨tokens, .rejected offset reason⟩
  | (tokens, .ready lexer) =>
    match source.failure with
    | some error => ⟨tokens, .unreadable error⟩
    | none => ⟨tokens ++ lexer.finish.tokens, lexer.finish.ending⟩

end FormsAudit.Markup
