import FormsAudit.Markup.Source

/-!
# Lines and columns

The starts of lines are noted while the reads come in.  The line of an offset is the number of lines
that start no later, and its column counts bytes from the start of that line; both begin at one.  A
byte order mark of UTF-8 is shifted past: offsets do not count it, and the first line starts after
it.
-/

namespace FormsAudit.Markup

/-- The starts of the lines seen so far, latest first, and the number of bytes seen. -/
structure LineIndex where
  consumed : Nat
  mark : Nat
  starts : List Nat
  deriving DecidableEq, Repr

namespace LineIndex

/-- Before the first read. -/
def empty : LineIndex := ⟨0, 0, [0]⟩

/-- Notes the lines that start inside of `bytes`, which begin at byte `consumed` of the input. -/
def noteLines (consumed : Nat) (starts : List Nat) : List UInt8 → List Nat
  | [] => starts
  | byte :: rest =>
    noteLines (consumed + 1) (if byte = 0x0A then (consumed + 1) :: starts else starts) rest

/-- The index after one more read. -/
def read (index : LineIndex) (bytes : List UInt8) : LineIndex :=
  let marked := index.consumed = 0 && byteOrderMark.isPrefixOf bytes
  let mark := if marked then byteOrderMark.length else index.mark
  let starts := if marked then [mark] else index.starts
  ⟨index.consumed + bytes.length, mark, noteLines index.consumed starts bytes⟩

/-- The index after all reads of a source. -/
def ofSource (source : Source) : LineIndex :=
  source.reads.foldl read empty

/-- A number as 32 bits, the largest where it has more. -/
def saturate (n : Nat) : UInt32 :=
  if n < UInt32.size then n.toUInt32 else UInt32.ofNat (UInt32.size - 1)

/-- The line and the column of an offset. -/
def locate (index : LineIndex) (offset : Nat) : UInt32 × UInt32 :=
  let position := offset + index.mark
  let upTo := index.starts.dropWhile (position < ·)
  let lineStart := upTo.headD (index.starts.getLastD 0)
  (saturate (max upTo.length 1), saturate (position - lineStart + 1))

end LineIndex

end FormsAudit.Markup
