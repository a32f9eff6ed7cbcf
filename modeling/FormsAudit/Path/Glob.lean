import FormsAudit.Path.Basic

/-!
# Path patterns

A pattern of bytes with wildcards, which matches a whole path.  A star or a question mark does not
cross a slash; two stars do, when they are a whole component; a class matches any byte it names,
and a character outside of ASCII names its bytes.
-/

namespace FormsAudit

/-- A part of a pattern. -/
inductive GlobPart where
  | literal (bytes : List UInt8)
  /-- `?` -/
  | anyByte
  /-- `*` -/
  | anyRun
  /-- `**/` at the start. -/
  | leadingDirectories
  /-- `/**` at the end. -/
  | everythingBelow
  /-- `/**/` -/
  | innerDirectories
  /-- `[…]`, as inclusive ranges. -/
  | oneOf (negated : Bool) (ranges : List (UInt8 × UInt8))
  /-- `{…,…}` -/
  | alternatives (branches : List (List GlobPart))
  deriving Repr

/-- Why a pattern is none. -/
inductive GlobFault where
  | unclosedClass
  | invalidRange (first last : Char)
  | unopenedAlternatives
  | unclosedAlternatives
  | danglingEscape
  deriving DecidableEq, Repr

/-- The fault in words. -/
def GlobFault.message : GlobFault → String
  | unclosedClass => "unclosed character class; missing ']'"
  | invalidRange first last => s!"invalid range; '{first}' > '{last}'"
  | unopenedAlternatives =>
    "unopened alternate group; missing '\x7b' (maybe escape '\x7d' with '[\x7d]'?)"
  | unclosedAlternatives =>
    "unclosed alternate group; missing '\x7d' (maybe escape '\x7b' with '[\x7b]'?)"
  | danglingEscape => "dangling '\\'"

namespace Glob

/-! ## Matching -/

/-- `text` and what is left of it after each byte before the next slash. -/
def runRests : List UInt8 → List (List UInt8)
  | [] => [[]]
  | byte :: rest => (byte :: rest) :: if byte = Path.slash then [] else runRests rest

/-- All that `text` ends with. -/
def suffixes : List UInt8 → List (List UInt8)
  | [] => [[]]
  | byte :: rest => (byte :: rest) :: suffixes rest

/-- What is left of `text` after each of its slashes. -/
def afterSlashes : List UInt8 → List (List UInt8)
  | [] => []
  | byte :: rest => if byte = Path.slash then rest :: afterSlashes rest else afterSlashes rest

mutual

/-- Whether a part matches nothing but the empty text for want of anything inside. -/
def isVoid : GlobPart → Bool
  | .alternatives branches => allVoid branches
  | _ => false

/-- Whether every part of a branch is void. -/
def isVoidBranch : List GlobPart → Bool
  | [] => true
  | part :: parts => isVoid part && isVoidBranch parts

/-- Whether every branch is void. -/
def allVoid : List (List GlobPart) → Bool
  | [] => true
  | branch :: branches => isVoidBranch branch && allVoid branches

end

mutual

/-- What can be left of `text` after `part`. -/
def partRests (part : GlobPart) (text : List UInt8) : List (List UInt8) :=
  match part with
  | .literal bytes => if bytes.isPrefixOf text then [text.drop bytes.length] else []
  | .anyByte =>
    match text with
    | [] => []
    | byte :: rest => if byte = Path.slash then [] else [rest]
  | .anyRun => runRests text
  | .leadingDirectories => text :: afterSlashes text
  | .everythingBelow =>
    match text with
    | [] => []
    | byte :: rest => if byte = Path.slash then suffixes rest else []
  | .innerDirectories =>
    match text with
    | [] => []
    | byte :: rest => if byte = Path.slash then rest :: afterSlashes rest else []
  | .oneOf negated ranges =>
    match text with
    | [] => []
    | byte :: rest =>
      if (ranges.any fun range => range.1 ≤ byte && byte ≤ range.2) != negated then [rest]
      else []
  | .alternatives branches => if allVoid branches then [text] else branchRests branches text

/-- What can be left of `text` after one of the branches that are not void. -/
def branchRests (branches : List (List GlobPart)) (text : List UInt8) : List (List UInt8) :=
  match branches with
  | [] => []
  | branch :: branches =>
    (if isVoidBranch branch then [] else rests branch [text]) ++ branchRests branches text

/-- What can be left of any of `texts` after all parts. -/
def rests (parts : List GlobPart) (texts : List (List UInt8)) : List (List UInt8) :=
  match parts with
  | [] => texts
  | part :: parts => rests parts ((texts.flatMap fun text => partRests part text).eraseDups)

end

/-! ## Reading -/

/-- The state of the reader: the branches of the groups that are open, innermost first, each with
its parts latest first, and the number of branches that each open group has. -/
structure Reader where
  branches : List (List GlobPart)
  groups : List Nat
  previous : Option Char

namespace Reader

def initial : Reader := ⟨[[]], [], none⟩

/-- The branch being read, latest part first. -/
def current (reader : Reader) : List GlobPart := reader.branches.headD []

/-- Adds a part to the branch being read. -/
def push (reader : Reader) (part : GlobPart) : Reader :=
  { reader with branches := (part :: reader.current) :: reader.branches.drop 1 }

/-- Replaces the latest part of the branch being read. -/
def replaceLast (reader : Reader) (part : GlobPart) : Reader :=
  { reader with branches := (part :: reader.current.drop 1) :: reader.branches.drop 1 }

/-- Begins another branch of the innermost group. -/
def nextBranch (reader : Reader) : Reader :=
  match reader.groups with
  | [] => reader
  | count :: groups => { reader with branches := [] :: reader.branches, groups := (count + 1) :: groups }

/-- Opens a group. -/
def openGroup (reader : Reader) : Reader :=
  { reader with branches := [] :: reader.branches, groups := 1 :: reader.groups }

/-- Closes the innermost group. -/
def closeGroup (reader : Reader) : Except GlobFault Reader :=
  match reader.groups with
  | [] => .error .unopenedAlternatives
  | count :: groups =>
    let inner := (reader.branches.take count).reverse.map List.reverse
    let outer : Reader := { reader with branches := reader.branches.drop count, groups }
    .ok (outer.push (.alternatives inner))

end Reader

/-- The bytes of a character. -/
def charBytes (c : Char) : List UInt8 := String.utf8EncodeChar c

/-- The ranges of bytes that a range of characters names: outside of ASCII a character is written
as its bytes, and the range runs between the two bytes that meet. -/
def byteRanges (range : Char × Char) : List (UInt8 × UInt8) :=
  let single (bytes : List UInt8) := bytes.map fun byte => (byte, byte)
  if range.1 = range.2 then
    single (charBytes range.1)
  else
    let first := charBytes range.1
    let last := charBytes range.2
    single first.dropLast ++ [(first.getLastD 0, last.headD 0)] ++ single (last.drop 1)

/-- Where the reader of a class stands: the ranges so far, latest first, whether a hyphen waits for
the end of a range, and whether nothing has been read. -/
structure ClassReader where
  ranges : List (Char × Char)
  inRange : Bool
  first : Bool

/-- Ends the latest range with `c`. -/
def ClassReader.extend (reader : ClassReader) (c : Char) : Except GlobFault ClassReader :=
  match reader.ranges with
  | [] => .ok { reader with inRange := false, first := false }
  | (low, _) :: ranges =>
    if c < low then .error (.invalidRange low c)
    else .ok ⟨(low, c) :: ranges, false, false⟩

/-- Reads a class up to its closing bracket; gives its ranges in order and the rest of the
pattern. -/
def readClass (reader : ClassReader) :
    List Char → Except GlobFault (List (Char × Char) × List Char)
  | [] => .error .unclosedClass
  | c :: rest =>
    if c = ']' ∧ !reader.first then
      let ranges := if reader.inRange then ('-', '-') :: reader.ranges else reader.ranges
      .ok (ranges.reverse, rest)
    else if c = '-' ∧ !reader.first ∧ !reader.inRange then
      readClass { reader with inRange := true } rest
    else if c ≠ ']' ∧ reader.inRange then
      match reader.extend c with
      | .ok reader => readClass reader rest
      | .error fault => .error fault
    else
      readClass ⟨(c, c) :: reader.ranges, false, false⟩ rest

/-- What two stars mean after `previous` and before `rest`; gives the rest of the pattern. -/
def readTwoStars (reader : Reader) (rest : List Char) : Reader × List Char :=
  let plain := ((reader.push .anyRun).push .anyRun, rest)
  let nested := decide (2 ≤ reader.branches.length)
  if reader.current.isEmpty then
    match rest with
    | [] => (reader.push .leadingDirectories, [])
    | '/' :: rest => (reader.push .leadingDirectories, rest)
    | _ => plain
  else if reader.previous ≠ some '/' ∧
      (!nested ∨ (reader.previous ≠ some ',' ∧ reader.previous ≠ some '\x7b')) then
    plain
  else
    let finish (isSuffix : Bool) (rest : List Char) : Reader × List Char :=
      match reader.current with
      | .leadingDirectories :: _ | .everythingBelow :: _ => (reader, rest)
      | _ =>
        (reader.replaceLast (if isSuffix then .everythingBelow else .innerDirectories), rest)
    match rest with
    | [] => finish true []
    | '/' :: rest => finish false rest
    | ',' :: _ | '\x7d' :: _ => if nested then finish true rest else plain
    | _ => plain

/-- Reads the pattern on.  Each step takes at least one character, so that `fuel` characters are
enough for a pattern of that length. -/
def readFrom : Nat → Reader → List Char → Except GlobFault Reader
  | _, reader, [] => .ok reader
  | 0, reader, _ => .ok reader
  | fuel + 1, reader, c :: rest =>
    let goOn (reader : Reader) (previous : Char) (rest : List Char) :=
      readFrom fuel { reader with previous := some previous } rest
    match c with
    | '?' => goOn (reader.push .anyByte) c rest
    | '*' =>
      match rest with
      | '*' :: rest =>
        let (next, left) := readTwoStars reader rest
        goOn next (if left.length < rest.length then '/' else '*') left
      | _ => goOn (reader.push .anyRun) c rest
    | '[' =>
      let (negated, inner) :=
        match rest with
        | '!' :: inner | '^' :: inner => (true, inner)
        | inner => (false, inner)
      match readClass ⟨[], false, true⟩ inner with
      | .error fault => .error fault
      | .ok (ranges, left) => goOn (reader.push (.oneOf negated (ranges.flatMap byteRanges))) ']' left
    | '\x7b' => goOn reader.openGroup c rest
    | '\x7d' =>
      match reader.closeGroup with
      | .error fault => .error fault
      | .ok reader => goOn reader c rest
    | ',' =>
      if reader.groups.isEmpty then goOn (reader.push (.literal (charBytes c))) c rest
      else goOn reader.nextBranch c rest
    | '\\' =>
      match rest with
      | [] => .error .danglingEscape
      | escaped :: rest => goOn (reader.push (.literal (charBytes escaped))) escaped rest
    | _ => goOn (reader.push (.literal (charBytes c))) c rest

end Glob

/-- A pattern that has been read. -/
structure Glob where
  parts : List GlobPart
  deriving Repr

namespace Glob

/-- The pattern that a text is. -/
def parse (pattern : String) : Except GlobFault Glob :=
  let chars := pattern.toList
  match readFrom chars.length .initial chars with
  | .error fault => .error fault
  | .ok reader =>
    if 1 < reader.branches.length then .error .unclosedAlternatives
    else .ok ⟨reader.current.reverse⟩

/-- Whether the pattern matches the whole of `text`.  Two stars alone match everything. -/
def isMatch (glob : Glob) (text : String) : Bool :=
  match glob.parts with
  | [.leadingDirectories] => true
  | parts => (rests parts [text.toUTF8.toList]).any List.isEmpty

end Glob

end FormsAudit
