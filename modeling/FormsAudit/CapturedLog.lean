import FormsAudit.Failure
import FormsAudit.Run
import FormsAudit.Text.Numeral
import FormsAudit.Unicode.Blank
import FormsAudit.Unicode.Digit

/-!
# Captured logs

The lint tool tells each problem in three lines: a heading with the file, the line, the kind of the
problem and a message; the line of the source; and a caret under the column.  Three lines of this
form are a block, and become a finding; all others are passed over.
-/

namespace FormsAudit

/-- What the first line of a block says. -/
structure LogHeading where
  file : List Char
  /-- The digits of the line number. -/
  line : List Char
  kind : List Char
  message : List Char
  deriving DecidableEq, Repr

/-- Three lines of a captured log that tell one problem. -/
structure LogBlock where
  heading : LogHeading
  /-- How many blanks stand before the caret. -/
  indent : Nat
  deriving DecidableEq, Repr

namespace CapturedLog

/-! ## Lines -/

/-- A line that was ended by a line feed, without the carriage return before that; none if it holds
another one. -/
def content? (line : List Char) : Option (List Char) :=
  let content := if line.getLast? = some '\r' then line.dropLast else line
  if content.contains '\r' then none else some content

/-- Whether `c` is a space or a tab. -/
def isGap (c : Char) : Bool := c = ' ' || c = '\t'

/-! ## Blocks -/

/-- The text before the first colon, and the text behind it. -/
def cutAtColon? (text : List Char) : Option (List Char × List Char) :=
  match text.dropWhile (· ≠ ':') with
  | [] => none
  | _ :: rest => some (text.takeWhile (· ≠ ':'), rest)

/-- Reads the first line of a block: file, line number, kind and message, with colons between. -/
def heading? (text : List Char) : Option LogHeading := do
  let (file, rest) ← cutAtColon? text
  let (line, rest) ← cutAtColon? rest
  let (kind, rest) ← cutAtColon? rest
  if file.isEmpty || line.isEmpty || !line.all Unicode.isDecimalDigit then none
  else
    some
      { file
        line
        kind := ((kind.dropWhile isGap).reverse.dropWhile isGap).reverse
        message := rest.dropWhile isGap }

/-- How many blanks stand before the caret with which a line begins. -/
def indent? (line : List Char) : Option Nat :=
  if (line.dropWhile isGap).head? = some '^' then some (line.takeWhile isGap).length else none

/-- The block that three lines are. -/
def block? (first second third : List Char) : Option LogBlock := do
  let heading ← (content? first).bind heading?
  let _ ← content? second
  let indent ← indent? third
  return ⟨heading, indent⟩

/-- The blocks among the lines, from the first on; no line is part of two. -/
def blocks : List (List Char) → List LogBlock
  | first :: second :: third :: rest =>
    match block? first second third with
    | some block => block :: blocks rest
    | none => blocks (second :: third :: rest)
  | _ => []
  termination_by lines => lines.length

/-! ## Findings -/

/-- Whether `word` occurs in a text. -/
def mentions (word : List Char) : List Char → Bool
  | [] => word.isEmpty
  | c :: rest => word.isPrefixOf (c :: rest) || mentions word rest

/-- The rule for a kind of problem. -/
def classify (kind : List Char) : Rule :=
  if mentions "parser error".toList kind then .parserError
  else if mentions "validity error".toList kind then .validityError
  else .otherError

/-- The finding that a block tells, unless its line number is none or too large. -/
def diagnostic? (block : LogBlock) : Option Diagnostic :=
  let heading := block.heading
  match Numeral.readDecimal UInt32.size heading.line with
  | .error _ => none
  | .ok line =>
    let file := (Unicode.trim heading.file).map fun c => if c = '\\' then '/' else c
    some (.ofRule (classify heading.kind) (String.ofList (Unicode.trimEnd heading.message))
      ⟨String.ofList file, line.toUInt32, block.indent.toUInt32 + 1, none⟩)

/-- The findings that a captured log tells, in order. -/
def parse (text : List Char) : List Diagnostic :=
  (blocks (text.splitOn '\n')).filterMap diagnostic?

/-! ## Runs -/

/-- What a conversion comes to: every file that is named has findings. -/
def results (diagnostics : List Diagnostic) : Results :=
  let count := (diagnostics.map (·.location.file)).eraseDups.length
  { Results.empty with totalFiles := count, filesWithFindings := count, diagnostics }

/-- Converts the captured log at `path`. -/
def convert (fs : FileSystem) (path : Path) (started finished : Timestamp) :
    Except Failure Run :=
  match fs.contentOf path with
  | .error errno =>
    .error (if errno.describe.2 = .notFound then .inputNotFound path else .system (.refused errno))
  | .ok bytes =>
    .ok
      { ruleSet := .conversion
        files := []
        scriptCount := 0
        results := results (parse (Utf8.decodeLossy bytes))
        started
        finished }

end CapturedLog

end FormsAudit
