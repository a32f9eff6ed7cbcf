import FormsAudit.Console.Verbosity
import FormsAudit.Decimal.Binary
import FormsAudit.Run

/-!
# The summary of a run

What a person sees of a run: a line for every finding, and then the counts.
-/

namespace FormsAudit.Console

/-- How a text is painted on a terminal. -/
inductive Colour where
  | red
  | green
  | yellow
  | cyan
  deriving DecidableEq, Repr

/-- The number of the colour in the terminal's language. -/
def Colour.code : Colour → String
  | red => "31"
  | green => "32"
  | yellow => "33"
  | cyan => "36"

/-- How a summary is written. -/
structure Style where
  verbosity : Verbosity
  colours : Bool
  deriving DecidableEq, Repr

/-- The style without colours. -/
def Style.plain (verbosity : Verbosity) : Style := ⟨verbosity, false⟩

namespace Style

/-- The text, painted if colours are shown. -/
def paint (style : Style) (colour : Colour) (text : String) : String :=
  if style.colours then s!"\x1b[{colour.code}m{text}\x1b[0m" else text

/-- The level of a finding. -/
def level (style : Style) : Severity → String
  | .error => style.paint .red "error"
  | .warning => style.paint .yellow "warning"
  | .note => style.paint .cyan "note"

/-- A finding: where it lies, how grave it is, its rule and its message. -/
def diagnostic (style : Style) (diagnostic : Diagnostic) : String :=
  let location := diagnostic.location
  s!"{location.file}:{location.line}:{location.startColumn}: " ++
    s!"{style.level diagnostic.severity} [{diagnostic.rule.id}] {diagnostic.message}"

end Style

/-- A span of time: milliseconds below a second, then seconds, then minutes and seconds. -/
def duration (duration : Duration) : String :=
  let total := Binary.add (.ofNat duration.seconds)
    (.div (.ofNat duration.nanoseconds) (.ofNat Timestamp.billion))
  if total.floor < 1 then s!"{duration.total / 1000000}ms"
  else if total.floor < 60 then s!"{total.toFixed 2}s"
  else s!"{(total.div (.ofNat 60)).floor}m{(total.mod 60).toFixed 1}s"

namespace Style

/-- How a file fared. -/
def fileResult (style : Style) (result : FileResult) : String :=
  let time := duration result.duration
  match result.status with
  | .clean => style.paint .green "✓ CLEAN" ++ s!"  {result.file} ({time})"
  | .findings count =>
    style.paint .red "✗ FINDINGS" ++ s!"  {result.file} ({time}) - {count} finding" ++
      if count = 1 then "" else "s"
  | .unreadable message =>
    style.paint .yellow "⚠ IO ERROR" ++ s!"  {result.file} ({time}) - {message}"
  | .skipped reason => style.paint .cyan "- SKIPPED" ++ s!"  {result.file} - {reason}"

/-- A count and what it counts, unless it is zero. -/
def count (style : Style) (colour : Colour) (label : String) (n : Nat) : List String :=
  if n = 0 then [] else [s!"  {style.paint colour label} {n}"]

/-- The counts of a run, line by line. -/
def summary (style : Style) (run : Run) (report : Path) : List String :=
  let results := run.results
  [s!"{run.ruleSet.toolName}:", s!"  Files: {results.totalFiles}"] ++
    style.count .green "Clean:" results.cleanFiles ++
    style.count .red "With findings:" results.filesWithFindings ++
    style.count .yellow "Unreadable:" results.unreadableFiles ++
    style.count .cyan "Skipped:" results.skippedFiles ++
    [s!"  Diagnostics: {results.diagnostics.length}"] ++
    (if style.verbosity.isDetailed then
      [s!"  Scripts indexed: {run.scriptCount}",
        s!"  Duration: {duration (.between run.started run.finished)}"]
    else []) ++
    (if style.verbosity = .debug then
      [s!"  Validation time (sum over files): {duration results.duration}"]
    else []) ++
    [s!"  Report: {report.display}"]

/-- The run, line by line. -/
def lines (style : Style) (run : Run) (report : Path) : List String :=
  if style.verbosity = .quiet then
    if run.results.hasErrors then
      [s!"Errors: {run.results.errorCount} Report: {report.display}"]
    else []
  else
    run.results.diagnostics.map style.diagnostic ++
      (if run.results.diagnostics.isEmpty then [] else [""]) ++
      (if style.verbosity.isDetailed then
        (run.results.fileResults.filter (·.status ≠ .clean)).map style.fileResult
      else []) ++
      style.summary run report

/-- The run as it is shown. -/
def run (style : Style) (run : Run) (report : Path) : String :=
  String.join ((style.lines run report).map (· ++ "\n"))

end Style

end FormsAudit.Console
