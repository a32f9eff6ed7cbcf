import FormsAudit.Config.Load
import FormsAudit.Console.Verbosity
import FormsAudit.Decimal.Binary
import FormsAudit.Failure

/-!
# What is shown when things go wrong

The words for a failure or for an error of the configuration, with as much around them as is asked
for: advice, the parts of the error, and its causes.
-/

namespace FormsAudit.Console

/-! ## The parts of an error -/

/-- The parts of a system error. -/
def systemParts : SystemError → String
  | .refused errno =>
    let (words, kind) := errno.describe
    "Os \x7b " ++ s!"code: {errno.number}, kind: {kind.name}, message: {Quoted.text words}" ++
      " \x7d"
  | .raised kind text =>
    "Custom \x7b " ++ s!"kind: {kind.name}, error: {Quoted.text text}" ++ " \x7d"
  | .notText =>
    "Error \x7b " ++
      s!"kind: {ErrorKind.invalidData.name}, message: {Quoted.text SystemError.notText.message}" ++
      " \x7d"

/-- The parts of a fault of a JSON text. -/
def jsonParts (fault : Json.Fault) : String :=
  s!"Error({Quoted.text fault.problem.message}, line: {fault.line}, column: {fault.column})"

/-- The parts of a failure. -/
def failureParts : Failure → String
  | .system error => s!"Io({systemParts error})"
  | .discovery fault =>
    "Discovery \x7b " ++
      s!"path: {Quoted.bytes fault.root.bytes}, reason: {Quoted.text fault.reason}" ++ " \x7d"
  | .inputNotFound path => "InputNotFound \x7b " ++ s!"path: {Quoted.bytes path.bytes}" ++ " \x7d"
  | .configuration reason => s!"Configuration({Quoted.text reason})"
  | .report fault => s!"Report({jsonParts fault})"

/-- The parts of an error of the configuration. -/
def configParts : ConfigError → String
  | .system error => s!"Io({systemParts error})"
  | .toml => "TomlParsing"
  | .json fault => s!"JsonParsing({jsonParts fault})"
  | .validation reason => s!"Validation({Quoted.text reason})"
  | .environment reason => s!"Environment({Quoted.text reason})"
  | .unsupportedFormat extension => s!"UnsupportedFormat({Quoted.text extension})"

/-! ## Failures -/

/-- What may help against a failure. -/
def failureAdvice : Failure → Option String
  | .discovery fault =>
    some s!"Check that {fault.root.display} is a readable directory or pass --root"
  | .inputNotFound path =>
    some ("Capture xmllint output first, e.g. xmllint --noout *.xml 2> " ++ path.display)
  | .report _ | .system _ => some "Check that the report location is writable"
  | .configuration _ => none

/-- What lies behind a failure. -/
def failureCauses : Failure → List String
  | .system error => [error.message]
  | .report fault => [fault.message]
  | _ => []

/-- The words for a failure, line by line. -/
def failureLines (verbosity : Verbosity) (failure : Failure) : List String :=
  match verbosity with
  | .quiet => [s!"ERROR: {failure.message}"]
  | .normal => [failure.message]
  | .verbose | .debug =>
    let detailed :=
      failure.message :: ((failureAdvice failure).map ("Suggestion: " ++ ·)).toList
    if verbosity = .debug then
      detailed ++
        (s!"Debug Info: {failureParts failure}" :: "Error Chain:" ::
          (failureCauses failure).mapIdx fun index cause => s!"  {index + 1}: {cause}")
    else detailed

/-- The words for a failure. -/
def failureText (verbosity : Verbosity) (failure : Failure) : String :=
  "\n".intercalate (failureLines verbosity failure)

/-! ## Errors of the configuration -/

/-- The words for an error of the configuration, line by line. -/
def configErrorLines (verbosity : Verbosity) (error : ConfigError) : List String :=
  match verbosity with
  | .quiet => [s!"Config error: {error.message}"]
  | .normal | .verbose => [s!"Configuration Error: {error.message}", error.advice]
  | .debug =>
    [s!"Configuration Error: {error.message}", s!"Debug: {configParts error}", error.advice]

/-- The words for an error of the configuration. -/
def configErrorText (verbosity : Verbosity) (error : ConfigError) : String :=
  "\n".intercalate (configErrorLines verbosity error)

/-! ## Progress -/

/-- How many of a hundred parts are done, rounded down. -/
def percentage (current total : Nat) : Nat :=
  let share := (Binary.div (.ofNat current) (.ofNat total)).mul (.ofNat 100)
  min share.floor (UInt32.size - 1)

/-- The line that tells how far a run has come; it replaces the one before. -/
def progressText (verbosity : Verbosity) (current total : Nat) (file : Option String) : String :=
  if verbosity = .quiet ∨ total = 0 then ""
  else
    let count := s!"\rProgress: {current}/{total} ({percentage current total}%)"
    let name :=
      match file with
      | some file => if verbosity.isDetailed then s!" - Validated: {file}" else ""
      | none => ""
    count ++ name ++ if current = total then "\n" else ""

end FormsAudit.Console
