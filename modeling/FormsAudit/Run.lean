import FormsAudit.Diagnostic
import FormsAudit.FileReference
import FormsAudit.Timestamp

/-!
# Runs

What a scan or a conversion comes to: how each file fared, and every finding in the order of the
files.  Results grow by one file at a time, and the counts follow the statuses.
-/

namespace FormsAudit

/-- A span of time. -/
structure Duration where
  seconds : Nat
  nanoseconds : Nat
  deriving DecidableEq, Repr

namespace Duration

def zero : Duration := ⟨0, 0⟩

/-- The whole span in nanoseconds. -/
def total (duration : Duration) : Nat :=
  duration.seconds * Timestamp.billion + duration.nanoseconds

/-- The span of so many nanoseconds. -/
def ofTotal (nanoseconds : Nat) : Duration :=
  ⟨nanoseconds / Timestamp.billion, nanoseconds % Timestamp.billion⟩

def add (a b : Duration) : Duration := ofTotal (a.total + b.total)

/-- The leap second that lies between two points in time, as far as their times of day tell: one
that has begun at the earlier time of day is still to be counted. -/
def leapBetween (start finish : Timestamp) : Int :=
  let first := start.seconds.emod 86400
  let second := finish.seconds.emod 86400
  if first < second ∧ Timestamp.billion ≤ start.nanoseconds then 1
  else if second < first ∧ Timestamp.billion ≤ finish.nanoseconds then -1
  else 0

/-- The span between two points in time; zero where the second comes first. -/
def between (start finish : Timestamp) : Duration :=
  let seconds := finish.seconds - start.seconds + leapBetween start finish
  ofTotal (seconds * Timestamp.billion + finish.nanoseconds - start.nanoseconds).toNat

end Duration

/-- How a file fared. -/
inductive Status where
  /-- It was read to the end without findings. -/
  | clean
  | findings (count : Nat)
  /-- It could not be read, which is one finding. -/
  | unreadable (message : String)
  /-- It was not looked at. -/
  | skipped (reason : String)
  deriving DecidableEq, Repr

/-- How a file fared, and how long that took. -/
structure FileResult where
  file : String
  status : Status
  duration : Duration
  deriving DecidableEq, Repr

/-- How all files fared. -/
structure Results where
  totalFiles : Nat
  cleanFiles : Nat
  filesWithFindings : Nat
  unreadableFiles : Nat
  skippedFiles : Nat
  duration : Duration
  fileResults : List FileResult
  diagnostics : List Diagnostic
  deriving DecidableEq, Repr

namespace Results

def empty : Results := ⟨0, 0, 0, 0, 0, .zero, [], []⟩

/-- The results with those of another file behind them. -/
def add (results : Results) (result : FileResult) (diagnostics : List Diagnostic) : Results :=
  let counted :=
    match result.status with
    | .clean => { results with cleanFiles := results.cleanFiles + 1 }
    | .findings _ => { results with filesWithFindings := results.filesWithFindings + 1 }
    | .unreadable _ => { results with unreadableFiles := results.unreadableFiles + 1 }
    | .skipped _ => { results with skippedFiles := results.skippedFiles + 1 }
  { counted with
    totalFiles := results.totalFiles + 1
    duration := results.duration.add result.duration
    fileResults := results.fileResults ++ [result]
    diagnostics := results.diagnostics ++ diagnostics }

/-- The number of findings that are errors. -/
def errorCount (results : Results) : Nat :=
  results.diagnostics.countP (·.isError)

/-- Whether a finding is an error. -/
def hasErrors (results : Results) : Bool :=
  results.diagnostics.any (·.isError)

@[simp] theorem diagnostics_add (results : Results) (result : FileResult)
    (diagnostics : List Diagnostic) :
    (results.add result diagnostics).diagnostics = results.diagnostics ++ diagnostics := rfl

@[simp] theorem fileResults_add (results : Results) (result : FileResult)
    (diagnostics : List Diagnostic) :
    (results.add result diagnostics).fileResults = results.fileResults ++ [result] := rfl

end Results

/-- A run that was completed. -/
structure Run where
  ruleSet : RuleSet
  files : List FileReference
  scriptCount : Nat
  results : Results
  started : Timestamp
  finished : Timestamp
  deriving DecidableEq, Repr

/-- The exit code of the program after the run: one if there is an error, else zero. -/
def Run.exitCode (run : Run) : Nat :=
  if run.results.hasErrors then 1 else 0

end FormsAudit
