import FormsAudit.Document.Audit
import FormsAudit.Failure
import FormsAudit.Run

/-!
# What comes of a file

A file is opened and audited.  One that cannot be read to the verdict has a single finding that says
so, whatever had been found before.
-/

namespace FormsAudit.Scan

/-- What comes of a file: how it fared, and its findings. -/
structure Outcome where
  result : FileResult
  diagnostics : List Diagnostic
  deriving DecidableEq, Repr

variable [WideDecoders]

/-- The findings of a file. -/
def auditFile (fs : FileSystem) (index : ScriptIndex) (file : FileReference) :
    Except SystemError (List Diagnostic) :=
  match fs.read file.path with
  | .error errno => .error (.refused errno)
  | .ok (bytes, failure) =>
    let source := Markup.Source.ofBytes bytes Markup.Source.readLimit
    Document.audit file.relative { source with failure := failure.map .refused } index

namespace Outcome

/-- The status of a file with so many findings. -/
def statusOf (count : Nat) : Status :=
  if count = 0 then .clean else .findings count

/-- What comes of a file that could not be read to the verdict: a single finding, with the details. -/
def unread (file : FileReference) (spent : Duration) (details : String) : Outcome :=
  let finding := Diagnostic.unreadableFile file.relative details
  ⟨⟨file.relative, .unreadable finding.message, spent⟩, [finding]⟩

/-- What comes of a file that was audited, or could not be. -/
def ofAudit (file : FileReference) (spent : Duration) :
    Except SystemError (List Diagnostic) → Outcome
  | .ok diagnostics => ⟨⟨file.relative, statusOf diagnostics.length, spent⟩, diagnostics⟩
  | .error error => unread file spent (Failure.system error).message

/-- What comes of a file, audited in the given time. -/
def ofFile (fs : FileSystem) (index : ScriptIndex) (spent : FileReference → Duration)
    (file : FileReference) : Outcome :=
  ofAudit file (spent file) (auditFile fs index file)

/-- What comes of a file whose audit, or the task of it, broke down in the given way. -/
def broken (file : FileReference) (spent : Duration) (words : String) : Outcome :=
  unread file spent s!"validation task failed: {words}"

/-- What comes of a file that is not audited, for the given reason. -/
def unaudited (reason : String) (file : FileReference) : Outcome :=
  ⟨⟨file.relative, .skipped reason, .zero⟩, []⟩

/-- What comes of a file whose turn comes after the run is cancelled. -/
def skipped : FileReference → Outcome :=
  unaudited "run cancelled"

/-- What comes of a file whose task is turned away. -/
def turnedAway : FileReference → Outcome :=
  unaudited "validation pool closed"

end Outcome

end FormsAudit.Scan
