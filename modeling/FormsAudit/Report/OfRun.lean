import FormsAudit.Failure
import FormsAudit.Report.Log
import FormsAudit.Run

/-!
# The report of a run

Every finding of the run becomes an entry of the log, in order.  A run cannot be reported if one of
its findings is of a rule that the tool does not describe.
-/

namespace FormsAudit.Report

/-- Where the format is laid down. -/
def schemaUri : String := "https://json.schemastore.org/sarif-2.1.0.json"

/-- The version of the format. -/
def formatVersion : String := "2.1.0"

/-- The version of this program. -/
def programVersion : String := "0.1.0"

/-- Where a report is written unless another place is named. -/
def defaultPath : String := "identity-governance.sarif"

def RuleEntry.ofDescriptor (descriptor : RuleDescriptor) : RuleEntry where
  id := descriptor.rule.id
  name := descriptor.name
  shortDescription := descriptor.shortDescription
  fullDescription := descriptor.fullDescription
  helpUri := descriptor.helpUri
  level := descriptor.severity

def Entry.ofDiagnostic (diagnostic : Diagnostic) : Entry where
  ruleId := diagnostic.rule.id
  level := diagnostic.severity
  message := diagnostic.message
  locations :=
    [⟨diagnostic.location.file, diagnostic.location.line, diagnostic.location.startColumn,
      diagnostic.location.endColumn⟩]

/-- The first finding of a rule that the tool does not describe. -/
def strayDiagnostic? (run : Run) : Option Diagnostic :=
  run.results.diagnostics.find? fun diagnostic =>
    (run.ruleSet.describe? diagnostic.rule).isNone

/-- The log of the run, under the given identifier. -/
def Log.ofRun (run : Run) (guid : Uuid) : Except Failure Log :=
  match strayDiagnostic? run with
  | some diagnostic =>
    .error (.configuration
      s!"rule {diagnostic.rule.id} is not registered for tool '{run.ruleSet.toolName}'")
  | none =>
    .ok
      { schema := schemaUri
        version := formatVersion
        runs :=
          [{ tool :=
              { name := run.ruleSet.toolName
                version := programVersion
                informationUri := none
                rules := run.ruleSet.registry.map RuleEntry.ofDescriptor }
             guid
             invocations := [⟨run.results.unreadableFiles = 0, run.started, run.finished⟩]
             results := run.results.diagnostics.map Entry.ofDiagnostic }] }

end FormsAudit.Report
