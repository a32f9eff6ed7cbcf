import FormsAudit.Discovery.Walk
import FormsAudit.Json.Fault

/-!
# Failures

Why a run cannot be completed.  What is wrong with a scanned file is never a failure, but a finding.
-/

namespace FormsAudit

/-- Why a run cannot be completed. -/
inductive Failure where
  | system (error : SystemError)
  | discovery (fault : DiscoveryFault)
  | inputNotFound (path : Path)
  | configuration (reason : String)
  | report (fault : Json.Fault)
  deriving DecidableEq, Repr

namespace Failure

/-- The failure in words. -/
def message : Failure → String
  | system error => s!"IO error: {error.message}"
  | discovery fault => s!"Cannot scan {fault.root.display}: {fault.reason}"
  | inputNotFound path => s!"Input file not found: {path.display}"
  | configuration reason => s!"Configuration error: {reason}"
  | report fault => s!"Report serialization error: {fault.message}"

/-- The exit code of the program after a failure. -/
def exitCode : Nat := 2

end Failure

end FormsAudit
