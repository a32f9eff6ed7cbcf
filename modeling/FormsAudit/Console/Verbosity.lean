/-!
# How much is shown
-/

namespace FormsAudit

/-- How much the program shows. -/
inductive Verbosity where
  /-- Nothing but errors. -/
  | quiet
  | normal
  | verbose
  /-- Everything there is to know. -/
  | debug
  deriving DecidableEq, Repr

namespace Verbosity

def all : List Verbosity := [quiet, normal, verbose, debug]

def name : Verbosity → String
  | quiet => "Quiet"
  | normal => "Normal"
  | verbose => "Verbose"
  | debug => "Debug"

/-- The level of the name, if there is one. -/
def ofName? (name : String) : Option Verbosity :=
  all.find? (·.name = name)

/-- Whether details are shown. -/
def isDetailed : Verbosity → Bool
  | verbose | debug => true
  | _ => false

end Verbosity

end FormsAudit
