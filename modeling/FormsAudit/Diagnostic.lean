import FormsAudit.Rule

/-!
# Diagnostics

A diagnostic is one finding: the rule, the words, how grave it is and where it lies.  Each kind of
finding has a function that words it.
-/

namespace FormsAudit

/-- Where a finding lies.  Lines and columns count from one, columns in bytes. -/
structure Location where
  file : String
  line : UInt32
  startColumn : UInt32
  endColumn : Option UInt32 := none
  deriving DecidableEq, Repr

/-- One finding. -/
structure Diagnostic where
  rule : Rule
  message : String
  severity : Severity
  location : Location
  deriving DecidableEq, Repr

namespace Diagnostic

/-- A finding of the rule's own severity. -/
def ofRule (rule : Rule) (message : String) (location : Location) : Diagnostic :=
  ⟨rule, message, rule.defaultSeverity, location⟩

/-- The document is not well formed. -/
def notWellFormed (location : Location) (details : String) : Diagnostic :=
  ofRule .notWellFormed s!"XML document is not well formed: {details}" location

/-- A script attribute is absent. -/
def missingScriptAttribute (location : Location) (name : String) : Diagnostic :=
  ofRule .missingScriptAttribute s!"{location.file} does not have {name} defined." location

/-- A script attribute names no script. -/
def missingScriptFile (location : Location) (name value : String) : Diagnostic :=
  ofRule .missingScriptFile s!"{name} references a script that does not exist: {value}" location

/-- A script attribute names a script in other letters than the file has. -/
def inconsistentScriptCasing (location : Location) (name value canonical : String) :
    Diagnostic :=
  ofRule .inconsistentScriptCasing
    (s!"{name} casing '{value}' does not match target script's filename " ++ s!"'{canonical}'")
    location

/-- The file cannot be read, which is reported at its start. -/
def unreadableFile (file details : String) : Diagnostic :=
  ofRule .unreadableFile s!"Unable to read {file}: {details}" ⟨file, 1, 1, none⟩

/-- Whether the finding is an error. -/
def isError (diagnostic : Diagnostic) : Bool :=
  diagnostic.severity = .error

@[simp] theorem severity_ofRule (rule : Rule) (message : String) (location : Location) :
    (ofRule rule message location).severity = rule.defaultSeverity := rfl

@[simp] theorem location_ofRule (rule : Rule) (message : String) (location : Location) :
    (ofRule rule message location).location = location := rfl

@[simp] theorem rule_ofRule (rule : Rule) (message : String) (location : Location) :
    (ofRule rule message location).rule = rule := rfl

end Diagnostic

end FormsAudit
