/-!
# Rules

A finding names the rule it breaks.  Two tools report findings, the scan of a project and the
conversion of a captured log; each has its own set of rules, and describes every rule of its set.
-/

namespace FormsAudit

/-- How grave a finding is. -/
inductive Severity where
  | note
  | warning
  | error
  deriving DecidableEq, Repr

namespace Severity

/-- The level written in a report. -/
def level : Severity → String
  | note => "note"
  | warning => "warning"
  | error => "error"

def all : List Severity := [note, warning, error]

/-- The severity written as a level, if it is one. -/
def ofLevel? (text : String) : Option Severity :=
  all.find? (·.level = text)

end Severity

/-- What a finding is about. -/
inductive Rule where
  | notWellFormed
  | missingScriptAttribute
  | missingScriptFile
  | inconsistentScriptCasing
  | unreadableFile
  | parserError
  | validityError
  | otherError
  deriving DecidableEq, Repr

namespace Rule

/-- The identifier of the rule in reports. -/
def id : Rule → String
  | notWellFormed => "XML-NOT-WELL-FORMED"
  | missingScriptAttribute => "MISSING-SCRIPT-ATTRIBUTE"
  | missingScriptFile => "MISSING-SCRIPT-FILE"
  | inconsistentScriptCasing => "INCONSISTENT-SCRIPT-CASING"
  | unreadableFile => "IO-ERROR"
  | parserError => "XMLLINT-PARSER-ERROR"
  | validityError => "XMLLINT-VALIDITY-ERROR"
  | otherError => "XMLLINT-ERROR"

def all : List Rule :=
  [notWellFormed, missingScriptAttribute, missingScriptFile, inconsistentScriptCasing,
    unreadableFile, parserError, validityError, otherError]

/-- The rule with the identifier, if there is one. -/
def ofId? (text : String) : Option Rule :=
  all.find? (·.id = text)

/-- The severity of a finding of the rule, unless another is given. -/
def defaultSeverity : Rule → Severity
  | otherError => .warning
  | _ => .error

end Rule

/-- What a report says about a rule. -/
structure RuleDescriptor where
  rule : Rule
  name : String
  shortDescription : String
  fullDescription : String
  helpUri : Option String
  severity : Severity
  deriving DecidableEq, Repr

/-- The manual of the tool whose logs are converted. -/
def lintManual : String :=
  "https://gnome.pages.gitlab.gnome.org/libxml2/xmllint.html"

/-- What a report says about the rule. -/
def Rule.descriptor (rule : Rule) : RuleDescriptor :=
  let describe (name short full : String) (help : Option String) : RuleDescriptor :=
    ⟨rule, name, short, full, help, rule.defaultSeverity⟩
  match rule with
  | notWellFormed =>
    describe "InvalidXml" "Invalid XML" "XML document is not well formed or valid"
      (some "https://www.w3.org/TR/xml/#sec-well-formed")
  | missingScriptAttribute =>
    describe "MissingScriptAttribute" "Application script attribute missing"
      ("Every Application element must define preScript, postScript and " ++
        "provisioningScript")
      none
  | missingScriptFile =>
    describe "MissingScriptFile" "Referenced script does not exist"
      ("An Application script attribute names a script file that is not present in " ++
        "the project")
      none
  | inconsistentScriptCasing =>
    describe "InconsistentScriptCasing" "Script reference casing differs from file name"
      ("An Application script attribute matches a script file only when case is " ++
        "ignored; file systems that are case-sensitive will not find it")
      none
  | unreadableFile =>
    describe "UnreadableFile" "File could not be read"
      "The file was discovered but could not be read during validation"
      none
  | parserError =>
    describe "ParserError" "xmllint parser error"
      "xmllint reported that the document is not well formed"
      (some lintManual)
  | validityError =>
    describe "ValidityError" "xmllint validity error"
      "xmllint reported that the document does not conform to its DTD"
      (some lintManual)
  | otherError =>
    describe "GenericError" "xmllint error"
      "xmllint reported an error that is neither a parser nor a validity error"
      (some lintManual)

/-- Which tool reports. -/
inductive RuleSet where
  | scan
  | conversion
  deriving DecidableEq, Repr

namespace RuleSet

/-- The name of the tool in reports. -/
def toolName : RuleSet → String
  | scan => "Xml Validation"
  | conversion => "xmllint"

/-- The rules whose findings the tool can report. -/
def emitted : RuleSet → List Rule
  | scan =>
    [.notWellFormed, .missingScriptAttribute, .missingScriptFile, .inconsistentScriptCasing,
      .unreadableFile]
  | conversion => [.parserError, .validityError, .otherError]

/-- The descriptions of the tool's rules. -/
def registry (set : RuleSet) : List RuleDescriptor :=
  (Rule.all.filter (set.emitted.contains ·)).map Rule.descriptor

/-- The description of a rule, if the tool has it. -/
def describe? (set : RuleSet) (rule : Rule) : Option RuleDescriptor :=
  set.registry.find? (·.rule = rule)

end RuleSet

end FormsAudit
