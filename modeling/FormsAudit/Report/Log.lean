import FormsAudit.Json.Reader
import FormsAudit.Json.Render
import FormsAudit.Timestamp
import FormsAudit.Report.Uuid
import FormsAudit.Rule

/-!
# The report

The report is a log in the SARIF format, version 2.1.0: what was run, by which rules, when, and what
was found.  `Log.toValue` says how a log is laid out as JSON, `Log.shape` what is asked of a text that
is read as a log, and `Log.ofValue` takes a value of that shape apart again.
-/

namespace FormsAudit.Report

/-- What the log says about a rule. -/
structure RuleEntry where
  id : String
  name : String
  shortDescription : String
  fullDescription : String
  helpUri : Option String
  level : Severity
  deriving DecidableEq, Repr

/-- The tool that was run. -/
structure Tool where
  name : String
  version : String
  informationUri : Option String
  rules : List RuleEntry
  deriving DecidableEq, Repr

/-- When the tool was run, and whether it could read all it was given. -/
structure Invocation where
  successful : Bool
  started : Timestamp
  finished : Timestamp
  deriving DecidableEq, Repr

/-- A place in a file. -/
structure Region where
  uri : String
  startLine : UInt32
  startColumn : UInt32
  endColumn : Option UInt32
  deriving DecidableEq, Repr

/-- What was found. -/
structure Entry where
  ruleId : String
  level : Severity
  message : String
  locations : List Region
  deriving DecidableEq, Repr

/-- One run of a tool. -/
structure LoggedRun where
  tool : Tool
  guid : Uuid
  invocations : List Invocation
  results : List Entry
  deriving DecidableEq, Repr

/-- A log. -/
structure Log where
  schema : String
  version : String
  runs : List LoggedRun
  deriving DecidableEq, Repr

open Json

/-! ## Writing -/

/-- The field, if there is a value for it. -/
def optionalField {α : Type} (name : String) (write : α → Value) :
    Option α → List (String × Value)
  | none => []
  | some value => [(name, write value)]

/-- A text as the only field of a record. -/
def messageValue (text : String) : Value :=
  .record [("text", .text text)]

def natural (n : UInt32) : Value := .number (.natural n.toNat)

def RuleEntry.toValue (rule : RuleEntry) : Value :=
  .record
    ([("id", .text rule.id), ("name", .text rule.name),
        ("shortDescription", messageValue rule.shortDescription),
        ("fullDescription", messageValue rule.fullDescription)] ++
      (optionalField "helpUri" .text rule.helpUri ++
        [("defaultConfiguration", .record [("level", .text rule.level.level)])]))

def Tool.toValue (tool : Tool) : Value :=
  .record
    [("driver",
      .record
        ([("name", .text tool.name), ("version", .text tool.version)] ++
          (optionalField "informationUri" .text tool.informationUri ++
            [("rules", .list (tool.rules.map RuleEntry.toValue))])))]

def Invocation.toValue (invocation : Invocation) : Value :=
  .record
    [("executionSuccessful", .boolean invocation.successful),
      ("startTimeUtc", .text invocation.started.toText),
      ("endTimeUtc", .text invocation.finished.toText)]

def Region.toValue (region : Region) : Value :=
  .record
    [("physicalLocation",
      .record
        [("artifactLocation", .record [("uri", .text region.uri)]),
          ("region",
            .record
              ([("startLine", natural region.startLine),
                  ("startColumn", natural region.startColumn)] ++
                optionalField "endColumn" natural region.endColumn))])]

def Entry.toValue (entry : Entry) : Value :=
  .record
    [("ruleId", .text entry.ruleId), ("level", .text entry.level.level),
      ("message", messageValue entry.message),
      ("locations", .list (entry.locations.map Region.toValue))]

def LoggedRun.toValue (run : LoggedRun) : Value :=
  .record
    [("tool", run.tool.toValue),
      ("automationDetails", .record [("guid", .text run.guid.toText)]),
      ("invocations", .list (run.invocations.map Invocation.toValue)),
      ("results", .list (run.results.map Entry.toValue))]

/-- The log as a JSON value. -/
def Log.toValue (log : Log) : Value :=
  .record
    [("$schema", .text log.schema), ("version", .text log.version),
      ("runs", .list (log.runs.map LoggedRun.toValue))]

/-- The text of the log. -/
def Log.toText (log : Log) : String :=
  log.toValue.render

/-! ## Reading -/

/-- The shape of a record all of whose fields are needed. -/
def needed (name : String) (fields : List (String × Shape)) : Shape :=
  .record name (fields.map fun (field, shape) => (field, shape, none))

def levelShape : Shape := .choice (Severity.all.map Severity.level)

def wordShape : Shape := .natural "u32" UInt32.size

/-- The text of an identifier. -/
def uuidShape : Shape :=
  .text "a formatted UUID string" fun s =>
    match Uuid.parse s with
    | .ok _ => none
    | .error fault => some s!"UUID parsing failed: {fault.message}"

/-- The text of a point in time. -/
def timeShape : Shape :=
  .text "an RFC 3339 formatted date and time string" fun s =>
    match Timestamp.parse s with
    | .ok _ => none
    | .error fault => some fault.message

def messageShape : Shape := needed "Message" [("text", .anyText)]

def ruleShape : Shape :=
  .record "ReportingDescriptor"
    [("id", .anyText, none), ("name", .anyText, none),
      ("shortDescription", messageShape, none), ("fullDescription", messageShape, none),
      ("helpUri", .option .anyText, some .null),
      ("defaultConfiguration", needed "ReportingConfiguration" [("level", levelShape)], none)]

def toolShape : Shape :=
  needed "Tool"
    [("driver",
      .record "ToolDriver"
        [("name", .anyText, none), ("version", .anyText, none),
          ("informationUri", .option .anyText, some .null), ("rules", .list ruleShape, none)])]

def invocationShape : Shape :=
  needed "Invocation"
    [("executionSuccessful", .boolean), ("startTimeUtc", timeShape), ("endTimeUtc", timeShape)]

def regionShape : Shape :=
  needed "SarifLocation"
    [("physicalLocation",
      needed "PhysicalLocation"
        [("artifactLocation", needed "ArtifactLocation" [("uri", .anyText)]),
          ("region",
            .record "Region"
              [("startLine", wordShape, none), ("startColumn", wordShape, none),
                ("endColumn", .option wordShape, some .null)])])]

def entryShape : Shape :=
  needed "SarifResult"
    [("ruleId", .anyText), ("level", levelShape), ("message", messageShape),
      ("locations", .list regionShape)]

def runShape : Shape :=
  needed "SarifRun"
    [("tool", toolShape),
      ("automationDetails", needed "AutomationDetails" [("guid", uuidShape)]),
      ("invocations", .list invocationShape), ("results", .list entryShape)]

/-- What is asked of a value that is read as a log. -/
def Log.shape : Shape :=
  needed "SarifLog"
    [("$schema", .anyText), ("version", .anyText), ("runs", .list runShape)]

/-- The identifier whose bytes are all zero. -/
def nilUuid : Uuid := ⟨List.replicate 16 0, rfl⟩

def uuidOf (value : Value) : Uuid :=
  (Uuid.parse value.asText).toOption.getD nilUuid

def timeOf (value : Value) : Timestamp :=
  (Timestamp.parse value.asText).toOption.getD ⟨0, 0⟩

def levelOf (value : Value) : Severity :=
  (Severity.ofLevel? value.asText).getD .error

def wordOf (value : Value) : UInt32 :=
  value.asNatural.toUInt32

def RuleEntry.ofValue (value : Value) : RuleEntry where
  id := (value.field "id").asText
  name := (value.field "name").asText
  shortDescription := ((value.field "shortDescription").field "text").asText
  fullDescription := ((value.field "fullDescription").field "text").asText
  helpUri := (value.field "helpUri").asOption.map Value.asText
  level := levelOf ((value.field "defaultConfiguration").field "level")

def Tool.ofValue (value : Value) : Tool :=
  let driver := value.field "driver"
  { name := (driver.field "name").asText
    version := (driver.field "version").asText
    informationUri := (driver.field "informationUri").asOption.map Value.asText
    rules := (driver.field "rules").items.map RuleEntry.ofValue }

def Invocation.ofValue (value : Value) : Invocation where
  successful := (value.field "executionSuccessful").asBoolean
  started := timeOf (value.field "startTimeUtc")
  finished := timeOf (value.field "endTimeUtc")

def Region.ofValue (value : Value) : Region :=
  let physical := value.field "physicalLocation"
  let region := physical.field "region"
  { uri := ((physical.field "artifactLocation").field "uri").asText
    startLine := wordOf (region.field "startLine")
    startColumn := wordOf (region.field "startColumn")
    endColumn := (region.field "endColumn").asOption.map wordOf }

def Entry.ofValue (value : Value) : Entry where
  ruleId := (value.field "ruleId").asText
  level := levelOf (value.field "level")
  message := ((value.field "message").field "text").asText
  locations := (value.field "locations").items.map Region.ofValue

def LoggedRun.ofValue (value : Value) : LoggedRun where
  tool := Tool.ofValue (value.field "tool")
  guid := uuidOf ((value.field "automationDetails").field "guid")
  invocations := (value.field "invocations").items.map Invocation.ofValue
  results := (value.field "results").items.map Entry.ofValue

/-- The log that a value of the shape stands for. -/
def Log.ofValue (value : Value) : Log where
  schema := (value.field "$schema").asText
  version := (value.field "version").asText
  runs := (value.field "runs").items.map LoggedRun.ofValue

/-- Reads a text as a log. -/
def Log.parse (text : String) : Except Fault Log :=
  (Log.shape.parse text).map Log.ofValue

end FormsAudit.Report
