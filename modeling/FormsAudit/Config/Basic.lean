import FormsAudit.Console.Verbosity
import FormsAudit.Discovery.Selection
import FormsAudit.Json.Conform
import FormsAudit.Report.OfRun

/-!
# Configurations

A configuration says which files are looked at, how many at a time, where the report goes and how much
is shown.  `Config.shape` is what is asked of a file that gives one; what it leaves out is as in the
configuration that holds when nothing else is said.
-/

namespace FormsAudit

/-- What a run is to do. -/
structure Config where
  xmlExtensions : List String := ["xml"]
  scriptExtensions : List String := ["bsh"]
  excludePatterns : List String := []
  followLinks : Bool := false
  /-- How many files are looked at at a time; left to the machine where nothing is said. -/
  threads : Option Nat := none
  report : Path := Path.ofString Report.defaultPath
  verbose : Bool := false
  quiet : Bool := false
  deriving DecidableEq, Repr

namespace Config

open Json (Value Shape Complaint)

/-! ## Configurations as values -/

def textsValue (texts : List String) : Value := .list (texts.map .text)

def scanValue (config : Config) : Value :=
  .record
    [("xml_extensions", textsValue config.xmlExtensions),
      ("script_extensions", textsValue config.scriptExtensions),
      ("exclude_patterns", textsValue config.excludePatterns),
      ("follow_symlinks", .boolean config.followLinks)]

def validationValue (config : Config) : Value :=
  .record
    [("threads", match config.threads with
      | none => .null
      | some count => .number (.natural count))]

def outputValue (config : Config) : Value :=
  .record
    [("report", .text config.report.display), ("verbose", .boolean config.verbose),
      ("quiet", .boolean config.quiet)]

/-- A shape with what its fields fall back on, taken from a record. -/
def withFallbacks (name : String) (fields : List (String × Shape)) (standard : Value) : Shape :=
  .record name (fields.map fun (field, shape) => (field, shape, some (standard.field field)))

def scanShape : Shape :=
  withFallbacks "ScanConfig"
    [("xml_extensions", .list .anyText), ("script_extensions", .list .anyText),
      ("exclude_patterns", .list .anyText), ("follow_symlinks", .boolean)]
    (scanValue {})

def validationShape : Shape :=
  withFallbacks "ValidationConfig" [("threads", .option (.natural "usize" UInt64.size))]
    (validationValue {})

def outputShape : Shape :=
  withFallbacks "OutputConfig" [("report", .path), ("verbose", .boolean), ("quiet", .boolean)]
    (outputValue {})

/-- What is asked of a value that gives a configuration. -/
def shape : Shape :=
  .record "Config"
    [("scan", scanShape, some (scanValue {})),
      ("validation", validationShape, some (validationValue {})),
      ("output", outputShape, some (outputValue {}))]

def textsOf (value : Value) : List String := value.items.map Value.asText

/-- The configuration that a value of the shape gives. -/
def ofValue (value : Value) : Config :=
  let scan := value.field "scan"
  let output := value.field "output"
  { xmlExtensions := textsOf (scan.field "xml_extensions")
    scriptExtensions := textsOf (scan.field "script_extensions")
    excludePatterns := textsOf (scan.field "exclude_patterns")
    followLinks := (scan.field "follow_symlinks").asBoolean
    threads := ((value.field "validation").field "threads").asOption.map Value.asNatural
    report := Path.ofString (output.field "report").asText
    verbose := (output.field "verbose").asBoolean
    quiet := (output.field "quiet").asBoolean }

/-- The configuration that a value gives, or why it gives none. -/
def read (value : Value) : Except Complaint Config :=
  (shape.conform .exact value).map ofValue

/-! ## What a configuration comes to -/

/-- The selection of the documents. -/
def documentSelection (config : Config) : Except PatternFault Selection :=
  Selection.make config.xmlExtensions config.excludePatterns config.followLinks

/-- The selection of the scripts. -/
def scriptSelection (config : Config) : Except PatternFault Selection :=
  Selection.make config.scriptExtensions config.excludePatterns config.followLinks

/-- How much is shown. -/
def verbosity (config : Config) : Verbosity :=
  if config.quiet then .quiet else if config.verbose then .verbose else .normal

/-! ## Layers -/

/-- The configuration under another one.  What the other leaves unset, or empty where that means
unset, stays; its truth values and its report always hold. -/
def merge (base upper : Config) : Config where
  xmlExtensions := if upper.xmlExtensions.isEmpty then base.xmlExtensions else upper.xmlExtensions
  scriptExtensions :=
    if upper.scriptExtensions.isEmpty then base.scriptExtensions else upper.scriptExtensions
  excludePatterns :=
    if upper.excludePatterns.isEmpty then base.excludePatterns else upper.excludePatterns
  followLinks := upper.followLinks
  threads := upper.threads.or base.threads
  report := upper.report
  verbose := upper.verbose
  quiet := upper.quiet

/-! ## Validity -/

/-- Why a configuration cannot be meant. -/
inductive Defect where
  | noThreads
  | tooManyThreads
  | verboseAndQuiet
  | noReport
  | noXmlExtensions
  | noScriptExtensions
  | badExtension (extension : String)
  deriving DecidableEq, Repr

/-- The defect in words. -/
def Defect.message : Defect → String
  | noThreads => "Number of threads must be greater than 0"
  | tooManyThreads => "Number of threads cannot exceed 1000"
  | verboseAndQuiet => "Cannot enable both verbose and quiet modes"
  | noReport => "Report path must not be empty"
  | noXmlExtensions => "At least one XML file extension must be specified"
  | noScriptExtensions => "At least one script file extension must be specified"
  | badExtension extension => s!"Invalid file extension: {extension}"

/-- Whether no file can have the extension: it holds a slash of either kind, or a dot that is not
among its leading dots. -/
def isBadExtension (extension : String) : Bool :=
  let chars := extension.toList
  chars.contains '/' || chars.contains '\\' || (chars.dropWhile (· = '.')).contains '.'

/-- What is wrong with a list of extensions. -/
def extensionDefect? (empty : Defect) (extensions : List String) : Option Defect :=
  if extensions.isEmpty then some empty
  else (extensions.find? isBadExtension).map .badExtension

/-- The first thing that is wrong with the configuration. -/
def defect? (config : Config) : Option Defect :=
  if config.threads = some 0 then some .noThreads
  else if config.threads.any (1000 < ·) then some .tooManyThreads
  else if config.verbose && config.quiet then some .verboseAndQuiet
  else if config.report.isEmpty then some .noReport
  else
    (extensionDefect? .noXmlExtensions config.xmlExtensions).or
      (extensionDefect? .noScriptExtensions config.scriptExtensions)

end Config

end FormsAudit
