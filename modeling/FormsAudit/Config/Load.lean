import FormsAudit.CommandLine.Options
import FormsAudit.Config.Basic
import FormsAudit.FileSystem.Basic
import FormsAudit.Json.Reader
import FormsAudit.Toml.Document

/-!
# Loading a configuration

The configuration of a run is made in layers: a file over what holds anyway, the environment over the
file, and the command line over all.  The file is the one that the command line names, or else the
first that is there of some names under the root and then in the user's own directory.
-/

namespace FormsAudit

/-- Why no configuration can be had. -/
inductive ConfigError where
  | system (error : SystemError)
  /-- A file is no TOML document, or not one that gives a configuration. -/
  | toml
  | json (fault : Json.Fault)
  | validation (reason : String)
  | environment (reason : String)
  | unsupportedFormat (extension : String)
  deriving DecidableEq, Repr

namespace ConfigError

/-- The error in words. -/
def message : ConfigError → String
  | system error => s!"IO error: {error.message}"
  | toml => "TOML parsing error"
  | json fault => s!"JSON parsing error: {fault.message}"
  | validation reason => s!"Configuration validation error: {reason}"
  | environment reason => s!"Environment variable error: {reason}"
  | unsupportedFormat extension =>
    s!"Unsupported configuration file format: {extension}"

/-- What may help. -/
def advice : ConfigError → String
  | system _ => "Check that the configuration file exists and is readable"
  | toml | json _ => "Check the configuration file syntax (TOML/JSON format expected)"
  | unsupportedFormat _ => "Use a .toml or .json configuration file"
  | environment _ => "Fix or unset the IG_SCAN_* environment variable"
  | validation _ => "Resolve conflicting values between file, environment, and CLI"

/-- The failure of a run that has no configuration. -/
def toFailure (error : ConfigError) : Failure := .configuration error.message

end ConfigError

/-- Variables and their values. -/
abbrev Environment := List (String × String)

namespace Config

/-! ## Files -/

/-- The configuration that a TOML document gives. -/
def ofToml? (text : String) : Option Config :=
  (Toml.parse? text).bind fun value =>
    ((shape.conform .lenient value).map ofValue).toOption

/-- The configuration that a JSON text gives. -/
def ofJson (text : String) : Except Json.Fault Config :=
  (shape.parse text).map ofValue

/-- The content of a file as text. -/
def readText (fs : FileSystem) (path : Path) : Except SystemError String :=
  match fs.contentOf path with
  | .error errno => .error (.refused errno)
  | .ok content =>
    match Utf8.decode? content with
    | none => .error .notText
    | some text => .ok (String.ofList text)

/-- The configuration in a text of the format that the extension names.  Without an extension that
is text the format is found by trying. -/
def ofText (extension : Option String) (text : String) : Except ConfigError Config :=
  match extension with
  | some "toml" =>
    match ofToml? text with
    | some config => .ok config
    | none => .error .toml
  | some "json" => (ofJson text).mapError .json
  | some extension => .error (.unsupportedFormat extension)
  | none =>
    match ofToml? text with
    | some config => .ok config
    | none => (ofJson text).mapError .json

/-- The configuration in a file. -/
def ofFile (fs : FileSystem) (path : Path) : Except ConfigError Config :=
  match readText fs path with
  | .error error => .error (.system error)
  | .ok text => ofText ((path.extension?.bind Utf8.decode?).map String.ofList) text

/-- The names under which a file is looked for, in this order. -/
def fileNames : List String :=
  ["ig-scan.toml", "ig-scan.json", ".ig-scan.toml", ".ig-scan.json"]

/-- The places in which a file is looked for, in this order. -/
def candidates (root : Path) (userDirectory : Option Path) : List Path :=
  let directories := root :: (userDirectory.map (·.join (Path.ofString "ig-scan"))).toList
  directories.flatMap fun directory => fileNames.map fun name => directory.join (.ofString name)

/-- The first of the places in which there is a file. -/
def findFile? (fs : FileSystem) (root : Path) (userDirectory : Option Path) : Option Path :=
  (candidates root userDirectory).find? fs.exists

/-- The file that the options name, or else the first one found. -/
def chosenFile? (fs : FileSystem) (userDirectory : Option Path) (options : Options) :
    Option Path :=
  match options.config with
  | some path => some (.ofString path)
  | none => findFile? fs (.ofString options.root) userDirectory

/-! ## The environment -/

/-- The variables that are looked at. -/
def variableNames : List String :=
  ["IG_SCAN_THREADS", "IG_SCAN_XML_EXTENSIONS", "IG_SCAN_SCRIPT_EXTENSIONS",
    "IG_SCAN_FOLLOW_SYMLINKS", "IG_SCAN_OUTPUT", "IG_SCAN_VERBOSE", "IG_SCAN_QUIET",
    "XDG_CONFIG_HOME", "HOME"]

/-- The truth value of a variable, if it is set. -/
def readBoolean (environment : Environment) (key : String) : Except ConfigError (Option Bool) :=
  match environment.lookup key with
  | none => .ok none
  | some "true" => .ok (some true)
  | some "false" => .ok (some false)
  | some value => .error (.environment s!"Invalid {key} value: {value}")

/-- The number in a variable, if it is set. -/
def readCount (environment : Environment) (key : String) : Except ConfigError (Option Nat) :=
  match environment.lookup key with
  | none => .ok none
  | some value =>
    match Numeral.readDecimal UInt64.size value.toList with
    | .ok count => .ok (some count)
    | .error _ => .error (.environment s!"Invalid {key} value: {value}")

/-- The configuration with what the environment says over it. -/
def withEnvironment (config : Config) (environment : Environment) : Except ConfigError Config := do
  let threads ← readCount environment "IG_SCAN_THREADS"
  let followLinks ← readBoolean environment "IG_SCAN_FOLLOW_SYMLINKS"
  let verbose ← readBoolean environment "IG_SCAN_VERBOSE"
  let quiet ← readBoolean environment "IG_SCAN_QUIET"
  .ok
    { config with
      threads := threads.or config.threads
      xmlExtensions :=
        ((environment.lookup "IG_SCAN_XML_EXTENSIONS").map splitList).getD config.xmlExtensions
      scriptExtensions :=
        ((environment.lookup "IG_SCAN_SCRIPT_EXTENSIONS").map splitList).getD
          config.scriptExtensions
      followLinks := followLinks.getD config.followLinks
      report := ((environment.lookup "IG_SCAN_OUTPUT").map Path.ofString).getD config.report
      verbose := verbose.getD config.verbose
      quiet := quiet.getD config.quiet }

/-! ## The command line -/

/-- The configuration with what the command line says over it.  The command line chooses one
loudness, which replaces any other. -/
def withOptions (config : Config) (options : Options) : Config where
  threads := options.threads.or config.threads
  xmlExtensions := (options.xmlExtensions.map splitList).getD config.xmlExtensions
  scriptExtensions := (options.scriptExtensions.map splitList).getD config.scriptExtensions
  excludePatterns :=
    if options.exclude.isEmpty then config.excludePatterns else options.exclude
  followLinks := options.followLinks || config.followLinks
  report := (options.output.map Path.ofString).getD config.report
  verbose :=
    if options.quiet then false else options.verbose || options.debug || config.verbose
  quiet :=
    if options.quiet then true
    else if options.verbose || options.debug then false
    else config.quiet

/-! ## All layers -/

/-- The configuration, unless something is wrong with it. -/
def validated (config : Config) : Except ConfigError Config :=
  match config.defect? with
  | some defect => .error (.validation defect.message)
  | none => .ok config

/-- The layer of the file. -/
def fileLayer (fs : FileSystem) (userDirectory : Option Path) (options : Options) :
    Except ConfigError Config :=
  match chosenFile? fs userDirectory options with
  | none => .ok {}
  | some path => (ofFile fs path).map (merge {})

/-- The configuration of a run. -/
def load (fs : FileSystem) (userDirectory : Option Path) (environment : Environment)
    (options : Options) : Except ConfigError Config := do
  let file ← fileLayer fs userDirectory options
  let config ← file.withEnvironment environment
  (config.withOptions options).validated

/-- The directory in which the user keeps configurations: the one that is set, if it is absolute, or
else one in the user's home. -/
def userDirectory? (environment : Environment) : Option Path :=
  let named := (environment.lookup "XDG_CONFIG_HOME").map Path.ofString
  let home := (environment.lookup "HOME").map Path.ofString
  (named.filter (·.isAbsolute)).or
    ((home.filter (!·.isEmpty)).map fun home => home.join (.ofString ".config"))

end Config

end FormsAudit
