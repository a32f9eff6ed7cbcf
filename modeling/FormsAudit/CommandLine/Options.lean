import FormsAudit.Console.Verbosity
import FormsAudit.Text.Lists
import FormsAudit.Text.Numeral

/-!
# The command line

An argument that begins with hyphens names an option, by a word or by single letters that may be
joined; any other is the value of the option before it, if that waits for one, or the one argument
without a name.  After two hyphens all arguments are of the last kind.  Values are looked at late,
when the next known argument begins, so that an unknown argument is told first.
-/

namespace FormsAudit

/-- What the command line asks for. -/
structure Options where
  errorLog : Option String := none
  root : String := "."
  output : Option String := none
  config : Option String := none
  threads : Option Nat := none
  xmlExtensions : Option String := none
  scriptExtensions : Option String := none
  exclude : List String := []
  followLinks : Bool := false
  verbose : Bool := false
  quiet : Bool := false
  debug : Bool := false
  deriving DecidableEq, Repr

namespace Options

/-- The first threads option that cannot be meant. -/
def invalid? (options : Options) : Option String :=
  if options.threads = some 0 then some "Number of threads must be greater than 0" else none

/-- How much is to be shown. -/
def verbosity (options : Options) : Verbosity :=
  if options.quiet then .quiet
  else if options.debug then .debug
  else if options.verbose then .verbose
  else .normal

end Options

namespace CommandLine

/-- The name of an argument. -/
inductive Name where
  | errorLog
  | root
  | output
  | config
  | threads
  | xmlExtensions
  | scriptExtensions
  | exclude
  | followLinks
  | verbose
  | quiet
  | debug
  | help
  | version
  deriving DecidableEq, Repr

namespace Name

/-- Whether the argument has a value. -/
def takesValue : Name → Bool
  | followLinks | verbose | quiet | debug | help | version => false
  | _ => true

/-- Whether the argument may be given more than once. -/
def isRepeatable : Name → Bool
  | exclude => true
  | _ => false

/-- The word that names an option. -/
def word? : Name → Option String
  | errorLog => none
  | root => some "root"
  | output => some "output"
  | config => some "config"
  | threads => some "threads"
  | xmlExtensions => some "xml-extensions"
  | scriptExtensions => some "script-extensions"
  | exclude => some "exclude"
  | followLinks => some "follow-symlinks"
  | verbose => some "verbose"
  | quiet => some "quiet"
  | debug => some "debug"
  | help => some "help"
  | version => some "version"

/-- The letter that names an option. -/
def letter? : Name → Option Char
  | root => some 'r'
  | output => some 'o'
  | config => some 'c'
  | threads => some 't'
  | verbose => some 'v'
  | quiet => some 'q'
  | help => some 'h'
  | version => some 'V'
  | _ => none

def all : List Name :=
  [errorLog, root, output, config, threads, xmlExtensions, scriptExtensions, exclude, followLinks,
    verbose, quiet, debug, help, version]

def ofWord? (word : String) : Option Name :=
  all.find? (·.word? = some word)

def ofLetter? (letter : Char) : Option Name :=
  all.find? (·.letter? = some letter)

end Name

/-- Why the command line is not carried out. -/
inductive Stop where
  /-- It asks for help. -/
  | help
  /-- It asks for the version. -/
  | version
  | unknownArgument
  /-- A value is missing or empty. -/
  | missingValue
  /-- A value is not of the right form. -/
  | malformedValue
  /-- Arguments exclude each other, or one is given twice. -/
  | conflict
  /-- A value is given to an option that has none. -/
  | surplusValue
  deriving DecidableEq, Repr

/-- The reason for stopping, in words. -/
def Stop.reason : Stop → String
  | help => "help was asked for"
  | version => "the version was asked for"
  | unknownArgument => "unexpected argument found"
  | missingValue => "a value is required for an argument but none was supplied"
  | malformedValue => "invalid value for an argument"
  | conflict => "an argument cannot be used again or with another one"
  | surplusValue => "unexpected value for an argument that takes none"

/-- An argument whose value has not been looked at; the value may be still to come. -/
structure Pending where
  name : Name
  value : Option String
  deriving DecidableEq, Repr

/-- What has been read of a command line. -/
structure State where
  options : Options
  given : List Name
  pending : Option Pending
  /-- Whether two hyphens have been read. -/
  trailing : Bool
  deriving DecidableEq, Repr

def State.initial : State := ⟨{}, [], none, false⟩

/-- A value that may not be empty. -/
def nonEmpty (value : String) : Except Stop String :=
  if value.isEmpty then .error .missingValue else .ok value

/-- The options with one set. -/
def setOption (options : Options) (name : Name) (value : String) : Except Stop Options :=
  match name with
  | .errorLog => (nonEmpty value).map fun path => { options with errorLog := some path }
  | .root => (nonEmpty value).map fun path => { options with root := path }
  | .output => (nonEmpty value).map fun path => { options with output := some path }
  | .config => (nonEmpty value).map fun path => { options with config := some path }
  | .threads =>
    match Numeral.readDecimal UInt64.size value.toList with
    | .ok count => .ok { options with threads := some count }
    | .error _ => .error .malformedValue
  | .xmlExtensions => .ok { options with xmlExtensions := some value }
  | .scriptExtensions => .ok { options with scriptExtensions := some value }
  | .exclude => .ok { options with exclude := options.exclude ++ [value] }
  | .followLinks => .ok { options with followLinks := true }
  | .verbose => .ok { options with verbose := true }
  | .quiet => .ok { options with quiet := true }
  | .debug => .ok { options with debug := true }
  | .help => .error .help
  | .version => .error .version

namespace State

/-- Takes an argument with its value, if it has one. -/
def take (state : State) (name : Name) (value : Option String) : Except Stop State :=
  if name.takesValue && value.isNone then .error .missingValue
  else if state.given.contains name && !name.isRepeatable then .error .conflict
  else
    (setOption state.options name (value.getD "")).map fun options =>
      { state with options, given := name :: state.given }

/-- Looks at the argument that waits. -/
def settle (state : State) : Except Stop State :=
  match state.pending with
  | none => .ok state
  | some pending => { state with pending := none }.take pending.name pending.value

/-- Takes an argument, once the one before it is settled. -/
def takeNext (state : State) (name : Name) (value : Option String) : Except Stop State :=
  state.settle.bind fun state => state.take name value

/-- Lets an argument wait, once the one before it is settled. -/
def await (state : State) (name : Name) (value : Option String) : Except Stop State :=
  state.settle.map fun state => { state with pending := some ⟨name, value⟩ }

/-- An argument without a name, of which there is only one. -/
def positional (state : State) (value : String) : Except Stop State :=
  let isKnown := state.given.contains .errorLog ||
    state.pending.any fun pending => pending.name = .errorLog
  if isKnown then .error .unknownArgument else state.await .errorLog (some value)

/-- An option named by a word, with the value behind its equals sign. -/
def long (state : State) (word : String) (value : Option String) : Except Stop State :=
  match Name.ofWord? word with
  | none => .error .unknownArgument
  | some name =>
    if name.takesValue then
      match value with
      | some value => state.takeNext name (some value)
      | none => state.await name none
    else if value.isSome then .error .surplusValue
    else state.takeNext name none

/-- Options named by letters.  The rest of the letters is the value of one that has a value. -/
def short (state : State) : List Char → Except Stop State
  | [] => .ok state
  | letter :: rest =>
    match Name.ofLetter? letter with
    | none => .error .unknownArgument
    | some name =>
      if name.takesValue then
        match rest with
        | [] => state.await name none
        | '=' :: value => state.takeNext name (some (String.ofList value))
        | value => state.takeNext name (some (String.ofList value))
      else (state.takeNext name none).bind fun state => short state rest

/-- An argument that is a value. -/
def value (state : State) (text : String) : Except Stop State :=
  match state.pending with
  | some ⟨name, none⟩ => .ok { state with pending := some ⟨name, some text⟩ }
  | _ => state.positional text

/-- Reads one argument. -/
def read (state : State) (argument : String) : Except Stop State :=
  if state.trailing then state.positional argument
  else
    match argument.toList with
    | ['-', '-'] => .ok { state with trailing := true }
    | '-' :: '-' :: body =>
      let word := body.takeWhile (· != '=')
      let value :=
        match body.drop word.length with
        | _ :: value => some (String.ofList value)
        | [] => none
      state.long (String.ofList word) value
    | '-' :: letter :: letters => state.short (letter :: letters)
    | _ => state.value argument

end State

/-- What the arguments ask for. -/
def parse (arguments : List String) : Except Stop Options :=
  match (arguments.foldlM State.read State.initial).bind State.settle with
  | .error stop => .error stop
  | .ok state =>
    let options := state.options
    if options.quiet && (options.verbose || options.debug) then .error .conflict
    else .ok options

/-- What is shown where help is asked for. -/
def helpText : String :=
  "Check XML well-formedness and Application script references, writing a SARIF diagnostics " ++
  "log\n\n" ++
  "Usage: ig-scan [OPTIONS] [ERROR_LOG]\n\n" ++
  "Arguments:\n" ++
  "  [ERROR_LOG]  Captured xmllint error output to convert instead of scanning\n\n" ++
  "Options:\n" ++
  "  -r, --root <ROOT>\n" ++
  "          Root of the forms project [default: .]\n" ++
  "  -o, --output <OUTPUT>\n" ++
  "          Where to write the diagnostics log\n" ++
  "  -c, --config <CONFIG>\n" ++
  "          Configuration file (TOML or JSON)\n" ++
  "  -t, --threads <THREADS>\n" ++
  "          Number of files validated concurrently\n" ++
  "      --xml-extensions <XML_EXTENSIONS>\n" ++
  "          XML file extensions (e.g., 'xml,XML')\n" ++
  "      --script-extensions <SCRIPT_EXTENSIONS>\n" ++
  "          Script file extensions (e.g., 'bsh')\n" ++
  "      --exclude <EXCLUDE_PATTERNS>\n" ++
  "          Exclude file patterns (glob syntax, relative to the root)\n" ++
  "      --follow-symlinks\n" ++
  "          Follow symbolic links while discovering files\n" ++
  "  -v, --verbose\n" ++
  "          Enable verbose output\n" ++
  "  -q, --quiet\n" ++
  "          Quiet mode\n" ++
  "      --debug\n" ++
  "          Log every file as it is validated\n" ++
  "  -h, --help\n" ++
  "          Print help\n" ++
  "  -V, --version\n" ++
  "          Print version\n"

/-- What is shown where the version is asked for. -/
def versionText : String := "ig-scan 0.1.0\n"

end CommandLine

end FormsAudit
