import FormsAudit.CapturedLog
import FormsAudit.Console.Summary
import FormsAudit.Console.Trouble
import FormsAudit.Scan.Basic

/-!
# The program

One run of the program, as a function of the file tree and of everything else it is given.  Only a
run that is completed and whose report could be written changes the tree or shows a summary.
-/

namespace FormsAudit.Program

/-- What a run of the program is given. -/
structure Input where
  files : FileSystem
  environment : Environment
  arguments : List String
  /-- How many files are looked at at a time, unless a number is asked for. -/
  processors : Nat
  /-- Whether the summary is shown on a terminal. -/
  outputIsTerminal : Bool := false
  /-- Whether errors are shown on a terminal. -/
  errorsAreTerminal : Bool := false
  clock : Scan.Clock
  /-- The identifier of the run. -/
  guid : Uuid

/-- What comes of a run of the program. -/
structure Output where
  code : Nat
  shown : String
  errors : String
  /-- The report that was written, and where. -/
  report : Option (Path × List UInt8)
  files : FileSystem

/-- What a completed run leaves. -/
structure Completion where
  run : Run
  notices : List Scan.Progress
  report : List UInt8
  files : FileSystem

/-- The program ends with an error, and nothing else happens. -/
def refuse (input : Input) (text : String) : Output :=
  ⟨Failure.exitCode, "", text ++ "\n", none, input.files⟩

/-- The program ends with the command line. -/
def stop (input : Input) : CommandLine.Stop → Output
  | .help => ⟨0, CommandLine.helpText, "", none, input.files⟩
  | .version => ⟨0, CommandLine.versionText, "", none, input.files⟩
  | stop => refuse input s!"error: {stop.reason}"

/-- The configuration that holds in the run. -/
def configuration (input : Input) (options : Options) : Except ConfigError Config :=
  Config.load input.files (Config.userDirectory? input.environment) input.environment options

/-- What is scanned. -/
def settings (config : Config) (processors : Nat) : Except Failure Scan.Settings :=
  match config.documentSelection, config.scriptSelection with
  | .ok documents, .ok scripts => .ok ⟨documents, scripts, config.threads.getD processors⟩
  | .error fault, _ | _, .error fault => .error (.configuration fault.message)

variable [WideDecoders]

/-- Converts the captured log that the options name, or else scans. -/
def examine (input : Input) (options : Options) (config : Config) :
    Except Failure (Run × List Scan.Progress) :=
  let clock := input.clock
  match options.errorLog with
  | some log =>
    (CapturedLog.convert input.files (.ofString log) clock.started clock.finished).map (·, [])
  | none => do
    let settings ← settings config input.processors
    let record :=
      Scan.run input.files settings (.ofString options.root) clock Scan.Watcher.patient false
    return (← record.run, record.notices)

/-- What a run meets with. -/
structure Course where
  /-- What the examination comes to under options and a configuration. -/
  examine : Options → Config → Except Failure (Run × List Scan.Progress)
  /-- The tree after a file is written. -/
  write : Path → List UInt8 → Except Errno FileSystem

/-- A run that is left alone. -/
def Course.undisturbed (input : Input) : Course where
  examine := Program.examine input
  write := input.files.writeFile

/-- What is written of a log. -/
def reportOf (log : Report.Log) : List UInt8 :=
  (log.toText ++ "\n").toUTF8.toList

/-- Examines, and writes the report. -/
def complete (input : Input) (course : Course) (options : Options) (config : Config) :
    Except Failure Completion := do
  let (run, notices) ← course.examine options config
  let log ← Report.Log.ofRun run input.guid
  match course.write config.report (reportOf log) with
  | .error errno => .error (.system (.refused errno))
  | .ok files => .ok ⟨run, notices, reportOf log, files⟩

/-- The lines that tell how far a run has come, for a person who watches. -/
def progressLines (input : Input) (verbosity : Verbosity) (notices : List Scan.Progress) :
    String :=
  if verbosity = .normal && input.errorsAreTerminal then
    String.join
      ((notices.filter (·.phase = .validation)).map fun notice =>
        Console.progressText verbosity notice.completed notice.total notice.file)
  else ""

/-- How much is shown in a run. -/
def verbosity (options : Options) (config : Config) : Verbosity :=
  if options.debug then .debug else config.verbosity

/-- Runs the program under a configuration. -/
def runConfigured (input : Input) (course : Course) (options : Options) (config : Config) :
    Output :=
  let verbosity := verbosity options config
  match complete input course options config with
  | .error failure => refuse input (Console.failureText verbosity failure)
  | .ok completion =>
    { code := completion.run.exitCode
      shown :=
        (Console.Style.mk verbosity input.outputIsTerminal).run completion.run config.report
      errors := progressLines input verbosity completion.notices
      report := some (config.report, completion.report)
      files := completion.files }

/-- Runs the program, whatever it meets with. -/
def runAlong (input : Input) (course : Course) : Output :=
  match CommandLine.parse input.arguments with
  | .error reason => stop input reason
  | .ok options =>
    match options.invalid? with
    | some reason => refuse input s!"Error: {reason}"
    | none =>
      match configuration input options with
      | .error error => refuse input (Console.configErrorText options.verbosity error)
      | .ok config => runConfigured input course options config

/-- Runs the program. -/
def run (input : Input) : Output :=
  runAlong input (.undisturbed input)

/-! ## Where a run looks -/

/-- The directory that holds what the path names. -/
def directoryOf (path : Path) : Path :=
  match (path.bytes.splitOn Path.slash).dropLast with
  | [] => .ofString "."
  | [[]] => .ofString "/"
  | names => ⟨[Path.slash].intercalate names⟩

/-- The paths below which a run reads and writes, as far as they are known from the files read so
far.  The configuration, once it is read, tells where the report goes. -/
def places (input : Input) : List Path :=
  match CommandLine.parse input.arguments with
  | .error _ => []
  | .ok options =>
    let report :=
      match configuration input options with
      | .ok config => [directoryOf config.report]
      | .error _ => []
    (options.errorLog.toList ++ options.config.toList).map Path.ofString ++
      [Path.ofString options.root] ++ (Config.userDirectory? input.environment).toList ++ report

end FormsAudit.Program
