import FormsAudit.Proofs.FileSystem.Written
import FormsAudit.Proofs.Program.Stages
import FormsAudit.Proofs.Report.Coverage

/-!
# What a run of the program leaves behind

A run that was told what to do either leaves nothing at all or writes its report and nothing else
(`Effect`), whatever it meets with on the way: however the tasks of a scan take turns, whenever it is
interrupted, and whatever the system refuses (`Course.Possible`).

The exit code and the report come from the same findings in two ways, and agree (`exitCode_eq_or`).
Of a run that is left alone we also know when it leaves nothing: when one of six things is wrong, and
only then (`Hindrance`).
-/

namespace FormsAudit.Program

variable {input : Input} {course : Course} {options : Options} {config : Config}

/-! ## Runs of the program -/

/-- Some entry of the log is of an error. -/
def TellsError (log : Report.Log) : Prop :=
  ∃ logged ∈ log.runs, ∃ entry ∈ logged.results, entry.level = .error

/-- What a run can meet with.  Its examination fails, or comes to what a scan or a conversion can come
to; and the report cannot be written, or is written as the tree has it. -/
structure Course.Possible [WideDecoders] (input : Input) (course : Course) : Prop where
  scanned : ∀ {options config run notices}, course.examine options config = .ok (run, notices) →
    options.errorLog = none → ∃ settings, Program.settings config input.processors = .ok settings ∧
      Scan.Ran settings (.ofString options.root) run
  converted : ∀ {options config run notices log},
    course.examine options config = .ok (run, notices) → options.errorLog = some log →
      ∃ started finished,
        CapturedLog.convert input.files (.ofString log) started finished = .ok run
  written : ∀ {path content files}, course.write path content = .ok files →
    input.files.writeFile path content = .ok files

/-- All that a run does. -/
structure Effect (input : Input) (options : Options) (course : Course) (output : Output) :
    Prop where
  /-- A run that ends with an error has changed and shown nothing. -/
  refused : output.code = 2 →
    output.files = input.files ∧ output.shown = "" ∧ output.report = none
  /-- Any other has written its report, the text of the log and a line feed, and nothing else. -/
  reported : output.code ≠ 2 → ∃ config run notices log,
    configuration input options = .ok config ∧
    course.examine options config = .ok (run, notices) ∧
    Report.Log.ofRun run input.guid = .ok log ∧
    input.files.Written config.report (log.toText.toUTF8.toList ++ [0x0A]) output.files ∧
    output.report = some (config.report, log.toText.toUTF8.toList ++ [0x0A]) ∧
    (output.code = 1 ∧ TellsError log ∨ output.code = 0 ∧ ¬ TellsError log)

/-- What keeps a run from being completed. -/
inductive Hindrance (input : Input) (options : Options) : Prop
  | threads : options.threads = some 0 → Hindrance input options
  | configuration {error : ConfigError} : Program.configuration input options = .error error →
      Hindrance input options
  | pattern {config : Config} {fault : PatternFault} :
      Program.configuration input options = .ok config → options.errorLog = none →
      config.documentSelection = .error fault ∨ config.scriptSelection = .error fault →
      Hindrance input options
  | root {config : Config} : Program.configuration input options = .ok config →
      options.errorLog = none →
      (∀ names entries,
        ¬ Discovery.IsReadableDirectory input.files (.ofString options.root) names entries) →
      Hindrance input options
  | log {config : Config} {log : String} {errno : Errno} :
      Program.configuration input options = .ok config → options.errorLog = some log →
      input.files.contentOf (.ofString log) = .error errno → Hindrance input options
  | report {config : Config} {errno : Errno} : Program.configuration input options = .ok config →
      (∀ content, input.files.writeFile config.report content = .error errno) →
      Hindrance input options

/-! ## The exit code and the report -/

theorem tellsError_iff {run : Run} {guid : Uuid} {log : Report.Log}
    (h : Report.Log.ofRun run guid = .ok log) :
    TellsError log ↔ run.results.hasErrors = true := by
  obtain ⟨logged, hruns, hresults, -⟩ := Report.exists_logged_of_ofRun h
  simp [TellsError, hruns, hresults, Results.hasErrors, Report.Entry.ofDiagnostic,
    Diagnostic.isError]

theorem exitCode_eq_or {run : Run} {guid : Uuid} {log : Report.Log}
    (h : Report.Log.ofRun run guid = .ok log) :
    run.exitCode = 1 ∧ TellsError log ∨ run.exitCode = 0 ∧ ¬ TellsError log := by
  rw [tellsError_iff h, Run.exitCode]
  cases run.results.hasErrors <;> simp

section

variable [WideDecoders]

theorem effect_runAlong (hcourse : course.Possible input)
    (hparse : CommandLine.parse input.arguments = .ok options) :
    Effect input options course (runAlong input course) := by
  obtain ⟨text, hrun, -⟩ | ⟨config, completion, -, hconfig, hcompletion, hcode, hreport, hfiles⟩ :=
    runAlong_cases course hparse
  · rw [hrun]
    exact ⟨fun _ => ⟨rfl, rfl, rfl⟩, fun hcode => absurd rfl hcode⟩
  · obtain ⟨run, notices, log, files, hexamine, hlog, hwrite, rfl⟩ :=
      complete_eq_ok_iff.mp hcompletion
    have hexit := exitCode_eq_or hlog
    constructor
    case refused =>
      intro hcode'
      rw [hcode] at hcode'
      dsimp only at hcode'
      omega
    case reported =>
      intro _
      rw [reportOf_eq] at hwrite hreport
      refine ⟨config, run, notices, log, hconfig, hexamine, hlog, ?_, hreport, ?_⟩
      · rw [hfiles]
        exact FileSystem.written_of_writeFile (hcourse.written hwrite)
      · rw [hcode]
        exact hexit

/-! ## A run that is left alone -/

theorem possible_undisturbed (input : Input) : (Course.undisturbed input).Possible input := by
  constructor
  case scanned =>
    intro options config run notices hrun hlog
    simp only [Course.undisturbed, examine, hlog, bind_eq_ok_iff] at hrun
    obtain ⟨settings, hsettings, found, hfound, hrun⟩ := hrun
    obtain ⟨rfl, -⟩ := Prod.mk.inj (Except.ok.inj hrun)
    exact ⟨settings, hsettings, Scan.ran_run hfound⟩
  case converted =>
    intro options config run notices log hrun hlog
    simp only [Course.undisturbed, examine, hlog, map_eq_ok_iff] at hrun
    obtain ⟨found, hfound, hrun⟩ := hrun
    obtain ⟨rfl, -⟩ := Prod.mk.inj hrun
    exact ⟨_, _, hfound⟩
  case written => exact fun hwrite => hwrite

/-- Whatever an examination can come to can be reported. -/
theorem exists_ofRun_of_possible (hcourse : course.Possible input) {run : Run}
    {notices : List Scan.Progress} (hrun : course.examine options config = .ok (run, notices)) :
    ∃ log, Report.Log.ofRun run input.guid = .ok log := by
  have hfinds : ∀ finding ∈ run.results.diagnostics, run.ruleSet.Finds finding := by
    cases hlog : options.errorLog with
    | none =>
      obtain ⟨settings, -, hran⟩ := hcourse.scanned hrun hlog
      exact hran.finds
    | some log =>
      obtain ⟨started, finished, hconvert⟩ := hcourse.converted hrun hlog
      exact CapturedLog.convert_finds hconvert
  obtain ⟨log, -, hlog, -⟩ := (Report.reportable_of_finds hfinds).reported input.guid
  exact ⟨log, hlog⟩

/-- Why a run that is left alone is not completed. -/
theorem complete_eq_error_iff :
    (∃ failure, complete input (.undisturbed input) options config = .error failure) ↔
      (∃ failure, examine input options config = .error failure) ∨
        ∃ errno, ∀ content, input.files.writeFile config.report content = .error errno := by
  unfold complete
  simp only [exists_bind_eq_error_iff, Prod.exists]
  refine or_congr_right' fun hexamined => ⟨?_, ?_⟩
  · rintro ⟨run, notices, hrun, ⟨failure, hfailure⟩ | ⟨log, hlog, failure, hfailure⟩⟩
    · obtain ⟨log, hlog⟩ := exists_ofRun_of_possible (possible_undisturbed input) hrun
      cases hlog.symm.trans hfailure
    · cases hwrite : (Course.undisturbed input).write config.report (reportOf log) with
      | error errno => exact ⟨errno, FileSystem.writeFile_eq_error_congr hwrite⟩
      | ok files => simp [hwrite] at hfailure
  · rintro ⟨errno, hwrite⟩
    cases hrun : (Course.undisturbed input).examine options config with
    | error failure => exact absurd ⟨failure, hrun⟩ hexamined
    | ok found =>
      obtain ⟨log, hlog⟩ := exists_ofRun_of_possible (possible_undisturbed input) hrun
      exact ⟨found.1, found.2, rfl, .inr ⟨log, hlog, .system (.refused errno),
        by simp [Course.undisturbed, hwrite]⟩⟩

theorem hindrance_iff :
    Hindrance input options ↔ options.threads = some 0 ∨
      (∃ error, configuration input options = .error error) ∨
      ∃ config failure, configuration input options = .ok config ∧
        complete input (.undisturbed input) options config = .error failure := by
  have hcompletion : ∀ {config}, configuration input options = .ok config →
      (((∃ failure, examine input options config = .error failure) ∨
        ∃ errno, ∀ content, input.files.writeFile config.report content = .error errno) →
        ∃ config failure, configuration input options = .ok config ∧
          complete input (.undisturbed input) options config = .error failure) := by
    intro config hconfig hwhy
    obtain ⟨failure, hfailure⟩ := complete_eq_error_iff.mpr hwhy
    exact ⟨config, failure, hconfig, hfailure⟩
  constructor
  · intro h
    cases h with
    | threads hthreads => exact .inl hthreads
    | configuration herror => exact .inr (.inl ⟨_, herror⟩)
    | pattern hconfig hlog hfault =>
      refine .inr (.inr (hcompletion hconfig (.inl (examine_eq_error_iff.mpr ?_))))
      exact .inl ⟨hlog, .inl ⟨_, hfault⟩⟩
    | root hconfig hlog hroot =>
      refine .inr (.inr (hcompletion hconfig (.inl (examine_eq_error_iff.mpr ?_))))
      exact .inl ⟨hlog, .inr hroot⟩
    | log hconfig hlog hcontent =>
      refine .inr (.inr (hcompletion hconfig (.inl (examine_eq_error_iff.mpr ?_))))
      exact .inr ⟨_, _, hlog, hcontent⟩
    | report hconfig hwrite => exact .inr (.inr (hcompletion hconfig (.inr ⟨_, hwrite⟩)))
  · rintro (hthreads | ⟨error, herror⟩ | ⟨config, failure, hconfig, hfailure⟩)
    · exact .threads hthreads
    · exact .configuration herror
    · obtain hexamined | ⟨errno, hwrite⟩ := complete_eq_error_iff.mp ⟨failure, hfailure⟩
      · obtain ⟨hlog, ⟨fault, hfault⟩ | hroot⟩ | ⟨log, errno, hlog, hcontent⟩ :=
          examine_eq_error_iff.mp hexamined
        · exact .pattern hconfig hlog hfault
        · exact .root hconfig hlog hroot
        · exact .log hconfig hlog hcontent
      · exact .report hconfig hwrite

/-- A run that is left alone ends with an error exactly if something keeps it from being completed. -/
theorem code_run_iff (hparse : CommandLine.parse input.arguments = .ok options) :
    (run input).code = 2 ↔ Hindrance input options := by
  rw [hindrance_iff]
  obtain ⟨text, hrun, hwhy⟩ | ⟨config, completion, hthreads, hconfig, hcompletion, hcode, -⟩ :=
    runAlong_cases (.undisturbed input) hparse
  · refine iff_of_true ?_ hwhy
    rw [run, hrun]
    rfl
  · refine iff_of_false ?_ ?_
    · rw [run, hcode, Run.exitCode]
      split <;> decide
    · rintro (hnone | ⟨error, herror⟩ | ⟨other, failure, hother, hfailure⟩)
      · exact hthreads hnone
      · cases hconfig.symm.trans herror
      · obtain rfl := Except.ok.inj (hconfig.symm.trans hother)
        cases hcompletion.symm.trans hfailure

/-- **A run leaves its report and nothing else, or nothing at all.**  Whatever a run meets with, it
ends with an error and has changed and shown nothing, or the whole report of what it found is at the
place that the configuration names, all else is as it was, and the exit code tells whether the report
tells of an error.  A run that is left alone ends with an error if, and only if, its command line,
configuration, patterns, root, log or report is not as it should be. -/
theorem effect_of_parse (input : Input) (options : Options)
    (hparse : CommandLine.parse input.arguments = .ok options) :
    (∀ course : Course, course.Possible input →
      Effect input options course (runAlong input course)) ∧
    Effect input options (.undisturbed input) (run input) ∧
    ((run input).code = 2 ↔ Hindrance input options) :=
  ⟨fun _ hcourse => effect_runAlong hcourse hparse,
    effect_runAlong (possible_undisturbed input) hparse, code_run_iff hparse⟩

end

/-- A tree with a captured log that tells of an error, and a link to a file that is not there yet. -/
def linkedTree (content : List UInt8) : FileSystem :=
  ⟨.directory [("log".toUTF8.toList, .file content), ("out".toUTF8.toList, .link [0x61])], [], []⟩

/-- The log is to be converted, and the report to be written through the link. -/
def linkedInput : Input where
  files := linkedTree "b:3: parser error : m\n<a>\n  ^".toUTF8.toList
  environment := []
  arguments := ["log", "--output", "out"]
  processors := 1
  clock := { started := ⟨0, 0⟩, finished := ⟨0, 0⟩ }
  guid := Report.nilUuid

attribute [local instance] WideDecoders.asciiOnly

theorem effect_of_parse_linkedInput :
    CommandLine.parse linkedInput.arguments =
      .ok { errorLog := some "log", output := some "out" } ∧
    (run linkedInput).code = 1 ∧
    (∃ log, TellsError log ∧
      (run linkedInput).files.lookup (.ofString "out") =
        .ok ([[0x61]], .file (log.toText.toUTF8.toList ++ [0x0A])) ∧
      FileSystem.AgreeBut [[0x61]] linkedInput.files (run linkedInput).files) ∧
    (run { linkedInput with arguments := ["--threads", "0"] }).code = 2 := by
  have hparse : CommandLine.parse linkedInput.arguments =
      .ok { errorLog := some "log", output := some "out" } := by decide +kernel
  have hconfig : configuration linkedInput { errorLog := some "log", output := some "out" } =
      .ok { report := .ofString "out" } := by cbv
  have hplace : ∀ content, (linkedTree content).place (.ofString "out") = .ok ⟨[[0x61]], none⟩ := by
    intro content
    cbv
  have hcontent : ∀ content, (linkedTree content).contentOf (.ofString "log") = .ok content := by
    intro content
    cbv
  have hwrite : ∀ content, linkedInput.files.writeFile (.ofString "out") content =
      .ok (linkedInput.files.replace [[0x61]] (some (.file content))) := by
    intro content
    have hnothing : FileSystem.FileOrNothing none := by simp [FileSystem.FileOrNothing]
    exact FileSystem.writeFile_eq_ok_iff.mpr ⟨by decide +kernel, by decide +kernel, _, hplace _, rfl,
      .inl ⟨hnothing, rfl⟩⟩
  obtain ⟨-, heffect, hcode⟩ := effect_of_parse linkedInput _ hparse
  have hfree : ¬ Hindrance linkedInput { errorLog := some "log", output := some "out" } := by
    intro h
    cases h with
    | threads h => cases h
    | configuration h => cases hconfig.symm.trans h
    | pattern _ h _ | root _ h _ => cases h
    | log _ h hfault =>
      obtain rfl := Option.some.inj h
      cases (hcontent _).symm.trans hfault
    | report h hfault =>
      obtain rfl := Except.ok.inj (hconfig.symm.trans h)
      cases (hwrite []).symm.trans (hfault [])
  obtain ⟨config, found, notices, log, hfound, hexamine, hlog, hwritten, -, hexit⟩ :=
    heffect.reported fun h => hfree (hcode.mp h)
  obtain rfl := Except.ok.inj (hconfig.symm.trans hfound)
  have htells : TellsError log := by
    rw [tellsError_iff hlog]
    simp only [Course.undisturbed, examine, map_eq_ok_iff, CapturedLog.convert, linkedInput,
      hcontent] at hexamine
    obtain ⟨converted, hconverted, hfound⟩ := hexamine
    obtain rfl := Except.ok.inj hconverted
    obtain ⟨rfl, -⟩ := Prod.mk.inj hfound
    decide +kernel
  refine ⟨hparse, ?_, ⟨log, htells, ?_⟩, ?_⟩
  · obtain ⟨hone, -⟩ | ⟨-, hnot⟩ := hexit
    · exact hone
    · exact absurd htells hnot
  · generalize (run linkedInput).files = files at hwritten ⊢
    cases hwritten with
    | filed hthere _ hlookup hagree =>
      obtain rfl := Except.ok.inj ((hplace _).symm.trans hthere)
      exact ⟨hlookup, hagree⟩
    | piped hthere => cases (hplace _).symm.trans hthere
  · have hzero : CommandLine.parse ["--threads", "0"] = .ok { threads := some 0 } := by
      decide +kernel
    obtain ⟨-, -, hcode⟩ :=
      effect_of_parse { linkedInput with arguments := ["--threads", "0"] } _ hzero
    exact hcode.mpr (.threads rfl)

end FormsAudit.Program
