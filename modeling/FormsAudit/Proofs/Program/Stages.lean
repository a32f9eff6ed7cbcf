import FormsAudit.Program
import FormsAudit.Proofs.Discovery.Agreement
import FormsAudit.Proofs.Fallible
import FormsAudit.Proofs.Text.Utf8

/-!
# The stages of a run

A run reads its command line and its configuration, examines, and writes its report, and ends at the
first stage that fails (`runAlong_cases`).  Each stage has a lemma that says when it fails, or when it
does not; an examination fails for its patterns, for want of a directory to scan or for a log that
cannot be read (`examine_eq_error_iff`).
-/

namespace FormsAudit

/-! ## Examinations -/

open Discovery (IsReadableDirectory)

theorem Discovery.discover_eq_error_iff (fs : FileSystem) (selection : Selection) (root : Path) :
    (∃ fault, discover fs selection root = .error fault) ↔
      ∀ names entries, ¬ IsReadableDirectory fs root names entries := by
  constructor
  · rintro ⟨fault, hfault⟩ names entries hroot
    cases (discover_eq selection hroot).symm.trans hfault
  · intro hnone
    cases hfound : discover fs selection root with
    | error fault => exact ⟨fault, rfl⟩
    | ok found =>
      obtain ⟨names, entries, hroot⟩ := exists_root_of_discover hfound
      exact absurd hroot (hnone names entries)

/-- A scan fails if and only if there is no directory to scan that lists its entries. -/
theorem Scan.run_eq_error_iff [WideDecoders]
    (fs : FileSystem) (settings : Settings) (root : Path) (clock : Clock)
    (watcher : Watcher) (cancelled : Bool) :
    (∃ failure, (run fs settings root clock watcher cancelled).run = .error failure) ↔
      ∀ names entries, ¬ IsReadableDirectory fs root names entries := by
  have hfind : (∃ fault, findFiles fs settings root = .error fault) ↔
      ∀ names entries, ¬ IsReadableDirectory fs root names entries := by
    -- the second search fails where the first does
    unfold findFiles
    simp only [exists_bind_eq_error_iff, Discovery.discover_eq_error_iff, exists_pure_eq_error_iff,
      and_false, exists_false, or_false]
    exact or_iff_left_of_imp fun ⟨_, _, h⟩ => h
  rw [← hfind, run]
  cases findFiles fs settings root <;> simp [conclude]

theorem CapturedLog.convert_eq_error_iff (fs : FileSystem) (path : Path)
    (started finished : Timestamp) :
    (∃ failure, convert fs path started finished = .error failure) ↔
      ∃ errno, fs.contentOf path = .error errno := by
  unfold convert
  cases fs.contentOf path <;> simp

namespace Program

variable {input : Input} {options : Options} {config : Config}

theorem settings_eq_error_iff (config : Config) (processors : Nat) :
    (∃ failure, settings config processors = .error failure) ↔
      ∃ fault, config.documentSelection = .error fault ∨ config.scriptSelection = .error fault := by
  unfold settings
  cases config.documentSelection <;> cases config.scriptSelection <;> simp

/-- Why an examination fails. -/
theorem examine_eq_error_iff [WideDecoders] :
    (∃ failure, examine input options config = .error failure) ↔
      (options.errorLog = none ∧
        ((∃ fault, config.documentSelection = .error fault ∨
            config.scriptSelection = .error fault) ∨
          ∀ names entries,
            ¬ IsReadableDirectory input.files (.ofString options.root) names entries)) ∨
      ∃ log errno, options.errorLog = some log ∧
        input.files.contentOf (.ofString log) = .error errno := by
  unfold examine
  dsimp only
  cases options.errorLog with
  | some log => simp [exists_map_eq_error_iff, CapturedLog.convert_eq_error_iff]
  | none =>
    rw [← settings_eq_error_iff config input.processors]
    simp only [exists_bind_eq_error_iff, Scan.run_eq_error_iff, exists_pure_eq_error_iff, and_false,
      exists_false, or_false, true_and, reduceCtorEq, false_and]
    cases settings config input.processors <;> simp

/-! ## Runs -/

variable {course : Course}

/-- What is written of a log is its text and a line feed. -/
theorem reportOf_eq (log : Report.Log) : reportOf log = log.toText.toUTF8.toList ++ [0x0A] := by
  have hfeed : "\n".toUTF8.toList = [0x0A] := by decide +kernel
  rw [reportOf, Utf8.toUTF8_append, hfeed]

theorem complete_eq_ok_iff {completion : Completion} :
    complete input course options config = .ok completion ↔ ∃ run notices log files,
      course.examine options config = .ok (run, notices) ∧
      Report.Log.ofRun run input.guid = .ok log ∧
      course.write config.report (reportOf log) = .ok files ∧
      completion = ⟨run, notices, reportOf log, files⟩ := by
  unfold complete
  simp only [bind_eq_ok_iff, Prod.exists]
  constructor
  · rintro ⟨run, notices, hrun, log, hlog, h⟩
    split at h
    · cases h
    · rename_i files hfiles
      exact ⟨run, notices, log, files, hrun, hlog, hfiles, (Except.ok.inj h).symm⟩
  · rintro ⟨run, notices, log, files, hrun, hlog, hfiles, rfl⟩
    exact ⟨run, notices, hrun, log, hlog, by rw [hfiles]⟩

/-- The stages of a run, and the first at which it ends. -/
theorem runAlong_cases (course : Course) (hparse : CommandLine.parse input.arguments = .ok options) :
    (∃ text, runAlong input course = refuse input text ∧
      (options.threads = some 0 ∨ (∃ error, configuration input options = .error error) ∨
        ∃ config failure, configuration input options = .ok config ∧
          complete input course options config = .error failure)) ∨
    ∃ config completion, options.threads ≠ some 0 ∧ configuration input options = .ok config ∧
      complete input course options config = .ok completion ∧
      (runAlong input course).code = completion.run.exitCode ∧
      (runAlong input course).report = some (config.report, completion.report) ∧
      (runAlong input course).files = completion.files := by
  unfold runAlong
  rw [hparse]
  dsimp only [Options.invalid?]
  by_cases hthreads : options.threads = some 0
  · rw [if_pos hthreads]
    exact .inl ⟨_, rfl, .inl hthreads⟩
  · rw [if_neg hthreads]
    dsimp only
    split
    · rename_i error herror
      exact .inl ⟨_, rfl, .inr (.inl ⟨error, herror⟩)⟩
    · rename_i config hconfig
      unfold runConfigured
      dsimp only
      split
      · rename_i failure hfailure
        exact .inl ⟨_, rfl, .inr (.inr ⟨config, failure, hconfig, hfailure⟩)⟩
      · rename_i completion hcompletion
        exact .inr ⟨config, completion, hthreads, hconfig, hcompletion, rfl, rfl, rfl⟩

end Program

end FormsAudit
