import FormsAudit.CapturedLog
import FormsAudit.Proofs.Scan.Agreement
import FormsAudit.Proofs.Scan.Tally

/-!
# Every finding can be reported

Rules are written down in three places: where a finding is made, in the list of the rules that a tool
emits, and in the descriptions that go into its reports.  A report needs the three to agree, and for
what this program finds they do: whatever a scan or a conversion comes to can be reported
(`ofRun_reportable`).

Both halves go through `RuleSet.Finds`.  A tool describes exactly the rules that it emits
(`describe?_eq_some_iff`), so findings of emitted rules are described.  A run whose findings come from
elsewhere is refused for the first that its tool does not describe (`ofRun_eq_error_iff`).
-/

namespace FormsAudit

/-! ## The rules of a tool -/

/-- The finding is of a rule that the tool emits, and as grave as the rule says. -/
structure RuleSet.Finds (set : RuleSet) (finding : Diagnostic) : Prop where
  emitted : finding.rule ∈ set.emitted
  severity : finding.severity = finding.rule.defaultSeverity

/-- A tool describes the rules that it emits, and no others. -/
theorem RuleSet.describe?_eq_some_iff {set : RuleSet} {rule : Rule} {descriptor : RuleDescriptor} :
    set.describe? rule = some descriptor ↔ rule ∈ set.emitted ∧ descriptor = rule.descriptor := by
  have hdescribe : set.describe? rule =
      if rule ∈ set.emitted then some rule.descriptor else none := by
    cases set <;> cases rule <;> rfl
  rw [hdescribe, Option.ite_none_right_eq_some, Option.some.injEq, eq_comm (b := descriptor)]

theorem RuleSet.mem_registry_of_describe? {set : RuleSet} {rule : Rule}
    {descriptor : RuleDescriptor} (h : set.describe? rule = some descriptor) :
    descriptor ∈ set.registry ∧ descriptor.rule = rule := by
  unfold describe? at h
  exact ⟨List.mem_of_find?_eq_some h, by simpa using List.find?_some h⟩

@[simp] theorem Rule.severity_descriptor (rule : Rule) :
    rule.descriptor.severity = rule.defaultSeverity := by
  cases rule <;> rfl

/-- What the tool finds is described, as grave as it is. -/
theorem RuleSet.Finds.exists_descriptor {set : RuleSet} {finding : Diagnostic}
    (h : set.Finds finding) :
    ∃ descriptor, set.describe? finding.rule = some descriptor ∧
      descriptor.severity = finding.severity :=
  ⟨finding.rule.descriptor, describe?_eq_some_iff.mpr ⟨h.emitted, rfl⟩, by simp [h.severity]⟩

/-! ## What is found -/

namespace Scan

/-- Of each file, and so of all, a scan finds what it can report. -/
theorem Ran.finds [WideDecoders]
    {settings : Settings} {root : Path} {run : Run} (h : Ran settings root run) :
    ∀ finding ∈ run.results.diagnostics, run.ruleSet.Finds finding := by
  obtain ⟨started, finished, -, -, hplay, hdone⟩ := h
  obtain ⟨skipped, hblocks⟩ := exists_blocks hplay hdone
  intro finding hfinding
  dsimp only [Validation.ofPool] at hfinding
  rw [hblocks, diagnostics_merge] at hfinding
  obtain ⟨outcome, houtcome, hfinding⟩ := List.mem_flatMap.mp hfinding
  have hfound := (reported_blocks skipped outcome houtcome).foundIn finding hfinding
  exact ⟨hfound.rule, hfound.severity⟩

end Scan

namespace CapturedLog

theorem classify_mem_emitted (kind : List Char) :
    classify kind ∈ RuleSet.conversion.emitted := by
  unfold classify
  split_ifs <;> decide

/-- Every block of a captured log becomes a finding of the conversion's rules. -/
theorem finds_of_mem_parse {text : List Char} {finding : Diagnostic}
    (h : finding ∈ parse text) : RuleSet.conversion.Finds finding := by
  obtain ⟨block, -, hblock⟩ := List.mem_filterMap.mp h
  unfold diagnostic? at hblock
  dsimp only at hblock
  split at hblock
  · cases hblock
  · obtain rfl := Option.some.inj hblock
    exact ⟨classify_mem_emitted block.heading.kind, rfl⟩

theorem convert_finds {fs : FileSystem} {path : Path} {started finished : Timestamp} {run : Run}
    (h : convert fs path started finished = .ok run) :
    ∀ finding ∈ run.results.diagnostics, run.ruleSet.Finds finding := by
  unfold convert at h
  split at h
  · cases h
  · obtain rfl := Except.ok.inj h
    exact fun finding hfinding => finds_of_mem_parse hfinding

end CapturedLog

/-! ## What is reported -/

namespace Report

/-- The findings are those of the tool, so the run can be reported.  The report has one entry for each
finding, in the same order, and describes the rule of every entry. -/
structure Reportable (run : Run) : Prop where
  emitted : ∀ finding ∈ run.results.diagnostics, finding.rule ∈ run.ruleSet.emitted
  described : ∀ finding ∈ run.results.diagnostics, ∃ descriptor,
    run.ruleSet.describe? finding.rule = some descriptor ∧
      descriptor.severity = finding.severity
  reported : ∀ guid, ∃ log logged, Log.ofRun run guid = .ok log ∧ log.runs = [logged] ∧
    List.Forall₂ Tells logged.results run.results.diagnostics ∧
    ∀ entry ∈ logged.results, ∃ rule ∈ logged.tool.rules, rule.id = entry.ruleId

/-- A run is refused for its first finding of a rule that the tool does not describe. -/
theorem ofRun_eq_error_iff {run : Run} {guid : Uuid} {failure : Failure} :
    Log.ofRun run guid = .error failure ↔ ∃ before stray after,
      run.results.diagnostics = before ++ stray :: after ∧
      (∀ finding ∈ before, run.ruleSet.describe? finding.rule ≠ none) ∧
      run.ruleSet.describe? stray.rule = none ∧
      failure = .configuration
        s!"rule {stray.rule.id} is not registered for tool '{run.ruleSet.toolName}'" := by
  unfold Log.ofRun
  constructor
  · intro h
    split at h
    · rename_i stray hstray
      obtain ⟨hnone, before, after, hsplit, hbefore⟩ := List.find?_eq_some_iff_append.mp hstray
      refine ⟨before, stray, after, hsplit, ?_, Option.isNone_iff_eq_none.mp hnone,
        (Except.error.inj h).symm⟩
      intro finding hfinding
      simpa [Option.isSome_iff_ne_none] using hbefore finding hfinding
    · cases h
  · rintro ⟨before, stray, after, hsplit, hbefore, hnone, rfl⟩
    have hstray : strayDiagnostic? run = some stray := by
      refine List.find?_eq_some_iff_append.mpr ⟨by simp [hnone], before, after, hsplit, ?_⟩
      intro finding hfinding
      simpa [Option.isSome_iff_ne_none] using hbefore finding hfinding
    rw [hstray]

/-- Whatever run a log is of, it has an entry for each finding and describes the rule of every
entry. -/
theorem exists_rule_of_ofRun {run : Run} {guid : Uuid} {log : Log}
    (h : Log.ofRun run guid = .ok log) : ∃ logged, log.runs = [logged] ∧
      List.Forall₂ Tells logged.results run.results.diagnostics ∧
      ∀ entry ∈ logged.results, ∃ rule ∈ logged.tool.rules, rule.id = entry.ruleId := by
  obtain ⟨logged, hruns, hresults, -, -, hrules⟩ := exists_logged_of_ofRun h
  have hcovered : ∀ finding ∈ run.results.diagnostics,
      ∃ descriptor, run.ruleSet.describe? finding.rule = some descriptor := by
    have hnone : strayDiagnostic? run = none := by
      cases hstray : strayDiagnostic? run with
      | none => rfl
      | some stray => simp [Log.ofRun, hstray] at h
    intro finding hfinding
    simpa [Option.ne_none_iff_exists'] using List.find?_eq_none.mp hnone finding hfinding
  refine ⟨logged, hruns, hresults ▸ forall₂_tells _, ?_⟩
  simp only [hresults, hrules, List.forall_mem_map]
  intro finding hfinding
  obtain ⟨descriptor, hdescriptor⟩ := hcovered finding hfinding
  obtain ⟨hmem, hrule⟩ := RuleSet.mem_registry_of_describe? hdescriptor
  exact ⟨_, List.mem_map_of_mem hmem, congrArg Rule.id hrule⟩

theorem reportable_of_finds {run : Run}
    (h : ∀ finding ∈ run.results.diagnostics, run.ruleSet.Finds finding) : Reportable run := by
  have hemitted := fun finding hfinding => (h finding hfinding).emitted
  refine ⟨hemitted, fun finding hfinding => (h finding hfinding).exists_descriptor, ?_⟩
  intro guid
  obtain ⟨log, hlog⟩ := exists_ofRun_eq_ok guid hemitted
  obtain ⟨logged, hlogged⟩ := exists_rule_of_ofRun hlog
  exact ⟨log, logged, hlog, hlogged⟩

/-- **What a scan or a conversion comes to can be reported.**  Its findings are of rules that its tool
emits and describes, each as grave as it is described.  Any other run is refused if, and only if, one
of its findings is of a rule that its tool does not describe, and the refusal names the first. -/
theorem ofRun_reportable [WideDecoders] :
    (∀ settings root run, Scan.Ran settings root run → Reportable run) ∧
    (∀ fs settings root clock watcher cancelled run,
      (Scan.run fs settings root clock watcher cancelled).run = .ok run → Reportable run) ∧
    (∀ fs path started finished run,
      CapturedLog.convert fs path started finished = .ok run → Reportable run) ∧
    (∀ run guid, (∃ failure, Log.ofRun run guid = .error failure) ↔
      ∃ finding ∈ run.results.diagnostics, run.ruleSet.describe? finding.rule = none) ∧
    ∀ run guid failure, Log.ofRun run guid = .error failure → ∃ before stray after,
      run.results.diagnostics = before ++ stray :: after ∧
      (∀ finding ∈ before, run.ruleSet.describe? finding.rule ≠ none) ∧
      run.ruleSet.describe? stray.rule = none ∧
      failure = .configuration
        s!"rule {stray.rule.id} is not registered for tool '{run.ruleSet.toolName}'" := by
  refine ⟨?scans, ?scan, ?conversion, ?refused, ?first⟩
  case scans => exact fun settings root run hran => reportable_of_finds hran.finds
  case scan =>
    intro fs settings root clock watcher cancelled run hrun
    exact reportable_of_finds (Scan.ran_run hrun).finds
  case conversion =>
    intro fs path started finished run hrun
    exact reportable_of_finds (CapturedLog.convert_finds hrun)
  case refused =>
    intro run guid
    constructor
    · rintro ⟨failure, hfailure⟩
      obtain ⟨before, stray, after, hsplit, -, hnone, -⟩ := ofRun_eq_error_iff.mp hfailure
      exact ⟨stray, by simp [hsplit], hnone⟩
    · rintro ⟨finding, hfinding, hnone⟩
      cases hstray : strayDiagnostic? run with
      | some stray => exact ⟨_, by rw [Log.ofRun, hstray]⟩
      | none => exact absurd hnone (by simpa using List.find?_eq_none.mp hstray finding hfinding)
  case first => exact fun run guid failure hfailure => ofRun_eq_error_iff.mp hfailure

/-- A tree with a file. -/
def lintedTree (content : List UInt8) : FileSystem :=
  ⟨.directory [("lint.log".toUTF8.toList, .file content)], [], []⟩

/-- A captured log that tells of one problem, which is only a warning. -/
def warningLog : List UInt8 := "a.xml:3: namespace warning : m\n<a>\n  ^".toUTF8.toList

/-- A run with findings of two rules that its tool does not describe. -/
def strayRun : Run :=
  let place : Location := ⟨"a.xml", 1, 1, none⟩
  ⟨.conversion, [], 0,
    { Results.empty with diagnostics :=
        [.ofRule .parserError "" place, .ofRule .missingScriptFile "" place,
          .ofRule .notWellFormed "" place] },
    ⟨0, 0⟩, ⟨0, 0⟩⟩

attribute [local instance] WideDecoders.asciiOnly

theorem ofRun_reportable_linted :
    (∃ run, CapturedLog.convert (lintedTree warningLog) (.ofString "/lint.log") ⟨0, 0⟩ ⟨0, 0⟩ =
        .ok run ∧
      run.results.diagnostics = [.ofRule .otherError "m" ⟨"a.xml", 3, 3, none⟩] ∧
      Reportable run) ∧
    (∃ run, (Scan.run Scan.sideBySide ⟨.documents, .documents, 2⟩ ⟨[Path.slash]⟩
        { started := ⟨0, 0⟩, finished := ⟨0, 0⟩ } .patient false).run = .ok run ∧
      run.files = Scan.twoFiles ∧ Reportable run) ∧
    (∃ failure, Log.ofRun strayRun nilUuid = .error failure) ∧
    Log.ofRun strayRun nilUuid = .error (.configuration
      "rule MISSING-SCRIPT-FILE is not registered for tool 'xmllint'") := by
  have hcontent : ∀ content,
      (lintedTree content).contentOf (.ofString "/lint.log") = .ok content := by
    intro content
    cbv
  have hparse : CapturedLog.parse (Utf8.decodeLossy warningLog) =
      [.ofRule .otherError "m" ⟨"a.xml", 3, 3, none⟩] := by decide +kernel
  have hconvert : ∃ run,
      CapturedLog.convert (lintedTree warningLog) (.ofString "/lint.log") ⟨0, 0⟩ ⟨0, 0⟩ = .ok run ∧
        run.results.diagnostics = [.ofRule .otherError "m" ⟨"a.xml", 3, 3, none⟩] :=
    ⟨_, by rw [CapturedLog.convert, hcontent], hparse⟩
  have hdiscover : Discovery.discover Scan.sideBySide .documents ⟨[Path.slash]⟩ =
      .ok (Scan.twoFiles, []) := by cbv
  obtain ⟨-, hscan, hconversion, hrefused, -⟩ := ofRun_reportable
  obtain ⟨run, hrun, hfindings⟩ := hconvert
  refine ⟨⟨run, hrun, hfindings, hconversion _ _ _ _ run hrun⟩, ?_, ?_, rfl⟩
  · have hfind : Scan.findFiles Scan.sideBySide ⟨.documents, .documents, 2⟩ ⟨[Path.slash]⟩ =
        .ok ((Scan.twoFiles, Scan.twoFiles), []) := by
      rw [Scan.findFiles, hdiscover]
      rfl
    have hscanned : ∃ run, (Scan.run Scan.sideBySide ⟨.documents, .documents, 2⟩ ⟨[Path.slash]⟩
        { started := ⟨0, 0⟩, finished := ⟨0, 0⟩ } .patient false).run = .ok run ∧
          run.files = Scan.twoFiles := by
      simp only [Scan.run, hfind]
      exact ⟨_, rfl, rfl⟩
    obtain ⟨scanned, hrun, hfiles⟩ := hscanned
    exact ⟨scanned, hrun, hfiles, hscan _ _ _ _ _ _ scanned hrun⟩
  · exact (hrefused strayRun nilUuid).mpr
      ⟨.ofRule .missingScriptFile "" ⟨"a.xml", 1, 1, none⟩, by simp [strayRun], by decide⟩

end Report

end FormsAudit
