import FormsAudit.Proofs.Document.Findings
import FormsAudit.Proofs.Pool.InOrder
import FormsAudit.Proofs.Report.OfRun
import FormsAudit.Proofs.Scan.Validation
import Mathlib

/-!
# The accounts of a run

A run counts its files by how they fared, keeps the result of each file and lists all findings.  The
exit code is taken from the findings, by how grave they are, and the report says whether the scan was
successful by a count.  All of this agrees, for every run that a scan can come to (`scan_tallied`).

It is enough that each outcome agrees with itself: its findings are as many as its result says, and
all lie in its file (`Reported`).  The counts follow the results one by one (`Counted.add`), and since
every rule that a scan reports is an error (`FoundIn.isError`), there are errors exactly where there
are findings.
-/

namespace FormsAudit.Scan

open Document Markup

/-! ## The findings of a file -/

/-- The finding is one of a scan, as grave as its rule says, and lies in the file. -/
structure FoundIn (file : String) (finding : Diagnostic) : Prop where
  rule : finding.rule ∈ RuleSet.scan.emitted
  severity : finding.severity = finding.rule.defaultSeverity
  file : finding.location.file = file

theorem FoundIn.isError {file : String} {finding : Diagnostic} (h : FoundIn file finding) :
    finding.isError = true := by
  have herror : ∀ rule ∈ RuleSet.scan.emitted, rule.defaultSeverity = .error := by decide
  rw [Diagnostic.isError, h.severity, herror finding.rule h.rule]
  rfl

theorem foundIn_ofRule {file : String} {rule : Rule} (hrule : rule ∈ RuleSet.scan.emitted)
    (message : String) {location : Location} (hfile : location.file = file) :
    FoundIn file (.ofRule rule message location) :=
  ⟨hrule, rfl, hfile⟩

section Findings

variable {index : ScriptIndex} {file : String}

theorem foundIn_scriptFindings {location : Location} (hfile : location.file = file) (name : String)
    (value : Option String) :
    ∀ finding ∈ scriptFindings index location name value, FoundIn file finding := by
  intro finding hfinding
  unfold scriptFindings at hfinding
  cases value with
  | none =>
    rw [List.mem_singleton.mp hfinding]
    exact foundIn_ofRule (by decide) _ hfile
  | some value =>
    dsimp only at hfinding
    cases hresolve : index.resolve value with
    | found => simp [hresolve] at hfinding
    | missing =>
      rw [hresolve] at hfinding
      rw [List.mem_singleton.mp hfinding]
      exact foundIn_ofRule (by decide) _ hfile
    | casingMismatch canonical =>
      rw [hresolve] at hfinding
      rw [List.mem_singleton.mp hfinding]
      exact foundIn_ofRule (by decide) _ hfile

/-- All that an audit reports lies in the file that is audited. -/
theorem foundIn_audit [WideDecoders] {source : Source} {diagnostics : List Diagnostic}
    (haudit : audit file source index = .ok diagnostics) :
    ∀ finding ∈ diagnostics, FoundIn file finding := by
  intro finding hfinding
  rcases exists_of_mem_audit haudit hfinding with ⟨offset, name, -, value, hmem⟩ | ⟨failure, rfl⟩
  · exact foundIn_scriptFindings rfl name value finding hmem
  · exact foundIn_ofRule (by decide) _ rfl

end Findings

/-! ## The outcome of a file -/

/-- The findings are those that the result of a file speaks of: none where it was clean or passed
over, as many as it counts, or the one that says that it cannot be read. -/
structure Reported (result : FileResult) (findings : List Diagnostic) : Prop where
  foundIn : ∀ finding ∈ findings, FoundIn result.file finding
  agrees : match result.status with
    | .clean | .skipped _ => findings = []
    | .findings count => findings.length = count ∧ 0 < count
    | .unreadable message => ∃ finding, findings = [finding] ∧
        finding.rule = .unreadableFile ∧ finding.message = message ∧
        finding.location = ⟨result.file, 1, 1, none⟩

theorem reported_skipped (file : FileReference) :
    Reported (Outcome.skipped file).result (Outcome.skipped file).diagnostics :=
  ⟨by simp [Outcome.skipped, Outcome.unaudited], rfl⟩

/-- A file that could not be read to the verdict is reported as such. -/
theorem reported_unread (file : FileReference) (spent : Duration) (details : String) :
    Reported (Outcome.unread file spent details).result
      (Outcome.unread file spent details).diagnostics := by
  refine ⟨?_, _, rfl, rfl, rfl, rfl⟩
  intro finding hfinding
  rw [List.mem_singleton.mp hfinding]
  exact foundIn_ofRule (by decide) _ rfl

/-- So is one whose audit, or the task of it, broke down. -/
theorem reported_broken (file : FileReference) (spent : Duration) (words : String) :
    Reported (Outcome.broken file spent words).result
      (Outcome.broken file spent words).diagnostics :=
  reported_unread file spent _

theorem reported_ofAudit {file : FileReference} {spent : Duration}
    {result : Except SystemError (List Diagnostic)}
    (hresult : ∀ diagnostics, result = .ok diagnostics →
      ∀ finding ∈ diagnostics, FoundIn file.relative finding) :
    Reported (Outcome.ofAudit file spent result).result
      (Outcome.ofAudit file spent result).diagnostics := by
  cases result with
  | error error => exact reported_unread file spent _
  | ok diagnostics =>
    refine ⟨hresult diagnostics rfl, ?_⟩
    simp only [Outcome.ofAudit, Outcome.statusOf]
    by_cases hnone : diagnostics.length = 0
    · rw [if_pos hnone]
      exact List.length_eq_zero_iff.mp hnone
    · rw [if_neg hnone]
      exact ⟨rfl, Nat.pos_of_ne_zero hnone⟩

section Blocks

variable {fs : FileSystem} {index : ScriptIndex} {spent : FileReference → Duration}
  {files : List FileReference}

variable [WideDecoders]

theorem reported_ofFile (file : FileReference) :
    Reported (Outcome.ofFile fs index spent file).result
      (Outcome.ofFile fs index spent file).diagnostics := by
  apply reported_ofAudit
  intro diagnostics hdiagnostics
  unfold auditFile at hdiagnostics
  split at hdiagnostics
  · cases hdiagnostics
  · exact foundIn_audit hdiagnostics

/-- Whichever files are passed over, each file has an outcome that agrees with itself. -/
theorem reported_blocks (skipped : Finset Nat) :
    ∀ outcome ∈ blocks fs index spent files skipped,
      Reported outcome.result outcome.diagnostics := by
  intro outcome houtcome
  obtain ⟨⟨file, place⟩, -, rfl⟩ := List.mem_map.mp houtcome
  dsimp only
  split
  · exact reported_skipped file
  · exact reported_ofFile file

theorem map_file_blocks (skipped : Finset Nat) :
    (blocks fs index spent files skipped).map (·.result.file) = files.map (·.relative) := by
  have hname : ∀ pair : FileReference × Nat,
      (if pair.2 ∈ skipped then Outcome.skipped pair.1
        else Outcome.ofFile fs index spent pair.1).result.file = pair.1.relative := by
    intro pair
    split
    · rfl
    · exact (alone_ofFile pair.1).1
  rw [blocks, List.map_map]
  calc files.zipIdx.map _
      = files.zipIdx.map (FileReference.relative ∘ Prod.fst) :=
        List.map_congr_left fun pair _ => hname pair
    _ = files.map (·.relative) := by rw [← List.map_map, List.zipIdx_map_fst]

end Blocks

/-! ## The counts -/

/-- Whether there are findings in the file. -/
def hasFindings : Status → Bool
  | .findings _ => true
  | _ => false

/-- Whether the file could not be read. -/
def isUnreadable : Status → Bool
  | .unreadable _ => true
  | _ => false

/-- Whether the file was not looked at. -/
def isSkipped : Status → Bool
  | .skipped _ => true
  | _ => false

/-- The counts are those of the results. -/
structure Counted (results : Results) : Prop where
  total : results.totalFiles = results.fileResults.length
  clean : results.cleanFiles = results.fileResults.countP (·.status = .clean)
  findings : results.filesWithFindings = results.fileResults.countP (hasFindings ·.status)
  unreadable : results.unreadableFiles = results.fileResults.countP (isUnreadable ·.status)
  skipped : results.skippedFiles = results.fileResults.countP (isSkipped ·.status)
  sum : results.totalFiles = results.cleanFiles + results.filesWithFindings +
    results.unreadableFiles + results.skippedFiles

theorem Counted.add {results : Results} (h : Counted results) (result : FileResult)
    (diagnostics : List Diagnostic) : Counted (results.add result diagnostics) := by
  obtain ⟨total, clean, findings, unreadable, skipped, sum⟩ := h
  obtain ⟨file, status, duration⟩ := result
  cases status <;> constructor <;>
    simp only [Results.add, List.length_append, List.length_singleton, List.countP_append,
      List.countP_singleton, total, clean, findings, unreadable, skipped] <;>
    first
    | rfl
    | omega

theorem counted_merge (outcomes : List Outcome) : Counted (merge outcomes) := by
  induction outcomes using List.reverseRecOn with
  | nil => constructor <;> rfl
  | append_singleton outcomes outcome ih =>
    rw [merge_concat]
    exact ih.add outcome.result outcome.diagnostics

/-- There is an error where a file has findings or cannot be read, and only there. -/
theorem any_isError_iff {results : List FileResult} {blocks : List (List Diagnostic)}
    (h : List.Forall₂ Reported results blocks) :
    blocks.flatten.any (·.isError) = true ↔
      0 < results.countP (hasFindings ·.status) + results.countP (isUnreadable ·.status) := by
  induction h with
  | nil => simp
  | @cons result findings results blocks hresult _ ih =>
    rw [List.flatten_cons, List.any_append, Bool.or_eq_true, ih, List.countP_cons, List.countP_cons]
    have hagrees := hresult.agrees
    cases hstatus : result.status with
    | clean | skipped =>
      rw [hstatus] at hagrees
      simp [hagrees, hasFindings, isUnreadable]
    | findings count =>
      rw [hstatus] at hagrees
      have hsome : findings.any (·.isError) = true := by
        obtain ⟨finding, hfinding⟩ := List.exists_mem_of_length_pos (hagrees.1 ▸ hagrees.2)
        exact List.any_eq_true.mpr ⟨finding, hfinding, (hresult.foundIn finding hfinding).isError⟩
      simp [hsome, hasFindings, isUnreadable]
    | unreadable message =>
      rw [hstatus] at hagrees
      have hsome : findings.any (·.isError) = true := by
        obtain ⟨finding, rfl, -⟩ := hagrees
        exact List.any_eq_true.mpr ⟨finding, List.mem_singleton_self finding,
          (hresult.foundIn finding (List.mem_singleton_self finding)).isError⟩
      simp [hsome, hasFindings, isUnreadable]

/-! ## Runs -/

/-- A scan can come to the run.  The tree may have changed each time that it is looked at, the run
may be cancelled from the start, by a move or by the watcher, and the tasks take their steps in some
order. -/
inductive Ran [WideDecoders] (settings : Settings) (root : Path) : Run → Prop
  | intro {first second third : FileSystem} {documents scripts : List FileReference}
      {skipped passed : List SkippedEntry} {spent : FileReference → Duration} {watcher : Watcher}
      {cancelled : Bool} {moves : List Pool.Move} {pool : Pool FileReference Outcome}
      (started finished : Timestamp) :
      Discovery.discover first settings.documents root = .ok (documents, skipped) →
      Discovery.discover second settings.scripts root = .ok (scripts, passed) →
      (Pool.start settings.limit cancelled documents).play?
          (work third (ScriptIndex.ofFiles scripts).1 spent watcher documents.length) moves =
        some pool →
      pool.isDone = true →
      Ran settings root
        ⟨.scan, documents, scripts.length, (Validation.ofPool pool).results, started, finished⟩

/-- The accounts of a run agree. -/
structure Tallied (run : Run) : Prop where
  counted : Counted run.results
  total : run.results.totalFiles = run.files.length
  files : run.results.fileResults.map (·.file) = run.files.map (·.relative)
  /-- The findings are those of the files, one after the other. -/
  findings : ∃ blocks, run.results.diagnostics = blocks.flatten ∧
    List.Forall₂ Reported run.results.fileResults blocks
  exitCode : run.exitCode = 1 ↔
    0 < run.results.filesWithFindings + run.results.unreadableFiles
  report : ∀ guid, ∃ log logged invocation, Report.Log.ofRun run guid = .ok log ∧
    log.runs = [logged] ∧ logged.invocations = [invocation] ∧
    (invocation.successful = false ↔ 0 < run.results.unreadableFiles)

/-- Results that are put together from outcomes that agree with themselves agree. -/
theorem tallied_merge {run : Run} {outcomes : List Outcome} (hset : run.ruleSet = .scan)
    (hresults : run.results = merge outcomes)
    (hreported : ∀ outcome ∈ outcomes, Reported outcome.result outcome.diagnostics)
    (hfiles : outcomes.map (·.result.file) = run.files.map (·.relative)) : Tallied run := by
  have hcounted : Counted run.results := hresults ▸ counted_merge outcomes
  have hnames : run.results.fileResults.map (·.file) = run.files.map (·.relative) := by
    rw [hresults, fileResults_merge, List.map_map]
    exact hfiles
  have hblocks : List.Forall₂ Reported run.results.fileResults
      (outcomes.map (·.diagnostics)) := by
    rw [hresults, fileResults_merge, List.forall₂_map_left_iff, List.forall₂_map_right_iff,
      List.forall₂_same]
    exact hreported
  have hdiagnostics : run.results.diagnostics = (outcomes.map (·.diagnostics)).flatten := by
    rw [hresults, diagnostics_merge, List.flatMap_def]
  have hemitted : ∀ diagnostic ∈ run.results.diagnostics,
      diagnostic.rule ∈ run.ruleSet.emitted := by
    intro diagnostic hmem
    rw [hresults, diagnostics_merge] at hmem
    obtain ⟨outcome, houtcome, hmem⟩ := List.mem_flatMap.mp hmem
    rw [hset]
    exact ((hreported outcome houtcome).foundIn diagnostic hmem).rule
  constructor
  case counted => exact hcounted
  case total =>
    rw [hcounted.total, ← List.length_map (f := FileResult.file), hnames, List.length_map]
  case files => exact hnames
  case findings => exact ⟨_, hdiagnostics, hblocks⟩
  case exitCode =>
    rw [hcounted.findings, hcounted.unreadable, ← any_isError_iff hblocks, ← hdiagnostics,
      Run.exitCode, Results.hasErrors]
    cases run.results.diagnostics.any (·.isError) <;> simp
  case report =>
    intro guid
    obtain ⟨log, hlog⟩ := Report.exists_ofRun_eq_ok guid hemitted
    obtain ⟨logged, hlogged, -, hinvocations, -⟩ := Report.exists_logged_of_ofRun hlog
    refine ⟨log, logged, _, hlog, hlogged, hinvocations, ?_⟩
    rw [decide_eq_false_iff_not, Nat.pos_iff_ne_zero]

/-- Each task that looks after the run is cancelled passes its file over, and the others audit
theirs. -/
theorem exists_blocks [WideDecoders]
    {fs : FileSystem} {index : ScriptIndex} {spent : FileReference → Duration}
    {watcher : Watcher} {limit : Nat} {cancelled : Bool} {files : List FileReference}
    {moves : List Pool.Move} {pool : Pool FileReference Outcome}
    (hplay : (Pool.start limit cancelled files).play?
      (work fs index spent watcher files.length) moves = some pool)
    (hdone : pool.isDone = true) :
    ∃ skipped, pool.outcomes = blocks fs index spent files skipped := by
  classical
  refine ⟨(Finset.range files.length).filter
    (LooksAfterCancel fs index spent watcher limit cancelled files moves),
    outcomes_eq_blocks (Pool.played_iff.mpr hplay) hdone fun place => ?_⟩
  rw [Finset.mem_filter, Finset.mem_range]
  exact and_iff_right_of_imp lt_length_of_looksAfterCancel

/-- The files that a scan finds are discovered, the documents and the scripts alike. -/
theorem exists_discover_of_findFiles {fs : FileSystem} {settings : Settings} {root : Path}
    {documents scripts : List FileReference} {entries : List SkippedEntry}
    (h : findFiles fs settings root = .ok ((documents, scripts), entries)) :
    ∃ skipped passed, Discovery.discover fs settings.documents root = .ok (documents, skipped) ∧
      Discovery.discover fs settings.scripts root = .ok (scripts, passed) := by
  unfold findFiles at h
  cases hdocuments : Discovery.discover fs settings.documents root with
  | error fault =>
    rw [hdocuments] at h
    cases h
  | ok found =>
    cases hscripts : Discovery.discover fs settings.scripts root with
    | error fault =>
      rw [hdocuments, hscripts] at h
      cases h
    | ok others =>
      rw [hdocuments, hscripts] at h
      cases h
      exact ⟨found.2, others.2, rfl, rfl⟩

/-- What a scan gives is one of the runs that it can come to. -/
theorem ran_run [WideDecoders] {fs : FileSystem} {settings : Settings} {root : Path} {clock : Clock}
    {watcher : Watcher} {cancelled : Bool} {run : Run}
    (h : (Scan.run fs settings root clock watcher cancelled).run = .ok run) :
    Ran settings root run := by
  unfold Scan.run at h
  split at h
  · cases h
  · rename_i documents scripts entries hfind
    obtain rfl := Except.ok.inj h
    obtain ⟨skipped, passed, hdocuments, hscripts⟩ := exists_discover_of_findFiles hfind
    obtain ⟨moves, -, hplay, hdone⟩ := Pool.exists_play?_run
      (work fs (ScriptIndex.ofFiles scripts).1 clock.spent watcher documents.length)
      settings.limit _ documents
    exact .intro clock.started clock.finished hdocuments hscripts hplay hdone

/-- **The accounts of every run agree.**  Of every run that a scan can come to, and so of each that
it gives: the counts are those of the results and add up to the files, the results name the files in
order, the findings are those of the results in order, the exit code tells whether there are any, and
the report whether all files could be read. -/
theorem scan_tallied [WideDecoders] (settings : Settings) (root : Path) :
    (∀ run, Ran settings root run → Tallied run) ∧
      ∀ fs clock watcher cancelled run,
        (Scan.run fs settings root clock watcher cancelled).run = .ok run →
          Ran settings root run ∧ Tallied run := by
  have htallied : ∀ run, Ran settings root run → Tallied run := by
    rintro _ ⟨started, finished, -, -, hplay, hdone⟩
    obtain ⟨skipped, hblocks⟩ := exists_blocks hplay hdone
    refine tallied_merge rfl (congrArg merge hblocks) (reported_blocks skipped) ?_
    exact map_file_blocks skipped
  exact ⟨htallied, fun fs clock watcher cancelled run h => ⟨ran_run h, htallied run (ran_run h)⟩⟩

/-- The second task is through with its file before the first has looked, and then the run is
cancelled. -/
def cancelledBetween : List Pool.Move :=
  List.replicate 6 (.advance 1) ++ .cancel :: List.replicate 5 (.advance 0)

/-- The two files are the documents of the tree. -/
theorem discover_sideBySide :
    Discovery.discover sideBySide .documents ⟨[Path.slash]⟩ = .ok (twoFiles, []) := by
  cbv

attribute [local instance] WideDecoders.asciiOnly

theorem scan_tallied_cancelledBetween :
    ∃ run, Ran ⟨.documents, .documents, 2⟩ ⟨[Path.slash]⟩ run ∧ run.files = twoFiles ∧
      run.results.fileResults.map (·.status) = [.skipped "run cancelled", .findings 1] ∧
      Tallied run := by
  let index := (ScriptIndex.ofFiles twoFiles).1
  let second : FileReference := ⟨"b.xml", .ofString "/b.xml"⟩
  have hplay : ∃ pool, (Pool.start 2 false twoFiles).play?
      (work sideBySide index (fun _ => .zero) .patient twoFiles.length) cancelledBetween =
        some pool ∧ pool.isDone = true ∧
        pool.outcomes = [.skipped ⟨"a.xml", .ofString "/a.xml"⟩,
          .ofFile sideBySide index (fun _ => .zero) second] :=
    ⟨_, rfl, rfl, rfl⟩
  obtain ⟨pool, hplay, hdone, houtcomes⟩ := hplay
  have hstatus : (Outcome.ofFile sideBySide index (fun _ => .zero) second).result.status =
      .findings 1 := by
    have hread : sideBySide.read second.path = .ok ("<b>".toUTF8.toList, none) := by cbv
    have haudit : audit second.relative (.ofBytes "<b>".toUTF8.toList Source.readLimit) index =
        .ok [.notWellFormed ⟨"b.xml", 1, 4, none⟩
          "unexpected end of file, element <b> is not closed"] := by
      decide +kernel
    have haudited : auditFile sideBySide index second =
        .ok [.notWellFormed ⟨"b.xml", 1, 4, none⟩
          "unexpected end of file, element <b> is not closed"] := by
      rw [auditFile, hread]
      exact haudit
    rw [Outcome.ofFile, haudited]
    rfl
  have hran : Ran ⟨.documents, .documents, 2⟩ ⟨[Path.slash]⟩
      ⟨.scan, twoFiles, twoFiles.length, (Validation.ofPool pool).results, ⟨0, 0⟩, ⟨0, 0⟩⟩ :=
    .intro ⟨0, 0⟩ ⟨0, 0⟩ discover_sideBySide discover_sideBySide hplay hdone
  have hresults : (Validation.ofPool pool).results.fileResults.map (·.status) =
      [.skipped "run cancelled", .findings 1] := by
    simp only [Validation.ofPool, fileResults_merge, houtcomes, List.map_cons, List.map_nil, hstatus]
    rfl
  obtain ⟨htallied, -⟩ := scan_tallied ⟨.documents, .documents, 2⟩ ⟨[Path.slash]⟩
  exact ⟨_, hran, rfl, hresults, htallied _ hran⟩

end FormsAudit.Scan
