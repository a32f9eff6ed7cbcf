import FormsAudit.Proofs.Discovery.Agreement
import FormsAudit.Proofs.Pool.InOrder
import FormsAudit.Proofs.Scan.Validation

/-!
# Scans agree

A scan meets three things that no one decides: the order in which directories list their entries,
the number of files that are audited at a time and the order in which the tasks take their steps.
`Scans` relates a file system to every run that some such order leads to.  `reference` is a scan
told one step after the other, with none of this in it.  All runs are summed up by the reference
(`scans_agree`), and what `Scan.run` gives is one of them (`scans_run`).
-/

namespace FormsAudit.Scan

/-! ## The reference -/

/-- What a run comes to, times left out. -/
structure Summary where
  files : List FileReference
  scriptCount : Nat
  statuses : List Status
  diagnostics : List Diagnostic
  exitCode : Nat
  deriving DecidableEq, Repr

/-- The summary of a run. -/
def Summary.ofRun (run : Run) : Summary :=
  ⟨run.files, run.scriptCount, run.results.fileResults.map (·.status), run.results.diagnostics,
    run.exitCode⟩

section

variable [WideDecoders]

/-- The status of a file, and its findings; one finding says that it cannot be read. -/
def auditAlone (fs : FileSystem) (index : ScriptIndex) (file : FileReference) :
    Status × List Diagnostic :=
  match auditFile fs index file with
  | .ok diagnostics => (Outcome.statusOf diagnostics.length, diagnostics)
  | .error error =>
    let finding := Diagnostic.unreadableFile file.relative (Failure.system error).message
    (.unreadable finding.message, [finding])

/-- The scan told in order: the documents and the scripts are found, the scripts are indexed and the
documents are audited one after the other. -/
def reference (fs : FileSystem) (documents scripts : Selection) (root : Path) :
    Except DiscoveryFault Summary := do
  let (files, _) ← Discovery.discover fs documents root
  let (scripts, _) ← Discovery.discover fs scripts root
  let audits := files.map (auditAlone fs (ScriptIndex.ofFiles scripts).1)
  let diagnostics := audits.flatMap (·.2)
  return ⟨files, scripts.length, audits.map (·.1), diagnostics,
    if diagnostics.any (·.isError) then 1 else 0⟩

/-! ## Scans in any order -/

/-- A scan that no one cancels can lead to the run.  Its tasks take their steps in some order, and
each time that the tree is looked at its directories list their entries in some order. -/
inductive Scans (fs : FileSystem) (settings : Settings) (root : Path) : Run → Prop
  | intro {first second third : FileSystem} {documents scripts : List FileReference}
      {skipped passed : List SkippedEntry} {spent : FileReference → Duration} {watcher : Watcher}
      {moves : List Pool.Move} {pool : Pool FileReference Outcome}
      (started finished : Timestamp) :
      fs.Relisted first → Discovery.discover first settings.documents root =
        .ok (documents, skipped) →
      fs.Relisted second → Discovery.discover second settings.scripts root =
        .ok (scripts, passed) →
      fs.Relisted third →
      (Pool.start settings.limit false documents).play?
          (work third (ScriptIndex.ofFiles scripts).1 spent watcher documents.length) moves =
        some pool →
      pool.isDone = true → .cancel ∉ moves →
      (∀ notice ∈ (Validation.ofPool pool).notices, watcher notice = false) →
      Scans fs settings root
        ⟨.scan, documents, scripts.length, (Validation.ofPool pool).results, started, finished⟩

variable {fs other : FileSystem} {settings : Settings} {root : Path}

/-- A scan that no one cancels is one of those in some order. -/
theorem scans_run {documents scripts : List FileReference} {skipped passed : List SkippedEntry}
    (hrelisted : fs.Relisted other)
    (hdocuments : Discovery.discover other settings.documents root = .ok (documents, skipped))
    (hscripts : Discovery.discover other settings.scripts root = .ok (scripts, passed))
    (clock : Clock) {watcher : Watcher} (hwatcher : ∀ progress, watcher progress = false) :
    ∃ run, (Scan.run other settings root clock watcher false).run = .ok run ∧
      Scans fs settings root run := by
  have hfind : findFiles other settings root = .ok ((documents, scripts), skipped ++ passed) := by
    rw [findFiles, hdocuments, hscripts]
    rfl
  obtain ⟨moves, hmoves, hplay, hdone⟩ := Pool.exists_play?_run
    (work other (ScriptIndex.ofFiles scripts).1 clock.spent watcher documents.length)
    settings.limit false documents
  refine ⟨_, ?_, .intro clock.started clock.finished hrelisted hdocuments hrelisted hscripts
    hrelisted hplay hdone hmoves fun notice _ => hwatcher notice⟩
  simp only [Scan.run, hwatcher, Bool.or_self, hfind, conclude, validate]

theorem blocks_empty (fs : FileSystem) (index : ScriptIndex) (spent : FileReference → Duration)
    (files : List FileReference) :
    blocks fs index spent files ∅ = files.map (Outcome.ofFile fs index spent) := by
  apply List.ext_getElem?
  intro place
  simp only [blocks, Finset.notMem_empty, if_false, List.getElem?_map, List.getElem?_zipIdx,
    Option.map_map]
  rfl

theorem auditAlone_eq (fs : FileSystem) (index : ScriptIndex) (spent : FileReference → Duration)
    (file : FileReference) :
    auditAlone fs index file =
      ((Outcome.ofFile fs index spent file).result.status,
        (Outcome.ofFile fs index spent file).diagnostics) := by
  unfold auditAlone Outcome.ofFile
  cases auditFile fs index file <;> rfl

/-- An audit reads a file by its path, and that is all it asks of the tree. -/
theorem auditAlone_relisted (h : fs.Relisted other) (hproper : fs.root.Proper) :
    auditAlone other = auditAlone fs := by
  funext index file
  unfold auditAlone auditFile
  rw [FileSystem.read_relisted h hproper]

/-- The results of tasks that no one cancelled are those of the files audited one by one. -/
theorem results_of_moves {documents : List FileReference} {index : ScriptIndex}
    {spent : FileReference → Duration} {watcher : Watcher} {moves : List Pool.Move}
    {pool : Pool FileReference Outcome} {limit : Nat}
    (hplay : (Pool.start limit false documents).play?
      (work fs index spent watcher documents.length) moves = some pool)
    (hdone : pool.isDone = true) (hmoves : .cancel ∉ moves)
    (hnotices : ∀ notice ∈ (Validation.ofPool pool).notices, watcher notice = false) :
    (Validation.ofPool pool).results.fileResults.map (·.status) =
        (documents.map (auditAlone fs index)).map (·.1) ∧
      (Validation.ofPool pool).results.diagnostics =
        (documents.map (auditAlone fs index)).flatMap (·.2) := by
  have hplayed := Pool.played_iff.mpr hplay
  have hblocks : pool.outcomes = blocks fs index spent documents ∅ := by
    apply outcomes_eq_blocks hplayed hdone
    intro place
    apply iff_of_false (Finset.notMem_empty place)
    exact not_looksAfterCancel hplayed rfl hmoves hnotices
  have hresults : (Validation.ofPool pool).results = merge pool.outcomes := rfl
  rw [hresults, fileResults_merge, diagnostics_merge, hblocks, blocks_empty]
  simp [List.flatMap_map, auditAlone_eq fs index spent, Function.comp_def]

/-! ## Agreement -/

/-- **All scans agree with the reference.**  It does not matter in which order the directories list
their entries, how many files are audited at a time or in which order the tasks take steps. -/
theorem scans_agree {documents scripts : Selection} (hproper : fs.root.Proper)
    {names : List EntryName} {entries : List (EntryName × Node)}
    (hroot : Discovery.IsReadableDirectory fs root names entries) :
    ∃ summary, reference fs documents scripts root = .ok summary ∧ ∀ limit,
      (∀ run, Scans fs ⟨documents, scripts, limit⟩ root run → Summary.ofRun run = summary) ∧
      ∀ other clock watcher, fs.Relisted other → (∀ progress, watcher progress = false) →
        ∃ run, (Scan.run other ⟨documents, scripts, limit⟩ root clock watcher false).run = .ok run ∧
          Scans fs ⟨documents, scripts, limit⟩ root run := by
  obtain ⟨files, _, _, hfiles, -⟩ :=
    Discovery.discover_relisted documents (.refl fs) hproper hroot
  obtain ⟨found, _, _, hfound, -⟩ :=
    Discovery.discover_relisted scripts (.refl fs) hproper hroot
  refine ⟨_, by rw [reference, hfiles, hfound]; rfl, fun limit => ⟨?_, ?_⟩⟩
  · intro run hrun
    obtain ⟨started, finished, hfirst, hdocuments, hsecond, hscripts, hthird, hplay, hdone, hmoves,
      hnotices⟩ := hrun
    obtain rfl := Discovery.files_eq_of_relisted hfirst hproper hroot hfiles hdocuments
    obtain rfl := Discovery.files_eq_of_relisted hsecond hproper hroot hfound hscripts
    obtain ⟨hstatuses, hdiagnostics⟩ := results_of_moves hplay hdone hmoves hnotices
    simp only [auditAlone_relisted hthird hproper] at hstatuses hdiagnostics
    simp only [Summary.ofRun, Run.exitCode, Results.hasErrors, hstatuses, hdiagnostics]
  · intro other clock watcher hrelisted hwatcher
    obtain ⟨_, _, skipped, -, hdocuments, -⟩ :=
      Discovery.discover_relisted documents hrelisted hproper hroot
    obtain ⟨_, _, passed, -, hscripts, -⟩ :=
      Discovery.discover_relisted scripts hrelisted hproper hroot
    exact scans_run hrelisted hdocuments hscripts clock hwatcher

end

attribute [local instance] WideDecoders.asciiOnly

theorem scans_agree_sideBySide :
    sideBySide.root.Proper ∧
      (∃ entries, Discovery.IsReadableDirectory sideBySide ⟨[Path.slash]⟩ [] entries) ∧
      ∃ summary, reference sideBySide .documents .documents ⟨[Path.slash]⟩ = .ok summary ∧
        ∀ limit run, Scans sideBySide ⟨.documents, .documents, limit⟩ ⟨[Path.slash]⟩ run →
          Summary.ofRun run = summary := by
  have hproper : sideBySide.root.Proper := by
    refine .directory (by decide +kernel) ?_ ?_
    · simp only [List.forall_mem_cons]
      exact ⟨by constructor <;> decide +kernel, by constructor <;> decide +kernel, by simp⟩
    · simp only [List.forall_mem_cons]
      exact ⟨.file _, .file _, by simp⟩
  have hroot : ∃ entries,
      Discovery.IsReadableDirectory sideBySide ⟨[Path.slash]⟩ [] entries := by
    have hsteps : FileSystem.steps [Path.slash] = [.root] := by decide +kernel
    refine ⟨sideBySide.root.entries, ?_, rfl⟩
    simp [Node.entries, FileSystem.lookup, FileSystem.place, Path.isEmpty, FileSystem.pathLimit,
      FileSystem.origin, FileSystem.barrier?, hsteps, FileSystem.walk, sideBySide]
  obtain ⟨entries, hentries⟩ := hroot
  obtain ⟨summary, hsummary, hagree⟩ := scans_agree hproper hentries
  exact ⟨hproper, ⟨entries, hentries⟩, summary, hsummary, fun limit => (hagree limit).1⟩

end FormsAudit.Scan
