import FormsAudit.Proofs.Pool.Noticed
import FormsAudit.Proofs.Scan.Tally

/-!
# What a watcher is told of a scan

A watcher is told that the files are looked for, that the scripts are indexed, of each file once when
it is finished, and that the scan has ended (`Announces`).  The files may be finished in any order, and
a watcher may be told of them in another one than that in which they were counted; but the places are
the numbers up to the number of files.  It makes no difference what came of a file, nor whether the
watcher or someone else cancels the scan (`notices_of_watched`).
-/

namespace FormsAudit.Scan

/-- A scan of which the watcher is told can come to the record.  The tree may have changed each time
that it is looked at, the run may be cancelled before the audit, by a move or by the watcher, and the
tasks take their steps in some order. -/
inductive Watched [WideDecoders]
    (settings : Settings) (root : Path) (watcher : Watcher) : Record → Prop
  | intro {first second third : FileSystem} {documents scripts : List FileReference}
      {skipped passed : List SkippedEntry} {cancelled : Bool} {moves : List Pool.Move}
      {pool : Pool FileReference Outcome} (warnings : List Warning) (clock : Clock) :
      Discovery.discover first settings.documents root = .ok (documents, skipped) →
      Discovery.discover second settings.scripts root = .ok (scripts, passed) →
      (Pool.start settings.limit cancelled documents).play?
          (work third (ScriptIndex.ofFiles scripts).1 clock.spent watcher documents.length) moves =
        some pool →
      pool.isDone = true →
      Watched settings root watcher
        (conclude documents scripts warnings clock watcher (.ofPool pool))

/-- The notices are those of a scan of the files, `told` being those of the files themselves. -/
structure Announces (files : List FileReference) (notices told : List Progress) : Prop where
  notices_eq : notices = ⟨.discovery, none, 0, 0⟩ :: ⟨.indexing, none, 0, files.length⟩ ::
    (told ++ [⟨.complete, none, files.length, files.length⟩])
  phase : ∀ notice ∈ told, notice.phase = .validation ∧ notice.total = files.length
  /-- There is one notice for each file, which names it. -/
  names : (told.map (·.file)).Perm (files.map fun file => some file.relative)
  /-- The files are counted from one on. -/
  places : (told.map (·.completed)).Perm (List.range' 1 files.length)

namespace Announces

variable {files : List FileReference} {notices told : List Progress}

theorem length_told (h : Announces files notices told) : told.length = files.length := by
  simpa using h.names.length_eq

theorem length_eq (h : Announces files notices told) : notices.length = files.length + 3 := by
  simp [h.notices_eq, h.length_told]

end Announces

section Pools

variable [WideDecoders] {fs : FileSystem} {index : ScriptIndex} {spent : FileReference → Duration}
  {watcher : Watcher} {limit : Nat} {cancelled : Bool} {files : List FileReference}
  {moves : List Pool.Move} {pool : Pool FileReference Outcome}
  (hplay : (Pool.start limit cancelled files).play?
    (work fs index spent watcher files.length) moves = some pool)
  (hdone : pool.isDone = true)

include hplay hdone

/-- There is a result for each file, whatever has come of it. -/
theorem map_file_fileResults :
    (Validation.ofPool pool).results.fileResults.map (·.file) = files.map (·.relative) := by
  obtain ⟨skipped, hblocks⟩ := exists_blocks hplay hdone
  show (merge pool.outcomes).fileResults.map (·.file) = files.map (·.relative)
  rw [fileResults_merge, hblocks, List.map_map]
  exact map_file_blocks skipped

theorem totalFiles_ofPool : (Validation.ofPool pool).results.totalFiles = files.length := by
  have hlength := congrArg List.length (map_file_fileResults hplay hdone)
  rw [List.length_map, List.length_map] at hlength
  exact (counted_merge pool.outcomes).total.trans hlength

/-- The notices of a finished pool are those of its files. -/
theorem announces_ofPool :
    Announces files
      (.starting :: .indexing files.length :: ((Validation.ofPool pool).notices ++
        [.ended files.length]))
      (Validation.ofPool pool).notices := by
  have hplayed := Pool.played_iff.mpr hplay
  obtain ⟨hnames, hplaces⟩ := Pool.notices_of_isDone hplayed hdone
  have htotal : pool.tasks.length = files.length := by
    rw [← List.length_map (f := Prod.fst), hplayed.jobs_of_start]
  constructor
  case notices_eq => rfl
  case phase =>
    intro notice hnotice
    obtain ⟨⟨file, place⟩, -, rfl⟩ := List.mem_map.mp hnotice
    exact ⟨rfl, htotal⟩
  case names =>
    have hfiles : (Validation.ofPool pool).notices.map (·.file) =
        (pool.notices.map Prod.fst).map fun file => some file.relative := by
      simp [Validation.ofPool, Progress.ofFile, Function.comp_def]
    rw [hfiles]
    exact hnames.map _
  case places =>
    have hcompleted : (Validation.ofPool pool).notices.map (·.completed) =
        pool.notices.map Prod.snd := by
      simp [Validation.ofPool, Progress.ofFile, Function.comp_def]
    rw [hcompleted]
    exact hplaces

end Pools

/-- What a watched scan gives is one of the records that it can come to. -/
theorem watched_run [WideDecoders]
    {fs : FileSystem} {settings : Settings} {root : Path} {clock : Clock}
    {watcher : Watcher} {cancelled : Bool} {run : Run}
    (h : (Scan.run fs settings root clock watcher cancelled).run = .ok run) :
    Watched settings root watcher (Scan.run fs settings root clock watcher cancelled) := by
  unfold Scan.run at h ⊢
  split at h
  · cases h
  · rename_i documents scripts entries hfind
    obtain ⟨skipped, passed, hdocuments, hscripts⟩ := exists_discover_of_findFiles hfind
    obtain ⟨moves, -, hplay, hdone⟩ := Pool.exists_play?_run
      (work fs (ScriptIndex.ofFiles scripts).1 clock.spent watcher documents.length)
      settings.limit _ documents
    exact .intro _ clock hdocuments hscripts hplay hdone

/-- **A watcher is told of the beginning, of each file once and of the end**, whatever comes of the
files, in whatever order they are finished and whenever the scan is cancelled. -/
theorem notices_of_watched [WideDecoders] (settings : Settings) (root : Path) (watcher : Watcher) :
    (∀ record, Watched settings root watcher record → ∃ run told, record.run = .ok run ∧
      Announces run.files record.notices told ∧
      record.notices.length = run.files.length + 3 ∧
      (told.map (·.file)).Perm (run.results.fileResults.map fun result => some result.file)) ∧
    ∀ fs clock cancelled run, (Scan.run fs settings root clock watcher cancelled).run = .ok run →
      Watched settings root watcher (Scan.run fs settings root clock watcher cancelled) := by
  refine ⟨?_, fun _ _ _ _ h => watched_run h⟩
  rintro _ ⟨warnings, clock, -, -, hplay, hdone⟩
  rename_i documents scripts _ _ _ _ pool
  have hannounces : Announces documents
      (conclude documents scripts warnings clock watcher (.ofPool pool)).notices
      (Validation.ofPool pool).notices := by
    simpa only [conclude, totalFiles_ofPool hplay hdone] using announces_ofPool hplay hdone
  have hnames : (Validation.ofPool pool).results.fileResults.map (fun result => some result.file) =
      documents.map fun file => some file.relative := by
    simpa [Function.comp_def] using congrArg (List.map some) (map_file_fileResults hplay hdone)
  refine ⟨_, (Validation.ofPool pool).notices, rfl, hannounces, hannounces.length_eq, ?_⟩
  exact hnames ▸ hannounces.names

/-- The second file is finished first, but the watcher is told of the first one before.  The run is
cancelled when the second file is being audited and the first is not yet. -/
def overtaking : List Pool.Move :=
  [.advance 0, .advance 1, .advance 1, .cancel] ++ List.replicate 3 (.advance 1) ++
    List.replicate 4 (.advance 0) ++ [.advance 1]

attribute [local instance] WideDecoders.asciiOnly

theorem notices_of_watched_overtaking :
    ∃ record, Watched ⟨.documents, .documents, 2⟩ ⟨[Path.slash]⟩ .patient record ∧
      record.notices = [⟨.discovery, none, 0, 0⟩, ⟨.indexing, none, 0, 2⟩,
        ⟨.validation, some "a.xml", 2, 2⟩, ⟨.validation, some "b.xml", 1, 2⟩,
        ⟨.complete, none, 2, 2⟩] ∧
      ∃ run told, record.run = .ok run ∧ Announces run.files record.notices told := by
  let clock : Clock := { started := ⟨0, 0⟩, finished := ⟨0, 0⟩ }
  have hplay : ∃ pool, (Pool.start 2 false twoFiles).play?
      (work sideBySide (ScriptIndex.ofFiles twoFiles).1 clock.spent .patient twoFiles.length)
        overtaking = some pool ∧ pool.isDone = true ∧
      (Validation.ofPool pool).notices =
        [⟨.validation, some "a.xml", 2, 2⟩, ⟨.validation, some "b.xml", 1, 2⟩] :=
    ⟨_, rfl, rfl, rfl⟩
  obtain ⟨pool, hplay, hdone, hnotices⟩ := hplay
  have hwatched : Watched ⟨.documents, .documents, 2⟩ ⟨[Path.slash]⟩ .patient
      (conclude twoFiles twoFiles [] clock .patient (.ofPool pool)) :=
    .intro [] clock discover_sideBySide discover_sideBySide hplay hdone
  obtain ⟨run, told, hrun, hannounces, -, -⟩ :=
    (notices_of_watched ⟨.documents, .documents, 2⟩ ⟨[Path.slash]⟩ .patient).1 _ hwatched
  refine ⟨_, hwatched, ?_, run, told, hrun, hannounces⟩
  simp only [conclude, hnotices, totalFiles_ofPool hplay hdone]
  rfl

end FormsAudit.Scan
