import FormsAudit.Proofs.Discovery.Unlisted
import FormsAudit.Proofs.Scan.Agreement
import FormsAudit.Proofs.Scan.Tally

/-!
# A scan done again after a file is written

What a scan that no one cancels comes to is what the reference says (`reference_eq_of_scans`), and
the reference reads the tree through its walks and through the documents that these find.  A file
that is written where no walk lists it changes neither (`reference_eq_of_writeFile`).
-/

namespace FormsAudit.Scan

open Discovery

variable {fs before after : FileSystem} {settings : Settings} {root path : Path} {run other : Run}

variable [WideDecoders]

theorem exists_root_of_scans (hproper : fs.root.Proper) (h : Scans fs settings root run) :
    ∃ names entries, IsReadableDirectory fs root names entries := by
  obtain ⟨-, -, hfirst, hdocuments⟩ := h
  obtain ⟨names, others, hothers⟩ := exists_root_of_discover hdocuments
  exact ⟨names, hothers.of_relisted hfirst hproper⟩

/-- **A scan that no one cancels comes to what the reference says.** -/
theorem reference_eq_of_scans (hproper : fs.root.Proper) (h : Scans fs settings root run) :
    reference fs settings.documents settings.scripts root = .ok (Summary.ofRun run) := by
  obtain ⟨names, entries, hroot⟩ := exists_root_of_scans hproper h
  obtain ⟨started, finished, hfirst, hdocuments, hsecond, hscripts, hthird, hplay, hdone, hmoves,
    hnotices⟩ := h
  obtain ⟨files, _, _, hfiles, -⟩ := discover_relisted settings.documents (.refl fs) hproper hroot
  obtain ⟨found, _, _, hfound, -⟩ := discover_relisted settings.scripts (.refl fs) hproper hroot
  obtain rfl := files_eq_of_relisted hfirst hproper hroot hfiles hdocuments
  obtain rfl := files_eq_of_relisted hsecond hproper hroot hfound hscripts
  obtain ⟨hstatuses, hdiagnostics⟩ := results_of_moves hplay hdone hmoves hnotices
  rw [auditAlone_relisted hthird hproper] at hstatuses hdiagnostics
  rw [reference, hfiles, hfound, Summary.ofRun, Run.exitCode, Results.hasErrors, hstatuses,
    hdiagnostics]
  rfl

/-- A scan with a watcher who lets it go on is one that no one cancels. -/
theorem scans_of_run {clock : Clock} {watcher : Watcher}
    (hwatcher : ∀ progress, watcher progress = false)
    (h : (Scan.run fs settings root clock watcher false).run = .ok run) :
    Scans fs settings root run := by
  cases hdocuments : discover fs settings.documents root with
  | error fault => simp [Scan.run, findFiles, hdocuments, bind, Except.bind] at h
  | ok documents =>
    cases hscripts : discover fs settings.scripts root with
    | error fault => simp [Scan.run, findFiles, hdocuments, hscripts, bind, Except.bind] at h
    | ok scripts =>
      obtain ⟨found, hfound, hscans⟩ := scans_run (.refl fs) hdocuments hscripts clock hwatcher
      exact Except.ok.inj (hfound.symm.trans h) ▸ hscans

theorem ruleSet_of_scans (h : Scans fs settings root run) : run.ruleSet = .scan := by
  cases h
  rfl

/-- Scans with the same summary could read as many of their files. -/
theorem unreadableFiles_eq_of_scans {fs' : FileSystem} {settings' : Settings}
    (h : Scans fs settings root run) (hother : Scans fs' settings' root other)
    (hsummary : Summary.ofRun other = Summary.ofRun run) :
    other.results.unreadableFiles = run.results.unreadableFiles := by
  have hcount : ∀ {fs settings run}, Scans fs settings root run →
      run.results.unreadableFiles = (Summary.ofRun run).statuses.countP isUnreadable := by
    rintro fs settings run ⟨⟩
    rw [Summary.ofRun, List.countP_map]
    exact (counted_merge _).unreadable
  rw [hcount h, hcount hother, hsummary]

/-! ## After a write -/

section Written

variable {documents scripts : Selection} {content : List UInt8} {start : List EntryName}
  {entries : List (EntryName × Node)}

/-- **The reference says the same after a file is written that no walk lists.** -/
theorem reference_eq_of_writeFile (hlinks : documents.followLinks = false)
    (hlinks' : scripts.followLinks = false) (hproper : before.root.Proper)
    (hroot : IsReadableDirectory before root start entries)
    (hwrite : before.writeFile path content = .ok after)
    (hunlisted : ∀ place, before.place path = .ok place →
      Unlisted before documents root place.names ∧ Unlisted before scripts root place.names) :
    reference after documents scripts root = reference before documents scripts root := by
  have hdocuments := fun place hplace => (hunlisted place hplace).1
  have hscripts := fun place hplace => (hunlisted place hplace).2
  obtain ⟨files, skipped, _, hfiles, hfiles'⟩ :=
    discover_unlisted hlinks hproper hroot hwrite hdocuments
  obtain ⟨found, _, _, hfound, hfound'⟩ :=
    discover_unlisted hlinks' hproper hroot hwrite hscripts
  have haudits : ∀ index,
      files.map (auditAlone after index) = files.map (auditAlone before index) := by
    intro index
    apply List.map_congr_left
    intro file hfile
    have hread := read_eq_of_discover hlinks hproper hroot hwrite hdocuments hfiles file hfile
    rw [auditAlone, auditAlone, auditFile, auditFile, hread]
  rw [reference, reference, hfiles, hfiles', hfound, hfound']
  simp only [bind, Except.bind, haudits]

end Written

end FormsAudit.Scan
