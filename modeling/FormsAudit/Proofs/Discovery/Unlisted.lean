import FormsAudit.Proofs.Discovery.Files

/-!
# A written file that no walk lists

A walk that follows no links finds the wanted files of one tree, each under the path that its names
make below the root (`exists_discover_eq_filter`).  A file that is written where none is wanted is
not among them, neither before the write nor after it, and the write changes nothing on the way to
any other (`comesTo_replace`).  So the same files are found in the tree before the write and after it
(`discover_unlisted`), and all of them can be read as before (`read_eq_of_discover`).
-/

namespace FormsAudit.Discovery

open FileSystem

variable {selection : Selection} {root path : Path} {below start place : List EntryName}
  {entries : List (EntryName × Node)} {fs before after : FileSystem} {content old : List UInt8}

/-- No walk of the root without links lists a file at the place: under the path that leads there
from the root, it is not one of those wanted. -/
def Unlisted (fs : FileSystem) (selection : Selection) (root : Path) (place : List EntryName) :
    Prop :=
  ∀ start node below, fs.lookup root = .ok (start, node) → place = start ++ below →
    selection.accepts (.ofPath root (root.below below)) = false

/-! ## Walks before and after a write -/

section Filed

variable (hfiled : FiledAt place content before after)
  (hroot : IsReadableDirectory before root start entries)

include hfiled hroot

/-- The root is a directory before and after. -/
theorem exists_root_of_filedAt : ∃ others, IsReadableDirectory after root start others := by
  have hstart := find?_of_lookup hroot.1
  have hne : start ≠ place := fun heq => hfiled.fileOrNothing.ne_directory entries (heq ▸ hstart)
  have hleads := pathLeads_of_lookup (by decide) hroot.1
  obtain ⟨errno, hfirst, -⟩ | ⟨node, other, hfirst, hsecond, hface⟩ :=
    hfiled.lookup_of_pathLeads (show Manner.through ≠ .itself by decide) hleads hne
  · cases hroot.1.symm.trans hfirst
  · obtain ⟨-, rfl⟩ := Prod.mk.inj (Except.ok.inj (hroot.1.symm.trans hfirst))
    cases other with
    | directory others =>
      exact ⟨others, hsecond, by rw [accessAt_congr hfiled.agree.refusals]; exact hroot.2⟩
    | _ => cases hface

/-- The walk comes to a file after the write if it came there before. -/
theorem comesTo_replace (hproper : before.root.Proper)
    (hfound : before.root.find? (start ++ below) = some (.file old)) :
    comesTo after root start below = comesTo before root start below := by
  refine comesTo_congr hfiled.agree.refusals fun above habove hne => ?_
  obtain ⟨rest, rfl⟩ := habove
  have hrest : rest ≠ [] := by
    rintro rfl
    exact hne (List.append_nil above).symm
  rw [← List.append_assoc] at hfound
  obtain ⟨inner, hinner⟩ := exists_entries_of_find?_append hfound hrest
  have hbelow : (Node.directory entries).find? above = some (.directory inner) := by
    rwa [find?_append_of_lookup hroot.1] at hinner
  have hnames := (hproper.find? (find?_of_lookup hroot.1)).isName_of_find? hbelow
  have hleads := (pathLeads_of_lookup (by decide) hroot.1).below hnames hinner (by simp)
  exact hfiled.realFault?_eq hleads fun heq =>
    hfiled.fileOrNothing.ne_directory inner (heq ▸ hinner)

/-- **The wanted files are those that there were.** -/
theorem filter_filesOf_replace (hproper : before.root.Proper) (hproper' : after.root.Proper)
    (hunlisted : Unlisted before selection root place) {others : List (EntryName × Node)}
    (hroot' : IsReadableDirectory after root start others) :
    (filesOf before root start (.directory entries)).filter selection.accepts =
      (filesOf after root start (.directory others)).filter selection.accepts := by
  have hdirectory := hproper.find? (find?_of_lookup hroot.1)
  have hdirectory' := hproper'.find? (find?_of_lookup hroot'.1)
  refine filter_filesOf_congr hdirectory hdirectory' (isEmpty_of_lookup hroot.1) ?_
  intro file haccepts
  rw [mem_filesBelow_iff hdirectory, mem_filesBelow_iff hdirectory']
  refine exists_congr fun below => exists_congr fun old => ?_
  -- the file that was written is not wanted
  have hne : file = .ofPath root (root.below below) → start ++ below ≠ place := by
    rintro rfl heq
    rw [hunlisted start _ below hroot.1 heq.symm] at haccepts
    cases haccepts
  rw [← find?_append_of_lookup hroot.1, ← find?_append_of_lookup hroot'.1]
  constructor
  · rintro ⟨hfound, hcomes, rfl⟩
    rw [hfiled.agree.find?_eq_file_iff (hne rfl), comesTo_replace hfiled hroot hproper hfound]
    exact ⟨hfound, hcomes, rfl⟩
  · rintro ⟨hfound, hcomes, rfl⟩
    rw [hfiled.agree.find?_eq_file_iff (hne rfl)] at hfound
    rw [comesTo_replace hfiled hroot hproper hfound] at hcomes
    exact ⟨hfound, hcomes, rfl⟩

end Filed

section Written

variable (hlinks : selection.followLinks = false) (hproper : before.root.Proper)
  (hroot : IsReadableDirectory before root start entries)
  (hwrite : before.writeFile path content = .ok after)
  (hunlisted : ∀ place, before.place path = .ok place → Unlisted before selection root place.names)

include hlinks hproper hroot hwrite hunlisted

/-- **The files that are found are the same before the write and after it.** -/
theorem discover_unlisted : ∃ files skipped passed,
    discover before selection root = .ok (files, skipped) ∧
      discover after selection root = .ok (files, passed) := by
  obtain ⟨skipped, hbefore⟩ := exists_discover_eq_filter hlinks hproper hroot
  have hproper' := proper_of_writeFile hproper hwrite
  obtain ⟨-, -, place, hplace, -, ⟨hnode, rfl⟩ | ⟨-, rfl⟩⟩ := writeFile_eq_ok_iff.mp hwrite
  · have hfiled := filedAt_replace hplace hnode content
    obtain ⟨others, hroot'⟩ := exists_root_of_filedAt hfiled hroot
    obtain ⟨passed, hafter⟩ := exists_discover_eq_filter hlinks hproper' hroot'
    rw [← filter_filesOf_replace hfiled hroot hproper hproper' (hunlisted place hplace)
      hroot'] at hafter
    exact ⟨_, skipped, passed, hbefore, hafter⟩
  · exact ⟨_, skipped, skipped, hbefore, hbefore⟩

/-- **What is found can be read as before.** -/
theorem read_eq_of_discover {files : List FileReference} {skipped : List SkippedEntry}
    (hfiles : discover before selection root = .ok (files, skipped)) :
    ∀ file ∈ files, after.read file.path = before.read file.path := by
  intro file hfile
  obtain ⟨_, hbefore⟩ := exists_discover_eq_filter hlinks hproper hroot
  obtain ⟨rfl, -⟩ := Prod.mk.inj (Except.ok.inj (hfiles.symm.trans hbefore))
  have hdirectory := hproper.find? (find?_of_lookup hroot.1)
  obtain ⟨hlisted, haccepts⟩ := List.mem_filter.mp hfile
  obtain ⟨below, old, hfound, -, rfl⟩ := (mem_filesOf_iff hdirectory).mp hlisted
  obtain ⟨-, -, place, hplace, -, ⟨hnode, rfl⟩ | ⟨-, rfl⟩⟩ := writeFile_eq_ok_iff.mp hwrite
  · have hthere : before.root.find? (start ++ below) = some (.file old) := by
      rw [find?_append_of_lookup hroot.1, hfound]
    have hnames := hdirectory.isName_of_find? hfound
    have hleads := (pathLeads_of_lookup (by decide) hroot.1).below hnames hthere (by simp)
    refine (filedAt_replace hplace hnode content).read_eq hleads fun heq => ?_
    -- the file that was written is not wanted
    rw [hunlisted place hplace start _ below hroot.1 heq.symm] at haccepts
    cases haccepts
  · rfl

end Written

end FormsAudit.Discovery
