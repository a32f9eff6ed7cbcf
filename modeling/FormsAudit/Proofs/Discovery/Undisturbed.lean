import FormsAudit.Proofs.Discovery.Files
import FormsAudit.Proofs.Discovery.Links

/-!
# Links disturb nothing

A walk that follows links begins as one that follows none, and what it finds later it adds
(`files_prefix_followRounds`).  So it finds again all that the other finds.  Every directory that is
really below the root has been listed by its own names when the first link is followed
(`mem_listing_of_real`), and no directory is listed twice: a link to it leads to nothing new, however
early it is sorted and wherever it lies.
-/

namespace FormsAudit.Discovery

open FileSystem

variable {fs other : FileSystem} {selection : Selection} {root : Path}
  {start below names : List EntryName} {node : Node} {entries inner : List (EntryName × Node)}
  {found : List Listed} {progress : Progress}

/-! ## What is found stays found -/

theorem files_prefix_visitLink (hproper : fs.root.Proper) (progress : Progress) (link : Path) :
    progress.files <+: (visitLink fs selection root progress link).files := by
  unfold visitLink
  split
  · exact List.prefix_rfl
  · rename_i names node hlookup
    rw [visitNode_eq _ _ _ _ _ _ (hproper.find? (find?_of_lookup hlookup))]
    exact List.prefix_append _ _

theorem files_prefix_foldl_visitLink (hproper : fs.root.Proper) (links : List Path)
    (progress : Progress) :
    progress.files <+: (links.foldl (visitLink fs selection root) progress).files := by
  induction links generalizing progress with
  | nil => exact List.prefix_rfl
  | cons link links ih => exact (files_prefix_visitLink hproper progress link).trans (ih _)

/-- The rounds take back nothing that has been found. -/
theorem files_prefix_followRounds (hproper : fs.root.Proper) (rounds : Nat) (progress : Progress) :
    progress.files <+: (followRounds fs selection root rounds progress).files := by
  induction rounds generalizing progress with
  | zero => exact List.prefix_rfl
  | succ rounds ih =>
    unfold followRounds
    split
    · exact List.prefix_rfl
    · exact (files_prefix_foldl_visitLink hproper _ { progress with links := [] }).trans (ih _)

/-! ## Directories that are really there -/

theorem eq_of_isReal {listed : Listed} (h : IsReal root start listed)
    (hnames : listed.names = start ++ below) : listed = ⟨start ++ below, root.below below⟩ := by
  obtain ⟨others, -, rfl⟩ := h
  obtain rfl := List.append_cancel_left hnames
  rfl

/-- The walk lists the directory at the names from the root: it comes there, and the directory has a
real path if it is not the root. -/
def Enters (fs : FileSystem) (root : Path) (start below : List EntryName) : Prop :=
  comesTo fs root start below = true ∧ (below = [] ∨ fs.realFault? (root.below below) = none)

/-- **Every directory really below the root that the walk lists is listed by its own names** before a
link is followed. -/
theorem mem_listing_of_real (hroot : fs.lookup root = .ok (start, .directory entries))
    (hproper : fs.root.Proper)
    (hsettled : Settled fs selection root start found [] progress)
    (hreal : ∀ listed ∈ listingOf root start found, IsReal root start listed)
    (hinner : (Node.directory entries).find? below = some (.directory inner))
    (henters : Enters fs root start below) :
    (⟨start ++ below, root.below below⟩ : Listed) ∈ listingOf root start found := by
  induction below using List.reverseRecOn generalizing inner with
  | nil =>
    rw [List.append_nil]
    exact List.mem_append_right found (List.mem_singleton_self _)
  | append_singleton below name ih =>
    obtain ⟨hcomes, hpath⟩ := henters
    obtain ⟨hcomesAbove, hpathAbove, hlists, hrefusal⟩ := (comesTo_concat below name).mp hcomes
    replace hpath : fs.realFault? (root.below (below ++ [name])) = none :=
      hpath.resolve_left (by simp)
    obtain ⟨others, hparent⟩ := exists_entries_of_find?_append hinner (List.cons_ne_nil name [])
    have hchild : others.lookup name = some (.directory inner) := by
      rw [← find?_concat name hparent, hinner]
    -- the directory above is listed, and so this one has been come to
    have hlisted := ih hparent ⟨hcomesAbove, hpathAbove⟩
    have hplace : fs.root.find? (start ++ below) = some (.directory others) := by
      rw [find?_append_of_lookup hroot, hparent]
    have hitem : (name, Node.directory inner) ∈ others :=
      (Node.lookup_eq_some_iff (hproper.find? hplace).nodup).mp hchild
    have hentry : Listed.entry fs ⟨start ++ below, root.below below⟩ (name, .directory inner) ∈
        entriesOf fs (listingOf root start found) := by
      refine List.mem_flatMap.mpr ⟨_, hlisted, ?_⟩
      rw [entries_eq _ hplace]
      exact List.mem_map_of_mem (List.mem_filter.mpr ⟨hitem, hlists⟩)
    have hvisited : start ++ below ++ [name] ∈ progress.visited := by
      refine hsettled.directories _ (List.mem_append_left _ hentry) _ ?_
      rw [Path.below_concat] at hpath
      simp [Entry.directory?, Entry.error?, Listed.entry, hrefusal, hpath]
    rw [List.append_assoc] at hvisited
    obtain ⟨listed, hmem, hnames⟩ := List.mem_map.mp (Explored.mem_names hsettled hvisited)
    exact eq_of_isReal (hreal listed hmem) hnames ▸ hmem

/-! ## What is found without links and through them -/

/-- What a walk through links finds, beside what is found without following any. -/
structure Undisturbed (fs : FileSystem) (wanted : FileReference → Bool) (root : Path)
    (start : List EntryName) (tree : Node) (files found : List FileReference) : Prop where
  /-- All that is found without links is found through them, in the same order. -/
  kept : files.Sublist found
  /-- A wanted file below the root to which the walk comes is found by its own names. -/
  real : ∀ below content, tree.find? below = some (.file content) →
    comesTo fs root start below = true →
      wanted (.ofPath root (root.below below)) = true → .ofPath root (root.below below) ∈ found
  /-- What is found in a directory that is really below the root, where the walk lists it, is found by
  no link to it. -/
  unlinked : ∀ file ∈ found, ∃ directory name place, Path.IsName name ∧
    file.path = directory.join ⟨name⟩ ∧ PathLeads fs directory place ∧
      ∀ below inner, place = start ++ below → tree.find? below = some (.directory inner) →
        Enters fs root start below → directory = root.below below

/-- The wanted files of the tree are found, whether links are followed or not. -/
theorem filesOf_sublist_explore (selection : Selection) (hproper : fs.root.Proper)
    (hroot : fs.lookup root = .ok (start, .directory entries)) :
    ((filesOf fs root start (.directory entries)).filter selection.accepts).Sublist
      ((explore fs selection root start entries).files.mergeSort FileReference.le) := by
  have hdirectory := hproper.find? (find?_of_lookup hroot)
  have hempty := isEmpty_of_lookup hroot
  have hbelow := below_explore selection hproper hroot
  have hprefix : (filesBelow fs root root start (.directory entries)).filter selection.accepts <+:
      (explore fs selection root start entries).files := by
    rw [explore_eq selection hproper hroot,
      ← files_gatherEntries fs selection root root start hdirectory]
    exact files_prefix_followRounds hproper _ (⟨claimed fs root start, [], [], []⟩ ++
      gatherEntries fs selection root root start [] entries)
  rw [← mergeSort_filter_filesBelow hdirectory hempty]
  exact sublist_mergeSort_cmp hprefix.sublist fun a ha b hb =>
    eq_of_order_eq_eq hempty (hbelow.files a ha) (hbelow.files b hb)

theorem undisturbed_explore (hfollow : selection.followLinks = true) (hproper : fs.root.Proper)
    (hroot : IsReadableDirectory fs root start entries) :
    Undisturbed fs selection.accepts root start (.directory entries)
      ((filesOf fs root start (.directory entries)).filter selection.accepts)
      ((explore fs selection root start entries).files.mergeSort FileReference.le) := by
  have hsublist := filesOf_sublist_explore selection hproper hroot.1
  have hempty := isEmpty_of_lookup hroot.1
  refine ⟨hsublist, ?real, ?unlinked⟩
  case real =>
    intro below content hfound hcomes haccepts
    refine hsublist.mem (List.mem_filter.mpr ⟨?_, haccepts⟩)
    exact (mem_filesOf_iff (hproper.find? (find?_of_lookup hroot.1))).mpr
      ⟨below, content, hfound, hcomes, rfl⟩
  case unlinked =>
    intro file hfile
    obtain ⟨found, hfirst, hreal⟩ := exists_settled_firstVisit selection hproper hroot
    have hrounds : fs.root.countDirectories ≤ fs.root.countDirectories + 1 + found.length := by
      omega
    obtain ⟨others, followed, hsettled, hlinks⟩ := hfirst.followRounds hproper hempty hrounds
    have hdiscovered := hsettled.discovered hproper hfollow hempty hlinks
    obtain ⟨-, entry, hentry, -, rfl⟩ := hdiscovered.reported file hfile
    obtain ⟨listed, name, hlisted, hname, hpath, -, -, -⟩ :=
      exists_listed_of_mem hproper hdiscovered.sound hentry
    refine ⟨listed.path, name, listed.names, hname, hpath, (hdiscovered.sound listed hlisted).leads,
      ?_⟩
    intro below inner hplace hinner henters
    -- the directory is listed by its own names, and it is listed once
    have hown := List.mem_append_right others
      (mem_listing_of_real hroot.1 hproper hfirst hreal hinner henters)
    rw [listingOf, ← List.append_assoc] at hown
    have heq := List.inj_on_of_nodup_map hdiscovered.nodup hlisted hown hplace
    rw [heq]

theorem map_fst_discover_relisted (selection : Selection) (root : Path) (hproper : fs.root.Proper)
    (h : fs.Relisted other) :
    (discover other selection root).map Prod.fst = (discover fs selection root).map Prod.fst := by
  rcases lookup_relisted h hproper root .through with
    ⟨errno, hfirst, hsecond⟩ | ⟨names, node, found, hfirst, hsecond, hnode⟩
  · unfold discover
    rw [hfirst, hsecond]
  · cases node with
    | directory entries =>
      cases hlisting : (fs.accessAt names).listing with
      | none =>
        obtain ⟨files, _, _, hfiles, hfound, -⟩ :=
          discover_relisted selection h hproper ⟨hfirst, hlisting⟩
        rw [hfiles, hfound]
        rfl
      | some listing =>
        obtain ⟨others, rfl⟩ := hnode.exists_entries
        unfold discover
        rw [hfirst, hsecond]
        dsimp only
        rw [accessAt_congr h.refusals, hlisting]
    | _ =>
      obtain rfl := hnode.eq_of_not_isDirectory rfl
      unfold discover
      rw [hfirst, hsecond]

/-- **Links disturb nothing.**  What is found without links is found through them as well, under the
same path; a file in a directory that is really below the root is found by its own names and by no
link to the directory.  The order in which directories list their entries changes nothing in what is
found. -/
theorem discover_undisturbed (selection : Selection) (root : Path) (hproper : fs.root.Proper) :
    (∀ files skipped,
      discover fs { selection with followLinks := false } root = .ok (files, skipped) →
        ∃ start entries found passed, fs.lookup root = .ok (start, .directory entries) ∧
          discover fs { selection with followLinks := true } root = .ok (found, passed) ∧
          Undisturbed fs selection.accepts root start (.directory entries) files found) ∧
      ∀ other, fs.Relisted other →
        (discover other { selection with followLinks := true } root).map Prod.fst =
          (discover fs { selection with followLinks := true } root).map Prod.fst := by
  refine ⟨?_, fun other h => map_fst_discover_relisted _ root hproper h⟩
  intro files skipped hfiles
  obtain ⟨start, entries, hroot⟩ := exists_root_of_discover hfiles
  have hlinks : Selection.followLinks { selection with followLinks := false } = false := rfl
  obtain ⟨_, hwithout⟩ := exists_discover_eq_filter hlinks hproper hroot
  obtain ⟨rfl, -⟩ := Prod.mk.inj (Except.ok.inj (hfiles.symm.trans hwithout))
  have hfound := discover_eq { selection with followLinks := true } hroot
  have hfollow : Selection.followLinks { selection with followLinks := true } = true := rfl
  exact ⟨start, entries, _, _, hroot.1, hfound, undisturbed_explore hfollow hproper hroot⟩

/-- A document in a directory to which a link leads that is sorted before it. -/
def aliasedEntries : List (EntryName × Node) :=
  [("alias".toUTF8.toList, .link "real".toUTF8.toList),
    ("real".toUTF8.toList, .directory [("x.xml".toUTF8.toList, .file [])])]

/-- The document, by its own names. -/
def aliasedDocument : FileReference := .ofPath (.ofString "/p") (.ofString "/p/real/x.xml")

theorem proper_treeOf_aliasedEntries : (treeOf aliasedEntries).root.Proper := by decide +kernel

theorem discover_undisturbed_aliasedEntries :
    let fs := treeOf aliasedEntries
    let other := treeOf aliasedEntries.reverse
    let root : Path := .ofString "/p"
    let through : Selection := { Selection.documents with followLinks := true }
    fs.root.Proper ∧ fs.Relisted other ∧
      discover fs .documents root = .ok ([aliasedDocument], []) ∧
      discover fs through root = .ok ([aliasedDocument], []) ∧
      Undisturbed fs Selection.documents.accepts root ["p".toUTF8.toList]
        (.directory aliasedEntries) [aliasedDocument] [aliasedDocument] ∧
      (discover other through root).map Prod.fst = .ok [aliasedDocument] := by
  intro fs other root through
  have hpermuted : (Node.directory aliasedEntries).Relisted (.directory aliasedEntries.reverse) :=
    .permuted aliasedEntries.reverse_perm.symm
  have hrelisted : fs.Relisted other :=
    ⟨@Node.Relisted.inside [] [] "p".toUTF8.toList _ _ hpermuted, rfl, rfl⟩
  have hlookup : fs.lookup root = .ok (["p".toUTF8.toList], .directory aliasedEntries) := by cbv
  have hwithout : discover fs .documents root = .ok ([aliasedDocument], []) := by cbv
  have hthrough : discover fs through root = .ok ([aliasedDocument], []) := by cbv
  obtain ⟨hkept, hordered⟩ :=
    discover_undisturbed .documents root proper_treeOf_aliasedEntries
  obtain ⟨start, entries, found, passed, hroot, hfound, hundisturbed⟩ := hkept _ _ hwithout
  obtain ⟨rfl, hentries⟩ := Prod.mk.inj (Except.ok.inj (hroot.symm.trans hlookup))
  obtain rfl := Node.directory.inj hentries
  obtain ⟨rfl, -⟩ := Prod.mk.inj (Except.ok.inj (hfound.symm.trans hthrough))
  refine ⟨proper_treeOf_aliasedEntries, hrelisted, hwithout, hthrough, hundisturbed, ?_⟩
  rw [hordered other hrelisted, hthrough]
  rfl

end FormsAudit.Discovery
