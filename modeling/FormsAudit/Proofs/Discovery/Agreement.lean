import FormsAudit.Proofs.Discovery.Gather

/-!
# Discovery does not depend on the order of listings

Two walks through trees that differ in the order of entries alone find the same, in some order, and
keep finding the same: the links that wait are sorted before a round follows them, and all of them
lie below the root, where a sort tells any two apart (`followRounds_similar`).  The files are sorted
in the end, so they come out the same (`discover_relisted`).
-/

namespace FormsAudit.Discovery

variable {fs other : FileSystem} {selection : Selection} {root : Path} {first second : Progress}

/-! ## Links -/

theorem visitLink_similar (h : fs.Relisted other) (hproper : fs.root.Proper)
    (hsimilar : first.Similar second) (link : Path) :
    (visitLink fs selection root first link).Similar
      (visitLink other selection root second link) := by
  unfold visitLink
  rcases FileSystem.lookup_relisted h hproper link .through with
    ⟨errno, hfirst, hsecond⟩ | ⟨names, node, found, hfirst, hsecond, hnode⟩
  · rw [hfirst, hsecond]
    exact ⟨hsimilar.visited, hsimilar.files, hsimilar.links, hsimilar.skipped.append_right _⟩
  · have hnodeProper : node.Proper := hproper.find? (FileSystem.find?_of_lookup hfirst)
    have hfoundProper : found.Proper := hnode.proper hnodeProper
    rw [hfirst, hsecond]
    dsimp only
    -- what has been walked is the same for both, so the visits bring the same
    rw [visitNode_eq _ _ _ _ _ _ hnodeProper, visitNode_eq _ _ _ _ _ _ hfoundProper,
      gatherNode_congr_fileSystem h.refusals (FileSystem.realFault?_relisted h hproper),
      gatherNode_congr fs selection root link names node fun place _ => hsimilar.visited place]
    exact hsimilar.append (gatherNode_relisted hnode link names)

theorem below_visitLink (hproper : fs.root.Proper) {progress : Progress}
    (hbelow : progress.Below root) {link : Path} (hlink : root.IsBelow link) :
    (visitLink fs selection root progress link).Below root := by
  unfold visitLink
  split
  · exact ⟨hbelow.links, hbelow.files⟩
  · rename_i names node hlookup
    have hnode : node.Proper := hproper.find? (FileSystem.find?_of_lookup hlookup)
    rw [visitNode_eq _ _ _ _ _ _ hnode]
    exact hbelow.append (below_gatherNode fs selection root link names _ node hnode hlink)

theorem foldl_visitLink_similar (h : fs.Relisted other) (hproper : fs.root.Proper)
    (hsimilar : first.Similar second) (links : List Path) :
    (links.foldl (visitLink fs selection root) first).Similar
      (links.foldl (visitLink other selection root) second) := by
  induction links generalizing first second with
  | nil => exact hsimilar
  | cons link links ih => exact ih (visitLink_similar h hproper hsimilar link)

theorem below_foldl_visitLink (hproper : fs.root.Proper) {progress : Progress}
    (hbelow : progress.Below root) {links : List Path}
    (hlinks : ∀ link ∈ links, root.IsBelow link) :
    (links.foldl (visitLink fs selection root) progress).Below root := by
  induction links generalizing progress with
  | nil => exact hbelow
  | cons link links ih =>
    rw [List.forall_mem_cons] at hlinks
    exact ih (below_visitLink hproper hbelow hlinks.1) hlinks.2

/-- Waiting links below the root are followed in one order, however they were found. -/
theorem mergeSort_links_eq (hroot : root.isEmpty = false) (hbelow : first.Below root)
    (hsimilar : first.Similar second) :
    first.links.mergeSort linkLE = second.links.mergeSort linkLE := by
  apply mergeSort_eq_of_perm hsimilar.links
  intro a ha b hb heq
  have hcomponents : a.components = b.components := Path.order_eq_eq_iff.mp heq
  exact (hbelow.links a ha).eq_of_components_eq hroot (hbelow.links b hb) hcomponents

/-- **The rounds of both walks find the same.** -/
theorem followRounds_similar (h : fs.Relisted other) (hproper : fs.root.Proper)
    (hroot : root.isEmpty = false) (rounds : Nat) (hbelow : first.Below root)
    (hsimilar : first.Similar second) :
    (followRounds fs selection root rounds first).Similar
        (followRounds other selection root rounds second) ∧
      (followRounds fs selection root rounds first).Below root := by
  induction rounds generalizing first second with
  | zero => exact ⟨hsimilar, hbelow⟩
  | succ rounds ih =>
    have hempty : first.links.isEmpty = second.links.isEmpty := by
      rw [Bool.eq_iff_iff, List.isEmpty_iff_length_eq_zero, List.isEmpty_iff_length_eq_zero,
        hsimilar.links.length_eq]
    unfold followRounds
    rw [← hempty, ← mergeSort_links_eq hroot hbelow hsimilar]
    split
    · exact ⟨hsimilar, hbelow⟩
    · have hkept : Progress.Below root { first with links := [] } :=
        ⟨fun _ hlink => absurd hlink List.not_mem_nil, hbelow.files⟩
      have hlinks : ∀ link ∈ first.links.mergeSort linkLE, root.IsBelow link := by
        intro link hlink
        exact hbelow.links link (List.mem_mergeSort.mp hlink)
      have hrest : Progress.Similar { first with links := [] } { second with links := [] } :=
        ⟨hsimilar.visited, hsimilar.files, .refl _, hsimilar.skipped⟩
      exact ih (below_foldl_visitLink hproper hkept hlinks)
        (foldl_visitLink_similar h hproper hrest _)

/-! ## Discovery -/

/-- A walk begins with what the entries of its root bring. -/
theorem explore_eq (selection : Selection) (hproper : fs.root.Proper) {names : List EntryName}
    {entries : List (EntryName × Node)} (hroot : fs.lookup root = .ok (names, .directory entries)) :
    explore fs selection root names entries =
      followRounds fs selection root (fs.root.countDirectories + 1)
        (⟨claimed fs root names, [], [], []⟩ ++
          gatherEntries fs selection root root names [] entries) := by
  have hdirectory := hproper.find? (FileSystem.find?_of_lookup hroot)
  have hvisited : gatherEntries fs selection root root names (claimed fs root names) entries =
      gatherEntries fs selection root root names [] entries := by
    unfold claimed
    split
    · exact gatherEntries_cons_visited ..
    · rfl
  rw [explore, visitEntries_eq fs selection root root names entries hdirectory.nodup
    (fun entry hentry => hdirectory.child hentry), hvisited]

theorem below_first (selection : Selection) (hproper : fs.root.Proper) {names : List EntryName}
    {entries : List (EntryName × Node)} (hroot : fs.lookup root = .ok (names, .directory entries)) :
    Progress.Below root (⟨claimed fs root names, [], [], []⟩ ++
      gatherEntries fs selection root root names [] entries) := by
  have hdirectory := hproper.find? (FileSystem.find?_of_lookup hroot)
  have hentries := below_gatherEntries fs selection root root names [] entries
    (fun name child hentry => ⟨hdirectory.isName hentry, hdirectory.child hentry⟩)
    (Path.isBelow_self root)
  exact Progress.Below.append ⟨by simp, by simp⟩ hentries

theorem below_explore (selection : Selection) (hproper : fs.root.Proper) {names : List EntryName}
    {entries : List (EntryName × Node)} (hroot : fs.lookup root = .ok (names, .directory entries)) :
    (explore fs selection root names entries).Below root := by
  rw [explore_eq selection hproper hroot]
  exact (followRounds_similar (.refl fs) hproper (FileSystem.isEmpty_of_lookup hroot) _
    (below_first selection hproper hroot) (.refl _)).2

theorem explore_similar (selection : Selection) (h : fs.Relisted other) (hproper : fs.root.Proper)
    {names : List EntryName} {entries others : List (EntryName × Node)}
    (hroot : fs.lookup root = .ok (names, .directory entries))
    (hroot' : other.lookup root = .ok (names, .directory others))
    (hentries : (Node.directory entries).Relisted (.directory others)) :
    (explore fs selection root names entries).Similar
      (explore other selection root names others) := by
  have hreal := FileSystem.realFault?_relisted h hproper
  have hclaimed : claimed other root names = claimed fs root names := by
    rw [claimed, claimed, hreal]
  rw [explore_eq selection hproper hroot, explore_eq selection (h.root.proper hproper) hroot',
    hclaimed, ← h.root.countDirectories_eq, gatherEntries_congr_fileSystem h.refusals hreal]
  exact (followRounds_similar h hproper (FileSystem.isEmpty_of_lookup hroot) _
    (below_first selection hproper hroot)
    ((Progress.Similar.refl _).append (gatherEntries_relisted hentries root names))).1

/-- The order of files tells those below the root apart. -/
theorem eq_of_order_eq_eq (hroot : root.isEmpty = false) {a b : FileReference}
    (ha : ∃ path, root.IsBelow path ∧ a = .ofPath root path)
    (hb : ∃ path, root.IsBelow path ∧ b = .ofPath root path) (heq : a.order b = .eq) : a = b := by
  obtain ⟨path, hpath, rfl⟩ := ha
  obtain ⟨path', hpath', rfl⟩ := hb
  have horder : path.order path' = .eq := (Ordering.then_eq_eq.mp heq).2
  have hcomponents : path.components = path'.components := Path.order_eq_eq_iff.mp horder
  rw [hpath.eq_of_components_eq hroot hpath' hcomponents]

/-- Files below the root are listed in one order, however they were found. -/
theorem mergeSort_files_eq (hroot : root.isEmpty = false) (hbelow : first.Below root)
    (hsimilar : first.Similar second) :
    first.files.mergeSort FileReference.le = second.files.mergeSort FileReference.le :=
  mergeSort_eq_of_perm hsimilar.files fun a ha b hb =>
    eq_of_order_eq_eq hroot (hbelow.files a ha) (hbelow.files b hb)

/-- The root is a directory that lists all of its entries. -/
def IsReadableDirectory (fs : FileSystem) (root : Path) (names : List EntryName)
    (entries : List (EntryName × Node)) : Prop :=
  fs.lookup root = .ok (names, .directory entries) ∧ (fs.accessAt names).listing = none

theorem discover_eq (selection : Selection) {names : List EntryName}
    {entries : List (EntryName × Node)} (hroot : IsReadableDirectory fs root names entries) :
    discover fs selection root =
      .ok ((explore fs selection root names entries).files.mergeSort FileReference.le,
        (explore fs selection root names entries).skipped) := by
  unfold discover
  rw [hroot.1]
  dsimp only
  rw [hroot.2]

/-- Nothing is found but in a directory that lists its entries. -/
theorem exists_root_of_discover {found : List FileReference × List SkippedEntry}
    (h : discover fs selection root = .ok found) :
    ∃ names entries, IsReadableDirectory fs root names entries := by
  unfold discover at h
  split at h
  · cases h
  · rename_i names entries hroot
    split at h
    · cases h
    · rename_i hlisting
      exact ⟨names, entries, hroot, hlisting⟩
  · cases h

section Relisted

variable {names : List EntryName} {entries others : List (EntryName × Node)}

theorem IsReadableDirectory.relisted (h : fs.Relisted other) (hproper : fs.root.Proper)
    (hroot : IsReadableDirectory fs root names entries) :
    ∃ others, IsReadableDirectory other root names others ∧
      (Node.directory entries).Relisted (.directory others) := by
  obtain ⟨errno, hfirst, -⟩ | ⟨names', node, found, hfirst, hsecond, hnode⟩ :=
    FileSystem.lookup_relisted h hproper root .through
  · cases hroot.1.symm.trans hfirst
  · obtain ⟨rfl, rfl⟩ := Prod.mk.inj (Except.ok.inj (hroot.1.symm.trans hfirst))
    obtain ⟨others, rfl⟩ := hnode.exists_entries
    have hlisting : (other.accessAt names).listing = none := by
      rw [FileSystem.accessAt_congr h.refusals, hroot.2]
    exact ⟨others, ⟨hsecond, hlisting⟩, hnode⟩

theorem IsReadableDirectory.of_relisted (h : fs.Relisted other) (hproper : fs.root.Proper)
    (hroot : IsReadableDirectory other root names others) :
    ∃ entries, IsReadableDirectory fs root names entries := by
  obtain ⟨errno, -, hsecond⟩ | ⟨names', node, found, hfirst, hsecond, hnode⟩ :=
    FileSystem.lookup_relisted h hproper root .through
  · cases hroot.1.symm.trans hsecond
  · obtain ⟨rfl, rfl⟩ := Prod.mk.inj (Except.ok.inj (hroot.1.symm.trans hsecond))
    have hlisting : (fs.accessAt names).listing = none := by
      rw [← FileSystem.accessAt_congr h.refusals, hroot.2]
    have hface := hnode.face_eq
    cases node with
    | directory entries => exact ⟨entries, hfirst, hlisting⟩
    | _ => cases hface

/-- **Discovery gives the same files, in the same order, whatever the order of listings.**  The
entries passed over are the same in some order. -/
theorem discover_relisted (selection : Selection) (h : fs.Relisted other)
    (hproper : fs.root.Proper) (hroot : IsReadableDirectory fs root names entries) :
    ∃ files skipped skipped', discover fs selection root = .ok (files, skipped) ∧
      discover other selection root = .ok (files, skipped') ∧ skipped.Perm skipped' := by
  have hempty := FileSystem.isEmpty_of_lookup hroot.1
  obtain ⟨others, hroot', hnode⟩ := hroot.relisted h hproper
  have hsimilar := explore_similar selection h hproper hroot.1 hroot'.1 hnode
  have hbelow := below_explore selection hproper hroot.1
  refine ⟨_, _, _, discover_eq selection hroot, ?_, hsimilar.skipped⟩
  rw [discover_eq selection hroot', mergeSort_files_eq hempty hbelow hsimilar]

theorem files_eq_of_relisted (h : fs.Relisted other) (hproper : fs.root.Proper)
    (hroot : IsReadableDirectory fs root names entries)
    {files found : List FileReference} {skipped passed : List SkippedEntry}
    (hfiles : discover fs selection root = .ok (files, skipped))
    (hfound : discover other selection root = .ok (found, passed)) : files = found := by
  obtain ⟨_, _, _, hfirst, hsecond, -⟩ := discover_relisted selection h hproper hroot
  obtain ⟨rfl, -⟩ := Prod.mk.inj (Except.ok.inj (hfiles.symm.trans hfirst))
  exact (Prod.mk.inj (Except.ok.inj (hfound.symm.trans hsecond))).1.symm

end Relisted

end FormsAudit.Discovery
