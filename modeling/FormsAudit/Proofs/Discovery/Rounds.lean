import FormsAudit.Proofs.Discovery.Agreement
import FormsAudit.Proofs.Discovery.Listing
import Mathlib.Data.List.Perm.Subperm

/-!
# The rounds of a walk

After every link the walk accounts for all that it has listed (`Explored`): each entry of each
listed directory has brought its file, its fault, or a link, and each link waits or has been
followed.  A visit keeps this (`Explored.visit`), and so does a round (`Settled.round`).

The root is listed in any case, the others by their real paths.  If the root has none, then nothing
below it has one, and the root is all that is listed (`Explored.nodup_names`).

A round that puts off a link has listed a directory, and no directory is listed twice.  So the links
run out before the rounds do (`exists_settled_explore`), and the number of rounds bounds nothing.
-/

namespace FormsAudit

namespace Node

/-! ## The directories of a tree -/

mutual

/-- The places of the directories of a tree. -/
def directories : Node → List (List EntryName)
  | .directory entries => [] :: directoriesIn entries
  | _ => []

/-- The places of the directories of all entries. -/
def directoriesIn : List (EntryName × Node) → List (List EntryName)
  | [] => []
  | (name, child) :: rest => child.directories.map (name :: ·) ++ directoriesIn rest

end

mutual

theorem length_directories (node : Node) : node.directories.length = node.countDirectories := by
  match node with
  | .directory entries =>
    rw [directories, countDirectories, List.length_cons, length_directoriesIn, Nat.add_comm]
  | .file _ | .link _ | .pipe _ => rfl

theorem length_directoriesIn (entries : List (EntryName × Node)) :
    (directoriesIn entries).length = countDirectoriesIn entries := by
  match entries with
  | [] => rfl
  | (name, child) :: rest =>
    rw [directoriesIn, countDirectoriesIn, List.length_append, List.length_map,
      length_directories, length_directoriesIn]

end

theorem mem_directoriesIn {entries : List (EntryName × Node)} {name : EntryName} {child : Node}
    (hentry : entries.lookup name = some child) {names : List EntryName}
    (hnames : names ∈ child.directories) : name :: names ∈ directoriesIn entries := by
  induction entries with
  | nil => cases hentry
  | cons item rest ih =>
    obtain ⟨key, found⟩ := item
    rw [List.lookup_cons] at hentry
    rw [directoriesIn]
    split at hentry
    · rename_i hkey
      obtain rfl := beq_iff_eq.mp hkey
      cases hentry
      exact List.mem_append_left _ (List.mem_map_of_mem hnames)
    · exact List.mem_append_right _ (ih hentry)

theorem mem_directories {node : Node} {names : List EntryName} {entries : List (EntryName × Node)}
    (hfound : node.find? names = some (.directory entries)) : names ∈ node.directories := by
  induction names generalizing node with
  | nil =>
    obtain rfl := Option.some.inj hfound
    exact List.mem_cons_self
  | cons name names ih =>
    obtain ⟨others, child, rfl, hchild, hfound⟩ := FileSystem.find?_cons_eq_some_iff.mp hfound
    exact List.mem_cons_of_mem _ (mem_directoriesIn hchild (ih hfound))

end Node

namespace Discovery

open FileSystem

variable {fs : FileSystem} {selection : Selection} {root : Path} {start : List EntryName}

/-! ## What is accounted for -/

/-- All directories that are listed: those that have been found, and the root. -/
def listingOf (root : Path) (start : List EntryName) (found : List Listed) : List Listed :=
  found ++ [⟨start, root⟩]

/-- All that has been listed is accounted for: the entries of the directories and, beside them, what
links have led to and why others were passed over.  The links of `taken` wait no more. -/
structure Explored (fs : FileSystem) (selection : Selection) (root : Path) (start : List EntryName)
    (found : List Listed) (resolved : List Entry) (faults : List SkippedEntry)
    (taken : List Path) (progress : Progress) : Prop where
  visited : progress.visited = found.map Listed.names ++ claimed fs root start
  nodup : progress.visited.Nodup
  files : progress.files.Perm
    ((entriesOf fs (listingOf root start found) ++ resolved).filterMap
      (Entry.file? fs selection root))
  links : (progress.links ++ taken).Perm
    ((entriesOf fs (listingOf root start found)).filterMap (Entry.link? fs selection))
  skipped : progress.skipped.Perm
    ((entriesOf fs (listingOf root start found) ++ resolved).filterMap (Entry.fault? fs) ++
      ((listingOf root start found).filterMap (Listed.fault? fs) ++ faults))
  directories : ∀ entry ∈ entriesOf fs (listingOf root start found) ++ resolved, ∀ names,
    entry.directory? fs = some names → names ∈ progress.visited
  sound : ∀ listed ∈ listingOf root start found, Sound fs root start listed
  real : ∀ listed ∈ found, fs.realFault? listed.path = none

variable {found : List Listed} {resolved : List Entry} {faults : List SkippedEntry}
  {taken : List Path} {progress after : Progress}

theorem mem_names_of_mem_claimed {names : List EntryName} (h : names ∈ claimed fs root start) :
    names = start := by
  unfold claimed at h
  split at h
  · exact List.mem_singleton.mp h
  · cases h

/-- What has been walked is listed. -/
theorem Explored.mem_names
    (h : Explored fs selection root start found resolved faults taken progress)
    {names : List EntryName} (hnames : names ∈ progress.visited) :
    names ∈ (listingOf root start found).map Listed.names := by
  rw [h.visited, List.mem_append] at hnames
  rw [listingOf, List.map_append, List.mem_append]
  refine hnames.imp_right fun hclaimed => ?_
  rw [mem_names_of_mem_claimed hclaimed]
  exact List.mem_singleton_self _

/-- **No directory is listed twice.** -/
theorem Explored.nodup_names (hroot : root.isEmpty = false)
    (h : Explored fs selection root start found resolved faults taken progress) :
    ((listingOf root start found).map Listed.names).Nodup := by
  by_cases hreal : fs.realFault? root = none
  · have hclaimed : claimed fs root start = [start] := by simp [claimed, hreal]
    have hnodup := h.nodup
    rw [h.visited, hclaimed] at hnodup
    simpa [listingOf] using hnodup
  · have hnone : found = [] := by
      rw [List.eq_nil_iff_forall_not_mem]
      intro listed hlisted
      have hsound := h.sound listed (List.mem_append_left _ hlisted)
      exact hreal (realFault?_of_isBelow hroot hsound.below (h.real listed hlisted))
    simp [listingOf, hnone]

/-- A visit of what a link leads to. -/
theorem Explored.visit
    (h : Explored fs selection root start found resolved faults taken progress)
    {entry : Entry} {processed : List Entry} {others : List Listed}
    (hwalked : Walked fs selection root [entry] processed others progress after)
    (hlink : entry.link? fs selection = none)
    (hothers : ∀ listed ∈ others, Sound fs root start listed) :
    Explored fs selection root start (others ++ found) (entry :: resolved) faults taken
      after := by
  have hlisting : listingOf root start (others ++ found) =
      others ++ listingOf root start found := List.append_assoc ..
  have hentries : entriesOf fs (others ++ listingOf root start found) =
      entriesOf fs others ++ entriesOf fs (listingOf root start found) := List.flatMap_append
  have hprocessed : processed.Perm (entry :: entriesOf fs others) := hwalked.perm
  have hall : (entriesOf fs (listingOf root start found) ++ resolved ++ processed).Perm
      (entriesOf fs (others ++ listingOf root start found) ++ entry :: resolved) := by
    have hmoved := List.perm_append_comm.trans
      (hprocessed.append_right (entriesOf fs (listingOf root start found) ++ resolved))
    refine hmoved.trans ?_
    rw [hentries, List.cons_append, ← List.append_assoc]
    exact List.perm_middle.symm
  refine ⟨?visited, hwalked.nodup h.nodup, ?files, ?links, ?skipped, ?directories, ?sound, ?real⟩
  case visited => rw [hwalked.visited, h.visited, List.map_append, List.append_assoc]
  case files =>
    rw [hwalked.files, hlisting]
    refine (h.files.append_right _).trans ?_
    rw [← List.filterMap_append]
    exact hall.filterMap _
  case links =>
    have hbrought := hprocessed.filterMap (Entry.link? fs selection)
    rw [List.filterMap_cons_none hlink] at hbrought
    rw [hwalked.links, hlisting, hentries, List.filterMap_append, List.append_assoc]
    exact (List.perm_append_comm_assoc _ _ _).trans (hbrought.append h.links)
  case skipped =>
    have hbrought := hall.filterMap (Entry.fault? fs)
    rw [List.filterMap_append] at hbrought
    refine hwalked.skipped.trans ((h.skipped.append_right _).trans ?_)
    rw [hlisting]
    refine .trans ?_ (hbrought.append_right _)
    -- the same parts, in another order
    rw [List.perm_iff_count]
    intro fault
    simp only [List.count_append, List.filterMap_append]
    omega
  case directories =>
    intro other hother names hnames
    rw [hlisting] at hother
    have hcases := hall.mem_iff.mpr hother
    rcases List.mem_append.mp hcases with hother | hother
    · rw [hwalked.visited]
      exact List.mem_append_right _ (h.directories other hother names hnames)
    · exact hwalked.directories other hother names hnames
  case sound =>
    intro listed hlisted
    rw [hlisting] at hlisted
    rcases List.mem_append.mp hlisted with hlisted | hlisted
    · exact hothers listed hlisted
    · exact h.sound listed hlisted
  case real =>
    intro listed hlisted
    rcases List.mem_append.mp hlisted with hlisted | hlisted
    · exact hwalked.real listed hlisted
    · exact h.real listed hlisted

/-! ## Links -/

/-- What a followed link leads to, found at the path of the link. -/
def resolve? (fs : FileSystem) (link : Path) : Option Entry :=
  match fs.lookup link with
  | .ok (names, node) => some ⟨link, names, node, none⟩
  | .error _ => none

/-- Why a followed link is passed over, if it is. -/
def linkFault? (fs : FileSystem) (link : Path) : Option SkippedEntry :=
  match fs.lookup link with
  | .ok _ => none
  | .error errno => some ⟨link, errno⟩

/-- Where an entry of a listed directory stands. -/
theorem exists_listed_of_mem (hproper : fs.root.Proper) {listing : List Listed}
    (hsound : ∀ listed ∈ listing, Sound fs root start listed) {entry : Entry}
    (h : entry ∈ entriesOf fs listing) :
    ∃ listed name, listed ∈ listing ∧ Path.IsName name ∧ entry.path = listed.path.join ⟨name⟩ ∧
      entry.names = listed.names ++ [name] ∧ fs.root.find? entry.names = some entry.node ∧
      entry.refusal = refusal? fs listed.names entry.path := by
  obtain ⟨listed, hlisted, hentry⟩ := List.mem_flatMap.mp h
  obtain ⟨entries, hfound⟩ := (hsound listed hlisted).found
  rw [entries_eq _ hfound, List.mem_map] at hentry
  obtain ⟨⟨name, child⟩, hitem, rfl⟩ := hentry
  replace hitem := (List.mem_filter.mp hitem).1
  have hdirectory := hproper.find? hfound
  refine ⟨listed, name, hlisted, hdirectory.isName hitem, rfl, rfl, ?_, rfl⟩
  show fs.root.find? (listed.names ++ [name]) = some child
  rw [find?_concat name hfound]
  exact (Node.lookup_eq_some_iff hdirectory.nodup).mpr hitem

theorem path_of_link? {entry : Entry} {link : Path} (h : entry.link? fs selection = some link) :
    entry.path = link := by
  obtain ⟨path, names, node, refusal⟩ := entry
  cases node with
  | link target =>
    simp only [Entry.link?, Option.ite_none_right_eq_some, Option.some.injEq] at h
    exact h.2
  | _ => cases h

/-- **Following a link accounts for it.**  If that puts off other links, a directory has been
listed. -/
theorem Explored.visitLink (hproper : fs.root.Proper)
    (h : Explored fs selection root start found resolved faults taken progress) {link : Path}
    (hlink : link ∈ taken) :
    ∃ others, Explored fs selection root start (others ++ found)
        ((resolve? fs link).toList ++ resolved) ((linkFault? fs link).toList ++ faults) taken
        (visitLink fs selection root progress link) ∧
      (others = [] → (visitLink fs selection root progress link).links = progress.links) := by
  obtain ⟨entry, hentry, hpath⟩ := List.mem_filterMap.mp
    (h.links.mem_iff.mp (List.mem_append_right progress.links hlink))
  obtain rfl := path_of_link? hpath
  obtain ⟨listed, name, hlisted, hname, hjoined, -, -, -⟩ :=
    exists_listed_of_mem hproper h.sound hentry
  unfold Discovery.visitLink resolve? linkFault?
  cases hlookup : fs.lookup entry.path with
  | error errno =>
    refine ⟨[], { h with skipped := ?_ }, fun _ => rfl⟩
    refine (h.skipped.append_right _).trans ?_
    rw [List.perm_iff_count]
    intro fault
    simp only [List.count_append, Option.toList_some, Option.toList_none, List.nil_append]
    omega
  | ok place =>
    obtain ⟨names, node⟩ := place
    have hfound := find?_of_lookup hlookup
    have hleads := pathLeads_of_lookup (by decide) hlookup
    have hsound : node.isDirectory = true → Sound fs root start ⟨names, entry.path⟩ := by
      intro hdirectory
      cases node with
      | directory entries =>
        rw [hjoined] at hleads ⊢
        exact (h.sound listed hlisted).step hname hleads ⟨entries, hfound⟩
      | _ => cases hdirectory
    obtain ⟨processed, others, hwalked, hothers⟩ :=
      exists_walked_visitNode inherited_sound selection root entry.path names node progress
        (hproper.find? hfound) hfound hsound
    have hnode : Entry.link? fs selection ⟨entry.path, names, node, none⟩ = none := by
      cases node with
      | link target => exact absurd hfound (not_link_of_lookup hlookup target)
      | _ => rfl
    refine ⟨others, h.visit hwalked hnode hothers, ?_⟩
    rintro rfl
    have hbrought := hwalked.perm.filterMap (Entry.link? fs selection)
    have hnone : processed.filterMap (Entry.link? fs selection) = [] := by
      refine List.perm_nil.mp (hbrought.trans ?_)
      simp [entriesOf, hnode]
    rw [hwalked.links, hnone, List.append_nil]

theorem Explored.foldl_visitLink (hproper : fs.root.Proper)
    (h : Explored fs selection root start found resolved faults taken progress)
    {links : List Path} (hlinks : ∀ link ∈ links, link ∈ taken) :
    ∃ others, Explored fs selection root start (others ++ found)
        (links.reverse.filterMap (resolve? fs) ++ resolved)
        (links.reverse.filterMap (linkFault? fs) ++ faults) taken
        (links.foldl (Discovery.visitLink fs selection root) progress) ∧
      (others = [] →
        (links.foldl (Discovery.visitLink fs selection root) progress).links = progress.links) := by
  induction links generalizing found resolved faults progress with
  | nil => exact ⟨[], h, fun _ => rfl⟩
  | cons link links ih =>
    rw [List.forall_mem_cons] at hlinks
    obtain ⟨others, hlink, hnone⟩ := h.visitLink hproper hlinks.1
    obtain ⟨later, hrest, hnone'⟩ := ih hlink hlinks.2
    refine ⟨later ++ others, ?_, ?_⟩
    · have hbrought : ∀ {β : Type} (f : Path → Option β) (more : List β),
          (link :: links).reverse.filterMap f ++ more =
            links.reverse.filterMap f ++ ((f link).toList ++ more) := by
        intro β f more
        cases hf : f link <;> simp [hf]
      rw [hbrought, hbrought, List.append_assoc]
      exact hrest
    · intro hboth
      obtain ⟨rfl, rfl⟩ := List.append_eq_nil_iff.mp hboth
      exact (hnone' rfl).trans (hnone rfl)

/-! ## Rounds -/

/-- Between two rounds: the links of `followed` have been followed. -/
def Settled (fs : FileSystem) (selection : Selection) (root : Path) (start : List EntryName)
    (found : List Listed) (followed : List Path) (progress : Progress) : Prop :=
  Explored fs selection root start found (followed.filterMap (resolve? fs))
    (followed.filterMap (linkFault? fs)) followed progress

variable {followed : List Path}

theorem Settled.round (hproper : fs.root.Proper)
    (h : Settled fs selection root start found followed progress) :
    ∃ others followed', Settled fs selection root start (others ++ found) followed'
        ((progress.links.mergeSort linkLE).foldl (visitLink fs selection root)
          { progress with links := [] }) ∧
      (others = [] → ((progress.links.mergeSort linkLE).foldl (visitLink fs selection root)
        { progress with links := [] }).links = []) := by
  set links := progress.links.mergeSort linkLE
  have hperm : links.Perm progress.links := List.mergeSort_perm _ _
  have htaken : Explored fs selection root start found (followed.filterMap (resolve? fs))
      (followed.filterMap (linkFault? fs)) (links ++ followed) { progress with links := [] } :=
    { visited := h.visited, nodup := h.nodup, files := h.files, skipped := h.skipped
      directories := h.directories, sound := h.sound, real := h.real
      links := (hperm.append_right followed).trans h.links }
  obtain ⟨others, hround, hnone⟩ :=
    htaken.foldl_visitLink hproper fun link hlink => List.mem_append_left followed hlink
  refine ⟨others, links.reverse ++ followed, ?_, hnone⟩
  have hreverse : (links.reverse ++ followed).Perm (links ++ followed) :=
    links.reverse_perm.append_right followed
  unfold Settled
  rw [List.filterMap_append, List.filterMap_append]
  exact { hround with links := (hreverse.append_left _).trans hround.links }

theorem followRounds_of_links_eq_nil (rounds : Nat) (h : progress.links = []) :
    followRounds fs selection root rounds progress = progress := by
  cases rounds with
  | zero => rfl
  | succ rounds =>
    unfold followRounds
    rw [if_pos (List.isEmpty_iff.mpr h)]

theorem followRounds_add (rounds more : Nat) (progress : Progress) :
    followRounds fs selection root (rounds + more) progress =
      followRounds fs selection root more (followRounds fs selection root rounds progress) := by
  induction rounds generalizing progress with
  | zero => rw [Nat.zero_add, followRounds]
  | succ rounds ih =>
    rw [Nat.add_right_comm]
    by_cases hlinks : progress.links.isEmpty = true
    · have hnil := List.isEmpty_iff.mp hlinks
      rw [followRounds_of_links_eq_nil _ hnil, followRounds_of_links_eq_nil _ hnil,
        followRounds_of_links_eq_nil _ hnil]
    · rw [followRounds, if_neg hlinks, followRounds, if_neg hlinks]
      exact ih _

/-! ## There are no more rounds than directories -/

theorem Explored.length_le (hroot : root.isEmpty = false)
    (h : Explored fs selection root start found resolved faults taken progress) :
    found.length < fs.root.countDirectories := by
  have hsubset : (listingOf root start found).map Listed.names ⊆ fs.root.directories := by
    intro names hnames
    obtain ⟨listed, hlisted, rfl⟩ := List.mem_map.mp hnames
    obtain ⟨entries, hentries⟩ := (h.sound listed hlisted).found
    exact Node.mem_directories hentries
  have hle := (List.subperm_of_subset (h.nodup_names hroot) hsubset).length_le
  rw [List.length_map, Node.length_directories, listingOf, List.length_append,
    List.length_singleton] at hle
  omega

/-- With a round for every directory that is not listed, and one more, no link is left. -/
theorem Settled.followRounds (hproper : fs.root.Proper) (hroot : root.isEmpty = false)
    {rounds : Nat} (hrounds : fs.root.countDirectories ≤ rounds + found.length)
    (h : Settled fs selection root start found followed progress) :
    ∃ others followed', Settled fs selection root start (others ++ found) followed'
        (Discovery.followRounds fs selection root rounds progress) ∧
      (Discovery.followRounds fs selection root rounds progress).links = [] := by
  induction rounds generalizing found followed progress with
  | zero =>
    have hle := Explored.length_le hroot h
    omega
  | succ rounds ih =>
    unfold Discovery.followRounds
    split
    · rename_i hempty
      exact ⟨[], followed, h, List.isEmpty_iff.mp hempty⟩
    · obtain ⟨others, followed', hround, hnone⟩ := h.round hproper
      by_cases hothers : others = []
      · rw [followRounds_of_links_eq_nil rounds (hnone hothers)]
        exact ⟨others, followed', hround, hnone hothers⟩
      · have hleft : fs.root.countDirectories ≤ rounds + (others ++ found).length := by
          have hpos := List.length_pos_iff.mpr hothers
          rw [List.length_append]
          omega
        obtain ⟨later, followed'', hrest, hlinks⟩ := ih hleft hround
        rw [← List.append_assoc] at hrest
        exact ⟨later ++ others, followed'', hrest, hlinks⟩

/-- The directory lies really below the root, and is listed by its own names. -/
def IsReal (root : Path) (start : List EntryName) (listed : Listed) : Prop :=
  ∃ below, (∀ name ∈ below, Path.IsName name) ∧ listed = ⟨start ++ below, root.below below⟩

theorem inherited_isReal : Inherited fs (IsReal root start) := by
  rintro _ name inner ⟨below, hbelow, rfl⟩ hname -
  refine ⟨below ++ [name], ?_, ?_⟩
  · rw [List.forall_mem_append, List.forall_mem_singleton]
    exact ⟨hbelow, hname⟩
  · rw [Path.below_concat, List.append_assoc]

/-- The state in which a walk comes to its links. -/
def firstVisit (fs : FileSystem) (selection : Selection) (root : Path) (start : List EntryName)
    (entries : List (EntryName × Node)) : Progress :=
  visitEntries fs selection root root start entries ⟨claimed fs root start, [], [], []⟩

/-- **A walk lists what is really below the root before it follows links.** -/
theorem exists_settled_firstVisit (selection : Selection) (hproper : fs.root.Proper)
    {entries : List (EntryName × Node)} (hroot : IsReadableDirectory fs root start entries) :
    ∃ found, Settled fs selection root start found [] (firstVisit fs selection root start entries) ∧
      ∀ listed ∈ listingOf root start found, IsReal root start listed := by
  have hfound := find?_of_lookup hroot.1
  have hstart : Sound fs root start ⟨start, root⟩ ∧ IsReal root start ⟨start, root⟩ :=
    ⟨⟨⟨entries, hfound⟩, .start, pathLeads_of_lookup (by decide) hroot.1, Path.isBelow_self root⟩,
      [], by simp, by simp⟩
  have hdirectory := hproper.find? hfound
  have hentries : ∀ item ∈ entries, fs.root.find? (start ++ [item.1]) = some item.2 ∧
      Path.IsName item.1 ∧ item.2.Proper := by
    rintro ⟨name, child⟩ hitem
    refine ⟨?_, hdirectory.isName hitem, hdirectory.child hitem⟩
    rw [find?_concat name hfound]
    exact (Node.lookup_eq_some_iff hdirectory.nodup).mpr hitem
  obtain ⟨processed, found, hwalked, hlisting⟩ :=
    exists_walked_visitEntries (inherited_sound.and inherited_isReal) selection root ⟨start, root⟩
      entries ⟨claimed fs root start, [], [], []⟩ hstart hentries
  rw [← entries_eq ⟨start, root⟩ hfound] at hwalked
  have hall : ∀ listed ∈ listingOf root start found,
      Sound fs root start listed ∧ IsReal root start listed := by
    intro listed hlisted
    rcases List.mem_append.mp hlisted with hlisted | hlisted
    · exact hlisting listed hlisted
    · exact List.mem_singleton.mp hlisted ▸ hstart
  have hentriesOf : processed.Perm (entriesOf fs (listingOf root start found)) := by
    refine hwalked.perm.trans (List.perm_append_comm.trans ?_)
    simp [entriesOf, listingOf]
  refine ⟨found, ⟨hwalked.visited, ?nodup, ?files, ?links, ?skipped, ?directories,
    fun listed hlisted => (hall listed hlisted).1, hwalked.real⟩,
    fun listed hlisted => (hall listed hlisted).2⟩
  case nodup =>
    refine hwalked.nodup ?_
    unfold claimed
    split <;> simp
  case files =>
    rw [List.filterMap_nil, List.append_nil]
    exact (List.Perm.of_eq hwalked.files).trans (hentriesOf.filterMap _)
  case links =>
    rw [List.append_nil]
    exact (List.Perm.of_eq hwalked.links).trans (hentriesOf.filterMap _)
  case skipped =>
    have hwhole : Listed.fault? fs ⟨start, root⟩ = none := by simp [Listed.fault?, hroot.2]
    have hfaults : (listingOf root start found).filterMap (Listed.fault? fs) =
        found.filterMap (Listed.fault? fs) := by simp [listingOf, hwhole]
    rw [hfaults, List.filterMap_nil, List.filterMap_nil, List.append_nil, List.append_nil]
    exact hwalked.skipped.trans ((hentriesOf.filterMap _).append_right _)
  case directories =>
    intro entry hentry
    rw [List.filterMap_nil, List.append_nil] at hentry
    exact hwalked.directories entry (hentriesOf.mem_iff.mpr hentry)

/-- **No link is left in the end**, and more rounds would change nothing. -/
theorem exists_settled_explore (selection : Selection) (hproper : fs.root.Proper)
    {entries : List (EntryName × Node)} (hroot : IsReadableDirectory fs root start entries) :
    ∃ found followed, Settled fs selection root start found followed
        (explore fs selection root start entries) ∧
      (explore fs selection root start entries).links = [] ∧
      ∀ more, Discovery.followRounds fs selection root (fs.root.countDirectories + 1 + more)
          (firstVisit fs selection root start entries) =
        explore fs selection root start entries := by
  obtain ⟨found, hfirst, -⟩ := exists_settled_firstVisit selection hproper hroot
  have hrounds : fs.root.countDirectories ≤ fs.root.countDirectories + 1 + found.length := by
    omega
  obtain ⟨others, followed, hsettled, hlinks⟩ :=
    hfirst.followRounds hproper (isEmpty_of_lookup hroot.1) hrounds
  refine ⟨others ++ found, followed, hsettled, hlinks, fun more => ?_⟩
  rw [followRounds_add]
  exact followRounds_of_links_eq_nil more hlinks

end Discovery

end FormsAudit
