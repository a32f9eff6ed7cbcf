import FormsAudit.Proofs.Discovery.Rounds
import FormsAudit.Proofs.FileSystem.Updated
import FormsAudit.Proofs.Path.Reference
import Mathlib.Data.List.Nodup

/-!
# The files of a tree

`Node.filePlaces` lists the places of the regular files of a tree by a recursion over the tree alone,
each place once.  A walk brings the files at these places, each under the path that its names make
below the root, as far as nothing is refused on the way there (`comesTo`) and the file is wanted
(`files_gatherEntries`).  Neither what is wanted nor whether links are followed has a part in which
files these are (`filesBelow`), and a walk that follows no links finds no others
(`exists_discover_eq_filter`).
-/

namespace FormsAudit

namespace Node

variable {node : Node} {entries : List (EntryName × Node)}

mutual

/-- The places of the regular files of a tree. -/
def filePlaces : Node → List (List EntryName)
  | .file _ => [[]]
  | .directory entries => filePlacesIn entries
  | _ => []

/-- The places of the regular files of all entries. -/
def filePlacesIn : List (EntryName × Node) → List (List EntryName)
  | [] => []
  | (name, child) :: rest => child.filePlaces.map (name :: ·) ++ filePlacesIn rest

end

theorem filePlaces_directory (entries : List (EntryName × Node)) :
    (Node.directory entries).filePlaces =
      entries.flatMap fun entry => entry.2.filePlaces.map (entry.1 :: ·) := by
  rw [filePlaces]
  induction entries with
  | nil => rfl
  | cons entry entries ih =>
    obtain ⟨name, child⟩ := entry
    rw [filePlacesIn, ih, List.flatMap_cons]

/-- **Regular files are where their places say.** -/
theorem mem_filePlaces_iff (hproper : node.Proper) {names : List EntryName} :
    names ∈ node.filePlaces ↔ ∃ content, node.find? names = some (.file content) := by
  induction hproper generalizing names with
  | @directory entries hnodup _ _ ih =>
    rw [filePlaces_directory, List.mem_flatMap]
    cases names with
    | nil => simp
    | cons name names =>
      constructor
      · rintro ⟨⟨key, child⟩, hentry, hnames⟩
        obtain ⟨below, hbelow, heq⟩ := List.mem_map.mp hnames
        obtain ⟨rfl, rfl⟩ := List.cons.inj heq
        obtain ⟨content, hfound⟩ := (ih _ hentry).mp hbelow
        have hchild : (Node.directory entries).child? key = some child :=
          (lookup_eq_some_iff hnodup).mpr hentry
        exact ⟨content, by rw [Node.find?, hchild, Option.bind_some, hfound]⟩
      · rintro ⟨content, hfound⟩
        rw [Node.find?, Option.bind_eq_some_iff] at hfound
        obtain ⟨child, hchild, hfound⟩ := hfound
        have hentry : (name, child) ∈ entries := (lookup_eq_some_iff hnodup).mp hchild
        exact ⟨(name, child), hentry, List.mem_map_of_mem ((ih _ hentry).mpr ⟨content, hfound⟩)⟩
  | file content =>
    cases names with
    | nil => simp [filePlaces]
    | cons name names => simp [filePlaces, Node.find?, Node.child?, Node.entries]
  | link target | pipe written =>
    cases names with
    | nil => simp [filePlaces]
    | cons name names => simp [filePlaces, Node.find?, Node.child?, Node.entries]

theorem nodup_filePlaces (hproper : node.Proper) : node.filePlaces.Nodup := by
  induction hproper with
  | @directory entries hnodup _ _ ih =>
    rw [filePlaces_directory, List.nodup_flatMap]
    refine ⟨fun entry hentry => (ih entry hentry).map (List.cons_injective), ?_⟩
    -- places below different names are different
    refine (List.pairwise_map.mp hnodup).imp ?_
    intro first second hne names hfirst hsecond
    obtain ⟨_, -, rfl⟩ := List.mem_map.mp hfirst
    obtain ⟨_, -, heq⟩ := List.mem_map.mp hsecond
    exact hne (List.cons.inj heq).1.symm
  | file content => exact List.nodup_singleton _
  | link target | pipe written => exact List.nodup_nil

theorem isName_of_mem_filePlaces (hproper : node.Proper) {names : List EntryName}
    (h : names ∈ node.filePlaces) : ∀ name ∈ names, Path.IsName name := by
  obtain ⟨content, hfound⟩ := (mem_filePlaces_iff hproper).mp h
  exact hproper.isName_of_find? hfound

end Node

namespace Discovery

open FileSystem

variable {fs : FileSystem} {selection : Selection} {root path : Path}
  {names start : List EntryName} {visited : List (List EntryName)} {node : Node}
  {entries : List (EntryName × Node)}

/-! ## The files that a walk brings -/

/-- Whether the walk comes by the names from the directory at `path`, where the tree has the names
`names`: each is listed and can be looked at, and each of the directories on the way has a real
path. -/
def comesTo (fs : FileSystem) (path : Path) (names : List EntryName) : List EntryName → Bool
  | [] => true
  | name :: rest =>
    fs.lists names name && (refusal? fs names (path.join ⟨name⟩)).isNone &&
      ((rest.isEmpty || (fs.realFault? (path.join ⟨name⟩)).isNone) &&
        comesTo fs (path.join ⟨name⟩) (names ++ [name]) rest)

@[simp] theorem comesTo_nil : comesTo fs path names [] = true := rfl

@[simp] theorem filter_comesTo_nil :
    [[]].filter (comesTo fs path names) = [[]] := rfl

theorem comesTo_concat (below : List EntryName) (name : EntryName) :
    comesTo fs path names (below ++ [name]) = true ↔
      comesTo fs path names below = true ∧
        (below = [] ∨ fs.realFault? (path.below below) = none) ∧
        fs.lists (names ++ below) name = true ∧
        refusal? fs (names ++ below) ((path.below below).join ⟨name⟩) = none := by
  induction below generalizing path names with
  | nil => simp [comesTo]
  | cons first below ih =>
    have hpath : path.below (first :: below) = (path.join ⟨first⟩).below below := rfl
    have hmore : (below ++ [name]).isEmpty = false := by simp
    have hnames : names ++ first :: below = names ++ [first] ++ below := by simp
    rw [List.cons_append, comesTo, comesTo, hpath, hnames, hmore]
    simp only [Bool.and_eq_true, ih, Bool.false_or, Option.isNone_iff_eq_none, Bool.or_eq_true,
      List.isEmpty_iff]
    cases below with
    | nil => simp [comesTo, and_assoc]
    | cons second below =>
      simp only [List.cons_ne_nil, false_or]
      tauto

/-- The files of a tree at `path` to which the walk comes. -/
def filesBelow (fs : FileSystem) (root path : Path) (names : List EntryName) (node : Node) :
    List FileReference :=
  ((node.filePlaces.filter (comesTo fs path names)).map path.below).map (FileReference.ofPath root)

/-- The files that the visit of the node at `path` comes to: none in a directory that has no real
path. -/
def filesAt (fs : FileSystem) (root path : Path) (names : List EntryName) (node : Node) :
    List FileReference :=
  if node.isDirectory && (fs.realFault? path).isSome then []
  else filesBelow fs root path names node

theorem ne_nil_of_mem_filePlaces (h : names ∈ (Node.directory entries).filePlaces) :
    names ≠ [] := by
  rw [Node.filePlaces_directory, List.mem_flatMap] at h
  obtain ⟨entry, -, hnames⟩ := h
  obtain ⟨below, -, rfl⟩ := List.mem_map.mp hnames
  exact List.cons_ne_nil _ _

/-- The walk comes to the places below an entry that it comes to from its node, if the entry is listed
and can be looked at. -/
theorem filter_comesTo_entry (name : EntryName) (child : Node) :
    (child.filePlaces.map (name :: ·)).filter (comesTo fs path names) =
      if fs.lists names name && (refusal? fs names (path.join ⟨name⟩)).isNone then
        if child.isDirectory && (fs.realFault? (path.join ⟨name⟩)).isSome then []
        else (child.filePlaces.filter (comesTo fs (path.join ⟨name⟩) (names ++ [name]))).map
          (name :: ·)
      else [] := by
  have hcomes : ∀ rest, comesTo fs path names (name :: rest) =
      (fs.lists names name && (refusal? fs names (path.join ⟨name⟩)).isNone &&
        ((rest.isEmpty || (fs.realFault? (path.join ⟨name⟩)).isNone) &&
          comesTo fs (path.join ⟨name⟩) (names ++ [name]) rest)) := fun rest => rfl
  rw [List.filter_map]
  simp only [Function.comp_def, hcomes]
  cases fs.lists names name && (refusal? fs names (path.join ⟨name⟩)).isNone with
  | false => simp
  | true =>
    simp only [Bool.true_and, if_true]
    cases child with
    | directory inner =>
      cases fs.realFault? (path.join ⟨name⟩) with
      | none => simp [Node.isDirectory]
      | some errno =>
        have hnone : ∀ rest ∈ (Node.directory inner).filePlaces, ¬ ((rest.isEmpty ||
            (some errno).isNone) && comesTo fs (path.join ⟨name⟩) (names ++ [name]) rest) = true := by
          intro rest hrest
          simp [ne_nil_of_mem_filePlaces hrest]
        rw [List.filter_eq_nil_iff.mpr hnone]
        rfl
    | file content => simp [Node.filePlaces, Node.isDirectory]
    | link target | pipe written => simp [Node.filePlaces, Node.isDirectory]

theorem filesBelow_directory (fs : FileSystem) (root path : Path) (names : List EntryName)
    (entries : List (EntryName × Node)) :
    filesBelow fs root path names (.directory entries) =
      entries.flatMap fun entry =>
        if fs.lists names entry.1 && (refusal? fs names (path.join ⟨entry.1⟩)).isNone then
          filesAt fs root (path.join ⟨entry.1⟩) (names ++ [entry.1]) entry.2
        else [] := by
  rw [filesBelow, Node.filePlaces_directory, List.filter_flatMap, List.map_flatMap,
    List.map_flatMap]
  refine List.flatMap_congr fun entry _ => ?_
  rw [filter_comesTo_entry]
  split
  · unfold filesAt filesBelow
    split
    · rfl
    · rw [List.map_map, List.map_map, List.map_map]
      rfl
  · rfl

theorem files_screened {name : EntryName} {brought : Progress} :
    (screened fs names name path brought).files =
      if fs.lists names name && (refusal? fs names path).isNone then brought.files else [] := by
  unfold screened
  cases fs.lists names name with
  | false => rfl
  | true => cases refusal? fs names path <;> rfl

theorem files_gatherEntries_eq_flatMap (fs : FileSystem) (selection : Selection) (root path : Path)
    (names : List EntryName) (visited : List (List EntryName))
    (entries : List (EntryName × Node)) :
    (gatherEntries fs selection root path names visited entries).files =
      entries.flatMap fun entry =>
        if fs.lists names entry.1 && (refusal? fs names (path.join ⟨entry.1⟩)).isNone then
          (gatherNode fs selection root (path.join ⟨entry.1⟩) (names ++ [entry.1]) visited
            entry.2).files
        else [] := by
  induction entries with
  | nil => rfl
  | cons entry entries ih =>
    obtain ⟨name, child⟩ := entry
    rw [gatherEntries, Progress.files_append, ih, List.flatMap_cons, files_screened]

/-- The visits of entries bring the wanted files of their directory, if each brings its own. -/
theorem files_gatherEntries_of_forall (selection : Selection)
    (h : ∀ entry ∈ entries, ∀ path names,
      (gatherNode fs selection root path names [] entry.2).files =
        (filesAt fs root path names entry.2).filter selection.accepts) (path : Path)
    (names : List EntryName) :
    (gatherEntries fs selection root path names [] entries).files =
      (filesBelow fs root path names (.directory entries)).filter selection.accepts := by
  rw [files_gatherEntries_eq_flatMap, filesBelow_directory, List.filter_flatMap]
  refine List.flatMap_congr fun entry hentry => ?_
  split
  · exact h entry hentry _ _
  · rfl

/-- **A visit brings the files of the tree that are wanted.** -/
theorem files_gatherNode (fs : FileSystem) (selection : Selection) (root path : Path)
    (names : List EntryName) (hproper : node.Proper) :
    (gatherNode fs selection root path names [] node).files =
      (filesAt fs root path names node).filter selection.accepts := by
  induction hproper generalizing path names with
  | @directory entries hnodup hnames hchildren ih =>
    have hentries := files_gatherEntries_of_forall selection
      (fun entry hentry path names => ih entry hentry path names) path names
    unfold gatherNode filesAt
    cases fs.realFault? path with
    | some errno => rfl
    | none => simp [Node.isDirectory, hentries]
  | file content =>
    unfold gatherNode filesAt
    cases haccepts : selection.accepts (.ofPath root path) <;>
      simp [Node.isDirectory, filesBelow, Node.filePlaces, haccepts, Progress.nothing]
  | link target =>
    unfold gatherNode
    split <;> rfl
  | pipe written => rfl

theorem files_gatherEntries (fs : FileSystem) (selection : Selection) (root path : Path)
    (names : List EntryName) (hproper : (Node.directory entries).Proper) :
    (gatherEntries fs selection root path names [] entries).files =
      (filesBelow fs root path names (.directory entries)).filter selection.accepts :=
  files_gatherEntries_of_forall selection
    (fun _ hentry path names => files_gatherNode fs selection root path names
      (hproper.child hentry)) path names

theorem mem_filesBelow_iff (hproper : node.Proper) {file : FileReference} :
    file ∈ filesBelow fs root path names node ↔ ∃ below content,
      node.find? below = some (.file content) ∧ comesTo fs path names below = true ∧
        file = .ofPath root (path.below below) := by
  simp only [filesBelow, List.mem_map, List.mem_filter]
  constructor
  · rintro ⟨_, ⟨below, ⟨hbelow, hcomes⟩, rfl⟩, rfl⟩
    obtain ⟨content, hfound⟩ := (Node.mem_filePlaces_iff hproper).mp hbelow
    exact ⟨below, content, hfound, hcomes, rfl⟩
  · rintro ⟨below, content, hfound, hcomes, rfl⟩
    have hbelow := (Node.mem_filePlaces_iff hproper).mpr ⟨content, hfound⟩
    exact ⟨_, ⟨below, ⟨hbelow, hcomes⟩, rfl⟩, rfl⟩

/-- The names that lead to a path below the root are its last components, so no two files have one
path. -/
theorem nodup_filesBelow (hproper : node.Proper) (hroot : root.isEmpty = false) :
    (filesBelow fs root root names node).Nodup := by
  have hplaces : (node.filePlaces.map root.below).Nodup := by
    refine (Node.nodup_filePlaces hproper).map_on ?_
    intro names hnames others hothers heq
    have hisName := Node.isName_of_mem_filePlaces hproper hnames
    have hisName' := Node.isName_of_mem_filePlaces hproper hothers
    exact Path.eq_of_components_below_eq hroot hisName hisName' (congrArg Path.components heq)
  refine (hplaces.sublist (List.filter_sublist.map _)).map ?_
  intro first second heq
  exact congrArg FileReference.path heq

/-- The files of the tree at the root, in the order in which they are listed. -/
def filesOf (fs : FileSystem) (root : Path) (names : List EntryName) (node : Node) :
    List FileReference :=
  (filesBelow fs root root names node).mergeSort FileReference.le

theorem mem_filesOf_iff (hproper : node.Proper) {file : FileReference} :
    file ∈ filesOf fs root names node ↔ ∃ below content,
      node.find? below = some (.file content) ∧ comesTo fs root names below = true ∧
        file = .ofPath root (root.below below) := by
  rw [filesOf, List.mem_mergeSort]
  exact mem_filesBelow_iff hproper

theorem nodup_filesOf (hproper : node.Proper) (hroot : root.isEmpty = false) :
    (filesOf fs root names node).Nodup :=
  (List.mergeSort_perm _ _).nodup_iff.mpr (nodup_filesBelow hproper hroot)

theorem isBelow_of_mem_filesBelow (hproper : node.Proper) {file : FileReference}
    (h : file ∈ filesBelow fs root root names node) :
    ∃ path, root.IsBelow path ∧ file = .ofPath root path := by
  obtain ⟨below, content, hfound, -, rfl⟩ := (mem_filesBelow_iff hproper).mp h
  exact ⟨_, ⟨below, hproper.isName_of_find? hfound, rfl⟩, rfl⟩

/-- The wanted files are sorted as all files are. -/
theorem mergeSort_filter_filesBelow (hproper : node.Proper) (hroot : root.isEmpty = false)
    (wanted : FileReference → Bool) :
    ((filesBelow fs root root names node).filter wanted).mergeSort FileReference.le =
      (filesOf fs root names node).filter wanted :=
  mergeSort_filter wanted fun _ ha _ hb =>
    eq_of_order_eq_eq hroot (isBelow_of_mem_filesBelow hproper ha)
      (isBelow_of_mem_filesBelow hproper hb)

/-- Trees that hold the same wanted files list them in the same order. -/
theorem filter_filesOf_congr {other : FileSystem} {tree : Node} (hproper : node.Proper)
    (hproper' : tree.Proper) (hroot : root.isEmpty = false) {wanted : FileReference → Bool}
    (h : ∀ file, wanted file = true →
      (file ∈ filesBelow fs root root names node ↔ file ∈ filesBelow other root root names tree)) :
    (filesOf fs root names node).filter wanted = (filesOf other root names tree).filter wanted := by
  rw [← mergeSort_filter_filesBelow hproper hroot, ← mergeSort_filter_filesBelow hproper' hroot]
  have hperm : ((filesBelow fs root root names node).filter wanted).Perm
      ((filesBelow other root root names tree).filter wanted) := by
    refine (List.perm_ext_iff_of_nodup ((nodup_filesBelow hproper hroot).filter _)
      ((nodup_filesBelow hproper' hroot).filter _)).mpr fun file => ?_
    rw [List.mem_filter, List.mem_filter]
    exact and_congr_left (h file)
  refine mergeSort_eq_of_perm hperm fun a ha b hb => ?_
  exact eq_of_order_eq_eq hroot (isBelow_of_mem_filesBelow hproper (List.mem_filter.mp ha).1)
    (isBelow_of_mem_filesBelow hproper (List.mem_filter.mp hb).1)

/-- Whether the walk comes to an entry depends on what is refused and on the real paths on the way. -/
theorem comesTo_congr {other : FileSystem} (hrefusals : other.refusals = fs.refusals)
    {below : List EntryName}
    (hreal : ∀ above, above <+: below → above ≠ below →
      other.realFault? (path.below above) = fs.realFault? (path.below above)) :
    comesTo other path names below = comesTo fs path names below := by
  induction below using List.reverseRecOn with
  | nil => rfl
  | append_singleton below name ih =>
    have hpre : below <+: below ++ [name] := List.prefix_append below [name]
    have hbelow := ih fun above habove hne => hreal above (habove.trans hpre) fun heq => by
      have hlength := habove.length_le
      rw [heq, List.length_append, List.length_singleton] at hlength
      omega
    have hlast : other.realFault? (path.below below) = fs.realFault? (path.below below) :=
      hreal below hpre (by simp)
    have hlists : other.lists (names ++ below) name = fs.lists (names ++ below) name := by
      rw [lists, lists, accessAt_congr hrefusals]
    rw [Bool.eq_iff_iff, comesTo_concat, comesTo_concat, hbelow, hlast, hlists, refusal?, refusal?,
      accessAt_congr hrefusals]

/-! ## Walks that follow no links -/

theorem links_screened {name : EntryName} {brought : Progress} (h : brought.links = []) :
    (screened fs names name path brought).links = [] :=
  @screened_cases fs path names name brought (fun progress => progress.links = []) h
    (fun _ => rfl) rfl

mutual

theorem links_gatherNode (hlinks : selection.followLinks = false) (fs : FileSystem)
    (root path : Path) (names : List EntryName) (visited : List (List EntryName)) (node : Node) :
    (gatherNode fs selection root path names visited node).links = [] := by
  unfold gatherNode
  cases node with
  | directory entries =>
    dsimp only
    split
    · rfl
    · split
      · rfl
      · simp [links_gatherEntries hlinks fs root path names visited entries]
  | file content =>
    dsimp only
    split <;> rfl
  | link target =>
    dsimp only
    rw [if_neg (by simp [hlinks])]
    rfl
  | pipe => rfl

theorem links_gatherEntries (hlinks : selection.followLinks = false) (fs : FileSystem)
    (root path : Path) (names : List EntryName) (visited : List (List EntryName))
    (entries : List (EntryName × Node)) :
    (gatherEntries fs selection root path names visited entries).links = [] := by
  match entries with
  | [] => rfl
  | (name, child) :: rest =>
    have hfirst := links_gatherNode hlinks fs root (path.join ⟨name⟩) (names ++ [name]) visited child
    rw [gatherEntries, Progress.links_append, links_screened hfirst,
      links_gatherEntries hlinks fs root path names visited rest, List.append_nil]

end

/-- **A walk that follows no links finds the wanted files among all files of the tree of its
root.** -/
theorem exists_discover_eq_filter (hlinks : selection.followLinks = false)
    (hproper : fs.root.Proper) (hroot : IsReadableDirectory fs root start entries) :
    ∃ skipped, discover fs selection root =
      .ok ((filesOf fs root start (.directory entries)).filter selection.accepts, skipped) := by
  have hdirectory := hproper.find? (find?_of_lookup hroot.1)
  have hfiles : (explore fs selection root start entries).files =
      (filesBelow fs root root start (.directory entries)).filter selection.accepts := by
    have hnone : (⟨claimed fs root start, [], [], []⟩ ++
        gatherEntries fs selection root root start [] entries : Progress).links = [] := by
      simp [links_gatherEntries hlinks]
    rw [explore_eq selection hproper hroot.1, followRounds_of_links_eq_nil _ hnone,
      Progress.files_append, List.nil_append, files_gatherEntries _ _ _ _ _ hdirectory]
  refine ⟨(explore fs selection root start entries).skipped, ?_⟩
  rw [discover_eq selection hroot, hfiles,
    mergeSort_filter_filesBelow hdirectory (isEmpty_of_lookup hroot.1)]

end Discovery

end FormsAudit
