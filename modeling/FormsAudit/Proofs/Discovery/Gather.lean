import FormsAudit.Discovery.Walk
import FormsAudit.Proofs.Beginnings
import FormsAudit.Proofs.FileSystem.Relisted

/-!
# What a visit brings

A walk carries its state from one entry to the next.  `gatherNode` says what the visit of a node
brings without that: every entry is looked at from the same state.  Entries of a directory lie at
different places, so the one cannot have walked what the other is to walk, and the two agree
(`visitNode_eq`).

What a visit brings is made of what its parts bring, and so the order of the parts shows in nothing
but the order of what is found (`gatherNode_relisted`).
-/

namespace FormsAudit.Discovery

namespace Progress

/-- What two parts of a walk bring together. -/
def append (first second : Progress) : Progress :=
  ⟨second.visited ++ first.visited, first.files ++ second.files, first.links ++ second.links,
    first.skipped ++ second.skipped⟩

instance : Append Progress := ⟨append⟩

/-- Nothing yet. -/
def nothing : Progress := ⟨[], [], [], []⟩

variable (first second third : Progress)

@[simp] theorem visited_append : (first ++ second).visited = second.visited ++ first.visited := rfl
@[simp] theorem files_append : (first ++ second).files = first.files ++ second.files := rfl
@[simp] theorem links_append : (first ++ second).links = first.links ++ second.links := rfl
@[simp] theorem skipped_append : (first ++ second).skipped = first.skipped ++ second.skipped := rfl

theorem ext_iff' {first second : Progress} :
    first = second ↔ first.visited = second.visited ∧ first.files = second.files ∧
      first.links = second.links ∧ first.skipped = second.skipped := by
  cases first
  cases second
  simp

@[simp] theorem append_nothing : first ++ nothing = first := by
  simp [ext_iff', nothing]

@[simp] theorem nothing_append : nothing ++ first = first := by
  simp [ext_iff', nothing]

theorem append_assoc : first ++ second ++ third = first ++ (second ++ third) := by
  simp [ext_iff']

end Progress

/-! ## Visits without a state -/

/-- What it brings to pass over an entry. -/
def Progress.passing (path : Path) (errno : Errno) : Progress := ⟨[], [], [], [⟨path, errno⟩]⟩

/-- What it brings to leave the directory at `path`: it is passed over if it did not list all of its
entries. -/
def leaving (fs : FileSystem) (names : List EntryName) (path : Path) : Progress :=
  match (fs.accessAt names).listing with
  | none => .nothing
  | some (_, errno) => .passing path errno

/-- What the visit of the entry `name` at `path` brings, in the directory with the names `names`, when
the visit of its node brings `brought`. -/
def screened (fs : FileSystem) (names : List EntryName) (name : EntryName) (path : Path)
    (brought : Progress) : Progress :=
  if fs.lists names name then
    match refusal? fs names path with
    | some errno => .passing path errno
    | none => brought
  else .nothing

mutual

/-- What a visit of the node at `path` brings, when the directories `visited` have been walked. -/
def gatherNode (fs : FileSystem) (selection : Selection) (root path : Path)
    (names : List EntryName) (visited : List (List EntryName)) (node : Node) : Progress :=
  match node with
  | .link _ => if selection.followLinks then ⟨[], [], [path], []⟩ else .nothing
  | .file _ =>
    if selection.accepts (.ofPath root path) then ⟨[], [.ofPath root path], [], []⟩
    else .nothing
  | .pipe _ => .nothing
  | .directory entries =>
    match fs.realFault? path with
    | some errno => .passing path errno
    | none =>
      if visited.contains names then .nothing
      else
        ⟨[names], [], [], []⟩ ++ gatherEntries fs selection root path names visited entries ++
          leaving fs names path

/-- What the visits of the entries of the directory at `path` bring. -/
def gatherEntries (fs : FileSystem) (selection : Selection) (root path : Path)
    (names : List EntryName) (visited : List (List EntryName))
    (entries : List (EntryName × Node)) : Progress :=
  match entries with
  | [] => .nothing
  | (name, child) :: rest =>
    screened fs names name (path.join ⟨name⟩)
        (gatherNode fs selection root (path.join ⟨name⟩) (names ++ [name]) visited child) ++
      gatherEntries fs selection root path names visited rest

end

variable {fs : FileSystem} {selection : Selection} {root path : Path}
  {names place : List EntryName} {name : EntryName} {visited others : List (List EntryName)}
  {brought : Progress}

/-- What holds of a visit of the node and of none holds of the visit of the entry. -/
theorem screened_cases {property : Progress → Prop} (hbrought : property brought)
    (hpassing : ∀ errno, property (.passing path errno)) (hnothing : property .nothing) :
    property (screened fs names name path brought) := by
  unfold screened
  split
  · split
    · exact hpassing _
    · exact hbrought
  · exact hnothing

theorem mem_visited_of_screened
    (h : place ∈ (screened fs names name path brought).visited) : place ∈ brought.visited := by
  revert h
  refine @screened_cases fs path names name brought
    (fun progress => place ∈ progress.visited → place ∈ brought.visited) id ?_ ?_
  · intro errno hplace
    simp [Progress.passing] at hplace
  · intro hplace
    simp [Progress.nothing] at hplace

@[simp] theorem visited_leaving : (leaving fs names path).visited = [] := by
  unfold leaving
  split <;> rfl

@[simp] theorem files_leaving : (leaving fs names path).files = [] := by
  unfold leaving
  split <;> rfl

@[simp] theorem links_leaving : (leaving fs names path).links = [] := by
  unfold leaving
  split <;> rfl

theorem leave_eq (progress : Progress) (fs : FileSystem) (names : List EntryName) (path : Path) :
    progress.leave fs names path = progress ++ leaving fs names path := by
  unfold Progress.leave leaving
  cases (fs.accessAt names).listing with
  | none => simp
  | some listing => simp [Progress.ext_iff', Progress.skip, Progress.passing]

mutual

/-- A visit walks directories at or below its own place only. -/
theorem prefix_of_mem_gatherNode (fs : FileSystem) (selection : Selection) (root path : Path)
    (names : List EntryName) (visited : List (List EntryName)) (node : Node)
    (hplace : place ∈ (gatherNode fs selection root path names visited node).visited) :
    names <+: place := by
  unfold gatherNode at hplace
  cases node with
  | directory entries =>
    dsimp only at hplace
    split at hplace
    · simp [Progress.passing] at hplace
    · split at hplace
      · simp [Progress.nothing] at hplace
      · simp only [Progress.visited_append, visited_leaving, List.nil_append, List.mem_append,
          List.mem_singleton] at hplace
        rcases hplace with hplace | rfl
        · obtain ⟨entry, -, hpre⟩ :=
            prefix_of_mem_gatherEntries fs selection root path names visited entries hplace
          exact isPrefix_of_concat hpre
        · exact List.prefix_rfl
  | link target =>
    dsimp only at hplace
    split at hplace <;> simp [Progress.nothing] at hplace
  | file content =>
    dsimp only at hplace
    split at hplace <;> simp [Progress.nothing] at hplace
  | pipe => simp [Progress.nothing] at hplace

theorem prefix_of_mem_gatherEntries (fs : FileSystem) (selection : Selection) (root path : Path)
    (names : List EntryName) (visited : List (List EntryName)) (entries : List (EntryName × Node))
    (hplace : place ∈ (gatherEntries fs selection root path names visited entries).visited) :
    ∃ entry ∈ entries, names ++ [entry.1] <+: place := by
  match entries with
  | [] => simp [gatherEntries, Progress.nothing] at hplace
  | (name, child) :: rest =>
    rw [gatherEntries, Progress.visited_append, List.mem_append] at hplace
    rcases hplace with hplace | hplace
    · obtain ⟨entry, hentry, hpre⟩ :=
        prefix_of_mem_gatherEntries fs selection root path names visited rest hplace
      exact ⟨entry, List.mem_cons_of_mem _ hentry, hpre⟩
    · exact ⟨(name, child), List.mem_cons_self,
        prefix_of_mem_gatherNode fs selection root _ (names ++ [name]) visited child
          (mem_visited_of_screened hplace)⟩

end

mutual

/-- A visit asks only whether directories at or below its own place have been walked. -/
theorem gatherNode_congr (fs : FileSystem) (selection : Selection) (root path : Path)
    (names : List EntryName) (node : Node)
    (h : ∀ place, names <+: place → (place ∈ visited ↔ place ∈ others)) :
    gatherNode fs selection root path names visited node =
      gatherNode fs selection root path names others node := by
  unfold gatherNode
  cases node with
  | directory entries =>
    have hcontains : visited.contains names = others.contains names := by
      rw [Bool.eq_iff_iff, List.contains_iff_mem, List.contains_iff_mem]
      exact h names List.prefix_rfl
    have hbelow : ∀ entry ∈ entries, ∀ place, names ++ [entry.1] <+: place →
        (place ∈ visited ↔ place ∈ others) := by
      intro entry _ place hpre
      exact h place (isPrefix_of_concat hpre)
    dsimp only
    rw [hcontains, gatherEntries_congr fs selection root path names entries hbelow]
  | _ => rfl

theorem gatherEntries_congr (fs : FileSystem) (selection : Selection) (root path : Path)
    (names : List EntryName) (entries : List (EntryName × Node))
    (h : ∀ entry ∈ entries, ∀ place, names ++ [entry.1] <+: place →
      (place ∈ visited ↔ place ∈ others)) :
    gatherEntries fs selection root path names visited entries =
      gatherEntries fs selection root path names others entries := by
  match entries with
  | [] => rfl
  | (name, child) :: rest =>
    rw [gatherEntries, gatherEntries,
      gatherNode_congr fs selection root _ (names ++ [name]) child (h _ List.mem_cons_self),
      gatherEntries_congr fs selection root path names rest fun entry hentry =>
        h entry (List.mem_cons_of_mem _ hentry)]

end

/-- Entries lie below their directory, so it does not matter to them whether this has been
walked. -/
theorem gatherEntries_cons_visited (fs : FileSystem) (selection : Selection) (root path : Path)
    (names : List EntryName) (visited : List (List EntryName))
    (entries : List (EntryName × Node)) :
    gatherEntries fs selection root path names (names :: visited) entries =
      gatherEntries fs selection root path names visited entries := by
  apply gatherEntries_congr
  intro entry _ place hpre
  have hne : place ≠ names := by
    rintro rfl
    have hlength := hpre.length_le
    rw [List.length_append, List.length_singleton] at hlength
    omega
  simp [hne]

/-- The entry adds to a walk what the visit of its node does, or it is passed over. -/
theorem skip_or_append_eq (fs : FileSystem) (names : List EntryName) (name : EntryName)
    (path : Path) (progress brought : Progress) :
    (if fs.lists names name then
      match refusal? fs names path with
      | some errno => progress.skip path errno
      | none => progress ++ brought
    else progress) = progress ++ screened fs names name path brought := by
  unfold screened
  split
  · split <;> simp [Progress.ext_iff', Progress.skip, Progress.passing]
  · simp

mutual

/-- **A visit adds to a walk what it brings.** -/
theorem visitNode_eq (fs : FileSystem) (selection : Selection) (root path : Path)
    (names : List EntryName) (node : Node) (hproper : node.Proper) (progress : Progress) :
    visitNode fs selection root path names node progress =
      progress ++ gatherNode fs selection root path names progress.visited node := by
  unfold visitNode gatherNode
  cases node with
  | directory entries =>
    dsimp only
    cases fs.realFault? path with
    | some errno => simp [Progress.ext_iff', Progress.skip, Progress.passing]
    | none =>
      dsimp only
      split
      · simp
      · rw [visitEntries_eq fs selection root path names entries hproper.nodup
          (fun entry hentry => hproper.child hentry), gatherEntries_cons_visited, leave_eq]
        simp [Progress.ext_iff']
  | link target =>
    dsimp only
    split <;> simp [Progress.ext_iff', Progress.nothing]
  | file content =>
    simp only [Progress.note]
    split <;> simp [Progress.ext_iff', Progress.nothing]
  | pipe => simp

theorem visitEntries_eq (fs : FileSystem) (selection : Selection) (root path : Path)
    (names : List EntryName) (entries : List (EntryName × Node))
    (hnodup : (entries.map Prod.fst).Nodup) (hproper : ∀ entry ∈ entries, entry.2.Proper)
    (progress : Progress) :
    visitEntries fs selection root path names entries progress =
      progress ++ gatherEntries fs selection root path names progress.visited entries := by
  match entries with
  | [] => simp [visitEntries, gatherEntries]
  | (name, child) :: rest =>
    rw [List.map_cons, List.nodup_cons] at hnodup
    have hchild := visitNode_eq fs selection root (path.join ⟨name⟩) (names ++ [name]) child
      (hproper _ List.mem_cons_self) progress
    rw [visitEntries, gatherEntries, hchild]
    refine (congrArg _ (skip_or_append_eq ..)).trans ?_
    rw [visitEntries_eq fs selection root path names rest hnodup.2
        (fun entry hentry => hproper entry (List.mem_cons_of_mem _ hentry)),
      Progress.append_assoc]
    -- what the first entry has walked lies at no place of the others
    congr 2
    apply gatherEntries_congr
    intro entry hentry place hpre
    rw [Progress.visited_append, List.mem_append, or_iff_right]
    intro hplace
    have hother := prefix_of_mem_gatherNode fs selection root _ (names ++ [name]) _ child
      (mem_visited_of_screened hplace)
    have hkey : entry.1 = name := concat_isPrefix_unique hpre hother
    exact hnodup.1 (List.mem_map.mpr ⟨entry, hentry, hkey⟩)

end

/-! ## What is asked of the file system -/

section Congr

variable {other : FileSystem}

theorem leaving_congr (hrefusals : other.refusals = fs.refusals) (names : List EntryName)
    (path : Path) : leaving other names path = leaving fs names path := by
  rw [leaving, leaving, FileSystem.accessAt_congr hrefusals]

theorem screened_congr (hrefusals : other.refusals = fs.refusals) (names : List EntryName)
    (name : EntryName) (path : Path) (brought : Progress) :
    screened other names name path brought = screened fs names name path brought := by
  have hlists : other.lists names name = fs.lists names name := by
    rw [FileSystem.lists, FileSystem.lists, FileSystem.accessAt_congr hrefusals]
  have hrefusal : refusal? other names path = refusal? fs names path := by
    rw [refusal?, refusal?, FileSystem.accessAt_congr hrefusals]
  rw [screened, screened, hlists, hrefusal]

mutual

/-- A visit asks the file system what it refuses and which paths have a real path, and no more. -/
theorem gatherNode_congr_fileSystem (hrefusals : other.refusals = fs.refusals)
    (hreal : ∀ path, other.realFault? path = fs.realFault? path) (selection : Selection)
    (root path : Path) (names : List EntryName) (visited : List (List EntryName)) (node : Node) :
    gatherNode other selection root path names visited node =
      gatherNode fs selection root path names visited node := by
  unfold gatherNode
  cases node with
  | directory entries =>
    dsimp only
    rw [hreal, leaving_congr hrefusals,
      gatherEntries_congr_fileSystem hrefusals hreal selection root path names visited entries]
  | _ => rfl

theorem gatherEntries_congr_fileSystem (hrefusals : other.refusals = fs.refusals)
    (hreal : ∀ path, other.realFault? path = fs.realFault? path) (selection : Selection)
    (root path : Path) (names : List EntryName) (visited : List (List EntryName))
    (entries : List (EntryName × Node)) :
    gatherEntries other selection root path names visited entries =
      gatherEntries fs selection root path names visited entries := by
  match entries with
  | [] => rfl
  | (name, child) :: rest =>
    rw [gatherEntries, gatherEntries, screened_congr hrefusals,
      gatherNode_congr_fileSystem hrefusals hreal selection root _ (names ++ [name]) visited child,
      gatherEntries_congr_fileSystem hrefusals hreal selection root path names visited rest]

end

end Congr

/-! ## The order of entries -/

/-- What two walks have found is the same, in some order. -/
structure Progress.Similar (first second : Progress) : Prop where
  visited : ∀ place, place ∈ first.visited ↔ place ∈ second.visited
  files : first.files.Perm second.files
  links : first.links.Perm second.links
  skipped : first.skipped.Perm second.skipped

namespace Progress.Similar

variable {first second third fourth : Progress}

theorem refl (progress : Progress) : Similar progress progress :=
  ⟨fun _ => Iff.rfl, .refl _, .refl _, .refl _⟩

theorem trans (h : Similar first second) (h' : Similar second third) : Similar first third :=
  ⟨fun place => (h.visited place).trans (h'.visited place), h.files.trans h'.files,
    h.links.trans h'.links, h.skipped.trans h'.skipped⟩

theorem append (h : Similar first second) (h' : Similar third fourth) :
    Similar (first ++ third) (second ++ fourth) :=
  ⟨fun place => by simp [h.visited place, h'.visited place], h.files.append h'.files,
    h.links.append h'.links, h.skipped.append h'.skipped⟩

theorem append_comm (first second third : Progress) :
    Similar (first ++ (second ++ third)) (second ++ (first ++ third)) := by
  refine ⟨?_, List.perm_append_comm_assoc .., List.perm_append_comm_assoc ..,
    List.perm_append_comm_assoc ..⟩
  intro place
  simp only [Progress.visited_append, List.mem_append]
  tauto

end Progress.Similar

theorem screened_similar {first second : Progress} (h : first.Similar second) :
    (screened fs names name path first).Similar (screened fs names name path second) := by
  unfold screened
  split
  · split
    · exact .refl _
    · exact h
  · exact .refl _

theorem gatherEntries_append (fs : FileSystem) (selection : Selection) (root path : Path)
    (names : List EntryName) (visited : List (List EntryName))
    (first second : List (EntryName × Node)) :
    gatherEntries fs selection root path names visited (first ++ second) =
      gatherEntries fs selection root path names visited first ++
        gatherEntries fs selection root path names visited second := by
  induction first with
  | nil => simp [gatherEntries]
  | cons entry first ih =>
    obtain ⟨name, child⟩ := entry
    rw [List.cons_append, gatherEntries, gatherEntries, ih, Progress.append_assoc]

/-- Entries in another order bring the same in another order. -/
theorem gatherEntries_perm {first second : List (EntryName × Node)} (h : first.Perm second)
    (path : Path) (names : List EntryName) :
    (gatherEntries fs selection root path names visited first).Similar
      (gatherEntries fs selection root path names visited second) := by
  induction h with
  | nil => exact .refl _
  | cons entry _ ih =>
    obtain ⟨name, child⟩ := entry
    rw [gatherEntries, gatherEntries]
    exact (Progress.Similar.refl _).append ih
  | swap entry other rest =>
    obtain ⟨name, child⟩ := entry
    obtain ⟨key, node⟩ := other
    simp only [gatherEntries]
    exact .append_comm _ _ _
  | trans _ _ ih₁ ih₂ => exact ih₁.trans ih₂

private theorem gatherNode_directory {entries others : List (EntryName × Node)}
    (h : (gatherEntries fs selection root path names visited entries).Similar
      (gatherEntries fs selection root path names visited others)) :
    (gatherNode fs selection root path names visited (.directory entries)).Similar
      (gatherNode fs selection root path names visited (.directory others)) := by
  unfold gatherNode
  split
  · exact .refl _
  · split
    · exact .refl _
    · exact ((Progress.Similar.refl _).append h).append (.refl _)

private theorem gatherEntries_inside {before after : List (EntryName × Node)} {child other : Node}
    (h : ∀ path names, (gatherNode fs selection root path names visited child).Similar
      (gatherNode fs selection root path names visited other)) (path : Path)
    (names : List EntryName) :
    (gatherEntries fs selection root path names visited (before ++ (name, child) :: after)).Similar
      (gatherEntries fs selection root path names visited
        (before ++ (name, other) :: after)) := by
  rw [gatherEntries_append, gatherEntries_append, gatherEntries, gatherEntries]
  exact (Progress.Similar.refl _).append ((screened_similar (h _ _)).append (.refl _))

/-- **A tree whose directories list their entries in another order brings the same.** -/
theorem gatherNode_relisted {node other : Node} (h : node.Relisted other) (path : Path)
    (names : List EntryName) :
    (gatherNode fs selection root path names visited node).Similar
      (gatherNode fs selection root path names visited other) := by
  induction h generalizing path names with
  | refl => exact .refl _
  | trans _ _ ih₁ ih₂ => exact (ih₁ path names).trans (ih₂ path names)
  | permuted hperm => exact gatherNode_directory (gatherEntries_perm hperm path names)
  | inside _ ih => exact gatherNode_directory (gatherEntries_inside ih path names)

/-- The entries of a directory bring what those of a relisted one do. -/
theorem gatherEntries_relisted {entries others : List (EntryName × Node)}
    (h : (Node.directory entries).Relisted (.directory others)) (path : Path)
    (names : List EntryName) :
    (gatherEntries fs selection root path names visited entries).Similar
      (gatherEntries fs selection root path names visited others) := by
  generalize hfirst : Node.directory entries = first at h
  generalize hsecond : Node.directory others = second at h
  induction h generalizing entries others with
  | refl =>
    obtain rfl := Node.directory.inj (hfirst.trans hsecond.symm)
    exact .refl _
  | trans hab hbc ih₁ ih₂ =>
    subst hfirst hsecond
    obtain ⟨middle, rfl⟩ := hab.exists_entries
    exact (ih₁ rfl rfl).trans (ih₂ rfl rfl)
  | permuted hperm =>
    obtain rfl := Node.directory.inj hfirst
    obtain rfl := Node.directory.inj hsecond
    exact gatherEntries_perm hperm path names
  | inside hchild =>
    obtain rfl := Node.directory.inj hfirst
    obtain rfl := Node.directory.inj hsecond
    exact gatherEntries_inside (gatherNode_relisted hchild) path names

/-! ## Where things are found -/

/-- The links that wait, and the files found, lie below the root. -/
structure Progress.Below (root : Path) (progress : Progress) : Prop where
  links : ∀ link ∈ progress.links, root.IsBelow link
  files : ∀ file ∈ progress.files, ∃ path, root.IsBelow path ∧ file = .ofPath root path

theorem Progress.Below.nothing : Progress.nothing.Below root :=
  ⟨by simp [Progress.nothing], by simp [Progress.nothing]⟩

theorem Progress.Below.passing (path : Path) (errno : Errno) :
    (Progress.passing path errno).Below root :=
  ⟨by simp [Progress.passing], by simp [Progress.passing]⟩

theorem Progress.Below.append {first second : Progress} (h : first.Below root)
    (h' : second.Below root) : (first ++ second).Below root := by
  constructor
  · intro link hlink
    rcases List.mem_append.mp hlink with hlink | hlink
    · exact h.links link hlink
    · exact h'.links link hlink
  · intro file hfile
    rcases List.mem_append.mp hfile with hfile | hfile
    · exact h.files file hfile
    · exact h'.files file hfile

mutual

theorem below_gatherNode (fs : FileSystem) (selection : Selection) (root path : Path)
    (names : List EntryName) (visited : List (List EntryName)) (node : Node)
    (hproper : node.Proper) (hpath : root.IsBelow path) :
    (gatherNode fs selection root path names visited node).Below root := by
  unfold gatherNode
  cases node with
  | directory entries =>
    dsimp only
    split
    · exact .passing _ _
    · split
      · exact .nothing
      · have hentriesProper : ∀ name child, (name, child) ∈ entries →
            Path.IsName name ∧ child.Proper := by
          intro name child hentry
          exact ⟨hproper.isName hentry, hproper.child hentry⟩
        have hentries :=
          below_gatherEntries fs selection root path names visited entries hentriesProper hpath
        exact (Progress.Below.append ⟨by simp, by simp⟩ hentries).append ⟨by simp, by simp⟩
  | link target =>
    dsimp only
    split
    · exact ⟨by simpa using hpath, by simp⟩
    · exact .nothing
  | file content =>
    dsimp only
    split
    · exact ⟨by simp, fun file hfile => ⟨path, hpath, List.mem_singleton.mp hfile⟩⟩
    · exact .nothing
  | pipe => exact .nothing

theorem below_gatherEntries (fs : FileSystem) (selection : Selection) (root path : Path)
    (names : List EntryName) (visited : List (List EntryName)) (entries : List (EntryName × Node))
    (hproper : ∀ name child, (name, child) ∈ entries → Path.IsName name ∧ child.Proper)
    (hpath : root.IsBelow path) :
    (gatherEntries fs selection root path names visited entries).Below root := by
  match entries with
  | [] => exact .nothing
  | (name, child) :: rest =>
    obtain ⟨hname, hchild⟩ := hproper name child List.mem_cons_self
    have hfirst := below_gatherNode fs selection root _ (names ++ [name]) visited child hchild
      (hpath.join hname)
    have hrest := below_gatherEntries fs selection root path names visited rest
      (fun other node hentry => hproper other node (List.mem_cons_of_mem _ hentry)) hpath
    rw [gatherEntries]
    exact (screened_cases hfirst (.passing _) .nothing).append hrest

end

end FormsAudit.Discovery
