import FormsAudit.Discovery.Walk
import FormsAudit.Proofs.FileSystem.Joined
import FormsAudit.Proofs.FileSystem.Relisted

/-!
# What a visit lists

A walk keeps the places of the directories that it has listed, but not by which paths it came to
them.  `Walked` adds these: a visit lists directories, each of which is `Listed` with its path, and
looks once at every entry that each lists.  What it finds is then what those entries bring one by one
(`Entry.file?`, `Entry.link?`, `Entry.fault?`), whatever the order in which it came to them.  An
entry that the system refuses brings a fault and nothing else.

`exists_walked_visitNode` says that every visit is such, and that what it lists has every property
that the directories among the entries have from their own (`Inherited`).  One such is to be `Sound`:
the path leads to the directory, lies below the root, and the directory can be reached.
-/

namespace FormsAudit.Discovery

open FileSystem

/-! ## Directories and their entries -/

/-- A directory that is listed, and the path by which the walk has come to it. -/
structure Listed where
  names : List EntryName
  path : Path
  deriving DecidableEq, Repr

/-- A node that the walk comes to: by which path, where it lies, and why it cannot be looked at, if it
cannot. -/
structure Entry where
  path : Path
  names : List EntryName
  node : Node
  refusal : Option Errno := none

namespace Entry

/-- Why the walk goes no further at the entry: it cannot be looked at, or it is a directory that has
no real path. -/
def error? (fs : FileSystem) (entry : Entry) : Option Errno :=
  entry.refusal.or (if entry.node.isDirectory then fs.realFault? entry.path else none)

/-- The file that the entry is, if it is wanted. -/
def file? (fs : FileSystem) (selection : Selection) (root : Path) (entry : Entry) :
    Option FileReference :=
  match entry.node with
  | .file _ =>
    if (entry.error? fs).isNone && selection.accepts (.ofPath root entry.path) then
      some (.ofPath root entry.path)
    else none
  | _ => none

/-- The link that the entry is, if links are followed. -/
def link? (fs : FileSystem) (selection : Selection) (entry : Entry) : Option Path :=
  match entry.node with
  | .link _ => if (entry.error? fs).isNone && selection.followLinks then some entry.path else none
  | _ => none

/-- The place of the directory that the entry is. -/
def directory? (fs : FileSystem) (entry : Entry) : Option (List EntryName) :=
  match entry.node with
  | .directory _ => if (entry.error? fs).isNone then some entry.names else none
  | _ => none

/-- Why the entry is passed over, if it is. -/
def fault? (fs : FileSystem) (entry : Entry) : Option SkippedEntry :=
  (entry.error? fs).map fun errno => ⟨entry.path, errno⟩

end Entry

namespace Listed

/-- The entry of the directory at `path`. -/
def entry (fs : FileSystem) (listed : Listed) (item : EntryName × Node) : Entry :=
  ⟨listed.path.join ⟨item.1⟩, listed.names ++ [item.1], item.2,
    refusal? fs listed.names (listed.path.join ⟨item.1⟩)⟩

/-- The entries that a directory lists. -/
def entries (fs : FileSystem) (listed : Listed) : List Entry :=
  ((((fs.root.find? listed.names).map Node.entries).getD []).filter fun item =>
    fs.lists listed.names item.1).map (listed.entry fs)

/-- Why the directory is passed over in the middle of its entries, if it is. -/
def fault? (fs : FileSystem) (listed : Listed) : Option SkippedEntry :=
  (fs.accessAt listed.names).listing.map fun listing => ⟨listed.path, listing.2⟩

end Listed

/-- The entries of all listed directories. -/
def entriesOf (fs : FileSystem) (listing : List Listed) : List Entry :=
  listing.flatMap (Listed.entries fs)

theorem entries_eq {fs : FileSystem} (listed : Listed) {entries : List (EntryName × Node)}
    (h : fs.root.find? listed.names = some (.directory entries)) :
    listed.entries fs =
      (entries.filter fun item => fs.lists listed.names item.1).map (listed.entry fs) := by
  rw [Listed.entries, h]
  rfl

/-! ## Directories that can be reached -/

/-- The directories to which entries lead, links followed, from one that can be reached. -/
inductive Reachable (fs : FileSystem) (start : List EntryName) : List EntryName → Prop
  | start : Reachable fs start start
  | step {names final : List EntryName} {name : EntryName} {entries : List (EntryName × Node)} :
      Reachable fs start names → Leads fs names [.normal name] final →
      fs.root.find? final = some (.directory entries) → Reachable fs start final

/-- The directory is there, can be reached, and its path leads to it. -/
structure Sound (fs : FileSystem) (root : Path) (start : List EntryName) (listed : Listed) :
    Prop where
  found : ∃ entries, fs.root.find? listed.names = some (.directory entries)
  reachable : Reachable fs start listed.names
  leads : PathLeads fs listed.path listed.names
  below : root.IsBelow listed.path

variable {fs : FileSystem} {root : Path} {start : List EntryName}

theorem Sound.step {listed : Listed} (h : Sound fs root start listed) {name : EntryName}
    (hname : Path.IsName name) {final : List EntryName}
    (hleads : PathLeads fs (listed.path.join ⟨name⟩) final)
    (hfound : ∃ entries, fs.root.find? final = some (.directory entries)) :
    Sound fs root start ⟨final, listed.path.join ⟨name⟩⟩ := by
  obtain ⟨entries, hentries⟩ := hfound
  have hstep : Leads fs listed.names [.normal name] final := (h.leads.join_iff hname).mp hleads
  exact ⟨⟨entries, hentries⟩, h.reachable.step hstep hentries, hleads, h.below.join hname⟩

/-- An entry that is no link lies where its path leads. -/
theorem Sound.leads_entry {listed : Listed} (h : Sound fs root start listed) {name : EntryName}
    (hname : Path.IsName name) {child : Node}
    (hchild : fs.root.find? (listed.names ++ [name]) = some child)
    (hlink : ∀ target, child ≠ .link target) :
    PathLeads fs (listed.path.join ⟨name⟩) (listed.names ++ [name]) := by
  obtain ⟨entries, hfound⟩ := h.found
  have hlookup : entries.lookup name = some child := by rw [← find?_concat name hfound, hchild]
  exact (h.leads.join_iff hname).mpr (.step (.entry hfound hlookup hlink) (.here hchild))

/-- A directory among the entries of a listed one has the property that this has. -/
def Inherited (fs : FileSystem) (property : Listed → Prop) : Prop :=
  ∀ listed name inner, property listed → Path.IsName name →
    fs.root.find? (listed.names ++ [name]) = some (.directory inner) →
      property ⟨listed.names ++ [name], listed.path.join ⟨name⟩⟩

theorem Inherited.and {first second : Listed → Prop} (h : Inherited fs first)
    (h' : Inherited fs second) : Inherited fs fun listed => first listed ∧ second listed :=
  fun listed name inner hlisted hname hinner =>
    ⟨h listed name inner hlisted.1 hname hinner, h' listed name inner hlisted.2 hname hinner⟩

theorem inherited_sound : Inherited fs (Sound fs root start) := by
  intro listed name inner hsound hname hinner
  exact hsound.step hname (hsound.leads_entry hname hinner (by simp)) ⟨inner, hinner⟩

/-! ## Visits -/

/-- What is between two states of a walk: the entries `own` have been visited, the directories of
`listing` listed on the way, and the entries `processed` looked at in their order. -/
structure Walked (fs : FileSystem) (selection : Selection) (root : Path)
    (own processed : List Entry) (listing : List Listed) (before after : Progress) : Prop where
  perm : processed.Perm (own ++ entriesOf fs listing)
  visited : after.visited = listing.map Listed.names ++ before.visited
  files : after.files = before.files ++ processed.filterMap (Entry.file? fs selection root)
  links : after.links = before.links ++ processed.filterMap (Entry.link? fs selection)
  skipped : after.skipped.Perm (before.skipped ++
    (processed.filterMap (Entry.fault? fs) ++ listing.filterMap (Listed.fault? fs)))
  directories : ∀ entry ∈ processed, ∀ names,
    entry.directory? fs = some names → names ∈ after.visited
  nodup : before.visited.Nodup → after.visited.Nodup
  real : ∀ listed ∈ listing, fs.realFault? listed.path = none

section Walked

variable {selection : Selection} {before middle after : Progress}

theorem Walked.append {own others processed processed' : List Entry}
    {listing listing' : List Listed}
    (h : Walked fs selection root own processed listing before middle)
    (h' : Walked fs selection root others processed' listing' middle after) :
    Walked fs selection root (own ++ others) (processed ++ processed') (listing' ++ listing)
      before after where
  perm := by
    have hparts := h.perm.append h'.perm
    rw [List.append_assoc] at hparts
    refine hparts.trans ?_
    have hmoved : (entriesOf fs listing ++ (others ++ entriesOf fs listing')).Perm
        (others ++ entriesOf fs listing' ++ entriesOf fs listing) := List.perm_append_comm
    simpa [entriesOf] using hmoved.append_left own
  visited := by rw [h'.visited, h.visited, List.map_append, List.append_assoc]
  files := by rw [h'.files, h.files, List.filterMap_append, List.append_assoc]
  links := by rw [h'.links, h.links, List.filterMap_append, List.append_assoc]
  skipped := by
    refine h'.skipped.trans ((h.skipped.append_right _).trans ?_)
    simp only [List.filterMap_append, List.append_assoc]
    refine .append_left _ (.append_left _ ?_)
    -- the faults of the directories that were listed first move to the end
    refine List.perm_append_comm.trans ?_
    simp only [List.append_assoc]
    exact .refl _
  directories := by
    intro entry hentry names hnames
    rcases List.mem_append.mp hentry with hentry | hentry
    · rw [h'.visited]
      exact List.mem_append_right _ (h.directories entry hentry names hnames)
    · exact h'.directories entry hentry names hnames
  nodup hnodup := h'.nodup (h.nodup hnodup)
  real := by
    intro listed hlisted
    rcases List.mem_append.mp hlisted with hlisted | hlisted
    · exact h'.real listed hlisted
    · exact h.real listed hlisted

theorem walked_nothing : Walked fs selection root [] [] [] before before :=
  ⟨.refl _, rfl, by simp, by simp, by simp, by simp, id, by simp⟩

/-- The visit of an entry that is no directory to list. -/
theorem walked_leaf {entry : Entry}
    (hvisited : after.visited = before.visited)
    (hfiles : after.files = before.files ++ (entry.file? fs selection root).toList)
    (hlinks : after.links = before.links ++ (entry.link? fs selection).toList)
    (hskipped : after.skipped = before.skipped ++ (entry.fault? fs).toList)
    (hdirectory : ∀ names, entry.directory? fs = some names → names ∈ before.visited) :
    Walked fs selection root [entry] [entry] [] before after where
  perm := .refl _
  visited := hvisited
  files := by rw [hfiles]; cases h : entry.file? fs selection root <;> simp [h]
  links := by rw [hlinks]; cases h : entry.link? fs selection <;> simp [h]
  skipped := by rw [hskipped]; cases h : entry.fault? fs <;> simp [h]
  directories := by
    intro other hother
    rw [List.mem_singleton.mp hother, hvisited]
    exact hdirectory
  nodup hnodup := hvisited ▸ hnodup
  real := by simp

/-- An entry that is refused brings its fault alone. -/
theorem walked_refused {entry : Entry} {errno : Errno} (h : entry.error? fs = some errno) :
    Walked fs selection root [entry] [entry] [] before (before.skip entry.path errno) := by
  refine walked_leaf rfl ?_ ?_ ?_ ?_
  · cases hnode : entry.node <;> simp [Progress.skip, Entry.file?, hnode, h]
  · cases hnode : entry.node <;> simp [Progress.skip, Entry.link?, hnode, h]
  · simp [Progress.skip, Entry.fault?, h]
  · intro names
    cases hnode : entry.node <;> simp [Entry.directory?, hnode, h]

/-- A directory that is seen is passed over for want of a real path alone. -/
theorem error?_directory {path : Path} {names : List EntryName}
    {entries : List (EntryName × Node)} :
    Entry.error? fs ⟨path, names, .directory entries, none⟩ = fs.realFault? path := rfl

theorem leave_eq_fault? (progress : Progress) (listed : Listed) :
    progress.leave fs listed.names listed.path =
      { progress with skipped := progress.skipped ++ (listed.fault? fs).toList } := by
  unfold Progress.leave Listed.fault?
  cases (fs.accessAt listed.names).listing <;> simp [Progress.skip]

/-- The visit of a directory that is listed. -/
theorem Walked.directory {entry : Entry} {processed : List Entry} {listing : List Listed}
    {entries : List (EntryName × Node)} (hnode : entry.node = .directory entries)
    (herror : entry.error? fs = none) (hnew : entry.names ∉ before.visited)
    (hreal : fs.realFault? entry.path = none)
    (h : Walked fs selection root (Listed.entries fs ⟨entry.names, entry.path⟩) processed listing
      { before with visited := entry.names :: before.visited } after) :
    Walked fs selection root [entry] (entry :: processed) (listing ++ [⟨entry.names, entry.path⟩])
      before (after.leave fs entry.names entry.path) := by
  rw [leave_eq_fault? after ⟨entry.names, entry.path⟩]
  refine ⟨?perm, ?visited, ?files, ?links, ?skipped, ?directories, ?nodup, ?real⟩
  case perm =>
    have hentries : entriesOf fs (listing ++ [⟨entry.names, entry.path⟩]) =
        entriesOf fs listing ++ Listed.entries fs ⟨entry.names, entry.path⟩ := by
      simp [entriesOf]
    rw [hentries]
    exact (h.perm.trans List.perm_append_comm).cons entry
  case visited => rw [h.visited, List.map_append]; simp
  case files => rw [h.files, List.filterMap_cons_none]; simp [Entry.file?, hnode]
  case links => rw [h.links, List.filterMap_cons_none]; simp [Entry.link?, hnode]
  case skipped =>
    have hfault : entry.fault? fs = none := by simp [Entry.fault?, herror]
    have hlast : [(⟨entry.names, entry.path⟩ : Listed)].filterMap (Listed.fault? fs) =
        (Listed.fault? fs ⟨entry.names, entry.path⟩).toList := by
      cases hbroken : Listed.fault? fs ⟨entry.names, entry.path⟩ <;> simp [hbroken]
    rw [List.filterMap_cons_none hfault, List.filterMap_append, hlast]
    simpa using h.skipped.append_right (Listed.fault? fs ⟨entry.names, entry.path⟩).toList
  case directories =>
    intro other hother names hnames
    rcases List.mem_cons.mp hother with rfl | hother
    · have heq : names = other.names := by
        simpa [Entry.directory?, hnode, herror, eq_comm] using hnames
      rw [h.visited, heq]
      simp
    · exact h.directories other hother names hnames
  case nodup => exact fun hnodup => h.nodup (List.nodup_cons.mpr ⟨hnew, hnodup⟩)
  case real =>
    intro listed hlisted
    rcases List.mem_append.mp hlisted with hlisted | hlisted
    · exact h.real listed hlisted
    · rw [List.mem_singleton.mp hlisted]
      exact hreal

/-- The visit of a node that is no directory to list looks at this node alone. -/
theorem walked_visitNode (selection : Selection) {entry : Entry} (progress : Progress)
    (hseen : entry.refusal = none)
    (h : ∀ names, entry.directory? fs = some names → names ∈ progress.visited) :
    Walked fs selection root [entry] [entry] [] progress
      (visitNode fs selection root entry.path entry.names entry.node progress) := by
  obtain ⟨path, names, node, refusal⟩ := entry
  obtain rfl : refusal = none := hseen
  unfold visitNode
  cases node with
  | link target =>
    dsimp only
    split <;> refine walked_leaf rfl ?_ ?_ ?_ h <;>
      simp_all [Entry.file?, Entry.link?, Entry.fault?, Entry.error?, Node.isDirectory]
  | file content =>
    dsimp only [Progress.note]
    split <;> refine walked_leaf rfl ?_ ?_ ?_ h <;>
      simp_all [Entry.file?, Entry.link?, Entry.fault?, Entry.error?, Node.isDirectory]
  | pipe written =>
    refine walked_leaf rfl ?_ ?_ ?_ h <;>
      simp [Entry.file?, Entry.link?, Entry.fault?, Entry.error?, Node.isDirectory]
  | directory entries =>
    dsimp only
    cases hreal : fs.realFault? path with
    | some errno => exact walked_refused (error?_directory.trans hreal)
    | none =>
      have herror : Entry.error? fs ⟨path, names, .directory entries, none⟩ = none :=
        error?_directory.trans hreal
      have hvisited : names ∈ progress.visited := by
        apply h names
        simp [Entry.directory?, herror]
      dsimp only
      rw [if_pos (List.contains_iff_mem.mpr hvisited)]
      refine walked_leaf rfl ?_ ?_ ?_ h <;> simp [Entry.file?, Entry.link?, Entry.fault?, herror]

end Walked

variable {property : Listed → Prop}

mutual

/-- **A visit lists the directories that it comes to, and looks once at every entry of each.** -/
theorem exists_walked_visitNode (hinherited : Inherited fs property) (selection : Selection)
    (root path : Path) (names : List EntryName) (node : Node) (progress : Progress)
    (hproper : node.Proper) (hfound : fs.root.find? names = some node)
    (hproperty : node.isDirectory = true → property ⟨names, path⟩) :
    ∃ processed listing, Walked fs selection root [⟨path, names, node, none⟩] processed listing
        progress (visitNode fs selection root path names node progress) ∧
      ∀ listed ∈ listing, property listed := by
  by_cases hlisted : ∀ other,
      Entry.directory? fs ⟨path, names, node, none⟩ = some other → other ∈ progress.visited
  · exact ⟨_, [], walked_visitNode selection progress rfl hlisted, by simp⟩
  · match node with
    | .file content | .link target | .pipe written => simp [Entry.directory?] at hlisted
    | .directory entries =>
      obtain ⟨hreal, hnew⟩ : fs.realFault? path = none ∧ names ∉ progress.visited := by
        simpa [Entry.directory?, error?_directory] using hlisted
      have hentries : ∀ item ∈ entries, fs.root.find? (names ++ [item.1]) = some item.2 ∧
          Path.IsName item.1 ∧ item.2.Proper := by
        rintro ⟨name, child⟩ hitem
        refine ⟨?_, hproper.isName hitem, hproper.child hitem⟩
        rw [find?_concat name hfound]
        exact (Node.lookup_eq_some_iff hproper.nodup).mpr hitem
      obtain ⟨processed, listing, hwalked, hlisting⟩ :=
        exists_walked_visitEntries hinherited selection root ⟨names, path⟩ entries
          { progress with visited := names :: progress.visited } (hproperty rfl) hentries
      rw [← entries_eq ⟨names, path⟩ hfound] at hwalked
      have hvisit : visitNode fs selection root path names (.directory entries) progress =
          (visitEntries fs selection root path names entries
            { progress with visited := names :: progress.visited }).leave fs names path := by
        unfold visitNode
        rw [hreal]
        dsimp only
        rw [if_neg (by simpa using hnew)]
      refine ⟨⟨path, names, .directory entries, none⟩ :: processed, listing ++ [⟨names, path⟩],
        ?_, ?_⟩
      · rw [hvisit]
        exact hwalked.directory rfl (error?_directory.trans hreal) hnew hreal
      intro listed hmem
      rcases List.mem_append.mp hmem with hmem | hmem
      · exact hlisting listed hmem
      · rw [List.mem_singleton.mp hmem]
        exact hproperty rfl

/-- The visits of entries of a listed directory. -/
theorem exists_walked_visitEntries (hinherited : Inherited fs property) (selection : Selection)
    (root : Path) (listed : Listed) (entries : List (EntryName × Node)) (progress : Progress)
    (hproperty : property listed)
    (hentries : ∀ item ∈ entries, fs.root.find? (listed.names ++ [item.1]) = some item.2 ∧
      Path.IsName item.1 ∧ item.2.Proper) :
    ∃ processed listing, Walked fs selection root
        ((entries.filter fun item => fs.lists listed.names item.1).map (listed.entry fs))
        processed listing progress
        (visitEntries fs selection root listed.path listed.names entries progress) ∧
      ∀ listed ∈ listing, property listed := by
  match entries with
  | [] =>
    unfold visitEntries
    exact ⟨[], [], walked_nothing, by simp⟩
  | (name, child) :: rest =>
    obtain ⟨hchild, hname, hproper⟩ := hentries (name, child) List.mem_cons_self
    have hrestEntries : ∀ item ∈ rest, fs.root.find? (listed.names ++ [item.1]) = some item.2 ∧
        Path.IsName item.1 ∧ item.2.Proper :=
      fun item hitem => hentries item (List.mem_cons_of_mem _ hitem)
    unfold visitEntries
    cases hlists : fs.lists listed.names name with
    | false =>
      rw [List.filter_cons_of_neg (by simp [hlists])]
      exact exists_walked_visitEntries hinherited selection root listed rest progress hproperty
        hrestEntries
    | true =>
      rw [List.filter_cons_of_pos (by simpa using hlists), List.map_cons]
      have hfirst : ∃ processed listing,
          Walked fs selection root [listed.entry fs (name, child)] processed listing progress
            (match refusal? fs listed.names (listed.path.join ⟨name⟩) with
            | some errno => progress.skip (listed.path.join ⟨name⟩) errno
            | none => visitNode fs selection root (listed.path.join ⟨name⟩) (listed.names ++ [name])
                child progress) ∧
          ∀ listed ∈ listing, property listed := by
        cases hrefusal : refusal? fs listed.names (listed.path.join ⟨name⟩) with
        | some errno =>
          have herror : (listed.entry fs (name, child)).error? fs = some errno := by
            simp [Entry.error?, Listed.entry, hrefusal]
          exact ⟨_, [], walked_refused herror, by simp⟩
        | none =>
          have hchildProperty : child.isDirectory = true →
              property ⟨listed.names ++ [name], listed.path.join ⟨name⟩⟩ := by
            intro hdirectory
            cases child with
            | directory inner => exact hinherited listed name inner hproperty hname hchild
            | _ => cases hdirectory
          have hentry : listed.entry fs (name, child) =
              ⟨listed.path.join ⟨name⟩, listed.names ++ [name], child, none⟩ := by
            simp [Listed.entry, hrefusal]
          rw [hentry]
          exact exists_walked_visitNode hinherited selection root (listed.path.join ⟨name⟩)
            (listed.names ++ [name]) child progress hproper hchild hchildProperty
      obtain ⟨processed, listing, hwalked, hlisting⟩ := hfirst
      obtain ⟨processed', listing', hrest, hlisting'⟩ :=
        exists_walked_visitEntries hinherited selection root listed rest _ hproperty hrestEntries
      refine ⟨processed ++ processed', listing' ++ listing, hwalked.append hrest, ?_⟩
      intro other hother
      rcases List.mem_append.mp hother with hother | hother
      · exact hlisting' other hother
      · exact hlisting other hother

end

end FormsAudit.Discovery
