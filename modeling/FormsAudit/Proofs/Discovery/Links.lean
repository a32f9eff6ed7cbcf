import FormsAudit.Proofs.Discovery.Rounds
import Mathlib

/-!
# Discovery through links

A walk that follows links comes to an end in every tree, whatever the links lead to and whatever
cannot be read, and lists no directory twice.  Each entry of the listed directories is settled on its
own (`Entry.found`): it has brought the file that it is or leads to, or it has been passed over, or
the directory to which it leads is listed.  Only what the system refuses keeps the walk from what an
entry leads to, and it does so for that entry alone (`discover_followLinks`).

No two entries have paths with the same components (`nodup_components`): the components tell by
which path the walk came to the directory of the entry, and a path leads to one directory.  So what
the entries bring is told apart by its path.
-/

namespace FormsAudit.Discovery

open FileSystem

variable {fs : FileSystem} {selection : Selection} {root : Path} {start : List EntryName}

/-- The entry is a regular file or a link that leads to one. -/
def Entry.IsFile (fs : FileSystem) (entry : Entry) : Prop :=
  ∃ place content, PathLeads fs entry.path place ∧ fs.root.find? place = some (.file content)

/-- The entry is a link that leads nowhere. -/
def Entry.IsDangling (fs : FileSystem) (entry : Entry) : Prop :=
  ∀ place, ¬ PathLeads fs entry.path place

/-- The system refuses nothing that the walk asks about the entry: it can be looked at, a link is
followed where it leads somewhere, and a directory to which the entry leads has a real path. -/
structure Entry.Admitted (fs : FileSystem) (entry : Entry) : Prop where
  seen : entry.refusal = none
  followed : ∀ target, entry.node = .link target → ∀ place, PathLeads fs entry.path place →
    ∃ node, fs.lookup entry.path = .ok (place, node)
  real : ∀ place inner, PathLeads fs entry.path place →
    fs.root.find? place = some (.directory inner) → fs.realFault? entry.path = none

/-- No limit of the system is in the way of the entry: its path is not too long, a link is not
refused for its depth where it leads somewhere, and the real path of a directory is not refused for
its length or the links on the way. -/
structure Entry.WithinLimits (fs : FileSystem) (entry : Entry) : Prop where
  short : entry.path.bytes.length < pathLimit
  followed : ∀ target, entry.node = .link target → ∀ place, PathLeads fs entry.path place →
    fs.lookup entry.path ≠ .error .tooManyLinks
  real : ∀ place inner, PathLeads fs entry.path place →
    fs.root.find? place = some (.directory inner) →
      fs.realFault? entry.path ≠ some .nameTooLong ∧ fs.realFault? entry.path ≠ some .tooManyLinks

/-! ## Entries and their paths -/

section Paths

variable {listing : List Listed}

theorem eq_of_components_join_eq (hroot : root.isEmpty = false) {first second : Listed}
    (hfirst : Sound fs root start first) (hsecond : Sound fs root start second)
    {name other : EntryName} (hname : Path.IsName name) (hother : Path.IsName other)
    (h : (first.path.join ⟨name⟩).components = (second.path.join ⟨other⟩).components) :
    first.names = second.names ∧ name = other := by
  rw [Path.components_join hfirst.leads.1 hname, Path.components_join hsecond.leads.1 hother] at h
  obtain ⟨hpaths, hnames⟩ := List.append_inj' h rfl
  have hpath : first.path = second.path :=
    hfirst.below.eq_of_components_eq hroot hsecond.below hpaths
  refine ⟨(hpath ▸ hfirst.leads).unique hsecond.leads, ?_⟩
  exact Path.Component.normal.inj (List.singleton_injective hnames)

/-- **The path of an entry tells it from every other.** -/
theorem nodup_components (hproper : fs.root.Proper) (hroot : root.isEmpty = false)
    (hnodup : (listing.map Listed.names).Nodup)
    (hsound : ∀ listed ∈ listing, Sound fs root start listed) :
    ((entriesOf fs listing).map fun entry => entry.path.components).Nodup := by
  rw [entriesOf, List.map_flatMap, List.nodup_flatMap]
  constructor
  · intro listed hlisted
    have hlistedSound := hsound listed hlisted
    obtain ⟨entries, hfound⟩ := hlistedSound.found
    have hdirectory := hproper.find? hfound
    have hmap : (listed.entries fs).map (fun entry => entry.path.components) =
        ((entries.filter fun item => fs.lists listed.names item.1).map Prod.fst).map
          fun name => (listed.path.join ⟨name⟩).components := by
      rw [entries_eq _ hfound, List.map_map, List.map_map]
      rfl
    have hlisted : ((entries.filter fun item => fs.lists listed.names item.1).map Prod.fst).Nodup :=
      hdirectory.nodup.sublist (List.filter_sublist.map _)
    rw [hmap]
    refine hlisted.map_on ?_
    have hname : ∀ name ∈ (entries.filter fun item => fs.lists listed.names item.1).map Prod.fst,
        Path.IsName name := by
      intro name hmem
      obtain ⟨item, hitem, rfl⟩ := List.mem_map.mp hmem
      exact hdirectory.isName (List.mem_filter.mp hitem).1
    intro name hmem other hother heq
    exact (eq_of_components_join_eq hroot hlistedSound hlistedSound (hname name hmem)
      (hname other hother) heq).2
  · have hplaces := List.pairwise_map.mp hnodup
    refine hplaces.imp_of_mem ?_
    intro first second hfirst hsecond hne components hleft hright
    -- an entry of both would make the two one directory
    obtain ⟨entry, hentry, rfl⟩ := List.mem_map.mp hleft
    obtain ⟨other, hother, heq⟩ := List.mem_map.mp hright
    obtain ⟨entries, hfound⟩ := (hsound first hfirst).found
    obtain ⟨others, hfoundOther⟩ := (hsound second hsecond).found
    rw [entries_eq _ hfound] at hentry
    rw [entries_eq _ hfoundOther] at hother
    obtain ⟨item, hitem, rfl⟩ := List.mem_map.mp hentry
    obtain ⟨item', hitem', rfl⟩ := List.mem_map.mp hother
    refine hne (eq_of_components_join_eq hroot (hsound first hfirst) (hsound second hsecond) ?_ ?_
      heq.symm).1
    · exact (hproper.find? hfound).isName (List.mem_filter.mp hitem).1
    · exact (hproper.find? hfoundOther).isName (List.mem_filter.mp hitem').1

end Paths

/-! ## What becomes of an entry -/

/-- What the walk finds at the path of an entry, a link followed. -/
def Entry.found (fs : FileSystem) (entry : Entry) : Except Errno Entry :=
  match entry.error? fs with
  | some errno => .error errno
  | none =>
    match entry.node with
    | .link _ =>
      match fs.lookup entry.path with
      | .error errno => .error errno
      | .ok (names, node) =>
        match Entry.error? fs ⟨entry.path, names, node, none⟩ with
        | some errno => .error errno
        | none => .ok ⟨entry.path, names, node, none⟩
    | _ => .ok entry

/-- The file that the entry brings. -/
def Entry.reported? (fs : FileSystem) (selection : Selection) (root : Path) (entry : Entry) :
    Option FileReference :=
  match entry.found fs with
  | .ok target => target.file? fs selection root
  | .error _ => none

/-- Why the entry is passed over in the end, if it is. -/
def Entry.passed? (fs : FileSystem) (entry : Entry) : Option SkippedEntry :=
  match entry.found fs with
  | .ok _ => none
  | .error errno => some ⟨entry.path, errno⟩

theorem error?_link {path : Path} {names : List EntryName} {target : List UInt8}
    {refusal : Option Errno} :
    Entry.error? fs ⟨path, names, .link target, refusal⟩ = refusal := by
  simp [Entry.error?, Node.isDirectory]

theorem eq_of_seen {entry : Entry} (h : entry.refusal = none) :
    (⟨entry.path, entry.names, entry.node, none⟩ : Entry) = entry := by
  obtain ⟨path, names, node, refusal⟩ := entry
  obtain rfl : refusal = none := h
  rfl

theorem found_of_not_link {entry : Entry} (herror : entry.error? fs = none)
    (hlink : ∀ target, entry.node ≠ .link target) : entry.found fs = .ok entry := by
  obtain ⟨path, names, node, refusal⟩ := entry
  cases node with
  | link target => exact absurd rfl (hlink target)
  | _ => simp only [Entry.found, herror]

/-- What is found is the entry itself, or what the link leads to that it is. -/
theorem found_cases {entry target : Entry} (h : entry.found fs = .ok target) :
    entry.refusal = none ∧ target.path = entry.path ∧ target.refusal = none ∧
      target.error? fs = none ∧
      (target = entry ∧ (∀ bytes, entry.node ≠ .link bytes) ∨
        (∃ bytes, entry.node = .link bytes) ∧
          fs.lookup entry.path = .ok (target.names, target.node)) := by
  obtain ⟨path, names, node, refusal⟩ := entry
  unfold Entry.found at h
  cases herror : Entry.error? fs ⟨path, names, node, refusal⟩ with
  | some errno =>
    rw [herror] at h
    cases h
  | none =>
    have hseen : refusal = none := by
      cases refusal with
      | none => rfl
      | some errno => simp [Entry.error?] at herror
    subst hseen
    rw [herror] at h
    cases node with
    | link bytes =>
      dsimp only at h
      cases hlookup : fs.lookup path with
      | error errno =>
        rw [hlookup] at h
        cases h
      | ok place =>
        rw [hlookup] at h
        dsimp only at h
        cases hplace : Entry.error? fs ⟨path, place.1, place.2, none⟩ with
        | some errno =>
          rw [hplace] at h
          cases h
        | none =>
          rw [hplace] at h
          obtain rfl := Except.ok.inj h
          exact ⟨rfl, rfl, rfl, hplace, .inr ⟨⟨bytes, rfl⟩, rfl⟩⟩
    | _ =>
      obtain rfl := Except.ok.inj h
      exact ⟨rfl, rfl, rfl, herror, .inl ⟨rfl, by simp⟩⟩

theorem perm_filterMap_or {α β : Type} {f g : α → Option β} {items : List α}
    (h : ∀ item ∈ items, f item = none ∨ g item = none) :
    (items.filterMap f ++ items.filterMap g).Perm
      (items.filterMap fun item => (f item).or (g item)) := by
  induction items with
  | nil => exact .refl _
  | cons item items ih =>
    rw [List.forall_mem_cons] at h
    have hrest := ih h.2
    rcases h.1 with hnone | hnone
    · cases hitem : g item with
      | none => simpa [hnone, hitem] using hrest
      | some brought => simpa [hnone, hitem] using List.perm_middle.trans (hrest.cons brought)
    · cases hitem : f item with
      | none => simpa [hnone, hitem] using hrest
      | some brought => simpa [hnone, hitem] using hrest.cons brought

theorem link?_eq_some (hfollow : selection.followLinks = true) {path : Path}
    {names : List EntryName} {target : List UInt8} :
    Entry.link? fs selection ⟨path, names, .link target, none⟩ = some path := by
  simp [Entry.link?, error?_link, hfollow]

/-- What following a link brings to what is passed over. -/
def linkPassed? (fs : FileSystem) (link : Path) : Option SkippedEntry :=
  (linkFault? fs link).or ((resolve? fs link).bind (Entry.fault? fs))

/-- A file comes from the entry itself or from the link that it is. -/
theorem reported?_eq (hfollow : selection.followLinks = true) (entry : Entry) :
    (entry.file? fs selection root).or
        ((entry.link? fs selection).bind fun link =>
          (resolve? fs link).bind (Entry.file? fs selection root)) =
      entry.reported? fs selection root := by
  obtain ⟨path, names, node, refusal⟩ := entry
  cases herror : Entry.error? fs ⟨path, names, node, refusal⟩ with
  | some errno =>
    cases node <;> simp [Entry.reported?, Entry.found, Entry.file?, Entry.link?, herror]
  | none =>
    cases node with
    | link target =>
      obtain rfl : refusal = none := by rwa [error?_link] at herror
      have hfile : Entry.file? fs selection root ⟨path, names, .link target, none⟩ = none := rfl
      rw [link?_eq_some hfollow, hfile, Option.none_or, Option.bind_some]
      simp only [Entry.reported?, Entry.found, herror, resolve?]
      cases fs.lookup path with
      | error errno => rfl
      | ok place =>
        dsimp only [Option.bind_some]
        cases hplace : Entry.error? fs ⟨path, place.1, place.2, none⟩ with
        | none => rfl
        | some errno => cases hnode : place.2 <;> simp [Entry.file?, hplace, ← hnode]
    | _ => simp [Entry.reported?, Entry.found, Entry.link?, herror]

/-- A fault is that of the entry itself or of the link that it is. -/
theorem passed?_eq (hfollow : selection.followLinks = true) (entry : Entry) :
    (entry.fault? fs).or ((entry.link? fs selection).bind (linkPassed? fs)) =
      entry.passed? fs := by
  obtain ⟨path, names, node, refusal⟩ := entry
  cases herror : Entry.error? fs ⟨path, names, node, refusal⟩ with
  | some errno => simp [Entry.passed?, Entry.found, Entry.fault?, herror]
  | none =>
    have hfault : Entry.fault? fs ⟨path, names, node, refusal⟩ = none := by
      simp [Entry.fault?, herror]
    rw [hfault, Option.none_or]
    cases node with
    | link target =>
      obtain rfl : refusal = none := by rwa [error?_link] at herror
      rw [link?_eq_some hfollow, Option.bind_some]
      simp only [Entry.passed?, Entry.found, herror, linkPassed?, linkFault?, resolve?]
      cases fs.lookup path with
      | error errno => rfl
      | ok place =>
        dsimp only
        cases hplace : Entry.error? fs ⟨path, place.1, place.2, none⟩ <;>
          simp [Entry.fault?, hplace]
    | _ => simp [Entry.passed?, Entry.found, Entry.link?, herror]

/-! ## What is found in the end -/

section Settled

variable {found : List Listed} {followed : List Path} {progress : Progress}

/-- The links that have been followed bring what the entries that are links bring. -/
theorem Settled.filterMap_followed {β : Type}
    (h : Settled fs selection root start found followed progress)
    (hlinks : progress.links = []) (brings : Path → Option β) :
    (followed.filterMap brings).Perm
      ((entriesOf fs (listingOf root start found)).filterMap fun entry =>
        (entry.link? fs selection).bind brings) := by
  have hfollowed := h.links
  rw [hlinks, List.nil_append] at hfollowed
  have hbrought := hfollowed.filterMap brings
  rwa [List.filterMap_filterMap] at hbrought

theorem Settled.files_perm (hfollow : selection.followLinks = true)
    (h : Settled fs selection root start found followed progress) (hlinks : progress.links = []) :
    progress.files.Perm ((entriesOf fs (listingOf root start found)).filterMap
      (Entry.reported? fs selection root)) := by
  have hfiles := h.files
  rw [List.filterMap_append, List.filterMap_filterMap] at hfiles
  have hlinked := h.filterMap_followed hlinks fun link =>
    (resolve? fs link).bind (Entry.file? fs selection root)
  have hnone : ∀ entry ∈ entriesOf fs (listingOf root start found),
      entry.file? fs selection root = none ∨
        ((entry.link? fs selection).bind fun link =>
          (resolve? fs link).bind (Entry.file? fs selection root)) = none := by
    rintro ⟨path, names, node, refusal⟩ -
    cases node <;> simp [Entry.file?, Entry.link?]
  have hall := (hfiles.trans (hlinked.append_left _)).trans (perm_filterMap_or hnone)
  simpa only [reported?_eq hfollow] using hall

theorem Settled.skipped_perm (hfollow : selection.followLinks = true)
    (h : Settled fs selection root start found followed progress)
    (hlinks : progress.links = []) :
    progress.skipped.Perm
      ((entriesOf fs (listingOf root start found)).filterMap (Entry.passed? fs) ++
        (listingOf root start found).filterMap (Listed.fault? fs)) := by
  have hskipped := h.skipped
  rw [List.filterMap_append, List.filterMap_filterMap] at hskipped
  -- a link is refused, or what it leads to is
  have hboth : ∀ link ∈ followed,
      linkFault? fs link = none ∨ (resolve? fs link).bind (Entry.fault? fs) = none := by
    intro link _
    unfold linkFault? resolve?
    cases fs.lookup link <;> simp
  have hlinked := (perm_filterMap_or hboth).trans (h.filterMap_followed hlinks (linkPassed? fs))
  have hnone : ∀ entry ∈ entriesOf fs (listingOf root start found), entry.fault? fs = none ∨
      (entry.link? fs selection).bind (linkPassed? fs) = none := by
    rintro ⟨path, names, node, refusal⟩ -
    cases herror : Entry.error? fs ⟨path, names, node, refusal⟩ with
    | some errno => cases node <;> simp [Entry.link?, herror]
    | none => simp [Entry.fault?, herror]
  have hall := perm_filterMap_or hnone
  simp only [passed?_eq hfollow] at hall
  refine hskipped.trans (.trans ?_ (hall.append_right _))
  refine .trans ?_ ((hlinked.append_left _).append_right _)
  -- the same parts, in another order
  rw [List.perm_iff_count]
  intro fault
  simp only [List.count_append]
  omega

/-- What is found is among what the walk has visited. -/
theorem Settled.mem_of_found (hfollow : selection.followLinks = true)
    (h : Settled fs selection root start found followed progress)
    (hlinks : progress.links = []) {entry target : Entry}
    (hentry : entry ∈ entriesOf fs (listingOf root start found))
    (hfound : entry.found fs = .ok target) :
    target ∈ entriesOf fs (listingOf root start found) ++ followed.filterMap (resolve? fs) := by
  obtain ⟨hseen, hpath, hrefusal, -, ⟨rfl, -⟩ | ⟨⟨bytes, hbytes⟩, hlookup⟩⟩ := found_cases hfound
  · exact List.mem_append_left _ hentry
  refine List.mem_append_right _ ?_
  have hbrought : entry.link? fs selection = some entry.path := by
    obtain ⟨path, names, node, refusal⟩ := entry
    obtain rfl : node = .link bytes := hbytes
    obtain rfl : refusal = none := hseen
    exact link?_eq_some hfollow
  have hresolved : resolve? fs entry.path = some target := by
    obtain ⟨path, names, node, refusal⟩ := target
    obtain rfl : path = entry.path := hpath
    obtain rfl : refusal = none := hrefusal
    simp [resolve?, hlookup]
  have hperm := h.filterMap_followed hlinks (resolve? fs)
  rw [hperm.mem_iff]
  refine List.mem_filterMap.mpr ⟨entry, hentry, ?_⟩
  rw [hbrought, Option.bind_some, hresolved]

end Settled

section Entries

variable {listing : List Listed} (hproper : fs.root.Proper)
  (hsound : ∀ listed ∈ listing, Sound fs root start listed) {entry : Entry}
  (hentry : entry ∈ entriesOf fs listing)

include hproper hsound hentry

/-- What is found stands where the path of the entry leads. -/
theorem leads_of_found {target : Entry} (hfound : entry.found fs = .ok target) :
    PathLeads fs entry.path target.names ∧ fs.root.find? target.names = some target.node := by
  obtain ⟨-, -, -, -, ⟨rfl, hlink⟩ | ⟨-, hlookup⟩⟩ := found_cases hfound
  · obtain ⟨listed, name, hlisted, hname, hpath, hnames, hnode, -⟩ :=
      exists_listed_of_mem hproper hsound hentry
    refine ⟨?_, hnode⟩
    rw [hnames] at hnode
    rw [hpath, hnames]
    exact (hsound listed hlisted).leads_entry hname hnode hlink
  · exact ⟨pathLeads_of_lookup (by decide) hlookup, find?_of_lookup hlookup⟩

/-- Where the path of an entry leads is what is found, if nothing about the entry is refused. -/
theorem found_of_leads (hadmitted : entry.Admitted fs) {place : List EntryName}
    (hleads : PathLeads fs entry.path place) :
    ∃ node, entry.found fs = .ok ⟨entry.path, place, node, none⟩ ∧
      fs.root.find? place = some node := by
  have herror : ∀ {names : List EntryName} {node : Node}, fs.root.find? names = some node →
      PathLeads fs entry.path names → Entry.error? fs ⟨entry.path, names, node, none⟩ = none := by
    intro names node hnode hnames
    cases node with
    | directory inner =>
      have hreal := hadmitted.real names inner hnames hnode
      simp [Entry.error?, Node.isDirectory, hreal]
    | _ => rfl
  by_cases hlink : ∃ bytes, entry.node = .link bytes
  · obtain ⟨bytes, hbytes⟩ := hlink
    obtain ⟨node, hlookup⟩ := hadmitted.followed bytes hbytes place hleads
    have hthere := find?_of_lookup hlookup
    refine ⟨node, ?_, hthere⟩
    have hown : entry.error? fs = none := by
      rw [Entry.error?, hadmitted.seen, hbytes]
      rfl
    simp only [Entry.found, hown, hbytes, hlookup, herror hthere hleads]
  · rw [not_exists] at hlink
    obtain ⟨listed, name, hlisted, hname, hpath, hnames, hnode, -⟩ :=
      exists_listed_of_mem hproper hsound hentry
    have hthere : PathLeads fs entry.path entry.names := by
      rw [hnames] at hnode
      rw [hpath, hnames]
      exact (hsound listed hlisted).leads_entry hname hnode hlink
    obtain rfl := hthere.unique hleads
    have hown := herror hnode hthere
    rw [eq_of_seen hadmitted.seen] at hown
    refine ⟨entry.node, ?_, hnode⟩
    rw [eq_of_seen hadmitted.seen]
    exact found_of_not_link hown hlink

/-- An entry is passed over for leading nowhere or for something that is refused. -/
theorem exists_error_found_iff :
    (∃ errno, entry.found fs = .error errno) ↔ entry.IsDangling fs ∨ ¬ entry.Admitted fs := by
  constructor
  · rintro ⟨errno, herror⟩
    by_contra hnone
    rw [not_or, not_not, Entry.IsDangling, not_forall] at hnone
    obtain ⟨⟨place, hplace⟩, hadmitted⟩ := hnone
    obtain ⟨node, hfound, -⟩ :=
      found_of_leads hproper hsound hentry hadmitted (not_not.mp hplace)
    rw [herror] at hfound
    cases hfound
  · intro h
    cases hfound : entry.found fs with
    | error errno => exact ⟨errno, rfl⟩
    | ok target =>
      obtain ⟨hleads, hthere⟩ := leads_of_found hproper hsound hentry hfound
      rcases h with hdangling | hrefused
      · exact absurd hleads (hdangling _)
      · refine absurd ?_ hrefused
        obtain ⟨hseen, hpath, hrefusal, herror, hcases⟩ := found_cases hfound
        refine ⟨hseen, ?followed, ?real⟩
        case followed =>
          intro bytes hbytes place hplace
          obtain ⟨-, hlink⟩ | ⟨-, hlookup⟩ := hcases
          · exact absurd hbytes (hlink bytes)
          · rw [hplace.unique hleads]
            exact ⟨target.node, hlookup⟩
        case real =>
          intro place inner hplace hinner
          obtain rfl := hplace.unique hleads
          have hnode : target.node = .directory inner := Option.some.inj (hthere.symm.trans hinner)
          rw [Entry.error?, hrefusal, hnode, hpath] at herror
          simpa [Node.isDirectory] using herror

/-- An entry with a real path is not passed over. -/
theorem exists_found_of_real (hreal : fs.realFault? entry.path = none) :
    ∃ target, entry.found fs = .ok target := by
  obtain ⟨final, node, hlookup⟩ := realFault?_eq_none_iff.mp hreal
  obtain ⟨listed, name, hlisted, hname, hpath, -, -, hrefusal⟩ :=
    exists_listed_of_mem hproper hsound hentry
  have hleads := (hsound listed hlisted).leads
  -- the directory of the entry is searched on the way to the real path
  have hseen : entry.refusal = none := by
    rw [hpath] at hlookup
    obtain ⟨names, entries, habove, hbarrier⟩ :=
      exists_lookup_of_join (by decide) hleads.1 hname hlookup
    obtain rfl := hleads.unique (pathLeads_of_lookup (by decide) habove)
    have hsearch : (fs.accessAt listed.names).search = none := barrier?_of_real hbarrier
    rw [hrefusal, refusal?, hpath, if_neg (Nat.not_le.mpr (length_lt_of_lookup hlookup)), hsearch]
  have hresolved : entry.Admitted fs := by
    refine ⟨hseen, fun _ _ place hplace => ?_, fun _ _ _ _ => hreal⟩
    have hthrough := lookup_of_real hlookup
    obtain rfl := hplace.unique (pathLeads_of_lookup (by decide) hthrough)
    exact ⟨node, hthrough⟩
  obtain ⟨_, hfound, -⟩ := found_of_leads hproper hsound hentry hresolved
    (pathLeads_of_lookup (by decide) (lookup_of_real hlookup))
  exact ⟨_, hfound⟩

theorem length_lt_of_seen (hseen : entry.refusal = none) :
    entry.path.bytes.length < pathLimit := by
  obtain ⟨listed, name, -, -, -, -, -, hrefusal⟩ := exists_listed_of_mem hproper hsound hentry
  by_contra hlong
  rw [hseen, refusal?, if_pos (Nat.le_of_not_lt hlong)] at hrefusal
  cases hrefusal

theorem Entry.Admitted.withinLimits (hadmitted : entry.Admitted fs) : entry.WithinLimits fs := by
  refine ⟨length_lt_of_seen hproper hsound hentry hadmitted.seen, ?_, ?_⟩
  · intro target htarget place hplace
    obtain ⟨node, hlookup⟩ := hadmitted.followed target htarget place hplace
    simp [hlookup]
  · intro place inner hplace hinner
    simp [hadmitted.real place inner hplace hinner]

/-- **Where all directories can be read, nothing but a limit is in the way of an entry.** -/
theorem Entry.WithinLimits.admitted (hreadable : fs.AllReadable) (hlimits : entry.WithinLimits fs) :
    entry.Admitted fs := by
  have hrefused : ∀ {manner errno place}, manner ≠ .itself → PathLeads fs entry.path place →
      fs.lookup entry.path manner = .error errno →
        errno = .tooManyLinks ∨ manner = .real ∧ errno = .nameTooLong := by
    intro manner errno place hmanner hplace herror
    rcases lookup_of_pathLeads hmanner hplace with ⟨node, hlookup⟩ | ⟨other, hlookup, hwhy⟩
    · rw [herror] at hlookup
      cases hlookup
    · obtain rfl := Except.error.inj (herror.symm.trans hlookup)
      rcases hwhy with hlong | hlinks | ⟨names, entries, step, hfound, hbarrier⟩
      · exact absurd hlimits.short (Nat.not_lt.mpr hlong)
      · exact .inl hlinks
      · exact .inr (hreadable.of_barrier? hfound hbarrier)
  obtain ⟨listed, name, hlisted, -, -, -, -, hrefusal⟩ :=
    exists_listed_of_mem hproper hsound hentry
  obtain ⟨entries, hfound⟩ := (hsound listed hlisted).found
  refine ⟨?seen, ?followed, ?real⟩
  case seen =>
    rw [hrefusal, refusal?, if_neg (Nat.not_le.mpr hlimits.short)]
    exact (hreadable listed.names entries hfound).1
  case followed =>
    intro target htarget place hplace
    cases hlookup : fs.lookup entry.path with
    | error errno =>
      rcases hrefused (by decide) hplace hlookup with rfl | ⟨hmanner, -⟩
      · exact absurd hlookup (hlimits.followed target htarget place hplace)
      · cases hmanner
    | ok found =>
      obtain ⟨final, node⟩ := found
      obtain rfl := hplace.unique (pathLeads_of_lookup (by decide) hlookup)
      exact ⟨node, rfl⟩
  case real =>
    intro place inner hplace hinner
    obtain ⟨hlength, hlinks⟩ := hlimits.real place inner hplace hinner
    unfold realFault? at hlength hlinks ⊢
    cases hlookup : fs.lookup entry.path .real with
    | ok found => rfl
    | error errno =>
      rw [hlookup] at hlength hlinks
      rcases hrefused (by decide) hplace hlookup with rfl | ⟨-, rfl⟩
      · exact absurd rfl hlinks
      · exact absurd rfl hlength

end Entries

/-! ## Discovery -/

/-- What a walk through links has listed, reported and passed over. -/
structure Discovered (fs : FileSystem) (selection : Selection) (root : Path)
    (start : List EntryName) (listing : List Listed) (files : List FileReference)
    (skipped : List SkippedEntry) : Prop where
  nodup : (listing.map Listed.names).Nodup
  sound : ∀ listed ∈ listing, Sound fs root start listed
  start_mem : start ∈ listing.map Listed.names
  /-- A directory to which an entry leads is listed. -/
  directory : ∀ entry ∈ entriesOf fs listing, entry.Admitted fs →
    ∀ place inner, PathLeads fs entry.path place →
      fs.root.find? place = some (.directory inner) → place ∈ listing.map Listed.names
  /-- A wanted file is reported once. -/
  file : ∀ entry ∈ entriesOf fs listing, entry.Admitted fs → entry.IsFile fs →
    selection.accepts (.ofPath root entry.path) = true →
      files.count (.ofPath root entry.path) = 1
  /-- Nothing else is reported. -/
  reported : ∀ file ∈ files, selection.accepts file = true ∧
    ∃ entry ∈ entriesOf fs listing, entry.IsFile fs ∧ file = .ofPath root entry.path
  /-- No two references have paths that are compared as equal. -/
  distinct : (files.map fun file => file.path.components).Nodup
  /-- What leads nowhere is passed over, and what is refused, and a directory that does not list all
  of its entries; nothing else is. -/
  passed_iff : ∀ path, path ∈ skipped.map SkippedEntry.path ↔
    (∃ entry ∈ entriesOf fs listing, entry.path = path ∧
      (entry.IsDangling fs ∨ ¬ entry.Admitted fs)) ∨
    ∃ listed ∈ listing, listed.path = path ∧ (fs.accessAt listed.names).listing ≠ none
  passed_once : (skipped.map SkippedEntry.path).Nodup

theorem reported?_eq_some_iff {entry : Entry} {file : FileReference} :
    entry.reported? fs selection root = some file ↔
      ∃ place content, entry.found fs = .ok ⟨entry.path, place, .file content, none⟩ ∧
        selection.accepts file = true ∧ file = .ofPath root entry.path := by
  unfold Entry.reported?
  constructor
  · intro h
    cases hfound : entry.found fs with
    | error errno =>
      rw [hfound] at h
      cases h
    | ok target =>
      rw [hfound] at h
      obtain ⟨-, hpath, hrefusal, -, -⟩ := found_cases hfound
      obtain ⟨path, place, node, refusal⟩ := target
      obtain rfl : path = entry.path := hpath
      obtain rfl : refusal = none := hrefusal
      cases node with
      | file content =>
        simp only [Entry.file?, Option.ite_none_right_eq_some, Bool.and_eq_true,
          Option.some.injEq] at h
        obtain ⟨⟨-, haccepts⟩, rfl⟩ := h
        exact ⟨place, content, rfl, haccepts, rfl⟩
      | _ => cases h
  · rintro ⟨place, content, hfound, haccepts, rfl⟩
    rw [hfound]
    simp [Entry.file?, Entry.error?, Node.isDirectory, haccepts]

/-- What items bring is told apart by what tells the items apart. -/
theorem map_filterMap_sublist {α β γ : Type} {brings : α → Option β} {key : β → γ} {origin : α → γ}
    {items : List α} (h : ∀ item ∈ items, ∀ brought, brings item = some brought →
      key brought = origin item) :
    ((items.filterMap brings).map key).Sublist (items.map origin) := by
  induction items with
  | nil => exact .slnil
  | cons item items ih =>
    rw [List.forall_mem_cons] at h
    cases hbrought : brings item with
    | none =>
      rw [List.filterMap_cons_none hbrought]
      exact (ih h.2).cons _
    | some brought =>
      rw [List.filterMap_cons_some hbrought, List.map_cons, List.map_cons, h.1 brought hbrought]
      exact (ih h.2).cons_cons _

theorem exists_error_of_passed? {entry : Entry} {passed : SkippedEntry}
    (h : entry.passed? fs = some passed) :
    passed.path = entry.path ∧ ∃ errno, entry.found fs = .error errno := by
  unfold Entry.passed? at h
  cases hfound : entry.found fs with
  | ok target =>
    rw [hfound] at h
    cases h
  | error errno =>
    rw [hfound] at h
    obtain rfl := Option.some.inj h
    exact ⟨rfl, errno, rfl⟩

theorem path_of_fault? {listed : Listed} {passed : SkippedEntry}
    (h : listed.fault? fs = some passed) : passed.path = listed.path := by
  obtain ⟨listing, -, rfl⟩ := Option.map_eq_some_iff.mp h
  rfl

/-- No two directories are listed by one path. -/
theorem nodup_paths {listing : List Listed} (hnodup : (listing.map Listed.names).Nodup)
    (hsound : ∀ listed ∈ listing, Sound fs root start listed) :
    (listing.map Listed.path).Nodup := by
  refine List.pairwise_map.mpr ((List.pairwise_map.mp hnodup).imp_of_mem ?_)
  intro first second hfirst hsecond hne heq
  exact hne ((heq ▸ (hsound first hfirst).leads).unique (hsound second hsecond).leads)

/-- An entry has another path than the root. -/
theorem path_ne_root (hproper : fs.root.Proper) (hroot : root.isEmpty = false)
    {listing : List Listed} (hsound : ∀ listed ∈ listing, Sound fs root start listed)
    {entry : Entry} (hentry : entry ∈ entriesOf fs listing) : entry.path ≠ root := by
  obtain ⟨listed, name, hlisted, hname, hpath, -, -, -⟩ :=
    exists_listed_of_mem hproper hsound hentry
  obtain ⟨below, hbelow, hlistedPath⟩ := (hsound listed hlisted).below
  intro heq
  have hcomponents := congrArg (List.length ∘ Path.components) (hpath.symm.trans heq)
  rw [hlistedPath, Function.comp_apply, Function.comp_apply,
    Path.components_join (Path.isEmpty_below hroot hbelow) hname,
    Path.components_below hroot hbelow] at hcomponents
  simp at hcomponents

section Settled

variable {found : List Listed} {followed : List Path} {progress : Progress}

/-- With no link left, the directory to which an entry leads is listed. -/
theorem Settled.mem_of_leads (hproper : fs.root.Proper) (hfollow : selection.followLinks = true)
    (h : Settled fs selection root start found followed progress)
    (hlinks : progress.links = []) {entry : Entry}
    (hentry : entry ∈ entriesOf fs (listingOf root start found)) (hadmitted : entry.Admitted fs)
    {place : List EntryName} {inner : List (EntryName × Node)}
    (hleads : PathLeads fs entry.path place)
    (hinner : fs.root.find? place = some (.directory inner)) :
    place ∈ (listingOf root start found).map Listed.names := by
  obtain ⟨node, hfound, hnode⟩ := found_of_leads hproper h.sound hentry hadmitted hleads
  obtain rfl := Option.some.inj (hinner.symm.trans hnode)
  obtain ⟨-, -, -, herror, -⟩ := found_cases hfound
  refine h.mem_names (h.directories _ (h.mem_of_found hfollow hlinks hentry hfound) place ?_)
  simp [Entry.directory?, herror]

/-- **With no link left, the walk has found what there is.** -/
theorem Settled.discovered (hproper : fs.root.Proper) (hfollow : selection.followLinks = true)
    (hroot : root.isEmpty = false)
    (h : Settled fs selection root start found followed progress) (hlinks : progress.links = []) :
    Discovered fs selection root start (listingOf root start found)
      (progress.files.mergeSort FileReference.le) progress.skipped := by
  have hnodup := h.nodup_names hroot
  have hcomponents := nodup_components hproper hroot hnodup h.sound
  have hpaths :
      ((entriesOf fs (listingOf root start found)).map Entry.path).Nodup := by
    have hmap : (fun entry : Entry => entry.path.components) = Path.components ∘ Entry.path := rfl
    rw [hmap, ← List.map_map] at hcomponents
    exact hcomponents.of_map
  -- what is reported and what is passed over comes from the entries, one by one
  have hfiles : (progress.files.mergeSort FileReference.le).Perm
      ((entriesOf fs (listingOf root start found)).filterMap
        (Entry.reported? fs selection root)) :=
    (List.mergeSort_perm _ _).trans (h.files_perm hfollow hlinks)
  have hskipped := h.skipped_perm hfollow hlinks
  have hdistinct : ((progress.files.mergeSort FileReference.le).map
      fun file => file.path.components).Nodup := by
    refine (hfiles.map _).nodup_iff.mpr (hcomponents.sublist (map_filterMap_sublist ?_))
    intro entry _ file hfile
    obtain ⟨_, _, _, _, rfl⟩ := reported?_eq_some_iff.mp hfile
    rfl
  refine
    { nodup := hnodup
      sound := h.sound
      start_mem := List.mem_map_of_mem (List.mem_append_right found (List.mem_singleton_self _))
      directory := fun entry hentry hadmitted place inner hleads hinner =>
        h.mem_of_leads hproper hfollow hlinks hentry hadmitted hleads hinner
      file := ?file
      reported := ?reported
      distinct := hdistinct
      passed_iff := ?passed_iff
      passed_once := ?passed_once }
  case file =>
    rintro entry hentry hadmitted ⟨place, content, hleads, hcontent⟩ haccepts
    obtain ⟨node, hfound, hnode⟩ := found_of_leads hproper h.sound hentry hadmitted hleads
    obtain rfl := Option.some.inj (hcontent.symm.trans hnode)
    refine List.count_eq_one_of_mem hdistinct.of_map (hfiles.mem_iff.mpr ?_)
    exact List.mem_filterMap.mpr
      ⟨entry, hentry, reported?_eq_some_iff.mpr ⟨place, content, hfound, haccepts, rfl⟩⟩
  case reported =>
    intro file hfile
    obtain ⟨entry, hentry, hreported⟩ := List.mem_filterMap.mp (hfiles.mem_iff.mp hfile)
    obtain ⟨place, content, hfound, haccepts, rfl⟩ := reported?_eq_some_iff.mp hreported
    obtain ⟨hleads, hcontent⟩ := leads_of_found hproper h.sound hentry hfound
    exact ⟨haccepts, entry, hentry, ⟨place, content, hleads, hcontent⟩, rfl⟩
  case passed_iff =>
    intro path
    rw [(hskipped.map SkippedEntry.path).mem_iff, List.map_append, List.mem_append,
      List.map_filterMap, List.mem_filterMap, List.map_filterMap, List.mem_filterMap]
    refine or_congr ?_ ?_
    · refine exists_congr fun entry => and_congr_right fun hentry => ?_
      rw [← exists_error_found_iff hproper h.sound hentry]
      unfold Entry.passed?
      cases hfound : entry.found fs <;> simp
    · refine exists_congr fun listed => and_congr_right fun _ => ?_
      unfold Listed.fault?
      cases (fs.accessAt listed.names).listing <;> simp
  case passed_once =>
    refine (hskipped.map _).nodup_iff.mpr ?_
    rw [List.map_append]
    refine List.nodup_append.mpr ⟨hpaths.sublist (map_filterMap_sublist ?_),
      (nodup_paths hnodup h.sound).sublist (map_filterMap_sublist ?_), ?_⟩
    · exact fun entry _ passed hpassed => (exists_error_of_passed? hpassed).1
    · exact fun listed _ passed hpassed => path_of_fault? hpassed
    -- a directory that is listed has a real path, and so its entry is not passed over
    · intro path hentry other hlisted heq
      subst heq
      obtain ⟨passed, hpassed, rfl⟩ := List.mem_map.mp hentry
      obtain ⟨entry, hmem, hbrought⟩ := List.mem_filterMap.mp hpassed
      obtain ⟨hpath, errno, herror⟩ := exists_error_of_passed? hbrought
      obtain ⟨fault, hfault, hsame⟩ := List.mem_map.mp hlisted
      obtain ⟨listed, hlistedMem, hbroken⟩ := List.mem_filterMap.mp hfault
      have hone : listed.path = entry.path := by rw [← path_of_fault? hbroken, hsame, hpath]
      rcases List.mem_append.mp hlistedMem with hfoundMem | hrootMem
      · have hreal := h.real listed hfoundMem
        rw [hone] at hreal
        obtain ⟨target, htarget⟩ := exists_found_of_real hproper h.sound hmem hreal
        rw [herror] at htarget
        cases htarget
      · rw [List.mem_singleton.mp hrootMem] at hone
        exact path_ne_root hproper hroot h.sound hmem hone.symm

end Settled

/-- Every directory that can be reached is listed once, if nothing is refused. -/
theorem Discovered.count_eq_one {listing : List Listed} {files : List FileReference}
    {skipped : List SkippedEntry} (hproper : fs.root.Proper)
    (h : Discovered fs selection root start listing files skipped) (hreadable : fs.AllReadable)
    (hadmitted : ∀ entry ∈ entriesOf fs listing, entry.Admitted fs) {names : List EntryName}
    (hreachable : Reachable fs start names) : (listing.map Listed.names).count names = 1 := by
  refine List.count_eq_one_of_mem h.nodup ?_
  induction hreachable with
  | start => exact h.start_mem
  | @step names final name inner hreachable hleads hinner ih =>
    obtain ⟨listed, hlisted, rfl⟩ := List.mem_map.mp ih
    have hsound := h.sound listed hlisted
    -- the step goes through an entry of the directory that is listed
    obtain ⟨entries, child, hfound, hlookup⟩ := exists_child_of_leads hleads
    have hdirectory := hproper.find? hfound
    have hitem := (Node.lookup_eq_some_iff hdirectory.nodup).mp hlookup
    have hentry : listed.entry fs (name, child) ∈ entriesOf fs listing := by
      refine List.mem_flatMap.mpr ⟨listed, hlisted, ?_⟩
      rw [entries_eq _ hfound]
      refine List.mem_map_of_mem (List.mem_filter.mpr ⟨hitem, ?_⟩)
      rw [lists, (hreadable listed.names entries hfound).2]
      rfl
    have hpath : PathLeads fs (listed.path.join ⟨name⟩) final :=
      (hsound.leads.join_iff (hdirectory.isName hitem)).mpr hleads
    exact h.directory _ hentry (hadmitted _ hentry) final inner hpath hinner

/-- **Discovery through links comes to an end and finds everything once.**  The rounds end for want
of links, so more of them would change nothing.  No directory is listed twice.  Whatever an entry of
a listed directory leads to, if the system does not refuse it, is listed or reported, just once; what
leads nowhere or is refused is passed over, whatever becomes of the other entries.  Where all
directories can be read and no limit is in the way, nothing is refused and each directory that can be
reached is listed. -/
theorem discover_followLinks (selection : Selection) (hproper : fs.root.Proper)
    (hfollow : selection.followLinks = true) {entries : List (EntryName × Node)}
    (hroot : IsReadableDirectory fs root start entries) :
    (explore fs selection root start entries).links = [] ∧
      (∀ more, followRounds fs selection root (fs.root.countDirectories + 1 + more)
          (firstVisit fs selection root start entries) =
        explore fs selection root start entries) ∧
      ∃ listing files skipped, discover fs selection root = .ok (files, skipped) ∧
        (∀ names, names ∈ listing.map Listed.names ↔
          names = start ∨ names ∈ (explore fs selection root start entries).visited) ∧
        Discovered fs selection root start listing files skipped ∧
        (fs.AllReadable → (∀ entry ∈ entriesOf fs listing, entry.WithinLimits fs) →
          (∀ entry ∈ entriesOf fs listing, entry.Admitted fs) ∧
            ∀ names, Reachable fs start names → (listing.map Listed.names).count names = 1) := by
  obtain ⟨found, followed, hsettled, hlinks, hmore⟩ :=
    exists_settled_explore selection hproper hroot
  have hdiscovered := hsettled.discovered hproper hfollow (isEmpty_of_lookup hroot.1) hlinks
  refine ⟨hlinks, hmore, listingOf root start found, _, _, discover_eq selection hroot, ?_,
    hdiscovered, ?_⟩
  · intro names
    constructor
    · intro hnames
      rw [listingOf, List.map_append, List.mem_append] at hnames
      rcases hnames with hnames | hnames
      · rw [hsettled.visited]
        exact .inr (List.mem_append_left _ hnames)
      · exact .inl (List.mem_singleton.mp hnames)
    · rintro (rfl | hnames)
      · exact hdiscovered.start_mem
      · exact hsettled.mem_names hnames
  · intro hreadable hlimits
    have hadmitted : ∀ entry ∈ entriesOf fs (listingOf root start found), entry.Admitted fs :=
      fun entry hentry => (hlimits entry hentry).admitted hproper hsettled.sound hentry hreadable
    exact ⟨hadmitted, fun names hreachable =>
      hdiscovered.count_eq_one hproper hreadable hadmitted hreachable⟩

/-- The entries of a directory in which one link leads back to the directory and one nowhere. -/
def loopedEntries : List (EntryName × Node) :=
  [("a.xml".toUTF8.toList, .file []),
    ("inner".toUTF8.toList, .directory [("back".toUTF8.toList, .link "../../p".toUTF8.toList)]),
    ("link".toUTF8.toList, .link "inner".toUTF8.toList),
    ("gone".toUTF8.toList, .link "nowhere".toUTF8.toList)]

/-- A tree with entries in one directory. -/
def treeOf (entries : List (EntryName × Node)) : FileSystem :=
  { root := .directory [("p".toUTF8.toList, .directory entries)], workingDirectory := [] }

theorem proper_loopedEntries : (treeOf loopedEntries).root.Proper := by decide +kernel

theorem discover_followLinks_looped :
    let looped := treeOf loopedEntries
    looped.root.Proper ∧ looped.AllReadable ∧
      IsReadableDirectory looped ⟨"/p".toUTF8.toList⟩ ["p".toUTF8.toList] loopedEntries ∧
      ∃ listing files skipped,
        discover looped { Selection.documents with followLinks := true } ⟨"/p".toUTF8.toList⟩ =
          .ok (files, skipped) ∧
        (∀ entry ∈ entriesOf looped listing, entry.WithinLimits looped) ∧
        ∀ names, Reachable looped ["p".toUTF8.toList] names →
          (listing.map Listed.names).count names = 1 := by
  intro looped
  have hreadable : looped.AllReadable := allReadable_of_refusals rfl
  have hroot : IsReadableDirectory looped ⟨"/p".toUTF8.toList⟩ ["p".toUTF8.toList] loopedEntries :=
    ⟨by cbv, rfl⟩
  obtain ⟨-, -, listing, files, skipped, hdiscover, -, hdiscovered, hreachable⟩ :=
    discover_followLinks { Selection.documents with followLinks := true } proper_loopedEntries rfl
      hroot
  have hrun : discover looped { Selection.documents with followLinks := true }
      ⟨"/p".toUTF8.toList⟩ = .ok ([.ofPath ⟨"/p".toUTF8.toList⟩ ⟨"/p/a.xml".toUTF8.toList⟩],
        [⟨⟨"/p/gone".toUTF8.toList⟩, .noEntry⟩]) := by cbv
  obtain ⟨rfl, rfl⟩ := Prod.mk.inj (Except.ok.inj (hdiscover.symm.trans hrun))
  have hlimits : ∀ entry ∈ entriesOf looped listing, entry.WithinLimits looped := by
    intro entry hentry
    by_cases hadmitted : entry.Admitted looped
    · exact hadmitted.withinLimits proper_loopedEntries hdiscovered.sound hentry
    -- only the link that leads nowhere is passed over
    have hpassed := (hdiscovered.passed_iff entry.path).mpr
      (.inl ⟨entry, hentry, rfl, .inr hadmitted⟩)
    have hgone : entry.path = ⟨"/p/gone".toUTF8.toList⟩ := by simpa using hpassed
    have hnowhere : looped.lookup entry.path = .error .noEntry := by
      rw [hgone]
      cbv
    have hunreal : looped.realFault? entry.path = some .noEntry := by
      rw [hgone]
      cbv
    have hshort : entry.path.bytes.length < pathLimit := by
      rw [hgone]
      decide +kernel
    refine ⟨hshort, fun _ _ _ _ hdeep => ?_, fun _ _ _ _ => ?_⟩
    · cases hnowhere.symm.trans hdeep
    · rw [hunreal]
      decide
  exact ⟨proper_loopedEntries, hreadable, hroot, listing, _, _, hdiscover, hlimits,
    (hreachable hreadable hlimits).2⟩

/-- A directory that is closed is passed over, and what is beside it is found. -/
example :
    let fs := { treeOf [("a.xml".toUTF8.toList, .file []), ("shut".toUTF8.toList,
        .directory [("b.xml".toUTF8.toList, .file [])])] with
      refusals := [(["p".toUTF8.toList, "shut".toUTF8.toList],
        { listing := some ([], .accessDenied) })] }
    discover fs { Selection.documents with followLinks := true } ⟨"/p".toUTF8.toList⟩ =
      .ok ([.ofPath ⟨"/p".toUTF8.toList⟩ ⟨"/p/a.xml".toUTF8.toList⟩],
        [⟨⟨"/p/shut".toUTF8.toList⟩, .accessDenied⟩]) := by cbv

end FormsAudit.Discovery
