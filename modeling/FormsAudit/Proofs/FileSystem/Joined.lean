import FormsAudit.Proofs.FileSystem.Leads
import FormsAudit.Proofs.Path.Reference

/-!
# Paths joined to others

Steps that begin with others are followed as far as those lead, and from there on (`walk_append`).
So a path to which a name is joined is found where the entry is of the directory that the path is
found at (`exists_lookup_of_join`, `lookup_join`).

What has a real path is found (`exists_lookup_of_real`), and whatever it lies below has one as well
(`realFault?_of_isBelow`).
-/

namespace FormsAudit.FileSystem

variable {fs : FileSystem} {manner : Manner} {links : Nat} {names middle : List EntryName}
  {first second pending : List Path.Component} {node child : Node}
  {entries : List (EntryName × Node)} {name : EntryName} {path root : Path}

/-! ## Steps after others -/

/-- From where the first steps lead the walk goes on, with the links that are left. -/
theorem walk_append (hmanner : manner ≠ .itself)
    (h : fs.walk manner links names first = .ok ⟨middle, some node⟩) :
    ∃ remaining, ∀ second,
      fs.walk manner links names (first ++ second) = fs.walk manner remaining middle second := by
  fun_induction FileSystem.walk fs manner links names first with
  | case1 links names =>
    obtain ⟨rfl, -⟩ := Place.mk.inj (Except.ok.inj h)
    exact ⟨links, fun second => rfl⟩
  | case3 links names rest entries hfound hbarrier ih =>
    obtain ⟨remaining, hrest⟩ := ih h
    exact ⟨remaining, fun second => (walk_stay hfound (.inl rfl) hbarrier).trans (hrest second)⟩
  | case4 links names rest entries hfound hbarrier ih =>
    obtain ⟨remaining, hrest⟩ := ih h
    exact ⟨remaining, fun second => (walk_stay hfound (.inr rfl) hbarrier).trans (hrest second)⟩
  | case5 links names rest entries hfound hbarrier ih =>
    obtain ⟨remaining, hrest⟩ := ih h
    exact ⟨remaining, fun second => (walk_up hfound hbarrier).trans (hrest second)⟩
  | case7 => cases (Place.mk.inj (Except.ok.inj h)).2
  | case9 links names rest entries hfound name target hentry hrest => simp [hmanner] at hrest
  | case12 names rest entries hfound name target hentry hrest links htarget hbarrier ih =>
    obtain ⟨remaining, hrest⟩ := ih h
    refine ⟨remaining, fun second => ?_⟩
    rw [← hrest, List.append_assoc]
    exact walk_link hfound hbarrier hmanner hentry (by simpa using htarget)
  | case13 links names rest entries hfound name child hlink hentry hbarrier ih =>
    obtain ⟨remaining, hrest⟩ := ih h
    refine ⟨remaining, fun second => ?_⟩
    rw [← hrest]
    exact walk_entry hfound hbarrier hentry fun target heq => hlink target heq
  | _ => cases h

/-- Further steps lead somewhere only from where the first ones do. -/
theorem exists_walk_of_append (hmanner : manner ≠ .itself) (hsecond : second ≠ []) {place : Place}
    (h : fs.walk manner links names (first ++ second) = .ok place) :
    ∃ middle node, fs.walk manner links names first = .ok ⟨middle, some node⟩ := by
  fun_induction FileSystem.walk fs manner links names first with
  | case1 links names =>
    obtain ⟨step, rest, rfl⟩ := List.exists_cons_of_ne_nil hsecond
    rw [List.nil_append, FileSystem.walk] at h
    cases hfound : fs.root.find? names with
    | none =>
      rw [hfound] at h
      cases h
    | some node => exact ⟨names, node, rfl⟩
  | case2 links names step rest entries hfound errno hbarrier =>
    rw [List.cons_append, walk_refused hfound hbarrier] at h
    cases h
  | case3 links names rest entries hfound hbarrier ih =>
    rw [List.cons_append, walk_stay hfound (.inl rfl) hbarrier] at h
    exact ih h
  | case4 links names rest entries hfound hbarrier ih =>
    rw [List.cons_append, walk_stay hfound (.inr rfl) hbarrier] at h
    exact ih h
  | case5 links names rest entries hfound hbarrier ih =>
    rw [List.cons_append, walk_up hfound hbarrier] at h
    exact ih h
  | case6 links names rest entries hfound name hentry hlength hbarrier =>
    rw [List.cons_append, walk_absent hfound hbarrier hentry, if_pos hlength] at h
    cases h
  | case7 links names rest entries hfound name hentry hlength hrest hbarrier
  | case8 links names rest entries hfound name hentry hlength hrest hbarrier =>
    have hmore : ¬ (rest ++ second).isEmpty = true := by simp [hsecond]
    rw [List.cons_append, walk_absent hfound hbarrier hentry, if_neg hlength, if_neg hmore] at h
    cases h
  | case9 links names rest entries hfound name target hentry hrest => simp [hmanner] at hrest
  | case10 names rest entries hfound name target hentry hrest hbarrier =>
    rw [List.cons_append, walk_at_link hfound hbarrier hentry, if_neg (by simp [hmanner])] at h
    cases h
  | case11 names rest entries hfound name target hentry hrest links htarget hbarrier =>
    rw [List.cons_append, walk_at_link hfound hbarrier hentry, if_neg (by simp [hmanner])] at h
    dsimp only at h
    rw [if_pos htarget] at h
    cases h
  | case12 names rest entries hfound name target hentry hrest links htarget hbarrier ih =>
    rw [List.cons_append, walk_link hfound hbarrier hmanner hentry (by simpa using htarget)] at h
    dsimp only at h
    rw [← List.append_assoc] at h
    exact ih h
  | case13 links names rest entries hfound name child hlink hentry hbarrier ih =>
    rw [List.cons_append,
      walk_entry hfound hbarrier hentry fun target heq => hlink target heq] at h
    exact ih h
  | case14 links names step rest node hdirectory hfound =>
    rw [List.cons_append, FileSystem.walk, hfound] at h
    cases node <;> first | cases h | exact absurd rfl (hdirectory _)
  | case15 links names step rest hfound =>
    rw [List.cons_append, FileSystem.walk, hfound] at h
    cases h

/-! ## Names joined to paths -/

/-- The steps of a path lead to a directory if those do that its last slash does not belong to. -/
theorem walk_root_iff (hmanner : manner ≠ .itself) :
    fs.walk manner links names (first ++ [.root]) = .ok ⟨middle, some (.directory entries)⟩ ↔
      fs.walk manner links names first = .ok ⟨middle, some (.directory entries)⟩ := by
  have hstay : ∀ {links names entries}, fs.root.find? names = some (.directory entries) →
      fs.walk manner links names [.root] = .ok ⟨names, some (.directory entries)⟩ := by
    intro links names entries hfound
    have hbarrier : fs.barrier? manner names .root = none := rfl
    rw [walk_stay hfound (.inl rfl) hbarrier, FileSystem.walk, hfound]
  constructor
  · intro h
    obtain ⟨place, node, hfirst⟩ := exists_walk_of_append hmanner (by simp) h
    obtain ⟨remaining, hrest⟩ := walk_append hmanner hfirst
    have hplace := find?_of_walk hfirst
    rw [hrest] at h
    cases node with
    | directory others =>
      rw [hstay hplace] at h
      rw [hfirst, h]
    | _ =>
      rw [FileSystem.walk, hplace] at h
      cases h
  · intro h
    obtain ⟨remaining, hrest⟩ := walk_append hmanner h
    rw [hrest, hstay (find?_of_walk h)]

/-- The way to a path that names a directory, up to the slashes at its end. -/
theorem exists_before_join (fs : FileSystem) (hmanner : manner ≠ .itself)
    (hpath : path.isEmpty = false) (hname : Path.IsName name) :
    ∃ before, steps (path.join ⟨name⟩).bytes = before ++ [.normal name] ∧
      ∀ links names middle entries,
        fs.walk manner links names (steps path.bytes) = .ok ⟨middle, some (.directory entries)⟩ ↔
          fs.walk manner links names before = .ok ⟨middle, some (.directory entries)⟩ := by
  obtain ⟨before, hjoined, hsteps | hsteps⟩ := exists_steps_join hpath hname
  · exact ⟨before, hjoined, fun _ _ _ _ => hsteps ▸ Iff.rfl⟩
  · exact ⟨before, hjoined, fun _ _ _ _ => hsteps ▸ walk_root_iff hmanner⟩

/-- **What is found below a path is found from the directory at the path**, where the step to it is
not refused. -/
theorem exists_lookup_of_join (hmanner : manner ≠ .itself) (hpath : path.isEmpty = false)
    (hname : Path.IsName name) {final : List EntryName}
    (h : fs.lookup (path.join ⟨name⟩) manner = .ok (final, node)) :
    ∃ names entries, fs.lookup path manner = .ok (names, .directory entries) ∧
      fs.barrier? manner names (.normal name) = none := by
  obtain ⟨-, hlength, hwalk⟩ := place_eq_ok_iff.mp (lookup_eq_ok_iff.mp h)
  have hshort : path.bytes.length < pathLimit :=
    (Nat.le_of_add_right_le (Path.length_add_le_join hname)).trans_lt hlength
  obtain ⟨before, hjoined, hbefore⟩ := exists_before_join fs hmanner hpath hname
  rw [hjoined, origin_join _ hpath hname] at hwalk
  obtain ⟨middle, found, hfirst⟩ := exists_walk_of_append hmanner (by simp) hwalk
  obtain ⟨remaining, hrest⟩ := walk_append hmanner hfirst
  have hmiddle := find?_of_walk hfirst
  rw [hrest] at hwalk
  cases found with
  | directory entries =>
    refine ⟨middle, entries, ?_, ?_⟩
    · exact lookup_eq_ok_iff.mpr
        (place_eq_ok_iff.mpr ⟨hpath, hshort, (hbefore _ _ _ _).mpr hfirst⟩)
    · by_contra hrefused
      obtain ⟨errno, hbarrier⟩ := Option.ne_none_iff_exists'.mp hrefused
      rw [walk_refused hmiddle hbarrier] at hwalk
      cases hwalk
  | _ =>
    rw [FileSystem.walk, hmiddle] at hwalk
    cases hwalk

/-- **The entry of a directory is found by its name**, where it is no link and the step to it is not
refused. -/
theorem lookup_join (hmanner : manner ≠ .itself) (hname : Path.IsName name)
    (h : fs.lookup path manner = .ok (names, .directory entries))
    (hentry : entries.lookup name = some child) (hchild : ∀ target, child ≠ .link target)
    (hbarrier : fs.barrier? manner names (.normal name) = none)
    (hlength : (path.join ⟨name⟩).bytes.length < pathLimit) :
    fs.lookup (path.join ⟨name⟩) manner = .ok (names ++ [name], child) := by
  obtain ⟨hpath, -, hwalk⟩ := place_eq_ok_iff.mp (lookup_eq_ok_iff.mp h)
  obtain ⟨before, hjoined, hbefore⟩ := exists_before_join fs hmanner hpath hname
  have hfirst := (hbefore _ _ _ _).mp hwalk
  obtain ⟨remaining, hrest⟩ := walk_append hmanner hfirst
  have hfound := find?_of_walk hfirst
  have hthere : fs.root.find? (names ++ [name]) = some child := by
    rw [find?_concat name hfound, hentry]
  refine lookup_eq_ok_iff.mpr (place_eq_ok_iff.mpr ⟨Path.isEmpty_join hpath hname, hlength, ?_⟩)
  rw [hjoined, origin_join _ hpath hname, hrest, walk_entry hfound hbarrier hentry hchild,
    FileSystem.walk, hthere]

/-! ## Real paths -/

theorem realFault?_eq_none_iff :
    fs.realFault? path = none ↔ ∃ names node, fs.lookup path .real = .ok (names, node) := by
  unfold realFault?
  cases fs.lookup path .real with
  | error errno => simp
  | ok found => exact iff_of_true rfl ⟨found.1, found.2, rfl⟩

/-- What is not refused on the way to a real path is not refused at all. -/
theorem barrier?_of_real {step : Path.Component} (h : fs.barrier? .real names step = none) :
    fs.barrier? .through names step = none := by
  cases step with
  | normal name =>
    have hsearch : fs.searchRefusal? names = none := by
      simp only [barrier?, if_true] at h
      split at h
      · cases h
      · exact h
    simp only [searchRefusal?, List.findSome?_eq_none_iff, List.mem_range] at hsearch
    simpa [barrier?] using hsearch names.length (Nat.lt_succ_self _)
  | _ => exact h

theorem walk_of_real {place : Place} (h : fs.walk .real links names pending = .ok place) :
    fs.walk .through links names pending = .ok place := by
  fun_induction FileSystem.walk fs .real links names pending with
  | case1 links names =>
    rw [FileSystem.walk]
    exact h
  | case3 links names rest entries hfound hbarrier ih =>
    rw [walk_stay hfound (.inl rfl) (barrier?_of_real hbarrier)]
    exact ih h
  | case4 links names rest entries hfound hbarrier ih =>
    rw [walk_stay hfound (.inr rfl) (barrier?_of_real hbarrier)]
    exact ih h
  | case5 links names rest entries hfound hbarrier ih =>
    rw [walk_up hfound (barrier?_of_real hbarrier)]
    exact ih h
  | case7 links names rest entries hfound name hentry hlength hrest hbarrier =>
    rw [walk_absent hfound (barrier?_of_real hbarrier) hentry, if_neg hlength, if_pos hrest]
    exact h
  | case9 links names rest entries hfound name target hentry hrest => simp at hrest
  | case12 names rest entries hfound name target hentry hrest links htarget hbarrier ih =>
    rw [walk_link hfound (barrier?_of_real hbarrier) (by decide) hentry (by simpa using htarget)]
    exact ih h
  | case13 links names rest entries hfound name child hlink hentry hbarrier ih =>
    rw [walk_entry hfound (barrier?_of_real hbarrier) hentry fun target heq => hlink target heq]
    exact ih h
  | _ => cases h

/-- **What has a real path is found.** -/
theorem lookup_of_real (h : fs.lookup path .real = .ok (names, node)) :
    fs.lookup path = .ok (names, node) := by
  obtain ⟨hpath, hlength, hwalk⟩ := place_eq_ok_iff.mp (lookup_eq_ok_iff.mp h)
  exact lookup_eq_ok_iff.mpr (place_eq_ok_iff.mpr ⟨hpath, hlength, walk_of_real hwalk⟩)

/-- **What lies below something and has a real path shows that this has one.** -/
theorem realFault?_of_isBelow (hroot : root.isEmpty = false) (hbelow : root.IsBelow path)
    (h : fs.realFault? path = none) : fs.realFault? root = none := by
  obtain ⟨below, hnames, rfl⟩ := hbelow
  induction below using List.reverseRecOn with
  | nil => exact h
  | append_singleton below name ih =>
    rw [List.forall_mem_append, List.forall_mem_singleton] at hnames
    rw [Path.below_concat, realFault?_eq_none_iff] at h
    obtain ⟨final, node, hfound⟩ := h
    obtain ⟨names, entries, habove, -⟩ :=
      exists_lookup_of_join (by decide) (Path.isEmpty_below hroot hnames.1) hnames.2 hfound
    exact ih hnames.1 (realFault?_eq_none_iff.mpr ⟨names, _, habove⟩)

theorem realLength_concat (names : List EntryName) (name : EntryName) :
    realLength (names ++ [name]) = realLength names + (name.length + 1) := by
  simp only [realLength, List.length_append, List.length_singleton, List.flatten_append,
    List.flatten_singleton]
  omega

/-! ## Trees that can be read -/

/-- Every directory can be searched and lists all of its entries. -/
def AllReadable (fs : FileSystem) : Prop :=
  ∀ names entries, fs.root.find? names = some (.directory entries) →
    (fs.accessAt names).search = none ∧ (fs.accessAt names).listing = none

/-- A tree in which nothing is refused can be read. -/
theorem allReadable_of_refusals (h : fs.refusals = []) : fs.AllReadable := by
  intro names entries _
  simp [accessAt, h]

namespace AllReadable

variable (hreadable : fs.AllReadable)

include hreadable

theorem barrier?_real (hfound : fs.root.find? names = some (.directory entries)) :
    fs.barrier? .real names (.normal name) =
      if pathLimit ≤ realLength (names ++ [name]) then some .nameTooLong else none := by
  have hsearch : fs.searchRefusal? names = none := by
    simp only [searchRefusal?, List.findSome?_eq_none_iff, List.mem_range]
    intro count _
    obtain ⟨above, habove⟩ := exists_entries_of_prefix (List.take_prefix count names) hfound
    exact (hreadable _ above habove).1
  simp [barrier?, hsearch]

/-- Only a real path that is too long is refused. -/
theorem of_barrier? (hfound : fs.root.find? names = some (.directory entries)) {errno : Errno}
    {step : Path.Component} (h : fs.barrier? manner names step = some errno) :
    manner = .real ∧ errno = .nameTooLong := by
  have hsearch := (hreadable names entries hfound).1
  cases step with
  | root => cases h
  | current | parent =>
    rw [barrier?, hsearch] at h
    cases h
  | normal name =>
    by_cases hmanner : manner = .real
    · subst hmanner
      rw [hreadable.barrier?_real hfound, Option.ite_none_right_eq_some] at h
      exact ⟨rfl, (Option.some.inj h.2).symm⟩
    · rw [barrier?, if_neg hmanner, hsearch] at h
      cases h

/-- An entry has a real path if its directory has one and the limit on lengths allows it. -/
theorem realFault?_join_iff (hname : Path.IsName name)
    (hdirectory : PathLeads fs path names)
    (hfound : fs.root.find? names = some (.directory entries))
    (hentry : entries.lookup name = some child) (hchild : ∀ target, child ≠ .link target) :
    fs.realFault? (path.join ⟨name⟩) = none ↔ fs.realFault? path = none ∧
      realLength (names ++ [name]) < pathLimit ∧ (path.join ⟨name⟩).bytes.length < pathLimit := by
  have hreal : ∀ {found : List EntryName × Node}, fs.lookup path .real = .ok found →
      found = (names, .directory entries) := by
    rintro ⟨final, node⟩ hlookup
    obtain rfl := hdirectory.unique (pathLeads_of_lookup (by decide) hlookup)
    rw [Option.some.inj ((find?_of_lookup hlookup).symm.trans hfound)]
  constructor
  · intro h
    obtain ⟨final, node, hjoined⟩ := realFault?_eq_none_iff.mp h
    obtain ⟨place, others, hpath, hbarrier⟩ :=
      exists_lookup_of_join (by decide) hdirectory.1 hname hjoined
    obtain ⟨rfl, -⟩ := Prod.mk.inj (hreal hpath)
    rw [hreadable.barrier?_real hfound] at hbarrier
    refine ⟨realFault?_eq_none_iff.mpr ⟨place, _, hpath⟩, ?_, length_lt_of_lookup hjoined⟩
    by_contra hlong
    rw [if_pos (Nat.le_of_not_lt hlong)] at hbarrier
    cases hbarrier
  · rintro ⟨h, hreal', hlength⟩
    obtain ⟨final, node, hpath⟩ := realFault?_eq_none_iff.mp h
    obtain ⟨rfl, rfl⟩ := Prod.mk.inj (hreal hpath)
    have hbarrier : fs.barrier? .real final (.normal name) = none := by
      rw [hreadable.barrier?_real hfound, if_neg (Nat.not_le.mpr hreal')]
    exact realFault?_eq_none_iff.mpr
      ⟨_, _, lookup_join (by decide) hname hpath hentry hchild hbarrier hlength⟩

end AllReadable

end FormsAudit.FileSystem
