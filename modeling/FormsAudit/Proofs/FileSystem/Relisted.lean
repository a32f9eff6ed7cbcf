import FormsAudit.Proofs.FileSystem.Walk
import FormsAudit.Proofs.Path.Order
import Mathlib.Algebra.Ring.Nat
import Mathlib.Data.List.Basic

/-!
# The same tree in another order

A directory lists its entries in no order that means anything.  `Node.Relisted` relates two trees
that differ in such orders alone.  In a proper tree, where the names of a directory are names and no
two are the same, what a path leads to is then the same but for such an order again
(`find?_relisted`, `lookup_relisted`).
-/

namespace FormsAudit

namespace Node

/-- The entries of every directory have names, and no two the same. -/
inductive Proper : Node → Prop
  | directory {entries : List (EntryName × Node)} : (entries.map Prod.fst).Nodup →
      (∀ entry ∈ entries, Path.IsName entry.1) → (∀ entry ∈ entries, Proper entry.2) →
      Proper (.directory entries)
  | file (content : List UInt8) : Proper (.file content)
  | link (target : List UInt8) : Proper (.link target)
  | pipe (written : List UInt8) : Proper (.pipe written)

/-- The trees differ only in the order in which directories list their entries. -/
inductive Relisted : Node → Node → Prop
  | refl (node : Node) : Relisted node node
  | trans {a b c : Node} : Relisted a b → Relisted b c → Relisted a c
  | permuted {entries others : List (EntryName × Node)} : entries.Perm others →
      Relisted (.directory entries) (.directory others)
  | inside {before after : List (EntryName × Node)} {name : EntryName} {child other : Node} :
      Relisted child other →
      Relisted (.directory (before ++ (name, child) :: after))
        (.directory (before ++ (name, other) :: after))

variable {node other : Node} {entries others : List (EntryName × Node)} {name : EntryName}

/-- In a list whose keys are all different, an entry is found when it is in the list. -/
theorem lookup_eq_some_iff (hnodup : (entries.map Prod.fst).Nodup) {child : Node} :
    entries.lookup name = some child ↔ (name, child) ∈ entries := by
  induction entries with
  | nil => simp
  | cons entry entries ih =>
    obtain ⟨key, found⟩ := entry
    rw [List.map_cons, List.nodup_cons] at hnodup
    rw [List.lookup_cons, List.mem_cons, Prod.mk.injEq]
    by_cases hkey : name = key
    · subst hkey
      -- no later entry has the name too
      have hnot : (name, child) ∉ entries := by
        intro hmem
        exact hnodup.1 (List.mem_map.mpr ⟨(name, child), hmem, rfl⟩)
      simp [hnot, eq_comm]
    · simp [hkey, ih hnodup.2, beq_eq_false_iff_ne.mpr hkey]

theorem Proper.nodup (h : Proper (.directory entries)) : (entries.map Prod.fst).Nodup := by
  cases h
  assumption

theorem Proper.isName (h : Proper (.directory entries)) {child : Node}
    (hentry : (name, child) ∈ entries) : Path.IsName name := by
  cases h with
  | directory _ hnames _ => exact hnames _ hentry

theorem Proper.child (h : Proper (.directory entries)) {child : Node}
    (hentry : (name, child) ∈ entries) : Proper child := by
  cases h with
  | directory _ _ hchildren => exact hchildren _ hentry

mutual

/-- Whether the tree is proper. -/
def isProper : Node → Bool
  | directory entries => (entries.map Prod.fst).Nodup && areProper entries
  | _ => true

/-- Whether the entries have names and are proper. -/
def areProper : List (EntryName × Node) → Bool
  | [] => true
  | (name, child) :: rest => Path.isName name && child.isProper && areProper rest

end

mutual

theorem isProper_iff (node : Node) : node.isProper = true ↔ Proper node := by
  match node with
  | .directory entries =>
    rw [isProper, Bool.and_eq_true, decide_eq_true_eq, areProper_iff entries]
    constructor
    · rintro ⟨hnodup, hentries⟩
      exact .directory hnodup (fun entry hentry => (hentries entry hentry).1)
        fun entry hentry => (hentries entry hentry).2
    · rintro (⟨hnodup, hnames, hchildren⟩)
      exact ⟨hnodup, fun entry hentry => ⟨hnames entry hentry, hchildren entry hentry⟩⟩
  | .file content => exact iff_of_true rfl (.file content)
  | .link target => exact iff_of_true rfl (.link target)
  | .pipe written => exact iff_of_true rfl (.pipe written)

theorem areProper_iff (entries : List (EntryName × Node)) : areProper entries = true ↔
    ∀ entry ∈ entries, Path.IsName entry.1 ∧ Proper entry.2 := by
  match entries with
  | [] => simp [areProper]
  | (name, child) :: rest =>
    rw [areProper, Bool.and_eq_true, Bool.and_eq_true, Path.isName_iff, isProper_iff child,
      areProper_iff rest, List.forall_mem_cons]

end

instance : Decidable (Proper node) :=
  decidable_of_iff _ (isProper_iff node)

theorem Relisted.proper (h : Relisted node other) (hproper : Proper node) : Proper other := by
  induction h with
  | refl => exact hproper
  | trans _ _ ih₁ ih₂ => exact ih₂ (ih₁ hproper)
  | permuted hperm =>
    cases hproper with
    | directory hnodup hnames hchildren =>
      refine .directory ((hperm.map Prod.fst).nodup hnodup) ?_ ?_
      · intro entry hentry
        exact hnames entry (hperm.mem_iff.mpr hentry)
      · intro entry hentry
        exact hchildren entry (hperm.mem_iff.mpr hentry)
  | inside _ ih =>
    cases hproper with
    | directory hnodup hnames hchildren =>
      simp only [List.forall_mem_append, List.forall_mem_cons] at hnames hchildren
      refine .directory (by simpa using hnodup) ?_ ?_
      · simp only [List.forall_mem_append, List.forall_mem_cons]
        exact hnames
      · simp only [List.forall_mem_append, List.forall_mem_cons]
        exact ⟨hchildren.1, ih hchildren.2.1, hchildren.2.2⟩

theorem Proper.find? (h : Proper node) {names : List EntryName} {found : Node}
    (hfound : node.find? names = some found) : Proper found := by
  induction names generalizing node with
  | nil => exact Option.some.inj hfound ▸ h
  | cons name names ih =>
    rw [Node.find?, Option.bind_eq_some_iff] at hfound
    obtain ⟨child, hchild, hfound⟩ := hfound
    refine ih ?_ hfound
    cases node with
    | directory entries => exact h.child ((lookup_eq_some_iff h.nodup).mp hchild)
    | _ => cases hchild

/-! ## What a node is -/

/-- The node without its entries. -/
def face : Node → Node
  | directory _ => directory []
  | other => other

theorem Relisted.face_eq (h : Relisted node other) : node.face = other.face := by
  induction h with
  | trans _ _ ih₁ ih₂ => exact ih₁.trans ih₂
  | _ => rfl

theorem Relisted.exists_entries (h : Relisted (.directory entries) other) :
    ∃ others, other = .directory others := by
  have hface := h.face_eq
  cases other with
  | directory others => exact ⟨others, rfl⟩
  | _ => cases hface

theorem Relisted.eq_of_not_isDirectory (h : Relisted node other)
    (hnode : node.isDirectory = false) : other = node := by
  have hface := h.face_eq
  cases node with
  | directory entries => cases hnode
  | _ => cases other <;> first | exact hface.symm | cases hface

theorem countDirectoriesIn_eq (entries : List (EntryName × Node)) :
    countDirectoriesIn entries = (entries.map fun entry => entry.2.countDirectories).sum := by
  induction entries with
  | nil => rfl
  | cons entry entries ih => simp [countDirectoriesIn, ih]

theorem Relisted.countDirectories_eq (h : Relisted node other) :
    node.countDirectories = other.countDirectories := by
  induction h with
  | refl => rfl
  | trans _ _ ih₁ ih₂ => exact ih₁.trans ih₂
  | permuted hperm =>
    simp only [countDirectories, countDirectoriesIn_eq]
    rw [(hperm.map _).sum_nat]
  | inside _ ih => simp [countDirectories, countDirectoriesIn_eq, ih]

/-! ## What names lead to -/

theorem lookup_eq_of_perm (hnodup : (entries.map Prod.fst).Nodup) (hperm : entries.Perm others)
    (name : EntryName) : entries.lookup name = others.lookup name := by
  have hnodup' : (others.map Prod.fst).Nodup := (hperm.map Prod.fst).nodup hnodup
  apply Option.ext
  intro child
  rw [lookup_eq_some_iff hnodup, lookup_eq_some_iff hnodup', hperm.mem_iff]

theorem rel_refl (found : Option Node) : Option.Rel Relisted found found := by
  cases found with
  | none => exact .none
  | some node => exact .some (.refl node)

theorem rel_trans {a b c : Option Node} (hab : Option.Rel Relisted a b)
    (hbc : Option.Rel Relisted b c) : Option.Rel Relisted a c := by
  cases hab with
  | none => exact hbc
  | some hab =>
    cases hbc with
    | some hbc => exact .some (hab.trans hbc)

variable {first second : Option Node}

theorem eq_none_of_rel (h : Option.Rel Relisted first second) (hfirst : first = none) :
    second = none := by
  subst hfirst
  cases h
  rfl

theorem exists_of_rel (h : Option.Rel Relisted first second) (hfirst : first = some node) :
    ∃ other, second = some other ∧ node.face = other.face := by
  subst hfirst
  cases h with
  | some h => exact ⟨_, rfl, h.face_eq⟩

theorem eq_link_of_rel (h : Option.Rel Relisted first second) {target : List UInt8}
    (hfirst : first = some (.link target)) : second = some (.link target) := by
  subst hfirst
  cases h with
  | some h => rw [h.eq_of_not_isDirectory rfl]

/-- **The same names lead to the same place.** -/
theorem find?_relisted (h : Relisted node other) (hproper : Proper node) (names : List EntryName) :
    Option.Rel Relisted (node.find? names) (other.find? names) := by
  induction h generalizing names with
  | refl => exact rel_refl _
  | trans hab _ ih₁ ih₂ => exact rel_trans (ih₁ hproper names) (ih₂ (hab.proper hproper) names)
  | permuted hperm =>
    cases names with
    | nil => exact .some (.permuted hperm)
    | cons name names =>
      simp only [find?, child?, Node.entries, lookup_eq_of_perm hproper.nodup hperm]
      exact rel_refl _
  | @inside before after key child other hinside ih =>
    cases names with
    | nil => exact .some (.inside hinside)
    | cons name names =>
      simp only [find?, child?, Node.entries, List.lookup_append, List.lookup_cons]
      cases before.lookup name with
      | some found => exact rel_refl _
      | none =>
        cases name == key
        · exact rel_refl _
        · have hchild : (key, child) ∈ before ++ (key, child) :: after :=
            List.mem_append_right before List.mem_cons_self
          exact ih (hproper.child hchild) names

theorem lookup_entries_relisted (h : Relisted (.directory entries) (.directory others))
    (hproper : Proper (.directory entries)) (name : EntryName) :
    Option.Rel Relisted (entries.lookup name) (others.lookup name) := by
  have hfind := find?_relisted h hproper [name]
  simp only [find?, child?, Node.entries] at hfind
  simpa using hfind

end Node

namespace FileSystem

/-- The file systems differ only in the order in which directories list their entries. -/
structure Relisted (fs other : FileSystem) : Prop where
  root : Node.Relisted fs.root other.root
  workingDirectory : other.workingDirectory = fs.workingDirectory
  refusals : other.refusals = fs.refusals

theorem Relisted.refl (fs : FileSystem) : Relisted fs fs := ⟨.refl fs.root, rfl, rfl⟩

theorem accessAt_congr {fs other : FileSystem} (h : other.refusals = fs.refusals)
    (names : List EntryName) : other.accessAt names = fs.accessAt names := by
  rw [accessAt, accessAt, h]

/-- The step is refused in the one file system as in the other. -/
theorem barrier?_congr {fs other : FileSystem} (h : other.refusals = fs.refusals) (manner : Manner)
    (names : List EntryName) (step : Path.Component) :
    other.barrier? manner names step = fs.barrier? manner names step := by
  cases step <;> simp only [barrier?, searchRefusal?, accessAt_congr h]

/-- The same error, or the same place. -/
inductive SamePlace : Except Errno Place → Except Errno Place → Prop
  | error (errno : Errno) : SamePlace (.error errno) (.error errno)
  | ok (names : List EntryName) {found other : Option Node} :
      Option.Rel Node.Relisted found other → SamePlace (.ok ⟨names, found⟩) (.ok ⟨names, other⟩)

theorem Relisted.exists_entries {fs other : FileSystem} (h : Relisted fs other)
    (hproper : fs.root.Proper) {names : List EntryName} {entries : List (EntryName × Node)}
    (hfound : fs.root.find? names = some (.directory entries)) :
    ∃ others, other.root.find? names = some (.directory others) ∧
      ∀ name, Option.Rel Node.Relisted (entries.lookup name) (others.lookup name) := by
  have hfind := Node.find?_relisted h.root hproper names
  rw [hfound] at hfind
  generalize other.root.find? names = found at hfind
  cases hfind with
  | some hnode =>
    obtain ⟨others, rfl⟩ := hnode.exists_entries
    exact ⟨others, rfl, Node.lookup_entries_relisted hnode (hproper.find? hfound)⟩

/-- Each step leads to the same place. -/
theorem walk_relisted {fs other : FileSystem} (h : Relisted fs other)
    (hproper : fs.root.Proper) (manner : Manner) (links : Nat) (names : List EntryName)
    (pending : List Path.Component) :
    SamePlace (fs.walk manner links names pending) (other.walk manner links names pending) := by
  have hfind := Node.find?_relisted h.root hproper
  have hsame := barrier?_congr h.refusals manner
  -- both walks stand at the same names, so each step finds the same kind of node in both trees
  fun_induction FileSystem.walk fs manner links names pending with
  | case1 links names =>
    rw [FileSystem.walk]
    exact .ok names (hfind names)
  | case2 links names step rest entries hfound errno hbarrier =>
    obtain ⟨others, hothers, -⟩ := h.exists_entries hproper hfound
    rw [walk_refused hothers ((hsame _ _).trans hbarrier)]
    exact .error errno
  | case3 links names rest entries hfound hbarrier ih =>
    obtain ⟨others, hothers, -⟩ := h.exists_entries hproper hfound
    rw [walk_stay hothers (.inl rfl) ((hsame _ _).trans hbarrier)]
    exact ih
  | case4 links names rest entries hfound hbarrier ih =>
    obtain ⟨others, hothers, -⟩ := h.exists_entries hproper hfound
    rw [walk_stay hothers (.inr rfl) ((hsame _ _).trans hbarrier)]
    exact ih
  | case5 links names rest entries hfound hbarrier ih =>
    obtain ⟨others, hothers, -⟩ := h.exists_entries hproper hfound
    rw [walk_up hothers ((hsame _ _).trans hbarrier)]
    exact ih
  | case6 links names rest entries hfound name hentry hlength hbarrier =>
    obtain ⟨others, hothers, hlookup⟩ := h.exists_entries hproper hfound
    rw [walk_absent hothers ((hsame _ _).trans hbarrier)
      (Node.eq_none_of_rel (hlookup name) hentry), if_pos hlength]
    exact .error _
  | case7 links names rest entries hfound name hentry hlength hrest hbarrier =>
    obtain ⟨others, hothers, hlookup⟩ := h.exists_entries hproper hfound
    rw [walk_absent hothers ((hsame _ _).trans hbarrier)
      (Node.eq_none_of_rel (hlookup name) hentry), if_neg hlength, if_pos hrest]
    exact .ok _ .none
  | case8 links names rest entries hfound name hentry hlength hrest hbarrier =>
    obtain ⟨others, hothers, hlookup⟩ := h.exists_entries hproper hfound
    rw [walk_absent hothers ((hsame _ _).trans hbarrier)
      (Node.eq_none_of_rel (hlookup name) hentry), if_neg hlength, if_neg hrest]
    exact .error _
  | case9 links names rest entries hfound name target hentry hrest hbarrier =>
    obtain ⟨others, hothers, hlookup⟩ := h.exists_entries hproper hfound
    rw [walk_at_link hothers ((hsame _ _).trans hbarrier)
      (Node.eq_link_of_rel (hlookup name) hentry), if_pos hrest]
    exact .ok _ (.some (.refl _))
  | case10 names rest entries hfound name target hentry hrest hbarrier =>
    obtain ⟨others, hothers, hlookup⟩ := h.exists_entries hproper hfound
    rw [walk_at_link hothers ((hsame _ _).trans hbarrier)
      (Node.eq_link_of_rel (hlookup name) hentry), if_neg hrest]
    exact .error _
  | case11 names rest entries hfound name target hentry hrest links htarget hbarrier =>
    obtain ⟨others, hothers, hlookup⟩ := h.exists_entries hproper hfound
    rw [walk_at_link hothers ((hsame _ _).trans hbarrier)
      (Node.eq_link_of_rel (hlookup name) hentry), if_neg hrest]
    dsimp only
    rw [if_pos htarget]
    exact .error _
  | case12 names rest entries hfound name target hentry hrest links htarget hbarrier ih =>
    obtain ⟨others, hothers, hlookup⟩ := h.exists_entries hproper hfound
    rw [walk_at_link hothers ((hsame _ _).trans hbarrier)
      (Node.eq_link_of_rel (hlookup name) hentry), if_neg hrest]
    dsimp only
    rw [if_neg htarget]
    exact ih
  | case13 links names rest entries hfound name node hlink hentry hbarrier ih =>
    -- the entry is no link, and so it is none in the other tree
    obtain ⟨others, hothers, hlookup⟩ := h.exists_entries hproper hfound
    obtain ⟨found, hfound', hface⟩ := Node.exists_of_rel (hlookup name) hentry
    have hnotLink : ∀ target, found ≠ .link target := by
      rintro target rfl
      cases node <;> first | exact (hlink _ rfl).elim | cases hface
    rw [walk_entry hothers ((hsame _ _).trans hbarrier) hfound' hnotLink]
    exact ih
  | case14 links names step rest node hdirectory hfound =>
    -- the walk stands at what is no directory, in neither tree
    obtain ⟨found, hfound', hface⟩ := Node.exists_of_rel (hfind names) hfound
    rw [FileSystem.walk, hfound']
    cases found with
    | directory entries => cases node <;> first | exact (hdirectory _ rfl).elim | cases hface
    | _ => exact .error _
  | case15 links names step rest hfound =>
    rw [FileSystem.walk, Node.eq_none_of_rel (hfind names) hfound]
    exact .error _

theorem place_relisted {fs other : FileSystem} (h : Relisted fs other) (hproper : fs.root.Proper)
    (path : Path) (manner : Manner) :
    SamePlace (fs.place path manner) (other.place path manner) := by
  unfold place
  rw [h.workingDirectory]
  split
  · exact .error _
  · split
    · exact .error _
    · exact walk_relisted h hproper ..

/-- **A path leads to the same names and to a node that is the same in some order.** -/
theorem lookup_relisted {fs other : FileSystem} (h : Relisted fs other)
    (hproper : fs.root.Proper) (path : Path) (manner : Manner) :
    (∃ errno, fs.lookup path manner = .error errno ∧ other.lookup path manner = .error errno) ∨
      ∃ names node found, fs.lookup path manner = .ok (names, node) ∧
        other.lookup path manner = .ok (names, found) ∧ Node.Relisted node found := by
  have hplace := place_relisted h hproper path manner
  unfold lookup
  generalize fs.place path manner = first at hplace
  generalize other.place path manner = second at hplace
  cases hplace with
  | error errno => exact .inl ⟨errno, rfl, rfl⟩
  | ok names hrel =>
    cases hrel with
    | none => exact .inl ⟨.noEntry, rfl, rfl⟩
    | some hnode => exact .inr ⟨names, _, _, rfl, rfl, hnode⟩

theorem realFault?_relisted {fs other : FileSystem} (h : Relisted fs other)
    (hproper : fs.root.Proper) (path : Path) : other.realFault? path = fs.realFault? path := by
  unfold realFault?
  rcases lookup_relisted h hproper path .real with
    ⟨errno, hfirst, hsecond⟩ | ⟨names, node, found, hfirst, hsecond, -⟩ <;>
  rw [hfirst, hsecond]

theorem read_relisted {fs other : FileSystem} (h : Relisted fs other)
    (hproper : fs.root.Proper) (path : Path) : other.read path = fs.read path := by
  unfold read
  rcases lookup_relisted h hproper path .through with
    ⟨errno, hfirst, hsecond⟩ | ⟨names, node, found, hfirst, hsecond, hnode⟩
  · rw [hfirst, hsecond]
  · rw [hfirst, hsecond]
    simp only [accessAt_congr h.refusals]
    cases node with
    | directory entries =>
      obtain ⟨others, rfl⟩ := hnode.exists_entries
      rfl
    | _ => rw [hnode.eq_of_not_isDirectory rfl]

end FileSystem

end FormsAudit
