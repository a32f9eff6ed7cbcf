import FormsAudit.Proofs.FileSystem.Leads
import FormsAudit.Proofs.FileSystem.Relisted

/-!
# What writing a file leaves as it was

A file is written at one place of the tree.  Afterwards the path leads there, to the content, and
what any other names lead to is as before (`written_of_writeFile`).

Both halves rest on what an update does to names (`Node.find?_update`).  That the path still leads
to the same place is a matter of the walk, which goes only through directories and links, and the
place written holds neither (`FiledAt.walk`).
-/

namespace FormsAudit

namespace Node

variable {node child : Node} {entries : List (EntryName × Node)} {name : EntryName}
  {parent : List EntryName}

theorem lookup_map_entry (entries : List (EntryName × Node)) (name other : EntryName)
    (child : Node) :
    (entries.map fun entry => if entry.1 = name then (name, child) else entry).lookup other =
      if other = name then (entries.lookup other).map fun _ => child else entries.lookup other := by
  induction entries with
  | nil => simp
  | cons entry entries ih =>
    obtain ⟨key, found⟩ := entry
    by_cases hother : other = key
    · subst hother
      by_cases hkey : other = name <;> simp [hkey]
    · have hbeq : (other == key) = false := beq_eq_false_iff_ne.mpr hother
      by_cases hkey : key = name
      · subst hkey
        simp [List.lookup_cons, hbeq, ih]
      · simp [List.lookup_cons, hbeq, hkey, ih]

theorem lookup_eq_none_iff_any (entries : List (EntryName × Node)) (name : EntryName) :
    entries.lookup name = none ↔ ¬ entries.any (·.1 == name) = true := by
  rw [List.lookup_eq_none_iff, List.any_eq_true, not_exists]
  refine forall_congr' fun entry => ?_
  rw [not_and, bne_iff_ne, beq_iff_eq, ne_comm]

theorem lookup_setEntry (entries : List (EntryName × Node)) (name other : EntryName)
    (child : Node) :
    (setEntry entries name (some child)).lookup other =
      if other = name then some child else entries.lookup other := by
  simp only [setEntry, beq_iff_eq]
  by_cases hany : entries.any (·.1 == name) = true
  · rw [if_pos hany, lookup_map_entry]
    split
    · rename_i hother
      have hsome : entries.lookup name ≠ none := fun hnone =>
        (lookup_eq_none_iff_any entries name).mp hnone hany
      obtain ⟨found, hfound⟩ := Option.ne_none_iff_exists'.mp hsome
      rw [hother, hfound, Option.map_some]
    · rfl
  · rw [if_neg hany, List.lookup_append, List.lookup_cons]
    by_cases hother : other = name
    · rw [if_pos hother, hother, (lookup_eq_none_iff_any entries name).mpr hany, beq_self_eq_true]
      rfl
    · rw [if_neg hother, beq_eq_false_iff_ne.mpr hother]
      simp

/-- What is no directory has nothing below it. -/
theorem find?_cons_of_entries_eq_nil (h : node.entries = []) (name : EntryName)
    (names : List EntryName) : node.find? (name :: names) = none := by
  simp [find?, child?, h]

theorem update_cons {rest : List EntryName} (hrest : rest ≠ [])
    (hlookup : entries.lookup name = some child) (replacement : Option Node) :
    (directory entries).update (name :: rest) replacement =
      directory (setEntry entries name (some (child.update rest replacement))) := by
  cases rest with
  | nil => exact absurd rfl hrest
  | cons second rest =>
    have hchild : (directory entries).child? name = some child := hlookup
    simp only [update, hchild]

/-- An update is where its names lead afterwards, and other names lead where they led. -/
theorem find?_update (hparent : node.find? parent = some (.directory entries))
    (hold : ∀ old, entries.lookup name = some old → old.entries = []) (hchild : child.entries = []) :
    (node.update (parent ++ [name]) (some child)).find? (parent ++ [name]) = some child ∧
      ∀ names, names ≠ parent ++ [name] →
        ((node.update (parent ++ [name]) (some child)).find? names).map face =
          (node.find? names).map face := by
  induction parent generalizing node with
  | nil =>
    obtain rfl := Option.some.inj hparent
    simp only [List.nil_append, update]
    refine ⟨by simp [find?, child?, Node.entries, lookup_setEntry], fun names hnames => ?_⟩
    cases names with
    | nil => rfl
    | cons first rest =>
      simp only [find?, child?, Node.entries, lookup_setEntry]
      split
      · rename_i hfirst
        subst hfirst
        cases rest with
        | nil => exact absurd rfl hnames
        | cons second rest =>
          rw [Option.bind_some, find?_cons_of_entries_eq_nil hchild]
          cases hlookup : entries.lookup first with
          | none => rfl
          | some old => rw [Option.bind_some, find?_cons_of_entries_eq_nil (hold old hlookup)]
      · rfl
  | cons first parent ih =>
    rw [find?, Option.bind_eq_some_iff] at hparent
    obtain ⟨inner, hinner, hparent⟩ := hparent
    cases node with
    | directory others =>
      have hinner : others.lookup first = some inner := hinner
      obtain ⟨hfound, hothers⟩ := ih hparent
      rw [List.cons_append, update_cons (by simp) hinner]
      refine ⟨by simpa [find?, child?, Node.entries, lookup_setEntry] using hfound,
        fun names hnames => ?_⟩
      cases names with
      | nil => rfl
      | cons second rest =>
        simp only [find?, child?, Node.entries, lookup_setEntry]
        split
        · rename_i hsecond
          subst hsecond
          rw [hinner]
          exact hothers rest fun hrest => hnames (by rw [hrest])
        · rfl
    | _ => cases hinner

end Node

namespace FileSystem

variable {fs before after : FileSystem} {manner : Manner} {links : Nat}
  {names target : List EntryName} {pending : List Path.Component} {path : Path}

/-! ## Places -/

/-- At the names there is a directory, or there is one for an entry of the last name.  A name that is
not there yet is not too long. -/
def Housed (fs : FileSystem) (names : List EntryName) : Prop :=
  (∃ entries, fs.root.find? names = some (.directory entries)) ∨
    ∃ parent name entries, names = parent ++ [name] ∧
      fs.root.find? parent = some (.directory entries) ∧
      (entries.lookup name = none → name.length ≤ nameLimit)

theorem housed_of_walk {place : Place} (hstart : pending = [] → Housed fs names)
    (h : fs.walk manner links names pending = .ok place) : Housed fs place.names := by
  fun_induction FileSystem.walk fs manner links names pending with
  | case1 => exact Except.ok.inj h ▸ hstart rfl
  | case3 _ _ _ _ hfound _ ih | case4 _ _ _ _ hfound _ ih =>
    exact ih (fun _ => .inl ⟨_, hfound⟩) h
  | case5 links names rest entries hfound hbarrier ih =>
    have habove := exists_entries_of_prefix (List.dropLast_prefix names) hfound
    exact ih (fun _ => .inl habove) h
  | case7 links names rest entries hfound name hentry hlength =>
    exact Except.ok.inj h ▸
      .inr ⟨names, name, entries, rfl, hfound, fun _ => Nat.le_of_not_lt hlength⟩
  | case9 links names rest entries hfound name target hentry =>
    exact Except.ok.inj h ▸ .inr ⟨names, name, entries, rfl, hfound, by simp [hentry]⟩
  | case12 names rest entries hfound name target hentry hrest links htarget hbarrier ih =>
    refine ih (fun hnil => ?_) h
    exact absurd (List.append_eq_nil_iff.mp hnil).1 (steps_ne_nil target)
  | case13 links names rest entries hfound name node hlink hentry hbarrier ih =>
    exact ih (fun _ => .inr ⟨names, name, entries, rfl, hfound, by simp [hentry]⟩) h
  | _ => cases h

/-! ## Trees that differ in one place -/

/-- What is found, if anything, is a file. -/
def FileOrNothing (found : Option Node) : Prop :=
  ∀ node, found = some node → ∃ content, node = .file content

theorem FileOrNothing.ne_directory {found : Option Node} (h : FileOrNothing found)
    (entries : List (EntryName × Node)) : found ≠ some (.directory entries) := by
  intro hfound
  obtain ⟨content, hnode⟩ := h _ hfound
  cases hnode

theorem FileOrNothing.ne_link {found : Option Node} (h : FileOrNothing found)
    (target : List UInt8) : found ≠ some (.link target) := by
  intro hfound
  obtain ⟨content, hnode⟩ := h _ hfound
  cases hnode

/-- Whatever other names than these lead to in the one tree they lead to in the other, and the same
is refused. -/
structure AgreeBut (names : List EntryName) (before after : FileSystem) : Prop where
  workingDirectory : after.workingDirectory = before.workingDirectory
  refusals : after.refusals = before.refusals
  face_eq : ∀ others, others ≠ names →
    (after.root.find? others).map Node.face = (before.root.find? others).map Node.face

theorem AgreeBut.exists_node (h : AgreeBut target before after) (hne : names ≠ target) {node : Node}
    (hfound : before.root.find? names = some node) :
    ∃ other, after.root.find? names = some other ∧ other.face = node.face := by
  have hface := h.face_eq names hne
  rw [hfound, Option.map_some] at hface
  exact Option.map_eq_some_iff.mp hface

theorem AgreeBut.eq_of_not_isDirectory (h : AgreeBut target before after) (hne : names ≠ target)
    {node : Node} (hfound : before.root.find? names = some node) (hnode : node.isDirectory = false) :
    after.root.find? names = some node := by
  obtain ⟨other, hother, hface⟩ := h.exists_node hne hfound
  rw [hother]
  cases node with
  | directory entries => cases hnode
  | _ => cases other <;> first | exact congrArg some hface | cases hface

theorem AgreeBut.exists_directory (h : AgreeBut target before after) (hne : names ≠ target)
    {entries : List (EntryName × Node)}
    (hfound : before.root.find? names = some (.directory entries)) :
    ∃ others, after.root.find? names = some (.directory others) := by
  obtain ⟨node, hnode, hface⟩ := h.exists_node hne hfound
  cases node with
  | directory others => exact ⟨others, hnode⟩
  | _ => cases hface

theorem AgreeBut.find?_eq_file_iff (h : AgreeBut target before after) (hne : names ≠ target)
    {content : List UInt8} : after.root.find? names = some (.file content) ↔
      before.root.find? names = some (.file content) := by
  have hface : ∀ found : Option Node, found = some (.file content) ↔
      found.map Node.face = some (.file content) := by
    intro found
    cases found with
    | none => simp
    | some node => cases node <;> simp [Node.face]
  rw [hface, h.face_eq names hne, ← hface]

theorem AgreeBut.barrier?_eq (h : AgreeBut target before after) (manner : Manner)
    (names : List EntryName) (step : Path.Component) :
    after.barrier? manner names step = before.barrier? manner names step :=
  barrier?_congr h.refusals manner names step

/-- The second tree is the first with a file of the content at the place, where there was a file or
nothing.  A new name is not too long. -/
structure FiledAt (target : List EntryName) (content : List UInt8) (before after : FileSystem) :
    Prop where
  agree : AgreeBut target before after
  fileOrNothing : FileOrNothing (before.root.find? target)
  length_le : before.root.find? target = none →
    ∀ name ∈ target.getLast?, name.length ≤ nameLimit
  found : after.root.find? target = some (.file content)

/-- What a path comes to in two trees of which the second has a file of the content at the place
`target` and is the first otherwise. -/
inductive Alike (target : List EntryName) (content : List UInt8) :
    Except Errno Place → Except Errno Place → Prop
  | error (errno : Errno) : Alike target content (.error errno) (.error errno)
  /-- The path leads on from the place. -/
  | blocked : Alike target content (.error .noEntry) (.error .notADirectory)
  | elsewhere {names : List EntryName} {node other : Option Node} : names ≠ target →
      other.map Node.face = node.map Node.face →
      Alike target content (.ok ⟨names, node⟩) (.ok ⟨names, other⟩)
  | there {node : Option Node} :
      Alike target content (.ok ⟨target, node⟩) (.ok ⟨target, some (.file content)⟩)

section Alike

variable {content : List UInt8}

theorem Alike.eq_of_there {node : Option Node} {second : Except Errno Place}
    (h : Alike target content (.ok ⟨target, node⟩) second) :
    second = .ok ⟨target, some (.file content)⟩ := by
  cases h with
  | elsewhere hne => exact absurd rfl hne
  | there => rfl

theorem FiledAt.exists_directory (h : FiledAt target content before after)
    {entries : List (EntryName × Node)}
    (hfound : before.root.find? names = some (.directory entries)) :
    ∃ others, after.root.find? names = some (.directory others) :=
  h.agree.exists_directory (fun heq => h.fileOrNothing.ne_directory entries (heq ▸ hfound)) hfound

/-- At the place there is no link, so a link is the same in both trees. -/
theorem FiledAt.lookup_link (h : FiledAt target content before after)
    {entries others : List (EntryName × Node)} {name : EntryName} {found : List UInt8}
    (hentries : before.root.find? names = some (.directory entries))
    (hothers : after.root.find? names = some (.directory others))
    (hentry : entries.lookup name = some (.link found)) :
    others.lookup name = some (.link found) := by
  have hthere := (find?_concat name hentries).trans hentry
  rw [← find?_concat name hothers]
  exact h.agree.eq_of_not_isDirectory (fun heq => h.fileOrNothing.ne_link found (heq ▸ hthere))
    hthere rfl

theorem FiledAt.lookup_none (h : FiledAt target content before after)
    {entries others : List (EntryName × Node)} {name : EntryName}
    (hentries : before.root.find? names = some (.directory entries))
    (hothers : after.root.find? names = some (.directory others))
    (hne : names ++ [name] ≠ target) (hentry : entries.lookup name = none) :
    others.lookup name = none := by
  have hface := h.agree.face_eq _ hne
  rw [find?_concat name hothers, find?_concat name hentries, hentry] at hface
  exact Option.map_eq_none_iff.mp hface

/-- An entry that is no link is none in either tree. -/
theorem FiledAt.exists_lookup (h : FiledAt target content before after)
    {entries others : List (EntryName × Node)} {name : EntryName} {child : Node}
    (hentries : before.root.find? names = some (.directory entries))
    (hothers : after.root.find? names = some (.directory others))
    (hentry : entries.lookup name = some child) (hchild : ∀ found, child ≠ .link found) :
    ∃ other, others.lookup name = some other ∧ ∀ found, other ≠ .link found := by
  rw [← find?_concat name hothers]
  by_cases htarget : names ++ [name] = target
  · exact ⟨_, htarget ▸ h.found, by simp⟩
  · obtain ⟨other, hother, hface⟩ :=
      h.agree.exists_node htarget ((find?_concat name hentries).trans hentry)
    refine ⟨other, hother, ?_⟩
    rintro found rfl
    cases child <;> first | exact hchild _ rfl | cases hface

/-- A walk goes through directories and links, and at the place there are none in either tree.  So it
takes the same way in both. -/
theorem FiledAt.walk (h : FiledAt target content before after) (manner : Manner) (links : Nat)
    (names : List EntryName) (pending : List Path.Component) :
    Alike target content (before.walk manner links names pending)
      (after.walk manner links names pending) := by
  have hsame := h.agree.barrier?_eq manner
  -- where the walk stands at the place itself and is to go on
  have hon : ∀ {links step rest}, after.walk manner links target (step :: rest) =
      .error .notADirectory := by
    intro links step rest
    rw [FileSystem.walk, h.found]
  fun_induction FileSystem.walk before manner links names pending with
  | case1 links names =>
    rw [FileSystem.walk]
    by_cases heq : names = target
    · rw [heq, h.found]
      exact .there
    · exact .elsewhere heq (h.agree.face_eq names heq)
  | case2 links names step rest entries hfound errno hbarrier =>
    obtain ⟨others, hothers⟩ := h.exists_directory hfound
    rw [walk_refused hothers ((hsame _ _).trans hbarrier)]
    exact .error errno
  | case3 links names rest entries hfound hbarrier ih =>
    obtain ⟨others, hothers⟩ := h.exists_directory hfound
    rw [walk_stay hothers (.inl rfl) ((hsame _ _).trans hbarrier)]
    exact ih
  | case4 links names rest entries hfound hbarrier ih =>
    obtain ⟨others, hothers⟩ := h.exists_directory hfound
    rw [walk_stay hothers (.inr rfl) ((hsame _ _).trans hbarrier)]
    exact ih
  | case5 links names rest entries hfound hbarrier ih =>
    obtain ⟨others, hothers⟩ := h.exists_directory hfound
    rw [walk_up hothers ((hsame _ _).trans hbarrier)]
    exact ih
  | case6 links names rest entries hfound name hentry hlength hbarrier =>
    obtain ⟨others, hothers⟩ := h.exists_directory hfound
    -- no file has been made under a name that is too long
    have hne : names ++ [name] ≠ target := by
      rintro rfl
      refine absurd (h.length_le ?_ name (by simp)) (Nat.not_le.mpr hlength)
      rw [find?_concat name hfound, hentry]
    rw [walk_absent hothers ((hsame _ _).trans hbarrier)
      (h.lookup_none hfound hothers hne hentry), if_pos hlength]
    exact .error _
  | case7 links names rest entries hfound name hentry hlength hrest hbarrier =>
    obtain ⟨others, hothers⟩ := h.exists_directory hfound
    by_cases heq : names ++ [name] = target
    · -- the file has been made here
      have hmade : others.lookup name = some (.file content) := by
        rw [← find?_concat name hothers, heq, h.found]
      obtain rfl := List.isEmpty_iff.mp hrest
      rw [walk_entry hothers ((hsame _ _).trans hbarrier) hmade (by simp), heq, FileSystem.walk,
        h.found]
      exact .there
    · rw [walk_absent hothers ((hsame _ _).trans hbarrier)
        (h.lookup_none hfound hothers heq hentry), if_neg hlength, if_pos hrest]
      exact .elsewhere heq rfl
  | case8 links names rest entries hfound name hentry hlength hrest hbarrier =>
    obtain ⟨others, hothers⟩ := h.exists_directory hfound
    by_cases heq : names ++ [name] = target
    · have hmade : others.lookup name = some (.file content) := by
        rw [← find?_concat name hothers, heq, h.found]
      obtain ⟨step, rest, rfl⟩ := List.exists_cons_of_ne_nil (mt List.isEmpty_iff.mpr hrest)
      rw [walk_entry hothers ((hsame _ _).trans hbarrier) hmade (by simp), heq, hon]
      exact .blocked
    · rw [walk_absent hothers ((hsame _ _).trans hbarrier)
        (h.lookup_none hfound hothers heq hentry), if_neg hlength, if_neg hrest]
      exact .error _
  | case9 links names rest entries hfound name found hentry hrest hbarrier =>
    obtain ⟨others, hothers⟩ := h.exists_directory hfound
    have hthere := (find?_concat name hfound).trans hentry
    rw [walk_at_link hothers ((hsame _ _).trans hbarrier) (h.lookup_link hfound hothers hentry),
      if_pos hrest]
    exact .elsewhere (fun heq => h.fileOrNothing.ne_link found (heq ▸ hthere)) rfl
  | case10 names rest entries hfound name found hentry hrest hbarrier =>
    obtain ⟨others, hothers⟩ := h.exists_directory hfound
    rw [walk_at_link hothers ((hsame _ _).trans hbarrier) (h.lookup_link hfound hothers hentry),
      if_neg hrest]
    exact .error _
  | case11 names rest entries hfound name found hentry hrest links hempty hbarrier =>
    obtain ⟨others, hothers⟩ := h.exists_directory hfound
    rw [walk_at_link hothers ((hsame _ _).trans hbarrier) (h.lookup_link hfound hothers hentry),
      if_neg hrest]
    dsimp only
    rw [if_pos hempty]
    exact .error _
  | case12 names rest entries hfound name found hentry hrest links hempty hbarrier ih =>
    obtain ⟨others, hothers⟩ := h.exists_directory hfound
    rw [walk_at_link hothers ((hsame _ _).trans hbarrier) (h.lookup_link hfound hothers hentry),
      if_neg hrest]
    dsimp only
    rw [if_neg hempty]
    exact ih
  | case13 links names rest entries hfound name found hlink hentry hbarrier ih =>
    obtain ⟨others, hothers⟩ := h.exists_directory hfound
    obtain ⟨other, hother, hnotLink⟩ :=
      h.exists_lookup hfound hothers hentry fun target heq => hlink target heq
    rw [walk_entry hothers ((hsame _ _).trans hbarrier) hother hnotLink]
    exact ih
  | case14 links names step rest found hdirectory hfound =>
    by_cases heq : names = target
    · rw [heq, hon]
      exact .error _
    · obtain ⟨other, hother, hface⟩ := h.agree.exists_node heq hfound
      rw [FileSystem.walk, hother]
      cases other with
      | directory others => cases found <;> first | exact (hdirectory _ rfl).elim | cases hface
      | _ => exact .error _
  | case15 links names step rest hfound =>
    by_cases heq : names = target
    · rw [heq, hon]
      exact .blocked
    · have hface := h.agree.face_eq names heq
      rw [hfound, Option.map_none, Option.map_eq_none_iff] at hface
      rw [FileSystem.walk, hface]
      exact .error _

theorem FiledAt.place (h : FiledAt target content before after) (path : Path) (manner : Manner) :
    Alike target content (before.place path manner) (after.place path manner) := by
  unfold FileSystem.place
  rw [h.agree.workingDirectory]
  split
  · exact .error _
  · split
    · exact .error _
    · exact h.walk ..

end Alike

/-- What is there after a file is written at the path. -/
inductive Written (before : FileSystem) (path : Path) (content : List UInt8) : FileSystem → Prop
  /-- The path leads to a place where there is a file or nothing; then the file there holds the
  content, and nothing else is changed. -/
  | filed {place : Place} {after : FileSystem} : before.place path = .ok place →
      FileOrNothing place.node → after.lookup path = .ok (place.names, .file content) →
      AgreeBut place.names before after → Written before path content after
  /-- The path leads to a pipe, through which the content goes to whoever reads it. -/
  | piped {names : List EntryName} {written : List UInt8} :
      before.place path = .ok ⟨names, some (.pipe written)⟩ → Written before path content before

/-- A file put where there was a file or nothing is all that is new. -/
theorem filedAt_replace {place : Place} (hplace : before.place path = .ok place)
    (hnode : FileOrNothing place.node) (content : List UInt8) :
    FiledAt place.names content before (before.replace place.names (some (.file content))) := by
  obtain ⟨-, -, hwalk⟩ := place_eq_ok_iff.mp hplace
  have hfound := find?_of_walk hwalk
  obtain ⟨entries, hdirectory⟩ | ⟨parent, name, entries, hnames, hparent, hlength⟩ :=
    housed_of_walk (fun hnil => absurd hnil (steps_ne_nil path.bytes)) hwalk
  · exact absurd (hfound.symm.trans hdirectory) (hnode.ne_directory entries)
  · have hentry : entries.lookup name = place.node := by
      rw [← hfound, hnames, find?_concat name hparent]
    have hold : ∀ old, entries.lookup name = some old → old.entries = [] := by
      intro old hold
      obtain ⟨content, rfl⟩ := hnode old (hentry.symm.trans hold)
      rfl
    have hempty : (Node.file content).entries = [] := rfl
    obtain ⟨hthere, hothers⟩ := Node.find?_update hparent hold hempty
    refine ⟨⟨rfl, rfl, hnames ▸ hothers⟩, hfound ▸ hnode, ?_, hnames ▸ hthere⟩
    intro hnone
    rw [hfound, ← hentry] at hnone
    simpa [hnames] using hlength hnone

/-- What a written tree is.  A path that names a file leads to a place where a file can be written:
where there is a file or nothing, or a pipe. -/
theorem writeFile_eq_ok_iff {content : List UInt8} :
    before.writeFile path content = .ok after ↔
      path.isEmpty = false ∧ withoutTrailingSlashes path = path ∧
        ∃ place, before.place path = .ok place ∧ (before.accessAt place.names).writing = none ∧
          (FileOrNothing place.node ∧ after = before.replace place.names (some (.file content)) ∨
            (∃ written, place.node = some (.pipe written)) ∧ after = before) := by
  unfold writeFile
  dsimp only
  by_cases hempty : path.isEmpty = true
  · simp [hempty]
  · by_cases hnamed : withoutTrailingSlashes path = path
    · simp only [hnamed, hempty, ne_eq, not_true_eq_false, if_false, Bool.false_eq_true, true_and]
      split
      · rename_i hplace
        simp [hplace]
      · rename_i hplace
        simp [hplace, FileOrNothing]
      · rename_i names node hnotDirectory hplace
        cases hwriting : (before.accessAt names).writing with
        | some errno => simp [hplace, hwriting]
        | none =>
          cases node with
          | none => simp [hplace, hwriting, FileOrNothing, eq_comm]
          | some node =>
            cases node with
            | file old => simp [hplace, hwriting, FileOrNothing, eq_comm]
            | pipe written => simp [hplace, hwriting, FileOrNothing, eq_comm]
            | directory entries => exact absurd rfl (hnotDirectory entries)
            | link target =>
              have hlookup := lookup_eq_ok_iff.mpr hplace
              exact absurd (find?_of_lookup hlookup) (not_link_of_lookup hlookup target)
    · rw [if_neg hempty]
      split
      · simp [hnamed]
      · cases before.place (withoutTrailingSlashes path) .itself <;> simp [hnamed]

/-- **Writing a file changes that file and nothing else, and the path then leads to the content.** -/
theorem written_of_writeFile {content : List UInt8} (h : before.writeFile path content = .ok after) :
    Written before path content after := by
  obtain ⟨-, -, ⟨names, node⟩, hplace, -, ⟨hnode, rfl⟩ | ⟨⟨written, rfl⟩, rfl⟩⟩ :=
    writeFile_eq_ok_iff.mp h
  · have hfiled := filedAt_replace hplace hnode content
    have halike := hfiled.place path .through
    rw [hplace] at halike
    exact .filed hplace hnode (lookup_eq_ok_iff.mpr halike.eq_of_there) hfiled.agree
  · exact .piped hplace

/-- Whether a file can be written does not depend on the content. -/
theorem writeFile_eq_error_congr {content : List UInt8} {errno : Errno}
    (h : before.writeFile path content = .error errno) (other : List UInt8) :
    before.writeFile path other = .error errno := by
  unfold writeFile at h ⊢
  dsimp only at h ⊢
  split_ifs at h ⊢
  · exact h
  · exact h
  · exact h
  · split at h
    · exact h
    · exact h
    · split at h
      · exact h
      · split at h <;> cases h

end FileSystem

end FormsAudit
