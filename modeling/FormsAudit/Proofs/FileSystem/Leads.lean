import FormsAudit.Proofs.FileSystem.Walk
import FormsAudit.Proofs.Path.Order

/-!
# Where a path leads if nothing is refused

The system gives up on a path that is too long, leads through too many links or goes through a closed
directory.  `Leads` says where the steps of a path lead without that.  A place is reached by steps
that begin with others exactly when it is reached from where those lead (`leads_append_iff`), so what
stands below a directory depends on the directory and not on the path by which one came
(`PathLeads.join_iff`).

`lookup_of_pathLeads` is what the refusals change: a path that leads somewhere is found there, or it
is refused.
-/

namespace FormsAudit.FileSystem

variable {fs : FileSystem} {names final : List EntryName} {pending : List Path.Component}

/-! ## Moves -/

/-- A step from a directory leads to the place `next`, with further steps to go before those that
follow. -/
inductive Move (fs : FileSystem) (names : List EntryName) :
    Path.Component → List EntryName → List Path.Component → Prop
  | stay {entries : List (EntryName × Node)} {step : Path.Component} :
      fs.root.find? names = some (.directory entries) → step = .root ∨ step = .current →
      Move fs names step names []
  | up {entries : List (EntryName × Node)} :
      fs.root.find? names = some (.directory entries) → Move fs names .parent names.dropLast []
  | entry {entries : List (EntryName × Node)} {name : EntryName} {child : Node} :
      fs.root.find? names = some (.directory entries) → entries.lookup name = some child →
      (∀ target, child ≠ .link target) → Move fs names (.normal name) (names ++ [name]) []
  | link {entries : List (EntryName × Node)} {name : EntryName} {target : List UInt8} :
      fs.root.find? names = some (.directory entries) →
      entries.lookup name = some (.link target) → target ≠ [] →
      Move fs names (.normal name) (origin names target) (steps target)

theorem Move.exists_entries {step : Path.Component} {next : List EntryName}
    {further : List Path.Component} (h : Move fs names step next further) :
    ∃ entries, fs.root.find? names = some (.directory entries) := by
  cases h <;> exact ⟨_, ‹_›⟩

theorem Move.unique {step : Path.Component} {next other : List EntryName}
    {further others : List Path.Component} (h : Move fs names step next further)
    (hother : Move fs names step other others) : next = other ∧ further = others := by
  cases h with
  | stay _ hstep =>
    cases hother with
    | stay => exact ⟨rfl, rfl⟩
    | up | entry | link => simp at hstep
  | up =>
    cases hother with
    | stay _ hstep => simp at hstep
    | up => exact ⟨rfl, rfl⟩
  | entry hfound hentry hlink =>
    cases hother with
    | stay _ hstep => simp at hstep
    | entry => exact ⟨rfl, rfl⟩
    | link hfound' hentry' =>
      obtain rfl := Node.directory.inj (Option.some.inj (hfound.symm.trans hfound'))
      exact absurd (Option.some.inj (hentry.symm.trans hentry')) (hlink _)
  | link hfound hentry =>
    cases hother with
    | stay _ hstep => simp at hstep
    | entry hfound' hentry' hlink =>
      obtain rfl := Node.directory.inj (Option.some.inj (hfound.symm.trans hfound'))
      exact absurd (Option.some.inj (hentry'.symm.trans hentry)) (hlink _)
    | link hfound' hentry' =>
      obtain rfl := Node.directory.inj (Option.some.inj (hfound.symm.trans hfound'))
      obtain rfl := Node.link.inj (Option.some.inj (hentry.symm.trans hentry'))
      exact ⟨rfl, rfl⟩

/-- The steps lead from the place `names` to a place that exists, links followed. -/
inductive Leads (fs : FileSystem) :
    List EntryName → List Path.Component → List EntryName → Prop
  | here {names : List EntryName} {node : Node} : fs.root.find? names = some node →
      Leads fs names [] names
  | step {names next final : List EntryName} {step : Path.Component}
      {further rest : List Path.Component} : Move fs names step next further →
      Leads fs next (further ++ rest) final → Leads fs names (step :: rest) final

theorem Leads.unique {other : List EntryName} (h : Leads fs names pending final)
    (hother : Leads fs names pending other) : final = other := by
  induction h with
  | here =>
    cases hother
    rfl
  | step hmove _ ih =>
    cases hother with
    | step hmove' hother =>
      obtain ⟨rfl, rfl⟩ := hmove.unique hmove'
      exact ih hother

theorem leads_append_iff {first second : List Path.Component} :
    Leads fs names (first ++ second) final ↔
      ∃ middle, Leads fs names first middle ∧ Leads fs middle second final := by
  constructor
  · intro h
    generalize hpending : first ++ second = pending at h
    induction h generalizing first with
    | here hfound =>
      obtain ⟨rfl, rfl⟩ := List.append_eq_nil_iff.mp hpending
      exact ⟨_, .here hfound, .here hfound⟩
    | @step names next final step further rest hmove hrest ih =>
      rcases List.append_eq_cons_iff.mp hpending with ⟨rfl, rfl⟩ | ⟨others, rfl, rfl⟩
      · obtain ⟨entries, hfound⟩ := hmove.exists_entries
        exact ⟨names, .here hfound, .step hmove hrest⟩
      · obtain ⟨middle, hfirst, hsecond⟩ := ih (List.append_assoc ..)
        exact ⟨middle, .step hmove hfirst, hsecond⟩
  · rintro ⟨middle, hfirst, hsecond⟩
    induction hfirst with
    | here => exact hsecond
    | step hmove _ ih =>
      refine .step hmove ?_
      rw [List.append_eq, ← List.append_assoc]
      exact ih hsecond

/-- A step that is a name goes through an entry of the directory. -/
theorem exists_child_of_leads {name : EntryName}
    (h : Leads fs names (.normal name :: pending) final) :
    ∃ entries child, fs.root.find? names = some (.directory entries) ∧
      entries.lookup name = some child := by
  cases h with
  | step hmove _ =>
    cases hmove with
    | stay _ hstep => simp at hstep
    | entry hfound hentry | link hfound hentry => exact ⟨_, _, hfound, hentry⟩

/-! ## Walks -/

theorem leads_of_walk {manner : Manner} (hmanner : manner ≠ .itself) {links : Nat} {node : Node}
    (h : fs.walk manner links names pending = .ok ⟨final, some node⟩) :
    Leads fs names pending final := by
  fun_induction FileSystem.walk fs manner links names pending with
  | case1 links names =>
    obtain ⟨rfl, hfound⟩ := Place.mk.inj (Except.ok.inj h)
    exact .here hfound
  | case3 links names rest entries hfound hbarrier ih =>
    exact .step (.stay hfound (.inl rfl)) (ih h)
  | case4 links names rest entries hfound hbarrier ih =>
    exact .step (.stay hfound (.inr rfl)) (ih h)
  | case5 links names rest entries hfound hbarrier ih => exact .step (.up hfound) (ih h)
  | case9 links names rest entries hfound name target hentry hrest => simp [hmanner] at hrest
  | case12 names rest entries hfound name target hentry hrest links htarget hbarrier ih =>
    exact .step (.link hfound hentry (by simpa using htarget)) (ih h)
  | case13 links names rest entries hfound name node hlink hentry hbarrier ih =>
    exact .step (.entry hfound hentry fun target heq => hlink target heq) (ih h)
  | _ => cases h

/-- Why a walk may not come to where its steps lead: there are too many links on the way, or a step
from some directory is refused. -/
def Obstacle (fs : FileSystem) (manner : Manner) (errno : Errno) : Prop :=
  errno = .tooManyLinks ∨ ∃ names entries step,
    fs.root.find? names = some (.directory entries) ∧ fs.barrier? manner names step = some errno

/-- A walk along steps that lead somewhere gets there, unless there is an obstacle. -/
theorem walk_of_leads {manner : Manner} (hmanner : manner ≠ .itself)
    (h : Leads fs names pending final) (links : Nat) :
    (∃ node, fs.walk manner links names pending = .ok ⟨final, some node⟩) ∨
      ∃ errno, fs.walk manner links names pending = .error errno ∧ Obstacle fs manner errno := by
  induction h generalizing links with
  | here hfound =>
    rw [FileSystem.walk, hfound]
    exact .inl ⟨_, rfl⟩
  | @step names next final step further rest hmove _ ih =>
    obtain ⟨entries, hfound⟩ := hmove.exists_entries
    cases hbarrier : fs.barrier? manner names step with
    | some errno =>
      exact .inr ⟨errno, walk_refused hfound hbarrier, .inr ⟨names, entries, step, hfound, hbarrier⟩⟩
    | none =>
      cases hmove with
      | stay _ hstep =>
        rw [walk_stay hfound hstep hbarrier]
        exact ih links
      | up =>
        rw [walk_up hfound hbarrier]
        exact ih links
      | entry hfound hentry hlink =>
        rw [walk_entry hfound hbarrier hentry hlink]
        exact ih links
      | link hfound hentry htarget =>
        rw [walk_link hfound hbarrier hmanner hentry htarget]
        cases links with
        | zero => exact .inr ⟨_, rfl, .inl rfl⟩
        | succ links => exact ih links

/-! ## Paths -/

/-- The path leads to an existing place, links followed. -/
def PathLeads (fs : FileSystem) (path : Path) (final : List EntryName) : Prop :=
  path.isEmpty = false ∧ Leads fs (origin fs.workingDirectory path.bytes) (steps path.bytes) final

variable {path : Path}

theorem PathLeads.unique {other : List EntryName} (h : PathLeads fs path final)
    (hother : PathLeads fs path other) : final = other :=
  h.2.unique hother.2

theorem pathLeads_of_lookup {manner : Manner} (hmanner : manner ≠ .itself) {node : Node}
    (h : fs.lookup path manner = .ok (final, node)) : PathLeads fs path final := by
  obtain ⟨hempty, -, hwalk⟩ := place_eq_ok_iff.mp (lookup_eq_ok_iff.mp h)
  exact ⟨hempty, leads_of_walk hmanner hwalk⟩

/-- **A path that leads somewhere is found there, unless it is refused**, as too long or for an
obstacle on the way. -/
theorem lookup_of_pathLeads {manner : Manner} (hmanner : manner ≠ .itself)
    (h : PathLeads fs path final) :
    (∃ node, fs.lookup path manner = .ok (final, node)) ∨
      ∃ errno, fs.lookup path manner = .error errno ∧
        (pathLimit ≤ path.bytes.length ∨ Obstacle fs manner errno) := by
  by_cases hlength : pathLimit ≤ path.bytes.length
  · simp [lookup, place, h.1, hlength]
  · obtain ⟨node, hwalk⟩ | ⟨errno, hwalk, hobstacle⟩ := walk_of_leads hmanner h.2 linkLimit
    · simp [lookup, place, h.1, hlength, hwalk]
    · simp [lookup, place, h.1, hlength, hwalk, hobstacle]

/-- The step that a part between slashes stands for, if it says anything. -/
def step? (part : List UInt8) : Option Path.Component :=
  if part = [] then none
  else if part = [0x2E] then some .current
  else if part = [0x2E, 0x2E] then some .parent
  else some (.normal part)

theorem steps_eq (bytes : List UInt8) :
    steps bytes = (bytes.splitOn Path.slash).filterMap step? ++
      if (bytes.splitOn Path.slash).getLast? = some [] then [.root] else [] := by
  have hsteps : steps bytes =
      if (bytes.splitOn Path.slash).getLast? == some [] then
        (bytes.splitOn Path.slash).filterMap step? ++ [.root]
      else (bytes.splitOn Path.slash).filterMap step? := rfl
  rw [hsteps]
  by_cases hlast : (bytes.splitOn Path.slash).getLast? = some [] <;> simp [hlast]

/-- The steps of a path to which a name is joined.  The step that a slash at the end stands for is
not one of them. -/
theorem exists_steps_join {name : EntryName} (hpath : path.isEmpty = false)
    (hname : Path.IsName name) :
    ∃ before, steps (path.join ⟨name⟩).bytes = before ++ [.normal name] ∧
      (steps path.bytes = before ∨ steps path.bytes = before ++ [.root]) := by
  obtain ⟨parts, -, hjoined, hparts⟩ := Path.exists_splitOn_join hpath hname
  have hstep : step? name = some (.normal name) := by
    simp [step?, hname.ne_nil, hname.ne_dot, hname.ne_dots]
  have hnil : step? [] = none := rfl
  refine ⟨parts.filterMap step?, ?_, ?_⟩
  · rw [steps_eq, hjoined]
    simp [hstep, hname.ne_nil]
  · have hnamed : (path.bytes.splitOn Path.slash).filterMap step? = parts.filterMap step? := by
      rcases hparts with heq | heq <;> simp [heq, hnil]
    rw [steps_eq, hnamed]
    split
    · exact .inr rfl
    · exact .inl (List.append_nil _)

theorem origin_join {name : EntryName} (directory : List EntryName) (hpath : path.isEmpty = false)
    (hname : Path.IsName name) :
    origin directory (path.join ⟨name⟩).bytes = origin directory path.bytes := by
  unfold origin
  rw [Path.head?_join hpath hname]

/-- **Where an entry leads depends on the directory that it is in alone.** -/
theorem PathLeads.join_iff {name : EntryName} (h : PathLeads fs path names)
    (hname : Path.IsName name) :
    PathLeads fs (path.join ⟨name⟩) final ↔ Leads fs names [.normal name] final := by
  obtain ⟨hpath, hleads⟩ := h
  obtain ⟨before, hjoined, hsteps⟩ := exists_steps_join hpath hname
  have hbefore : Leads fs (origin fs.workingDirectory path.bytes) before names := by
    rcases hsteps with heq | heq
    · rwa [heq] at hleads
    · rw [heq, leads_append_iff] at hleads
      obtain ⟨middle, hbefore, hstay⟩ := hleads
      cases hstay with
      | step hmove hrest =>
        cases hmove
        cases hrest
        exact hbefore
  rw [PathLeads, Path.isEmpty_join hpath hname, origin_join _ hpath hname, hjoined,
    leads_append_iff]
  constructor
  · rintro ⟨-, middle, hmiddle, hfinal⟩
    rwa [← hmiddle.unique hbefore]
  · intro hfinal
    exact ⟨rfl, names, hbefore, hfinal⟩

/-! ## Places that are no links -/

theorem isDirectory_of_child? {node child : Node} {name : EntryName}
    (h : node.child? name = some child) : ∃ entries, node = .directory entries := by
  cases node with
  | directory entries => exact ⟨entries, rfl⟩
  | _ => cases h

/-- The first of several names is that of an entry. -/
theorem find?_cons_eq_some_iff {node found : Node} {name : EntryName} :
    node.find? (name :: names) = some found ↔ ∃ entries child, node = .directory entries ∧
      entries.lookup name = some child ∧ child.find? names = some found := by
  rw [Node.find?, Option.bind_eq_some_iff]
  constructor
  · rintro ⟨child, hchild, hfound⟩
    obtain ⟨entries, rfl⟩ := isDirectory_of_child? hchild
    exact ⟨entries, child, rfl, hchild, hfound⟩
  · rintro ⟨entries, child, rfl, hchild, hfound⟩
    exact ⟨child, hchild, hfound⟩

/-- What is above a place is a directory. -/
theorem exists_entries_of_find?_append {first second : List EntryName} {tree node : Node}
    (h : tree.find? (first ++ second) = some node) (hsecond : second ≠ []) :
    ∃ entries, tree.find? first = some (.directory entries) := by
  obtain ⟨name, rest, rfl⟩ := List.exists_cons_of_ne_nil hsecond
  rw [Node.find?_append, Option.bind_eq_some_iff] at h
  obtain ⟨found, hfound, h⟩ := h
  obtain ⟨entries, -, rfl, -⟩ := find?_cons_eq_some_iff.mp h
  exact ⟨entries, hfound⟩

theorem exists_entries_of_prefix {first names : List EntryName} {entries : List (EntryName × Node)}
    (hpre : first <+: names) (hfound : fs.root.find? names = some (.directory entries)) :
    ∃ above, fs.root.find? first = some (.directory above) := by
  obtain ⟨rest, rfl⟩ := hpre
  cases rest with
  | nil =>
    rw [List.append_nil] at hfound
    exact ⟨entries, hfound⟩
  | cons name rest => exact exists_entries_of_find?_append hfound (List.cons_ne_nil name rest)

/-- A path that names are joined to leads where they lead in the tree. -/
theorem PathLeads.below {start below : List EntryName} (h : PathLeads fs path start)
    (hnames : ∀ name ∈ below, Path.IsName name) {node : Node}
    (hfound : fs.root.find? (start ++ below) = some node) (hnode : ∀ target, node ≠ .link target) :
    PathLeads fs (path.below below) (start ++ below) := by
  induction below using List.reverseRecOn generalizing node with
  | nil => simpa using h
  | append_singleton below name ih =>
    rw [List.forall_mem_append, List.forall_mem_singleton] at hnames
    rw [← List.append_assoc] at hfound ⊢
    obtain ⟨entries, hdirectory⟩ := exists_entries_of_find?_append hfound (List.cons_ne_nil name [])
    have hbelow := ih hnames.1 hdirectory (by simp)
    have hentry : entries.lookup name = some node := by rw [← find?_concat name hdirectory, hfound]
    rw [Path.below_concat]
    exact (hbelow.join_iff hnames.2).mpr (.step (.entry hdirectory hentry hnode) (.here hfound))

/-- No move ends at a link. -/
theorem Move.not_link {step : Path.Component} {next : List EntryName}
    {further : List Path.Component} (h : Move fs names step next further) (target : List UInt8) :
    fs.root.find? next ≠ some (.link target) := by
  have habove : ∀ {place : List EntryName}, place <+: names →
      fs.root.find? place ≠ some (.link target) := by
    intro place hpre
    obtain ⟨entries, hfound⟩ := h.exists_entries
    obtain ⟨above, hplace⟩ := exists_entries_of_prefix hpre hfound
    rw [hplace]
    simp
  cases h with
  | stay => exact habove List.prefix_rfl
  | up => exact habove (List.dropLast_prefix names)
  | entry hfound hentry hlink =>
    rw [find?_concat _ hfound, hentry]
    exact fun heq => hlink target (Option.some.inj heq)
  | link =>
    unfold origin
    split
    · exact habove List.nil_prefix
    · exact habove List.prefix_rfl

theorem Leads.not_link (h : Leads fs names pending final) (hpending : pending ≠ [])
    (target : List UInt8) : fs.root.find? final ≠ some (.link target) := by
  induction h with
  | here => exact absurd rfl hpending
  | @step names next final step further rest hmove hrest ih =>
    by_cases hfurther : further ++ rest = []
    · rw [hfurther] at hrest
      cases hrest
      exact hmove.not_link target
    · exact ih hfurther

theorem steps_ne_nil (bytes : List UInt8) : steps bytes ≠ [] := by
  have hne : bytes.splitOn Path.slash ≠ [] := List.splitOn_ne_nil _ _
  rw [steps_eq]
  cases hlast : (bytes.splitOn Path.slash).getLast hne with
  | nil => simp [List.getLast?_eq_some_getLast hne, hlast]
  | cons byte rest =>
    -- the last part says something
    have hmem : byte :: rest ∈ bytes.splitOn Path.slash := hlast ▸ List.getLast_mem hne
    obtain ⟨step, hstep⟩ : ∃ step, step? (byte :: rest) = some step := by
      unfold step?
      rw [if_neg (List.cons_ne_nil byte rest)]
      split_ifs <;> exact ⟨_, rfl⟩
    intro hnil
    have hstepMem := List.mem_filterMap.mpr ⟨_, hmem, hstep⟩
    rw [(List.append_eq_nil_iff.mp hnil).1] at hstepMem
    cases hstepMem

/-- Links are followed to their end. -/
theorem not_link_of_lookup {node : Node} (h : fs.lookup path = .ok (final, node))
    (target : List UInt8) : fs.root.find? final ≠ some (.link target) := by
  obtain ⟨-, hleads⟩ := pathLeads_of_lookup (by decide) h
  exact hleads.not_link (steps_ne_nil _) target

end FormsAudit.FileSystem
