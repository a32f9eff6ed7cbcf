import FormsAudit.Proofs.FileSystem.Written
import FormsAudit.Proofs.Text.SplitOn

/-!
# A tree with a file written

The written tree is a proper tree again (`FileSystem.proper_of_writeFile`).  A name that is new to a
directory comes from between the slashes of a path, by which it is a name (`isName_of_walk`).

A path that leads to another place is read as before (`FiledAt.read_eq`) and has a real path as
before (`FiledAt.realFault?_eq`), and one that leads nowhere still does (`FiledAt.exists_eq`), though
the reason may be another.
-/

namespace FormsAudit

namespace Node

variable {node child inner : Node} {entries : List (EntryName × Node)} {name : EntryName}
  {names start below : List EntryName}

/-- An update at names that go on changes nothing or the child that the first name leads to. -/
theorem update_cons_cases (node : Node) (name : EntryName) {rest : List EntryName}
    (hrest : rest ≠ []) (replacement : Option Node) :
    node.update (name :: rest) replacement = node ∨
      ∃ entries child, node = directory entries ∧ entries.lookup name = some child ∧
        node.update (name :: rest) replacement =
          directory (setEntry entries name (some (child.update rest replacement))) := by
  cases hchild : node.child? name with
  | some child =>
    obtain ⟨entries, rfl⟩ := FileSystem.isDirectory_of_child? hchild
    exact .inr ⟨entries, child, rfl, hchild, update_cons hrest hchild replacement⟩
  | none =>
    obtain ⟨second, rest, rfl⟩ := List.exists_cons_of_ne_nil hrest
    left
    simp only [update, hchild]

/-! ## Proper trees -/

theorem map_fst_setEntry (entries : List (EntryName × Node)) (name : EntryName) (child : Node) :
    (setEntry entries name (some child)).map Prod.fst =
      if entries.any (·.1 == name) then entries.map Prod.fst
      else entries.map Prod.fst ++ [name] := by
  simp only [setEntry]
  split
  · rw [List.map_map]
    apply List.map_congr_left
    intro entry _
    simp only [Function.comp_apply, beq_iff_eq]
    split
    · rename_i hkey
      exact hkey.symm
    · rfl
  · rw [List.map_append]
    rfl

theorem eq_or_mem_of_mem_setEntry {entry : EntryName × Node}
    (h : entry ∈ setEntry entries name (some child)) : entry = (name, child) ∨ entry ∈ entries := by
  simp only [setEntry] at h
  split at h
  · obtain ⟨old, hold, rfl⟩ := List.mem_map.mp h
    split
    · exact .inl rfl
    · exact .inr hold
  · rcases List.mem_append.mp h with h | h
    · exact .inr h
    · exact .inl (List.mem_singleton.mp h)

theorem Proper.setEntry (h : Proper (.directory entries)) (hname : Path.IsName name)
    (hchild : child.Proper) : Proper (.directory (setEntry entries name (some child))) := by
  refine .directory ?_ ?_ ?_
  · rw [map_fst_setEntry]
    split
    · exact h.nodup
    · rename_i hnone
      have hnew : name ∉ entries.map Prod.fst := by
        intro hmem
        obtain ⟨entry, hentry, rfl⟩ := List.mem_map.mp hmem
        exact hnone (List.any_eq_true.mpr ⟨entry, hentry, beq_self_eq_true _⟩)
      exact (List.perm_append_singleton name _).nodup_iff.mpr (List.nodup_cons.mpr ⟨hnew, h.nodup⟩)
  · intro entry hentry
    rcases eq_or_mem_of_mem_setEntry hentry with rfl | hentry
    · exact hname
    · exact h.isName hentry
  · intro entry hentry
    rcases eq_or_mem_of_mem_setEntry hentry with rfl | hentry
    · exact hchild
    · exact h.child hentry

/-- The names that lead somewhere in a proper tree are names. -/
theorem Proper.isName_of_find? (h : node.Proper) {found : Node}
    (hfound : node.find? names = some found) : ∀ name ∈ names, Path.IsName name := by
  induction names generalizing node with
  | nil => simp
  | cons name names ih =>
    obtain ⟨entries, child, rfl, hchild, hfound⟩ := FileSystem.find?_cons_eq_some_iff.mp hfound
    have hentry := (lookup_eq_some_iff h.nodup).mp hchild
    rw [List.forall_mem_cons]
    exact ⟨h.isName hentry, ih (h.child hentry) hfound⟩

theorem Proper.update (h : node.Proper) (hnames : ∀ name ∈ names, Path.IsName name)
    (hchild : child.Proper) : (node.update names (some child)).Proper := by
  induction names generalizing node with
  | nil => exact hchild
  | cons name rest ih =>
    rw [List.forall_mem_cons] at hnames
    by_cases hrest : rest = []
    · subst hrest
      cases node with
      | directory entries => exact h.setEntry hnames.1 hchild
      | _ => exact h
    · obtain heq | ⟨entries, inner, rfl, hentry, heq⟩ :=
        update_cons_cases node name hrest (some child)
      · rw [heq]
        exact h
      · rw [heq]
        have hinner : inner.Proper := h.child ((lookup_eq_some_iff h.nodup).mp hentry)
        exact h.setEntry hnames.1 (ih hinner hnames.2)

end Node

namespace FileSystem

variable {fs before after : FileSystem} {manner : Manner} {links : Nat} {names : List EntryName}
  {pending : List Path.Component} {path : Path}

theorem isName_of_mem_steps {bytes : List UInt8} {name : EntryName}
    (h : .normal name ∈ steps bytes) : Path.IsName name := by
  rw [steps_eq, List.mem_append] at h
  rcases h with h | h
  · obtain ⟨part, hpart, hstep⟩ := List.mem_filterMap.mp h
    unfold step? at hstep
    split_ifs at hstep with hnil hdot hdots
    · simp at hstep
    · simp at hstep
    · obtain rfl := Path.Component.normal.inj (Option.some.inj hstep)
      exact ⟨hnil, notMem_of_mem_splitOn hpart, hdot, hdots⟩
  · split_ifs at h <;> simp at h

/-- A walk through a proper tree ends at names, if it has only names to go through. -/
theorem isName_of_walk (hproper : fs.root.Proper) {place : Place}
    (hstart : pending = [] → ∃ node, fs.root.find? names = some node)
    (hpending : ∀ name, .normal name ∈ pending → Path.IsName name)
    (h : fs.walk manner links names pending = .ok place) :
    ∀ name ∈ place.names, Path.IsName name := by
  have hconcat : ∀ {names entries name}, fs.root.find? names = some (.directory entries) →
      Path.IsName name → ∀ other ∈ names ++ [name], Path.IsName other := by
    intro names entries name hfound hname
    rw [List.forall_mem_append, List.forall_mem_singleton]
    exact ⟨hproper.isName_of_find? hfound, hname⟩
  fun_induction FileSystem.walk fs manner links names pending with
  | case1 links names =>
    obtain ⟨node, hfound⟩ := hstart rfl
    exact Except.ok.inj h ▸ hproper.isName_of_find? hfound
  | case3 links names rest entries hfound hbarrier ih
  | case4 links names rest entries hfound hbarrier ih =>
    exact ih (fun _ => ⟨_, hfound⟩) (fun name hname => hpending name (List.mem_cons_of_mem _ hname)) h
  | case5 links names rest entries hfound hbarrier ih =>
    obtain ⟨above, habove⟩ := exists_entries_of_prefix (List.dropLast_prefix names) hfound
    exact ih (fun _ => ⟨_, habove⟩) (fun name hname => hpending name (List.mem_cons_of_mem _ hname)) h
  | case7 links names rest entries hfound name =>
    exact Except.ok.inj h ▸ hconcat hfound (hpending name List.mem_cons_self)
  | case9 links names rest entries hfound name =>
    exact Except.ok.inj h ▸ hconcat hfound (hpending name List.mem_cons_self)
  | case12 names rest entries hfound name target hentry hrest links htarget hbarrier ih =>
    refine ih (fun hnil => ?_) (fun other hother => ?_) h
    · exact absurd (List.append_eq_nil_iff.mp hnil).1 (steps_ne_nil target)
    · rcases List.mem_append.mp hother with hother | hother
      · exact isName_of_mem_steps hother
      · exact hpending other (List.mem_cons_of_mem _ hother)
  | case13 links names rest entries hfound name node hlink hentry hbarrier ih =>
    refine ih (fun _ => ⟨node, ?_⟩)
      (fun name hname => hpending name (List.mem_cons_of_mem _ hname)) h
    rw [find?_concat name hfound, hentry]
  | _ => cases h

/-- **A proper tree is a proper tree after a write.** -/
theorem proper_of_writeFile (hproper : before.root.Proper) {content : List UInt8}
    (h : before.writeFile path content = .ok after) : after.root.Proper := by
  obtain ⟨-, -, place, hplace, -, ⟨-, rfl⟩ | ⟨-, rfl⟩⟩ := writeFile_eq_ok_iff.mp h
  · obtain ⟨-, -, hwalk⟩ := place_eq_ok_iff.mp hplace
    have hnames : ∀ name ∈ place.names, Path.IsName name :=
      isName_of_walk hproper (fun hnil => absurd hnil (steps_ne_nil _))
        (fun _ => isName_of_mem_steps) hwalk
    exact hproper.update hnames (.file content)
  · exact hproper

/-! ## What is read -/

variable {target final : List EntryName} {content : List UInt8}

/-- Steps that lead to another place lead there in both trees, or are refused in both. -/
theorem FiledAt.walk_of_leads (h : FiledAt target content before after) (hmanner : manner ≠ .itself)
    (hleads : Leads before names pending final) (hne : final ≠ target) (links : Nat) :
    (∃ errno, before.walk manner links names pending = .error errno ∧
        after.walk manner links names pending = .error errno) ∨
      ∃ node other, before.walk manner links names pending = .ok ⟨final, some node⟩ ∧
        after.walk manner links names pending = .ok ⟨final, some other⟩ ∧
        other.face = node.face := by
  have hsame := h.agree.barrier?_eq manner
  induction hleads generalizing links with
  | here hfound =>
    obtain ⟨other, hother, hface⟩ := h.agree.exists_node hne hfound
    rw [FileSystem.walk, FileSystem.walk, hfound, hother]
    exact .inr ⟨_, other, rfl, rfl, hface⟩
  | @step names next final step further rest hmove _ ih =>
    obtain ⟨entries, hfound⟩ := hmove.exists_entries
    obtain ⟨others, hothers⟩ := h.exists_directory hfound
    cases hbarrier : before.barrier? manner names step with
    | some errno =>
      exact .inl ⟨errno, walk_refused hfound hbarrier,
        walk_refused hothers ((hsame _ _).trans hbarrier)⟩
    | none =>
      have hbarrier' := (hsame names step).trans hbarrier
      cases hmove with
      | stay _ hstep =>
        rw [walk_stay hfound hstep hbarrier, walk_stay hothers hstep hbarrier']
        exact ih hne links
      | up =>
        rw [walk_up hfound hbarrier, walk_up hothers hbarrier']
        exact ih hne links
      | @entry _ name child hfound' hentry hlink =>
        obtain rfl := Node.directory.inj (Option.some.inj (hfound.symm.trans hfound'))
        obtain ⟨other, hother, hlink'⟩ := h.exists_lookup hfound hothers hentry hlink
        rw [walk_entry hfound hbarrier hentry hlink, walk_entry hothers hbarrier' hother hlink']
        exact ih hne links
      | @link _ name found hfound' hentry htarget =>
        obtain rfl := Node.directory.inj (Option.some.inj (hfound.symm.trans hfound'))
        have hentry' := h.lookup_link hfound hothers hentry
        rw [walk_link hfound hbarrier hmanner hentry htarget,
          walk_link hothers hbarrier' hmanner hentry' htarget]
        cases links with
        | zero => exact .inl ⟨_, rfl, rfl⟩
        | succ links => exact ih hne links

/-- A path that leads to another place leads there in both trees, or is refused in both. -/
theorem FiledAt.lookup_of_pathLeads (h : FiledAt target content before after)
    (hmanner : manner ≠ .itself) (hleads : PathLeads before path final) (hne : final ≠ target) :
    (∃ errno, before.lookup path manner = .error errno ∧
        after.lookup path manner = .error errno) ∨
      ∃ node other, before.lookup path manner = .ok (final, node) ∧
        after.lookup path manner = .ok (final, other) ∧ other.face = node.face := by
  have hpath : ¬ path.isEmpty = true := by simp [hleads.1]
  unfold lookup FileSystem.place
  rw [h.agree.workingDirectory]
  by_cases hlength : pathLimit ≤ path.bytes.length
  · simp only [if_neg hpath, if_pos hlength]
    exact .inl ⟨_, rfl, rfl⟩
  · simp only [if_neg hpath, if_neg hlength]
    obtain ⟨errno, hfirst, hsecond⟩ | ⟨node, other, hfirst, hsecond, hface⟩ :=
      h.walk_of_leads hmanner hleads.2 hne linkLimit
    · rw [hfirst, hsecond]
      exact .inl ⟨errno, rfl, rfl⟩
    · rw [hfirst, hsecond]
      exact .inr ⟨node, other, rfl, rfl, hface⟩

/-- A path that leads to another place has a real path in both trees or in neither. -/
theorem FiledAt.realFault?_eq (h : FiledAt target content before after)
    (hleads : PathLeads before path final) (hne : final ≠ target) :
    after.realFault? path = before.realFault? path := by
  unfold realFault?
  obtain ⟨errno, hfirst, hsecond⟩ | ⟨node, other, hfirst, hsecond, -⟩ :=
    h.lookup_of_pathLeads (show Manner.real ≠ .itself by decide) hleads hne <;>
  rw [hfirst, hsecond]

/-- A path that leads to another place yields the same when it is read. -/
theorem FiledAt.read_eq (h : FiledAt target content before after)
    (hleads : PathLeads before path final) (hne : final ≠ target) :
    after.read path = before.read path := by
  unfold read
  obtain ⟨errno, hfirst, hsecond⟩ | ⟨node, other, hfirst, hsecond, hface⟩ :=
    h.lookup_of_pathLeads (show Manner.through ≠ .itself by decide) hleads hne
  · rw [hfirst, hsecond]
  · rw [hfirst, hsecond]
    simp only [accessAt_congr h.agree.refusals]
    cases node <;> cases other <;> first | rfl | (cases hface; rfl) | cases hface

theorem FiledAt.contentOf_eq (h : FiledAt target content before after)
    (hleads : PathLeads before path final) (hne : final ≠ target) :
    after.contentOf path = before.contentOf path := by
  unfold contentOf
  rw [h.read_eq hleads hne]

/-- A path that does not lead to the place leads to something in both trees or in neither. -/
theorem FiledAt.exists_eq (h : FiledAt target content before after)
    (hne : ∀ node, before.place path ≠ .ok ⟨target, node⟩) :
    after.exists path = before.exists path := by
  have halike := h.place path .through
  unfold FileSystem.exists lookup
  generalize hfirst : before.place path .through = first at halike
  generalize hsecond : after.place path .through = second at halike
  cases halike with
  | error | blocked => rfl
  | there => exact absurd hfirst (hne _)
  | @elsewhere names node other _ hface =>
    cases node <;> cases other <;> first | rfl | cases hface

/-- What can be written once can be written again. -/
theorem exists_writeFile_again (h : before.writeFile path content = .ok after)
    (other : List UInt8) : ∃ final, after.writeFile path other = .ok final := by
  obtain ⟨hempty, hnamed, place, hplace, hwriting, ⟨hnode, rfl⟩ | ⟨hpipe, rfl⟩⟩ :=
    writeFile_eq_ok_iff.mp h
  · have halike := (filedAt_replace hplace hnode content).place path .through
    rw [hplace] at halike
    have hfile : FileOrNothing (some (.file content)) := by simp [FileOrNothing]
    exact ⟨_, writeFile_eq_ok_iff.mpr
      ⟨hempty, hnamed, _, halike.eq_of_there, hwriting, .inl ⟨hfile, rfl⟩⟩⟩
  · exact ⟨_, writeFile_eq_ok_iff.mpr
      ⟨hempty, hnamed, place, hplace, hwriting, .inr ⟨hpipe, rfl⟩⟩⟩

end FileSystem

end FormsAudit
