import FormsAudit.FileSystem.Basic

/-!
# Where paths lead

The place that a walk ends at is the place of its names: the node there, if any, is what the names
lead to in the tree, no links followed (`find?_of_lookup`).
-/

namespace FormsAudit.FileSystem

variable {fs : FileSystem} {manner : Manner} {links : Nat} {names : List EntryName}
  {pending : List Path.Component}

/-! ## Steps -/

section Steps

variable {rest : List Path.Component} {entries : List (EntryName × Node)}
  (hfound : fs.root.find? names = some (.directory entries))

include hfound

/-- A step that is refused ends the walk. -/
theorem walk_refused {step : Path.Component} {errno : Errno}
    (hbarrier : fs.barrier? manner names step = some errno) :
    fs.walk manner links names (step :: rest) = .error errno := by
  rw [FileSystem.walk]
  simp only [hfound, hbarrier]

/-- A step that stays where it is. -/
theorem walk_stay {step : Path.Component} (hstep : step = .root ∨ step = .current)
    (hbarrier : fs.barrier? manner names step = none) :
    fs.walk manner links names (step :: rest) = fs.walk manner links names rest := by
  rw [FileSystem.walk]
  simp only [hfound, hbarrier]
  rcases hstep with rfl | rfl <;> rfl

theorem walk_up (hbarrier : fs.barrier? manner names .parent = none) :
    fs.walk manner links names (.parent :: rest) = fs.walk manner links names.dropLast rest := by
  rw [FileSystem.walk]
  simp only [hfound, hbarrier]

/-- The step from a directory to the entry of a name. -/
theorem walk_normal {name : EntryName}
    (hbarrier : fs.barrier? manner names (.normal name) = none) :
    fs.walk manner links names (.normal name :: rest) =
      match entries.lookup name with
      | none =>
        if nameLimit < name.length then .error .nameTooLong
        else if rest.isEmpty then .ok ⟨names ++ [name], none⟩
        else .error .noEntry
      | some (.link target) =>
        if rest.isEmpty && manner == .itself then .ok ⟨names ++ [name], some (.link target)⟩
        else
          match links with
          | 0 => .error .tooManyLinks
          | links + 1 =>
            if target.isEmpty then .error .noEntry
            else fs.walk manner links (origin names target) (steps target ++ rest)
      | some _ => fs.walk manner links (names ++ [name]) rest := by
  have hwalk := FileSystem.walk.eq_def fs manner links names (.normal name :: rest)
  simp only [hfound, hbarrier] at hwalk
  exact hwalk

section Entry

variable {name : EntryName} (hbarrier : fs.barrier? manner names (.normal name) = none)

include hbarrier

/-- The step to an entry that is no link. -/
theorem walk_entry {child : Node} (hentry : entries.lookup name = some child)
    (hchild : ∀ target, child ≠ .link target) :
    fs.walk manner links names (.normal name :: rest) =
      fs.walk manner links (names ++ [name]) rest := by
  rw [walk_normal hfound hbarrier, hentry]
  cases child with
  | link target => exact absurd rfl (hchild target)
  | _ => rfl

/-- The step to a name that the directory does not have. -/
theorem walk_absent (hentry : entries.lookup name = none) :
    fs.walk manner links names (.normal name :: rest) =
      if nameLimit < name.length then .error .nameTooLong
      else if rest.isEmpty then .ok ⟨names ++ [name], none⟩
      else .error .noEntry := by
  rw [walk_normal hfound hbarrier, hentry]

/-- The step to an entry that is a link. -/
theorem walk_at_link {target : List UInt8} (hentry : entries.lookup name = some (.link target)) :
    fs.walk manner links names (.normal name :: rest) =
      if rest.isEmpty && manner == .itself then .ok ⟨names ++ [name], some (.link target)⟩
      else
        match links with
        | 0 => .error .tooManyLinks
        | links + 1 =>
          if target.isEmpty then .error .noEntry
          else fs.walk manner links (origin names target) (steps target ++ rest) := by
  rw [walk_normal hfound hbarrier, hentry]

/-- The same step when links are followed. -/
theorem walk_link {target : List UInt8} (hmanner : manner ≠ .itself)
    (hentry : entries.lookup name = some (.link target)) (htarget : target ≠ []) :
    fs.walk manner links names (.normal name :: rest) =
      match links with
      | 0 => .error .tooManyLinks
      | links + 1 => fs.walk manner links (origin names target) (steps target ++ rest) := by
  rw [walk_at_link hfound hbarrier hentry, if_neg (by simp [hmanner])]
  cases links with
  | zero => rfl
  | succ links => exact if_neg (by simpa using htarget)

end Entry

end Steps

theorem find?_concat {node : Node} {entries : List (EntryName × Node)} (name : EntryName)
    (hfound : node.find? names = some (.directory entries)) :
    node.find? (names ++ [name]) = entries.lookup name := by
  rw [Node.find?_append, hfound, Option.bind_some, Node.find?, Node.child?, Node.entries]
  cases entries.lookup name <;> rfl

/-! ## Places -/

/-- The place at which a walk ends is that of its names. -/
theorem find?_of_walk {place : Place} (h : fs.walk manner links names pending = .ok place) :
    fs.root.find? place.names = place.node := by
  fun_induction FileSystem.walk fs manner links names pending with
  | case1 => exact Except.ok.inj h ▸ rfl
  | case3 _ _ _ _ _ _ ih | case4 _ _ _ _ _ _ ih | case5 _ _ _ _ _ _ ih => exact ih h
  | case7 links names rest entries hfound name hentry =>
    obtain rfl := Except.ok.inj h
    rw [find?_concat name hfound, hentry]
  | case9 links names rest entries hfound name target hentry =>
    obtain rfl := Except.ok.inj h
    rw [find?_concat name hfound, hentry]
  | case12 names rest entries hfound name target hentry hrest links htarget hbarrier ih => exact ih h
  | case13 links names rest entries hfound name node hlink hentry hbarrier ih => exact ih h
  | _ => cases h

theorem place_eq_ok_iff {path : Path} {place : Place} :
    fs.place path manner = .ok place ↔ path.isEmpty = false ∧ path.bytes.length < pathLimit ∧
      fs.walk manner linkLimit (origin fs.workingDirectory path.bytes) (steps path.bytes) =
        .ok place := by
  unfold FileSystem.place
  by_cases hempty : path.isEmpty = true
  · simp [hempty]
  · by_cases hlength : pathLimit ≤ path.bytes.length
    · simp [hempty, hlength, Nat.not_lt.mpr hlength]
    · simp [hempty, hlength, Nat.lt_of_not_le hlength]

theorem lookup_eq_ok_iff {path : Path} {node : Node} :
    fs.lookup path manner = .ok (names, node) ↔ fs.place path manner = .ok ⟨names, some node⟩ := by
  unfold lookup
  split
  · rename_i hplace
    simp [hplace]
  · rename_i hplace
    simp [hplace]
  · rename_i hplace
    simp [hplace]

/-- **What a path leads to stands at the names that it leads to.** -/
theorem find?_of_lookup {path : Path} {node : Node}
    (h : fs.lookup path manner = .ok (names, node)) :
    fs.root.find? names = some node := by
  obtain ⟨-, -, hwalk⟩ := place_eq_ok_iff.mp (lookup_eq_ok_iff.mp h)
  exact find?_of_walk hwalk

/-- What stands below a path stands below the node there. -/
theorem find?_append_of_lookup {path : Path} {node : Node}
    (h : fs.lookup path manner = .ok (names, node)) (below : List EntryName) :
    fs.root.find? (names ++ below) = node.find? below := by
  rw [Node.find?_append, find?_of_lookup h, Option.bind_some]

theorem isEmpty_of_lookup {path : Path} {node : Node}
    (h : fs.lookup path manner = .ok (names, node)) : path.isEmpty = false :=
  (place_eq_ok_iff.mp (lookup_eq_ok_iff.mp h)).1

theorem length_lt_of_lookup {path : Path} {node : Node}
    (h : fs.lookup path manner = .ok (names, node)) : path.bytes.length < pathLimit :=
  (place_eq_ok_iff.mp (lookup_eq_ok_iff.mp h)).2.1

end FormsAudit.FileSystem
