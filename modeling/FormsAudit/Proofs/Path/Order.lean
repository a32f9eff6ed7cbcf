import FormsAudit.FileReference
import FormsAudit.FileSystem.Node
import Mathlib.Data.List.Basic
import Mathlib.Data.List.Induction

/-!
# Paths below a directory, and their order

A path that names are joined to one by one has these names as its last components
(`components_below`), so two such paths are equal when their components are
(`IsBelow.eq_of_components_eq`).  The order of paths compares their components and nothing else.
Among the paths below one directory it is therefore the order that a sort needs: a sort of them
does not depend on the order in which they come (`mergeSort_eq_of_perm`) nor on what else is sorted
with them (`mergeSort_filter`, `sublist_mergeSort_cmp`).
-/

namespace FormsAudit.Path

/-! ## Joining names -/

/-- A name that an entry of a directory can have. -/
structure IsName (name : EntryName) : Prop where
  ne_nil : name ≠ []
  slash_notMem : slash ∉ name
  ne_dot : name ≠ [0x2E]
  ne_dots : name ≠ [0x2E, 0x2E]

/-- Whether an entry of a directory can have the name. -/
def isName (name : EntryName) : Bool :=
  !name.isEmpty && !name.contains slash && name != [0x2E] && name != [0x2E, 0x2E]

theorem isName_iff {name : EntryName} : isName name = true ↔ IsName name := by
  simp only [isName, Bool.and_eq_true, Bool.not_eq_true', List.isEmpty_eq_false_iff,
    List.contains_eq_mem, decide_eq_false_iff_not, bne_iff_ne]
  constructor
  · rintro ⟨⟨⟨hnil, hslash⟩, hdot⟩, hdots⟩
    exact ⟨hnil, hslash, hdot, hdots⟩
  · rintro ⟨hnil, hslash, hdot, hdots⟩
    exact ⟨⟨⟨hnil, hslash⟩, hdot⟩, hdots⟩

variable {path root : Path} {name : EntryName} {names others : List EntryName}

theorem IsName.not_isAbsolute (h : IsName name) : (Path.mk name).isAbsolute = false := by
  cases hname : name with
  | nil => rfl
  | cons first rest =>
    have hfirst : first ≠ slash := by
      rintro rfl
      apply h.slash_notMem
      rw [hname]
      exact List.mem_cons_self
    simpa [isAbsolute] using hfirst

theorem IsName.component? (h : IsName name) : Path.component? name = some (.normal name) := by
  simp [Path.component?, h.ne_nil, h.ne_dot, h.ne_dots]

theorem IsName.splitOn (h : IsName name) : name.splitOn slash = [name] :=
  List.splitOn_eq_singleton h.slash_notMem

theorem head?_join (hpath : path.isEmpty = false) (hname : IsName name) :
    (path.join ⟨name⟩).bytes.head? = path.bytes.head? := by
  have hne : path.bytes ≠ [] := by simpa [isEmpty] using hpath
  simp only [join, hname.not_isAbsolute, hpath, Bool.or_false, Bool.false_eq_true, if_false]
  split <;> exact List.head?_append_of_ne_nil _ hne

/-- A name that is joined is one more part between slashes, in place of the empty one after a slash
at the end. -/
theorem exists_splitOn_join (hpath : path.isEmpty = false) (hname : IsName name) :
    ∃ parts, parts ≠ [] ∧ (path.join ⟨name⟩).bytes.splitOn slash = parts ++ [name] ∧
      (path.bytes.splitOn slash = parts ∨ path.bytes.splitOn slash = parts ++ [[]]) := by
  simp only [join, hname.not_isAbsolute, hpath, Bool.or_false, Bool.false_eq_true, if_false]
  split
  · rename_i hlast
    obtain ⟨before, hbefore⟩ : ∃ before, path.bytes = before ++ [slash] :=
      ⟨_, (List.dropLast_append_getLast? _ hlast).symm⟩
    refine ⟨before.splitOn slash, List.splitOn_ne_nil _ _, ?_, .inr ?_⟩
    · rw [hbefore, List.append_assoc, List.singleton_append, List.splitOn_append_cons_self,
        hname.splitOn]
    · rw [hbefore, List.splitOn_append_cons_self, List.splitOn_nil]
  · refine ⟨path.bytes.splitOn slash, List.splitOn_ne_nil _ _, ?_, .inl rfl⟩
    rw [List.splitOn_append_cons_self, hname.splitOn]

/-- A name that is joined is one more component. -/
theorem components_join (hpath : path.isEmpty = false) (hname : IsName name) :
    (path.join ⟨name⟩).components = path.components ++ [.normal name] := by
  obtain ⟨parts, hne, hjoined, hparts⟩ := exists_splitOn_join hpath hname
  have hhead : (parts ++ [name]).head? = (path.bytes.splitOn slash).head? := by
    rw [List.head?_append_of_ne_nil _ hne]
    rcases hparts with heq | heq
    · rw [heq]
    · rw [heq, List.head?_append_of_ne_nil _ hne]
  have hnamed : (path.bytes.splitOn slash).filterMap Path.component? =
      parts.filterMap Path.component? := by
    rcases hparts with heq | heq <;> simp [heq, Path.component?]
  simp only [components, isAbsolute, head?_join hpath hname, hjoined, hhead, hnamed,
    List.filterMap_append]
  simp [hname.component?]

theorem isEmpty_join (hpath : path.isEmpty = false) (hname : IsName name) :
    (path.join ⟨name⟩).isEmpty = false := by
  simp only [join, hname.not_isAbsolute, hpath, Bool.or_false, Bool.false_eq_true, if_false]
  split <;> simp [isEmpty, hname.ne_nil]

/-- The path to which names lead from a path. -/
def below (root : Path) (names : List EntryName) : Path :=
  names.foldl (fun path name => path.join ⟨name⟩) root

@[simp] theorem below_nil (root : Path) : root.below [] = root := rfl

theorem below_concat (root : Path) (names : List EntryName) (name : EntryName) :
    root.below (names ++ [name]) = (root.below names).join ⟨name⟩ := by
  simp [below]

theorem isEmpty_below (hroot : root.isEmpty = false) (hnames : ∀ name ∈ names, IsName name) :
    (root.below names).isEmpty = false := by
  induction names using List.reverseRecOn with
  | nil => exact hroot
  | append_singleton names name ih =>
    rw [List.forall_mem_append, List.forall_mem_singleton] at hnames
    rw [below_concat]
    exact isEmpty_join (ih hnames.1) hnames.2

/-- The names that lead to a path are its last components. -/
theorem components_below (hroot : root.isEmpty = false) (hnames : ∀ name ∈ names, IsName name) :
    (root.below names).components = root.components ++ names.map .normal := by
  induction names using List.reverseRecOn with
  | nil => simp
  | append_singleton names name ih =>
    rw [List.forall_mem_append, List.forall_mem_singleton] at hnames
    rw [below_concat, components_join (isEmpty_below hroot hnames.1) hnames.2, ih hnames.1]
    simp

/-- The path is one that names of entries lead to from `root`. -/
def IsBelow (root path : Path) : Prop :=
  ∃ names : List EntryName, (∀ name ∈ names, IsName name) ∧ path = root.below names

theorem isBelow_self (root : Path) : root.IsBelow root := ⟨[], by simp, rfl⟩

theorem IsBelow.join (h : root.IsBelow path) (hname : IsName name) :
    root.IsBelow (path.join ⟨name⟩) := by
  obtain ⟨names, hnames, rfl⟩ := h
  refine ⟨names ++ [name], ?_, (below_concat root names name).symm⟩
  rw [List.forall_mem_append, List.forall_mem_singleton]
  exact ⟨hnames, hname⟩

/-- The components tell which names lead to a path. -/
theorem eq_of_components_below_eq (hroot : root.isEmpty = false)
    (hnames : ∀ name ∈ names, IsName name) (hothers : ∀ name ∈ others, IsName name)
    (h : (root.below names).components = (root.below others).components) : names = others := by
  rw [components_below hroot hnames, components_below hroot hothers,
    List.append_cancel_left_eq] at h
  have hinjective : Function.Injective Component.normal := by
    intro first second heq
    exact Component.normal.inj heq
  exact List.map_injective_iff.mpr hinjective h

/-- Of the paths below a directory no two have the same components. -/
theorem IsBelow.eq_of_components_eq {other : Path} (hroot : root.isEmpty = false)
    (h : root.IsBelow path) (hother : root.IsBelow other)
    (hcomponents : path.components = other.components) : path = other := by
  obtain ⟨names, hnames, rfl⟩ := h
  obtain ⟨names', hnames', rfl⟩ := hother
  rw [eq_of_components_below_eq hroot hnames hnames' hcomponents]

/-! ## The order of paths -/

theorem order_eq_compareLex :
    Component.order =
      compareLex (compareOn Component.rank) (compareOn fun c => c.name?.getD []) := by
  funext a b
  cases a <;> cases b <;> rfl

instance : Std.TransCmp Component.order :=
  order_eq_compareLex ▸ inferInstance

instance : Std.LawfulEqCmp Component.order where
  eq_of_compare {a b} h := by
    rw [order_eq_compareLex, compareLex_eq_eq, compareOn, compareOn,
      Std.LawfulEqCmp.compare_eq_iff_eq, Std.LawfulEqCmp.compare_eq_iff_eq] at h
    revert h
    cases a <;> cases b <;> simp [Component.rank, Component.name?]

theorem orderComponents_eq : orderComponents = List.compareLex Component.order := by
  funext first second
  induction first generalizing second with
  | nil => cases second <;> rfl
  | cons a first ih =>
    cases second with
    | nil => rfl
    | cons b second => rw [orderComponents, ih, List.compareLex_cons_cons]

instance : Std.TransCmp orderComponents :=
  orderComponents_eq ▸ inferInstance

/-- Things are compared by something of theirs that is compared. -/
theorem transCmp_comap {α β : Type} {cmp : β → β → Ordering} [Std.TransCmp cmp] (f : α → β) :
    Std.TransCmp fun a b => cmp (f a) (f b) where
  eq_swap := Std.OrientedCmp.eq_swap
  isLE_trans := Std.TransCmp.isLE_trans

instance : Std.TransCmp order :=
  transCmp_comap components

theorem order_eq_eq_iff {other : Path} :
    path.order other = .eq ↔ path.components = other.components := by
  rw [order, orderComponents_eq, Std.LawfulEqCmp.compare_eq_iff_eq]

end FormsAudit.Path

namespace FormsAudit

instance : Std.TransCmp FileReference.order :=
  have : Std.TransCmp fun a b : FileReference => a.path.order b.path :=
    Path.transCmp_comap FileReference.path
  inferInstanceAs (Std.TransCmp
    (compareLex (compareOn FileReference.relative) fun a b => a.path.order b.path))

/-! ## Sorting by an order -/

section Sorted

variable {α : Type} {cmp : α → α → Ordering} [Std.TransCmp cmp] {items first second : List α}

omit [Std.TransCmp cmp] in
theorem ne_gt_eq_isLE (a b : α) : (cmp a b != .gt) = (cmp a b).isLE := by
  cases cmp a b <;> rfl

theorem isLE_total (a b : α) : ((cmp a b).isLE || (cmp b a).isLE) = true := by
  have hswap : cmp b a = (cmp a b).swap := Std.OrientedCmp.eq_swap
  rw [hswap]
  cases cmp a b <;> rfl

/-- A sort by an order puts nothing before what is less. -/
theorem pairwise_mergeSort_cmp (items : List α) :
    (items.mergeSort fun a b => cmp a b != .gt).Pairwise fun a b => (cmp a b).isLE = true := by
  simp only [ne_gt_eq_isLE]
  exact List.pairwise_mergeSort (fun _ _ _ => Std.TransCmp.isLE_trans) isLE_total items

/-- Lists of the same items in an order that tells all of them apart are equal. -/
theorem eq_of_perm_of_pairwise (hperm : first.Perm second)
    (heq : ∀ a ∈ first, ∀ b ∈ first, cmp a b = .eq → a = b)
    (hfirst : first.Pairwise fun a b => (cmp a b).isLE = true)
    (hsecond : second.Pairwise fun a b => (cmp a b).isLE = true) : first = second := by
  refine List.Perm.eq_of_pairwise ?_ hfirst hsecond hperm
  intro a b ha hb hab hba
  exact heq a ha b (hperm.mem_iff.mpr hb) (Std.OrientedCmp.isLE_antisymm hab hba)

/-- A sort by an order that tells all the items apart does not depend on the order in which they
come. -/
theorem mergeSort_eq_of_perm (hperm : first.Perm second)
    (heq : ∀ a ∈ first, ∀ b ∈ first, cmp a b = .eq → a = b) :
    first.mergeSort (fun a b => cmp a b != .gt) = second.mergeSort (fun a b => cmp a b != .gt) := by
  have hitems : (first.mergeSort fun a b => cmp a b != .gt).Perm
      (second.mergeSort fun a b => cmp a b != .gt) := calc
    List.Perm _ first := List.mergeSort_perm first _
    List.Perm _ second := hperm
    List.Perm _ _ := (List.mergeSort_perm second _).symm
  refine eq_of_perm_of_pairwise hitems ?_ (pairwise_mergeSort_cmp first)
    (pairwise_mergeSort_cmp second)
  intro a ha b hb
  exact heq a (List.mem_mergeSort.mp ha) b (List.mem_mergeSort.mp hb)

/-- Some of the items are sorted by it as all of them are. -/
theorem mergeSort_filter (wanted : α → Bool)
    (heq : ∀ a ∈ items, ∀ b ∈ items, cmp a b = .eq → a = b) :
    (items.filter wanted).mergeSort (fun a b => cmp a b != .gt) =
      (items.mergeSort fun a b => cmp a b != .gt).filter wanted := by
  have hitems : ((items.filter wanted).mergeSort fun a b => cmp a b != .gt).Perm
      ((items.mergeSort fun a b => cmp a b != .gt).filter wanted) :=
    (List.mergeSort_perm _ _).trans ((List.mergeSort_perm items _).symm.filter wanted)
  refine eq_of_perm_of_pairwise hitems ?_ (pairwise_mergeSort_cmp _)
    ((pairwise_mergeSort_cmp items).filter wanted)
  intro a ha b hb
  have hmem : ∀ item ∈ (items.filter wanted).mergeSort (fun a b => cmp a b != .gt),
      item ∈ items := fun item hitem => List.mem_of_mem_filter (List.mem_mergeSort.mp hitem)
  exact heq a (hmem a ha) b (hmem b hb)

/-- Among more items, some are sorted as they are alone. -/
theorem sublist_mergeSort_cmp (hsublist : first.Sublist items)
    (heq : ∀ a ∈ items, ∀ b ∈ items, cmp a b = .eq → a = b) :
    (first.mergeSort fun a b => cmp a b != .gt).Sublist
      (items.mergeSort fun a b => cmp a b != .gt) := by
  obtain ⟨others, hperm⟩ := hsublist.exists_perm_append
  have hsorted : items.Perm ((first.mergeSort fun a b => cmp a b != .gt) ++ others) :=
    hperm.trans ((List.mergeSort_perm first _).symm.append_right others)
  have hpairwise : (first.mergeSort fun a b => cmp a b != .gt).Pairwise
      fun a b => (cmp a b).isLE = true :=
    pairwise_mergeSort_cmp first
  rw [mergeSort_eq_of_perm hsorted heq]
  simp only [ne_gt_eq_isLE] at hpairwise ⊢
  exact List.sublist_mergeSort (fun _ _ _ => Std.TransCmp.isLE_trans) isLE_total hpairwise
    (List.sublist_append_left _ _)

end Sorted

end FormsAudit
