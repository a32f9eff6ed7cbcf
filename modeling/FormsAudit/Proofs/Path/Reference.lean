import FormsAudit.Proofs.Path.Order
import FormsAudit.Proofs.Text.Encoded

/-!
# What a file below the root is called

A path to which names lead from the root is reported under these names, joined by slashes
(`relativeTo_below`).  A name has no slash, so where the names are text the reference tells which
they are (`reference_injective`).  The extension of the file is what stands after the last dot of the
last name, if something stands before that dot (`extensionOfName?_eq_some_iff`).
-/

namespace FormsAudit.Path

variable {path root : Path} {name : EntryName} {names : List EntryName}

/-! ## Lengths -/

theorem length_add_le_join (hname : IsName name) :
    path.bytes.length + name.length ≤ (path.join ⟨name⟩).bytes.length := by
  simp only [join, hname.not_isAbsolute, Bool.false_or]
  split
  · rename_i hempty
    rw [List.isEmpty_iff.mp hempty]
    simp
  · split <;> simp

/-! ## References -/

/-- Names as they are reported, joined by slashes. -/
def reference (names : List String) : String :=
  "/".intercalate names

theorem relativeTo_below (hroot : root.isEmpty = false) (hnames : ∀ name ∈ names, IsName name) :
    (root.below names).relativeTo root =
      reference (names.map fun name => String.ofList (Utf8.decodeLossy name)) := by
  have hnamed : (names.map Component.normal).filterMap Component.name? = names := by
    rw [List.filterMap_map]
    exact List.filterMap_some
  unfold relativeTo reference
  dsimp only
  rw [components_below hroot hnames, stripComponents?_append, Option.getD_some, hnamed]

/-- A name that is text has no slash. -/
theorem slash_notMem_of_isName {text : List Char} (h : IsName (Utf8.encode text)) :
    '/' ∉ text := by
  have hslash : Utf8.plainByte '/' = slash := by decide
  rw [← Utf8.plainByte_mem_encode_iff (by decide), hslash]
  exact h.slash_notMem

/-- **The reference tells the names**, if these are text without slashes. -/
theorem reference_injective {first second : List String} (hfirst : first ≠ [])
    (hsecond : second ≠ []) (hslash : ∀ name ∈ first, '/' ∉ name.toList)
    (hslash' : ∀ name ∈ second, '/' ∉ name.toList) (h : reference first = reference second) :
    first = second := by
  have hsplit : ∀ names : List String, names ≠ [] → (∀ name ∈ names, '/' ∉ name.toList) →
      (reference names).toList.splitOn '/' = names.map String.toList := by
    intro names hnil hnames
    have htext : (reference names).toList = ['/'].intercalate (names.map String.toList) :=
      String.toList_intercalate
    rw [htext]
    exact List.splitOn_intercalate '/' (by simpa using hnames) (by simpa using hnil)
  have hlists : first.map String.toList = second.map String.toList := by
    rw [← hsplit first hfirst hslash, ← hsplit second hsecond hslash', h]
  exact List.map_injective_iff.mpr (fun _ _ => String.toList_inj.mp) hlists

/-! ## Extensions -/

theorem fileName?_below (hroot : root.isEmpty = false) (hnames : ∀ name ∈ names, IsName name) :
    (root.below names).fileName? = (names.getLast?).or root.fileName? := by
  rw [fileName?, components_below hroot hnames, List.getLast?_append, List.getLast?_map]
  cases names.getLast? <;> rfl

theorem extension?_below (hroot : root.isEmpty = false) (hnames : ∀ name ∈ names, IsName name)
    (hname : names.getLast? = some name) :
    (root.below names).extension? = extensionOfName? name := by
  rw [extension?, fileName?_below hroot hnames, hname]
  rfl

/-- The extension of a file is that of its name, in whatever directory it is. -/
theorem extension?_join (hname : IsName name) :
    (path.join ⟨name⟩).extension? = extensionOfName? name := by
  cases hpath : path.isEmpty with
  | false =>
    have hnames : ∀ other ∈ [name], IsName other := List.forall_mem_singleton.mpr hname
    exact extension?_below hpath hnames rfl
  | true =>
    have hcomponents : (Path.mk name).components = [.normal name] := by
      simp [components, hname.not_isAbsolute, hname.splitOn, hname.component?, hname.ne_dot]
    rw [join, hpath, Bool.or_true, if_pos rfl, extension?, fileName?, hcomponents]
    rfl

theorem extensionOfName?_of_notMem (h : 0x2E ∉ name) : extensionOfName? name = none := by
  have hall : name.reverse.takeWhile (· != 0x2E) = name.reverse := by
    rw [List.takeWhile_eq_self_iff]
    intro byte hbyte
    rw [bne_iff_ne]
    rintro rfl
    exact h (List.mem_reverse.mp hbyte)
  simp [extensionOfName?, hall]

theorem extensionOfName?_append {stem extension : List UInt8} (h : 0x2E ∉ extension) :
    extensionOfName? (stem ++ 0x2E :: extension) =
      if stem = [] then none else some extension := by
  have hreverse : (stem ++ 0x2E :: extension).reverse =
      extension.reverse ++ 0x2E :: stem.reverse := by
    simp
  have hending : (stem ++ 0x2E :: extension).reverse.takeWhile (· != 0x2E) =
      extension.reverse := by
    rw [hreverse, List.takeWhile_append_of_pos]
    · simp
    · intro byte hbyte
      rw [bne_iff_ne]
      rintro rfl
      exact h (List.mem_reverse.mp hbyte)
  have hlength : (stem ++ 0x2E :: extension).length - extension.length = stem.length + 1 := by
    simp only [List.length_append, List.length_cons]
    omega
  simp only [extensionOfName?, hending, List.reverse_reverse, hlength]
  cases stem <;> simp

/-- **The extension is what stands after the last dot**, if something stands before this. -/
theorem extensionOfName?_eq_some_iff {extension : List UInt8} :
    extensionOfName? name = some extension ↔
      ∃ stem, stem ≠ [] ∧ 0x2E ∉ extension ∧ name = stem ++ 0x2E :: extension := by
  constructor
  · intro h
    have hdot : 0x2E ∈ name.reverse := by
      by_contra hnone
      rw [extensionOfName?_of_notMem (fun hmem => hnone (List.mem_reverse.mpr hmem))] at h
      cases h
    obtain ⟨ending, before, hreverse, hending⟩ := List.eq_append_cons_of_mem hdot
    obtain rfl : name = before.reverse ++ 0x2E :: ending.reverse := by
      simpa using congrArg List.reverse hreverse
    have hlast : 0x2E ∉ ending.reverse := fun hmem => hending (List.mem_reverse.mp hmem)
    rw [extensionOfName?_append hlast, Option.ite_none_left_eq_some, Option.some.injEq] at h
    obtain ⟨hstem, rfl⟩ := h
    exact ⟨before.reverse, hstem, hlast, rfl⟩
  · rintro ⟨stem, hstem, hdot, rfl⟩
    rw [extensionOfName?_append hdot, if_neg hstem]

end FormsAudit.Path
