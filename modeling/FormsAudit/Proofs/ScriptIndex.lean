import FormsAudit.FileReference
import FormsAudit.Proofs.Unicode.Lowercase
import Mathlib.Data.List.Dedup
import Mathlib.Data.List.Induction

/-!
# What an index of scripts answers

An index holds one name for each key, which is the last of the names that have the key
(`Holds`).  A name that is filed keeps it so (`Holds.insert`), and therefore the index of some names
answers for these names, in the order in which they came (`holds_ofNames`).

The index of files is that of their names, where they have any (`ofFiles_eq`).  Its answers depend on
nothing but the order among names that differ in case alone, and on a query up to its case in ASCII
(`ofFiles_answers`).
-/

namespace FormsAudit.ScriptIndex

/-- Of the names that differ from the query in case at most, `name` is the last. -/
def IsLastAlike (names : List String) (query name : String) : Prop :=
  ∃ before after, names = before ++ name :: after ∧ foldCase name = foldCase query ∧
    ∀ other ∈ after, foldCase other ≠ foldCase query

/-- The names with the key, in their order. -/
def alike (names : List String) (key : List Char) : List String :=
  names.filter fun name => foldCase name = key

@[simp] theorem alike_append (names others : List String) (key : List Char) :
    alike (names ++ others) key = alike names key ++ alike others key :=
  List.filter_append ..

variable {index : ScriptIndex} {names : List String} {name query canonical : String}

/-! ## The last name with a key -/

theorem isLastAlike_iff :
    IsLastAlike names query name ↔ (alike names (foldCase query)).getLast? = some name := by
  have hnone : ∀ after : List String, (∀ other ∈ after, foldCase other ≠ foldCase query) ↔
      alike after (foldCase query) = [] := by
    intro after
    simp [alike]
  simp only [IsLastAlike, hnone, List.getLast?_eq_some_iff]
  constructor
  · rintro ⟨before, after, rfl, hname, hafter⟩
    refine ⟨alike before (foldCase query), ?_⟩
    rw [alike] at hafter
    simp [alike, hname, hafter]
  · rintro ⟨earlier, hlast⟩
    obtain ⟨before, rest, rfl, -, hrest⟩ := List.filter_eq_append_iff.mp hlast
    obtain ⟨between, after, rfl, -, hname, hafter⟩ := List.filter_eq_cons_iff.mp hrest
    exact ⟨before ++ between, after, by simp, by simpa using hname, hafter⟩

theorem exists_isLastAlike_iff :
    (∃ name, IsLastAlike names query name) ↔ ∃ name ∈ names, foldCase name = foldCase query := by
  simp only [isLastAlike_iff, ← Option.isSome_iff_exists, List.getLast?_isSome, alike, ne_eq,
    List.filter_eq_nil_iff, decide_eq_true_eq]
  push Not
  rfl

/-! ## Filing names -/

/-- The index as the names leave it, when they are filed one after the other. -/
structure Holds (index : ScriptIndex) (names : List String) : Prop where
  keys_nodup : (index.entries.map Prod.fst).Nodup
  mem_keys_iff : ∀ key, key ∈ index.entries.map Prod.fst ↔ ∃ name ∈ names, foldCase name = key
  lookup_eq : ∀ query, index.lookup query = (alike names (foldCase query)).getLast?

theorem holds_empty : Holds empty [] :=
  ⟨List.nodup_nil, by simp [empty], fun _ => rfl⟩

theorem Holds.insert (h : Holds index names) (name : String) :
    Holds (index.insert name) (names ++ [name]) where
  keys_nodup := by
    have hothers : ((index.entries.filter (·.1 != foldCase name)).map Prod.fst).Nodup :=
      h.keys_nodup.sublist (List.filter_sublist.map _)
    refine List.nodup_cons.mpr ⟨?_, hothers⟩
    intro hmem
    obtain ⟨entry, hentry, heq⟩ := List.mem_map.mp hmem
    simp [heq] at hentry
  mem_keys_iff key := by
    have hkeys : key ∈ (index.insert name).entries.map Prod.fst ↔
        key = foldCase name ∨ key ∈ index.entries.map Prod.fst := by
      by_cases hkey : key = foldCase name <;> simp [ScriptIndex.insert, hkey]
    rw [hkeys, h.mem_keys_iff, or_comm, eq_comm]
    simp [or_and_right, exists_or]
  lookup_eq query := by
    rw [lookup_insert, h.lookup_eq]
    by_cases hkey : foldCase query = foldCase name
    · simp [alike, hkey]
    · simp [alike, hkey, Ne.symm hkey]

/-- **Each key has the last of its names.** -/
theorem holds_ofNames (names : List String) : Holds (ofNames names) names := by
  induction names using List.reverseRecOn with
  | nil => exact holds_empty
  | append_singleton names name ih =>
    rw [ofNames, List.foldl_append]
    exact ih.insert name

namespace Holds

theorem lookup_eq_some_iff (h : Holds index names) :
    index.lookup query = some name ↔ IsLastAlike names query name := by
  rw [h.lookup_eq, isLastAlike_iff]

theorem lookup_eq_none_iff (h : Holds index names) :
    index.lookup query = none ↔ ∀ name ∈ names, foldCase name ≠ foldCase query := by
  rw [Option.eq_none_iff_forall_ne_some]
  simp only [ne_eq, h.lookup_eq_some_iff, ← not_exists, exists_isLastAlike_iff]
  push Not
  rfl

theorem size_eq (h : Holds index names) : index.size = (names.map foldCase).dedup.length := by
  have hperm : (index.entries.map Prod.fst).Perm (names.map foldCase).dedup := by
    rw [List.perm_ext_iff_of_nodup h.keys_nodup (List.nodup_dedup _)]
    intro key
    rw [h.mem_keys_iff, List.mem_dedup, List.mem_map]
  rw [size, ← hperm.length_eq, List.length_map]

end Holds

/-! ## What a name resolves to -/

theorem resolve_eq_missing_iff : index.resolve query = .missing ↔ index.lookup query = none := by
  unfold resolve
  cases index.lookup query with
  | none => simp
  | some found =>
    dsimp only
    split <;> simp

theorem resolve_eq_found_iff : index.resolve query = .found ↔ index.lookup query = some query := by
  unfold resolve
  cases index.lookup query with
  | none => simp
  | some found =>
    rw [Option.some.injEq]
    dsimp only
    split <;> simp [*]

theorem resolve_eq_casingMismatch_iff :
    index.resolve query = .casingMismatch canonical ↔
      index.lookup query = some canonical ∧ canonical ≠ query := by
  unfold resolve
  cases index.lookup query with
  | none => simp
  | some found =>
    rw [Option.some.injEq]
    dsimp only
    by_cases hfound : found = query
    · rw [if_pos hfound]
      exact iff_of_false (by simp) fun h => h.2 (h.1.symm.trans hfound)
    · rw [if_neg hfound, ScriptLookup.casingMismatch.injEq]
      exact ⟨fun heq => ⟨heq, heq ▸ hfound⟩, And.left⟩

theorem resolve_eq_of_lookup_eq {first second : ScriptIndex}
    (h : first.lookup query = second.lookup query) : first.resolve query = second.resolve query := by
  unfold resolve
  rw [h]

/-! ## Files -/

theorem insertFile_eq (index : ScriptIndex) (file : FileReference) :
    (index.insertFile file).1 = (file.fileName?.toList).foldl ScriptIndex.insert index := by
  unfold insertFile
  cases file.fileName? <;> rfl

theorem insertFiles_eq (index : ScriptIndex) (files : List FileReference) :
    (index.insertFiles files).1 =
      (files.filterMap FileReference.fileName?).foldl ScriptIndex.insert index := by
  induction files generalizing index with
  | nil => rfl
  | cons file files ih =>
    rw [insertFiles]
    dsimp only
    rw [ih, insertFile_eq]
    cases hname : file.fileName? with
    | none => rw [List.filterMap_cons_none hname]; rfl
    | some name => rw [List.filterMap_cons_some hname]; rfl

/-- The index of files is that of their names. -/
theorem ofFiles_eq (files : List FileReference) :
    (ofFiles files).1 = ofNames (files.filterMap FileReference.fileName?) :=
  insertFiles_eq empty files

/-- A file without a name is passed over, and collides with nothing. -/
theorem insertFiles_append_cons {file : FileReference} (hname : file.fileName? = none)
    (index : ScriptIndex) (before after : List FileReference) :
    index.insertFiles (before ++ file :: after) = index.insertFiles (before ++ after) := by
  induction before generalizing index with
  | nil => simp [insertFiles, insertFile, hname]
  | cons first before ih => simp only [List.cons_append, insertFiles, ih]

theorem fileName?_eq_none {file : FileReference}
    (h : ∀ bytes, file.path.fileName? = some bytes → Utf8.decode? bytes = none) :
    file.fileName? = none := by
  rw [FileReference.fileName?, Option.map_eq_none_iff, Option.bind_eq_none_iff]
  exact h

/-- **What an index of scripts answers.**  It has a key for each name of a file up to its case, and
under it the last of the names with the key, which is what a query is answered with.  Files without a
name that is text leave no trace.  Only the order among names with one key matters, and not the case
of the ASCII letters of a query. -/
theorem ofFiles_answers (files : List FileReference) :
    let names := files.filterMap FileReference.fileName?
    let index := (ofFiles files).1
    ((index.entries.map Prod.fst).Nodup ∧
        (∀ key, key ∈ index.entries.map Prod.fst ↔ ∃ name ∈ names, foldCase name = key) ∧
        index.size = (names.map foldCase).dedup.length) ∧
      (∀ query,
        (∀ name, index.lookup query = some name ↔ IsLastAlike names query name) ∧
        (index.lookup query = none ↔ ∀ name ∈ names, foldCase name ≠ foldCase query) ∧
        (index.resolve query = .missing ↔ ∀ name ∈ names, foldCase name ≠ foldCase query) ∧
        (index.resolve query = .found ↔ IsLastAlike names query query) ∧
        ∀ canonical, index.resolve query = .casingMismatch canonical ↔
          IsLastAlike names query canonical ∧ canonical ≠ query) ∧
      (∀ before file after, files = before ++ file :: after →
        (∀ bytes, file.path.fileName? = some bytes → Utf8.decode? bytes = none) →
          ofFiles files = ofFiles (before ++ after)) ∧
      ofNames names = index ∧
      (∀ reordered : List FileReference,
        (∀ key, alike (reordered.filterMap FileReference.fileName?) key = alike names key) →
          ∀ query, (ofFiles reordered).1.lookup query = index.lookup query ∧
            (ofFiles reordered).1.resolve query = index.resolve query) ∧
      ∀ first second : String,
        first.toList.map Char.toLower = second.toList.map Char.toLower →
          index.lookup first = index.lookup second := by
  intro names index
  have hindex : index = ofNames names := ofFiles_eq files
  have hholds : Holds index names := hindex ▸ holds_ofNames names
  refine ⟨⟨hholds.keys_nodup, hholds.mem_keys_iff, hholds.size_eq⟩, ?answers, ?nameless, hindex.symm,
    ?reordered, ?ascii⟩
  case answers =>
    intro query
    refine ⟨fun name => hholds.lookup_eq_some_iff, hholds.lookup_eq_none_iff, ?_, ?_, ?_⟩
    · rw [resolve_eq_missing_iff, hholds.lookup_eq_none_iff]
    · rw [resolve_eq_found_iff, hholds.lookup_eq_some_iff]
    · intro canonical
      rw [resolve_eq_casingMismatch_iff, hholds.lookup_eq_some_iff]
  case nameless =>
    rintro before file after rfl hname
    exact insertFiles_append_cons (fileName?_eq_none hname) empty before after
  case reordered =>
    intro reordered hsame query
    have hother := holds_ofNames (reordered.filterMap FileReference.fileName?)
    rw [← ofFiles_eq] at hother
    have hlookup : (ofFiles reordered).1.lookup query = index.lookup query := by
      rw [hother.lookup_eq, hholds.lookup_eq, hsame]
    exact ⟨hlookup, resolve_eq_of_lookup_eq hlookup⟩
  case ascii =>
    intro first second hcase
    have hkey : foldCase first = foldCase second :=
      Unicode.lowercase_eq_of_map_toLower_eq hcase
    rw [hholds.lookup_eq, hholds.lookup_eq, hkey]

/-- The scripts at some paths below a root. -/
def scriptsAt (paths : List (List UInt8)) : List FileReference :=
  paths.map fun path => .ofPath (.ofString "/forms") ((Path.ofString "/forms").join ⟨path⟩)

/-- Two scripts whose names differ in case, one whose name is no text, and one whose name ends with a
sigma. -/
def mixedScripts : List FileReference :=
  scriptsAt ["a/Foo.bsh".toUTF8.toList, [0xFF], "foo.BSH".toUTF8.toList, "AΣ".toUTF8.toList]

theorem ofFiles_answers_mixedScripts :
    let reordered := scriptsAt
      ["AΣ".toUTF8.toList, "a/Foo.bsh".toUTF8.toList, [0xFF], "foo.BSH".toUTF8.toList]
    let index := (ofFiles mixedScripts).1
    index.size = 2 ∧ index.lookup "FOO.bsh" = some "foo.BSH" ∧
      index.resolve "aς" = .casingMismatch "AΣ" ∧
      ofFiles mixedScripts = ofFiles (scriptsAt
        ["a/Foo.bsh".toUTF8.toList, "foo.BSH".toUTF8.toList, "AΣ".toUTF8.toList]) ∧
      (ofFiles reordered).1.lookup "FOO.bsh" = index.lookup "FOO.bsh" ∧
      index.lookup "aΣ" = index.lookup "AΣ" := by
  intro reordered index
  have hnames : mixedScripts.filterMap FileReference.fileName? =
      ["Foo.bsh", "foo.BSH", "AΣ"] := by
    decide +kernel
  have hreordered : reordered.filterMap FileReference.fileName? =
      ["AΣ", "Foo.bsh", "foo.BSH"] := by
    decide +kernel
  obtain ⟨⟨-, -, hsize⟩, hanswers, hnameless, -, horder, hcase⟩ := ofFiles_answers mixedScripts
  rw [hnames] at hsize hanswers horder
  obtain ⟨hfoo, -⟩ := hanswers "FOO.bsh"
  obtain ⟨-, -, -, -, hsigma⟩ := hanswers "aς"
  have hsame : ∀ key, alike ["AΣ", "Foo.bsh", "foo.BSH"] key =
      alike ["Foo.bsh", "foo.BSH", "AΣ"] key := by
    intro key
    by_cases hkey : foldCase "AΣ" = key
    · subst hkey
      decide +kernel
    · have hnone : alike ["A\u03A3"] key = [] := by simp [alike, hkey]
      calc alike (["A\u03A3"] ++ ["Foo.bsh", "foo.BSH"]) key
        _ = alike ["Foo.bsh", "foo.BSH"] key := by rw [alike_append, hnone, List.nil_append]
        _ = alike (["Foo.bsh", "foo.BSH"] ++ ["A\u03A3"]) key := by
          rw [alike_append, hnone, List.append_nil]
  refine ⟨?_, ?_, ?_, ?_, ?_, hcase _ _ (by decide +kernel)⟩
  · rw [hsize]
    decide +kernel
  · refine (hfoo "foo.BSH").mpr ⟨["Foo.bsh"], ["AΣ"], rfl, by decide +kernel, ?_⟩
    simp only [List.forall_mem_singleton]
    decide +kernel
  · refine (hsigma "AΣ").mpr ⟨⟨["Foo.bsh", "foo.BSH"], [], rfl, by decide +kernel, by simp⟩, ?_⟩
    decide
  · refine hnameless (scriptsAt ["a/Foo.bsh".toUTF8.toList]) _
      (scriptsAt ["foo.BSH".toUTF8.toList, "AΣ".toUTF8.toList]) rfl ?_
    intro bytes hbytes
    have hname : bytes = [0xFF] := Option.some.inj (hbytes.symm.trans (by decide +kernel))
    rw [hname]
    decide +kernel
  · exact (horder reordered (hreordered ▸ hsame) "FOO.bsh").1

end FormsAudit.ScriptIndex
