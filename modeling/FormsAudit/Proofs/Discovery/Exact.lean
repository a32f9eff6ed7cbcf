import FormsAudit.Proofs.Discovery.Files
import Mathlib

/-!
# What discovery without links finds

The files found are the regular files below the root, at any depth and through no link, that have
one of the extensions and that no pattern matches (`Exactly`): the filters choose among the files of
the tree and have no other effect (`exists_discover_eq_filter`).

The system takes no path of 4096 bytes.  Paths are made by joining names to the root as it is given,
and a directory below the root is walked by its real path.  A file for which one of the two would be
longer is passed over, and this is the one limit to what is found where all directories can be read
(`comesTo_iff`, `discover_longRoot`).
-/

namespace FormsAudit.Discovery

open FileSystem

/-! ## What is asked for -/

/-- The name has one of the extensions, up to dots at the start of these and the case of letters. -/
def HasExtension (extensions : List String) (name : EntryName) : Prop :=
  ∃ stem extension text, stem ≠ [] ∧ 0x2E ∉ extension ∧ name = stem ++ 0x2E :: extension ∧
    Utf8.decode? extension = some text ∧ ∃ wanted ∈ extensions,
      Unicode.lowercase text = Unicode.lowercase (wanted.toList.dropWhile (· = '.'))

/-- None of the patterns matches the reference. -/
def Unmatched (patterns : List String) (relative : String) : Prop :=
  ∀ pattern ∈ patterns, ∀ glob, Glob.parse pattern = .ok glob → glob.isMatch relative = false

/-- Names that are text. -/
def namesOf (texts : List String) : List EntryName :=
  texts.map fun text => Utf8.encode text.toList

/-- The limit on paths allows the path of the entry `name` as it is formed and, unless its directory
is the root, the real path of this.  The root has the names `start`, the directory those of `below`
from there. -/
def InReach (fs : FileSystem) (root : Path) (start below : List EntryName) (name : EntryName) :
    Prop :=
  (root.below (below ++ [name])).bytes.length < pathLimit ∧
    (below = [] ∨ fs.realFault? root = none ∧ realLength (start ++ below) < pathLimit)

/-- The files are the regular files of the tree at the root that are asked for. -/
structure Exactly (fs : FileSystem) (extensions patterns : List String) (root : Path)
    (start : List EntryName) (tree : Node) (files : List FileReference) : Prop where
  mem_iff : ∀ file, file ∈ files ↔ ∃ below name content,
    tree.find? (below ++ [name]) = some (.file content) ∧ InReach fs root start below name ∧
      file = .ofPath root (root.below (below ++ [name])) ∧
      HasExtension extensions name ∧ Unmatched patterns file.relative
  once : files.Nodup
  ascending : files.Pairwise fun first second => first.relative ≤ second.relative
  /-- A file is reported under its names, if these are text. -/
  named : ∀ texts content, tree.find? (namesOf texts) = some (.file content) →
    (FileReference.ofPath root (root.below (namesOf texts))).relative = "/".intercalate texts
  /-- No two of these references are the same. -/
  distinct : ∀ texts others content other, tree.find? (namesOf texts) = some (.file content) →
    tree.find? (namesOf others) = some (.file other) →
      (FileReference.ofPath root (root.below (namesOf texts))).relative =
        (FileReference.ofPath root (root.below (namesOf others))).relative → texts = others

variable {fs : FileSystem} {root path : Path} {start names : List EntryName} {node : Node}
  {entries : List (EntryName × Node)} {extensions patterns : List String} {selection : Selection}

theorem mem_of_readPatterns {globs : List Glob} (h : Selection.readPatterns patterns = .ok globs)
    (glob : Glob) : glob ∈ globs ↔ ∃ pattern ∈ patterns, Glob.parse pattern = .ok glob := by
  induction patterns generalizing globs with
  | nil =>
    obtain rfl := Except.ok.inj h
    simp
  | cons pattern patterns ih =>
    rw [Selection.readPatterns] at h
    cases hpattern : Glob.parse pattern with
    | error fault =>
      rw [hpattern] at h
      cases h
    | ok first =>
      cases hrest : Selection.readPatterns patterns with
      | error fault =>
        rw [hpattern, hrest] at h
        cases h
      | ok rest =>
        rw [hpattern, hrest] at h
        obtain rfl := Except.ok.inj h
        simp [hpattern, ih hrest, eq_comm]

theorem make_eq_ok_iff {followLinks : Bool} :
    Selection.make extensions patterns followLinks = .ok selection ↔
      ∃ globs, Selection.readPatterns patterns = .ok globs ∧
        selection = ⟨extensions.map Selection.normalExtension, globs, followLinks⟩ := by
  unfold Selection.make
  cases Selection.readPatterns patterns <;> simp [Except.map, eq_comm]

section Made

variable {followLinks : Bool}
  (hmake : Selection.make extensions patterns followLinks = .ok selection)

include hmake

theorem followLinks_of_make : selection.followLinks = followLinks := by
  obtain ⟨globs, -, rfl⟩ := make_eq_ok_iff.mp hmake
  rfl

theorem excludes_eq_false_iff {relative : String} :
    selection.excludes relative = false ↔ Unmatched patterns relative := by
  obtain ⟨globs, hglobs, rfl⟩ := make_eq_ok_iff.mp hmake
  simp only [Selection.excludes, List.any_eq_false, Bool.not_eq_true, mem_of_readPatterns hglobs,
    Unmatched]
  exact ⟨fun h pattern hpattern glob hglob => h glob ⟨pattern, hpattern, hglob⟩,
    fun h glob ⟨pattern, hpattern, hglob⟩ => h pattern hpattern glob hglob⟩

theorem wantsExtension_iff {name : EntryName} (hname : path.extension? = Path.extensionOfName? name) :
    selection.wantsExtension path = true ↔ HasExtension extensions name := by
  obtain ⟨globs, -, rfl⟩ := make_eq_ok_iff.mp hmake
  have hcontains : ∀ text, (extensions.map Selection.normalExtension).contains
      (Unicode.lowercase text) = true ↔ ∃ wanted ∈ extensions,
        Unicode.lowercase text = Unicode.lowercase (wanted.toList.dropWhile (· = '.')) := by
    intro text
    rw [List.contains_iff_mem, List.mem_map]
    simp only [Selection.normalExtension, eq_comm]
  unfold Selection.wantsExtension HasExtension
  rw [hname]
  constructor
  · intro h
    split at h
    · cases h
    · rename_i text htext
      obtain ⟨extension, hextension, hdecode⟩ := Option.bind_eq_some_iff.mp htext
      obtain ⟨stem, hstem, hdot, rfl⟩ := Path.extensionOfName?_eq_some_iff.mp hextension
      exact ⟨stem, extension, text, hstem, hdot, rfl, hdecode, (hcontains text).mp h⟩
  · rintro ⟨stem, extension, text, hstem, hdot, hsplit, hdecode, hwanted⟩
    have hextension : Path.extensionOfName? name = some extension :=
      Path.extensionOfName?_eq_some_iff.mpr ⟨stem, hstem, hdot, hsplit⟩
    rw [hextension, Option.bind_some, hdecode]
    exact (hcontains text).mpr hwanted

/-- **A file is wanted** if its name has one of the extensions and no pattern matches it. -/
theorem accepts_below_iff (hroot : root.isEmpty = false) {below : List EntryName}
    {name : EntryName} (hnames : ∀ other ∈ below ++ [name], Path.IsName other) :
    selection.accepts (.ofPath root (root.below (below ++ [name]))) = true ↔
      HasExtension extensions name ∧
        Unmatched patterns (FileReference.ofPath root (root.below (below ++ [name]))).relative := by
  have hextension := Path.extension?_below hroot hnames List.getLast?_concat
  rw [Selection.accepts, Bool.and_eq_true, Bool.not_eq_true', excludes_eq_false_iff hmake]
  exact and_congr_left' (wantsExtension_iff hmake hextension)

end Made

/-- Fewer extensions and more patterns choose fewer files. -/
theorem accepts_of_subset {others kept : List String} {wider : Selection}
    (hmake : Selection.make extensions patterns false = .ok selection)
    (hwider : Selection.make others kept false = .ok wider) (hextensions : extensions ⊆ others)
    (hpatterns : kept ⊆ patterns) {file : FileReference} (h : selection.accepts file = true) :
    wider.accepts file = true := by
  rw [Selection.accepts, Bool.and_eq_true, Bool.not_eq_true'] at h ⊢
  refine ⟨?_, ?_⟩
  · obtain ⟨globs, -, rfl⟩ := make_eq_ok_iff.mp hmake
    obtain ⟨globs', -, rfl⟩ := make_eq_ok_iff.mp hwider
    have hwanted := h.1
    unfold Selection.wantsExtension at hwanted ⊢
    split at hwanted
    · cases hwanted
    · rw [List.contains_iff_mem] at hwanted ⊢
      exact List.map_subset _ hextensions hwanted
  · rw [excludes_eq_false_iff hwider]
    intro pattern hpattern
    exact (excludes_eq_false_iff hmake).mp h.2 pattern (hpatterns hpattern)

/-! ## What is found -/

theorem isName_of_find?_namesOf (hproper : node.Proper) {texts : List String} {content : List UInt8}
    (hfound : node.find? (namesOf texts) = some (.file content)) :
    (∀ name ∈ namesOf texts, Path.IsName name) ∧ ∀ text ∈ texts, '/' ∉ text.toList := by
  have hnames := hproper.isName_of_find? hfound
  exact ⟨hnames, fun text htext =>
    Path.slash_notMem_of_isName (hnames _ (List.mem_map_of_mem htext))⟩

theorem relativeTo_below_namesOf (hroot : root.isEmpty = false) {texts : List String}
    (hnames : ∀ name ∈ namesOf texts, Path.IsName name) :
    (root.below (namesOf texts)).relativeTo root = Path.reference texts := by
  have htexts : (namesOf texts).map (fun name => String.ofList (Utf8.decodeLossy name)) = texts := by
    rw [namesOf, List.map_map]
    refine (List.map_congr_left fun text _ => ?_).trans (List.map_id texts)
    simp [Utf8.decodeLossy_encode]
  rw [Path.relativeTo_below hroot hnames, htexts]

theorem le_of_isLE_order {first second : FileReference}
    (h : (first.order second).isLE = true) : first.relative ≤ second.relative := by
  have hrelative : (compareOfLessAndEq first.relative second.relative).isLE = true :=
    (Ordering.isLE_then_iff_and.mp h).1
  rw [compareOfLessAndEq] at hrelative
  split_ifs at hrelative with hlt heq
  · exact Std.le_of_lt hlt
  · exact heq ▸ Std.le_refl _
  · cases hrelative

/-! ## Limits -/

section Readable

variable (hreadable : fs.AllReadable) (hproper : fs.root.Proper)
  (hroot : fs.lookup root = .ok (start, .directory entries))

include hreadable hproper hroot

/-- A directory below the root has a real path if the root has one and the limit allows it. -/
theorem realFault?_below_iff {below : List EntryName} {inner : List (EntryName × Node)}
    (hfound : (Node.directory entries).find? below = some (.directory inner)) :
    fs.realFault? (root.below below) = none ↔ fs.realFault? root = none ∧
      (below = [] ∨ realLength (start ++ below) < pathLimit ∧
        (root.below below).bytes.length < pathLimit) := by
  induction below using List.reverseRecOn generalizing inner with
  | nil => simp
  | append_singleton below name ih =>
    have hstart := find?_of_lookup hroot
    have hnames := (hproper.find? hstart).isName_of_find? hfound
    rw [List.forall_mem_append, List.forall_mem_singleton] at hnames
    obtain ⟨others, hbelow⟩ := exists_entries_of_find?_append hfound (List.cons_ne_nil name [])
    have hentry : others.lookup name = some (.directory inner) := by
      rw [← find?_concat name hbelow, hfound]
    have hdirectory : fs.root.find? (start ++ below) = some (.directory others) := by
      rw [find?_append_of_lookup hroot, hbelow]
    have hleads := (pathLeads_of_lookup (by decide) hroot).below hnames.1 hdirectory (by simp)
    have hshorter : (root.below (below ++ [name])).bytes.length < pathLimit →
        (root.below below).bytes.length < pathLimit := by
      intro hlength
      rw [Path.below_concat] at hlength
      exact (Nat.le_of_add_right_le (Path.length_add_le_join hnames.2)).trans_lt hlength
    have hless : realLength (start ++ (below ++ [name])) < pathLimit →
        realLength (start ++ below) < pathLimit := by
      rw [← List.append_assoc, realLength_concat]
      omega
    have hjoin := hreadable.realFault?_join_iff hnames.2 hleads hdirectory hentry (by simp)
    rw [List.append_assoc, ← Path.below_concat, ih hbelow] at hjoin
    rw [hjoin]
    constructor
    · rintro ⟨⟨hreal, -⟩, hlength, hshort⟩
      exact ⟨hreal, .inr ⟨hlength, hshort⟩⟩
    · rintro ⟨hreal, hnil | ⟨hlength, hshort⟩⟩
      · exact absurd hnil (by simp)
      · exact ⟨⟨hreal, .inr ⟨hless hlength, hshorter hshort⟩⟩, hlength, hshort⟩

/-- **Where all directories can be read, the walk comes to what the limit on paths allows.** -/
theorem comesTo_iff {below : List EntryName} {name : EntryName}
    (hfound : (Node.directory entries).find? (below ++ [name]) = some node) :
    comesTo fs root start (below ++ [name]) = true ↔ InReach fs root start below name := by
  induction below using List.reverseRecOn generalizing name node with
  | nil =>
    have hfirst := hreadable start entries (find?_of_lookup hroot)
    rw [comesTo_concat]
    simp [InReach, lists, refusal?, hfirst, Path.below]
  | append_singleton below middle ih =>
    have hstart := find?_of_lookup hroot
    obtain ⟨others, hbelow⟩ := exists_entries_of_find?_append hfound (List.cons_ne_nil name [])
    have hthere : fs.root.find? (start ++ (below ++ [middle])) = some (.directory others) := by
      rw [find?_append_of_lookup hroot, hbelow]
    have hopen := hreadable _ others hthere
    have hname : Path.IsName name :=
      (hproper.find? hstart).isName_of_find? hfound name (by simp)
    rw [comesTo_concat, ih hbelow, realFault?_below_iff hreadable hproper hroot hbelow]
    simp only [InReach, lists, refusal?, hopen, Path.below_concat root (below ++ [middle])]
    have hshorter : ((root.below (below ++ [middle])).join ⟨name⟩).bytes.length < pathLimit →
        (root.below (below ++ [middle])).bytes.length < pathLimit := fun hlength =>
      (Nat.le_of_add_right_le (Path.length_add_le_join hname)).trans_lt hlength
    have hless : realLength (start ++ (below ++ [middle])) < pathLimit →
        realLength (start ++ below) < pathLimit := by
      rw [← List.append_assoc, realLength_concat]
      omega
    have hnil : below ++ [middle] ≠ [] := by simp
    simp only [hnil, false_or, Option.all_none, true_and, ite_eq_right_iff, reduceCtorEq, imp_false,
      Nat.not_le]
    tauto

end Readable

/-- The wanted files among those of a tree are those that are asked for. -/
theorem exactly_filter_filesOf (hmake : Selection.make extensions patterns false = .ok selection)
    (hreadable : fs.AllReadable) (hproper : fs.root.Proper)
    (hroot : fs.lookup root = .ok (start, .directory entries)) :
    Exactly fs extensions patterns root start (.directory entries)
      ((filesOf fs root start (.directory entries)).filter selection.accepts) := by
  have hempty := isEmpty_of_lookup hroot
  have hdirectory := hproper.find? (find?_of_lookup hroot)
  refine ⟨?mem_iff, ?once, ?ascending, ?named, ?distinct⟩
  case mem_iff =>
    intro file
    rw [List.mem_filter, mem_filesOf_iff hdirectory]
    constructor
    · rintro ⟨⟨below, content, hfound, hcomes, rfl⟩, haccepts⟩
      have hnames := hdirectory.isName_of_find? hfound
      cases below using List.reverseRecOn with
      | nil => cases hfound
      | append_singleton below name =>
        exact ⟨below, name, content, hfound,
          (comesTo_iff hreadable hproper hroot hfound).mp hcomes, rfl,
          (accepts_below_iff hmake hempty hnames).mp haccepts⟩
    · rintro ⟨below, name, content, hfound, hreach, rfl, hwanted⟩
      have hnames := hdirectory.isName_of_find? hfound
      exact ⟨⟨below ++ [name], content, hfound,
        (comesTo_iff hreadable hproper hroot hfound).mpr hreach, rfl⟩,
        (accepts_below_iff hmake hempty hnames).mpr hwanted⟩
  case once => exact (nodup_filesOf hdirectory hempty).filter _
  case ascending =>
    have hsorted : (filesOf fs root start (.directory entries)).Pairwise fun first second =>
        (first.order second).isLE = true := pairwise_mergeSort_cmp _
    exact (hsorted.filter _).imp le_of_isLE_order
  case named =>
    intro texts content hfound
    exact relativeTo_below_namesOf hempty (isName_of_find?_namesOf hdirectory hfound).1
  case distinct =>
    intro texts others content other hfound hother heq
    obtain ⟨hnames, hslash⟩ := isName_of_find?_namesOf hdirectory hfound
    obtain ⟨hnames', hslash'⟩ := isName_of_find?_namesOf hdirectory hother
    have hreference : Path.reference texts = Path.reference others := by
      rw [← relativeTo_below_namesOf hempty hnames, ← relativeTo_below_namesOf hempty hnames']
      exact heq
    refine Path.reference_injective ?_ ?_ hslash hslash' hreference
    · rintro rfl
      cases hfound
    · rintro rfl
      cases hother

/-- **Discovery without links is exact.**  Where all directories can be read, it finds the regular
files below the root that have one of the extensions and that no pattern matches, as far as the limit
on paths allows, each once and in the order of their references.  Extensions and patterns choose
among the files of the tree and do nothing else: more extensions or fewer patterns find the same
files among others. -/
theorem discover_exact (hmake : Selection.make extensions patterns false = .ok selection)
    (hreadable : fs.AllReadable) (hproper : fs.root.Proper)
    (hroot : fs.lookup root = .ok (start, .directory entries)) :
    ∃ files skipped, discover fs selection root = .ok (files, skipped) ∧
      Exactly fs extensions patterns root start (.directory entries) files ∧
      files = (filesOf fs root start (.directory entries)).filter selection.accepts ∧
      ∀ others kept wider, Selection.make others kept false = .ok wider →
        extensions ⊆ others → kept ⊆ patterns →
          ∃ found passed, discover fs wider root = .ok (found, passed) ∧
            files = found.filter selection.accepts := by
  have hdirectory : IsReadableDirectory fs root start entries :=
    ⟨hroot, (hreadable start entries (find?_of_lookup hroot)).2⟩
  obtain ⟨skipped, hfiles⟩ :=
    exists_discover_eq_filter (followLinks_of_make hmake) hproper hdirectory
  refine ⟨_, skipped, hfiles, exactly_filter_filesOf hmake hreadable hproper hroot, rfl, ?_⟩
  intro others kept wider hwider hextensions hpatterns
  obtain ⟨passed, hfound⟩ :=
    exists_discover_eq_filter (followLinks_of_make hwider) hproper hdirectory
  refine ⟨_, passed, hfound, ?_⟩
  rw [List.filter_filter]
  refine List.filter_congr fun file _ => ?_
  cases haccepts : selection.accepts file with
  | false => rfl
  | true => rw [accepts_of_subset hmake hwider hextensions hpatterns haccepts]; rfl

/-- The entries of a directory with documents, a hidden file and a link back. -/
def builtEntries : List (EntryName × Node) :=
  [("a.XML".toUTF8.toList, .file []),
    (".xml".toUTF8.toList, .file []),
    ("build".toUTF8.toList, .directory [("b.xml".toUTF8.toList, .file [])]),
    ("back".toUTF8.toList, .link "..".toUTF8.toList)]

/-- A tree with this directory. -/
def built : FileSystem :=
  { root := .directory [("p".toUTF8.toList, .directory builtEntries)], workingDirectory := [] }

theorem proper_built : built.root.Proper := by decide +kernel

/-- The documents outside of one directory. -/
def builtSelection : Selection :=
  ⟨[Selection.normalExtension ".xml"],
    [⟨[.literal [0x62], .literal [0x75], .literal [0x69], .literal [0x6C], .literal [0x64],
      .everythingBelow]⟩], false⟩

theorem discover_exact_built :
    let root : Path := .ofString "/p"
    built.AllReadable ∧ built.root.Proper ∧
      built.lookup root = .ok (["p".toUTF8.toList], .directory builtEntries) ∧
      Selection.make [".xml"] ["build/**"] false = .ok builtSelection ∧
      Selection.make [".xml"] [] false = .ok .documents ∧
      ∃ files skipped, discover built builtSelection root = .ok (files, skipped) ∧
        Exactly built [".xml"] ["build/**"] root ["p".toUTF8.toList] (.directory builtEntries)
          files ∧
        .ofPath root (.ofString "/p/a.XML") ∈ files ∧
        .ofPath root (.ofString "/p/build/b.xml") ∉ files ∧
        ∃ found passed, discover built .documents root = .ok (found, passed) ∧
          files = found.filter builtSelection.accepts := by
  intro root
  have hreadable : built.AllReadable := allReadable_of_refusals rfl
  have hlookup : built.lookup root = .ok (["p".toUTF8.toList], .directory builtEntries) := by cbv
  have hmake : Selection.make [".xml"] ["build/**"] false = .ok builtSelection := by cbv
  have hdocuments : Selection.make [".xml"] [] false = .ok .documents := by cbv
  obtain ⟨files, skipped, hfiles, hexactly, hfilter, hwider⟩ :=
    discover_exact hmake hreadable proper_built hlookup
  refine ⟨hreadable, proper_built, hlookup, hmake, hdocuments, files, skipped, hfiles, hexactly,
    ?_, ?_, hwider [".xml"] [] .documents hdocuments (List.Subset.refl _) (List.nil_subset _)⟩
  · have hthere : (Node.directory builtEntries).find? ["a.XML".toUTF8.toList] = some (.file []) := by
      cbv
    have hproper : (Node.directory builtEntries).Proper :=
      proper_built.find? (find?_of_lookup hlookup)
    have hpath : Path.ofString "/p/a.XML" = root.below ["a.XML".toUTF8.toList] := by
      decide +kernel
    rw [hfilter, List.mem_filter, hpath]
    have hcomes : comesTo built root ["p".toUTF8.toList] ["a.XML".toUTF8.toList] = true := by cbv
    exact ⟨(mem_filesOf_iff hproper).mpr ⟨_, [], hthere, hcomes, rfl⟩, by decide +kernel⟩
  · rw [hfilter, List.mem_filter]
    exact fun h => absurd h.2 (by decide +kernel)

/-! ## Paths that are too long -/

/-- The working directory, written as so many dots with a slash after each. -/
def dots (count : Nat) : Path := ⟨(List.replicate count [0x2E, Path.slash]).flatten⟩

theorem length_dots (count : Nat) : (dots count).bytes.length = 2 * count := by
  simp [dots, Nat.mul_comm]

theorem splitOn_dots (count : Nat) :
    (dots count).bytes.splitOn Path.slash = List.replicate count [0x2E] ++ [[]] := by
  induction count with
  | zero => rfl
  | succ count ih =>
    have hdot : [0x2E].splitOn Path.slash = [[0x2E]] := by decide
    have hbytes : (dots (count + 1)).bytes = [0x2E] ++ Path.slash :: (dots count).bytes := rfl
    rw [hbytes, List.splitOn_append_cons_self, hdot, ih]
    rfl

theorem steps_dots {count : Nat} (hpos : 0 < count) :
    steps (dots count).bytes = List.replicate count .current ++ [.root] := by
  obtain ⟨count, rfl⟩ := Nat.exists_eq_add_of_lt hpos
  simp [steps, splitOn_dots]

variable {manner : Manner} {links : Nat}

/-- A dot leads nowhere else. -/
theorem walk_replicate_current (hfound : fs.root.find? names = some (.directory entries))
    (hopen : (fs.accessAt names).search = none) (count : Nat) :
    fs.walk manner links names (List.replicate count .current) =
      .ok ⟨names, some (.directory entries)⟩ := by
  induction count with
  | zero => rw [List.replicate_zero, FileSystem.walk, hfound]
  | succ count ih => rw [List.replicate_succ, walk_stay hfound (.inr rfl) hopen, ih]

theorem lookup_dots (hreadable : fs.AllReadable)
    (hfound : fs.root.find? fs.workingDirectory = some (.directory entries))
    {count : Nat} (hpos : 0 < count) (hshort : 2 * count < pathLimit) :
    fs.lookup (dots count) = .ok (fs.workingDirectory, .directory entries) := by
  have hwalk := @walk_replicate_current _ _ _ .through linkLimit hfound
    (hreadable _ entries hfound).1 count
  obtain ⟨count, rfl⟩ := Nat.exists_eq_add_of_lt hpos
  rw [lookup_eq_ok_iff, place_eq_ok_iff, length_dots, steps_dots hpos]
  exact ⟨by simp [Path.isEmpty, dots], hshort, (walk_root_iff (by decide)).mpr hwalk⟩

/-- The entry of one document. -/
def loneEntries : List (EntryName × Node) := [("a.xml".toUTF8.toList, .file [])]

/-- A tree of this document alone. -/
def lone : FileSystem := { root := .directory loneEntries, workingDirectory := [] }

/-- A tree of directories, one in another, of which the last has the entries. -/
def nested (entries : List (EntryName × Node)) : List EntryName → Node
  | [] => .directory entries
  | name :: names => .directory [(name, nested entries names)]

theorem find?_nested (entries : List (EntryName × Node)) (names : List EntryName) :
    (nested entries names).find? names = some (.directory entries) := by
  induction names with
  | nil => rfl
  | cons name names ih => simp [nested, Node.find?, Node.child?, Node.entries, ih]

theorem proper_nested (hentries : (Node.directory entries).Proper)
    (hnames : ∀ name ∈ names, Path.IsName name) : (nested entries names).Proper := by
  induction names with
  | nil => exact hentries
  | cons name names ih =>
    rw [List.forall_mem_cons] at hnames
    exact .directory (List.nodup_singleton _) (by simpa using hnames.1) (by simpa using ih hnames.2)

/-- The names of 16 directories, each of 255 letters: their real path has 4096 bytes. -/
def deepNames : List EntryName := List.replicate 16 (List.replicate 255 0x61)

/-- The entry of one directory, with the document in it. -/
def deepEntries : List (EntryName × Node) := [("sub".toUTF8.toList, .directory loneEntries)]

/-- A tree with this directory, in which one works far from its root. -/
def deep : FileSystem := { root := nested deepEntries deepNames, workingDirectory := deepNames }

theorem proper_lone : lone.root.Proper := by decide +kernel

theorem proper_deep : deep.root.Proper := by
  refine proper_nested (by decide +kernel) fun name hname => ?_
  rw [(List.mem_replicate.mp hname).2, ← Path.isName_iff]
  decide +kernel

theorem lookup_lone : lone.lookup (dots 2047) = .ok ([], .directory loneEntries) :=
  lookup_dots (allReadable_of_refusals rfl) rfl (by decide) (by decide)

theorem lookup_deep : deep.lookup (dots 1) = .ok (deepNames, .directory deepEntries) := by
  have hreadable : deep.AllReadable := allReadable_of_refusals rfl
  have hroot : deep.root = nested deepEntries deepNames := rfl
  have hnames : deep.workingDirectory = deepNames := rfl
  have hfound : deep.root.find? deep.workingDirectory = some (.directory deepEntries) := by
    rw [hroot, hnames, find?_nested]
  rw [← hnames]
  exact lookup_dots hreadable hfound (by decide) (by decide)

/-- The document has a path of 4099 bytes. -/
theorem filesOf_lone : filesOf lone (dots 2047) [] (.directory loneEntries) = [] := by
  have hreadable : lone.AllReadable := allReadable_of_refusals rfl
  have hplaces : (Node.directory loneEntries).filePlaces = [["a.xml".toUTF8.toList]] := rfl
  have hname : Path.IsName "a.xml".toUTF8.toList := by constructor <;> decide +kernel
  rw [List.eq_nil_iff_forall_not_mem]
  intro file hfile
  obtain ⟨below, content, hfound, hcomes, -⟩ := (mem_filesOf_iff proper_lone).mp hfile
  have hplace := (Node.mem_filePlaces_iff proper_lone).mpr ⟨content, hfound⟩
  obtain rfl := List.mem_singleton.mp (hplaces ▸ hplace)
  obtain ⟨hlength, -⟩ := (@comesTo_iff _ _ _ _ _ hreadable proper_lone lookup_lone [] _ hfound).mp
    hcomes
  have hjoined : ((dots 2047).join ⟨"a.xml".toUTF8.toList⟩).bytes.length < 4096 := hlength
  have hlong : (dots 2047).bytes.length + _ ≤ _ := Path.length_add_le_join hname
  have hbytes : "a.xml".toUTF8.toList.length = 5 := by decide +kernel
  rw [length_dots, hbytes] at hlong
  omega

/-- The directory of the document has a real path of 4100 bytes. -/
theorem filesOf_deep : filesOf deep (dots 1) deepNames (.directory deepEntries) = [] := by
  have hreadable : deep.AllReadable := allReadable_of_refusals rfl
  have hdirectory : (Node.directory deepEntries).Proper := by decide +kernel
  have hplaces : (Node.directory deepEntries).filePlaces =
      [["sub".toUTF8.toList, "a.xml".toUTF8.toList]] := rfl
  rw [List.eq_nil_iff_forall_not_mem]
  intro file hfile
  obtain ⟨below, content, hfound, hcomes, -⟩ := (mem_filesOf_iff hdirectory).mp hfile
  have hplace := (Node.mem_filePlaces_iff hdirectory).mpr ⟨content, hfound⟩
  obtain rfl := List.mem_singleton.mp (hplaces ▸ hplace)
  obtain ⟨-, hnil | ⟨-, hlength⟩⟩ := (@comesTo_iff _ _ _ _ _ hreadable proper_deep lookup_deep
    ["sub".toUTF8.toList] _ hfound).mp hcomes
  · cases hnil
  · revert hlength
    decide +kernel

/-- **A file is not found where its path would be too long**, or the real path of its directory, be
it the only one there is. -/
theorem discover_longRoot :
    (lone.AllReadable ∧ lone.root.Proper ∧
      lone.lookup (dots 2047) = .ok ([], .directory loneEntries) ∧
      (Node.directory loneEntries).find? ["a.xml".toUTF8.toList] = some (.file []) ∧
      ∃ skipped, discover lone .documents (dots 2047) = .ok ([], skipped)) ∧
    (deep.AllReadable ∧ deep.root.Proper ∧
      deep.lookup (dots 1) = .ok (deepNames, .directory deepEntries) ∧
      (Node.directory deepEntries).find? ["sub".toUTF8.toList, "a.xml".toUTF8.toList] =
        some (.file []) ∧
      ((dots 1).below ["sub".toUTF8.toList, "a.xml".toUTF8.toList]).bytes.length < pathLimit ∧
      ∃ skipped, discover deep .documents (dots 1) = .ok ([], skipped)) ∧
    Selection.make ["xml"] [] false = .ok .documents ∧
    HasExtension ["xml"] "a.xml".toUTF8.toList := by
  have hextension : HasExtension ["xml"] "a.xml".toUTF8.toList :=
    ⟨[0x61], "xml".toUTF8.toList, "xml".toList, by decide, by decide +kernel, by decide +kernel,
      by decide +kernel, "xml", List.mem_singleton_self _, by decide +kernel⟩
  have hfollow : Selection.documents.followLinks = false := rfl
  have hreadable : lone.AllReadable := allReadable_of_refusals rfl
  have hreadable' : deep.AllReadable := allReadable_of_refusals rfl
  obtain ⟨skipped, hfiles⟩ := exists_discover_eq_filter hfollow proper_lone ⟨lookup_lone, rfl⟩
  obtain ⟨passed, hfound⟩ := exists_discover_eq_filter hfollow proper_deep ⟨lookup_deep, rfl⟩
  rw [filesOf_lone] at hfiles
  rw [filesOf_deep] at hfound
  exact ⟨⟨hreadable, proper_lone, lookup_lone, by cbv, skipped, hfiles⟩,
    ⟨hreadable', proper_deep, lookup_deep, by cbv, by decide +kernel, passed, hfound⟩, rfl,
    hextension⟩

end FormsAudit.Discovery
