import FormsAudit.Proofs.Config.Precedence
import FormsAudit.Proofs.Path.Reference
import FormsAudit.Proofs.Unicode.Caseless

/-!
# Extensions that can match

Three places have a say in what an extension is: a valid configuration, the selection that is made of
it, and the names of files.  An extension that may be configured is one that a file can have, up to
dots before it and the case of its letters (`accepts_join`), so none of them finds nothing for what
it is.  The selection wants nothing else (`Reaches.accepts_iff`).

The selection compares lower-case forms.  A dot and a slash have no case, so what has the lower-case
form of a valid extension has neither of them, and the last dot of the name is the one before it.
-/

namespace FormsAudit.Config

/-- The extension without the dots before it. -/
def bareExtension (extension : String) : List Char :=
  extension.toList.dropWhile (· = '.')

/-- The selection wants the files that have one of the extensions, whatever the case of its letters,
and each of the extensions is that of a file of any name in any directory. -/
structure Reaches (extensions : List String) (selection : Selection) : Prop where
  accepts_iff : ∀ root path, selection.accepts (.ofPath root path) = true ↔
    ∃ text, path.extension?.bind Utf8.decode? = some text ∧
      ∃ extension ∈ extensions, Unicode.lowercase text = Unicode.lowercase (bareExtension extension)
  accepts_join : ∀ root directory : Path, ∀ stem written, ∀ extension ∈ extensions, stem ≠ [] →
    '/' ∉ stem → Unicode.lowercase written = Unicode.lowercase (bareExtension extension) →
      stem ++ '.' :: written ≠ ['.', '.'] →
        selection.accepts
          (.ofPath root (directory.join ⟨Utf8.encode (stem ++ '.' :: written)⟩)) = true

/-- An extension that a file can have has neither a dot nor a slash behind the dots before it. -/
theorem IsExtension.notMem_bareExtension {extension : String} (h : IsExtension extension) :
    '.' ∉ bareExtension extension ∧ '/' ∉ bareExtension extension := by
  obtain ⟨dots, name, htext, hdots, hname⟩ := h
  have hbare : bareExtension extension = name := by
    rw [bareExtension, htext, List.dropWhile_append_of_pos (by simpa using hdots)]
    cases name with
    | nil => rfl
    | cons c rest =>
      have hc : c ≠ '.' := (hname c List.mem_cons_self).1
      exact List.dropWhile_cons_of_neg (by simpa using hc)
  rw [hbare]
  exact ⟨fun hmem => (hname _ hmem).1 rfl, fun hmem => (hname _ hmem).2.1 rfl⟩

section File

variable {stem written : List Char}

theorem isName_encode (hstem : stem ≠ []) (hslash : '/' ∉ stem) (hslash' : '/' ∉ written)
    (hdots : stem ++ '.' :: written ≠ ['.', '.']) :
    Path.IsName (Utf8.encode (stem ++ '.' :: written)) where
  ne_nil := Utf8.encode_ne_nil (by simp)
  slash_notMem := by
    have hbyte : Path.slash = Utf8.plainByte '/' := by decide
    rw [hbyte, Utf8.plainByte_mem_encode_iff (by decide)]
    simp [hslash, hslash']
  ne_dot := by
    have hdot : Utf8.encode ['.'] = [0x2E] := by decide
    rw [← hdot, Utf8.encode_injective.ne_iff]
    intro heq
    cases stem with
    | nil => exact hstem rfl
    | cons c stem => simp at heq
  ne_dots := by
    have hparent : Utf8.encode ['.', '.'] = [0x2E, 0x2E] := by decide
    rw [← hparent, Utf8.encode_injective.ne_iff]
    exact hdots

/-- What is written behind the last dot of a name is the extension of the file. -/
theorem extension?_join_encode (directory : Path) (hstem : stem ≠ []) (hslash : '/' ∉ stem)
    (hslash' : '/' ∉ written) (hdot : '.' ∉ written)
    (hdots : stem ++ '.' :: written ≠ ['.', '.']) :
    (directory.join ⟨Utf8.encode (stem ++ '.' :: written)⟩).extension?.bind Utf8.decode? =
      some written := by
  have hname := isName_encode hstem hslash hslash' hdots
  have hbytes : Utf8.encode (stem ++ '.' :: written) =
      Utf8.encode stem ++ 0x2E :: Utf8.encode written := by
    rw [Utf8.encode_append]
    rfl
  have hlast : 0x2E ∉ Utf8.encode written := by
    have hbyte : (0x2E : UInt8) = Utf8.plainByte '.' := by decide
    rw [hbyte, Utf8.plainByte_mem_encode_iff (by decide)]
    exact hdot
  have hfound : Path.extensionOfName? (Utf8.encode (stem ++ '.' :: written)) =
      some (Utf8.encode written) :=
    Path.extensionOfName?_eq_some_iff.mpr ⟨_, Utf8.encode_ne_nil hstem, hlast, hbytes⟩
  calc (directory.join ⟨Utf8.encode (stem ++ '.' :: written)⟩).extension?.bind Utf8.decode?
      = (Path.extensionOfName? (Utf8.encode (stem ++ '.' :: written))).bind Utf8.decode? := by
        rw [Path.extension?_join hname]
    _ = Utf8.decode? (Utf8.encode written) := by rw [hfound, Option.bind_some]
    _ = some written := Utf8.decode?_encode written

end File

/-- A selection of valid extensions, with no pattern to exclude a file. -/
theorem exists_reaches {extensions : List String} (followLinks : Bool)
    (hvalid : ∀ extension ∈ extensions, IsExtension extension) :
    ∃ selection, Selection.make extensions [] followLinks = .ok selection ∧
      Reaches extensions selection := by
  refine ⟨⟨extensions.map Selection.normalExtension, [], followLinks⟩, rfl, ?_⟩
  set selection : Selection := ⟨extensions.map Selection.normalExtension, [], followLinks⟩
  have hiff : ∀ root path, selection.accepts (.ofPath root path) = true ↔
      ∃ text, path.extension?.bind Utf8.decode? = some text ∧ ∃ extension ∈ extensions,
        Unicode.lowercase text = Unicode.lowercase (bareExtension extension) := by
    intro root path
    show (selection.wantsExtension path && true) = true ↔ _
    rw [Bool.and_true, Selection.wantsExtension]
    cases path.extension?.bind Utf8.decode? with
    | none => simp
    | some text =>
      show (extensions.map Selection.normalExtension).contains _ = true ↔ _
      rw [List.contains_iff_mem, List.mem_map]
      simp [Selection.normalExtension, bareExtension, eq_comm]
  refine ⟨hiff, ?_⟩
  intro root directory stem written extension hextension hstem hslash hlower hdots
  obtain ⟨hdot, hslash'⟩ := (hvalid extension hextension).notMem_bareExtension
  rw [← Unicode.isCaseless_dot.mem_iff_of_lowercase_eq hlower] at hdot
  rw [← Unicode.isCaseless_slash.mem_iff_of_lowercase_eq hlower] at hslash'
  exact (hiff root _).mpr ⟨written,
    extension?_join_encode directory hstem hslash hslash' hdot hdots, extension, hextension, hlower⟩

/-- **Valid extensions can match.**  A valid configuration without patterns selects documents and
scripts.  Each of its extensions is that of a file of any name in any directory, whatever dots are
written before it and whatever the case of the letters, and a file of any other extension is not
selected. -/
theorem exists_selections_reach {config : Config} (hvalid : config.validated = .ok config)
    (hpatterns : config.excludePatterns = []) :
    ∃ documents scripts, config.documentSelection = .ok documents ∧
      config.scriptSelection = .ok scripts ∧ Reaches config.xmlExtensions documents ∧
      Reaches config.scriptExtensions scripts := by
  obtain ⟨-, hconfig⟩ := validated_eq_ok_iff.mp hvalid
  obtain ⟨documents, hdocuments, hreaches⟩ :=
    exists_reaches config.followLinks hconfig.xmlExtensions.2
  obtain ⟨scripts, hscripts, hreaches'⟩ :=
    exists_reaches config.followLinks hconfig.scriptExtensions.2
  refine ⟨documents, scripts, ?_, ?_, hreaches, hreaches'⟩
  · rw [documentSelection, hpatterns, hdocuments]
  · rw [scriptSelection, hpatterns, hscripts]

/-- A configuration with an extension that is all dots, one in capitals, and one that ends in a
sigma. -/
def dotted : Config := { xmlExtensions := ["..", ".KML"], scriptExtensions := ["ΑΣ"] }

theorem exists_selections_reach_dotted :
    let directory : Path := .ofString "/p/maps"
    dotted.validated = .ok dotted ∧ dotted.excludePatterns = [] ∧
      ∃ documents scripts, dotted.documentSelection = .ok documents ∧
        dotted.scriptSelection = .ok scripts ∧
        documents.accepts (.ofPath (.ofString "/p") (directory.join ⟨Utf8.encode "a.".toList⟩)) ∧
        documents.accepts
          (.ofPath (.ofString "/p") (directory.join ⟨Utf8.encode "..\u212Aml".toList⟩)) ∧
        ¬ documents.accepts (.ofPath (.ofString "/p") (directory.join ⟨Utf8.encode ".kml".toList⟩)) ∧
        scripts.accepts (.ofPath (.ofString "/p") (directory.join ⟨Utf8.encode "b.ας".toList⟩)) := by
  intro directory
  have hvalid : dotted.validated = .ok dotted := by decide +kernel
  obtain ⟨documents, scripts, hdocuments, hscripts, hreaches, hreaches'⟩ :=
    exists_selections_reach hvalid rfl
  refine ⟨hvalid, rfl, documents, scripts, hdocuments, hscripts, ?bare, ?kelvin, ?hidden, ?sigma⟩
  case bare =>
    exact hreaches.accepts_join (.ofString "/p") directory ['a'] [] ".." List.mem_cons_self
      (by decide) (by decide) (by decide +kernel) (by decide)
  case kelvin =>
    exact hreaches.accepts_join (.ofString "/p") directory ['.'] "\u212Aml".toList ".KML"
      (List.mem_cons_of_mem _ List.mem_cons_self) (by decide) (by decide) (by decide +kernel)
      (by decide)
  case hidden =>
    -- a name that begins with its only dot has no extension
    have hnone : (directory.join ⟨Utf8.encode ".kml".toList⟩).extension? = none := by decide +kernel
    rw [hreaches.accepts_iff, hnone]
    rintro ⟨text, htext, -⟩
    cases htext
  case sigma =>
    exact hreaches'.accepts_join (.ofString "/p") directory ['b'] "ας".toList "ΑΣ"
      (List.mem_singleton_self _) (by decide) (by decide) (by decide +kernel) (by decide)

end FormsAudit.Config
