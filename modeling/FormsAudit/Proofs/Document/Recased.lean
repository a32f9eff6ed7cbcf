import FormsAudit.Proofs.Document.Findings
import FormsAudit.Proofs.ScriptIndex
import FormsAudit.Proofs.Unicode.FinalSigma

/-!
# Scripts named in letters of another case

A document may name a script in letters of another case than its file has.  The index then finds the
file, and the audit does not call it missing, unless the two names disagree on a sigma at the end of a
word (`audit_recased`).  There the lower-case form of the capital is the final sigma, so that a
reference with the small sigma has another key than the file (`audit_finalSigma`).
-/

namespace FormsAudit

open Unicode Document

variable {first second : String}

/-! ## Keys -/

/-- The names have the same letters, whatever their case. -/
def IsRecased (first second : String) : Prop :=
  List.Forall₂ SameLetter first.toList second.toList

instance (first second : String) : Decidable (IsRecased first second) :=
  inferInstanceAs (Decidable (List.Forall₂ ..))

theorem foldCase_eq_iff (h : IsRecased first second) :
    foldCase first = foldCase second ↔ SameFinals first.toList second.toList :=
  lowercase_eq_iff h

namespace ScriptIndex

theorem lookup_eq_of_sameFinals (h : IsRecased first second)
    (hfinals : SameFinals first.toList second.toList) (index : ScriptIndex) :
    index.lookup first = index.lookup second := by
  rw [lookup, lookup, (foldCase_eq_iff h).mpr hfinals]

/-- The index of one script has no script under a name that disagrees on a sigma. -/
theorem lookup_single (h : IsRecased first second) :
    (ofNames [second]).lookup second = some second ∧
      ((ofNames [second]).lookup first = none ↔ ¬ SameFinals first.toList second.toList) := by
  rw [← foldCase_eq_iff h]
  constructor <;> simp [ofNames, lookup_insert]

/-- A script is found under its own name. -/
theorem resolve_ne_missing {files : List FileReference} {script : FileReference}
    (hscript : script ∈ files) (hname : script.fileName? = some second) (h : IsRecased first second)
    (hfinals : SameFinals first.toList second.toList) :
    (ofFiles files).1.resolve first ≠ .missing := by
  have hmem : second ∈ files.filterMap FileReference.fileName? :=
    List.mem_filterMap.mpr ⟨script, hscript, hname⟩
  have hholds := holds_ofNames (files.filterMap FileReference.fileName?)
  intro hmissing
  rw [resolve_eq_missing_iff, lookup_eq_of_sameFinals h hfinals, ofFiles_eq,
    hholds.lookup_eq_none_iff] at hmissing
  exact hmissing second hmem rfl

end ScriptIndex

/-! ## Scripts that are reported missing -/

namespace Document

/-- What is said of a missing script tells the name that was looked for. -/
theorem eq_of_missingScriptFile_eq {location location' : Location} {name name' value value' : String}
    (hname : name ∈ scriptAttributes) (hname' : name' ∈ scriptAttributes)
    (h : Diagnostic.missingScriptFile location name value =
      .missingScriptFile location' name' value') : value = value' := by
  have htold : ∀ location name value, (Diagnostic.missingScriptFile location name value).message =
      name ++ " references a script that does not exist: " ++ value := fun _ _ _ => rfl
  have hmessage := congrArg Diagnostic.message h
  rw [htold, htold, String.append_assoc, String.append_assoc] at hmessage
  have hlength : ∀ name ∈ scriptAttributes, 3 ≤ name.toList.length := by decide
  -- no two of the attributes begin with the same three letters
  have hbegin : ∀ name ∈ scriptAttributes, ∀ name' ∈ scriptAttributes,
      name.toList.take 3 = name'.toList.take 3 → name = name' := by
    decide
  have hsame : name = name' := by
    refine hbegin name hname name' hname' ?_
    have htake := congrArg (fun text : String => text.toList.take 3) hmessage
    simpa only [String.toList_append, List.take_append_of_le_length (hlength _ hname),
      List.take_append_of_le_length (hlength _ hname')] using htake
  rw [hsame] at hmessage
  exact String.append_right_inj _ |>.mp (String.append_right_inj _ |>.mp hmessage)

/-- Only what the index misses is reported missing. -/
theorem resolve_eq_missing_of_mem_audit [WideDecoders]
    {file : String} {source : Markup.Source} {index : ScriptIndex}
    {diagnostics : List Diagnostic} (haudit : audit file source index = .ok diagnostics)
    {location : Location} {name value : String} (hname : name ∈ scriptAttributes)
    (h : Diagnostic.missingScriptFile location name value ∈ diagnostics) :
    index.resolve value = .missing := by
  rcases exists_of_mem_audit haudit h with ⟨offset, other, hother, found, hfinding⟩ | ⟨failure, heq⟩
  · cases found with
    | none =>
      have hrule := congrArg Diagnostic.rule (List.mem_singleton.mp hfinding)
      cases hrule
    | some text =>
      rw [scriptFindings] at hfinding
      cases hresolve : index.resolve text with
      | missing =>
        rw [hresolve] at hfinding
        rw [eq_of_missingScriptFile_eq hname hother (List.mem_singleton.mp hfinding), hresolve]
      | casingMismatch canonical =>
        rw [hresolve] at hfinding
        have hrule := congrArg Diagnostic.rule (List.mem_singleton.mp hfinding)
        cases hrule
      | found =>
        rw [hresolve] at hfinding
        cases hfinding
  · cases congrArg Diagnostic.rule heq

/-- **The case of letters makes no difference to a lookup, but for a sigma at the end of a word.**
Names with the same letters are answered alike by every index if and only if they agree there, and if
they do not, an index with the one misses the other.  A document is not told that a script is missing
whose file has the name in letters of another case, if the names agree there. -/
theorem audit_recased [WideDecoders] (h : IsRecased first second) :
    ((∀ names, (ScriptIndex.ofNames names).lookup first =
        (ScriptIndex.ofNames names).lookup second) ↔ SameFinals first.toList second.toList) ∧
      ((ScriptIndex.ofNames [second]).resolve first = .missing ↔
        ¬ SameFinals first.toList second.toList) ∧
      (SameFinals first.toList second.toList →
        ∀ files script, script ∈ files → script.fileName? = some second →
          ∀ file source diagnostics,
            audit file source (ScriptIndex.ofFiles files).1 = .ok diagnostics →
              ∀ location, ∀ name ∈ scriptAttributes,
                Diagnostic.missingScriptFile location name first ∉ diagnostics) := by
  obtain ⟨hself, hother⟩ := ScriptIndex.lookup_single h
  refine ⟨⟨?_, fun hfinals names => ScriptIndex.lookup_eq_of_sameFinals h hfinals _⟩, ?_, ?_⟩
  · intro hlookup
    by_contra hfinals
    have hsingle := hlookup [second]
    rw [hself, hother.mpr hfinals] at hsingle
    cases hsingle
  · rw [ScriptIndex.resolve_eq_missing_iff, hother]
  · intro hfinals files script hscript hname file source diagnostics haudit location name hattribute
      hmem
    exact ScriptIndex.resolve_ne_missing hscript hname h hfinals
      (resolve_eq_missing_of_mem_audit haudit hattribute hmem)

/-- A document that names one script in other letters, and the others not at all. -/
def recasedDocument (name : String) : Markup.Source :=
  ⟨[("<!DOCTYPE Application><Application preScript='" ++ name ++ "'/>").toUTF8.toList], none⟩

attribute [local instance] WideDecoders.asciiOnly

theorem audit_recased_sigmas :
    let script := FileReference.ofPath (.ofString "/forms") (.ofString "/forms/rules/ΟΔΟΣ-1.bsh")
    let index := (ScriptIndex.ofFiles [script]).1
    (ScriptIndex.ofNames ["b.bsh", "ΟΔΟΣ-1.bsh"]).lookup "οδοΣ-1.BSH" = some "ΟΔΟΣ-1.bsh" ∧
      (ScriptIndex.ofNames ["ΟΔΟΣ-1.bsh"]).resolve "οδοΣ-1.BSH" ≠ .missing ∧
      ∃ diagnostics,
        audit "Test.xml" (recasedDocument "οδοΣ-1.BSH") index = .ok diagnostics ∧
          ∀ location, .missingScriptFile location "preScript" "οδοΣ-1.BSH" ∉ diagnostics := by
  intro script index
  have hfinals : SameFinals "οδοΣ-1.BSH".toList "ΟΔΟΣ-1.bsh".toList := by decide +kernel
  obtain ⟨hlookup, hmissing, haudit⟩ :=
    audit_recased (by decide +kernel : IsRecased "οδοΣ-1.BSH" "ΟΔΟΣ-1.bsh")
  obtain ⟨diagnostics, hdiagnostics⟩ : ∃ diagnostics,
      audit "Test.xml" (recasedDocument "οδοΣ-1.BSH") index = .ok diagnostics := by
    refine ⟨[.inconsistentScriptCasing ⟨"Test.xml", 1, 23, none⟩ "preScript" "οδοΣ-1.BSH"
      "ΟΔΟΣ-1.bsh", .missingScriptAttribute ⟨"Test.xml", 1, 23, none⟩ "postScript",
      .missingScriptAttribute ⟨"Test.xml", 1, 23, none⟩ "provisioningScript"], ?_⟩
    decide +kernel
  refine ⟨?_, fun h => hmissing.mp h hfinals, diagnostics, hdiagnostics, ?_⟩
  · rw [hlookup.mpr hfinals]
    decide +kernel
  · intro location
    exact haudit hfinals [script] script (List.mem_singleton_self _) (by decide +kernel) _ _ _
      hdiagnostics location _ (by decide)

/-- A script whose name has a capital sigma at the end of a word is missing under the same name in
small letters. -/
theorem audit_finalSigma :
    let index := ScriptIndex.ofNames ["ΟΔΟΣ-1.bsh"]
    IsRecased "οδοσ-1.bsh" "ΟΔΟΣ-1.bsh" ∧
      index.lookup "ΟΔΟΣ-1.bsh" = some "ΟΔΟΣ-1.bsh" ∧ index.lookup "οδοσ-1.bsh" = none ∧
      audit "Test.xml" (recasedDocument "οδοσ-1.bsh") index =
        .ok [.missingScriptFile ⟨"Test.xml", 1, 23, none⟩ "preScript" "οδοσ-1.bsh",
          .missingScriptAttribute ⟨"Test.xml", 1, 23, none⟩ "postScript",
          .missingScriptAttribute ⟨"Test.xml", 1, 23, none⟩ "provisioningScript"] := by
  decide +kernel

end Document

end FormsAudit
