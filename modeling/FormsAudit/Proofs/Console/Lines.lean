import FormsAudit.Console.Summary
import FormsAudit.Proofs.Document.Repeated
import FormsAudit.Proofs.Scan.Tally
import FormsAudit.Proofs.Text.SplitOn

/-!
# The lines of a summary

A finding is meant to take one line.  It does so exactly where no line ends in what it repeats of its
document (`Document.Repeats`), which may happen in three places: the value of a script attribute, the
name in an end tag, and the name in a reference.  All else in the line of a finding is of one line,
the name of its file and those of the scripts provided (`mem_lineOf_iff_repeats`).

So the findings of a run are its first lines, one for each, if and only if none repeats a text in
which a line ends (`shownLines_audited`).
-/

namespace FormsAudit.Console

open Document Markup

/-! ## Audited documents -/

/-- A document that has been audited, with what was found.  The names of its file and of the scripts
have one line each. -/
structure AuditedDocument [WideDecoders] where
  file : String
  source : Source
  scripts : List String
  findings : List Diagnostic
  unbroken_file : Unbroken file.toList
  unbroken_scripts : ∀ name ∈ scripts, Unbroken name.toList
  audit_eq : audit file source (.ofNames scripts) = .ok findings

/-- The finding of the document repeats the text. -/
def AuditedDocument.Repeats [WideDecoders] (document : AuditedDocument) (finding : Diagnostic)
    (text : List Char) : Prop :=
  Document.Repeats document.source (.ofNames document.scripts) finding text

/-! ## The line of a finding -/

/-- The line of a finding, as it is shown without colours. -/
def lineOf (verbosity : Verbosity) (finding : Diagnostic) : List Char :=
  ((Style.plain verbosity).diagnostic finding).toList

section Break

variable {c : Char} (hc : IsBreak c) (verbosity : Verbosity) {finding : Diagnostic}

include hc

/-- Besides the name of the file, only the message can break the line. -/
theorem mem_lineOf_iff (hfile : c ∉ finding.location.file.toList) :
    c ∈ lineOf verbosity finding ↔ c ∈ finding.message.toList := by
  have hline := hc.notMem (unbroken_toString finding.location.line.toNat)
  have hcolumn := hc.notMem (unbroken_toString finding.location.startColumn.toNat)
  have hlevel : c ∉ ((Style.plain verbosity).level finding.severity).toList := by
    cases finding.severity <;> exact hc.notMem (unbroken_ofList (by decide))
  have hrule : c ∉ finding.rule.id.toList := by
    cases finding.rule <;> exact hc.notMem (unbroken_ofList (by decide))
  have hnumber : ∀ n : UInt32, toString n = toString n.toNat := fun _ => rfl
  unfold lineOf Style.diagnostic
  simp (disch := (apply unbroken_ofList; decide)) only [String.toList_append, List.mem_append,
    hc.mem_iff_false, toString_self, hnumber, hfile, hline, hcolumn, hlevel, hrule, false_or]

/-- **The line of a finding is broken where the finding repeats a text that is.** -/
theorem mem_lineOf_iff_repeats [WideDecoders] (document : AuditedDocument)
    (hfinding : finding ∈ document.findings) :
    c ∈ lineOf verbosity finding ↔ ∃ text, document.Repeats finding text ∧ c ∈ text := by
  have hfile : c ∉ document.file.toList := hc.notMem document.unbroken_file
  have hscripts : ∀ name ∈ document.scripts, c ∉ name.toList := fun name hname =>
    hc.notMem (document.unbroken_scripts name hname)
  have hlocation : finding.location.file = document.file :=
    (Scan.foundIn_audit document.audit_eq finding hfinding).file
  rw [mem_lineOf_iff hc verbosity (hlocation ▸ hfile)]
  exact mem_message_iff_repeats hc hfile hscripts document.audit_eq hfinding

end Break

/-! ## The lines of a run -/

/-- The lines, each with a line feed behind it. -/
def ended (lines : List String) : List Char :=
  (lines.map String.toList).flatMap (· ++ ['\n'])

/-- The line that parts the findings from the counts. -/
def blankAfter (findings : List Diagnostic) : List String :=
  if findings.isEmpty then [] else [""]

/-- The counts of a run, line by line. -/
def summaryLines (run : Run) (report : Path) : List String :=
  (Style.plain .normal).summary run report

/-- The lines of a run as a reader of the text finds them: what stands between its line feeds. -/
def shownLines (run : Run) (report : Path) : List (List Char) :=
  ((Style.plain .normal).run run report).toList.splitOn '\n'

theorem ended_append (first second : List String) :
    ended (first ++ second) = ended first ++ ended second := by
  simp [ended]

/-- A run is shown as its findings, a blank line if there are any, and its counts. -/
theorem toList_run (run : Run) (report : Path) :
    ((Style.plain .normal).run run report).toList =
      ended (run.results.diagnostics.map (Style.plain .normal).diagnostic ++
        blankAfter run.results.diagnostics) ++ ended (summaryLines run report) := by
  have hlines : (Style.plain .normal).lines run report =
      run.results.diagnostics.map (Style.plain .normal).diagnostic ++
        blankAfter run.results.diagnostics ++ summaryLines run report := by
    simp [Style.lines, Style.plain, Verbosity.isDetailed, blankAfter, summaryLines]
  calc ((Style.plain .normal).run run report).toList
    _ = ended ((Style.plain .normal).lines run report) := by
      simp [Style.run, ended, String.toList_join, List.flatMap_map]
    _ = _ := by rw [hlines, ended_append]

section Run

variable {run : Run} (report : Path)

/-- Findings of one line each come before all else. -/
theorem shownLines_eq (h : ∀ finding ∈ run.results.diagnostics, '\n' ∉ lineOf .normal finding) :
    shownLines run report =
      run.results.diagnostics.map (lineOf .normal) ++
        (blankAfter run.results.diagnostics).map String.toList ++
          (ended (summaryLines run report)).splitOn '\n' := by
  have hblank : ∀ line ∈ (blankAfter run.results.diagnostics).map String.toList, '\n' ∉ line := by
    unfold blankAfter
    split <;> simp
  have hlines : ∀ line ∈ run.results.diagnostics.map (lineOf .normal) ++
      (blankAfter run.results.diagnostics).map String.toList, '\n' ∉ line := by
    rw [List.forall_mem_append, List.forall_mem_map]
    exact ⟨h, hblank⟩
  rw [← splitOn_endedLines hlines, shownLines, toList_run, ended, List.map_append, List.map_map]
  rfl

/-- The findings are the first lines of a run if and only if no line ends inside of one. -/
theorem isPrefix_shownLines_iff :
    run.results.diagnostics.map (lineOf .normal) <+: shownLines run report ↔
      ∀ finding ∈ run.results.diagnostics, '\n' ∉ lineOf .normal finding := by
  constructor
  · intro hpre finding hfinding
    exact notMem_of_mem_splitOn (hpre.subset (List.mem_map_of_mem hfinding))
  · intro h
    rw [shownLines_eq report h, List.append_assoc]
    exact List.prefix_append _ _

/-- **A finding takes one line unless it repeats a text of its document in which a line ends.**  In a
run on such documents the findings are the first lines, one for each and in their order, if and only
if no finding repeats such a text; then a blank line and the counts follow. -/
theorem shownLines_audited [WideDecoders] (documents : List AuditedDocument)
    (hrun : run.results.diagnostics = documents.flatMap (·.findings)) :
    (∀ document ∈ documents, ∀ finding ∈ document.findings, ∀ verbosity c, IsBreak c →
        (c ∈ lineOf verbosity finding ↔ ∃ text, document.Repeats finding text ∧ c ∈ text)) ∧
      (run.results.diagnostics.map (lineOf .normal) <+: shownLines run report ↔
        ∀ document ∈ documents, ∀ finding ∈ document.findings, ∀ text,
          document.Repeats finding text → '\n' ∉ text) ∧
      (run.results.diagnostics.map (lineOf .normal) <+: shownLines run report →
        shownLines run report =
          run.results.diagnostics.map (lineOf .normal) ++
            (blankAfter run.results.diagnostics).map String.toList ++
              (ended (summaryLines run report)).splitOn '\n') := by
  have hline : ∀ document ∈ documents, ∀ finding ∈ document.findings, ∀ verbosity c, IsBreak c →
      (c ∈ lineOf verbosity finding ↔ ∃ text, document.Repeats finding text ∧ c ∈ text) := by
    intro document _ finding hfinding verbosity c hc
    exact mem_lineOf_iff_repeats hc verbosity document hfinding
  refine ⟨hline, ?_, fun hpre => shownLines_eq report ((isPrefix_shownLines_iff report).mp hpre)⟩
  rw [isPrefix_shownLines_iff, hrun, List.forall_mem_flatMap]
  refine forall₂_congr fun document hdocument => forall₂_congr fun finding hfinding => ?_
  rw [hline document hdocument finding hfinding .normal '\n' (.inl rfl)]
  simp

end Run

/-! ## Documents of one line and of more -/

attribute [local instance] WideDecoders.asciiOnly

/-- A document of that text, in a project with the scripts `p` and `q`. -/
def documentOf (text : String) (findings : List Diagnostic)
    (h : audit "Form.xml" ⟨[text.toUTF8.toList], none⟩ (.ofNames ["p", "q"]) = .ok findings) :
    AuditedDocument where
  file := "Form.xml"
  source := ⟨[text.toUTF8.toList], none⟩
  scripts := ["p", "q"]
  findings := findings
  unbroken_file := by decide
  unbroken_scripts := by decide
  audit_eq := h

/-- A run that has come to these findings. -/
def runOf (findings : List Diagnostic) : Run :=
  ⟨.scan, [], 2, { Results.empty with diagnostics := findings }, ⟨0, 0⟩, ⟨0, 0⟩⟩

/-- Documents whose findings repeat a blank: in the value of an attribute, in the name of an end tag
and in that of a reference. -/
def blankDocuments : List AuditedDocument :=
  [documentOf
      "<!DOCTYPE Application><Application preScript='a b' postScript='p' provisioningScript='q'/>"
      [.missingScriptFile ⟨"Form.xml", 1, 23, none⟩ "preScript" "a b"] (by decide +kernel),
    documentOf "<a></a b>"
      [.notWellFormed ⟨"Form.xml", 1, 4, none⟩
        "ill-formed document: expected `</a>`, but `</a b>` was found"] (by decide +kernel),
    documentOf "<a>&a b;</a>"
      [.notWellFormed ⟨"Form.xml", 1, 5, none⟩ "at 1..4: unrecognized entity `a b`"]
      (by decide +kernel)]

theorem shownLines_audited_blankDocuments :
    let run := runOf (blankDocuments.flatMap (·.findings))
    let report := Path.ofString "r.sarif"
    run.results.diagnostics = blankDocuments.flatMap (·.findings) ∧
      shownLines run report =
        ["Form.xml:1:23: error [MISSING-SCRIPT-FILE] preScript references a script that does not " ++
            "exist: a b",
          "Form.xml:1:4: error [XML-NOT-WELL-FORMED] XML document is not well formed: ill-formed " ++
            "document: expected `</a>`, but `</a b>` was found",
          "Form.xml:1:5: error [XML-NOT-WELL-FORMED] XML document is not well formed: at 1..4: " ++
            "unrecognized entity `a b`",
          ""].map String.toList ++ (ended (summaryLines run report)).splitOn '\n' := by
  intro run report
  have hlines : ∀ document ∈ blankDocuments, ∀ finding ∈ document.findings,
      '\n' ∉ lineOf .normal finding := by
    decide +kernel
  have hrun : run.results.diagnostics = blankDocuments.flatMap (·.findings) := rfl
  obtain ⟨hline, hiff, hshown⟩ := shownLines_audited report blankDocuments hrun
  have hpre : run.results.diagnostics.map (lineOf .normal) <+: shownLines run report := by
    rw [hiff]
    intro document hdocument finding hfinding text hrepeats hmem
    apply hlines document hdocument finding hfinding
    exact (hline document hdocument finding hfinding .normal '\n' (.inl rfl)).mpr
      ⟨text, hrepeats, hmem⟩
  refine ⟨hrun, (hshown hpre).trans ?_⟩
  congr 1

/-- Documents in which a line ends in these places.  In the value of an attribute it may do so by a
reference. -/
def brokenDocuments : List AuditedDocument :=
  [documentOf
      "<!DOCTYPE Application><Application preScript='a&#10;b' postScript='p' provisioningScript='q'/>"
      [.missingScriptFile ⟨"Form.xml", 1, 23, none⟩ "preScript" "a\nb"] (by decide +kernel),
    documentOf "<a></a\nb>"
      [.notWellFormed ⟨"Form.xml", 1, 4, none⟩
        "ill-formed document: expected `</a>`, but `</a\nb>` was found"] (by decide +kernel),
    documentOf "<a>&a\nb;</a>"
      [.notWellFormed ⟨"Form.xml", 1, 5, none⟩ "at 1..4: unrecognized entity `a\nb`"]
      (by decide +kernel)]

/-- In each of the three places, a line that ends in what a finding repeats makes its line two. -/
theorem shownLines_brokenDocuments :
    brokenDocuments.length = 3 ∧
      ∀ document ∈ brokenDocuments,
        (∃ finding ∈ document.findings, '\n' ∈ lineOf .normal finding) ∧
          ∀ report, ¬ document.findings.map (lineOf .normal) <+:
            shownLines (runOf document.findings) report := by
  have hbroken : ∀ document ∈ brokenDocuments, ∃ finding ∈ document.findings,
      '\n' ∈ lineOf .normal finding := by
    decide +kernel
  refine ⟨rfl, fun document hdocument => ?_⟩
  obtain ⟨finding, hfinding, hbreak⟩ := hbroken document hdocument
  refine ⟨⟨finding, hfinding, hbreak⟩, fun report hpre => ?_⟩
  have hrun : (runOf document.findings).results.diagnostics = document.findings := rfl
  exact (isPrefix_shownLines_iff report).mp (hrun ▸ hpre) finding hfinding hbreak

end FormsAudit.Console
