import FormsAudit.Proofs.Document.Cutting
import FormsAudit.Proofs.Document.Truncated
import FormsAudit.Proofs.Markup.Ascending

/-!
# Diagnostics in the order of the document

What an audit reports is located at offsets that never go back (`exists_offsets_of_auditBy`).  The
findings of a token lie at its start, the tokens follow one another, and the verdict does not lie
before the token that is rejected (`FailsWith.start_le`), nor before the end of the tokens if none
is.  So the lines and columns never go back either (`audit_ascending`).

That the audit goes on while the source is read makes no difference.  Whatever lines are known when
the verdict is located, what was located before has the same place among them.
-/

namespace FormsAudit.Document

open Markup

theorem stop_le_stopOf {tokens : List Token} (h : Adjacent tokens) :
    ∀ token ∈ tokens, token.stop ≤ stopOf tokens := by
  induction tokens using List.reverseRecOn with
  | nil => simp
  | append_singleton tokens last ih =>
    obtain ⟨hadjacent, hstart, hlt⟩ := stepwise_concat.mp h
    intro token htoken
    rw [stopOf_concat]
    rcases List.mem_append.mp htoken with htoken | hlast
    · exact (ih hadjacent token htoken).trans (hstart ▸ hlt.le)
    · rw [List.mem_singleton.mp hlast]

/-! ## The offsets of findings -/

section Findings

variable {index : ScriptIndex} {signature : Encoding}

theorem location_of_mem_scriptFindings {location : Location} {name : String}
    {value : Option String} {finding : Diagnostic}
    (h : finding ∈ scriptFindings index location name value) :
    finding.location = location ∧ finding.severity = .error := by
  cases value with
  | none =>
    rw [List.mem_singleton.mp h]
    exact ⟨rfl, rfl⟩
  | some value =>
    rw [scriptFindings] at h
    split at h
    · rw [List.mem_singleton.mp h]
      exact ⟨rfl, rfl⟩
    · rw [List.mem_singleton.mp h]
      exact ⟨rfl, rfl⟩
    · cases h

variable [WideDecoders]

theorem location_of_mem_tokenFindings {place : Nat → Location} {before : List Token}
    {token : Token} {finding : Diagnostic}
    (h : finding ∈ tokenFindings index place signature before token) :
    finding.location = place token.start ∧ finding.severity = .error := by
  obtain ⟨name, -, value, hfinding⟩ := exists_of_mem_tokenFindings h
  exact location_of_mem_scriptFindings hfinding

theorem severity_of_mem_findingsAfter {place : Nat → Location} {before tokens : List Token} :
    ∀ finding ∈ findingsAfter index place signature before tokens, finding.severity = .error := by
  intro finding hfinding
  obtain ⟨offset, name, -, value, hmem⟩ := exists_of_mem_findingsAfter hfinding
  exact (location_of_mem_scriptFindings hmem).2

/-- The findings of tokens that follow one another lie at offsets that never go back. -/
theorem exists_offsets_findingsAfter (place : Nat → Location) {tokens : List Token}
    (h : Adjacent tokens) :
    ∃ offsets : List Nat,
      (findingsAfter index place signature [] tokens).map (·.location) = offsets.map place ∧
        offsets.Pairwise (· ≤ ·) ∧ ∀ offset ∈ offsets, offset ≤ stopOf tokens := by
  induction tokens using List.reverseRecOn with
  | nil => exact ⟨[], rfl, .nil, by simp⟩
  | append_singleton tokens token ih =>
    obtain ⟨hadjacent, hstart, hlt⟩ := stepwise_concat.mp h
    obtain ⟨offsets, hoffsets, hordered, hbound⟩ := ih hadjacent
    set last := tokenFindings index place signature tokens token
    have hlast : last.map (·.location) = (List.replicate last.length token.start).map place := by
      rw [List.map_replicate, List.eq_replicate_iff, List.length_map]
      refine ⟨rfl, fun location hlocation => ?_⟩
      obtain ⟨finding, hfinding, rfl⟩ := List.mem_map.mp hlocation
      exact (location_of_mem_tokenFindings hfinding).1
    refine ⟨offsets ++ List.replicate last.length token.start, ?_, ?_, ?_⟩
    · rw [findingsAfter_append, List.nil_append, List.map_append, List.map_append, hoffsets,
        ← hlast]
      simp [findingsAfter, last]
    · refine List.pairwise_append.mpr ⟨hordered, List.pairwise_replicate.mpr (.inr le_rfl), ?_⟩
      intro offset hoffset other hother
      rw [List.eq_of_mem_replicate hother, hstart]
      exact hbound offset hoffset
    · intro offset hoffset
      rw [stopOf_concat]
      rcases List.mem_append.mp hoffset with hoffset | hoffset
      · exact (hbound offset hoffset).trans (hstart ▸ hlt.le)
      · rw [List.eq_of_mem_replicate hoffset]
        exact hlt.le

end Findings

/-! ## The offset of the verdict -/

variable {source : Source}

theorem stopOf_le_content {tokens : List Token} (h : tokens <+: source.tokens.tokens) :
    stopOf tokens ≤ source.content.length := by
  rcases List.eq_nil_or_concat' tokens with rfl | ⟨before, token, rfl⟩
  · exact Nat.zero_le _
  · rw [stopOf_concat]
    exact (bounds_of_source (mem_of_concat h)).2

section

variable [WideDecoders]

/-- The verdict does not lie before the end of the tokens that are accepted. -/
theorem stopOf_le_of_verdict? {failure : Failure}
    (h : verdict? source.signature.encoding source.tokens = .ok (some failure)) :
    stopOf (acceptedAfter source.signature.encoding [] source.tokens.tokens) ≤ failure.offset := by
  rw [verdict?] at h
  rcases firstRejection?_spec source.signature.encoding [] source.tokens.tokens with
    ⟨hnone, hall⟩ | ⟨token, other, hsome, hpre, hrejection⟩
  · rw [hnone] at h
    rw [hall]
    cases hending : source.tokens.ending with
    | complete stop =>
      rw [hending] at h
      have hstop := (finish_ofTokens source.signature.encoding source.tokens.tokens stop).2
        failure (Except.ok.inj h)
      rw [hstop, (eq_length_of_complete hending).1]
      exact stopOf_le_content List.prefix_rfl
    | rejected offset reason =>
      rw [hending] at h
      cases h
      exact (rejected_between_of_source hending).1
    | unreadable error =>
      rw [hending] at h
      cases h
  · rw [hsome] at h
    obtain rfl := Option.some.inj (Except.ok.inj h)
    rw [List.nil_append] at hrejection
    obtain ⟨hstart, -⟩ := adjacent_tokens source _ token hpre
    rw [← hstart]
    rcases failsWith_of_rejection? hrejection with ⟨fault, -, rfl⟩ | ⟨-, hfails⟩
    · exact le_rfl
    · exact hfails.start_le

/-- **What is reported lies at offsets that never go back**, however offsets are located. -/
theorem exists_offsets_of_auditBy {index : ScriptIndex} {place : Nat → Location}
    {diagnostics : List Diagnostic} (h : auditBy place source index = .ok diagnostics) :
    ∃ offsets : List Nat, diagnostics.map (·.location) = offsets.map place ∧
      offsets.Pairwise (· ≤ ·) := by
  obtain ⟨verdict, hverdict, rfl⟩ := map_eq_ok_iff.mp h
  have hadjacent : Adjacent (acceptedAfter source.signature.encoding [] source.tokens.tokens) :=
    (adjacent_tokens source).of_isPrefix acceptedAfter_isPrefix
  obtain ⟨offsets, hoffsets, hordered, hbound⟩ :=
    @exists_offsets_findingsAfter index source.signature.encoding _ place _ hadjacent
  cases verdict with
  | none => exact ⟨offsets, by simpa using hoffsets, hordered⟩
  | some failure =>
    refine ⟨offsets ++ [failure.offset], ?_, ?_⟩
    · rw [List.map_append, hoffsets, List.map_append]
      rfl
    · refine List.pairwise_append.mpr ⟨hordered, List.pairwise_singleton _ _, ?_⟩
      intro offset hoffset other hother
      rw [List.mem_singleton.mp hother]
      exact (hbound offset hoffset).trans (stopOf_le_of_verdict? hverdict)

/-! ## Audits that go on while the source is read -/

/-- What is reported while the source is read is located by the lines of some first reads: those that
are known when the verdict is located. -/
theorem exists_auditWhile_eq (file : String) (index : ScriptIndex)
    (hreads : ∀ read ∈ source.reads, read ≠ []) {lines : Nat → LineIndex}
    (hlines : Tracks source lines) :
    ∃ reads, reads <+: source.reads ∧
      auditWhile file source index lines =
        auditBy (locationIn file (reads.foldl LineIndex.read .empty)) source index := by
  rcases firstRejection?_spec source.signature.encoding [] source.tokens.tokens with
    ⟨hnone, hall⟩ | ⟨last, failure, hsome, hpre, -⟩
  · refine ⟨source.reads, List.prefix_rfl, auditWhile_eq_auditBy file index ?_ ?_ ?_⟩
    · intro token htoken
      exact locationIn_start file hreads hlines (acceptedAfter_isPrefix.subset htoken) le_rfl
    · intro token hpre
      rw [hall] at hpre
      exact absurd hpre.length_le (by simp)
    · intro failure hfirst hverdict
      exact locationIn_last file hreads hlines hfirst hverdict
  · obtain ⟨reads, hprefix, -, hknown⟩ := hlines last.stop
    refine ⟨reads, hprefix, ?_⟩
    rw [← hknown]
    refine auditWhile_eq_auditBy file index ?_ ?_ ?_
    · -- the tokens before the last one have been taken with it
      intro token htoken
      have hmem := acceptedAfter_isPrefix.subset htoken
      have hle : token.stop ≤ last.stop := by
        obtain ⟨hadjacent, hstart, hlt⟩ :=
          stepwise_concat.mp ((adjacent_tokens source).of_isPrefix hpre)
        exact (stop_le_stopOf hadjacent token htoken).trans (hstart ▸ hlt.le)
      rw [locationIn_start file hreads hlines hmem le_rfl,
        locationIn_start file hreads hlines hmem hle]
    · intro token htoken failure _
      obtain rfl : token = last := concat_isPrefix_unique htoken hpre
      rfl
    · intro failure hfirst
      rw [hsome] at hfirst
      cases hfirst

/-! ## Lines and columns -/

/-- The diagnostics of a file in order. -/
structure Ascending (file : String) (diagnostics : List Diagnostic) : Prop where
  file : ∀ diagnostic ∈ diagnostics, diagnostic.location.file = file
  severity : ∀ diagnostic ∈ diagnostics, diagnostic.severity = .error
  line : ∀ diagnostic ∈ diagnostics, 1 ≤ diagnostic.location.line
  column : ∀ diagnostic ∈ diagnostics, 1 ≤ diagnostic.location.startColumn
  /-- The places never go back. -/
  order : diagnostics.Pairwise fun first second =>
    Precedes (first.location.line, first.location.startColumn)
      (second.location.line, second.location.startColumn)
  /-- A fault of form is the last that is reported. -/
  last : ∀ front diagnostic back, diagnostics = front ++ diagnostic :: back →
    diagnostic.rule = .notWellFormed → back = []

omit [WideDecoders] in
/-- Where one more follows findings that are no faults of form, a fault of form is that one. -/
theorem eq_nil_of_malformed {findings others : List Diagnostic} (hfindings : malformed findings = [])
    (hothers : others.length ≤ 1) :
    ∀ front diagnostic back, findings ++ others = front ++ diagnostic :: back →
      diagnostic.rule = .notWellFormed → back = [] := by
  intro front diagnostic back hsplit hrule
  have hnot : diagnostic ∉ findings := by
    intro hmem
    have hmalformed : diagnostic ∈ malformed findings :=
      List.mem_filter.mpr ⟨hmem, by rw [hrule]; rfl⟩
    rw [hfindings] at hmalformed
    cases hmalformed
  rcases List.append_eq_append_iff.mp hsplit with ⟨between, -, hothers'⟩ | ⟨between, rfl, hrest⟩
  · rw [hothers', List.length_append, List.length_cons] at hothers
    exact List.eq_nil_of_length_eq_zero (by omega)
  · cases between with
    | nil =>
      rw [List.nil_append] at hrest
      rw [← hrest, List.length_cons] at hothers
      exact List.eq_nil_of_length_eq_zero (by omega)
    | cons first between =>
      obtain ⟨rfl, -⟩ := List.cons.inj hrest
      simp at hnot

omit [WideDecoders] in
theorem hasTag_eq_false {tokens : List Token} (h : tokens <+: source.tokens.tokens)
    (hangle : 0x3C ∉ source.bytes) : hasTag tokens = false := by
  rw [hasTag, List.any_eq_false]
  intro token htoken htag
  have hevent : token.event.isText = false := by
    revert htag
    cases token.event <;> simp [Event.isTag, Event.isText]
  have hfound := angle_at_token_of_source (h.subset htoken) hevent
  exact hangle ((List.drop_sublist _ _).subset (List.mem_of_getElem? hfound))

/-- An audit by lines that can be counted reports in order. -/
theorem ascending_of_auditBy {file : String} {index : ScriptIndex} {lines : LineIndex}
    (hlines : 0x3C ∈ source.bytes → lines.starts.length < UInt32.size)
    {diagnostics : List Diagnostic}
    (h : auditBy (locationIn file lines) source index = .ok diagnostics) :
    Ascending file diagnostics := by
  obtain ⟨offsets, hoffsets, hordered⟩ := exists_offsets_of_auditBy h
  have hplace : ∀ diagnostic ∈ diagnostics, ∃ offset,
      diagnostic.location = locationIn file lines offset := by
    intro diagnostic hdiagnostic
    have hmem : diagnostic.location ∈ offsets.map (locationIn file lines) :=
      hoffsets ▸ List.mem_map_of_mem hdiagnostic
    obtain ⟨offset, -, hlocation⟩ := List.mem_map.mp hmem
    exact ⟨offset, hlocation.symm⟩
  obtain ⟨verdict, -, rfl⟩ := map_eq_ok_iff.mp h
  refine ⟨?_, ?_, ?_, ?_, ?_, ?_⟩
  · intro diagnostic hdiagnostic
    obtain ⟨offset, hlocation⟩ := hplace diagnostic hdiagnostic
    rw [hlocation]
    rfl
  · intro diagnostic hdiagnostic
    rcases List.mem_append.mp hdiagnostic with hfinding | hlast
    · exact severity_of_mem_findingsAfter diagnostic hfinding
    · obtain ⟨failure, -, rfl⟩ := List.mem_map.mp hlast
      rfl
  · intro diagnostic hdiagnostic
    obtain ⟨offset, hlocation⟩ := hplace diagnostic hdiagnostic
    rw [hlocation]
    exact (LineIndex.one_le_locate lines offset).1
  · intro diagnostic hdiagnostic
    obtain ⟨offset, hlocation⟩ := hplace diagnostic hdiagnostic
    rw [hlocation]
    exact (LineIndex.one_le_locate lines offset).2
  · by_cases hangle : 0x3C ∈ source.bytes
    · have hlocated : (offsets.map (locationIn file lines)).Pairwise fun first second =>
          Precedes (first.line, first.startColumn) (second.line, second.startColumn) :=
        List.pairwise_map.mpr
          (hordered.imp fun hle => LineIndex.locate_mono (hlines hangle) hle)
      rw [← hoffsets, List.pairwise_map] at hlocated
      exact hlocated
    · -- without a tag there is no finding, and one failure at most
      rw [findingsAfter_eq_nil index _ (hasTag_eq_false acceptedAfter_isPrefix hangle)]
      cases verdict <;> simp
  · exact eq_nil_of_malformed (malformed_findingsAfter index _ _ [] _) (by cases verdict <;> simp)

/-- **An audit reports in the order of the document.**  Whether it waits for the last read or not,
the places of its diagnostics never go back, and a fault of form comes last. -/
theorem audit_ascending (file : String) (index : ScriptIndex) {source : Source}
    (hreads : ∀ read ∈ source.reads, read ≠ []) (hsize : source.bytes.length < UInt32.size) :
    (∀ diagnostics, audit file source index = .ok diagnostics → Ascending file diagnostics) ∧
      ∀ lines, Tracks source lines → ∀ diagnostics,
        auditWhile file source index lines = .ok diagnostics → Ascending file diagnostics := by
  have hcount : 0x3C ∈ source.bytes → source.bytes.count 0x0A + 1 < UInt32.size := by
    intro hangle
    have hne : source.bytes.count 0x0A ≠ source.bytes.length := fun heq =>
      absurd (List.count_eq_length.mp heq 0x3C hangle) (by decide)
    have hle : source.bytes.count 0x0A ≤ source.bytes.length := List.count_le_length
    omega
  have hbound : ∀ {reads}, reads <+: source.reads → 0x3C ∈ source.bytes →
      (reads.foldl LineIndex.read .empty).starts.length < UInt32.size := by
    intro reads hpre hangle
    exact (LineIndex.length_starts_le hreads hpre).trans_lt (hcount hangle)
  constructor
  · intro diagnostics haudit
    rw [audit_eq_auditBy] at haudit
    exact ascending_of_auditBy (hbound List.prefix_rfl) haudit
  · intro lines hlines diagnostics haudit
    obtain ⟨reads, hpre, heq⟩ := exists_auditWhile_eq file index hreads hlines
    rw [heq] at haudit
    exact ascending_of_auditBy (hbound hpre) haudit

end

attribute [local instance] WideDecoders.asciiOnly

/-- Findings in the second line and a fault in the third, of a document that is read byte by byte. -/
theorem audit_ascending_markedReference :
    let source := byteByByte markedReference
    let diagnostics := scriptAttributes.map (.missingScriptAttribute ⟨"Form.xml", 2, 1, none⟩) ++
      [.notWellFormed ⟨"Form.xml", 3, 7, none⟩
        "Error while escaping character at range 0..1: Cannot find ';' after '&'"]
    (∀ read ∈ source.reads, read ≠ []) ∧ source.bytes.length < UInt32.size ∧
      auditWhile "Form.xml" source .empty source.promptLines = .ok diagnostics ∧
      Ascending "Form.xml" diagnostics := by
  intro source diagnostics
  have hreads : ∀ read ∈ source.reads, read ≠ [] := by decide +kernel
  have hsize : source.bytes.length < UInt32.size := by decide +kernel
  have haudit : auditWhile "Form.xml" source .empty source.promptLines = .ok diagnostics := by
    decide +kernel
  obtain ⟨-, hwhile⟩ := audit_ascending "Form.xml" .empty hreads hsize
  exact ⟨hreads, hsize, haudit, hwhile _ (tracks_promptLines source) _ haudit⟩

end FormsAudit.Document
