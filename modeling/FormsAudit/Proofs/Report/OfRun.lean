import FormsAudit.Proofs.Report.RoundTrip

/-!
# What the report of a run tells

The report of a run has one entry for each finding, in the same order, and the entry tells all there
is to know about the finding.  So the text of the entries, wherever it stands, tells the findings.
-/

namespace FormsAudit

theorem Rule.ofId?_id (rule : Rule) : Rule.ofId? rule.id = some rule := by
  cases rule <;> decide

/-- No two rules have one identifier. -/
theorem Rule.id_injective : Function.Injective Rule.id := fun rule other h =>
  Option.some.inj (by rw [← ofId?_id rule, ← ofId?_id other, h])

/-- A tool describes the rules whose findings it can report. -/
theorem RuleSet.isSome_describe? {set : RuleSet} {rule : Rule} (h : rule ∈ set.emitted) :
    (set.describe? rule).isSome = true := by
  revert rule
  cases set <;> decide

namespace Report

open Json

/-- The entry tells the finding: its rule, how grave it is, its words and where it lies. -/
structure Tells (entry : Entry) (diagnostic : Diagnostic) : Prop where
  ruleId : entry.ruleId = diagnostic.rule.id
  level : entry.level = diagnostic.severity
  message : entry.message = diagnostic.message
  locations : ∃ region, entry.locations = [region] ∧ region.uri = diagnostic.location.file ∧
    region.startLine = diagnostic.location.line ∧
    region.startColumn = diagnostic.location.startColumn ∧
    region.endColumn = diagnostic.location.endColumn

theorem tells_ofDiagnostic (diagnostic : Diagnostic) :
    Tells (Entry.ofDiagnostic diagnostic) diagnostic :=
  ⟨rfl, rfl, rfl, _, rfl, rfl, rfl, rfl, rfl⟩

theorem forall₂_tells (diagnostics : List Diagnostic) :
    List.Forall₂ Tells (diagnostics.map Entry.ofDiagnostic) diagnostics := by
  rw [List.forall₂_map_left_iff, List.forall₂_same]
  exact fun diagnostic _ => tells_ofDiagnostic diagnostic

/-- An entry tells one finding only. -/
theorem Tells.unique {entry : Entry} {diagnostic other : Diagnostic} (h : Tells entry diagnostic)
    (hother : Tells entry other) : diagnostic = other := by
  obtain ⟨rule, message, severity, file, line, startColumn, endColumn⟩ := diagnostic
  obtain ⟨rule', message', severity', file', line', startColumn', endColumn'⟩ := other
  obtain ⟨hrule, hlevel, hmessage, region, hregion, hplace⟩ := h
  obtain ⟨hrule', hlevel', hmessage', region', hregion', hplace'⟩ := hother
  obtain rfl : region = region' := by simpa using hregion.symm.trans hregion'
  have hid := Rule.id_injective (hrule.symm.trans hrule')
  simp_all

theorem ofDiagnostic_injective : Function.Injective Entry.ofDiagnostic :=
  fun diagnostic other h => (tells_ofDiagnostic diagnostic).unique (h ▸ tells_ofDiagnostic other)

/-- The text of the entries of a run, as it stands in the text of a log. -/
def LoggedRun.resultsText (run : LoggedRun) : List Char :=
  (Value.list (run.results.map Entry.toValue)).renderAt 3

/-- The text of the entries stands in the text of the log. -/
theorem resultsText_infix_toText {log : Log} {run : LoggedRun} (h : run ∈ log.runs) :
    run.resultsText <:+: log.toText.toList := by
  have hresults : ("results", Value.list (run.results.map Entry.toValue)) ∈
      [("tool", run.tool.toValue),
        ("automationDetails", .record [("guid", .text run.guid.toText)]),
        ("invocations", .list (run.invocations.map Invocation.toValue)),
        ("results", .list (run.results.map Entry.toValue))] := by simp
  have hruns : ("runs", Value.list (log.runs.map LoggedRun.toValue)) ∈
      [("$schema", .text log.schema), ("version", .text log.version),
        ("runs", .list (log.runs.map LoggedRun.toValue))] := by simp
  rw [Log.toText, Value.render, String.toList_ofList]
  exact (renderAt_infix_record hresults 2).trans
    ((renderAt_infix_list (List.mem_map_of_mem h) 1).trans (renderAt_infix_record hruns 0))

/-- Entries whose texts are the same are the same. -/
theorem results_eq_of_resultsText_eq {run other : LoggedRun}
    (h : run.resultsText = other.resultsText) : run.results = other.results := by
  obtain ⟨values, hreads, hvalues⟩ := recovered_list fun entry (_ : entry ∈ run.results) =>
    entry.recovered
  obtain ⟨values', hreads', hvalues'⟩ := recovered_list fun entry (_ : entry ∈ other.results) =>
    entry.recovered
  obtain rfl : values = values' := by simpa using hreads.value_inj hreads' h
  exact hvalues.symm.trans hvalues'

/-- The one run of the log of a run, and its entries. -/
theorem exists_logged_of_ofRun {run : Run} {guid : Uuid} {log : Log}
    (h : Log.ofRun run guid = .ok log) : ∃ logged, log.runs = [logged] ∧
      logged.results = run.results.diagnostics.map Entry.ofDiagnostic ∧
      logged.invocations = [⟨run.results.unreadableFiles = 0, run.started, run.finished⟩] ∧
      logged.tool.informationUri = none ∧
      logged.tool.rules = run.ruleSet.registry.map RuleEntry.ofDescriptor := by
  unfold Log.ofRun at h
  split at h
  · cases h
  · cases h
    exact ⟨_, rfl, rfl, rfl, rfl, rfl⟩

/-- The log of a run exists if the tool describes the rules of all findings. -/
theorem exists_ofRun_eq_ok {run : Run} (guid : Uuid)
    (h : ∀ diagnostic ∈ run.results.diagnostics, diagnostic.rule ∈ run.ruleSet.emitted) :
    ∃ log, Log.ofRun run guid = .ok log := by
  have hnone : strayDiagnostic? run = none := by
    rw [strayDiagnostic?, List.find?_eq_none]
    intro diagnostic hmem
    simpa [Option.isSome_iff_ne_none] using RuleSet.isSome_describe? (h diagnostic hmem)
  rw [Log.ofRun, hnone]
  exact ⟨_, rfl⟩

/-- **The text of a report is read as the report, and tells the findings of the run.**  The entries
are the findings, one by one and in order; what is optional is absent where it was absent; and the
part of the text that the entries are is that of no run with other findings.  Of the times it is
only asked that their own texts are read as the times. -/
theorem parse_toText_ofRun (run : Run) (guid : Uuid)
    (hemitted : ∀ diagnostic ∈ run.results.diagnostics, diagnostic.rule ∈ run.ruleSet.emitted)
    (hstarted : Timestamp.parse run.started.toText = .ok run.started)
    (hfinished : Timestamp.parse run.finished.toText = .ok run.finished) :
    ∃ log logged, Log.ofRun run guid = .ok log ∧ log.runs = [logged] ∧
      Log.parse log.toText = .ok log ∧
      List.Forall₂ Tells logged.results run.results.diagnostics ∧
      logged.tool.informationUri = none ∧
      logged.tool.rules.map RuleEntry.helpUri =
        run.ruleSet.registry.map RuleDescriptor.helpUri ∧
      logged.resultsText <:+: log.toText.toList ∧
      ∀ other otherGuid otherLog otherLogged, Log.ofRun other otherGuid = .ok otherLog →
        otherLog.runs = [otherLogged] → logged.resultsText = otherLogged.resultsText →
        run.results.diagnostics = other.results.diagnostics := by
  obtain ⟨log, hlog⟩ := exists_ofRun_eq_ok guid hemitted
  obtain ⟨logged, hruns, hresults, hinvocations, huri, hrules⟩ := exists_logged_of_ofRun hlog
  refine ⟨log, logged, hlog, hruns, Log.parse_toText ?_, hresults ▸ forall₂_tells _, huri, ?_,
    resultsText_infix_toText (by simp [hruns]), ?_⟩
  · simp only [hruns, List.mem_singleton, forall_eq, hinvocations]
    exact ⟨hstarted, hfinished⟩
  · rw [hrules, List.map_map]
    rfl
  · intro other otherGuid otherLog otherLogged hother hotherRuns htext
    obtain ⟨logged', hruns', hresults', -⟩ := exists_logged_of_ofRun hother
    obtain rfl : logged' = otherLogged := by simpa using hruns'.symm.trans hotherRuns
    have hsame := results_eq_of_resultsText_eq htext
    rw [hresults, hresults'] at hsame
    exact List.map_injective_iff.mpr ofDiagnostic_injective hsame

/-- A run with a finding whose words hold all that has to be escaped and a character beyond the
sixteen-bit ones, at a place without an end, and one of another severity at a place with one. -/
theorem parse_toText_ofRun_escaped :
    let hard : Diagnostic :=
      ⟨.missingScriptFile, "\"\\/\x00\x1f\n\t\r\x7féЖ😀", .error, ⟨"Rule/\"ü\\.xml", 2, 6, none⟩⟩
    let plain : Diagnostic := ⟨.notWellFormed, "", .note, ⟨"", 0, 4294967295, some 0⟩⟩
    let run : Run :=
      ⟨.scan, [], 0, ⟨1, 0, 1, 0, 0, .zero, [], [hard, plain]⟩, ⟨951782400, 0⟩,
        ⟨1483228799, 1500000000⟩⟩
    ∃ log logged, Log.ofRun run nilUuid = .ok log ∧ log.runs = [logged] ∧
      Log.parse log.toText = .ok log ∧ List.Forall₂ Tells logged.results [hard, plain] := by
  intro hard plain run
  obtain ⟨log, logged, hlog, hruns, hparse, htells, -⟩ := parse_toText_ofRun run nilUuid
    (by decide) (Timestamp.parse_toText ⟨by decide, by decide, by decide⟩)
    (Timestamp.parse_toText ⟨by decide, by decide, by decide⟩)
  exact ⟨log, logged, hlog, hruns, hparse, htells⟩

end Report

end FormsAudit
