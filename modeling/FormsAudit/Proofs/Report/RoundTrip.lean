import FormsAudit.Proofs.Json.RoundTrip
import FormsAudit.Proofs.Report.Uuid
import FormsAudit.Proofs.Time.RoundTrip
import FormsAudit.Report.OfRun

/-!
# Logs that have been written

The text of a log is read as the log.  A part of a log is recovered if what is read of the value
that it is laid out as stands for that part again; the parts are put together as the log is.
-/

namespace FormsAudit.Report

open Json

/-- The part is laid out so that what the shape reads of it stands for the part. -/
def Recovered {α : Type} (shape : Shape) (toValue : α → Value) (ofValue : Value → α) (part : α) :
    Prop :=
  ∃ value, Reads shape (toValue part) value ∧ ofValue value = part

/-- A list of parts is recovered if its parts are. -/
theorem recovered_list {α : Type} {shape : Shape} {toValue : α → Value} {ofValue : Value → α}
    {parts : List α} (h : ∀ part ∈ parts, Recovered shape toValue ofValue part) :
    ∃ values, Reads (.list shape) (.list (parts.map toValue)) (.list values) ∧
      values.map ofValue = parts := by
  suffices hall : ∃ values, List.Forall₂ (Reads shape) (parts.map toValue) values ∧
      values.map ofValue = parts from
    hall.imp fun values h => ⟨reads_list h.1, h.2⟩
  induction parts with
  | nil => exact ⟨[], .nil, rfl⟩
  | cons part parts ih =>
    obtain ⟨value, hreads, hvalue⟩ := h part List.mem_cons_self
    obtain ⟨values, hall, hvalues⟩ := ih fun other hother => h other (List.mem_cons_of_mem _ hother)
    exact ⟨value :: values, .cons hreads hall, by rw [List.map_cons, hvalue, hvalues]⟩

/-! ## Scalars -/

theorem Severity.ofLevel?_level (severity : Severity) :
    Severity.ofLevel? severity.level = some severity := by
  cases severity <;> rfl

theorem reads_level (severity : Severity) :
    Reads levelShape (.text severity.level) (.text severity.level) :=
  reads_choice (by cases severity <;> decide)

theorem levelOf_level (severity : Severity) : levelOf (.text severity.level) = severity := by
  rw [levelOf, Value.asText, Severity.ofLevel?_level, Option.getD_some]

theorem reads_word (n : UInt32) : Reads wordShape (natural n) (natural n) :=
  reads_natural n.toNat_lt (by decide)

theorem wordOf_natural (n : UInt32) : wordOf (natural n) = n := by
  simp [wordOf, natural, Value.asNatural]

theorem reads_message (text : String) :
    Reads messageShape (messageValue text) (messageValue text) :=
  reads_record (.present (reads_anyText text) .nil) (by simp)

theorem reads_uuid (uuid : Uuid) : Reads uuidShape (.text uuid.toText) (.text uuid.toText) :=
  reads_text (by rw [Uuid.parse_toText])

theorem uuidOf_toText (uuid : Uuid) : uuidOf (.text uuid.toText) = uuid := by
  rw [uuidOf, Value.asText, Uuid.parse_toText]
  rfl

theorem reads_time {time : Timestamp} (h : Timestamp.parse time.toText = .ok time) :
    Reads timeShape (.text time.toText) (.text time.toText) :=
  reads_text (by rw [h])

theorem timeOf_toText {time : Timestamp} (h : Timestamp.parse time.toText = .ok time) :
    timeOf (.text time.toText) = time := by
  rw [timeOf, Value.asText, h]
  rfl

/-! ## Optional fields -/

/-- The value of an optional field once it is read: null where the field is left out. -/
def optionValue {α : Type} (write : α → Value) : Option α → Value
  | none => .null
  | some value => write value

/-- A field that is written only if there is a value for it. -/
theorem readsFields_optional {α : Type} {name : String} {shape : Shape} {write : α → Value}
    {fields : List (String × Shape × Option Value)} {others values : List (String × Value)}
    (h : ∀ value, Reads shape (write value) (write value)) (value : Option α)
    (hothers : ReadsFields fields others values) :
    ReadsFields ((name, .option shape, some .null) :: fields)
      (optionalField name write value ++ others) ((name, optionValue write value) :: values) := by
  cases value with
  | none => exact .absent hothers
  | some value => exact .present (h value).option hothers

theorem readsFields_optional_last {α : Type} {name : String} {shape : Shape} {write : α → Value}
    (h : ∀ value, Reads shape (write value) (write value)) (value : Option α) :
    ReadsFields [(name, .option shape, some .null)] (optionalField name write value)
      [(name, optionValue write value)] := by
  simpa only [List.append_nil] using readsFields_optional h value .nil

theorem map_asText_optionValue (text : Option String) :
    (optionValue .text text).asOption.map Value.asText = text := by
  cases text <;> rfl

theorem map_wordOf_optionValue (n : Option UInt32) :
    (optionValue natural n).asOption.map wordOf = n := by
  cases n with
  | none => rfl
  | some n => exact congrArg some (wordOf_natural n)

/-! ## Records -/

theorem RuleEntry.recovered (rule : RuleEntry) :
    Recovered ruleShape RuleEntry.toValue RuleEntry.ofValue rule := by
  refine ⟨_, reads_record
    (.present (reads_anyText rule.id) (.present (reads_anyText rule.name)
      (.present (reads_message rule.shortDescription)
        (.present (reads_message rule.fullDescription)
          (readsFields_optional reads_anyText rule.helpUri
            (.present (reads_record (.present (reads_level rule.level) .nil) ?_) .nil)))))) ?_, ?_⟩
  · decide
  · decide
  · simp [RuleEntry.ofValue, Value.field, List.lookup_cons, Value.asText, messageValue,
      map_asText_optionValue, levelOf_level]

theorem Tool.recovered (tool : Tool) : Recovered toolShape Tool.toValue Tool.ofValue tool := by
  obtain ⟨rules, hrules, hvalues⟩ := recovered_list fun rule (_ : rule ∈ tool.rules) =>
    rule.recovered
  refine ⟨_, reads_record
    (.present (reads_record
      (.present (reads_anyText tool.name) (.present (reads_anyText tool.version)
        (readsFields_optional reads_anyText tool.informationUri (.present hrules .nil)))) ?_)
      .nil) ?_, ?_⟩
  · decide
  · decide
  · simp [Tool.ofValue, Value.field, List.lookup_cons, Value.asText, Value.items,
      map_asText_optionValue, hvalues]

theorem Region.recovered (region : Region) :
    Recovered regionShape Region.toValue Region.ofValue region := by
  refine ⟨_, reads_record
    (.present (reads_record
      (.present (reads_record (.present (reads_anyText region.uri) .nil) ?_)
        (.present (reads_record
          (.present (reads_word region.startLine) (.present (reads_word region.startColumn)
            (readsFields_optional_last reads_word region.endColumn))) ?_) .nil)) ?_)
      .nil) ?_, ?_⟩
  · decide
  · decide
  · decide
  · decide
  · simp [Region.ofValue, Value.field, List.lookup_cons, Value.asText, wordOf_natural,
      map_wordOf_optionValue]

theorem Entry.recovered (entry : Entry) :
    Recovered entryShape Entry.toValue Entry.ofValue entry := by
  obtain ⟨regions, hregions, hvalues⟩ := recovered_list fun region (_ : region ∈ entry.locations) =>
    region.recovered
  refine ⟨_, reads_record
    (.present (reads_anyText entry.ruleId) (.present (reads_level entry.level)
      (.present (reads_message entry.message) (.present hregions .nil)))) ?_, ?_⟩
  · decide
  · simp [Entry.ofValue, Value.field, List.lookup_cons, Value.asText, Value.items, messageValue,
      levelOf_level, hvalues]

/-- Whether the texts of both times are read as the times. -/
def Invocation.Timed (invocation : Invocation) : Prop :=
  Timestamp.parse invocation.started.toText = .ok invocation.started ∧
    Timestamp.parse invocation.finished.toText = .ok invocation.finished

theorem Invocation.recovered {invocation : Invocation} (h : invocation.Timed) :
    Recovered invocationShape Invocation.toValue Invocation.ofValue invocation := by
  refine ⟨_, reads_record
    (.present (reads_boolean invocation.successful) (.present (reads_time h.1)
      (.present (reads_time h.2) .nil))) ?_, ?_⟩
  · decide
  · simp [Invocation.ofValue, Value.field, List.lookup_cons, Value.asBoolean, timeOf_toText h.1,
      timeOf_toText h.2]

theorem LoggedRun.recovered {run : LoggedRun}
    (h : ∀ invocation ∈ run.invocations, invocation.Timed) :
    Recovered runShape LoggedRun.toValue LoggedRun.ofValue run := by
  obtain ⟨tool, htool, htoolValue⟩ := run.tool.recovered
  obtain ⟨invocations, hinvocations, hinvocationValues⟩ :=
    recovered_list fun invocation hmem => Invocation.recovered (h invocation hmem)
  obtain ⟨results, hresults, hresultValues⟩ := recovered_list fun entry (_ : entry ∈ run.results) =>
    entry.recovered
  refine ⟨_, reads_record
    (.present htool
      (.present (reads_record (.present (reads_uuid run.guid) .nil) ?_)
        (.present hinvocations (.present hresults .nil)))) ?_, ?_⟩
  · decide
  · decide
  · simp [LoggedRun.ofValue, Value.field, List.lookup_cons, Value.items, uuidOf_toText, htoolValue,
      hinvocationValues, hresultValues]

/-- **The text of a log is read as the log.** -/
theorem Log.parse_toText {log : Log}
    (h : ∀ run ∈ log.runs, ∀ invocation ∈ run.invocations, invocation.Timed) :
    Log.parse log.toText = .ok log := by
  obtain ⟨runs, hruns, hvalues⟩ := recovered_list fun run hrun => LoggedRun.recovered (h run hrun)
  have hreads : Reads Log.shape log.toValue
      (.record [("$schema", .text log.schema), ("version", .text log.version),
        ("runs", .list runs)]) :=
    reads_record (.present (reads_anyText log.schema) (.present (reads_anyText log.version)
      (.present hruns .nil))) (by decide)
  rw [Log.parse, Log.toText, hreads.parse_render]
  simp [Except.map, Log.ofValue, Value.field, List.lookup_cons, Value.asText, Value.items, hvalues]

end FormsAudit.Report
