import FormsAudit.Proofs.Document.History
import FormsAudit.Proofs.Fallible
import FormsAudit.Proofs.Markup.Position
import FormsAudit.Proofs.Text.Utf8

/-!
# The findings of an audit

What an audit reports is said here without any state.  `tokenFindings` reads the findings of a token
off its own bytes and the tokens before it, and `verdict?` is the one failure that ends the
document.

* `audit_eq`: an audit gives the findings of the accepted tokens in order and then the verdict.
* `audit_eq_findings`: for a source that does not fail, when there is a verdict and where the
  findings lie.

The attributes of a tag are looked up by the text of their keys.  For the script attributes that is
the same as to look for a key of these bytes (`lookup_of_checkTag`), since their names are ASCII.
-/

namespace FormsAudit.Document

open Markup

/-! ## The value of an attribute -/

section

variable [WideDecoders]

/-- The text that the bytes of a value stand for, with its references replaced.  It is empty where
they stand for none. -/
def valueText (encoding : Encoding) (value : List UInt8) : String :=
  match (encoding.decode? value).map expand with
  | some (.ok text) => String.ofList text
  | _ => ""

/-- The value of the attribute `name` in a tag. -/
def attributeValue? (encoding : Encoding) (raw : List UInt8) (name : String) : Option String :=
  ((attributes raw).1.find? (·.key == name.toUTF8.toList)).map fun item =>
    valueText encoding item.value

theorem decodeAt_eq_ok_iff {encoding : Encoding} {start : Nat} {raw : List UInt8}
    {text : List Char} :
    decodeAt encoding start raw = .ok text ↔ encoding.decode? raw = some text := by
  unfold decodeAt
  cases encoding.decode? raw <;> simp

theorem expand_of_expandAt {encoding : Encoding} {tokenStart start : Nat}
    {text expanded : List Char} (h : expandAt encoding tokenStart start text = .ok expanded) :
    expand text = .ok expanded := by
  unfold expandAt at h
  split at h
  · cases h
  · rename_i found hexpand
    suffices hfound : found = expanded by rw [hexpand, hfound]
    split at h
    · split at h
      · cases h
      · exact Except.ok.inj h
    · exact Except.ok.inj h

/-- Attributes that pass are given under the text of their keys, with the text of their values. -/
theorem eq_map_of_expandAttributes {encoding : Encoding} {start : Nat} {items : List Attribute}
    {values : List QuotedValue} {found : List (String × String)}
    (h : expandAttributes encoding start items values = .ok found) :
    found = items.map fun item =>
      (String.ofList (Utf8.decodeLossy item.key), valueText encoding item.value) := by
  induction items generalizing values found with
  | nil => exact (Except.ok.inj h).symm
  | cons item items ih =>
    simp only [expandAttributes, bind_eq_ok_iff, decodeAt_eq_ok_iff] at h
    obtain ⟨text, htext, value, hvalue, others, hothers, hfound⟩ := h
    have hitem : valueText encoding item.value = String.ofList value := by
      simp [valueText, htext, expand_of_expandAt hvalue]
    rw [← Except.ok.inj hfound, ih hothers, List.map_cons, hitem]

/-- A tag passes when its characters do, no value has a `<` in it, and its attributes are whole. -/
theorem checkTag_eq_ok_iff {encoding : Encoding} {start : Nat} {raw : List UInt8}
    {found : List (String × String)} :
    checkTag encoding start raw = .ok found ↔
      (∃ text, encoding.decode? raw = some text ∧ checkLegal encoding (start + 1) text = .ok ()) ∧
        lessThanInValue? (quotedValues raw) = none ∧ (attributes raw).2 = none ∧
          expandAttributes encoding start (attributes raw).1 (quotedValues raw) = .ok found := by
  simp only [checkTag, bind_eq_ok_iff, decodeAt_eq_ok_iff]
  constructor
  · rintro ⟨text, hread, ⟨⟩, hlegal, h⟩
    split at h
    · cases h
    rename_i hvalues
    obtain ⟨expanded, hexpanded, h⟩ := bind_eq_ok_iff.mp h
    split at h
    · cases h
    rename_i hwhole
    obtain rfl := Except.ok.inj h
    exact ⟨⟨text, hread, hlegal⟩, hvalues, hwhole, hexpanded⟩
  · rintro ⟨⟨text, hread, hlegal⟩, hvalues, hwhole, hexpanded⟩
    refine ⟨text, hread, (), hlegal, ?_⟩
    simp only [hvalues, hwhole, hexpanded]
    rfl

/-- A tag that passes gives all its attributes. -/
theorem eq_map_of_checkTag {encoding : Encoding} {start : Nat} {raw : List UInt8}
    {found : List (String × String)} (h : checkTag encoding start raw = .ok found) :
    found = (attributes raw).1.map fun item =>
      (String.ofList (Utf8.decodeLossy item.key), valueText encoding item.value) := by
  obtain ⟨-, -, -, hexpanded⟩ := checkTag_eq_ok_iff.mp h
  exact eq_map_of_expandAttributes hexpanded

omit [WideDecoders] in
theorem isPlain_scriptAttributes :
    ∀ name ∈ scriptAttributes, (∀ c ∈ name.toList, Utf8.isPlain c = true) ∧
      name.toList.map Utf8.plainByte = name.toUTF8.toList := by
  have hall : scriptAttributes.all (fun name => name.toList.all Utf8.isPlain &&
      decide (name.toList.map Utf8.plainByte = name.toUTF8.toList)) = true := by
    decide +kernel
  simpa only [List.all_eq_true, Bool.and_eq_true, decide_eq_true_eq] using hall

/-- Among the attributes of a tag that passes, a script attribute is found by its bytes. -/
theorem lookup_of_checkTag {encoding : Encoding} {start : Nat} {raw : List UInt8}
    {found : List (String × String)} (h : checkTag encoding start raw = .ok found)
    {name : String} (hname : name ∈ scriptAttributes) :
    found.lookup name = attributeValue? encoding raw name := by
  obtain ⟨hplain, hbytes⟩ := isPlain_scriptAttributes name hname
  rw [eq_map_of_checkTag h, attributeValue?]
  induction (attributes raw).1 with
  | nil => rfl
  | cons item items ih =>
    have hkey : (name == String.ofList (Utf8.decodeLossy item.key)) =
        (item.key == name.toUTF8.toList) := by
      rw [Bool.eq_iff_iff, beq_iff_eq, beq_iff_eq, ← hbytes, ← Utf8.decodeLossy_eq_iff hplain,
        ← String.toList_inj, String.toList_ofList]
      exact eq_comm
    rw [List.map_cons, List.lookup_cons, List.find?_cons, hkey]
    cases item.key == name.toUTF8.toList
    · exact ih
    · rfl

/-! ## The findings of a token -/

/-- What is wrong with a script attribute of the given value. -/
def scriptFindings (index : ScriptIndex) (location : Location) (name : String) :
    Option String → List Diagnostic
  | none => [.missingScriptAttribute location name]
  | some value =>
    match index.resolve value with
    | .missing => [.missingScriptFile location name value]
    | .casingMismatch canonical => [.inconsistentScriptCasing location name value canonical]
    | .found => []

/-- The findings of a token that comes after `before`: those of its script attributes, if it begins
an application in a document of that type. -/
def tokenFindings (index : ScriptIndex) (locate : Nat → Location) (signature : Encoding)
    (before : List Token) (token : Token) : List Diagnostic :=
  match token.event with
  | .startTag raw | .emptyTag raw =>
    if declaresApplication before ∧ tagName raw = applicationName.toUTF8.toList then
      scriptAttributes.flatMap fun name =>
        scriptFindings index (locate token.start) name
          (attributeValue? (encodingOf signature before token) raw name)
    else []
  | _ => []

/-- The findings of the tokens that come after `before`, in order. -/
def findingsAfter (index : ScriptIndex) (locate : Nat → Location) (signature : Encoding)
    (before : List Token) : List Token → List Diagnostic
  | [] => []
  | token :: rest =>
    tokenFindings index locate signature before token ++
      findingsAfter index locate signature (before ++ [token]) rest

/-- The findings of a token are those of script attributes, located at its start. -/
theorem exists_of_mem_tokenFindings {index : ScriptIndex} {locate : Nat → Location}
    {signature : Encoding} {before : List Token} {token : Token} {finding : Diagnostic}
    (h : finding ∈ tokenFindings index locate signature before token) :
    ∃ name ∈ scriptAttributes, ∃ value,
      finding ∈ scriptFindings index (locate token.start) name value := by
  obtain ⟨start, stop, event⟩ := token
  cases event with
  | startTag raw | emptyTag raw =>
    simp only [tokenFindings] at h
    split at h
    · obtain ⟨name, hname, hfinding⟩ := List.mem_flatMap.mp h
      exact ⟨name, hname, _, hfinding⟩
    · cases h
  | _ => cases h

theorem exists_of_mem_findingsAfter {index : ScriptIndex} {locate : Nat → Location}
    {signature : Encoding} {before tokens : List Token} {finding : Diagnostic}
    (h : finding ∈ findingsAfter index locate signature before tokens) :
    ∃ offset, ∃ name ∈ scriptAttributes, ∃ value,
      finding ∈ scriptFindings index (locate offset) name value := by
  induction tokens generalizing before with
  | nil => cases h
  | cons token rest ih =>
    rcases List.mem_append.mp h with htoken | hrest
    · exact ⟨token.start, exists_of_mem_tokenFindings htoken⟩
    · exact ih hrest

omit [WideDecoders] in
theorem attributeFindings_eq (index : ScriptIndex) (location : Location)
    (found : List (String × String)) (name : String) :
    attributeFindings index location found name =
      scriptFindings index location name (found.lookup name) := by
  unfold attributeFindings scriptFindings
  cases found.lookup name <;> rfl

theorem elementFindings_eq_tokenFindings {index : ScriptIndex} {locate : Nat → Location}
    {signature : Encoding} {before : List Token} {token : Token}
    {found : List (String × String)}
    (hcheck : checkContent (encodingOf signature before token) token = .ok found) :
    ((element? token found).map
        (elementFindings index locate (State.ofTokens signature (before ++ [token])))).getD [] =
      tokenFindings index locate signature before token := by
  -- the two kinds of tags have the same element and the same findings
  have htag : ∀ raw, checkTag (encodingOf signature before token) token.start raw = .ok found →
      (declaresApplication (before ++ [token]) = declaresApplication before) →
      elementFindings index locate (State.ofTokens signature (before ++ [token]))
          ⟨token.start, tagName raw, found⟩ =
        if declaresApplication before ∧ tagName raw = applicationName.toUTF8.toList then
          scriptAttributes.flatMap fun name =>
            scriptFindings index (locate token.start) name
              (attributeValue? (encodingOf signature before token) raw name)
        else [] := by
    intro raw htag hdeclares
    simp only [elementFindings, State.ofTokens, hdeclares, Bool.and_eq_true, beq_iff_eq]
    split
    · refine List.flatMap_congr fun name hname => ?_
      rw [attributeFindings_eq, lookup_of_checkTag htag hname]
    · rfl
  obtain ⟨start, stop, event⟩ := token
  cases event with
  | startTag raw => exact htag raw hcheck (by simp [namesApplication])
  | emptyTag raw => exact htag raw hcheck (by simp [namesApplication])
  | _ => rfl

/-! ## The findings of a document -/

/-- An audit goes through the accepted tokens and stops at the first that is rejected. -/
theorem auditTokens_ofTokens (index : ScriptIndex) (locate : Nat → Location)
    (signature : Encoding) (before tokens : List Token) :
    auditTokens index locate (State.ofTokens signature before) tokens =
      (findingsAfter index locate signature before (acceptedAfter signature before tokens),
        match firstRejection? signature before tokens with
        | some failure => .error failure
        | none => .ok (State.ofTokens signature (before ++ tokens))) := by
  induction tokens generalizing before with
  | nil => simp [auditTokens, acceptedAfter, findingsAfter, firstRejection?]
  | cons token rest ih =>
    unfold auditTokens acceptedAfter firstRejection?
    cases hrejection : rejection? signature before token with
    | some failure =>
      unfold rejection? at hrejection
      split at hrejection
      · rename_i other haccept
        obtain rfl := Option.some.inj hrejection
        rw [haccept]
        rfl
      · cases hrejection
    | none =>
      obtain ⟨-, found, hcheck, haccept⟩ := accept_of_rejection?_eq_none hrejection
      simp only [haccept, ih, elementFindings_eq_tokenFindings hcheck]
      simp [findingsAfter]

/-- The failure that ends the document of a reading, if any: that of the first token that is
rejected, else what the end of the tokens means. -/
def verdict? (signature : Encoding) (reading : Reading) : Except SystemError (Option Failure) :=
  match firstRejection? signature [] reading.tokens with
  | some failure => .ok (some failure)
  | none => endingFailure (State.ofTokens signature reading.tokens) reading.ending

/-- **An audit gives the findings of the accepted tokens, and the verdict after them.** -/
theorem audit_eq (file : String) (source : Source) (index : ScriptIndex) :
    audit file source index =
      (verdict? source.signature.encoding source.tokens).map fun verdict =>
        findingsAfter index (locationIn file (.ofSource source)) source.signature.encoding []
            (acceptedAfter source.signature.encoding [] source.tokens.tokens) ++
          verdict.toList.map (Failure.diagnostic (locationIn file (.ofSource source))) := by
  unfold audit verdict?
  simp only [← ofTokens_nil, auditTokens_ofTokens]
  cases firstRejection? source.signature.encoding [] source.tokens.tokens with
  | some failure => rfl
  | none =>
    simp only [List.nil_append]
    cases endingFailure (State.ofTokens source.signature.encoding source.tokens.tokens)
        source.tokens.ending with
    | error error => rfl
    | ok verdict => cases verdict <;> simp [Except.map]

/-- What an audit reports is wrong with a script attribute or is the verdict. -/
theorem exists_of_mem_audit {file : String} {source : Source} {index : ScriptIndex}
    {diagnostics : List Diagnostic} {finding : Diagnostic}
    (haudit : audit file source index = .ok diagnostics) (h : finding ∈ diagnostics) :
    (∃ offset, ∃ name ∈ scriptAttributes, ∃ value,
        finding ∈ scriptFindings index (locationIn file (.ofSource source) offset) name value) ∨
      ∃ failure : Failure, finding = failure.diagnostic (locationIn file (.ofSource source)) := by
  rw [audit_eq] at haudit
  obtain ⟨verdict, -, rfl⟩ := map_eq_ok_iff.mp haudit
  rcases List.mem_append.mp h with hfinding | hverdict
  · exact .inl (exists_of_mem_findingsAfter hfinding)
  · obtain ⟨failure, -, rfl⟩ := List.mem_map.mp hverdict
    exact .inr ⟨failure, rfl⟩

/-- There is a verdict if a token is rejected, by the structure or by the lexer, and if the end is
reached with an element open or without any. -/
theorem exists_verdict (signature : Encoding) {reading : Reading}
    (hending : (∃ stop, reading.ending = .complete stop) ∨
      ∃ offset reason, reading.ending = .rejected offset reason) :
    ∃ verdict, verdict? signature reading = .ok verdict ∧
      (verdict.isSome ↔
        acceptedAfter signature [] reading.tokens ≠ reading.tokens ∨
          (∃ offset reason, reading.ending = .rejected offset reason) ∨
          ∃ stop, reading.ending = .complete stop ∧
            (openAfter reading.tokens ≠ [] ∨ hasTag reading.tokens = false)) := by
  unfold verdict?
  rcases firstRejection?_spec signature [] reading.tokens with
    ⟨hnone, hall⟩ | ⟨token, failure, hsome, hpre, -⟩
  · rw [hnone, hall]
    rcases hending with ⟨stop, hstop⟩ | ⟨offset, reason, hrejected⟩
    · obtain ⟨hfinish, -⟩ := finish_ofTokens signature reading.tokens stop
      refine ⟨(State.ofTokens signature reading.tokens).finish stop, by rw [hstop]; rfl, ?_⟩
      rw [← Option.ne_none_iff_isSome, Ne, hfinish]
      simp [hstop, imp_iff_not_or]
    · refine ⟨_, by rw [hrejected, endingFailure], ?_⟩
      simp [hrejected]
  · refine ⟨some failure, by rw [hsome], ?_⟩
    -- the rejected token is missing from the accepted ones
    have hshort : acceptedAfter signature [] reading.tokens ≠ reading.tokens := by
      intro heq
      have hlength := hpre.length_le
      rw [heq, List.length_append, List.length_singleton] at hlength
      omega
    simp [hshort]

/-- **What the audit of a source that does not fail reports.**  The findings are those of the
accepted tokens, in order; then comes at most one failure.  A tag is located at its `<`; a byte
order mark of UTF-16 is the one thing that the lines are not told of. -/
theorem audit_eq_findings (file : String) (index : ScriptIndex) {source : Source}
    (hfailure : source.failure = none) (hreads : ∀ bytes ∈ source.reads, bytes ≠ []) :
    let signature := source.signature.encoding
    let tokens := source.tokens.tokens
    let accepted := acceptedAfter signature [] tokens
    let locate := locationIn file (.ofSource source)
    ∃ verdict : Option Failure,
      audit file source index =
          .ok (findingsAfter index locate signature [] accepted ++
            verdict.toList.map (Failure.diagnostic locate)) ∧
        (verdict.isSome ↔
          accepted ≠ tokens ∨
            (∃ offset reason, source.tokens.ending = .rejected offset reason) ∨
            ∃ stop, source.tokens.ending = .complete stop ∧
              (openAfter tokens ≠ [] ∨ hasTag tokens = false)) ∧
        ∀ token ∈ accepted, token.event.isTag →
          source.content[token.start]? = some 0x3C ∧
            (source.signature.mark ≠ 2 →
              let place := lineColumn (source.content.take token.start)
              locate token.start =
                ⟨file, LineIndex.saturate place.1, LineIndex.saturate place.2, none⟩) := by
  intro signature tokens accepted locate
  obtain ⟨verdict, hverdict, hiff⟩ :=
    exists_verdict signature (ending_of_failure_eq_none hfailure)
  refine ⟨verdict, by rw [audit_eq, hverdict]; rfl, hiff, ?_⟩
  intro token htoken htag
  have hevent : token.event.isText = false := by
    revert htag
    cases token.event <;> simp [Event.isTag, Event.isText]
  have hangle : source.content[token.start]? = some 0x3C :=
    angle_at_token_of_source (acceptedAfter_isPrefix.subset htoken) hevent
  refine ⟨hangle, ?_⟩
  intro hmark
  have hstart : token.start ≤ source.content.length :=
    (List.getElem?_eq_some_iff.mp hangle).1.le
  simp only [locate, locationIn, LineIndex.locate_ofSource hreads hmark hstart]

end

/-- A document whose one application names no script. -/
def bareApplication : Source :=
  ⟨["<!DOCTYPE Application>\n<Application/>".toUTF8.toList], none⟩

attribute [local instance] WideDecoders.asciiOnly

theorem audit_bareApplication :
    bareApplication.failure = none ∧ (∀ bytes ∈ bareApplication.reads, bytes ≠ []) ∧
      audit "Form.xml" bareApplication .empty =
        .ok (scriptAttributes.map (.missingScriptAttribute ⟨"Form.xml", 2, 1, none⟩)) := by
  have hreads : ∀ bytes ∈ bareApplication.reads, bytes ≠ [] := by decide +kernel
  have hfailure : bareApplication.failure = none := rfl
  obtain ⟨verdict, haudit, hiff, -⟩ := audit_eq_findings "Form.xml" .empty hfailure hreads
  have hending : bareApplication.tokens.ending = .complete 37 := by decide +kernel
  have haccepted : acceptedAfter .utf8 [] bareApplication.tokens.tokens =
      bareApplication.tokens.tokens := by decide +kernel
  have hclosed : openAfter bareApplication.tokens.tokens = [] := by decide +kernel
  have htag : hasTag bareApplication.tokens.tokens = true := by decide +kernel
  have hsignature : bareApplication.signature.encoding = .utf8 := by decide +kernel
  have hverdict : verdict = none := by
    rw [hsignature, haccepted, hending, hclosed, htag] at hiff
    simpa using hiff
  refine ⟨rfl, hreads, ?_⟩
  rw [haudit, hverdict]
  decide +kernel

/-- A document type with a blank of Unicode before its name. -/
def blankedDoctype : Source :=
  ⟨["<!DOCTYPE \u00A0Application><Application/>".toUTF8.toList], none⟩

/-- A document after a byte order mark of UTF-16, whose application begins the second line. -/
def markedDocument : Source :=
  ⟨[[0xFF, 0xFE] ++ "<!DOCTYPE Application> \n<Application />".toUTF8.toList], none⟩

/-- Blanks before the name of a document type are passed over: an application is asked for its
scripts although nothing stands before the first blank.  And after a byte order mark of UTF-16 the
second line is not told from the first. -/
theorem audit_blankedDoctype :
    (blankedDoctype.tokens.tokens.map (·.event) =
        [.doctype "\u00A0Application".toUTF8.toList, .emptyTag "Application".toUTF8.toList] ∧
      (Utf8.decodeLossy "\u00A0Application".toUTF8.toList).takeWhile
        (fun c => !(Unicode.isBlank c || c = '[')) = [] ∧
      audit "Form.xml" blankedDoctype .empty =
        .ok (scriptAttributes.map (.missingScriptAttribute ⟨"Form.xml", 1, 25, none⟩))) ∧
    (markedDocument.tokens.tokens.map (·.start) = [0, 22, 24] ∧
      lineColumn (markedDocument.content.take 24) = (2, 1) ∧
      audit "Form.xml" markedDocument .empty =
        .ok (scriptAttributes.map (.missingScriptAttribute ⟨"Form.xml", 1, 25, none⟩))) := by
  decide +kernel

end FormsAudit.Document
