import FormsAudit.Proofs.Document.Legality
import FormsAudit.Proofs.Document.Values
import FormsAudit.Proofs.Markup.WrittenTag

/-!
# Scripts are looked up as they are meant

The name of a script stands in an attribute, where its characters may be written in several ways.
None of them matters: of an application that is written as a tag should be, the audit looks up the
name itself, and that name is what a finding tells (`audit_writtenApplication`).

On the way to the lookup the tag is cut out of the document, checked, divided into attributes, and
its values are decoded and their references replaced.  A tag that is laid out well passes all of
these (`exists_checkTag_writtenTag`).
-/

namespace FormsAudit.Document

open Markup

/-! ## The check of a tag as it is written -/

section

variable [WideDecoders]

/-- Attributes pass whose values are legal. -/
theorem exists_expandAttributes {encoding : Encoding} {start : Nat} {items : List Attribute}
    (h : ∀ item ∈ items, ∃ text, ReadsLegal encoding item.value text ∧ ReferencesLegal text)
    (values : List QuotedValue) :
    ∃ found, expandAttributes encoding start items values = .ok found := by
  induction items generalizing values with
  | nil => exact ⟨[], rfl⟩
  | cons item items ih =>
    obtain ⟨⟨text, ⟨hread, hlegal⟩, hreferences⟩, hrest⟩ := List.forall_mem_cons.mp h
    obtain ⟨others, hothers⟩ := ih hrest values.tail
    let valueStart := start + 1 + (values.head?.map (·.start)).getD 0
    obtain ⟨value, hvalue⟩ : ∃ value, expandAt encoding start valueStart text = .ok value :=
      (exists_expandAt_iff hlegal).mpr hreferences
    refine ⟨(String.ofList (Utf8.decodeLossy item.key), String.ofList value) :: others, ?_⟩
    simp only [expandAttributes, bind_eq_ok_iff, decodeAt_eq_ok_iff]
    exact ⟨text, hread, value, hvalue, others, hothers, rfl⟩

section Tag

variable {tag : WrittenTag} (h : tag.IsLaidOut)

include h

/-- **A tag that is laid out well, with legal values, passes all checks.** -/
theorem exists_checkTag_writtenTag (hvalues : ∀ entry ∈ tag.entries, entry.HasLegalValue)
    (start : Nat) : ∃ found, checkTag .utf8 start tag.content = .ok found := by
  have hlegal := h.legal hvalues
  have hread : Encoding.utf8.decode? tag.content = some tag.text := Utf8.decode?_encode tag.text
  obtain ⟨hitems, hwhole⟩ := attributes_writtenTag h fun entry hentry =>
    (hvalues entry hentry).quote_notMem
  have hless : 0x3C ∉ tag.content := by
    refine plainByte_notMem_encode (c := '<') (by decide) fun hmem => ?_
    exact (hlegal '<' hmem).2 rfl
  have hnone : lessThanInValue? (quotedValues tag.content) = none := by
    rw [lessThanInValue?_eq_none_iff]
    intro value hvalue hmem
    obtain ⟨before, mark, after, hcontent, -⟩ := exists_of_mem_quotedValues hvalue
    exact hless (by rw [hcontent]; simp [hmem])
  have hexpands : ∀ item ∈ (attributes tag.content).1,
      ∃ text, ReadsLegal .utf8 item.value text ∧ ReferencesLegal text := by
    intro item hitem
    have hmem := List.mem_map_of_mem (f := fun item : Attribute => (item.key, item.value)) hitem
    rw [hitems] at hmem
    obtain ⟨entry, hentry, heq⟩ := List.mem_map.mp hmem
    obtain ⟨-, hvalue⟩ := Prod.mk.inj heq
    refine ⟨entry.value, ⟨?_, fun c hc => ((hvalues entry hentry).clean c hc).legal⟩,
      (hvalues entry hentry).references⟩
    rw [← hvalue]
    exact Utf8.decode?_encode entry.value
  obtain ⟨found, hfound⟩ := exists_expandAttributes hexpands (quotedValues tag.content)
  refine ⟨found, checkTag_eq_ok_iff.mpr ⟨⟨tag.text, hread, ?_⟩, hnone, hwhole, hfound⟩⟩
  exact checkLegal_eq_ok_iff.mpr fun c hc => (hlegal c hc).1

/-- The value of an attribute is what is written under its key. -/
theorem attributeValue?_writtenTag (hvalues : ∀ entry ∈ tag.entries, entry.quote ∉ entry.value)
    {entry : WrittenAttribute} (hentry : entry ∈ tag.entries) {name : String}
    (hname : name ∈ scriptAttributes) (hkey : entry.key = name.toList) :
    attributeValue? .utf8 tag.content name =
      some (valueText .utf8 (Utf8.encode entry.value)) := by
  have hbytes : ∀ name ∈ scriptAttributes, name.toUTF8.toList = Utf8.encode name.toList := by
    decide +kernel
  have hvalue : attributeValue? .utf8 tag.content name =
      (((attributes tag.content).1.map fun item => (item.key, item.value)).find?
        (·.1 == Utf8.encode name.toList)).map fun item => valueText .utf8 item.2 := by
    rw [attributeValue?, hbytes name hname, List.find?_map, Option.map_map]
    rfl
  -- no attribute before has the same key
  obtain ⟨first, others, hsplit⟩ := List.append_of_mem hentry
  have hfind : tag.entries.find? (fun other => Utf8.encode other.key == Utf8.encode name.toList) =
      some entry := by
    refine List.find?_eq_some_iff_append.mpr ⟨by simp [hkey], first, others, hsplit, ?_⟩
    intro other hother
    have hkeys := h.keys
    rw [hsplit, List.map_append, List.nodup_append] at hkeys
    have hne : other.key ≠ entry.key :=
      hkeys.2.2 _ (List.mem_map_of_mem hother) _ (List.mem_map_of_mem List.mem_cons_self)
    rw [Bool.not_eq_true', beq_eq_false_iff_ne, ← hkey]
    exact fun heq => hne (Utf8.encode_injective heq)
  rw [hvalue, (attributes_writtenTag h hvalues).1, List.find?_map]
  simp only [Function.comp_def, hfind, Option.map_some]

end Tag

/-! ## The value of an attribute -/

section Value

variable {entry : WrittenAttribute} {text : List Char}
  (hlegal : ∀ c ∈ text, IsLegalCode c.toNat) (hwrites : WritesText entry.quote text entry.value)

include hlegal hwrites

omit [WideDecoders] in
theorem hasLegalValue_of_writesText (h : entry.IsLaidOut) : entry.HasLegalValue := by
  have hclean := hwrites.clean h.quote hlegal
  have hexpands := expand_eq_ok_iff.mpr (hwrites.expands hlegal)
  refine ⟨hclean, ?_⟩
  rw [← exists_expand_legal_iff fun c hc => isLegal_iff.mpr (hclean c hc).legal]
  exact ⟨text, hexpands, fun c hc => isLegal_iff.mpr (hlegal c hc)⟩

/-- **However a text is written, it is the text of the value.** -/
theorem valueText_of_writesText :
    valueText .utf8 (Utf8.encode entry.value) = String.ofList text := by
  have hread : Encoding.utf8.decode? (Utf8.encode entry.value) = some entry.value :=
    Utf8.decode?_encode entry.value
  have hexpands := expand_eq_ok_iff.mpr (hwrites.expands hlegal)
  rw [valueText, hread, Option.map_some, hexpands]

end Value

omit [WideDecoders] in
/-- What is reported of a name is nothing if the name is found, and else it tells the name. -/
theorem scriptFindings_value (index : ScriptIndex) (location : Location) (name value : String) :
    (scriptFindings index location name (some value) = [] ↔ index.resolve value = .found) ∧
      ∀ finding ∈ scriptFindings index location name (some value),
        value.toList <:+: finding.message.toList := by
  rw [scriptFindings]
  cases index.resolve value with
  | missing =>
    refine ⟨by simp, fun finding hfinding => ?_⟩
    have hmessage : finding.message =
        name ++ " references a script that does not exist: " ++ value := by
      rw [List.mem_singleton.mp hfinding]
      rfl
    rw [hmessage, String.toList_append]
    exact (List.suffix_append ..).isInfix
  | casingMismatch canonical =>
    refine ⟨by simp, fun finding hfinding => ?_⟩
    have hmessage : finding.message = name ++ " casing '" ++ value ++
        "' does not match target script's filename " ++ ("'" ++ canonical ++ "'") := by
      rw [List.mem_singleton.mp hfinding]
      rfl
    have hvalue : value.toList <:+: (name ++ " casing '" ++ value).toList := by
      rw [String.toList_append]
      exact (List.suffix_append ..).isInfix
    rw [hmessage, String.toList_append, String.toList_append]
    exact hvalue.trans ((List.prefix_append ..).trans (List.prefix_append ..)).isInfix
  | found => simp

/-! ## The application in the document -/

/-- The token of a tag that is written behind `front`. -/
def tokenOf (tag : WrittenTag) (front : List UInt8) : Token :=
  ⟨front.length, front.length + 1 + (tag.content ++ tag.ending).length, tag.event⟩

/-- Behind `front` comes a tag of a document of applications in UTF-8, and what comes before it is
accepted. -/
structure AwaitsApplication (source : Source) (front : List UInt8) (before : List Token) : Prop where
  /-- A `<` behind `front` begins markup. -/
  lexed : ∃ lexer, lex .initial (front ++ [0x3C]) = (before, .ready lexer) ∧ lexer.mode = .markup
  accepted : before <+: acceptedAfter source.signature.encoding [] source.tokens.tokens
  /-- The tag is no second root. -/
  root : openAfter before = [] → hasTag before = false
  declares : declaresApplication before = true
  encoding : encodingAfter source.signature.encoding before = .utf8

omit [WideDecoders] in
/-- Behind a `<` the lexer takes a tag as it is written for the next token. -/
theorem concat_isPrefix_tokens {tag : WrittenTag} (h : tag.IsLaidOut)
    (hvalues : ∀ entry ∈ tag.entries, entry.quote ∉ entry.value) {source : Source}
    {front back : List UInt8} {before : List Token}
    (hcontent : source.content = front ++ [0x3C] ++ (tag.content ++ (tag.ending ++ back)))
    (hfront : ∃ lexer, lex .initial (front ++ [0x3C]) = (before, .ready lexer) ∧
      lexer.mode = .markup) :
    before ++ [tokenOf tag front] <+: source.tokens.tokens := by
  obtain ⟨lexer, hfront, hmarkup⟩ := hfront
  have hread : Lexed (front ++ [0x3C]) before lexer := by
    obtain ⟨taken, final, hread, ⟨rfl, hready⟩ | ⟨byte, offset, reason, -, -, hrejected⟩⟩ :=
      Lexed.initial.lex (front ++ [0x3C])
    · rw [hfront] at hread hready
      cases hready
      simpa using hread
    · rw [hfront] at hrejected
      cases hrejected
  have hoffset : lexer.offset = front.length + 1 := by
    simpa using hread.offset_eq
  have hstart : lexer.start = front.length := by
    have hlength := hread.length_bytes
    rw [hmarkup, List.length_append] at hlength
    exact Nat.succ.inj hlength
  obtain ⟨next, hlex⟩ := lex_writtenTag h hvalues hmarkup
  have htokens : (lex .initial source.content).1 =
      before ++ tokenOf tag front :: (lex next back).1 := by
    rw [hcontent, lex_append, hfront]
    simp only [hlex, hstart, hoffset]
    rfl
  refine List.IsPrefix.trans ?_ (isPrefix_tokens_of_lex source)
  rw [htokens]
  exact ⟨(lex next back).1, by simp⟩

section Application

variable {tag : WrittenTag} {front : List UInt8}

omit [WideDecoders] in
theorem event_tokenOf :
    (tokenOf tag front).event = .startTag tag.content ∨
      (tokenOf tag front).event = .emptyTag tag.content := by
  cases hempty : tag.empty <;> simp [tokenOf, WrittenTag.event, hempty]

omit [WideDecoders] in
theorem encodingOf_tokenOf {signature : Encoding} {before : List Token}
    (h : encodingAfter signature before = .utf8) :
    encodingOf signature before (tokenOf tag front) = .utf8 := by
  rw [encodingOf, h, ite_self]

/-- A tag in the right place is rejected only because of its content. -/
theorem rejection?_tokenOf {source : Source} {before : List Token}
    (hplace : AwaitsApplication source front before) {found : List (String × String)}
    (hcheck : checkTag .utf8 front.length tag.content = .ok found) :
    rejection? source.signature.encoding before (tokenOf tag front) = none := by
  have hroot : ((openAfter before).isEmpty && hasTag before) = false := by
    cases hopened : openAfter before with
    | nil => simpa using hplace.root hopened
    | cons => rfl
  have hstart : (tokenOf tag front).start = front.length := rfl
  rw [rejection?_eq, encodingOf_tokenOf hplace.encoding]
  rcases @event_tokenOf tag front with hevent | hevent <;>
    simp only [obstacle?, checkContent, hevent, hroot, hstart, hcheck, Bool.false_eq_true, if_false]

theorem tokenFindings_tokenOf (index : ScriptIndex) (locate : Nat → Location) {source : Source}
    {before : List Token} (hplace : AwaitsApplication source front before) (htag : tag.IsLaidOut)
    (happlication : tag.name = applicationName.toList) :
    tokenFindings index locate source.signature.encoding before (tokenOf tag front) =
      scriptAttributes.flatMap fun name =>
        scriptFindings index (locate front.length) name
          (attributeValue? .utf8 tag.content name) := by
  have hname : tagName tag.content = applicationName.toUTF8.toList := by
    rw [tagName_writtenTag htag, happlication]
    decide +kernel
  rcases @event_tokenOf tag front with hevent | hevent <;>
    rw [tokenFindings, hevent] <;> dsimp only <;>
      rw [if_pos ⟨hplace.declares, hname⟩, encodingOf_tokenOf hplace.encoding] <;> rfl

end Application

/-- **A script is looked up by its own name, however that is written.**  An application that comes in
the right place, written as a tag should be, is accepted.  Of its attribute the text itself is looked
up, which gives no finding if it is found and else one that tells the text. -/
theorem audit_writtenApplication (file : String) (index : ScriptIndex) {source : Source}
    {front back : List UInt8} {before : List Token} {tag : WrittenTag} {entry : WrittenAttribute}
    {name : String} {text : List Char}
    (hcontent : source.content = front ++ [0x3C] ++ (tag.content ++ (tag.ending ++ back)))
    (hplace : AwaitsApplication source front before) (htag : tag.IsLaidOut)
    (happlication : tag.name = applicationName.toList) (hentry : entry ∈ tag.entries)
    (hothers : ∀ other ∈ tag.entries, other ≠ entry → other.HasLegalValue)
    (hname : name ∈ scriptAttributes) (hkey : entry.key = name.toList)
    (hlegal : ∀ c ∈ text, IsLegalCode c.toNat)
    (hwrites : WritesText entry.quote text entry.value) :
    let signature := source.signature.encoding
    let locate := locationIn file (.ofSource source)
    let value := String.ofList text
    let own := fun other => scriptFindings index (locate front.length) other
      (attributeValue? .utf8 tag.content other)
    before ++ [tokenOf tag front] <+: acceptedAfter signature [] source.tokens.tokens ∧
      (∃ found, checkTag .utf8 front.length tag.content = .ok found ∧
        found.lookup name = some value) ∧
      own name = scriptFindings index (locate front.length) name (some value) ∧
      (own name = [] ↔ index.resolve value = .found) ∧
      (∀ finding ∈ own name, text <:+: finding.message.toList) ∧
      (source.failure = none → ∃ diagnostics, audit file source index = .ok diagnostics) ∧
      ∀ diagnostics, audit file source index = .ok diagnostics →
        ∃ rest, diagnostics =
          findingsAfter index locate signature [] before ++ scriptAttributes.flatMap own ++ rest := by
  intro signature locate value own
  have hvalues : ∀ other ∈ tag.entries, other.HasLegalValue := by
    intro other hother
    by_cases heq : other = entry
    · rw [heq]
      exact hasLegalValue_of_writesText hlegal hwrites (htag.entries entry hentry)
    · exact hothers other hother heq
  have hquotes : ∀ other ∈ tag.entries, other.quote ∉ other.value :=
    fun other hother => (hvalues other hother).quote_notMem
  obtain ⟨found, hcheck⟩ := exists_checkTag_writtenTag htag hvalues front.length
  have hvalue : attributeValue? .utf8 tag.content name = some value := by
    rw [attributeValue?_writtenTag htag hquotes hentry hname hkey,
      valueText_of_writesText hlegal hwrites]
  have hown : own name = scriptFindings index (locate front.length) name (some value) := by
    simp only [own, hvalue]
  have haccepted : before ++ [tokenOf tag front] <+:
      acceptedAfter signature [] source.tokens.tokens := by
    have hnone := rejection?_tokenOf hplace hcheck
    rcases accepted_or_rejected (concat_isPrefix_tokens htag hquotes hcontent hplace.lexed)
      hplace.accepted with ⟨-, haccepted⟩ | ⟨failure, hsome, -⟩
    · exact haccepted
    · rw [hnone] at hsome
      cases hsome
  obtain ⟨hfound, htold⟩ := scriptFindings_value index (locate front.length) name value
  refine ⟨haccepted, ⟨found, hcheck, by rw [lookup_of_checkTag hcheck hname, hvalue]⟩, hown,
    by rw [hown, hfound], ?_, ?_, ?_⟩
  · intro finding hfinding
    rw [hown] at hfinding
    simpa [value] using htold finding hfinding
  · intro hfailure
    obtain ⟨verdict, hverdict, -⟩ := exists_verdict signature (ending_of_failure_eq_none hfailure)
    exact ⟨_, by rw [audit_eq, hverdict]; rfl⟩
  · intro diagnostics haudit
    rw [audit_eq] at haudit
    obtain ⟨verdict, -, rfl⟩ := map_eq_ok_iff.mp haudit
    obtain ⟨others, hothers⟩ := haccepted
    rw [← hothers, findingsAfter_append, findingsAfter_append]
    simp only [findingsAfter, List.nil_append, List.append_nil,
      tokenFindings_tokenOf index _ hplace htag happlication]
    exact ⟨_, List.append_assoc ..⟩

end

/-- An application whose script has an ampersand, quotes, a line feed, `>` and an acute letter. -/
def escapedApplication : WrittenTag where
  name := "Application".toList
  entries := [⟨[' '], "preScript".toList, [], ['\n'], '\'', "a&#x0026;&quot;\n>\"&#0233;".toList⟩]
  blanks := [' ']
  empty := true

attribute [local instance] WideDecoders.asciiOnly

theorem audit_writtenApplication_escaped :
    let source : Source := ⟨["<!DOCTYPE Application>".toUTF8.toList, ("<Application preScript=\n" ++
      "'a&#x0026;&quot;\n>\"&#0233;' />").toUTF8.toList], none⟩
    let script := "a&\"\n>\"\u00E9"
    let index := ScriptIndex.ofNames [script]
    let locate := locationIn "Form.xml" (.ofSource source)
    let own := fun name => scriptFindings index (locate 22) name
      (attributeValue? .utf8 escapedApplication.content name)
    (∃ found, checkTag .utf8 22 escapedApplication.content = .ok found ∧
        found.lookup "preScript" = some script) ∧
      index.resolve script = .found ∧ own "preScript" = [] ∧
      ∃ rest, audit "Form.xml" source index = .ok (scriptAttributes.flatMap own ++ rest) := by
  intro source script index locate own
  have hcontent : source.content = "<!DOCTYPE Application>".toUTF8.toList ++ [0x3C] ++
      (escapedApplication.content ++ (escapedApplication.ending ++ [])) := by
    decide +kernel
  have hlex : lex .initial ("<!DOCTYPE Application>".toUTF8.toList ++ [0x3C]) =
      ([⟨0, 22, .doctype "Application".toUTF8.toList⟩], .ready ⟨23, 22, .markup, []⟩) := by
    decide +kernel
  have hplace : AwaitsApplication source "<!DOCTYPE Application>".toUTF8.toList
      [⟨0, 22, .doctype "Application".toUTF8.toList⟩] :=
    ⟨⟨_, hlex, rfl⟩, by decide +kernel, by decide, by decide +kernel, by decide +kernel⟩
  have hname : ∀ name ∈ ["Application".toList, "preScript".toList], IsWrittenName name := by
    intro name hname
    simp only [List.mem_cons, List.not_mem_nil, or_false] at hname
    rcases hname with rfl | rfl <;>
      exact ⟨by decide, by simp [IsLegalCode], by simp [tagChars, blankChars]⟩
  have hblanks : ∀ blank ∈ blankChars, ∀ c ∈ [blank], c ∈ blankChars := by simp
  have htag : escapedApplication.IsLaidOut := by
    refine ⟨hname _ (by decide), ?_, ?_, by decide, hblanks ' ' (by decide)⟩
    · intro entry hentry
      obtain rfl := List.mem_singleton.mp hentry
      exact ⟨hblanks ' ' (by decide), hname _ (by decide), by simp, hblanks '\n' (by decide),
        .inr rfl⟩
    · rintro entry ⟨⟩
      exact List.cons_ne_nil _ _
  have hnumber : ∀ {number c}, characterOfNumber number = .ok c → WritesCode number c.toNat :=
    fun h => (characterOfNumber_eq_ok_iff.mp h).1
  have hwrites : WritesText '\'' script.toList "a&#x0026;&quot;\n>\"&#0233;".toList := by
    have hampersand := hnumber (by decide +kernel : characterOfNumber "x0026".toList = .ok '&')
    have hletter := hnumber (by decide +kernel : characterOfNumber "0233".toList = .ok '\u00E9')
    have hquote : ("quot".toList, '"') ∈ predefined := by decide
    have hplain : ∀ c ∈ ['a', '\n', '>', '"'], c ≠ '&' ∧ c ≠ '<' ∧ c ≠ '\'' := by simp
    have hitself : ∀ c ∈ ['a', '\n', '>', '"'], WritesChar '\'' c [c] := fun c hc =>
      .itself (hplain c hc).1 (hplain c hc).2.1 (hplain c hc).2.2
    simpa [script] using WritesText.cons (hitself 'a' (by decide)) <| .cons (.number hampersand) <|
      .cons (.predefined hquote) <| .cons (hitself '\n' (by decide)) <|
      .cons (hitself '>' (by decide)) <| .cons (hitself '"' (by decide)) <|
      .cons (.number hletter) .nil
  have hresolve : index.resolve script = .found := by decide +kernel
  have hothers : ∀ other ∈ escapedApplication.entries, other ≠
      ⟨[' '], "preScript".toList, [], ['\n'], '\'', "a&#x0026;&quot;\n>\"&#0233;".toList⟩ →
        other.HasLegalValue :=
    fun other hother hne => absurd (List.mem_singleton.mp hother) hne
  obtain ⟨-, hlookup, -, hfound, -, haudit, hdiagnostics⟩ :=
    audit_writtenApplication "Form.xml" index hcontent hplace htag rfl List.mem_cons_self hothers
      (by decide) rfl (by simp [IsLegalCode, script]) hwrites
  have hlength : "<!DOCTYPE Application>".toUTF8.toList.length = 22 := by decide +kernel
  rw [String.ofList_toList, hlength] at hlookup hfound
  rw [hlength] at hdiagnostics
  obtain ⟨diagnostics, hdiagnostic⟩ := haudit rfl
  obtain ⟨rest, rfl⟩ := hdiagnostics diagnostics hdiagnostic
  have hbefore : findingsAfter index locate source.signature.encoding []
      [⟨0, 22, .doctype "Application".toUTF8.toList⟩] = [] := rfl
  rw [hbefore, List.nil_append] at hdiagnostic
  exact ⟨hlookup, hresolve, hfound.mpr hresolve, rest, hdiagnostic⟩

end FormsAudit.Document
