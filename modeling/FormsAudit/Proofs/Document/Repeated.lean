import FormsAudit.Proofs.Document.Failing
import FormsAudit.Proofs.Encoding.Ascii
import FormsAudit.Proofs.Markup.Misreference
import FormsAudit.Proofs.Markup.Rejected
import FormsAudit.Proofs.ScriptIndex
import FormsAudit.Proofs.Text.LineBreak
import FormsAudit.Proofs.Unicode.Caseless

/-!
# What the findings of a document repeat

The messages of findings are made of words, numbers and texts that are taken over from the document
as they are.  `Fault.repeated` is what the message of a fault takes over, and a line ends in the
message where one ends in it (`mem_message_iff`).

Most of what is taken over is of one line all the same: the name of an open element has no blank in
it, a quote is a quote, and a script that is found in other letters has line ends where its own name
has them.  Three kinds of text are left, which `Repeats` lists with the place in the document that
each of them comes from (`mem_message_iff_repeats`).
-/

namespace FormsAudit.Document

open Markup

/-! ## The words of a fault -/

variable [WideDecoders]

/-- The part of a fault that its message takes over as it is. -/
def Fault.repeated : Fault → List Char
  | .token encoding (.unmatchedEnd name) => (decodedName encoding name).toList
  | .token encoding (.mismatchedEnd expected found) =>
    (decodedName encoding expected).toList ++ (decodedName encoding found).toList
  | .attribute (.expectedQuote _ quote) => [Char.ofNat quote.toNat]
  | .reference (.unrecognized _ name) => name
  | .unclosedElement name => name.toList
  | _ => []

section Messages

variable {c : Char} (hc : IsBreak c)

include hc

omit [WideDecoders] in
theorem notMem_characterFault (fault : CharacterFault) : c ∉ fault.message.toList := by
  have hnumber := fun n => hc.notMem (unbroken_toString n)
  unfold CharacterFault.message
  cases fault with
  | numeral fault => cases fault <;> exact hc.notMem (unbroken_ofList (by decide))
  | _ =>
    simp (disch := (apply unbroken_ofList; decide)) only [String.toList_append, List.mem_append,
      hc.mem_iff_false, hnumber, toString_self, or_false, not_false_eq_true]

theorem mem_referenceFault_iff (fault : ReferenceFault) :
    c ∈ fault.message.toList ↔ c ∈ (Fault.reference fault).repeated := by
  have hnumber := fun n => hc.notMem (unbroken_toString n)
  have hcharacter := notMem_characterFault hc
  unfold ReferenceFault.message
  cases fault <;> dsimp only <;>
    simp (disch := (apply unbroken_ofList; decide)) only [String.toList_append, List.mem_append,
      hc.mem_iff_false, hnumber, hcharacter, toString_self, String.toList_ofList, false_or, or_false,
      List.not_mem_nil, Fault.repeated]

theorem mem_attributeFault_iff (fault : AttributeFault) :
    c ∈ fault.message.toList ↔ c ∈ (Fault.attribute fault).repeated := by
  have hnumber := fun n => hc.notMem (unbroken_toString n)
  unfold AttributeFault.message
  cases fault <;> dsimp only <;>
    simp (disch := (apply unbroken_ofList; decide)) only [String.toList_append, List.mem_append,
      hc.mem_iff_false, hnumber, toString_self, toList_toString_char, false_or, or_false,
      List.not_mem_nil, Fault.repeated]

theorem mem_rejectionMessage_iff (encoding : Encoding) (reason : Rejection) :
    c ∈ (rejectionMessage encoding reason).toList ↔
      c ∈ (Fault.token encoding reason).repeated := by
  unfold rejectionMessage
  cases reason <;> dsimp only <;>
    simp (disch := (apply unbroken_ofList; decide)) only [String.toList_append, List.mem_append,
      hc.mem_iff_false, toString_self, false_or, or_false, List.not_mem_nil, Fault.repeated]

omit [WideDecoders] in
theorem notMem_encodingName (encoding : Encoding) : c ∉ encoding.name.toList := by
  cases encoding with
  | narrow page => cases page <;> exact hc.notMem (unbroken_ofList (by decide))
  | wide page => cases page <;> exact hc.notMem (unbroken_ofList (by decide))
  | _ => exact hc.notMem (unbroken_ofList (by decide))

/-- **A line ends in the message of a fault where one ends in the part that is taken over.** -/
theorem mem_message_iff (fault : Fault) : c ∈ fault.message.toList ↔ c ∈ fault.repeated := by
  have hencoding := notMem_encodingName hc
  have hcode := fun n => hc.notMem (unbroken_padLeft 4 (unbroken_upperHex n))
  have hreference := mem_referenceFault_iff hc
  have hattribute := mem_attributeFault_iff hc
  have htoken := mem_rejectionMessage_iff hc
  cases fault with
  | token encoding reason => exact htoken encoding reason
  | reference fault => exact hreference fault
  | _ =>
    unfold Fault.message
    simp (disch := (apply unbroken_ofList; decide)) only [String.toList_append, List.mem_append,
      hc.mem_iff_false, hencoding, hcode, hattribute, toString_self, false_or, or_false,
      List.not_mem_nil, Fault.repeated]

end Messages

/-! ## The part of the document -/

/-- The bytes are those of the token in which references stand: its text, or the value of one of its
attributes. -/
inductive HoldsReferences (token : Token) : List UInt8 → Prop
  | text {content : List UInt8} (hevent : token.event = .text content) :
    HoldsReferences token content
  | value {tag : List UInt8} {item : Attribute}
    (hevent : token.event = .startTag tag ∨ token.event = .emptyTag tag)
    (hitem : item ∈ (attributes tag).1) : HoldsReferences token item.value

/-- The text is one of the document that the finding repeats as it is: the value of a script
attribute that names no script, the name in an end tag that is rejected, or the name in a reference
that is refused. -/
inductive Repeats (source : Source) (index : ScriptIndex) : Diagnostic → List Char → Prop
  | value {location : Location} {before : List Token} {token : Token} {tag : List UInt8}
    {name value : String} (hpre : before ++ [token] <+: source.tokens.tokens)
    (hevent : token.event = .startTag tag ∨ token.event = .emptyTag tag)
    (hname : name ∈ scriptAttributes)
    (hvalue : attributeValue? (encodingOf source.signature.encoding before token) tag name =
      some value)
    (hmissing : index.resolve value = .missing) :
    Repeats source index (.missingScriptFile location name value) value.toList
  | endTag {location : Location} {offset : Nat} {reason : Rejection} {name : List UInt8}
    {encoding : Encoding}
    (hending : source.tokens.ending = .rejected offset reason)
    (hencoding : encodingAfter source.signature.encoding source.tokens.tokens = encoding)
    (hname : reason.endName? = some name) :
    Repeats source index (.notWellFormed location (rejectionMessage encoding reason))
      (decodedName encoding name).toList
  | reference {location : Location} {before : List Token} {token : Token} {raw : List UInt8}
    {text front name : List Char} (hpre : before ++ [token] <+: source.tokens.tokens)
    (hraw : HoldsReferences token raw)
    (hread : (encodingOf source.signature.encoding before token).decode? raw = some text)
    (hreference : HasReference text name) (hname : isName name = false) :
    Repeats source index
      (.notWellFormed location (ReferenceFault.message (.unrecognized front name))) name

/-! ## The verdict -/

section Verdict

variable {source : Source} {index : ScriptIndex} {before : List Token} {token : Token}
  {failure : Failure} {c : Char}

/-- Of a text that cannot be expanded, only the name of a reference is taken over. -/
theorem exists_repeats_of_expandAt {raw : List UInt8} {text : List Char} {tokenStart start : Nat}
    (hpre : before ++ [token] <+: source.tokens.tokens) (hraw : HoldsReferences token raw)
    (hread : (encodingOf source.signature.encoding before token).decode? raw = some text)
    {encoding : Encoding} (hfails : expandAt encoding tokenStart start text = .error failure)
    (hmem : c ∈ failure.fault.repeated) (locate : Nat → Location) :
    ∃ text, Repeats source index (failure.diagnostic locate) text ∧ c ∈ text := by
  rcases expandAt_eq_error_iff.mp hfails with ⟨fault, hfault, rfl⟩ | ⟨_, _, d, -, -, -, rfl⟩
  · cases fault with
    | unrecognized front name =>
      obtain ⟨hreference, hname⟩ := hasReference_of_expand hfault
      exact ⟨name, .reference hpre hraw hread hreference hname, hmem⟩
    | unterminated => cases hmem
    | character => cases hmem
  · cases hmem

theorem repeated_of_obstacle? {fault : Fault} (h : obstacle? before token = some fault) :
    fault.repeated = [] := by
  unfold obstacle? at h
  cases hevent : token.event with
  | declaration | startTag | emptyTag | endTag | text =>
    simp only [hevent] at h
    split_ifs at h
    cases h
    rfl
  | doctype =>
    simp only [hevent] at h
    split_ifs at h <;> cases h <;> rfl
  | cdata | comment | instruction => simp [hevent] at h

variable (hc : IsBreak c)

include hc

theorem notMem_of_isSpace {name : List UInt8} (hname : ∀ byte ∈ name, isSpace byte = false) :
    c ∉ (elementName name).toList ∧ ∀ encoding, c ∉ (decodedName encoding name).toList := by
  have hplain : Utf8.isPlain c = true ∧ isSpace (Utf8.plainByte c) = true := by
    rcases hc with rfl | rfl <;> decide
  have hbyte : Utf8.plainByte c ∉ name := by
    intro hmem
    rw [hname _ hmem] at hplain
    exact Bool.false_ne_true hplain.2
  constructor
  · rw [elementName, String.toList_ofList]
    exact fun hmem => hbyte (Utf8.plainByte_mem_of_decodeLossy hplain.1 hmem)
  · intro encoding
    rw [decodedName, String.toList_ofList]
    cases htext : encoding.decode? name with
    | none => simp
    | some text => exact fun hmem => hbyte (Encoding.plainByte_mem_of_decode? htext hplain.1 hmem)

/-- What a rejected tag is told by, and a line ends in, is the name in the tag. -/
theorem exists_of_mem_rejection {offset : Nat} {reason : Rejection}
    (hending : source.tokens.ending = .rejected offset reason) {encoding : Encoding}
    (hmem : c ∈ (Fault.token encoding reason).repeated) :
    ∃ name, reason.endName? = some name ∧ c ∈ (decodedName encoding name).toList := by
  cases reason with
  | unmatchedEnd name => exact ⟨name, rfl, hmem⟩
  | mismatchedEnd expected found =>
    have hopened := head?_of_mismatchedEnd hending
    have hexpected := isSpace_of_mem_openAfter (List.mem_of_mem_head? hopened)
    rcases List.mem_append.mp hmem with hmem | hmem
    · exact absurd hmem ((notMem_of_isSpace hc hexpected).2 encoding)
    · exact ⟨found, rfl, hmem⟩
  | _ => cases hmem

theorem exists_repeats_of_failsWith (hpre : before ++ [token] <+: source.tokens.tokens)
    (hfails : FailsWith (encodingOf source.signature.encoding before token) token failure)
    (hmem : c ∈ failure.fault.repeated) (locate : Nat → Location) :
    ∃ text, Repeats source index (failure.diagnostic locate) text ∧ c ∈ text := by
  cases hfails with
  | undecodable | character | sectionEnd | lessThan => cases hmem
  | reference hevent hreads hexpand =>
    exact exists_repeats_of_expandAt hpre (.text hevent) hreads.1 hexpand hmem locate
  | @attributeFault tag fault hevent hfault =>
    cases fault with
    | expectedQuote position quote =>
      -- a line ends in no quote
      have hquote : isQuote quote = true := isQuote_of_expectedQuote hfault
      simp only [isQuote, Bool.or_eq_true, decide_eq_true_eq] at hquote
      have hunbroken : Unbroken [Char.ofNat quote.toNat] := by
        rcases hquote with rfl | rfl <;> decide
      exact absurd hmem (hc.notMem hunbroken)
    | _ => cases hmem
  | @value tag text items item _ hevent hreads hitems hreadValue =>
    have hraw : HoldsReferences token item.value :=
      .value hevent (hitems.subset (List.mem_append_right items List.mem_cons_self))
    rcases bind_eq_error_iff.mp hreadValue with hdecode | ⟨value, hdecode, hexpand⟩
    · obtain ⟨-, rfl⟩ := decodeAt_eq_error_iff.mp hdecode
      cases hmem
    · exact exists_repeats_of_expandAt hpre hraw (decodeAt_eq_ok_iff.mp hdecode) hexpand hmem locate

/-- **The verdict on a document ends a line only in what it repeats of it.** -/
theorem exists_repeats_of_verdict?
    (hverdict : verdict? source.signature.encoding source.tokens = .ok (some failure))
    (hmem : c ∈ failure.fault.repeated) (locate : Nat → Location) :
    ∃ text, Repeats source index (failure.diagnostic locate) text ∧ c ∈ text := by
  unfold verdict? at hverdict
  rcases firstRejection?_spec source.signature.encoding [] source.tokens.tokens with
    ⟨hnone, -⟩ | ⟨token, other, hsome, hpre, hrejection⟩
  · rw [hnone] at hverdict
    cases hending : source.tokens.ending with
    | complete stop =>
      -- the document ends with an element open, which has a name without blanks
      rw [hending] at hverdict
      have hfinish := Except.ok.inj hverdict
      unfold State.finish State.ofTokens at hfinish
      cases hopened : openAfter source.tokens.tokens with
      | cons name outer =>
        simp only [hopened, List.map_cons, Option.some.injEq] at hfinish
        subst hfinish
        have hname := isSpace_of_mem_openAfter (hopened ▸ List.mem_cons_self)
        exact absurd hmem (notMem_of_isSpace hc hname).1
      | nil =>
        simp only [hopened, List.map_nil] at hfinish
        split at hfinish
        · cases hfinish
        · cases hfinish
          cases hmem
    | rejected offset reason =>
      rw [hending] at hverdict
      obtain rfl := Option.some.inj (Except.ok.inj hverdict)
      obtain ⟨name, hname, hbreak⟩ := exists_of_mem_rejection hc hending hmem
      exact ⟨_, .endTag hending rfl hname, hbreak⟩
    | unreadable error =>
      rw [hending] at hverdict
      cases hverdict
  · rw [hsome] at hverdict
    obtain rfl := Option.some.inj (Except.ok.inj hverdict)
    rw [List.nil_append] at hrejection
    rcases failsWith_of_rejection? hrejection with ⟨fault, hobstacle, rfl⟩ | ⟨-, hfails⟩
    · rw [repeated_of_obstacle? hobstacle] at hmem
      cases hmem
    · exact exists_repeats_of_failsWith hc hpre hfails hmem locate

end Verdict

/-! ## The findings -/

/-- A finding of some tokens is one of a script attribute of one of them. -/
theorem exists_scriptFindings_of_mem {index : ScriptIndex} {locate : Nat → Location}
    {signature : Encoding} {before tokens : List Token} {finding : Diagnostic}
    (h : finding ∈ findingsAfter index locate signature before tokens) :
    ∃ first token tag name, first ++ [token] <+: tokens ∧
      (token.event = .startTag tag ∨ token.event = .emptyTag tag) ∧ name ∈ scriptAttributes ∧
      finding ∈ scriptFindings index (locate token.start) name
        (attributeValue? (encodingOf signature (before ++ first) token) tag name) := by
  induction tokens generalizing before with
  | nil => cases h
  | cons token rest ih =>
    rcases List.mem_append.mp h with htoken | hrest
    · have htag : ∃ tag, (token.event = .startTag tag ∨ token.event = .emptyTag tag) ∧
          ∃ name ∈ scriptAttributes, finding ∈ scriptFindings index (locate token.start) name
            (attributeValue? (encodingOf signature before token) tag name) := by
        obtain ⟨start, stop, event⟩ := token
        cases event with
        | startTag tag | emptyTag tag =>
          simp only [tokenFindings] at htoken
          split at htoken
          · exact ⟨tag, by simp, List.mem_flatMap.mp htoken⟩
          · cases htoken
        | _ => cases htoken
      obtain ⟨tag, hevent, name, hname, hfinding⟩ := htag
      refine ⟨[], token, tag, name, List.prefix_append [token] rest, hevent, hname, ?_⟩
      rwa [List.append_nil]
    · obtain ⟨first, other, tag, name, hpre, hevent, hname, hfinding⟩ := ih hrest
      refine ⟨token :: first, other, tag, name, ?_, hevent, hname, ?_⟩
      · exact List.cons_prefix_cons.mpr ⟨rfl, hpre⟩
      · simpa using hfinding

/-! ## The message of a finding -/

section Findings

variable {c : Char} (hc : IsBreak c)

include hc

omit [WideDecoders] in
theorem mem_notWellFormed_iff (location : Location) (details : String) :
    c ∈ (Diagnostic.notWellFormed location details).message.toList ↔ c ∈ details.toList := by
  have hmessage : (Diagnostic.notWellFormed location details).message =
      "XML document is not well formed: " ++ details := rfl
  have hwords : c ∉ "XML document is not well formed: ".toList :=
    hc.notMem (unbroken_ofList (by decide))
  rw [hmessage, String.toList_append, List.mem_append, or_iff_right hwords]

omit [WideDecoders] in
theorem notMem_scriptAttribute {name : String} (hname : name ∈ scriptAttributes) :
    c ∉ name.toList := by
  have hall : ∀ name ∈ scriptAttributes, Unbroken name.toList := by decide
  exact hc.notMem (hall name hname)

omit [WideDecoders] in
theorem mem_missingScriptFile_iff (location : Location) {name : String}
    (hname : name ∈ scriptAttributes) (value : String) :
    c ∈ (Diagnostic.missingScriptFile location name value).message.toList ↔ c ∈ value.toList := by
  have hmessage : (Diagnostic.missingScriptFile location name value).message =
      name ++ " references a script that does not exist: " ++ value := rfl
  have hwords : c ∉ " references a script that does not exist: ".toList :=
    hc.notMem (unbroken_ofList (by decide))
  rw [hmessage, String.toList_append, String.toList_append, List.mem_append, List.mem_append,
    or_iff_right (not_or.mpr ⟨notMem_scriptAttribute hc hname, hwords⟩)]

/-- What is repeated stands in the message. -/
theorem Repeats.mem_message {source : Source} {index : ScriptIndex} {finding : Diagnostic}
    {text : List Char} (h : Repeats source index finding text) (hmem : c ∈ text) :
    c ∈ finding.message.toList := by
  cases h with
  | value _ _ hname => exact (mem_missingScriptFile_iff hc _ hname _).mpr hmem
  | @endTag _ _ reason _ encoding _ _ hname =>
    apply (mem_notWellFormed_iff hc _ _).mpr
    apply (mem_rejectionMessage_iff hc encoding reason).mpr
    cases reason with
    | unmatchedEnd =>
      obtain rfl := Option.some.inj hname
      exact hmem
    | mismatchedEnd =>
      obtain rfl := Option.some.inj hname
      exact List.mem_append_right _ hmem
    | _ => cases hname
  | @reference _ _ _ _ _ front =>
    apply (mem_notWellFormed_iff hc _ _).mpr
    exact (mem_referenceFault_iff hc (.unrecognized front text)).mpr hmem

variable {file : String} {names : List String} (hfile : c ∉ file.toList)
  (hnames : ∀ name ∈ names, c ∉ name.toList)

include hfile in
omit [WideDecoders] in
theorem notMem_missingScriptAttribute {location : Location} (hlocation : location.file = file)
    {name : String} (hname : name ∈ scriptAttributes) :
    c ∉ (Diagnostic.missingScriptAttribute location name).message.toList := by
  have hmessage : (Diagnostic.missingScriptAttribute location name).message =
      location.file ++ " does not have " ++ name ++ " defined." := rfl
  have hmiddle := hc.notMem (unbroken_ofList (by decide) : Unbroken " does not have ".toList)
  have hend := hc.notMem (unbroken_ofList (by decide) : Unbroken " defined.".toList)
  have hattribute := notMem_scriptAttribute hc hname
  simp only [hmessage, String.toList_append, List.mem_append, hlocation, hfile, hmiddle, hattribute,
    hend, or_false, not_false_eq_true]

include hnames in
omit [WideDecoders] in
/-- A reference in other letters has line breaks only where the name of the script has them. -/
theorem notMem_inconsistentScriptCasing {location : Location} {name value canonical : String}
    (hname : name ∈ scriptAttributes)
    (hresolve : (ScriptIndex.ofNames names).resolve value = .casingMismatch canonical) :
    c ∉ (Diagnostic.inconsistentScriptCasing location name value canonical).message.toList := by
  have hcaseless : Unicode.IsCaseless c := by
    rcases hc with rfl | rfl
    · exact Unicode.isCaseless_lineFeed
    · exact Unicode.isCaseless_carriageReturn
  obtain ⟨hlookup, -⟩ := ScriptIndex.resolve_eq_casingMismatch_iff.mp hresolve
  obtain ⟨before, after, hsplit, hkey, -⟩ :=
    (ScriptIndex.holds_ofNames names).lookup_eq_some_iff.mp hlookup
  have hcanonical : c ∉ canonical.toList := hnames canonical (by rw [hsplit]; simp)
  have hvalue : c ∉ value.toList := fun hmem =>
    hcanonical ((hcaseless.mem_iff_of_lowercase_eq hkey).mpr hmem)
  have hmessage : (Diagnostic.inconsistentScriptCasing location name value canonical).message =
      name ++ " casing '" ++ value ++ "' does not match target script's filename " ++
        ("'" ++ canonical ++ "'") := rfl
  have hcasing := hc.notMem (unbroken_ofList (by decide) : Unbroken " casing '".toList)
  have hmiddle : c ∉ "' does not match target script's filename ".toList :=
    hc.notMem (unbroken_ofList (by decide))
  have hquote := hc.notMem (unbroken_ofList (by decide) : Unbroken "'".toList)
  have hattribute := notMem_scriptAttribute hc hname
  simp only [hmessage, String.toList_append, List.mem_append, hattribute, hcasing, hvalue, hmiddle,
    hquote, hcanonical, or_false, not_false_eq_true]

include hfile hnames in
/-- Of the findings on a script attribute, only that of a missing script breaks the line. -/
theorem exists_repeats_of_scriptFindings {source : Source} {before : List Token} {token : Token}
    {tag : List UInt8} {name : String} {location : Location} {finding : Diagnostic}
    (hpre : before ++ [token] <+: source.tokens.tokens)
    (hevent : token.event = .startTag tag ∨ token.event = .emptyTag tag)
    (hname : name ∈ scriptAttributes) (hlocation : location.file = file)
    (hfinding : finding ∈ scriptFindings (.ofNames names) location name
      (attributeValue? (encodingOf source.signature.encoding before token) tag name))
    (hmem : c ∈ finding.message.toList) :
    ∃ text, Repeats source (.ofNames names) finding text ∧ c ∈ text := by
  unfold scriptFindings at hfinding
  split at hfinding
  · rw [List.mem_singleton.mp hfinding] at hmem
    exact absurd hmem (notMem_missingScriptAttribute hc hfile hlocation hname)
  · rename_i value hvalue
    split at hfinding
    · rename_i hmissing
      obtain rfl := List.mem_singleton.mp hfinding
      exact ⟨value.toList, .value hpre hevent hname hvalue hmissing,
        (mem_missingScriptFile_iff hc location hname value).mp hmem⟩
    · rename_i canonical hresolve
      rw [List.mem_singleton.mp hfinding] at hmem
      exact absurd hmem (notMem_inconsistentScriptCasing hc hnames hname hresolve)
    · cases hfinding

include hfile hnames in
/-- **In the message of a finding a line ends where one ends in what it repeats of the document.**
The file and the scripts are taken to have names of one line. -/
theorem mem_message_iff_repeats {source : Source} {diagnostics : List Diagnostic}
    {finding : Diagnostic} (haudit : audit file source (.ofNames names) = .ok diagnostics)
    (hfinding : finding ∈ diagnostics) :
    c ∈ finding.message.toList ↔
      ∃ text, Repeats source (.ofNames names) finding text ∧ c ∈ text := by
  constructor
  · intro hmem
    rw [audit_eq] at haudit
    obtain ⟨verdict, hverdict, rfl⟩ := map_eq_ok_iff.mp haudit
    rcases List.mem_append.mp hfinding with hscript | hfailure
    · obtain ⟨first, token, tag, name, hpre, hevent, hname, hscript⟩ :=
        exists_scriptFindings_of_mem hscript
      rw [List.nil_append] at hscript
      exact exists_repeats_of_scriptFindings hc hfile hnames (hpre.trans acceptedAfter_isPrefix)
        hevent hname rfl hscript hmem
    · obtain ⟨failure, hsome, rfl⟩ := List.mem_map.mp hfailure
      rw [Option.mem_toList.mp hsome] at hverdict
      have hrepeated : c ∈ failure.fault.repeated :=
        (mem_message_iff hc failure.fault).mp ((mem_notWellFormed_iff hc _ _).mp hmem)
      exact exists_repeats_of_verdict? hc hverdict hrepeated _
  · rintro ⟨text, hrepeats, hmem⟩
    exact hrepeats.mem_message hc hmem

end Findings

end FormsAudit.Document
