import FormsAudit.Proofs.Document.Interrupted
import FormsAudit.Proofs.Markup.Cutting

/-!
# Audits of bytes that are cut into reads

However bytes are cut into reads, they have the same audit (`audit_cutting`), if the first read is
long enough to show the signature of the encoding and the failures of the tokens can be located.

An audit does not wait for the last read.  `auditWhile` is the audit that goes on while the source is
read: what concerns a token is located by the lines noted when that token has been taken.  That this
is `audit`, which knows all lines from the start, needs that no offset is located before it has been
taken (`auditWhile_eq`), and so that the failures of a token lie inside of it (`rejection?_within`).
-/

namespace FormsAudit.Document

open Markup

variable {signature : Encoding} {before tokens : List Token}

/-! ## The tokens that are looked at -/

section

variable [WideDecoders]

/-- Of the tokens that come after `before`, those up to the first that is rejected, and that one. -/
def examinedAfter (signature : Encoding) (before : List Token) : List Token → List Token
  | [] => []
  | token :: rest =>
    token ::
      if (rejection? signature before token).isSome then []
      else examinedAfter signature (before ++ [token]) rest

theorem isPrefix_examinedAfter {token : Token}
    (h : acceptedAfter signature before tokens ++ [token] <+: tokens) :
    acceptedAfter signature before tokens ++ [token] <+: examinedAfter signature before tokens := by
  induction tokens generalizing before with
  | nil => simp at h
  | cons first rest ih =>
    unfold acceptedAfter at h ⊢
    unfold examinedAfter
    split at h
    · rename_i hfirst
      rw [if_pos hfirst, if_pos hfirst]
      obtain ⟨rfl, -⟩ := List.cons_prefix_cons.mp h
      exact List.prefix_rfl
    · rename_i hfirst
      rw [if_neg hfirst, if_neg hfirst]
      exact List.cons_prefix_cons.mpr ⟨rfl, ih (List.cons_prefix_cons.mp h).2⟩

/-! ## Audits that go on while the source is read -/

/-- The findings of the tokens up to the first fault, and its diagnostic or the state after them.
What concerns a token is located when that token has been taken. -/
def auditTokensWhile (index : ScriptIndex) (locate : Nat → Nat → Location) (state : State) :
    List Token → List Diagnostic × Except Diagnostic State
  | [] => ([], .ok state)
  | token :: rest =>
    match state.accept token with
    | .error failure => ([], .error (failure.diagnostic (locate token.stop)))
    | .ok (next, element) =>
      let findings := (element.map (elementFindings index (locate token.stop) next)).getD []
      let (others, outcome) := auditTokensWhile index locate next rest
      (findings ++ others, outcome)

/-- The audit of a source whose lines are `lines count` when `count` bytes of the content have been
taken.  What is not a token is located when the lexer has taken the byte that it rejects, and what is
missing at the end when it has taken all. -/
def auditWhile (file : String) (source : Source) (index : ScriptIndex) (lines : Nat → LineIndex) :
    Except SystemError (List Diagnostic) :=
  let locate := fun count => locationIn file (lines count)
  let reading := source.tokens
  match auditTokensWhile index locate (.initial source.signature.encoding) reading.tokens with
  | (findings, .error last) => .ok (findings ++ [last])
  | (findings, .ok state) =>
    match endingFailure state reading.ending with
    | .error error => .error error
    | .ok none => .ok findings
    | .ok (some failure) =>
      .ok (findings ++ [failure.diagnostic (locate (taken .initial source.content))])

omit [WideDecoders] in
/-- A token's element starts where the token does. -/
theorem elementFindings_congr (index : ScriptIndex) {locate place : Nat → Location} {token : Token}
    (h : locate token.start = place token.start) (state : State)
    (attributes : List (String × String)) :
    (element? token attributes).map (elementFindings index locate state) =
      (element? token attributes).map (elementFindings index place state) := by
  unfold element?
  cases token.event <;> simp [elementFindings, h]

/-- Where each offset is located in one way, the findings and the failure are. -/
theorem auditTokensWhile_eq (index : ScriptIndex) (locate : Nat → Nat → Location)
    (place : Nat → Location)
    (hstart : ∀ token ∈ acceptedAfter signature before tokens,
      locate token.stop token.start = place token.start)
    (hfailure : ∀ token, acceptedAfter signature before tokens ++ [token] <+: tokens →
      ∀ failure, rejection? signature (before ++ acceptedAfter signature before tokens) token =
        some failure → locate token.stop failure.offset = place failure.offset) :
    auditTokensWhile index locate (State.ofTokens signature before) tokens =
      let (findings, outcome) := auditTokens index place (State.ofTokens signature before) tokens
      (findings, outcome.mapError (Failure.diagnostic place)) := by
  induction tokens generalizing before with
  | nil => rfl
  | cons token rest ih =>
    unfold acceptedAfter at hstart hfailure
    unfold auditTokensWhile auditTokens
    cases hrejection : rejection? signature before token with
    | some failure =>
      rw [hrejection, if_pos Option.isSome_some] at hfailure
      have hplace : locate token.stop failure.offset = place failure.offset := by
        apply hfailure token
        · exact List.cons_prefix_cons.mpr ⟨rfl, List.nil_prefix⟩
        · rwa [List.append_nil]
      unfold rejection? at hrejection
      split at hrejection
      · rename_i found haccept
        cases hrejection
        rw [haccept]
        simp only [Except.mapError, Failure.diagnostic, hplace]
      · cases hrejection
    | none =>
      obtain ⟨-, attributes, -, haccept⟩ := accept_of_rejection?_eq_none hrejection
      rw [hrejection, if_neg (by simp)] at hstart hfailure
      have htoken : locate token.stop token.start = place token.start :=
        hstart token List.mem_cons_self
      have hrest := @ih (before ++ [token])
        (fun other hother => hstart other (List.mem_cons_of_mem token hother)) (by
          intro other hpre failure hother
          refine hfailure other (List.cons_prefix_cons.mpr ⟨rfl, hpre⟩) failure ?_
          rwa [List.append_assoc, List.singleton_append] at hother)
      rw [haccept]
      simp only [hrest, elementFindings_congr index htoken]

/-- What an audit reports, with all of it located in one way. -/
def auditBy (place : Nat → Location) (source : Source) (index : ScriptIndex) :
    Except SystemError (List Diagnostic) :=
  (verdict? source.signature.encoding source.tokens).map fun verdict =>
    findingsAfter index place source.signature.encoding []
        (acceptedAfter source.signature.encoding [] source.tokens.tokens) ++
      verdict.toList.map (Failure.diagnostic place)

theorem audit_eq_auditBy (file : String) (source : Source) (index : ScriptIndex) :
    audit file source index = auditBy (locationIn file (.ofSource source)) source index :=
  audit_eq file source index

section While

variable (file : String) (index : ScriptIndex) {source : Source} {lines : Nat → LineIndex}

/-- An audit locates in one way what it reports, if the starts of tokens and the failures are. -/
theorem auditWhile_eq_auditBy {place : Nat → Location}
    (hstart : ∀ token ∈ acceptedAfter source.signature.encoding [] source.tokens.tokens,
      locationIn file (lines token.stop) token.start = place token.start)
    (hfailure : ∀ token,
      acceptedAfter source.signature.encoding [] source.tokens.tokens ++ [token] <+:
          source.tokens.tokens →
        ∀ failure, rejection? source.signature.encoding
            (acceptedAfter source.signature.encoding [] source.tokens.tokens) token =
              some failure →
          locationIn file (lines token.stop) failure.offset = place failure.offset)
    (hlast : ∀ failure,
      firstRejection? source.signature.encoding [] source.tokens.tokens = none →
        verdict? source.signature.encoding source.tokens = .ok (some failure) →
          locationIn file (lines (taken .initial source.content)) failure.offset =
            place failure.offset) :
    auditWhile file source index lines = auditBy place source index := by
  have htokens := @auditTokensWhile_eq source.signature.encoding [] source.tokens.tokens _ index
    (fun count => locationIn file (lines count)) place hstart hfailure
  have hstate := auditTokens_ofTokens index place source.signature.encoding []
    source.tokens.tokens
  rw [ofTokens_nil] at htokens hstate
  rw [List.nil_append] at hstate
  unfold auditWhile auditBy
  unfold verdict? at hlast ⊢
  simp only [htokens, hstate]
  cases hfirst : firstRejection? source.signature.encoding [] source.tokens.tokens with
  | some failure => rfl
  | none =>
    rw [hfirst] at hlast
    simp only [Except.mapError]
    cases hverdict : endingFailure (State.ofTokens source.signature.encoding source.tokens.tokens)
        source.tokens.ending with
    | error error => rfl
    | ok verdict =>
      cases verdict with
      | none => simp [Except.map]
      | some failure =>
        simp only [Except.map, Option.toList_some, List.map_singleton, Failure.diagnostic,
          hlast failure rfl hverdict]

variable (hreads : ∀ read ∈ source.reads, read ≠ []) (hlines : Tracks source lines)

include hreads hlines

omit [WideDecoders] in
theorem locationIn_eq {count offset : Nat} (hcount : offset ≤ count)
    (hoffset : offset ≤ source.content.length) :
    locationIn file (lines count) offset = locationIn file (.ofSource source) offset := by
  rw [locationIn, locationIn, hlines.locate hreads hcount hoffset]

omit [WideDecoders] in
/-- A token has been taken when it is asked where it starts. -/
theorem locationIn_start {token : Token} (h : token ∈ source.tokens.tokens) {count : Nat}
    (hcount : token.stop ≤ count) :
    locationIn file (lines count) token.start =
      locationIn file (.ofSource source) token.start := by
  obtain ⟨hlt, hstop⟩ := bounds_of_source h
  exact locationIn_eq file hreads hlines (hlt.le.trans hcount) (hlt.trans_le hstop).le

/-- What is missing at the end, or is not a token, is located when it has been taken. -/
theorem locationIn_last {failure : Failure}
    (hfirst : firstRejection? source.signature.encoding [] source.tokens.tokens = none)
    (hverdict : verdict? source.signature.encoding source.tokens = .ok (some failure)) :
    locationIn file (lines (taken .initial source.content)) failure.offset =
      locationIn file (.ofSource source) failure.offset := by
  rw [verdict?, hfirst] at hverdict
  suffices hoffset : failure.offset ≤ taken .initial source.content ∧
      failure.offset ≤ source.content.length from
    locationIn_eq file hreads hlines hoffset.1 hoffset.2
  cases hending : source.tokens.ending with
  | complete stop =>
    rw [hending] at hverdict
    obtain ⟨hlength, htaken⟩ := eq_length_of_complete hending
    have hstop := (finish_ofTokens source.signature.encoding source.tokens.tokens stop).2
      failure (Except.ok.inj hverdict)
    omega
  | rejected offset reason =>
    rw [hending] at hverdict
    cases hverdict
    exact ⟨rejected_le_taken hending, (rejected_between_of_source hending).2⟩
  | unreadable error =>
    rw [hending] at hverdict
    cases hverdict

/-- **An audit that goes on while the source is read reports what it would report in the end.** -/
theorem auditWhile_eq
    (hlocatable : Locatable source.signature.encoding
      (examinedAfter source.signature.encoding [] source.tokens.tokens)) :
    auditWhile file source index lines = audit file source index := by
  rw [audit_eq_auditBy]
  refine auditWhile_eq_auditBy file index ?_ ?_ ?_
  · intro token htoken
    exact locationIn_start file hreads hlines (acceptedAfter_isPrefix.subset htoken) le_rfl
  · intro token hpre failure hrejection
    obtain ⟨hbytewise, hnames⟩ := hlocatable _ token (isPrefix_examinedAfter hpre)
    have hmem : token ∈ source.tokens.tokens := mem_of_concat hpre
    obtain ⟨-, hstop⟩ := rejection?_within hmem hbytewise hnames hrejection
    exact locationIn_eq file hreads hlines hstop (hstop.trans (bounds_of_source hmem).2)
  · intro failure hfirst hverdict
    exact locationIn_last file hreads hlines hfirst hverdict

end While

/-! ## Ways to cut the same bytes -/

/-- **However bytes are cut into reads, they have the same audit**, which may go on while they are
read.  And where they begin with the mark of UTF-8, the lines noted in any reads count offsets from
the byte where the content begins, be the mark left out or not. -/
theorem audit_cutting (bytes : List UInt8) :
    (∀ source other : Source, source.Yields bytes → other.Yields bytes →
      source.OpensWide → other.OpensWide →
      Locatable source.signature.encoding
        (examinedAfter source.signature.encoding [] source.tokens.tokens) →
      ∀ file index, ∃ diagnostics,
        (audit file source index = .ok diagnostics ∧
          ∀ lines, Tracks source lines → auditWhile file source index lines = .ok diagnostics) ∧
        audit file other index = .ok diagnostics ∧
          ∀ lines, Tracks other lines → auditWhile file other index lines = .ok diagnostics) ∧
    (byteOrderMark <+: bytes → ∀ source : Source, source.Yields bytes →
      ∀ reads, reads <+: source.reads → reads ≠ [] →
        let lines := reads.foldl LineIndex.read .empty
        lines.mark = source.signature.mark ∧ source.content = bytes.drop lines.mark ∧
          lines.locate 0 = (1, 1)) := by
  constructor
  · intro source other hsource hother hopens hopens' hlocatable file index
    have hsignature := signature_eq_of_yields hsource hother hopens hopens'
    have htokens := tokens_eq_of_yields hsource hother hopens hopens'
    have hsame : audit file other index = audit file source index := by
      unfold audit
      rw [hsignature, htokens, ofSource_eq_of_yields hsource hother hopens hopens']
    obtain ⟨verdict, hverdict, -⟩ := exists_verdict source.signature.encoding
      (ending_of_failure_eq_none hsource.failure)
    have haudit := audit_eq file source index
    rw [hverdict] at haudit
    refine ⟨_, ⟨haudit, fun lines hlines => ?_⟩, hsame.trans haudit, fun lines hlines => ?_⟩
    · rw [auditWhile_eq file index hsource.reads hlines hlocatable]
      exact haudit
    · rw [auditWhile_eq file index hother.reads hlines (by rwa [hsignature, htokens]), hsame]
      exact haudit
  · intro hbytes source hsource reads hpre hne lines
    rw [← hsource.bytes] at hbytes
    have hmark : lines.mark = source.signature.mark :=
      mark_foldl_read hsource.reads hbytes hpre hne
    have hcontent : source.content = bytes.drop lines.mark := by
      rw [hmark, ← hsource.bytes]
      rfl
    exact ⟨hmark, hcontent, locate_foldl_read_zero hsource.reads hbytes hpre hne⟩

end

/-- The mark of UTF-8, and a document with a fault in its third line. -/
def markedReference : List UInt8 := byteOrderMark ++ openReference

/-- The bytes in reads of one byte, but for the first of four. -/
def byteByByte (bytes : List UInt8) : Source :=
  ⟨bytes.take 4 :: (bytes.drop 4).map ([·]), none⟩

attribute [local instance] WideDecoders.asciiOnly

theorem audit_cutting_markedReference :
    let source := Source.ofBytes markedReference 16
    let other := byteByByte markedReference
    let torn : Source := ⟨[markedReference.take 1, markedReference.drop 1], none⟩
    let diagnostics := scriptAttributes.map (.missingScriptAttribute ⟨"Form.xml", 2, 1, none⟩) ++
      [.notWellFormed ⟨"Form.xml", 3, 7, none⟩
        "Error while escaping character at range 0..1: Cannot find ';' after '&'"]
    auditWhile "Form.xml" source .empty source.promptLines = .ok diagnostics ∧
      auditWhile "Form.xml" other .empty other.promptLines = .ok diagnostics ∧
      source.signature.mark = 3 ∧ (LineIndex.ofSource source).mark = 3 ∧
      torn.signature.mark = 0 ∧ (LineIndex.ofSource torn).mark = 0 := by
  intro source other torn diagnostics
  have hsource : source.Yields markedReference := ⟨by decide +kernel, by decide +kernel, rfl⟩
  have hother : other.Yields markedReference := ⟨by decide +kernel, by decide +kernel, rfl⟩
  have htorn : torn.Yields markedReference := ⟨by decide +kernel, by decide +kernel, rfl⟩
  have hopens : source.OpensWide := by decide +kernel
  have hopens' : other.OpensWide := by decide +kernel
  have hexamined : examinedAfter source.signature.encoding [] source.tokens.tokens =
      [] ++ [⟨0, 22, .doctype "Application".toUTF8.toList⟩] ++ [⟨22, 23, .text [0x0A]⟩] ++
        [⟨23, 36, .startTag "Application".toUTF8.toList⟩] ++ [⟨36, 37, .text [0x0A]⟩] ++
        [⟨37, 47, .emptyTag "b y='&'".toUTF8.toList⟩] := by
    decide +kernel
  have hlocatable : Locatable source.signature.encoding
      (examinedAfter source.signature.encoding [] source.tokens.tokens) := by
    rw [hexamined, Locatable]
    iterate 5 rw [stepwise_concat]
    refine ⟨⟨⟨⟨⟨stepwise_nil, ?_⟩, ?_⟩, ?_⟩, ?_⟩, ?_⟩ <;> decide +kernel
  obtain ⟨hcut, hmarks⟩ := audit_cutting markedReference
  obtain ⟨found, ⟨haudit, hwhile⟩, -, hwhile'⟩ :=
    hcut source other hsource hother hopens hopens' hlocatable "Form.xml" .empty
  have hdiagnostics : audit "Form.xml" source .empty = .ok diagnostics := by decide +kernel
  obtain rfl : found = diagnostics := Except.ok.inj (haudit.symm.trans hdiagnostics)
  have hbytes : byteOrderMark <+: markedReference := List.prefix_append _ _
  obtain ⟨hmark, -⟩ := hmarks hbytes source hsource source.reads List.prefix_rfl (by decide +kernel)
  obtain ⟨hmark', -⟩ := hmarks hbytes torn htorn torn.reads List.prefix_rfl (by decide +kernel)
  have hdropped : source.signature.mark = 3 := by decide +kernel
  have hkept : torn.signature.mark = 0 := by decide +kernel
  exact ⟨hwhile _ (tracks_promptLines source), hwhile' _ (tracks_promptLines other), hdropped,
    hmark.trans hdropped, hkept, hmark'.trans hkept⟩

end FormsAudit.Document
