import FormsAudit.Proofs.Document.Extent
import FormsAudit.Proofs.Document.WellFormed
import FormsAudit.Proofs.Markup.Opening
import FormsAudit.Scan.Outcome

/-!
# Documents that cannot be read to the end

A source that fails has no end.  Its document is audited up to a verdict or not at all
(`audit_failing`):

* where the bytes that could be read show that the document is not well formed, the audit reports
  what it would report whatever the bytes that could not be read are;
* otherwise nothing is reported but that the file cannot be read.

The verdict and the findings are about tokens, of which a longer source has the same to begin with
(`Continued`).  That they are located alike needs that the failure lies among the bytes that could
be read, for which `Locatable` asks.
-/

namespace FormsAudit.Document

open Markup Scan

variable {signature : Encoding} {before tokens : List Token}

/-! ## The verdict on a beginning -/

section

variable [WideDecoders]

/-- What follows a token that is rejected is not looked at. -/
theorem firstRejection?_append {failure : Failure}
    (h : firstRejection? signature before tokens = some failure) (rest : List Token) :
    firstRejection? signature before (tokens ++ rest) = some failure ∧
      acceptedAfter signature before (tokens ++ rest) = acceptedAfter signature before tokens := by
  induction tokens generalizing before with
  | nil => cases h
  | cons token tokens ih =>
    unfold firstRejection? at h
    rw [List.cons_append]
    unfold firstRejection? acceptedAfter
    cases htoken : rejection? signature before token with
    | some other =>
      rw [htoken] at h
      exact ⟨h, by simp⟩
    | none =>
      rw [htoken] at h
      obtain ⟨hsame, haccepted⟩ := ih h
      exact ⟨hsame, by simp [haccepted]⟩

/-- Findings depend on where the tokens are located. -/
theorem findingsAfter_congr (index : ScriptIndex) {locate other : Nat → Location}
    (h : ∀ token ∈ tokens, locate token.start = other token.start) :
    findingsAfter index locate signature before tokens =
      findingsAfter index other signature before tokens := by
  induction tokens generalizing before with
  | nil => rfl
  | cons token rest ih =>
    have htoken : tokenFindings index locate signature before token =
        tokenFindings index other signature before token := by
      unfold tokenFindings
      rw [h token List.mem_cons_self]
    rw [findingsAfter, findingsAfter, htoken,
      ih fun second hsecond => h second (List.mem_cons_of_mem token hsecond)]

omit [WideDecoders] in
theorem bounds_of_source {source : Source} {token : Token} (h : token ∈ source.tokens.tokens) :
    token.start < token.stop ∧ token.stop ≤ source.content.length := by
  obtain ⟨before, after, heq⟩ := List.append_of_mem h
  have hpre : before ++ [token] <+: source.tokens.tokens := by
    rw [heq]
    simp
  exact ⟨(adjacent_tokens source before token hpre).2, (spelled_of_source source h).1⟩

/-- The failures of the tokens can be located: each token is read in an encoding whose characters
are counted as the bytes they are, and no name has a quote in it. -/
def Locatable (signature : Encoding) (tokens : List Token) : Prop :=
  Stepwise (fun before token =>
    (encodingOf signature before token).isBytewise = true ∧ token.HasUnquotedNames) tokens

/-- A token is rejected at an offset inside of it. -/
theorem rejection?_within {source : Source} {token : Token} (hmem : token ∈ source.tokens.tokens)
    (hbytewise : (encodingOf signature before token).isBytewise = true)
    (hnames : token.HasUnquotedNames) {failure : Failure}
    (h : rejection? signature before token = some failure) :
    token.start ≤ failure.offset ∧ failure.offset ≤ token.stop := by
  obtain ⟨hlt, -⟩ := bounds_of_source hmem
  rcases failsWith_of_rejection? h with ⟨fault, -, rfl⟩ | ⟨-, hfails⟩
  · exact ⟨le_rfl, hlt.le⟩
  · exact ⟨hfails.start_le,
      hfails.le_stop hbytewise (spelled_of_source source hmem) hlt.le hnames⟩

theorem firstRejection?_le {source : Source}
    (hlocatable : Locatable source.signature.encoding source.tokens.tokens) {failure : Failure}
    (h : firstRejection? source.signature.encoding [] source.tokens.tokens = some failure) :
    failure.offset ≤ source.content.length := by
  rcases firstRejection?_spec source.signature.encoding [] source.tokens.tokens with
    ⟨hnone, -⟩ | ⟨token, other, hsome, hpre, hrejection⟩
  · rw [hnone] at h
    cases h
  rw [hsome] at h
  obtain rfl := Option.some.inj h
  have hmem : token ∈ source.tokens.tokens := mem_of_concat hpre
  obtain ⟨hbytewise, hnames⟩ := hlocatable _ token hpre
  rw [List.nil_append] at hrejection
  exact (rejection?_within hmem hbytewise hnames hrejection).2.trans (bounds_of_source hmem).2

theorem verdict?_le {source : Source} {error : SystemError} (hfailure : source.failure = some error)
    (hlocatable : Locatable source.signature.encoding source.tokens.tokens) {failure : Failure}
    (h : verdict? source.signature.encoding source.tokens = .ok (some failure)) :
    failure.offset ≤ source.content.length := by
  unfold verdict? at h
  cases hfirst : firstRejection? source.signature.encoding [] source.tokens.tokens with
  | some found =>
    rw [hfirst] at h
    cases h
    exact firstRejection?_le hlocatable hfirst
  | none =>
    -- no token is rejected, so the verdict is that of the lexer
    rw [hfirst] at h
    cases hlex : (lex .initial source.content).2 with
    | ready lexer =>
      rw [tokens_of_failure hfailure hlex] at h
      cases h
    | rejected offset reason =>
      have hending : source.tokens.ending = .rejected offset reason := by
        rw [tokens_of_rejected hlex]
      rw [hending] at h
      cases h
      exact (rejected_between_of_source hending).2

/-! ## The audit of a source that is continued -/

section Continued

variable {source longer : Source} {rest : List UInt8} (h : Continued source longer rest)
  (file : String) (index : ScriptIndex)

include h

/-- Where the same tokens are accepted and the verdict is the same, the audit is. -/
theorem audit_eq_of_verdict? {verdict : Option Failure}
    (hverdict : verdict? source.signature.encoding source.tokens = .ok verdict)
    (hlonger : verdict? source.signature.encoding longer.tokens = .ok verdict)
    (haccepted : acceptedAfter source.signature.encoding [] longer.tokens.tokens =
      acceptedAfter source.signature.encoding [] source.tokens.tokens)
    (hoffset : ∀ failure, verdict = some failure → failure.offset ≤ source.content.length) :
    audit file longer index = audit file source index := by
  have hlocate : ∀ offset ≤ source.content.length,
      locationIn file (.ofSource longer) offset = locationIn file (.ofSource source) offset := by
    intro offset hle
    rw [locationIn, locationIn, h.locate hle]
  have hfindings : ∀ token ∈ acceptedAfter source.signature.encoding [] source.tokens.tokens,
      locationIn file (.ofSource longer) token.start =
        locationIn file (.ofSource source) token.start := by
    intro token htoken
    obtain ⟨hlt, hstop⟩ := bounds_of_source (acceptedAfter_isPrefix.subset htoken)
    exact hlocate token.start (hlt.trans_le hstop).le
  have hlast : verdict.toList.map (Failure.diagnostic (locationIn file (.ofSource longer))) =
      verdict.toList.map (Failure.diagnostic (locationIn file (.ofSource source))) := by
    cases verdict with
    | none => rfl
    | some failure =>
      simp only [Option.toList_some, List.map_singleton, Failure.diagnostic,
        hlocate failure.offset (hoffset failure rfl)]
  rw [audit_eq, audit_eq, h.signature, hverdict, hlonger, haccepted]
  simp only [Except.map, hlast, findingsAfter_congr index hfindings]

/-- A source that fails and yet has a verdict has it whatever could follow. -/
theorem audit_eq_of_continued {error : SystemError} (hfailure : source.failure = some error)
    (hlocatable : Locatable source.signature.encoding source.tokens.tokens)
    {verdict : Option Failure}
    (hverdict : verdict? source.signature.encoding source.tokens = .ok verdict) :
    audit file longer index = audit file source index := by
  have hoffset : ∀ failure, verdict = some failure →
      failure.offset ≤ source.content.length := by
    rintro failure rfl
    exact verdict?_le hfailure hlocatable hverdict
  cases hlex : (lex .initial source.content).2 with
  | rejected offset reason =>
    have hsame : longer.tokens = source.tokens := h.tokens_eq_of_rejected hlex
    rw [← hsame] at hverdict
    exact audit_eq_of_verdict? h file index (hsame ▸ hverdict) hverdict (by rw [hsame]) hoffset
  | ready lexer =>
    -- the lexer goes on, so the verdict is that of a token, and tokens only follow
    have htokens := tokens_of_failure hfailure hlex
    obtain ⟨others, hothers⟩ : source.tokens.tokens <+: longer.tokens.tokens := by
      rw [htokens]
      exact h.isPrefix_tokens
    cases hfirst : firstRejection? source.signature.encoding [] source.tokens.tokens with
    | none =>
      rw [verdict?, hfirst, htokens] at hverdict
      cases hverdict
    | some failure =>
      obtain ⟨hsame, haccepted⟩ := firstRejection?_append hfirst others
      rw [hothers] at hsame haccepted
      have hlonger : verdict? source.signature.encoding longer.tokens = .ok verdict := by
        rw [← hverdict, verdict?, verdict?, hsame, hfirst]
      exact audit_eq_of_verdict? h file index hverdict hlonger haccepted hoffset

end Continued

/-! ## Bytes that may go on as a signature -/

omit [WideDecoders] in
/-- Of bytes that may go on as a signature the lexer makes nothing, unless they begin as `<?` does
in UTF-16. -/
theorem lex_of_mem_briefs {bytes : List UInt8} (h : bytes ∈ briefs) :
    [0x00, 0x3C] <+: bytes ∨ ∃ lexer, lex .initial bytes = ([], .ready lexer) := by
  obtain ⟨entry, hentry, hbytes⟩ := List.mem_flatMap.mp h
  simp only [signatures, List.mem_cons, List.not_mem_nil, or_false] at hentry
  rcases hentry with rfl | rfl | rfl | rfl | rfl <;>
    simp only [byteOrderMark, List.dropLast, List.inits, List.map, List.mem_cons, List.not_mem_nil,
      or_false] at hbytes
  · rcases hbytes with rfl | rfl <;> exact .inr ⟨_, rfl⟩
  · rcases hbytes with rfl | rfl <;> exact .inr ⟨_, rfl⟩
  · rcases hbytes with rfl | rfl | rfl <;> exact .inr ⟨_, rfl⟩
  · rcases hbytes with rfl | rfl | rfl | rfl
    · exact .inr ⟨_, rfl⟩
    · exact .inr ⟨_, rfl⟩
    · exact .inl (by decide)
    · exact .inl (by decide)
  · rcases hbytes with rfl | rfl | rfl | rfl <;> exact .inr ⟨_, rfl⟩

omit [WideDecoders] in
theorem mark_of_nul {source : Source} (hreads : ∀ bytes ∈ source.reads, bytes ≠ [])
    (hbytes : source.bytes.head? = some 0x00) : source.signature.mark = 0 := by
  obtain ⟨reads, failure⟩ := source
  cases reads with
  | nil => cases hbytes
  | cons first reads =>
    obtain ⟨byte, rest, rfl⟩ := List.exists_cons_of_ne_nil (hreads first List.mem_cons_self)
    obtain rfl : byte = 0x00 := Option.some.inj hbytes
    unfold Source.signature Source.firstRead Signature.ofFirstRead
    rw [List.headD_cons]
    split <;> simp_all

/-- The zero byte is text outside of the root, whatever the signature is taken to be. -/
theorem audit_of_nul (file : String) (index : ScriptIndex) {source : Source}
    (hreads : ∀ bytes ∈ source.reads, bytes ≠ []) (hbytes : [0x00, 0x3C] <+: source.bytes) :
    audit file source index =
      .ok [.notWellFormed ⟨file, 1, 1, none⟩ Fault.textOutsideRoot.message] := by
  obtain ⟨rest, hrest⟩ := hbytes
  have hmark : source.signature.mark = 0 := mark_of_nul hreads (by rw [← hrest]; rfl)
  have hcontent : source.content = 0x00 :: 0x3C :: rest := by
    rw [Source.content, hmark, ← hrest]
    rfl
  obtain ⟨others, hothers⟩ : [⟨0, 1, .text [0x00]⟩] <+: source.tokens.tokens := by
    refine List.IsPrefix.trans ?_ (isPrefix_tokens_of_lex source)
    rw [hcontent]
    exact List.cons_prefix_cons.mpr ⟨rfl, List.nil_prefix⟩
  have hverdict : verdict? source.signature.encoding source.tokens =
      .ok (some ⟨0, .textOutsideRoot⟩) := by
    rw [verdict?, ← hothers]
    rfl
  have haccepted : acceptedAfter source.signature.encoding [] source.tokens.tokens = [] := by
    rw [← hothers]
    rfl
  have hlocate : (LineIndex.ofSource source).locate 0 = (1, 1) := by
    rw [LineIndex.locate_ofSource hreads (by omega) (Nat.zero_le _)]
    rfl
  rw [audit_eq, hverdict, haccepted]
  simp only [Except.map, findingsAfter, Option.toList_some, List.map_singleton, List.nil_append,
    Failure.diagnostic, locationIn, hlocate]

/-! ## The audit of a source that fails -/

/-- An audit without an answer is that of a source whose tokens are all accepted and end where it
fails. -/
theorem audit_eq_error_iff {file : String} {source : Source} {index : ScriptIndex}
    {error : SystemError} :
    audit file source index = .error error ↔
      source.tokens.ending = .unreadable error ∧
        acceptedAfter source.signature.encoding [] source.tokens.tokens =
          source.tokens.tokens := by
  have hmap : audit file source index = .error error ↔
      verdict? source.signature.encoding source.tokens = .error error := by
    rw [audit_eq]
    cases verdict? source.signature.encoding source.tokens <;> simp [Except.map]
  rw [hmap, verdict?]
  rcases firstRejection?_spec source.signature.encoding [] source.tokens.tokens with
    ⟨hnone, hall⟩ | ⟨token, failure, hsome, hpre, -⟩
  · rw [hnone, hall]
    cases source.tokens.ending <;> simp [endingFailure]
  · rw [hsome]
    refine iff_of_false (by simp) fun h => ?_
    have hlength := hpre.length_le
    rw [h.2, List.length_append, List.length_singleton] at hlength
    omega

/-- A source that fails is not found to be well formed. -/
theorem exists_verdict_of_failure {source : Source} {error : SystemError}
    (hfailure : source.failure = some error) :
    verdict? source.signature.encoding source.tokens = .error error ∨
      ∃ failure, verdict? source.signature.encoding source.tokens = .ok (some failure) := by
  unfold verdict?
  split
  · rename_i failure _
    exact .inr ⟨failure, rfl⟩
  · cases hlex : (lex .initial source.content).2 with
    | ready lexer =>
      rw [tokens_of_failure hfailure hlex]
      exact .inl rfl
    | rejected offset reason =>
      rw [tokens_of_rejected hlex]
      exact .inr ⟨_, rfl⟩

/-- What a source that fails gets for an audit it gets whatever could follow. -/
theorem audit_pieces_append {file : String} {index : ScriptIndex} {limit : Nat} {bytes : List UInt8}
    {error : SystemError} {diagnostics : List Diagnostic}
    (hlocatable :
      let source : Source := ⟨pieces limit bytes, some error⟩
      Locatable source.signature.encoding source.tokens.tokens)
    (haudit : audit file ⟨pieces limit bytes, some error⟩ index = .ok diagnostics)
    (rest : List UInt8) (other : Option SystemError) :
    audit file ⟨pieces limit (bytes ++ rest), other⟩ index = .ok diagnostics := by
  set source : Source := ⟨pieces limit bytes, some error⟩
  have hfailure : source.failure = some error := rfl
  have hbytes : source.bytes = bytes := bytes_pieces limit bytes (some error)
  rcases continued_or_brief limit bytes rest (some error) other with h | ⟨hbrief, hsignature⟩
  · rcases exists_verdict_of_failure hfailure with hnone | ⟨failure, hverdict⟩
    · rw [audit_eq, hnone] at haudit
      cases haudit
    · rw [audit_eq_of_continued h file index hfailure hlocatable hverdict, haudit]
  · rcases lex_of_mem_briefs hbrief with hnul | ⟨lexer, hlex⟩
    · have hlonger : [0x00, 0x3C] <+: bytes ++ rest := hnul.trans (List.prefix_append _ _)
      rw [audit_of_nul file index (ne_nil_of_mem_pieces limit _)
        (by rwa [Source.bytes, flatten_pieces]), ← haudit]
      exact (audit_of_nul file index (ne_nil_of_mem_pieces limit _) (by rwa [hbytes])).symm
    · have hcontent : source.content = bytes := by
        rw [Source.content, hsignature, hbytes]
        rfl
      have htokens : source.tokens = ⟨[], .unreadable error⟩ := by
        rw [tokens_of_failure hfailure (by rw [hcontent, hlex]), hcontent, hlex]
      have herror : audit file source index = .error error :=
        audit_eq_error_iff.mpr (by simp [htokens, acceptedAfter])
      rw [herror] at haudit
      cases haudit

/-- **A source that fails is audited up to a verdict or not at all.**  A verdict is a fault of form,
reported after the findings, and both are reported whatever bytes could follow.  There is none where
the audit needs what cannot be read; then the file has the one finding that it is unreadable. -/
theorem audit_failing (file : FileReference) (index : ScriptIndex) (spent : Duration)
    (bytes : List UInt8) (limit : Nat) (error : SystemError)
    (hlocatable : Locatable (Source.failing bytes limit error).signature.encoding
      (Source.failing bytes limit error).tokens.tokens) :
    let source := Source.failing bytes limit error
    (∀ diagnostics, audit file.relative source index = .ok diagnostics →
      (∃ findings location message, diagnostics = findings ++ [.notWellFormed location message] ∧
          malformed findings = []) ∧
        ∀ rest, audit file.relative (.ofBytes (bytes ++ rest) limit) index = .ok diagnostics ∧
          ∀ other, audit file.relative (.failing (bytes ++ rest) limit other) index =
            .ok diagnostics) ∧
      (audit file.relative source index = .error error ↔
        source.tokens.ending = .unreadable error ∧
          acceptedAfter source.signature.encoding [] source.tokens.tokens =
            source.tokens.tokens) ∧
      ∀ failure, audit file.relative source index = .error failure → failure = error ∧
        (Outcome.ofAudit file spent (audit file.relative source index)).diagnostics =
          [.unreadableFile file.relative (Failure.system error).message] := by
  intro source
  have hsource : source.failure = some error := rfl
  refine ⟨?_, audit_eq_error_iff, ?_⟩
  · intro diagnostics haudit
    refine ⟨?_, fun rest => ⟨audit_pieces_append hlocatable haudit rest none, fun other =>
      audit_pieces_append hlocatable haudit rest (some other)⟩⟩
    rcases exists_verdict_of_failure hsource with hnone | ⟨failure, hverdict⟩
    · rw [audit_eq, hnone] at haudit
      cases haudit
    · rw [audit_eq, hverdict] at haudit
      obtain rfl := Except.ok.inj haudit
      exact ⟨_, _, _, rfl, malformed_findingsAfter index _ _ [] _⟩
  · intro failure haudit
    have hfailure : failure = error := by
      rcases exists_verdict_of_failure hsource with hnone | ⟨found, hverdict⟩
      · rw [audit_eq, hnone] at haudit
        exact (Except.error.inj haudit).symm
      · rw [audit_eq, hverdict] at haudit
        cases haudit
    rw [haudit, hfailure]
    exact ⟨rfl, rfl⟩

end

/-- A document that is cut off after a reference without an end, in a value of its third line. -/
def openReference : List UInt8 :=
  "<!DOCTYPE Application>\n<Application>\n<b y='&'/><c>".toUTF8.toList

attribute [local instance] WideDecoders.asciiOnly

theorem audit_failing_openReference :
    let source := Source.failing openReference 16 (.raised .other "gone")
    let locatable := Locatable source.signature.encoding source.tokens.tokens
    locatable ∧ ∀ rest,
      audit "Form.xml" (.ofBytes (openReference ++ rest) 16) .empty =
        .ok (scriptAttributes.map (.missingScriptAttribute ⟨"Form.xml", 2, 1, none⟩) ++
          [.notWellFormed ⟨"Form.xml", 3, 7, none⟩
            "Error while escaping character at range 0..1: Cannot find ';' after '&'"]) := by
  intro source locatable
  have htokens : source.tokens.tokens =
      [] ++ [⟨0, 22, .doctype "Application".toUTF8.toList⟩] ++ [⟨22, 23, .text [0x0A]⟩] ++
        [⟨23, 36, .startTag "Application".toUTF8.toList⟩] ++ [⟨36, 37, .text [0x0A]⟩] ++
        [⟨37, 47, .emptyTag "b y='&'".toUTF8.toList⟩] ++
        [⟨47, 50, .startTag "c".toUTF8.toList⟩] := by
    decide +kernel
  have hlocatable : locatable := by
    unfold locatable
    rw [htokens, Locatable]
    iterate 6 rw [stepwise_concat]
    refine ⟨⟨⟨⟨⟨⟨stepwise_nil, ?_⟩, ?_⟩, ?_⟩, ?_⟩, ?_⟩, ?_⟩ <;> decide +kernel
  have haudit : audit "Form.xml" source .empty = .ok
      (scriptAttributes.map (.missingScriptAttribute ⟨"Form.xml", 2, 1, none⟩) ++
          [.notWellFormed ⟨"Form.xml", 3, 7, none⟩
            "Error while escaping character at range 0..1: Cannot find ';' after '&'"]) := by
    decide +kernel
  let file : FileReference := ⟨"Form.xml", .ofString "Form.xml"⟩
  obtain ⟨hverdict, -, -⟩ :=
    audit_failing file .empty .zero openReference 16 (.raised .other "gone") hlocatable
  exact ⟨hlocatable, fun rest => ((hverdict _ haudit).2 rest).1⟩

end FormsAudit.Document
