import FormsAudit.Proofs.Document.Interrupted

/-!
# Documents that are cut off

A document without a fault of form that is cut off before its root is closed has one fault of form,
and of its findings it keeps the first (`audit_take`).  The cut may fall anywhere, also inside of a
token or of the signature of an encoding.

The tokens that are left are the first of the document, up to text that the cut ends.  Until the
token that closes the root there is either no element among them or one that is open
(`openAfter_ne_nil_of_closesRoot`), so that their end is no end of a document.
-/

namespace FormsAudit.Document

open Markup

variable {signature : Encoding} {before tokens : List Token} {token : Token}

/-! ## The end of the root -/

/-- Whether the event ends an element. -/
def endsElement : Event → Bool
  | .endTag _ | .emptyTag _ => true
  | _ => false

/-- The token that comes after `before` ends an element, and after it none is open. -/
structure ClosesRoot (tokens before : List Token) (token : Token) : Prop where
  isPrefix : before ++ [token] <+: tokens
  ends : endsElement token.event = true
  closed : openAfter (before ++ [token]) = []

theorem exists_closesRoot (htag : hasTag tokens = true) (hclosed : openAfter tokens = []) :
    ∃ before token, ClosesRoot tokens before token := by
  induction tokens using List.reverseRecOn with
  | nil => cases htag
  | append_singleton tokens token ih =>
    by_cases hends : endsElement token.event = true
    · exact ⟨tokens, token, List.prefix_rfl, hends, hclosed⟩
    · -- the token changes nothing, unless it opens an element
      rw [openAfter_concat] at hclosed
      rw [hasTag_concat] at htag
      have hbefore : hasTag tokens = true ∧ openAfter tokens = [] := by
        revert hends hclosed htag
        cases token.event <;> simp_all [endsElement, trackOpen, Event.isTag]
      obtain ⟨before, last, hlast⟩ := ih hbefore.1 hbefore.2
      exact ⟨before, last, hlast.isPrefix.trans (List.prefix_append _ _), hlast.ends, hlast.closed⟩

/-- After the root nothing comes that begins or ends an element. -/
theorem openAfter_of_placed {first others : List Token} (hplaced : Placed (first ++ others))
    (htag : hasTag first = true) (hclosed : openAfter first = []) :
    openAfter (first ++ others) = [] ∧ ∀ token ∈ others, endsElement token.event = false := by
  induction others using List.reverseRecOn with
  | nil => simpa using hclosed
  | append_singleton others token ih =>
    rw [← List.append_assoc] at hplaced ⊢
    obtain ⟨hbefore, hlast⟩ := stepwise_concat.mp hplaced
    obtain ⟨hopened, hends⟩ := ih hbefore
    obtain ⟨-, -, hroot, hend, -⟩ := obstacle?_eq_none_iff.mp hlast
    have htags : hasTag (first ++ others) = true := by
      simp only [hasTag, List.any_append, Bool.or_eq_true] at htag ⊢
      exact .inl htag
    have hnoTag : ¬ token.event.isTag = true := by
      intro htag
      rw [hroot htag hopened] at htags
      cases htags
    have hnoEnd : ∀ name, token.event ≠ .endTag name := fun name heq => hend name heq hopened
    have hleaf : trackOpen [] token.event = [] ∧ endsElement token.event = false := by
      revert hnoTag hnoEnd
      cases token.event <;> simp [trackOpen, endsElement, Event.isTag]
    rw [openAfter_concat, hopened]
    refine ⟨hleaf.1, ?_⟩
    intro other hother
    rcases List.mem_append.mp hother with hother | hother
    · exact hends other hother
    · rw [List.mem_singleton.mp hother]
      exact hleaf.2

/-- Before the root is closed there is an element that is open, or none at all. -/
theorem openAfter_ne_nil_of_closesRoot (hplaced : Placed tokens)
    (hcloses : ClosesRoot tokens before token) {first : List Token} (hfirst : first <+: before) :
    openAfter first ≠ [] ∨ hasTag first = false := by
  rw [or_iff_not_imp_left, not_not]
  intro hclosed
  by_contra htag
  obtain ⟨others, rfl⟩ := hfirst
  have hwith : Placed (first ++ (others ++ [token])) := by
    rw [← List.append_assoc]
    exact hplaced.of_isPrefix hcloses.isPrefix
  have hends := (openAfter_of_placed hwith (by simpa using htag) hclosed).2 token (by simp)
  rw [hcloses.ends] at hends
  cases hends

/-! ## Findings of a beginning -/

section

variable [WideDecoders]

theorem findingsAfter_append (index : ScriptIndex) (locate : Nat → Location)
    (first others : List Token) :
    findingsAfter index locate signature before (first ++ others) =
      findingsAfter index locate signature before first ++
        findingsAfter index locate signature (before ++ first) others := by
  induction first generalizing before with
  | nil => simp [findingsAfter]
  | cons token first ih => simp [findingsAfter, ih, List.append_assoc]

theorem findingsAfter_isPrefix (index : ScriptIndex) (locate : Nat → Location)
    {first tokens : List Token} (h : first <+: tokens) :
    findingsAfter index locate signature before first <+:
      findingsAfter index locate signature before tokens := by
  obtain ⟨others, rfl⟩ := h
  rw [findingsAfter_append]
  exact List.prefix_append _ _

theorem findingsAfter_eq_nil (index : ScriptIndex) (locate : Nat → Location)
    (h : hasTag tokens = false) : findingsAfter index locate signature before tokens = [] := by
  induction tokens generalizing before with
  | nil => rfl
  | cons token tokens ih =>
    rw [hasTag, List.any_cons, Bool.or_eq_false_iff] at h
    rw [findingsAfter, ih h.2, List.append_nil, tokenFindings]
    revert h
    cases token.event <;> simp [Event.isTag]

/-! ## The end of a source that is cut off -/

omit [WideDecoders] in
/-- Of a source that does not fail, at most a text follows the tokens that its bytes complete. -/
theorem exists_texts {source : Source} (hfailure : source.failure = none) :
    ∃ texts, source.tokens.tokens = (lex .initial source.content).1 ++ texts ∧
      hasTag texts = false ∧
      openAfter source.tokens.tokens = openAfter (lex .initial source.content).1 := by
  cases hlex : (lex .initial source.content).2 with
  | rejected offset reason =>
    refine ⟨[], ?_, rfl, ?_⟩ <;> rw [tokens_of_rejected hlex]
    rw [List.append_nil]
  | ready lexer =>
    have hfinish : lexer.finish.tokens = [] ∨
        ∃ start stop content, lexer.finish.tokens = [⟨start, stop, .text content⟩] := by
      unfold Lexer.finish
      split
      · exact .inl rfl
      · exact .inr ⟨_, _, _, rfl⟩
      all_goals exact .inl rfl
    rw [tokens_of_ready hfailure hlex]
    refine ⟨lexer.finish.tokens, rfl, ?_⟩
    rcases hfinish with hnone | ⟨start, stop, content, hlast⟩
    · rw [hnone]
      exact ⟨rfl, by rw [List.append_nil]⟩
    · rw [hlast]
      exact ⟨rfl, openAfter_concat _ _⟩

/-- A source that ends with an element open, or without any, has one fault of form.  Its findings
are those of the tokens that its bytes complete, or the first of them. -/
theorem audit_of_unclosed (file : String) (index : ScriptIndex) {source : Source}
    (hfailure : source.failure = none)
    (hopen : openAfter (lex .initial source.content).1 ≠ [] ∨
      hasTag (lex .initial source.content).1 = false) :
    let locate := locationIn file (.ofSource source)
    ∃ findings failure,
      audit file source index = .ok (findings ++ [Failure.diagnostic locate failure]) ∧
        findings <+: findingsAfter index locate source.signature.encoding []
          (lex .initial source.content).1 := by
  intro locate
  obtain ⟨texts, htokens, htexts, hopened⟩ := exists_texts hfailure
  obtain ⟨verdict, hverdict, hsome⟩ :=
    exists_verdict source.signature.encoding (ending_of_failure_eq_none hfailure)
  obtain ⟨failure, rfl⟩ : ∃ failure, verdict = some failure := by
    rw [← Option.isSome_iff_exists, hsome, hopened, htokens]
    have htag : hasTag ((lex .initial source.content).1 ++ texts) =
        hasTag (lex .initial source.content).1 := by
      simp only [hasTag, List.any_append] at htexts ⊢
      rw [htexts, Bool.or_false]
    rcases ending_of_failure_eq_none hfailure with ⟨stop, hstop⟩ | hrejected
    · right; right
      exact ⟨stop, hstop, by rwa [htag]⟩
    · exact .inr (.inl hrejected)
  refine ⟨_, failure, by rw [audit_eq, hverdict]; rfl, ?_⟩
  refine (findingsAfter_isPrefix index locate acceptedAfter_isPrefix).trans ?_
  rw [htokens, findingsAfter_append, findingsAfter_eq_nil index locate htexts, List.append_nil]

omit [WideDecoders] in
theorem hasTag_lex_of_mem_briefs :
    ∀ bytes ∈ briefs, hasTag (lex .initial bytes).1 = false := by
  decide

/-- A source without a fault of form is read to its end, and all its tokens are accepted. -/
theorem accepted_of_malformed_eq_nil {file : String} {index : ScriptIndex} {source : Source}
    {diagnostics : List Diagnostic} (haudit : audit file source index = .ok diagnostics)
    (hwell : malformed diagnostics = []) :
    source.failure = none ∧
      acceptedAfter source.signature.encoding [] source.tokens.tokens = source.tokens.tokens := by
  rw [audit_eq] at haudit
  have hnone : verdict? source.signature.encoding source.tokens = .ok none := by
    cases hverdict : verdict? source.signature.encoding source.tokens with
    | error error =>
      rw [hverdict] at haudit
      cases haudit
    | ok verdict =>
      cases verdict with
      | none => rfl
      | some failure =>
        rw [hverdict] at haudit
        obtain rfl := Except.ok.inj haudit
        rw [malformed_append, List.append_eq_nil_iff] at hwell
        exact absurd hwell.2 (by simp [malformed, Failure.diagnostic, Diagnostic.notWellFormed])
  constructor
  · cases hfailure : source.failure with
    | none => rfl
    | some error =>
      rcases exists_verdict_of_failure hfailure with hverdict | ⟨failure, hverdict⟩
      · rw [hnone] at hverdict
        cases hverdict
      · rw [hnone] at hverdict
        cases hverdict
  · rcases firstRejection?_spec source.signature.encoding [] source.tokens.tokens with
      ⟨-, hall⟩ | ⟨token, failure, hsome, -, -⟩
    · exact hall
    · rw [verdict?, hsome] at hnone
      cases hnone

/-- The audit of a source without a fault of form accepts all tokens, and the root is closed. -/
theorem closed_of_malformed_eq_nil {file : String} {index : ScriptIndex} {source : Source}
    {diagnostics : List Diagnostic} (hfailure : source.failure = none)
    (haudit : audit file source index = .ok diagnostics) (hwell : malformed diagnostics = []) :
    diagnostics = findingsAfter index (locationIn file (.ofSource source))
        source.signature.encoding [] source.tokens.tokens ∧
      Placed source.tokens.tokens ∧ openAfter source.tokens.tokens = [] ∧
      hasTag source.tokens.tokens = true := by
  obtain ⟨verdict, hverdict, hsome⟩ :=
    exists_verdict source.signature.encoding (ending_of_failure_eq_none hfailure)
  rw [audit_eq, hverdict] at haudit
  obtain rfl := Except.ok.inj haudit
  cases verdict with
  | some failure =>
    rw [malformed_append, List.append_eq_nil_iff] at hwell
    exact absurd hwell.2 (by simp [malformed, Failure.diagnostic, Diagnostic.notWellFormed])
  | none =>
    rw [Option.isSome_none, Bool.false_eq_true, false_iff, not_or, not_or, ne_eq, not_not] at hsome
    obtain ⟨haccepted, hrejected, hcomplete⟩ := hsome
    obtain ⟨stop, hstop⟩ :=
      (ending_of_failure_eq_none hfailure).resolve_right hrejected
    have hplaced : Placed source.tokens.tokens := haccepted ▸ placed_acceptedAfter
    refine ⟨by rw [haccepted]; simp, hplaced, ?_, ?_⟩
    · by_contra hopened
      exact hcomplete ⟨stop, hstop, .inl hopened⟩
    · by_contra htag
      exact hcomplete ⟨stop, hstop, .inr (Bool.eq_false_iff.mpr htag)⟩

section Continued

variable {cut source : Source} {rest : List UInt8} (h : Continued cut source rest)

include h

omit [WideDecoders] in
/-- Tokens that are left are before one that is cut off. -/
theorem lex_isPrefix_of_lt (hpre : before ++ [token] <+: source.tokens.tokens)
    (hlength : cut.content.length < token.stop) : (lex .initial cut.content).1 <+: before := by
  have hleft : (lex .initial cut.content).1 <+: source.tokens.tokens := h.isPrefix_tokens
  rcases Nat.lt_or_ge before.length (lex .initial cut.content).1.length with hlt | hge
  · have hinside : before ++ [token] <+: (lex .initial cut.content).1 := by
      refine List.prefix_of_prefix_length_le hpre hleft ?_
      rw [List.length_append, List.length_singleton]
      exact hlt
    have hmem := (isPrefix_tokens_of_lex cut).subset (mem_of_concat hinside)
    have hbounds := bounds_of_source hmem
    omega
  · exact List.prefix_of_prefix_length_le hleft (isPrefix_of_concat hpre) hge

theorem findingsAfter_lex_isPrefix (file : String) (index : ScriptIndex) :
    findingsAfter index (locationIn file (.ofSource cut)) cut.signature.encoding []
        (lex .initial cut.content).1 <+:
      findingsAfter index (locationIn file (.ofSource source)) source.signature.encoding []
        source.tokens.tokens := by
  have hlocate : ∀ token ∈ (lex .initial cut.content).1,
      locationIn file (.ofSource cut) token.start =
        locationIn file (.ofSource source) token.start := by
    intro token htoken
    obtain ⟨hlt, hstop⟩ := bounds_of_source ((isPrefix_tokens_of_lex cut).subset htoken)
    rw [locationIn, locationIn, h.locate (hlt.trans_le hstop).le]
  rw [findingsAfter_congr index hlocate, h.signature]
  exact findingsAfter_isPrefix index _ h.isPrefix_tokens

end Continued

/-- **A document that is cut off before its root is closed has one fault of form**, reported after
the first of its findings, which are located as they were.  One byte less than the token that closes
the root is enough. -/
theorem audit_take (file : String) (index : ScriptIndex) (limit : Nat) {bytes : List UInt8}
    {diagnostics : List Diagnostic}
    (haudit : audit file (.ofBytes bytes limit) index = .ok diagnostics)
    (hwell : malformed diagnostics = []) :
    let source := Source.ofBytes bytes limit
    (∃ before token, ClosesRoot source.tokens.tokens before token) ∧
      ∀ before token, ClosesRoot source.tokens.tokens before token →
        ∀ length < source.signature.mark + token.stop,
          ∃ findings location message,
            audit file (.ofBytes (bytes.take length) limit) index =
                .ok (findings ++ [.notWellFormed location message]) ∧
              malformed findings = [] ∧ findings <+: diagnostics := by
  intro source
  obtain ⟨hfindings, hplaced, hclosed, htag⟩ := closed_of_malformed_eq_nil rfl haudit hwell
  refine ⟨exists_closesRoot htag hclosed, ?_⟩
  intro before token hcloses length hlength
  set cut := Source.ofBytes (bytes.take length) limit
  -- it is enough that the root is not closed and that the findings are the first
  suffices hcut : (openAfter (lex .initial cut.content).1 ≠ [] ∨
      hasTag (lex .initial cut.content).1 = false) ∧
        findingsAfter index (locationIn file (.ofSource cut)) cut.signature.encoding []
          (lex .initial cut.content).1 <+: diagnostics by
    obtain ⟨findings, failure, hresult, hpre⟩ := audit_of_unclosed file index rfl hcut.1
    have hfirst : findings <+: diagnostics := hpre.trans hcut.2
    refine ⟨findings, _, _, hresult, ?_, hfirst⟩
    obtain ⟨others, rfl⟩ := hfirst
    rw [malformed_append, List.append_eq_nil_iff] at hwell
    exact hwell.1
  have hcontinued : Continued cut source (bytes.drop length) ∨
      bytes.take length ∈ briefs ∧ cut.signature = ⟨.utf8, 0⟩ := by
    have hpieces := continued_or_brief (min limit Source.readLimit) (bytes.take length)
      (bytes.drop length) none none
    rwa [List.take_append_drop] at hpieces
  rcases hcontinued with h | ⟨hbrief, hsignature⟩
  · have hshort : cut.content.length < token.stop := by
      obtain ⟨hlt, -⟩ := bounds_of_source (mem_of_concat hcloses.isPrefix)
      have hbytes : cut.bytes = bytes.take length := bytes_pieces _ _ none
      rw [Source.content, List.length_drop, hbytes, List.length_take, ← h.signature]
      omega
    have hleft : (lex .initial cut.content).1 <+: before :=
      lex_isPrefix_of_lt h hcloses.isPrefix hshort
    refine ⟨openAfter_ne_nil_of_closesRoot hplaced hcloses hleft, ?_⟩
    rw [hfindings]
    exact findingsAfter_lex_isPrefix h file index
  · have hcontent : cut.content = bytes.take length := by
      rw [Source.content, hsignature]
      exact bytes_pieces _ _ none
    have hnone : hasTag (lex .initial cut.content).1 = false := by
      rw [hcontent]
      exact hasTag_lex_of_mem_briefs _ hbrief
    refine ⟨.inr hnone, ?_⟩
    rw [findingsAfter_eq_nil index _ hnone]
    exact List.nil_prefix

end

/-- The document of an application with an element inside of it. -/
def nestedApplication : List UInt8 :=
  "<!DOCTYPE Application>\n<Application><b/></Application>\n".toUTF8.toList

attribute [local instance] WideDecoders.asciiOnly

theorem audit_take_nestedApplication :
    let diagnostics := scriptAttributes.map (.missingScriptAttribute ⟨"Form.xml", 2, 1, none⟩)
    audit "Form.xml" (.ofBytes nestedApplication 16) .empty = .ok diagnostics ∧
      malformed diagnostics = [] ∧
      ∀ length < 54, ∃ findings location message,
        audit "Form.xml" (.ofBytes (nestedApplication.take length) 16) .empty =
            .ok (findings ++ [.notWellFormed location message]) ∧
          malformed findings = [] ∧ findings <+: diagnostics := by
  intro diagnostics
  have haudit : audit "Form.xml" (.ofBytes nestedApplication 16) .empty = .ok diagnostics := by
    decide +kernel
  have hwell : malformed diagnostics = [] := by decide +kernel
  obtain ⟨-, hcut⟩ := audit_take "Form.xml" .empty 16 haudit hwell
  refine ⟨haudit, hwell, ?_⟩
  have hcloses : ClosesRoot (Source.ofBytes nestedApplication 16).tokens.tokens
      [⟨0, 22, .doctype "Application".toUTF8.toList⟩, ⟨22, 23, .text [0x0A]⟩,
        ⟨23, 36, .startTag "Application".toUTF8.toList⟩, ⟨36, 40, .emptyTag [0x62]⟩]
      ⟨40, 54, .endTag "Application".toUTF8.toList⟩ :=
    ⟨by decide +kernel, rfl, by decide +kernel⟩
  have hmark : (Source.ofBytes nestedApplication 16).signature.mark = 0 := by decide +kernel
  intro length hlength
  exact hcut _ _ hcloses length (by rwa [hmark, Nat.zero_add])

end FormsAudit.Document
