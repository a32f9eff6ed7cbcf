import FormsAudit.Proofs.Document.Turns

/-!
# The two lists of open elements

While a document is read its open elements are kept twice.  The lexer has a list of its own, which a
start tag enters when it is read; the state has another, which the tag enters after its checks.
Before every read the two agree (`Follows.inStep`).  They part company in the turn of a start tag
that fails its checks, and of an end tag that the lexer rejects, and that is the last turn.

So an end tag always finds an element to close, and no audit reports that there was none
(`message_eq_unexpectedEndTag_iff` tells that report by its words); what is reported as not closed
is the innermost open element (`Follows.exists_innermost`).  `audit_inStep` says all of it.
-/

namespace FormsAudit.Document

open Markup

section

variable {index : ScriptIndex} {locate : Nat → Location} {source : Source} {tokens : List Token}
  {inspection : Inspection}

/-! ## Before a read -/

variable [WideDecoders]

/-- The two lists of open elements agree before the next read, and an end tag leaves them so. -/
structure InStep (index : ScriptIndex) (locate : Nat → Location) (inspection : Inspection) :
    Prop where
  opened_eq : inspection.state.opened = inspection.reader.lexer.opened.map elementName
  rootSeen : inspection.state.opened ≠ [] → inspection.state.rootSeen = true
  /-- An end tag closes the innermost element, which is there. -/
  endTag : ∀ token reader name, inspection.reader.read = .token token reader →
    token.event = .endTag name → ∃ outer next,
      inspection.state.opened = elementName name :: outer ∧
        inspection.turn index locate = .goesOn next ∧ next.state.opened = outer

theorem Follows.inStep (h : Follows index locate source tokens inspection) :
    InStep index locate inspection where
  opened_eq := by
    rw [h.state_eq, h.opened_eq]
    rfl
  rootSeen := by
    rw [h.state_eq, rootSeen_ofTokens]
    intro hopened
    by_contra hroot
    apply hopened
    rw [State.ofTokens, openAfter_eq_nil (Bool.not_eq_true _ ▸ hroot), List.map_nil]
  endTag := by
    intro token reader name hread hevent
    have hhead := nested_tokens source tokens token (h.isPrefix hread) name hevent
    obtain ⟨outer, hopened⟩ := List.head?_eq_some_iff.mp hhead
    have hrejection : rejection? source.signature.encoding tokens token = none := by
      simp [rejection?_eq, obstacle?, checkContent, hevent, hopened]
    obtain ⟨next, hturn, hnext⟩ := follows_of_turn h hread hrejection
    refine ⟨outer.map elementName, next, ?_, hturn, ?_⟩
    · rw [h.state_eq, State.ofTokens, hopened]
      rfl
    · rw [hnext.state_eq, State.ofTokens, openAfter_concat, hevent, hopened]
      rfl

/-! ## Faults of elements that are not closed, or not open -/

/-- Whether the fault is one of the nesting of elements. -/
def Fault.isOfNesting : Fault → Bool
  | .unexpectedEndTag | .unclosedElement _ => true
  | _ => false

theorem isOfNesting_of_expandAt {encoding : Encoding} {tokenStart start : Nat} {text : List Char}
    {failure : Failure} (h : expandAt encoding tokenStart start text = .error failure) :
    failure.fault.isOfNesting = false := by
  rcases expandAt_eq_error_iff.mp h with ⟨fault, -, rfl⟩ | ⟨expanded, before, c, -, -, -, rfl⟩ <;>
    rfl

/-- No fault of a token's content is one of nesting. -/
theorem FailsWith.isOfNesting {encoding : Encoding} {token : Token} {failure : Failure}
    (h : FailsWith encoding token failure) : failure.fault.isOfNesting = false := by
  cases h with
  | reference _ _ hfails => exact isOfNesting_of_expandAt hfails
  | value _ _ _ hfails =>
    rcases bind_eq_error_iff.mp hfails with hread | ⟨text, -, hexpand⟩
    · obtain ⟨-, rfl⟩ := decodeAt_eq_error_iff.mp hread
      rfl
    · exact isOfNesting_of_expandAt hexpand
  | _ => rfl

omit [WideDecoders] in
/-- No fault of a token's place is one of nesting, unless an end tag closes nothing. -/
theorem isOfNesting_of_obstacle? {token : Token} {fault : Fault}
    (hopened : ∀ name, token.event = .endTag name → openAfter tokens ≠ [])
    (h : obstacle? tokens token = some fault) : fault.isOfNesting = false := by
  unfold obstacle? at h
  cases hevent : token.event with
  | endTag name => simp [hevent, hopened name hevent] at h
  | declaration | startTag | emptyTag | text =>
    simp only [hevent] at h
    split_ifs at h
    cases h
    rfl
  | doctype =>
    simp only [hevent] at h
    split_ifs at h <;> cases h <;> rfl
  | cdata | comment | instruction => simp [hevent] at h

/-- No token is rejected for the nesting of elements if an end tag closes one. -/
theorem isOfNesting_of_rejection? {signature : Encoding} {token : Token} {failure : Failure}
    (hopened : ∀ name, token.event = .endTag name → openAfter tokens ≠ [])
    (h : rejection? signature tokens token = some failure) :
    failure.fault.isOfNesting = false := by
  rcases failsWith_of_rejection? h with ⟨fault, hobstacle, rfl⟩ | ⟨-, hfails⟩
  · exact isOfNesting_of_obstacle? hopened hobstacle
  · exact hfails.isOfNesting

omit [WideDecoders] in
/-- At the end there is no element, or the innermost one is not closed. -/
theorem exists_of_finish {signature : Encoding} {stop : Nat} {failure : Failure}
    (h : (State.ofTokens signature tokens).finish stop = some failure) :
    failure.fault = .noRoot ∨ ∃ name, (openAfter tokens).head? = some name ∧
      failure.fault = .unclosedElement (elementName name) := by
  rw [State.finish, State.ofTokens] at h
  cases hopened : openAfter tokens with
  | nil =>
    rw [hopened, List.map_nil] at h
    dsimp only at h
    split_ifs at h
    cases h
    exact .inl rfl
  | cons name outer =>
    rw [hopened] at h
    cases h
    exact .inr ⟨name, rfl, rfl⟩

/-- The one fault of nesting that an inspection stops with is that of the innermost open element. -/
theorem Follows.exists_innermost (h : Follows index locate source tokens inspection)
    {failure : Failure} {last : Inspection}
    (hturn : inspection.turn index locate = .stops (some failure) last)
    (hnesting : failure.fault.isOfNesting = true) :
    ∃ name, failure.fault = .unclosedElement (elementName name) ∧ Innermost tokens name := by
  have hnot : failure.fault.isOfNesting ≠ false := by simp [hnesting]
  cases hread : inspection.reader.read with
  | token token reader =>
    have hopened : ∀ name, token.event = .endTag name → openAfter tokens ≠ [] := by
      intro name hevent hnone
      have hhead := nested_tokens source tokens token (h.isPrefix hread) name hevent
      rw [hnone] at hhead
      cases hhead
    cases hrejection : rejection? source.signature.encoding tokens token with
    | none =>
      obtain ⟨next, hnext, -⟩ := follows_of_turn h hread hrejection
      rw [hturn] at hnext
      cases hnext
    | some other =>
      rw [turn_of_rejection? h hread hrejection] at hturn
      cases hturn
      exact absurd (isOfNesting_of_rejection? hopened hrejection) hnot
  | ended ending =>
    simp only [Inspection.turn, hread] at hturn
    cases ending with
    | complete stop =>
      obtain ⟨hfinish, -⟩ := Turn.stops.inj hturn
      have hnested : Nested tokens :=
        (nested_tokens source).of_isPrefix (h.accepted.trans acceptedAfter_isPrefix)
      rw [h.state_eq] at hfinish
      rcases exists_of_finish hfinish with hroot | ⟨name, hhead, hfault⟩
      · rw [hroot] at hnesting
        cases hnesting
      · exact ⟨name, hfault, (innermost_iff hnested).mpr hhead⟩
    | rejected offset reason =>
      cases hturn
      cases hnesting
    | unreadable error => cases hturn

end

/-! ## The words of a fault -/

theorem head?_ofList (c : Char) (rest : List Char) :
    (String.ofList (c :: rest)).toList.head? = some c := by
  rw [String.toList_ofList, List.head?_cons]

/-- What follows the first words does not change the first letter. -/
theorem head?_append {first : String} {c : Char} (h : first.toList.head? = some c)
    (rest : String) : (first ++ rest).toList.head? = some c := by
  rw [String.toList_append, List.head?_append, h, Option.some_or]

theorem exists_head?_rejectionMessage [WideDecoders] (encoding : Encoding) (reason : Rejection) :
    ∃ c, (rejectionMessage encoding reason).toList.head? = some c ∧ c ≠ 'u' := by
  unfold rejectionMessage
  cases reason with
  | unmatchedEnd name =>
    exact ⟨'i', head?_append (head?_append (head?_ofList _ _) _) _, by decide⟩
  | mismatchedEnd expected found =>
    exact ⟨'i', head?_append (head?_append (head?_append (head?_ofList _ _) _) _) _, by decide⟩
  | openInstruction => exact ⟨'s', head?_append (head?_ofList _ _) _, by decide⟩
  | namelessDoctype | doubleHyphen => exact ⟨'i', head?_ofList _ _, by decide⟩
  | _ => exact ⟨'s', head?_ofList _ _, by decide⟩

theorem exists_head?_referenceFault (fault : ReferenceFault) :
    ∃ c, fault.message.toList.head? = some c ∧ c ≠ 'u' := by
  unfold ReferenceFault.message
  cases fault with
  | unterminated before length =>
    refine ⟨'E', head?_append (head?_append ?_ _) _, by decide⟩
    exact head?_append (head?_append (head?_append (head?_ofList _ _) _) _) _
  | unrecognized before name =>
    refine ⟨'a', head?_append (head?_append (head?_append ?_ _) _) _, by decide⟩
    exact head?_append (head?_append (head?_append (head?_ofList _ _) _) _) _
  | character fault => exact ⟨'i', head?_append (head?_ofList _ _) _, by decide⟩

/-- The faults whose words begin with an `u` are those of nesting. -/
theorem exists_head?_message [WideDecoders] {fault : Fault} (h : fault.isOfNesting = false) :
    ∃ c, fault.message.toList.head? = some c ∧ c ≠ 'u' := by
  unfold Fault.message
  cases fault with
  | unexpectedEndTag | unclosedElement => cases h
  | token encoding reason => exact exists_head?_rejectionMessage encoding reason
  | reference fault => exact exists_head?_referenceFault fault
  | undecodable encoding => exact ⟨'i', head?_append (head?_ofList _ _) _, by decide⟩
  | illegalCharacter c => exact ⟨'i', head?_append (head?_ofList _ _) _, by decide⟩
  | «attribute» fault => exact ⟨'i', head?_append (head?_ofList _ _) _, by decide⟩
  | declarationNotFirst => exact ⟨'X', head?_ofList _ _, by decide⟩
  | doctypeAfterRoot | secondDoctype | secondRoot => exact ⟨'d', head?_ofList _ _, by decide⟩
  | textOutsideRoot => exact ⟨'t', head?_ofList _ _, by decide⟩
  | sectionEndInText | lessThanInValue => exact ⟨'\'', head?_ofList _ _, by decide⟩
  | noRoot => exact ⟨'n', head?_ofList _ _, by decide⟩

/-- No other fault has the words of an end tag that closes nothing. -/
theorem message_eq_unexpectedEndTag_iff [WideDecoders] {fault : Fault} :
    fault.message = Fault.unexpectedEndTag.message ↔ fault = .unexpectedEndTag := by
  refine ⟨fun heq => ?_, fun heq => by rw [heq]⟩
  cases hnesting : fault.isOfNesting with
  | false =>
    obtain ⟨c, hhead, hc⟩ := exists_head?_message hnesting
    have hother : Fault.unexpectedEndTag.message.toList.head? = some 'u' :=
      head?_ofList _ _
    rw [heq, hother] at hhead
    exact absurd (Option.some.inj hhead).symm hc
  | true =>
    cases fault with
    | unexpectedEndTag => rfl
    | unclosedElement name =>
      -- the words differ after `unexpected end`
      have hmessage : (Fault.unclosedElement name).message =
          "unexpected end of file, element <" ++ (name ++ "> is not closed") := by
        rw [← String.append_assoc]
        rfl
      have hother : Fault.unexpectedEndTag.message = "unexpected end tag" := rfl
      have hwords : "unexpected end of file, element <".toList.isPrefixOf
          "unexpected end tag".toList = false := by decide +kernel
      rw [← hother, ← heq, hmessage, String.toList_append, ← Bool.not_eq_true,
        List.isPrefixOf_iff_prefix] at hwords
      exact absurd (List.prefix_append _ _) hwords
    | _ => cases hnesting

/-! ## Every document -/

theorem notWellFormed_inj {location other : Location} {details words : String}
    (h : Diagnostic.notWellFormed location details = .notWellFormed other words) :
    details = words := by
  have hmessage : "XML document is not well formed: " ++ details =
      "XML document is not well formed: " ++ words := congrArg Diagnostic.message h
  exact (String.append_right_inj _).mp hmessage

/-- **The lexer and the state agree on the open elements before every read.**  An end tag finds one
to close, the one that is reported as not closed is the innermost, and what is reported in the end
is the audit. -/
theorem audit_inStep [WideDecoders] (file : String) (source : Source) (index : ScriptIndex) :
    let locate := locationIn file (.ofSource source)
    (∀ tokens inspection, Reached index locate source tokens inspection →
      InStep index locate inspection) ∧
    (∀ tokens inspection verdict last, Reached index locate source tokens inspection →
      inspection.turn index locate = .stops verdict last →
        last.phase = .finished ∧ audit file source index = .ok last.diagnostics ∧
        last.diagnostics = inspection.diagnostics ++ verdict.toList.map (Failure.diagnostic locate) ∧
        (∀ location,
          .notWellFormed location Fault.unexpectedEndTag.message ∉ last.diagnostics) ∧
        ∀ failure, verdict = some failure → failure.fault ≠ .unexpectedEndTag ∧
          ∀ name, failure.fault = .unclosedElement name →
            ∃ raw, name = elementName raw ∧ Innermost tokens raw) ∧
    ∃ tokens inspection, Reached index locate source tokens inspection ∧
      ((∃ verdict last, inspection.turn index locate = .stops verdict last) ∨
        ∃ error, inspection.turn index locate = .fails error ∧
          audit file source index = .error error) := by
  intro locate
  refine ⟨fun tokens inspection hreached => hreached.follows.inStep, ?_, ?_⟩
  · intro tokens inspection verdict last hreached hturn
    have hfollows := hreached.follows
    obtain ⟨-, -, hphase, hdiagnostics⟩ := hfollows.of_stops hturn
    have hfault : ∀ failure, verdict = some failure → failure.fault ≠ .unexpectedEndTag ∧
        ∀ name, failure.fault = .unclosedElement name →
          ∃ raw, name = elementName raw ∧ Innermost tokens raw := by
      rintro failure rfl
      have hinnermost := hfollows.exists_innermost hturn
      constructor
      · intro hfault
        obtain ⟨raw, hother, -⟩ := hinnermost (by rw [hfault]; rfl)
        rw [hfault] at hother
        cases hother
      · intro name hfault
        obtain ⟨raw, hother, hraw⟩ := hinnermost (by rw [hfault]; rfl)
        rw [hfault] at hother
        exact ⟨raw, Fault.unclosedElement.inj hother, hraw⟩
    refine ⟨hphase, hfollows.audit_of_stops hturn, hdiagnostics, ?_, hfault⟩
    intro location hmem
    rw [hdiagnostics, hfollows.diagnostics_eq] at hmem
    rcases List.mem_append.mp hmem with hfinding | hverdict
    · have hmalformed : Diagnostic.notWellFormed location Fault.unexpectedEndTag.message ∈
          malformed (findingsAfter index locate source.signature.encoding [] tokens) :=
        List.mem_filter.mpr ⟨hfinding, rfl⟩
      rw [malformed_findingsAfter] at hmalformed
      cases hmalformed
    · obtain ⟨failure, hfailure, hsame⟩ := List.mem_map.mp hverdict
      apply (hfault failure (Option.mem_toList.mp hfailure)).1
      exact message_eq_unexpectedEndTag_iff.mp (notWellFormed_inj hsame)
  · have hstart : Reached index locate source [] (.ofSource source) := .start
    obtain ⟨tokens, last, hreached, hlast⟩ := hstart.exists_last
    refine ⟨tokens, last, hreached, ?_⟩
    cases hturn : last.turn index locate with
    | goesOn next => exact absurd hturn (hlast next)
    | stops verdict final => exact .inl ⟨verdict, final, rfl⟩
    | fails error => exact .inr ⟨error, rfl, hreached.follows.audit_of_fails hturn⟩

/-- A document that ends inside of two elements. -/
def openDocument : Source := ⟨["<a><b/><c>".toUTF8.toList], none⟩

attribute [local instance] WideDecoders.asciiOnly

theorem audit_inStep_openDocument :
    let locate := locationIn "Form.xml" (.ofSource openDocument)
    ∃ tokens inspection last, Reached .empty locate openDocument tokens inspection ∧
      InStep .empty locate inspection ∧
      inspection.turn .empty locate = .stops (some ⟨10, .unclosedElement "c"⟩) last ∧
      last.phase = .finished ∧ ∃ raw, "c" = elementName raw ∧ Innermost tokens raw := by
  intro locate
  obtain ⟨hbefore, hstops, tokens, inspection, hreached, hend⟩ :=
    audit_inStep "Form.xml" openDocument .empty
  have hverdict : verdict? openDocument.signature.encoding openDocument.tokens =
      .ok (some ⟨10, .unclosedElement "c"⟩) := by decide +kernel
  rcases hend with ⟨verdict, last, hturn⟩ | ⟨error, -, herror⟩
  · obtain ⟨hphase, -, -, -, hfault⟩ := hstops tokens inspection verdict last hreached hturn
    have hsame := (hreached.follows.of_stops hturn).1
    rw [hverdict] at hsame
    obtain rfl := Except.ok.inj hsame
    exact ⟨tokens, inspection, last, hreached, hbefore tokens inspection hreached, hturn, hphase,
      (hfault _ rfl).2 "c" rfl⟩
  · rw [audit_eq, hverdict] at herror
    cases herror

end FormsAudit.Document
