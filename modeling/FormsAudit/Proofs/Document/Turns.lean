import FormsAudit.Proofs.Document.Truncated
import FormsAudit.Proofs.Markup.Reader

/-!
# An audit turn by turn

An audit is defined on all tokens of a document.  Here it goes from token to token: an `Inspection`
is what is kept between two reads, and a turn (`Inspection.turn`) is one read and what is made of
it.

* `Follows` says what an inspection has to do with the tokens read so far; `follows_of_turn` is the
  step that keeps it, and by `Reached.follows` it holds before every read.
* There is a last turn (`Reached.exists_last`), and what it leaves is the audit
  (`Follows.audit_of_stops`, `Follows.audit_of_fails`).
-/

namespace FormsAudit.Document

open Markup

/-! ## Turns -/

/-- How far an inspection has come. -/
inductive Phase where
  | start
  | parsing
  /-- The document type is the one whose elements refer to scripts. -/
  | application
  /-- The verdict is known. -/
  | finished
  deriving DecidableEq, Repr

/-- The phase after an event that is accepted. -/
def Phase.after (phase : Phase) (event : Event) : Phase :=
  if namesApplication event then .application
  else if phase = .start then .parsing
  else phase

/-- What is wrong with an element's script attributes: nothing unless it is an application and the
phase asks for its scripts. -/
def Phase.findings (phase : Phase) (index : ScriptIndex) (locate : Nat → Location)
    (element : Element) : List Diagnostic :=
  if phase = .application ∧ element.name = applicationName.toUTF8.toList then
    applicationFindings index (locate element.start) element.attributes
  else
    []

/-- What is kept between two reads. -/
structure Inspection where
  reader : Reader
  phase : Phase
  state : State
  diagnostics : List Diagnostic
  deriving DecidableEq, Repr

/-- What a turn comes to. -/
inductive Turn where
  /-- Another token is read. -/
  | goesOn (next : Inspection)
  /-- Nothing more is read; the verdict is the failure, if there is one. -/
  | stops (verdict : Option Failure) (last : Inspection)
  | fails (error : SystemError)
  deriving DecidableEq, Repr

namespace Inspection

/-- Before the first read of a source. -/
def ofSource (source : Source) : Inspection :=
  ⟨.ofSource source, .start, .initial source.signature.encoding, []⟩

variable [WideDecoders]

/-- Reports the failure that ends the document. -/
def fail (locate : Nat → Location) (inspection : Inspection) (failure : Failure) : Inspection :=
  { inspection with
    phase := .finished
    diagnostics := inspection.diagnostics ++ [failure.diagnostic locate] }

/-- Reports what is missing at the end of the input, if anything is. -/
def finish (locate : Nat → Location) (inspection : Inspection) (stop : Nat) : Inspection :=
  match inspection.state.finish stop with
  | some failure => inspection.fail locate failure
  | none => { inspection with phase := .finished }

/-- One read, and what is made of it.  A token that is rejected leaves the state as it was; the reader
is past it. -/
def turn (index : ScriptIndex) (locate : Nat → Location) (inspection : Inspection) : Turn :=
  match inspection.reader.read with
  | .token token reader =>
    match inspection.state.accept token with
    | .ok (state, element) =>
      let phase := inspection.phase.after token.event
      let findings := (element.map (phase.findings index locate)).getD []
      .goesOn ⟨reader, phase, state, inspection.diagnostics ++ findings⟩
    | .error failure => .stops (some failure) ({ inspection with reader }.fail locate failure)
  | .ended (.complete stop) =>
    .stops (inspection.state.finish stop) (inspection.finish locate stop)
  | .ended (.rejected offset reason) =>
    let failure : Failure := ⟨offset, .token inspection.state.encoding reason⟩
    .stops (some failure) (inspection.fail locate failure)
  | .ended (.unreadable error) => .fails error

end Inspection

variable [WideDecoders]

/-- The tokens have been read one after the other, and each turn but the next has gone on. -/
inductive Reached (index : ScriptIndex) (locate : Nat → Location) (source : Source) :
    List Token → Inspection → Prop
  | start : Reached index locate source [] (.ofSource source)
  | turn {tokens : List Token} {token : Token} {inspection next : Inspection} {reader : Reader} :
      Reached index locate source tokens inspection →
      inspection.reader.read = .token token reader → inspection.turn index locate = .goesOn next →
      Reached index locate source (tokens ++ [token]) next

/-! ## What is kept, and the tokens -/

section

variable {index : ScriptIndex} {locate : Nat → Location} {source : Source} {tokens : List Token}
  {inspection : Inspection}

/-- What an inspection has to do with the tokens that it has read. -/
structure Follows (index : ScriptIndex) (locate : Nat → Location) (source : Source)
    (tokens : List Token) (inspection : Inspection) : Prop where
  tokens_eq : source.tokens.tokens = tokens ++ inspection.reader.remaining.tokens
  ending_eq : source.tokens.ending = inspection.reader.remaining.ending
  opened_eq : inspection.reader.lexer.opened = openAfter tokens
  state_eq : inspection.state = .ofTokens source.signature.encoding tokens
  phase_iff : inspection.phase = .application ↔ declaresApplication tokens = true
  accepted : tokens <+: acceptedAfter source.signature.encoding [] source.tokens.tokens
  diagnostics_eq : inspection.diagnostics =
    findingsAfter index locate source.signature.encoding [] tokens

theorem follows_ofSource (index : ScriptIndex) (locate : Nat → Location) (source : Source) :
    Follows index locate source [] (.ofSource source) where
  tokens_eq := congrArg Reading.tokens (Reader.remaining_ofSource source).symm
  ending_eq := congrArg Reading.ending (Reader.remaining_ofSource source).symm
  opened_eq := rfl
  state_eq := rfl
  phase_iff := by simp [Inspection.ofSource, declaresApplication]
  accepted := List.nil_prefix
  diagnostics_eq := rfl

omit [WideDecoders] in
theorem Phase.after_eq_application_iff (phase : Phase) (event : Event) :
    phase.after event = .application ↔ phase = .application ∨ namesApplication event = true := by
  unfold Phase.after
  cases namesApplication event <;> cases phase <;> simp

omit [WideDecoders] in
/-- The phase asks for scripts where the state does. -/
theorem Phase.findings_eq {phase : Phase} {state : State}
    (h : phase = .application ↔ state.isApplication = true) :
    phase.findings index locate = elementFindings index locate state := by
  funext element
  unfold Phase.findings elementFindings
  simp only [h, Bool.and_eq_true, beq_iff_eq]

/-- The token that is read comes right after those that have been. -/
theorem Follows.isPrefix (h : Follows index locate source tokens inspection) {token : Token}
    {reader : Reader} (hread : inspection.reader.read = .token token reader) :
    tokens ++ [token] <+: source.tokens.tokens := by
  rw [h.tokens_eq, remaining_of_token hread]
  simp

/-- A token that is not rejected makes the inspection go on, and it then follows one token more. -/
theorem follows_of_turn (h : Follows index locate source tokens inspection) {token : Token}
    {reader : Reader} (hread : inspection.reader.read = .token token reader)
    (hrejection : rejection? source.signature.encoding tokens token = none) :
    ∃ next, inspection.turn index locate = .goesOn next ∧
      Follows index locate source (tokens ++ [token]) next := by
  obtain ⟨-, attributes, hcheck, haccept⟩ := accept_of_rejection?_eq_none hrejection
  have hphase : inspection.phase.after token.event = .application ↔
      declaresApplication (tokens ++ [token]) = true := by
    rw [Phase.after_eq_application_iff, h.phase_iff, declaresApplication_concat, Bool.or_eq_true]
  have hfindings : ((element? token attributes).map
      ((inspection.phase.after token.event).findings index locate)).getD [] =
        tokenFindings index locate source.signature.encoding tokens token := by
    rw [← elementFindings_eq_tokenFindings hcheck, Phase.findings_eq]
    exact hphase
  refine ⟨_, by simp only [Inspection.turn, hread, h.state_eq, haccept]; rfl, ?_⟩
  constructor
  · rw [h.tokens_eq, remaining_of_token hread]
    simp
  · rw [h.ending_eq, remaining_of_token hread]
  · rw [openAfter_concat, ← h.opened_eq]
    exact opened_of_read hread
  · rfl
  · exact hphase
  · rcases accepted_or_rejected (h.isPrefix hread) h.accepted with
      ⟨-, haccepted⟩ | ⟨failure, hrejected, -⟩
    · exact haccepted
    · rw [hrejection] at hrejected
      cases hrejected
  · simp only [hfindings, h.diagnostics_eq, findingsAfter_append, findingsAfter, List.nil_append,
      List.append_nil]

/-- A token that is rejected makes the inspection stop with the failure. -/
theorem turn_of_rejection? (h : Follows index locate source tokens inspection) {token : Token}
    {reader : Reader} (hread : inspection.reader.read = .token token reader) {failure : Failure}
    (hrejection : rejection? source.signature.encoding tokens token = some failure) :
    inspection.turn index locate =
      .stops (some failure) ({ inspection with reader }.fail locate failure) := by
  unfold rejection? at hrejection
  split at hrejection
  · rename_i found haccept
    cases hrejection
    simp only [Inspection.turn, hread, h.state_eq, haccept]
  · cases hrejection

theorem Reached.follows (h : Reached index locate source tokens inspection) :
    Follows index locate source tokens inspection := by
  induction h with
  | start => exact follows_ofSource index locate source
  | @turn tokens token inspection next reader _ hread hturn ih =>
    cases hrejection : rejection? source.signature.encoding tokens token with
    | none =>
      obtain ⟨other, hother, hfollows⟩ := follows_of_turn ih hread hrejection
      rw [hturn] at hother
      rwa [Turn.goesOn.inj hother]
    | some failure =>
      rw [turn_of_rejection? ih hread hrejection] at hturn
      cases hturn

/-! ## The last turn -/

/-- When the tokens end, all of them have been accepted. -/
theorem Follows.of_ended (h : Follows index locate source tokens inspection) {ending : Ending}
    (hread : inspection.reader.read = .ended ending) :
    source.tokens = ⟨tokens, ending⟩ ∧
      acceptedAfter source.signature.encoding [] tokens = tokens := by
  have htokens : source.tokens.tokens = tokens := by
    rw [h.tokens_eq, remaining_of_ended hread, List.append_nil]
  have hending : source.tokens.ending = ending := by
    rw [h.ending_eq, remaining_of_ended hread]
  have haccepted := h.accepted
  rw [htokens] at haccepted
  refine ⟨by rw [← htokens, ← hending], ?_⟩
  exact acceptedAfter_isPrefix.eq_of_length_le haccepted.length_le

/-- The verdict on tokens that are all accepted is what their end means. -/
theorem verdict?_of_accepted {signature : Encoding} {ending : Ending}
    (h : acceptedAfter signature [] tokens = tokens) :
    verdict? signature ⟨tokens, ending⟩ =
      endingFailure (.ofTokens signature tokens) ending := by
  unfold verdict?
  rcases firstRejection?_spec signature [] tokens with ⟨hnone, -⟩ | ⟨token, failure, -, hpre, -⟩
  · simp only [hnone]
  · rw [h] at hpre
    have hlength := hpre.length_le
    rw [List.length_append, List.length_singleton] at hlength
    omega

/-- The inspection stops with the verdict on the document, and reports it after its findings. -/
theorem Follows.of_stops (h : Follows index locate source tokens inspection)
    {verdict : Option Failure} {last : Inspection}
    (hturn : inspection.turn index locate = .stops verdict last) :
    verdict? source.signature.encoding source.tokens = .ok verdict ∧
      acceptedAfter source.signature.encoding [] source.tokens.tokens = tokens ∧
      last.phase = .finished ∧
      last.diagnostics = inspection.diagnostics ++ verdict.toList.map (Failure.diagnostic locate) := by
  cases hread : inspection.reader.read with
  | token token reader =>
    rcases accepted_or_rejected (h.isPrefix hread) h.accepted with
      ⟨hrejection, -⟩ | ⟨failure, hrejection, hfirst, haccepted⟩
    · obtain ⟨next, hnext, -⟩ := follows_of_turn h hread hrejection
      rw [hturn] at hnext
      cases hnext
    · rw [turn_of_rejection? h hread hrejection] at hturn
      cases hturn
      exact ⟨by rw [verdict?, hfirst], haccepted, rfl, rfl⟩
  | ended ending =>
    obtain ⟨htokens, haccepted⟩ := h.of_ended hread
    rw [htokens, verdict?_of_accepted haccepted, ← h.state_eq]
    simp only [Inspection.turn, hread] at hturn
    cases ending with
    | complete stop =>
      obtain ⟨rfl, rfl⟩ := Turn.stops.inj hturn
      refine ⟨rfl, haccepted, ?_⟩
      unfold Inspection.finish
      cases inspection.state.finish stop with
      | some failure => exact ⟨rfl, rfl⟩
      | none => exact ⟨rfl, (List.append_nil _).symm⟩
    | rejected offset reason =>
      obtain ⟨rfl, rfl⟩ := Turn.stops.inj hturn
      exact ⟨rfl, haccepted, rfl, rfl⟩
    | unreadable error => cases hturn

/-- What the last turn leaves is what the audit reports. -/
theorem Follows.audit_of_stops {file : String}
    (h : Follows index (locationIn file (.ofSource source)) source tokens inspection)
    {verdict : Option Failure} {last : Inspection}
    (hturn : inspection.turn index (locationIn file (.ofSource source)) = .stops verdict last) :
    audit file source index = .ok last.diagnostics := by
  obtain ⟨hverdict, haccepted, -, hdiagnostics⟩ := h.of_stops hturn
  rw [audit_eq, hverdict, haccepted, hdiagnostics, h.diagnostics_eq]
  rfl

/-- A source that cannot be read to the verdict has no audit. -/
theorem Follows.audit_of_fails {file : String}
    (h : Follows index (locationIn file (.ofSource source)) source tokens inspection)
    {error : SystemError}
    (hturn : inspection.turn index (locationIn file (.ofSource source)) = .fails error) :
    audit file source index = .error error := by
  unfold Inspection.turn at hturn
  split at hturn
  · split at hturn <;> cases hturn
  · cases hturn
  · cases hturn
  · rename_i found hread
    obtain rfl := Turn.fails.inj hturn
    obtain ⟨htokens, haccepted⟩ := h.of_ended hread
    rw [audit_eq, htokens, verdict?_of_accepted haccepted]
    rfl

/-- Every turn that goes on reads a token, so one of them is the last. -/
theorem Reached.exists_last (h : Reached index locate source tokens inspection) :
    ∃ tokens last, Reached index locate source tokens last ∧
      ∀ next, last.turn index locate ≠ .goesOn next := by
  induction hlength : inspection.reader.remaining.tokens.length using Nat.strongRecOn
    generalizing tokens inspection with
  | ind length ih =>
  subst hlength
  by_cases hlast : ∀ next, inspection.turn index locate ≠ .goesOn next
  · exact ⟨tokens, inspection, h, hlast⟩
  push Not at hlast
  obtain ⟨next, hturn⟩ := hlast
  cases hread : inspection.reader.read with
  | token token reader =>
    have hnext := h.turn hread hturn
    have hcount := congrArg List.length (h.follows.tokens_eq.symm.trans hnext.follows.tokens_eq)
    simp only [List.length_append, List.length_singleton] at hcount
    exact ih _ (by omega) hnext rfl
  | ended ending =>
    simp only [Inspection.turn, hread] at hturn
    cases ending <;> cases hturn

end

end FormsAudit.Document
