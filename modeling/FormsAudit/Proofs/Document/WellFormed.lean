import FormsAudit.Proofs.Document.Findings

/-!
# Well-formed documents

`WellFormed` says what the tokens of a document have to be, with no state and no order in which they
are looked at.  A beginning is `Extendable` when tokens can follow that complete it to such a
document.

* `wellFormed_iff`: a document is well formed when every token is in a right place, no element is
  left open and there is an element at all.
* `extendable_iff`: a beginning can be completed when every token of it is in a right place; the
  tokens that complete it close what is open, and bring a root if there is none.
* `audit_malformed`: an audit reports exactly one fault of form, or none if the document is well
  formed, and reports it where the beginning ceases to be extendable.
-/

namespace FormsAudit.Document

open Markup

/-! ## Documents -/

/-- The tokens of a well-formed document. -/
structure WellFormed (tokens : List Token) : Prop where
  /-- Exactly one element is in no other. -/
  root : ∃! before, ∃ token, before ++ [token] <+: tokens ∧ token.event.isTag ∧
    openAfter before = []
  closed : openAfter tokens = []
  /-- A document type comes before every element and every other document type. -/
  doctype : Stepwise (fun before token =>
    token.event.isDoctype → hasDoctype before = false ∧ hasTag before = false) tokens
  declaration : ∀ token ∈ tokens, ∀ content, token.event = .declaration content → token.start = 0
  /-- Text outside of every element is blank. -/
  text : Stepwise (fun before token =>
    ∀ content, token.event = .text content → openAfter before = [] →
      ∀ byte ∈ content, isSpace byte) tokens

/-- The content of every token passes its checks, in the encoding in force at its place. -/
def ContentPasses [WideDecoders] (signature : Encoding) (tokens : List Token) : Prop :=
  Stepwise (fun before token =>
    ∃ attributes, checkContent (encodingOf signature before token) token = .ok attributes) tokens

/-- The tokens are as a lexer gives them, and their content passes. -/
structure Sound [WideDecoders] (signature : Encoding) (tokens : List Token) : Prop where
  adjacent : Adjacent tokens
  nested : Nested tokens
  content : ContentPasses signature tokens

/-- Tokens can follow that make a well-formed document of these. -/
def Extendable [WideDecoders] (signature : Encoding) (tokens : List Token) : Prop :=
  ∃ others, Sound signature (tokens ++ others) ∧ WellFormed (tokens ++ others)

/-- Every token is in a right place. -/
def Placed (tokens : List Token) : Prop :=
  Stepwise (fun before token => obstacle? before token = none) tokens

/-! ## Elements among the tokens -/

variable {signature : Encoding} {before tokens : List Token} {token : Token}

theorem hasTag_of_isPrefix (hpre : before ++ [token] <+: tokens) (htag : token.event.isTag) :
    hasTag tokens = true :=
  List.any_eq_true.mpr ⟨token, mem_of_concat hpre, htag⟩

theorem openAfter_eq_nil (h : hasTag tokens = false) : openAfter tokens = [] := by
  induction tokens using List.reverseRecOn with
  | nil => rfl
  | append_singleton tokens token ih =>
    rw [hasTag_concat, Bool.or_eq_false_iff] at h
    rw [openAfter_concat, ih h.1]
    obtain ⟨-, htag⟩ := h
    revert htag
    cases token.event <;> simp [trackOpen, Event.isTag]

/-- The first element is in no other. -/
theorem exists_root (h : hasTag tokens = true) :
    ∃ before token, before ++ [token] <+: tokens ∧ token.event.isTag ∧ openAfter before = [] := by
  induction tokens using List.reverseRecOn with
  | nil => cases h
  | append_singleton tokens token ih =>
    cases htag : hasTag tokens with
    | true =>
      obtain ⟨before, root, hpre, hroot⟩ := ih htag
      exact ⟨before, root, hpre.trans (List.prefix_append _ _), hroot⟩
    | false =>
      rw [hasTag_concat, htag, Bool.false_or] at h
      exact ⟨tokens, token, List.prefix_rfl, h, openAfter_eq_nil htag⟩

/-! ## Right places -/

theorem obstacle?_eq_none_iff :
    obstacle? before token = none ↔
      (∀ content, token.event = .declaration content → token.start = 0) ∧
        (token.event.isDoctype → hasDoctype before = false ∧ hasTag before = false) ∧
        (token.event.isTag → openAfter before = [] → hasTag before = false) ∧
        (∀ name, token.event = .endTag name → openAfter before ≠ []) ∧
        ∀ content, token.event = .text content → openAfter before = [] →
          ∀ byte ∈ content, isSpace byte := by
  obtain ⟨start, stop, event⟩ := token
  cases event with
  | doctype content =>
    cases hroot : hasTag before <;> cases hdoctype : hasDoctype before <;>
      simp [obstacle?, Event.isDoctype, Event.isTag, hroot, hdoctype]
  | startTag content | emptyTag content =>
    cases hroot : hasTag before <;> simp [obstacle?, Event.isDoctype, Event.isTag, hroot]
  | _ => simp [obstacle?, Event.isDoctype, Event.isTag]

theorem WellFormed.placed (h : WellFormed tokens) (hnested : Nested tokens) : Placed tokens := by
  intro before token hpre
  have htoken : token ∈ tokens := mem_of_concat hpre
  refine obstacle?_eq_none_iff.mpr ⟨h.declaration token htoken, h.doctype before token hpre, ?_, ?_,
    h.text before token hpre⟩
  · intro htag hopened
    by_contra hbefore
    -- an element before this one would be a second root
    obtain ⟨other, second, hsecond, hroot⟩ := exists_root (Bool.not_eq_false _ ▸ hbefore)
    obtain ⟨root, -, hunique⟩ := h.root
    have hother : other = root :=
      hunique other ⟨second, hsecond.trans (isPrefix_of_concat hpre), hroot⟩
    have hthis : before = root := hunique before ⟨token, hpre, htag, hopened⟩
    have hlength := hsecond.length_le
    rw [hother, hthis, List.length_append, List.length_singleton] at hlength
    omega
  · intro name hname hopened
    have hhead := hnested before token hpre name hname
    rw [hopened] at hhead
    cases hhead

/-- Where every token is in a right place there is one root at most. -/
theorem Placed.root_unique (h : Placed tokens) {other : List Token} {second : Token}
    (hpre : before ++ [token] <+: tokens) (htag : token.event.isTag)
    (hopened : openAfter before = []) (hsecond : other ++ [second] <+: tokens)
    (htag' : second.event.isTag) (hopened' : openAfter other = []) : before = other := by
  -- no element comes before a root
  have hlater : ∀ {before other : List Token} {token second : Token},
      before ++ [token] <+: tokens → token.event.isTag → openAfter before = [] →
      second.event.isTag → ¬ other ++ [second] <+: before := by
    intro before other token second hpre htag hopened htag' hinside
    have hnone := (obstacle?_eq_none_iff.mp (h before token hpre)).2.2.1 htag hopened
    rw [hasTag_of_isPrefix hinside htag'] at hnone
    cases hnone
  rcases isPrefix_trichotomy hpre hsecond with hinside | heq | hinside
  · exact absurd hinside (hlater hsecond htag' hopened' htag)
  · exact heq
  · exact absurd hinside (hlater hpre htag hopened htag')

theorem Placed.wellFormed (h : Placed tokens) (hclosed : openAfter tokens = [])
    (htag : hasTag tokens = true) : WellFormed tokens where
  root := by
    obtain ⟨root, first, hfirst, hroot, hopened⟩ := exists_root htag
    refine ⟨root, ⟨first, hfirst, hroot, hopened⟩, ?_⟩
    rintro other ⟨second, hsecond, htag', hother⟩
    exact h.root_unique hsecond htag' hother hfirst hroot hopened
  closed := hclosed
  doctype := by
    intro before token hpre
    exact (obstacle?_eq_none_iff.mp (h before token hpre)).2.1
  declaration := by
    intro token htoken
    obtain ⟨before, after, rfl⟩ := List.append_of_mem htoken
    have hpre : before ++ [token] <+: before ++ token :: after := by simp
    exact (obstacle?_eq_none_iff.mp (h before token hpre)).1
  text := by
    intro before token hpre
    exact (obstacle?_eq_none_iff.mp (h before token hpre)).2.2.2.2

/-- **A well-formed document is one whose tokens are all in a right place, that leaves no element
open and has one.** -/
theorem wellFormed_iff (hnested : Nested tokens) :
    WellFormed tokens ↔ Placed tokens ∧ openAfter tokens = [] ∧ hasTag tokens = true := by
  constructor
  · intro h
    obtain ⟨root, ⟨first, hfirst, htag, -⟩, -⟩ := h.root
    exact ⟨h.placed hnested, h.closed, hasTag_of_isPrefix hfirst htag⟩
  · rintro ⟨hplaced, hclosed, htag⟩
    exact hplaced.wellFormed hclosed htag

/-! ## Completing a beginning -/

section

variable [WideDecoders]

theorem Sound.of_isPrefix (h : Sound signature tokens) (hpre : before <+: tokens) :
    Sound signature before :=
  ⟨h.adjacent.of_isPrefix hpre, h.nested.of_isPrefix hpre, h.content.of_isPrefix hpre⟩

/-- The end tags that close the elements of the given names, from an offset on. -/
def closingTags (offset : Nat) : List (List UInt8) → List Token
  | [] => []
  | name :: outer =>
    ⟨offset, offset + name.length + 3, .endTag name⟩ ::
      closingTags (offset + name.length + 3) outer

/-- What is open can be closed. -/
theorem extendable_of_hasTag (hsound : Sound signature tokens) (hplaced : Placed tokens)
    (htag : hasTag tokens = true) : Extendable signature tokens := by
  refine ⟨closingTags (stopOf tokens) (openAfter tokens), ?_⟩
  generalize hnames : openAfter tokens = names
  induction names generalizing tokens with
  | nil =>
    rw [closingTags, List.append_nil]
    exact ⟨hsound, (wellFormed_iff hsound.nested).mpr ⟨hplaced, hnames, htag⟩⟩
  | cons name outer ih =>
    rw [closingTags, List.append_cons]
    set last : Token := ⟨stopOf tokens, stopOf tokens + name.length + 3, .endTag name⟩
    have hlength : last.start < last.stop := by
      dsimp only [last]
      omega
    have hopened : openAfter (tokens ++ [last]) = outer := by
      rw [openAfter_concat, hnames]
      rfl
    have hlast : Sound signature (tokens ++ [last]) := by
      refine ⟨stepwise_concat.mpr ⟨hsound.adjacent, rfl, hlength⟩,
        stepwise_concat.mpr ⟨hsound.nested, fun other hother => ?_⟩,
        stepwise_concat.mpr ⟨hsound.content, [], rfl⟩⟩
      rw [hnames, ← Event.endTag.inj hother, List.head?_cons]
    have hplace : obstacle? tokens last = none := by
      simp [obstacle?, last, hnames]
    have := ih hlast (stepwise_concat.mpr ⟨hplaced, hplace⟩) (by simp [htag]) hopened
    rwa [stopOf_concat] at this

theorem checkTag_nil (encoding : Encoding) (start : Nat) : checkTag encoding start [] = .ok [] := by
  have hnil : encoding.decode? [] = some [] := by
    cases encoding with
    | wide page => exact WideDecoders.decode?_nil page
    | _ => rfl
  rw [checkTag, decodeAt, hnil]
  rfl

/-- A root can be brought where there is none. -/
theorem extendable_of_hasTag_eq_false (hsound : Sound signature tokens) (hplaced : Placed tokens)
    (htag : hasTag tokens = false) : Extendable signature tokens := by
  set root : Token := ⟨stopOf tokens, stopOf tokens + 2, .startTag []⟩
  have hroot : Sound signature (tokens ++ [root]) :=
    ⟨stepwise_concat.mpr ⟨hsound.adjacent, rfl, Nat.lt_add_of_pos_right (by decide)⟩,
      stepwise_concat.mpr ⟨hsound.nested, by simp [root]⟩,
      stepwise_concat.mpr ⟨hsound.content, [], checkTag_nil _ _⟩⟩
  have hplace : obstacle? tokens root = none := by
    simp [obstacle?, root, htag]
  obtain ⟨others, hothers⟩ :=
    extendable_of_hasTag hroot (stepwise_concat.mpr ⟨hplaced, hplace⟩)
      (by simp [root, Event.isTag])
  exact ⟨root :: others, by simpa using hothers⟩

/-- **A beginning can be completed exactly when every token of it is in a right place.** -/
theorem extendable_iff (hsound : Sound signature tokens) :
    Extendable signature tokens ↔ Placed tokens := by
  constructor
  · rintro ⟨others, hothers, hwell⟩
    exact ((wellFormed_iff hothers.nested).mp hwell).1.of_isPrefix (List.prefix_append _ _)
  · intro hplaced
    cases htag : hasTag tokens with
    | true => exact extendable_of_hasTag hsound hplaced htag
    | false => exact extendable_of_hasTag_eq_false hsound hplaced htag

/-! ## The fault of form that an audit reports -/

/-- The diagnostics of faults of form among others. -/
def malformed (diagnostics : List Diagnostic) : List Diagnostic :=
  diagnostics.filter (·.rule == .notWellFormed)

/-- The offset of the first token after which the document can no more be completed, or that of the
end where it can be completed up to there. -/
def CeasesAt (signature : Encoding) (tokens : List Token) (stop offset : Nat) : Prop :=
  (∃ before token, before ++ [token] <+: tokens ∧ Extendable signature before ∧
      ¬ Extendable signature (before ++ [token]) ∧ offset = token.start) ∨
    Extendable signature tokens ∧ offset = stop

omit [WideDecoders] in
theorem malformed_append (first second : List Diagnostic) :
    malformed (first ++ second) = malformed first ++ malformed second :=
  List.filter_append ..

omit [WideDecoders] in
/-- The findings of scripts are no faults of form. -/
theorem malformed_scriptFindings (index : ScriptIndex) (location : Location) (name : String)
    (value : Option String) : malformed (scriptFindings index location name value) = [] := by
  cases value with
  | none => rfl
  | some value =>
    simp only [scriptFindings]
    cases index.resolve value <;> rfl

theorem malformed_tokenFindings (index : ScriptIndex) (locate : Nat → Location)
    (signature : Encoding) (before : List Token) (token : Token) :
    malformed (tokenFindings index locate signature before token) = [] := by
  unfold tokenFindings
  cases token.event with
  | startTag raw | emptyTag raw =>
    dsimp only
    split
    · rw [malformed, List.filter_flatMap, List.flatMap_eq_nil_iff]
      intro name _
      exact malformed_scriptFindings index _ name _
    · rfl
  | _ => rfl

theorem malformed_findingsAfter (index : ScriptIndex) (locate : Nat → Location)
    (signature : Encoding) (before tokens : List Token) :
    malformed (findingsAfter index locate signature before tokens) = [] := by
  induction tokens generalizing before with
  | nil => rfl
  | cons token rest ih =>
    rw [findingsAfter, malformed_append, malformed_tokenFindings, ih, List.append_nil]

theorem placed_acceptedAfter : Placed (acceptedAfter signature [] tokens) := by
  intro before token hpre
  have haccepted : rejection? signature ([] ++ before) token = none :=
    rejection?_of_prefix_acceptedAfter hpre
  exact (accept_of_rejection?_eq_none haccepted).1

/-- All tokens are accepted when all are in right places and their content passes. -/
theorem acceptedAfter_eq_iff :
    acceptedAfter signature [] tokens = tokens ↔ Placed tokens ∧ ContentPasses signature tokens := by
  constructor
  · intro hall
    have hnone : ∀ before token, before ++ [token] <+: tokens →
        rejection? signature before token = none := by
      intro before token hpre
      exact rejection?_of_prefix_acceptedAfter (hall.symm ▸ hpre)
    constructor
    · intro before token hpre
      exact (accept_of_rejection?_eq_none (hnone before token hpre)).1
    · intro before token hpre
      obtain ⟨-, attributes, hcheck, -⟩ := accept_of_rejection?_eq_none (hnone before token hpre)
      exact ⟨attributes, hcheck⟩
  · rintro ⟨hplaced, hcontent⟩
    rcases firstRejection?_spec signature [] tokens with
      ⟨-, hall⟩ | ⟨token, failure, -, hpre, hrejection⟩
    · exact hall
    · obtain ⟨attributes, hcheck⟩ := hcontent _ _ hpre
      simp [rejection?_eq, hplaced _ _ hpre, hcheck] at hrejection

/-- A token whose content passes is rejected for its place alone. -/
theorem misplaced_of_rejection? {failure : Failure} (hcontent : ContentPasses signature tokens)
    (hpre : before ++ [token] <+: tokens)
    (hrejection : rejection? signature before token = some failure) :
    ¬ Placed (before ++ [token]) ∧ failure.offset = token.start := by
  obtain ⟨found, hfound⟩ := hcontent before token hpre
  rw [rejection?_eq] at hrejection
  cases hobstacle : obstacle? before token with
  | none => simp [hobstacle, hfound] at hrejection
  | some fault =>
    simp only [hobstacle, Option.some.injEq] at hrejection
    refine ⟨?_, by rw [← hrejection]⟩
    intro hplaced
    have hplace : obstacle? before token = none := hplaced before token List.prefix_rfl
    rw [hobstacle] at hplace
    cases hplace

/-- Tokens whose content passes are accepted while they are in right places.  The one that is not
ends the document, and no beginning with it can be completed. -/
theorem verdict?_eq (stop : Nat) (hsound : Sound signature tokens) :
    ∃ verdict, verdict? signature ⟨tokens, .complete stop⟩ = .ok verdict ∧
      (verdict = none ↔ WellFormed tokens) ∧
      ∀ failure, verdict = some failure → CeasesAt signature tokens stop failure.offset := by
  unfold verdict?
  rw [wellFormed_iff hsound.nested]
  rcases firstRejection?_spec signature [] tokens with
    ⟨hnone, hall⟩ | ⟨token, failure, hsome, hpre, hrejection⟩
  · have hplaced : Placed tokens := by
      rw [← hall]
      exact placed_acceptedAfter
    obtain ⟨hfinish, hoffset⟩ := finish_ofTokens signature tokens stop
    refine ⟨(State.ofTokens signature tokens).finish stop, by rw [hnone]; rfl, ?_, ?_⟩
    · rw [hfinish]
      exact (and_iff_right hplaced).symm
    · intro failure hfailure
      exact .inr ⟨(extendable_iff hsound).mpr hplaced, hoffset failure hfailure⟩
  · set accepted := acceptedAfter signature [] tokens
    obtain ⟨hmisplaced, hoffset⟩ := misplaced_of_rejection? hsound.content hpre hrejection
    refine ⟨some failure, by rw [hsome], ?_, ?_⟩
    · apply iff_of_false
      · exact Option.some_ne_none failure
      · intro h
        exact hmisplaced (h.1.of_isPrefix hpre)
    · rintro _ ⟨⟩
      have hbefore : Sound signature accepted := hsound.of_isPrefix (isPrefix_of_concat hpre)
      have hwith : Sound signature (accepted ++ [token]) := hsound.of_isPrefix hpre
      left
      refine ⟨accepted, token, hpre, ?_, ?_, hoffset⟩
      · exact (extendable_iff hbefore).mpr placed_acceptedAfter
      · rw [extendable_iff hwith]
        exact hmisplaced

/-- **An audit reports one fault of form, and none of a well-formed document.**  The tokens are
given to the end, and the content of each passes its own checks.  The fault is located where the
document ceases to be one that can be completed. -/
theorem audit_malformed (file : String) (index : ScriptIndex) {source : Source} {stop : Nat}
    (hending : source.tokens.ending = .complete stop)
    (hcontent : ContentPasses source.signature.encoding source.tokens.tokens) :
    ∃ diagnostics, audit file source index = .ok diagnostics ∧
      (malformed diagnostics = [] ↔ WellFormed source.tokens.tokens) ∧
      (¬ WellFormed source.tokens.tokens → ∃ offset message,
        malformed diagnostics =
            [.notWellFormed (locationIn file (.ofSource source) offset) message] ∧
          CeasesAt source.signature.encoding source.tokens.tokens stop offset) := by
  have hsound : Sound source.signature.encoding source.tokens.tokens :=
    ⟨adjacent_tokens source, nested_tokens source, hcontent⟩
  obtain ⟨verdict, hverdict, hnone, hsome⟩ := verdict?_eq stop hsound
  rw [← hending] at hverdict
  rw [audit_eq, hverdict]
  refine ⟨_, rfl, ?_⟩
  rw [malformed_append, malformed_findingsAfter, List.nil_append]
  cases verdict with
  | none =>
    have hwell : WellFormed source.tokens.tokens := hnone.mp rfl
    exact ⟨iff_of_true rfl hwell, fun hnot => absurd hwell hnot⟩
  | some failure =>
    have hnot : ¬ WellFormed source.tokens.tokens := by
      intro hwell
      cases hnone.mpr hwell
    refine ⟨iff_of_false ?_ hnot, fun _ => ?_⟩
    · simp [malformed, Failure.diagnostic, Diagnostic.notWellFormed]
    · exact ⟨failure.offset, failure.fault.message, rfl, hsome failure rfl⟩

end

attribute [local instance] WideDecoders.asciiOnly

theorem wellFormed_bareApplication :
    bareApplication.tokens.ending = .complete 37 ∧
      ContentPasses bareApplication.signature.encoding bareApplication.tokens.tokens ∧
      WellFormed bareApplication.tokens.tokens := by
  have hending : bareApplication.tokens.ending = .complete 37 := by decide +kernel
  have htokens : bareApplication.tokens.tokens =
      [] ++ [⟨0, 22, .doctype "Application".toUTF8.toList⟩] ++ [⟨22, 23, .text [0x0A]⟩] ++
        [⟨23, 37, .emptyTag "Application".toUTF8.toList⟩] := by decide +kernel
  have hcontent :
      ContentPasses bareApplication.signature.encoding bareApplication.tokens.tokens := by
    rw [htokens, ContentPasses]
    refine stepwise_concat.mpr ⟨stepwise_concat.mpr
      ⟨stepwise_concat.mpr ⟨stepwise_nil, [], rfl⟩, [], ?_⟩, [], ?_⟩ <;> decide +kernel
  obtain ⟨diagnostics, haudit, hiff, -⟩ :=
    audit_malformed "Form.xml" .empty hending hcontent
  refine ⟨hending, hcontent, hiff.mp ?_⟩
  have hmalformed : (audit "Form.xml" bareApplication .empty).map malformed = .ok [] := by
    decide +kernel
  rw [haudit] at hmalformed
  exact Except.ok.inj hmalformed

end FormsAudit.Document
