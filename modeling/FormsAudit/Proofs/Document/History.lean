import FormsAudit.Document.Audit
import FormsAudit.Proofs.Markup.Lexed

/-!
# The state as a summary of the tokens so far

The structure of a document is checked by a machine that keeps a state.  This file says what the
state is a state of: after accepted tokens it is `State.ofTokens`, which is read off the tokens
alone.  What a token meets is then a question about the tokens before it:

* `obstacle?` is the fault of a token that is in the wrong place;
* `checkContent` is the check of its own content, in the encoding in force at its place;
* `accept_ofTokens` says that a token is accepted when both let it pass, and which failure it gives
  otherwise.

Of the tokens of a document, `acceptedAfter` gives those up to the first that is rejected, and
`firstRejection?` its failure (`firstRejection?_spec`).
-/

namespace FormsAudit.Document

open Markup

/-! ## What the tokens tell -/

/-- The encoding in force after the tokens: that of the last declaration whose label is known. -/
def encodingAfter (signature : Encoding) (tokens : List Token) : Encoding :=
  tokens.foldl (fun encoding token =>
    match token.event with
    | .declaration content => ((declaredLabel? content).bind Encoding.ofLabel?).getD encoding
    | _ => encoding) signature

/-- The encoding in which a token is read that comes after `before`.  The first token is read as
UTF-8, whatever the signature says. -/
def encodingOf (signature : Encoding) (before : List Token) (token : Token) : Encoding :=
  if token.start = 0 then .utf8 else encodingAfter signature before

/-- Whether an element begins among the tokens. -/
def hasTag (tokens : List Token) : Bool :=
  tokens.any (·.event.isTag)

/-- Whether a document type is declared among the tokens. -/
def hasDoctype (tokens : List Token) : Bool :=
  tokens.any (·.event.isDoctype)

/-- Whether the event declares the type of documents whose elements refer to scripts. -/
def namesApplication : Event → Bool
  | .doctype content => doctypeName content == applicationName
  | _ => false

/-- Whether that type is declared among the tokens. -/
def declaresApplication (tokens : List Token) : Bool :=
  tokens.any fun token => namesApplication token.event

/-- The name of an open element as the state keeps it. -/
def elementName (name : List UInt8) : String := String.ofList (Utf8.decodeLossy name)

/-- The state that the tokens lead to. -/
def State.ofTokens (signature : Encoding) (tokens : List Token) : State where
  encoding := encodingAfter signature tokens
  opened := (openAfter tokens).map elementName
  rootSeen := hasTag tokens
  doctypeSeen := hasDoctype tokens
  isApplication := declaresApplication tokens

@[simp] theorem ofTokens_nil (signature : Encoding) :
    State.ofTokens signature [] = .initial signature := rfl

@[simp] theorem hasTag_concat (tokens : List Token) (token : Token) :
    hasTag (tokens ++ [token]) = (hasTag tokens || token.event.isTag) := by
  simp [hasTag]

@[simp] theorem hasDoctype_concat (tokens : List Token) (token : Token) :
    hasDoctype (tokens ++ [token]) = (hasDoctype tokens || token.event.isDoctype) := by
  simp [hasDoctype]

@[simp] theorem declaresApplication_concat (tokens : List Token) (token : Token) :
    declaresApplication (tokens ++ [token]) =
      (declaresApplication tokens || namesApplication token.event) := by
  simp [declaresApplication]

@[simp] theorem encodingAfter_concat (signature : Encoding) (tokens : List Token) (token : Token) :
    encodingAfter signature (tokens ++ [token]) =
      match token.event with
      | .declaration content =>
        ((declaredLabel? content).bind Encoding.ofLabel?).getD (encodingAfter signature tokens)
      | _ => encodingAfter signature tokens := by
  simp [encodingAfter]

theorem declaresApplication_eq_false {tokens : List Token} (h : hasDoctype tokens = false) :
    declaresApplication tokens = false := by
  rw [hasDoctype, List.any_eq_false] at h
  rw [declaresApplication, List.any_eq_false]
  intro token htoken hnames
  apply h token htoken
  revert hnames
  cases token.event <;> simp [namesApplication, Event.isDoctype]

theorem encodingAt_ofTokens (signature : Encoding) (before : List Token) (token : Token) :
    (State.ofTokens signature before).encodingAt token.start =
      encodingOf signature before token := rfl

theorem opened_isEmpty_ofTokens (signature : Encoding) (tokens : List Token) :
    (State.ofTokens signature tokens).opened.isEmpty = (openAfter tokens).isEmpty := by
  simp [State.ofTokens, List.isEmpty_map]

theorem rootSeen_ofTokens (signature : Encoding) (tokens : List Token) :
    (State.ofTokens signature tokens).rootSeen = hasTag tokens := rfl

/-! ## What a token meets -/

/-- The fault of a token that is in the wrong place after `before`. -/
def obstacle? (before : List Token) (token : Token) : Option Fault :=
  match token.event with
  | .declaration _ => if token.start = 0 then none else some .declarationNotFirst
  | .doctype _ =>
    if hasTag before then some .doctypeAfterRoot
    else if hasDoctype before then some .secondDoctype
    else none
  | .startTag _ | .emptyTag _ =>
    if (openAfter before).isEmpty && hasTag before then some .secondRoot else none
  | .endTag _ => if (openAfter before).isEmpty then some .unexpectedEndTag else none
  | .text content =>
    if (openAfter before).isEmpty && !content.all isSpace then some .textOutsideRoot else none
  | _ => none

variable [WideDecoders]

/-- The check of the content of a token, which gives the attributes of a tag. -/
def checkContent (encoding : Encoding) (token : Token) :
    Except Failure (List (String × String)) :=
  match token.event with
  | .startTag content | .emptyTag content => checkTag encoding token.start content
  | .text content => (checkText encoding token.start content).map fun _ => []
  | .cdata content => (checkVerbatim encoding token.start 9 content).map fun _ => []
  | .comment content => (checkVerbatim encoding token.start 4 content).map fun _ => []
  | .instruction content => (checkVerbatim encoding token.start 2 content).map fun _ => []
  | _ => .ok []

/-- The element that a token with the given attributes begins, if it is a tag. -/
def element? (token : Token) (attributes : List (String × String)) : Option Element :=
  match token.event with
  | .startTag content | .emptyTag content => some ⟨token.start, tagName content, attributes⟩
  | _ => none

omit [WideDecoders] in
/-- A token that is no markup of structure leaves the state as it is. -/
private theorem ofTokens_concat_of_leaf {signature : Encoding} {before : List Token} {token : Token}
    (hleaf : ∀ names, trackOpen names token.event = names) (htag : token.event.isTag = false)
    (hdoctype : token.event.isDoctype = false)
    (hdeclaration : ∀ content, token.event ≠ .declaration content) :
    State.ofTokens signature (before ++ [token]) = State.ofTokens signature before := by
  have hencoding :
      encodingAfter signature (before ++ [token]) = encodingAfter signature before := by
    rw [encodingAfter_concat]
    split
    · rename_i content heq
      exact absurd heq (hdeclaration content)
    · rfl
  have hnames : namesApplication token.event = false := by
    revert hdoctype
    cases token.event <;> simp [namesApplication, Event.isDoctype]
  simp [State.ofTokens, hleaf, htag, hdoctype, hnames, hencoding]

omit [WideDecoders] in
private theorem map_check {state next : State} (hnext : next = state)
    (check : Except Failure Unit) :
    check.map (fun _ => (state, (none : Option Element))) =
      (check.map fun _ => ([] : List (String × String))).map fun _ => (next, none) := by
  subst hnext
  cases check <;> rfl

/-- A tag is accepted unless it begins a second root or its content does not pass. -/
private theorem acceptTag_ofTokens (signature : Encoding) (before : List Token) (start stop : Nat)
    (content : List UInt8) (empty : Bool) :
    let token : Token := ⟨start, stop, if empty then .emptyTag content else .startTag content⟩
    (State.ofTokens signature before).acceptTag start content empty =
      if (openAfter before).isEmpty && hasTag before then .error ⟨start, .secondRoot⟩
      else
        (checkTag (encodingOf signature before token) start content).map fun attributes =>
          (State.ofTokens signature (before ++ [token]),
            some ⟨start, tagName content, attributes⟩) := by
  intro token
  have hencoding :
      encodingAfter signature (before ++ [token]) = encodingAfter signature before := by
    cases empty <;> simp [token]
  have hdoctype : token.event.isDoctype = false := by cases empty <;> rfl
  have hnames : namesApplication token.event = false := by cases empty <;> rfl
  have htag : token.event.isTag = true := by cases empty <;> rfl
  unfold State.acceptTag
  rw [opened_isEmpty_ofTokens, rootSeen_ofTokens]
  split
  · rfl
  · rw [encodingAt_ofTokens signature before token]
    cases checkTag (encodingOf signature before token) start content with
    | error failure => rfl
    | ok attributes =>
      simp only [Except.map, bind, Except.bind]
      congr 2
      simp only [State.ofTokens, hencoding, hasTag_concat, hasDoctype_concat,
        declaresApplication_concat, openAfter_concat, hdoctype, hnames, htag, Bool.or_false,
        Bool.or_true]
      cases empty <;> rfl

/-- A token is accepted when it is in a right place and its content passes.  Its place is looked at
first. -/
theorem accept_ofTokens (signature : Encoding) (before : List Token) (token : Token) :
    (State.ofTokens signature before).accept token =
      match obstacle? before token with
      | some fault => .error ⟨token.start, fault⟩
      | none =>
        (checkContent (encodingOf signature before token) token).map fun attributes =>
          (State.ofTokens signature (before ++ [token]), element? token attributes) := by
  obtain ⟨start, stop, event⟩ := token
  cases event with
  | declaration content =>
    by_cases hstart : start = 0
    · simp only [State.accept, obstacle?, hstart, if_true, checkContent, element?, Except.map]
      cases hlabel : (declaredLabel? content).bind Encoding.ofLabel? <;>
        simp [State.declare, State.ofTokens, trackOpen, Event.isTag, Event.isDoctype,
          namesApplication, hlabel]
    · simp [State.accept, obstacle?, hstart]
  | doctype content =>
    simp only [State.accept, obstacle?, checkContent, element?, Except.map]
    by_cases hroot : hasTag before
    · simp [State.ofTokens, hroot]
    · by_cases hdoctype : hasDoctype before
      · simp [State.ofTokens, hroot, hdoctype]
      · simp [State.ofTokens, hroot, hdoctype, trackOpen, Event.isTag, Event.isDoctype,
          namesApplication, declaresApplication_eq_false (Bool.eq_false_iff.mpr hdoctype)]
  | startTag content =>
    have hstart := acceptTag_ofTokens signature before start stop content false
    apply hstart.trans
    simp only [obstacle?]
    split <;> rfl
  | emptyTag content =>
    have hempty := acceptTag_ofTokens signature before start stop content true
    apply hempty.trans
    simp only [obstacle?]
    split <;> rfl
  | endTag name =>
    simp only [State.accept, obstacle?, checkContent, element?, Except.map]
    cases hopened : openAfter before <;>
      simp [State.ofTokens, hopened, trackOpen, Event.isTag, Event.isDoctype, namesApplication]
  | text content =>
    simp only [State.accept, obstacle?, checkContent, element?]
    rw [opened_isEmpty_ofTokens]
    split
    · rfl
    · exact map_check (ofTokens_concat_of_leaf (by simp [trackOpen]) rfl rfl (by simp)) _
  | cdata content =>
    exact map_check (ofTokens_concat_of_leaf (by simp [trackOpen]) rfl rfl (by simp)) _
  | comment content =>
    exact map_check (ofTokens_concat_of_leaf (by simp [trackOpen]) rfl rfl (by simp)) _
  | instruction content =>
    exact map_check (ofTokens_concat_of_leaf (by simp [trackOpen]) rfl rfl (by simp)) _

omit [WideDecoders] in
/-- At the end, the failure is that an element is open or that there is none. -/
theorem finish_ofTokens (signature : Encoding) (tokens : List Token) (stop : Nat) :
    ((State.ofTokens signature tokens).finish stop = none ↔
        openAfter tokens = [] ∧ hasTag tokens = true) ∧
      ∀ failure, (State.ofTokens signature tokens).finish stop = some failure →
        failure.offset = stop := by
  cases hopened : openAfter tokens with
  | cons name outer =>
    have hfinish : (State.ofTokens signature tokens).finish stop =
        some ⟨stop, .unclosedElement (elementName name)⟩ := by
      simp [State.finish, State.ofTokens, hopened]
    rw [hfinish]
    refine ⟨by simp, ?_⟩
    rintro _ ⟨⟩
    rfl
  | nil =>
    have hfinish : (State.ofTokens signature tokens).finish stop =
        if hasTag tokens then none else some ⟨stop, .noRoot⟩ := by
      simp [State.finish, State.ofTokens, hopened]
    rw [hfinish]
    cases hasTag tokens with
    | true => simp
    | false =>
      refine ⟨by simp, ?_⟩
      rintro _ ⟨⟩
      rfl

/-! ## The first token that is rejected -/

/-- The failure that ends the document when `token` comes after `before` and is rejected there. -/
def rejection? (signature : Encoding) (before : List Token) (token : Token) : Option Failure :=
  match (State.ofTokens signature before).accept token with
  | .error failure => some failure
  | .ok _ => none

/-- Of the tokens that come after `before`, those up to the first that is rejected. -/
def acceptedAfter (signature : Encoding) (before : List Token) : List Token → List Token
  | [] => []
  | token :: rest =>
    if (rejection? signature before token).isSome then []
    else token :: acceptedAfter signature (before ++ [token]) rest

/-- The failure of the first token after `before` that is rejected. -/
def firstRejection? (signature : Encoding) (before : List Token) : List Token → Option Failure
  | [] => none
  | token :: rest =>
    match rejection? signature before token with
    | some failure => some failure
    | none => firstRejection? signature (before ++ [token]) rest

theorem rejection?_eq (signature : Encoding) (before : List Token) (token : Token) :
    rejection? signature before token =
      match obstacle? before token with
      | some fault => some ⟨token.start, fault⟩
      | none =>
        match checkContent (encodingOf signature before token) token with
        | .error failure => some failure
        | .ok _ => none := by
  rw [rejection?, accept_ofTokens]
  cases obstacle? before token with
  | some fault => rfl
  | none => cases checkContent (encodingOf signature before token) token <;> rfl

/-- A token that is not rejected is in a right place, its content passes, and the state goes on. -/
theorem accept_of_rejection?_eq_none {signature : Encoding} {before : List Token} {token : Token}
    (h : rejection? signature before token = none) :
    obstacle? before token = none ∧
      ∃ attributes, checkContent (encodingOf signature before token) token = .ok attributes ∧
        (State.ofTokens signature before).accept token =
          .ok (State.ofTokens signature (before ++ [token]), element? token attributes) := by
  rw [accept_ofTokens]
  rw [rejection?_eq] at h
  cases hobstacle : obstacle? before token with
  | some fault => simp [hobstacle] at h
  | none =>
    cases hcheck : checkContent (encodingOf signature before token) token with
    | error failure => simp [hobstacle, hcheck] at h
    | ok attributes => exact ⟨rfl, attributes, rfl, rfl⟩

variable {signature : Encoding} {before tokens : List Token}

theorem acceptedAfter_isPrefix : acceptedAfter signature before tokens <+: tokens := by
  induction tokens generalizing before with
  | nil => exact List.prefix_rfl
  | cons token rest ih =>
    unfold acceptedAfter
    split
    · exact List.nil_prefix
    · exact List.cons_prefix_cons.mpr ⟨rfl, ih⟩

/-- Either all tokens are accepted, or the failure is that of the token after the accepted ones. -/
theorem firstRejection?_spec (signature : Encoding) (before tokens : List Token) :
    (firstRejection? signature before tokens = none ∧
        acceptedAfter signature before tokens = tokens) ∨
      ∃ token failure, firstRejection? signature before tokens = some failure ∧
        acceptedAfter signature before tokens ++ [token] <+: tokens ∧
        rejection? signature (before ++ acceptedAfter signature before tokens) token =
          some failure := by
  induction tokens generalizing before with
  | nil => exact .inl ⟨rfl, rfl⟩
  | cons token rest ih =>
    unfold firstRejection? acceptedAfter
    cases htoken : rejection? signature before token with
    | some failure =>
      right
      exact ⟨token, failure, by simp [htoken]⟩
    | none =>
      -- the token is accepted, and the rest comes after one token more
      rcases ih (before ++ [token]) with
        ⟨hnone, hall⟩ | ⟨last, failure, hsome, hpre, hlast⟩
      · left
        exact ⟨hnone, by simp [hall]⟩
      · right
        refine ⟨last, failure, hsome, ?_, ?_⟩
        · simpa using hpre
        · simpa using hlast

theorem rejection?_of_prefix_acceptedAfter {others : List Token} {token : Token}
    (h : others ++ [token] <+: acceptedAfter signature before tokens) :
    rejection? signature (before ++ others) token = none := by
  induction tokens generalizing before others with
  | nil => simp [acceptedAfter] at h
  | cons first rest ih =>
    unfold acceptedAfter at h
    split at h
    · simp at h
    · rename_i hfirst
      cases others with
      | nil =>
        obtain ⟨rfl, -⟩ := List.cons_prefix_cons.mp h
        simpa using hfirst
      | cons other others =>
        obtain ⟨rfl, h⟩ := List.cons_prefix_cons.mp h
        simpa using ih h

/-- A token that comes after accepted ones is accepted with them, or it is the first that is
rejected. -/
theorem accepted_or_rejected {token : Token} (hpre : before ++ [token] <+: tokens)
    (hbefore : before <+: acceptedAfter signature [] tokens) :
    rejection? signature before token = none ∧
        before ++ [token] <+: acceptedAfter signature [] tokens ∨
      ∃ failure, rejection? signature before token = some failure ∧
        firstRejection? signature [] tokens = some failure ∧
          acceptedAfter signature [] tokens = before := by
  rcases firstRejection?_spec signature [] tokens with
    ⟨-, hall⟩ | ⟨last, failure, hsome, hlast, hfailure⟩
  · rw [hall]
    exact .inl ⟨rejection?_of_prefix_acceptedAfter (hall ▸ hpre), hpre⟩
  rcases isPrefix_trichotomy hpre hlast with haccepted | heq | hbeyond
  · exact .inl ⟨rejection?_of_prefix_acceptedAfter haccepted, haccepted⟩
  · rw [← heq] at hlast hfailure
    obtain rfl : token = last := concat_isPrefix_unique hpre hlast
    exact .inr ⟨failure, hfailure, hsome, heq.symm⟩
  · have hlength := (hbeyond.trans hbefore).length_le
    rw [List.length_append, List.length_singleton] at hlength
    omega

end FormsAudit.Document
