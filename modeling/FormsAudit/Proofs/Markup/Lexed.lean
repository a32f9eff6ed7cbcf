import FormsAudit.Markup.Source
import FormsAudit.Proofs.Beginnings

/-!
# What the lexer has read

`Lexed consumed tokens lexer` says that the lexer, fed the bytes `consumed`, has completed `tokens`
and stands in the state `lexer`.  The tokens of every source are such a reading of a beginning of
its content, and perhaps a last text (`exists_lexed`), so whatever holds before the first byte and
is kept by each step holds of every document.  `Advances` lists once what a step can do; the facts
about documents below are proved from it alone:

* a token other than text starts at a `<` (`angle_at_token_of_source`);
* an end tag has the name of the innermost open element (`nested_tokens`), and the lexer's own list
  of open elements is the one that its tokens tell (`Lexed.opened_eq`);
* each token starts where the one before it stops (`adjacent_tokens`).
-/

namespace FormsAudit.Markup

/-! ## Kinds of events -/

namespace Event

/-- Whether the event begins an element. -/
def isTag : Event → Bool
  | startTag _ | emptyTag _ => true
  | _ => false

/-- Whether the event declares a document type. -/
def isDoctype : Event → Bool
  | doctype _ => true
  | _ => false

/-- Whether the event is text between other tokens. -/
def isText : Event → Bool
  | text _ => true
  | _ => false

end Event

/-! ## Conditions on each token after those before it -/

/-- Each of the tokens meets a condition that depends on the tokens before it. -/
def Stepwise (condition : List Token → Token → Prop) (tokens : List Token) : Prop :=
  ∀ before token, before ++ [token] <+: tokens → condition before token

theorem stepwise_nil {condition : List Token → Token → Prop} : Stepwise condition [] := by
  intro before token hpre
  simp at hpre

theorem stepwise_concat {condition : List Token → Token → Prop} {tokens : List Token}
    {token : Token} :
    Stepwise condition (tokens ++ [token]) ↔
      Stepwise condition tokens ∧ condition tokens token := by
  constructor
  · intro h
    refine ⟨?_, h tokens token List.prefix_rfl⟩
    intro before other hpre
    exact h before other (hpre.trans (List.prefix_append tokens [token]))
  · rintro ⟨hbefore, hlast⟩ before other hpre
    rcases concat_isPrefix_concat_iff.mp hpre with ⟨rfl, rfl⟩ | hpre
    · exact hlast
    · exact hbefore before other hpre

theorem Stepwise.of_isPrefix {condition : List Token → Token → Prop} {first tokens : List Token}
    (h : Stepwise condition tokens) (hpre : first <+: tokens) : Stepwise condition first := by
  intro before token hbefore
  exact h before token (hbefore.trans hpre)

/-- The names of the open elements after one more event, innermost first. -/
def trackOpen (names : List (List UInt8)) : Event → List (List UInt8)
  | .startTag content => tagName content :: names
  | .endTag _ => names.tail
  | _ => names

/-- The names of the elements that the tokens open and do not close, innermost first. -/
def openAfter (tokens : List Token) : List (List UInt8) :=
  tokens.foldl (fun names token => trackOpen names token.event) []

@[simp] theorem openAfter_nil : openAfter [] = [] := rfl

@[simp] theorem openAfter_concat (tokens : List Token) (token : Token) :
    openAfter (tokens ++ [token]) = trackOpen (openAfter tokens) token.event := by
  simp [openAfter]

/-- Every end tag closes the innermost open element, whose name it has. -/
def Nested (tokens : List Token) : Prop :=
  Stepwise (fun before token =>
    ∀ name, token.event = .endTag name → (openAfter before).head? = some name) tokens

/-- Where the last of the tokens stops. -/
def stopOf (tokens : List Token) : Nat :=
  (tokens.getLast?.map (·.stop)).getD 0

@[simp] theorem stopOf_nil : stopOf [] = 0 := rfl

@[simp] theorem stopOf_concat (tokens : List Token) (token : Token) :
    stopOf (tokens ++ [token]) = token.stop := by
  simp [stopOf]

/-- The tokens are not empty, and each starts where the one before it stops. -/
def Adjacent (tokens : List Token) : Prop :=
  Stepwise (fun before token => token.start = stopOf before ∧ token.start < token.stop) tokens

/-! ## What a step can do -/

/-- Whether the lexer is outside of markup. -/
def Mode.isText : Mode → Bool
  | .text _ => true
  | _ => false

/-- What a step of the lexer can come to.  A token either is the text that a `<` ends, or is markup
that began at a `<` and ends with this byte. -/
inductive Advances (lexer : Lexer) (byte : UInt8) : Advance → Prop
  | opening : lexer.mode = .text [] → byte = 0x3C →
      Advances lexer byte
        (.collecting ⟨lexer.offset + 1, lexer.offset, .markup, lexer.opened⟩)
  | collecting (mode : Mode) : mode.isText = lexer.mode.isText → mode ≠ .text [] →
      Advances lexer byte
        (.collecting ⟨lexer.offset + 1, lexer.start, mode, lexer.opened⟩)
  | text (collected : List UInt8) : lexer.mode = .text collected → collected ≠ [] →
      byte = 0x3C →
      Advances lexer byte
        (.token ⟨lexer.start, lexer.offset, .text collected.reverse⟩
          ⟨lexer.offset + 1, lexer.offset, .markup, lexer.opened⟩)
  | markup (event : Event) : lexer.mode.isText = false → event.isText = false →
      (∀ name, event = .endTag name → lexer.opened.head? = some name) →
      Advances lexer byte
        (.token ⟨lexer.start, lexer.offset + 1, event⟩
          ⟨lexer.offset + 1, lexer.offset + 1, .text [], trackOpen lexer.opened event⟩)
  | rejected (offset : Nat) (reason : Rejection) :
      Advances lexer byte (.rejected offset reason)

theorem advances_collect {lexer : Lexer} {byte : UInt8} {mode : Mode}
    (hmode : lexer.mode.isText = false) (hnext : mode.isText = false) :
    Advances lexer byte (lexer.collect mode) := by
  have hne : mode ≠ .text [] := by
    rintro rfl
    cases hnext
  exact .collecting mode (hnext.trans hmode.symm) hne

theorem advances_complete {lexer : Lexer} {byte : UInt8} {event : Event}
    (hmode : lexer.mode.isText = false) (htext : event.isText = false)
    (htrack : trackOpen lexer.opened event = lexer.opened)
    (hend : ∀ name, event ≠ .endTag name) :
    Advances lexer byte (lexer.complete event lexer.opened) := by
  have hname : ∀ name, event = .endTag name → lexer.opened.head? = some name := by
    intro name heq
    exact absurd heq (hend name)
  have h : Advances lexer byte _ := .markup event hmode htext hname
  rwa [htrack] at h

/-- An end tag is accepted only if it names the element that it closes. -/
theorem advances_endTag {lexer : Lexer} {byte : UInt8} {name expected : List UInt8}
    {outer : List (List UInt8)} (hmode : lexer.mode.isText = false)
    (hopened : lexer.opened = expected :: outer) :
    Advances lexer byte
      (if name = expected then lexer.complete (.endTag name) outer
        else lexer.reject (.mismatchedEnd expected name)) := by
  split
  · rename_i hname
    have hhead : ∀ other, .endTag name = Event.endTag other → lexer.opened.head? = some other := by
      intro other heq
      rw [hopened, List.head?_cons, ← hname, Event.endTag.inj heq]
    have h : Advances lexer byte _ := .markup (.endTag name) hmode rfl hhead
    rwa [hopened] at h
  · exact .rejected _ _

theorem advances_completeTag {lexer : Lexer} {byte : UInt8} {closing : Bool}
    {collected : List UInt8} (hmode : lexer.mode.isText = false) :
    Advances lexer byte (lexer.completeTag closing collected) := by
  unfold Lexer.completeTag
  split
  · cases hopened : lexer.opened with
    | nil => exact .rejected _ _
    | cons expected outer => exact advances_endTag hmode hopened
  · split
    · exact advances_complete hmode rfl rfl (by simp)
    · exact .markup (.startTag collected.reverse) hmode rfl (by simp)

theorem advances_stepTag {lexer : Lexer} {byte : UInt8} {closing : Bool} {quote : Option UInt8}
    {collected : List UInt8} (hmode : lexer.mode.isText = false) :
    Advances lexer byte (lexer.stepTag closing quote collected byte) := by
  unfold Lexer.stepTag
  split
  · exact advances_collect hmode rfl
  · split
    · exact advances_completeTag hmode
    · split <;> exact advances_collect hmode rfl

theorem advances_stepText {lexer : Lexer} {byte : UInt8} {collected : List UInt8}
    (hmode : lexer.mode = .text collected) :
    Advances lexer byte (lexer.stepText collected byte) := by
  unfold Lexer.stepText
  split
  · rename_i hbyte
    cases collected with
    | nil => exact .opening hmode hbyte
    | cons first rest => exact .text (first :: rest) hmode (by simp) hbyte
  · exact .collecting _ (by rw [hmode]; rfl) (by simp)

theorem advances_stepMarkup {lexer : Lexer} {byte : UInt8} (hmode : lexer.mode.isText = false) :
    Advances lexer byte (lexer.stepMarkup byte) := by
  unfold Lexer.stepMarkup
  split
  · exact advances_collect hmode rfl
  · split
    · exact advances_collect hmode rfl
    · split
      · exact advances_collect hmode rfl
      · exact advances_stepTag hmode

theorem advances_stepBang {lexer : Lexer} {byte : UInt8} (hmode : lexer.mode.isText = false) :
    Advances lexer byte (lexer.stepBang byte) := by
  unfold Lexer.stepBang
  split
  · exact advances_collect hmode rfl
  · split
    · exact advances_collect hmode rfl
    · split
      · exact advances_collect hmode rfl
      · exact .rejected _ _

theorem advances_stepCData {lexer : Lexer} {byte : UInt8} {collected : List UInt8}
    (hmode : lexer.mode.isText = false) :
    Advances lexer byte (lexer.stepCData collected byte) := by
  unfold Lexer.stepCData
  split
  · dsimp only
    split
    · exact advances_complete hmode rfl rfl (by simp)
    · exact .rejected _ _
  · exact advances_collect hmode rfl

theorem advances_stepComment {lexer : Lexer} {byte : UInt8} {collected : List UInt8}
    (hmode : lexer.mode.isText = false) :
    Advances lexer byte (lexer.stepComment collected byte) := by
  unfold Lexer.stepComment
  split
  · split
    · exact advances_collect hmode rfl
    · split
      · split
        · exact .rejected _ _
        · exact advances_complete hmode rfl rfl (by simp)
      · exact .rejected _ _
  · exact advances_collect hmode rfl

theorem advances_completeDoctype {lexer : Lexer} {byte : UInt8} {collected : List UInt8}
    (hmode : lexer.mode.isText = false) :
    Advances lexer byte (lexer.completeDoctype collected) := by
  unfold Lexer.completeDoctype
  dsimp only
  split
  · split
    · exact .rejected _ _
    · exact advances_complete hmode rfl rfl (by simp)
  · exact .rejected _ _

theorem advances_stepDoctype {lexer : Lexer} {byte : UInt8} {depth : Nat}
    {collected : List UInt8} (hmode : lexer.mode.isText = false) :
    Advances lexer byte (lexer.stepDoctype depth collected byte) := by
  unfold Lexer.stepDoctype
  split
  · exact advances_collect hmode rfl
  · split
    · split
      · exact advances_completeDoctype hmode
      · exact advances_collect hmode rfl
    · exact advances_collect hmode rfl

theorem advances_stepInstruction {lexer : Lexer} {byte : UInt8} {collected : List UInt8}
    (hmode : lexer.mode.isText = false) :
    Advances lexer byte (lexer.stepInstruction collected byte) := by
  unfold Lexer.stepInstruction
  split
  · exact .rejected _ _
  · dsimp only
    split <;> exact advances_complete hmode rfl rfl (by simp)
  · exact advances_collect hmode rfl

/-- Every step does one of the things that `Advances` lists. -/
theorem advances_step (lexer : Lexer) (byte : UInt8) :
    Advances lexer byte (lexer.step byte) := by
  unfold Lexer.step
  split
  · rename_i hmode; exact advances_stepText hmode
  · rename_i hmode; exact advances_stepMarkup (by rw [hmode]; rfl)
  · rename_i hmode; exact advances_stepBang (by rw [hmode]; rfl)
  · rename_i hmode; exact advances_stepCData (by rw [hmode]; rfl)
  · rename_i hmode; exact advances_stepComment (by rw [hmode]; rfl)
  · rename_i hmode; exact advances_stepDoctype (by rw [hmode]; rfl)
  · rename_i hmode; exact advances_stepInstruction (by rw [hmode]; rfl)
  · rename_i hmode; exact advances_stepTag (by rw [hmode]; rfl)

theorem advances_of_step {lexer : Lexer} {byte : UInt8} {advance : Advance}
    (hstep : lexer.step byte = advance) : Advances lexer byte advance :=
  hstep ▸ advances_step lexer byte

/-! ## Readings -/

/-- The lexer, fed the bytes `consumed` one after the other, has completed `tokens` and stands in
the state `lexer`. -/
inductive Lexed : List UInt8 → List Token → Lexer → Prop
  | initial : Lexed [] [] .initial
  | collecting {consumed : List UInt8} {tokens : List Token} {lexer next : Lexer} {byte : UInt8} :
      Lexed consumed tokens lexer → lexer.step byte = .collecting next →
      Lexed (consumed ++ [byte]) tokens next
  | token {consumed : List UInt8} {tokens : List Token} {lexer next : Lexer} {byte : UInt8}
      {token : Token} :
      Lexed consumed tokens lexer → lexer.step byte = .token token next →
      Lexed (consumed ++ [byte]) (tokens ++ [token]) next

/-- What `lex` does with further bytes is a longer reading, of all of them or of those before the
first that is rejected. -/
theorem Lexed.lex {consumed : List UInt8} {tokens : List Token} {lexer : Lexer}
    (h : Lexed consumed tokens lexer) (bytes : List UInt8) :
    ∃ before final, Lexed (consumed ++ before) (tokens ++ (lex lexer bytes).1) final ∧
      ((before = bytes ∧ (lex lexer bytes).2 = .ready final) ∨
        ∃ byte offset reason, before ++ [byte] <+: bytes ∧
          final.step byte = .rejected offset reason ∧
          (lex lexer bytes).2 = .rejected offset reason) := by
  induction bytes generalizing consumed tokens lexer with
  | nil => exact ⟨[], lexer, by simpa using h, .inl ⟨rfl, rfl⟩⟩
  | cons byte rest ih =>
    cases hstep : lexer.step byte with
    | collecting next =>
      obtain ⟨before, final, hfinal, hend⟩ := ih (h.collecting hstep)
      simp only [Markup.lex, hstep]
      refine ⟨byte :: before, final, by simpa using hfinal, ?_⟩
      rcases hend with ⟨rfl, hready⟩ | ⟨last, offset, reason, hpre, hlast, hrejected⟩
      · exact .inl ⟨rfl, hready⟩
      · exact .inr ⟨last, offset, reason, by simpa using hpre, hlast, hrejected⟩
    | token token next =>
      obtain ⟨before, final, hfinal, hend⟩ := ih (h.token hstep)
      simp only [Markup.lex, hstep]
      refine ⟨byte :: before, final, by simpa using hfinal, ?_⟩
      rcases hend with ⟨rfl, hready⟩ | ⟨last, offset, reason, hpre, hlast, hrejected⟩
      · exact .inl ⟨rfl, hready⟩
      · exact .inr ⟨last, offset, reason, by simpa using hpre, hlast, hrejected⟩
    | rejected offset reason =>
      simp only [Markup.lex, hstep]
      exact ⟨[], lexer, by simpa using h, .inr ⟨byte, offset, reason, by simp, hstep, rfl⟩⟩

/-! ## What holds of every reading -/

variable {consumed : List UInt8} {tokens : List Token} {lexer : Lexer}

theorem Lexed.offset_eq (h : Lexed consumed tokens lexer) : lexer.offset = consumed.length := by
  induction h with
  | initial => rfl
  | collecting _ hstep ih =>
    cases advances_of_step hstep <;> simp [ih]
  | token _ hstep ih =>
    cases advances_of_step hstep <;> simp [ih]

private theorem getElem?_of_isPrefix {first bytes : List UInt8} (hpre : first <+: bytes)
    {index : Nat} {found : UInt8} (h : first[index]? = some found) :
    bytes[index]? = some found := by
  obtain ⟨rest, rfl⟩ := hpre
  rw [List.getElem?_append_left (List.getElem?_eq_some_iff.mp h).1, h]

theorem Lexed.angle_at_start (h : Lexed consumed tokens lexer) (hmode : lexer.mode.isText = false) :
    consumed[lexer.start]? = some 0x3C := by
  induction h with
  | initial => cases hmode
  | collecting hread hstep ih =>
    cases advances_of_step hstep with
    | opening _ hbyte => simp [hread.offset_eq, hbyte]
    | collecting mode heq _ =>
      exact getElem?_of_isPrefix (List.prefix_append _ _) (ih (heq ▸ hmode))
  | token hread hstep ih =>
    cases advances_of_step hstep with
    | text _ _ _ hbyte => simp [hread.offset_eq, hbyte]
    | markup => cases hmode

theorem Lexed.angle_at_token (h : Lexed consumed tokens lexer) {token : Token}
    (htoken : token ∈ tokens) (hevent : token.event.isText = false) :
    consumed[token.start]? = some 0x3C := by
  induction h with
  | initial => simp at htoken
  | collecting _ _ ih => exact getElem?_of_isPrefix (List.prefix_append _ _) (ih htoken)
  | token hread hstep ih =>
    rcases List.mem_append.mp htoken with htoken | hlast
    · exact getElem?_of_isPrefix (List.prefix_append _ _) (ih htoken)
    · obtain rfl := List.mem_singleton.mp hlast
      cases advances_of_step hstep with
      | text => cases hevent
      | markup event hmode =>
        exact getElem?_of_isPrefix (List.prefix_append _ _) (hread.angle_at_start hmode)

/-- The lexer's open elements are those that its tokens leave open. -/
theorem Lexed.opened_eq (h : Lexed consumed tokens lexer) : lexer.opened = openAfter tokens := by
  induction h with
  | initial => rfl
  | collecting _ hstep ih =>
    cases advances_of_step hstep <;> exact ih
  | token _ hstep ih =>
    cases advances_of_step hstep <;> simp [ih, trackOpen]

theorem Lexed.nested (h : Lexed consumed tokens lexer) : Nested tokens := by
  induction h with
  | initial => exact stepwise_nil
  | collecting _ _ ih => exact ih
  | token hread hstep ih =>
    refine stepwise_concat.mpr ⟨ih, ?_⟩
    intro name hname
    cases advances_of_step hstep with
    | text => cases hname
    | markup event _ _ hend =>
      rw [← hread.opened_eq]
      exact hend name hname

/-- The lexer is past the start of what it collects, unless it has just completed a token. -/
theorem Lexed.start_lt_or (h : Lexed consumed tokens lexer) :
    lexer.mode ≠ .text [] ∧ lexer.start < lexer.offset ∨
      lexer.mode = .text [] ∧ lexer.start = lexer.offset := by
  induction h with
  | initial => exact .inr ⟨rfl, rfl⟩
  | collecting _ hstep ih =>
    cases advances_of_step hstep with
    | opening => exact .inl ⟨by simp, Nat.lt_succ_self _⟩
    | collecting mode _ hne => exact .inl ⟨hne, by dsimp only; omega⟩
  | token _ hstep _ =>
    cases advances_of_step hstep with
    | text => exact .inl ⟨by simp, Nat.lt_succ_self _⟩
    | markup => exact .inr ⟨rfl, rfl⟩

/-- What the lexer collects starts where the last token stops. -/
theorem Lexed.start_eq (h : Lexed consumed tokens lexer) : lexer.start = stopOf tokens := by
  induction h with
  | initial => rfl
  | @collecting _ _ lexer _ _ hread hstep ih =>
    cases advances_of_step hstep with
    | opening hmode =>
      -- nothing has been collected yet, so the lexer is where it started
      have hstart : lexer.mode = .text [] ∧ lexer.start = lexer.offset :=
        hread.start_lt_or.resolve_left fun h => h.1 hmode
      rw [← ih]
      exact hstart.2.symm
    | collecting => exact ih
  | token _ hstep _ =>
    cases advances_of_step hstep <;> simp

theorem Lexed.adjacent (h : Lexed consumed tokens lexer) : Adjacent tokens := by
  induction h with
  | initial => exact stepwise_nil
  | collecting _ _ ih => exact ih
  | @token _ _ lexer _ _ _ hread hstep ih =>
    refine stepwise_concat.mpr ⟨ih, ?_⟩
    -- no step completes a token of nothing
    have hmode : lexer.mode ≠ .text [] := by
      cases advances_of_step hstep with
      | text collected hmode hne => simpa [hmode] using hne
      | markup event hmode =>
        intro heq
        simp [heq, Mode.isText] at hmode
    have hlt : lexer.start < lexer.offset :=
      (hread.start_lt_or.resolve_right fun h => hmode h.1).2
    cases advances_of_step hstep with
    | text => exact ⟨hread.start_eq, hlt⟩
    | markup => exact ⟨hread.start_eq, Nat.lt_succ_of_lt hlt⟩

/-! ## The tokens of a source -/

/-- The tokens of a source are read from a beginning of its content.  Text that stands at the end is
one more token. -/
theorem exists_lexed (source : Source) :
    ∃ consumed tokens lexer, consumed <+: source.content ∧ Lexed consumed tokens lexer ∧
      (source.tokens.tokens = tokens ∨
        ∃ collected, collected ≠ [] ∧ lexer.mode = .text collected ∧
          source.tokens.tokens =
            tokens ++ [⟨lexer.start, lexer.offset, .text collected.reverse⟩]) := by
  obtain ⟨consumed, lexer, hread, hend⟩ := Lexed.initial.lex source.content
  rw [List.nil_append, List.nil_append] at hread
  refine ⟨consumed, _, lexer, ?_, hread, ?_⟩
  · rcases hend with ⟨rfl, -⟩ | ⟨byte, -, -, hpre, -⟩
    · exact List.prefix_rfl
    · exact isPrefix_of_concat hpre
  · unfold Source.tokens
    split
    · rename_i hlex
      exact .inl (by rw [hlex])
    · rename_i tokens final hlex
      have hfinal : final = lexer := by
        rw [hlex] at hend
        rcases hend with ⟨-, hready⟩ | ⟨_, _, _, _, _, hrejected⟩
        · exact Pause.ready.inj hready
        · cases hrejected
      rw [hlex, hfinal]
      split
      · exact .inl rfl
      · unfold Lexer.finish
        split
        · exact .inl (by simp)
        · rename_i collected hne hmode
          exact .inr ⟨collected, hne, hmode, rfl⟩
        all_goals exact .inl (by simp)

/-- A source that does not fail is read to its end, or to bytes that are no token. -/
theorem ending_of_failure_eq_none {source : Source} (hfailure : source.failure = none) :
    (∃ stop, source.tokens.ending = .complete stop) ∨
      ∃ offset reason, source.tokens.ending = .rejected offset reason := by
  unfold Source.tokens
  split
  · exact .inr ⟨_, _, rfl⟩
  · rw [hfailure]
    dsimp only
    unfold Lexer.finish
    split
    · exact .inl ⟨_, rfl⟩
    · exact .inl ⟨_, rfl⟩
    all_goals exact .inr ⟨_, _, rfl⟩

/-- A token of a source other than text starts at a `<`. -/
theorem angle_at_token_of_source {source : Source} {token : Token}
    (htoken : token ∈ source.tokens.tokens) (hevent : token.event.isText = false) :
    source.content[token.start]? = some 0x3C := by
  obtain ⟨consumed, tokens, lexer, hpre, hread, heq | ⟨collected, -, -, heq⟩⟩ :=
    exists_lexed source <;> rw [heq] at htoken
  · exact getElem?_of_isPrefix hpre (hread.angle_at_token htoken hevent)
  · rcases List.mem_append.mp htoken with htoken | hlast
    · exact getElem?_of_isPrefix hpre (hread.angle_at_token htoken hevent)
    · rw [List.mem_singleton.mp hlast] at hevent
      cases hevent

/-- The tokens of a source close their elements in order. -/
theorem nested_tokens (source : Source) : Nested source.tokens.tokens := by
  obtain ⟨consumed, tokens, lexer, -, hread, heq | ⟨collected, -, -, heq⟩⟩ :=
    exists_lexed source <;> rw [heq]
  · exact hread.nested
  · exact stepwise_concat.mpr ⟨hread.nested, by simp⟩

/-- The tokens of a source leave out nothing between them. -/
theorem adjacent_tokens (source : Source) : Adjacent source.tokens.tokens := by
  obtain ⟨consumed, tokens, lexer, -, hread, heq | ⟨collected, hne, hmode, heq⟩⟩ :=
    exists_lexed source <;> rw [heq]
  · exact hread.adjacent
  · have hlt : lexer.start < lexer.offset :=
      (hread.start_lt_or.resolve_right fun h => hne (by simpa [hmode] using h.1)).2
    exact stepwise_concat.mpr ⟨hread.adjacent, hread.start_eq, hlt⟩

end FormsAudit.Markup
