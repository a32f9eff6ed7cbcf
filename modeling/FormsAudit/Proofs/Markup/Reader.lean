import FormsAudit.Proofs.Markup.Lexed

/-!
# Tokens read one at a time

`Source.tokens` gives all tokens of a source at once.  A `Reader` hands them out one after the
other: it holds a lexer and the bytes that the lexer has not been fed, and feeds it until a token is
complete.  What a reader has still to hand out is the token that it reads next and what remains
after it (`remaining_eq`).

The lexer keeps a list of the open elements, which a read changes as its token tells
(`opened_of_read`).  First in the list is the innermost open element: that of the start tag after
which every element is closed that is opened (`innermost_iff`).
-/

namespace FormsAudit.Markup

/-- A lexer, the bytes that it has not been fed, and the error that it meets after them instead of
the end of the input. -/
structure Reader where
  lexer : Lexer
  rest : List UInt8
  failure : Option SystemError
  deriving DecidableEq, Repr

/-- What a read comes to. -/
inductive Delivery where
  | token (token : Token) (next : Reader)
  | ended (ending : Ending)
  deriving DecidableEq, Repr

/-- Feeds the bytes to the lexer until it completes a token.  Text at the end of the input is a token,
too; the lexer then stands after it. -/
def deliver (failure : Option SystemError) (lexer : Lexer) : List UInt8 → Delivery
  | [] =>
    match failure with
    | some error => .ended (.unreadable error)
    | none =>
      match lexer.finish.tokens with
      | [] => .ended lexer.finish.ending
      | token :: _ =>
        .token token ⟨⟨lexer.offset, lexer.offset, .text [], lexer.opened⟩, [], none⟩
  | byte :: rest =>
    match lexer.step byte with
    | .collecting next => deliver failure next rest
    | .token token next => .token token ⟨next, rest, failure⟩
    | .rejected offset reason => .ended (.rejected offset reason)

namespace Reader

/-- Before the first byte of a source. -/
def ofSource (source : Source) : Reader := ⟨.initial, source.content, source.failure⟩

/-- The next token, or how the tokens end. -/
def read (reader : Reader) : Delivery := deliver reader.failure reader.lexer reader.rest

/-- The tokens that have not been read, and how they end. -/
def remaining (reader : Reader) : Reading :=
  match lex reader.lexer reader.rest with
  | (tokens, .rejected offset reason) => ⟨tokens, .rejected offset reason⟩
  | (tokens, .ready lexer) =>
    match reader.failure with
    | some error => ⟨tokens, .unreadable error⟩
    | none => ⟨tokens ++ lexer.finish.tokens, lexer.finish.ending⟩

theorem remaining_ofSource (source : Source) : (ofSource source).remaining = source.tokens := rfl

end Reader

/-! ## What a read does -/

/-- At the end of the input the lexer has text to hand out or nothing. -/
theorem finish_eq_or (lexer : Lexer) :
    (∃ content, lexer.finish =
        ⟨[⟨lexer.start, lexer.offset, .text content⟩], .complete lexer.offset⟩) ∨
      ∃ ending, lexer.finish = ⟨[], ending⟩ := by
  unfold Lexer.finish
  split
  · exact .inr ⟨_, rfl⟩
  · exact .inl ⟨_, rfl⟩
  all_goals exact .inr ⟨_, rfl⟩

theorem remaining_nil (lexer : Lexer) :
    (Reader.mk lexer [] none).remaining = lexer.finish := by
  simp [Reader.remaining]

theorem remaining_cons (lexer : Lexer) (byte : UInt8) (rest : List UInt8)
    (failure : Option SystemError) :
    (Reader.mk lexer (byte :: rest) failure).remaining =
      match lexer.step byte with
      | .collecting next => (Reader.mk next rest failure).remaining
      | .token token next =>
        ⟨token :: (Reader.mk next rest failure).remaining.tokens,
          (Reader.mk next rest failure).remaining.ending⟩
      | .rejected offset reason => ⟨[], .rejected offset reason⟩ := by
  simp only [Reader.remaining, lex]
  cases lexer.step byte with
  | collecting next => rfl
  | token token next =>
    dsimp only
    rcases lex next rest with ⟨tokens, pause⟩
    cases pause <;> cases failure <;> rfl
  | rejected offset reason => rfl

/-- What remains is the token that is read next and what remains then. -/
theorem remaining_eq (reader : Reader) :
    reader.remaining =
      match reader.read with
      | .token token next => ⟨token :: next.remaining.tokens, next.remaining.ending⟩
      | .ended ending => ⟨[], ending⟩ := by
  obtain ⟨lexer, rest, failure⟩ := reader
  simp only [Reader.read]
  induction rest generalizing lexer with
  | nil =>
    cases failure with
    | some error => rfl
    | none =>
      rw [remaining_nil]
      rcases finish_eq_or lexer with ⟨content, hfinish⟩ | ⟨ending, hfinish⟩ <;>
        simp only [deliver, hfinish]
      rfl
  | cons byte rest ih =>
    simp only [remaining_cons, deliver]
    cases lexer.step byte with
    | collecting next => exact ih next
    | token token next => rfl
    | rejected offset reason => rfl

theorem remaining_of_token {reader next : Reader} {token : Token}
    (h : reader.read = .token token next) :
    reader.remaining = ⟨token :: next.remaining.tokens, next.remaining.ending⟩ := by
  rw [remaining_eq, h]

theorem remaining_of_ended {reader : Reader} {ending : Ending} (h : reader.read = .ended ending) :
    reader.remaining = ⟨[], ending⟩ := by
  rw [remaining_eq, h]

/-- A read opens and closes the elements that its token tells of. -/
theorem opened_of_read {reader next : Reader} {token : Token}
    (h : reader.read = .token token next) :
    next.lexer.opened = trackOpen reader.lexer.opened token.event := by
  obtain ⟨lexer, rest, failure⟩ := reader
  rw [Reader.read] at h
  induction rest generalizing lexer with
  | nil =>
    cases failure with
    | some error => cases h
    | none =>
      rcases finish_eq_or lexer with ⟨content, hfinish⟩ | ⟨ending, hfinish⟩ <;>
        simp only [deliver, hfinish] at h <;> cases h
      rfl
  | cons byte rest ih =>
    simp only [deliver] at h
    cases hstep : lexer.step byte with
    | collecting between =>
      rw [hstep] at h
      have hopened : between.opened = lexer.opened := by
        cases advances_of_step hstep <;> rfl
      rw [ih between h]
      exact congrArg (trackOpen · token.event) hopened
    | token found after =>
      rw [hstep] at h
      cases h
      cases advances_of_step hstep <;> rfl
    | rejected offset reason =>
      rw [hstep] at h
      cases h

/-! ## The innermost open element -/

/-- Every element that the tokens open they close, and they close no other. -/
inductive Balanced : List Token → Prop
  | nil : Balanced []
  | leaf {tokens : List Token} {token : Token} :
      Balanced tokens → (∀ names, trackOpen names token.event = names) →
      Balanced (tokens ++ [token])
  | element {first inner : List Token} {opening closing : Token} {content : List UInt8} :
      Balanced first → opening.event = .startTag content → Balanced inner →
      closing.event = .endTag (tagName content) →
      Balanced (first ++ opening :: inner ++ [closing])

/-- After the tokens an element of this name is open, and none that it holds. -/
def Innermost (tokens : List Token) (name : List UInt8) : Prop :=
  ∃ before opening inner content, tokens = before ++ opening :: inner ∧
    opening.event = .startTag content ∧ tagName content = name ∧ Balanced inner

/-- Balanced tokens leave open what was open before them. -/
theorem Balanced.openAfter_append {tokens : List Token} (h : Balanced tokens)
    (before : List Token) : openAfter (before ++ tokens) = openAfter before := by
  induction h generalizing before with
  | nil => rw [List.append_nil]
  | @leaf tokens token _ hleaf ih => rw [← List.append_assoc, openAfter_concat, ih, hleaf]
  | @element first inner opening closing content _ hopening _ hclosing ihfirst ihinner =>
    have hsplit : before ++ (first ++ opening :: inner ++ [closing]) =
        before ++ first ++ [opening] ++ inner ++ [closing] := by simp
    rw [hsplit, openAfter_concat, ihinner, openAfter_concat, ihfirst, hopening, hclosing]
    rfl

/-- Under the innermost element lie those that were open before it. -/
theorem exists_of_openAfter {tokens : List Token} {name : List UInt8} {outer : List (List UInt8)}
    (hnested : Nested tokens) (h : openAfter tokens = name :: outer) :
    ∃ before opening inner content, tokens = before ++ opening :: inner ∧
      opening.event = .startTag content ∧ tagName content = name ∧ Balanced inner ∧
      openAfter before = outer := by
  induction hlength : tokens.length using Nat.strongRecOn generalizing tokens name outer with
  | ind length ih =>
  subst hlength
  rcases List.eq_nil_or_concat' tokens with rfl | ⟨init, last, rfl⟩
  · cases h
  obtain ⟨hinit, hlast⟩ := stepwise_concat.mp hnested
  rw [List.length_append, List.length_singleton] at ih
  rw [openAfter_concat] at h
  have hleaf : (∀ names, trackOpen names last.event = names) → ∃ before opening inner content,
      init ++ [last] = before ++ opening :: inner ∧ opening.event = .startTag content ∧
        tagName content = name ∧ Balanced inner ∧ openAfter before = outer := by
    intro htrack
    rw [htrack] at h
    obtain ⟨before, opening, inner, content, rfl, hopening, hname, hinner, hbefore⟩ :=
      ih init.length (Nat.lt_succ_self _) hinit h rfl
    exact ⟨before, opening, inner ++ [last], content, by simp, hopening, hname,
      hinner.leaf htrack, hbefore⟩
  cases hevent : last.event with
  | startTag content =>
    rw [hevent] at h
    obtain ⟨hname, houter⟩ := List.cons.inj h
    exact ⟨init, last, [], content, rfl, hevent, hname, .nil, houter⟩
  | endTag closed =>
    -- the element that is closed is in the one that is innermost now
    rw [hevent] at h
    have hopened : openAfter init = closed :: name :: outer := by
      have hhead := hlast closed hevent
      rw [← h]
      exact (List.cons_head?_tail hhead).symm
    obtain ⟨before, opening, inner, content, rfl, hopening, rfl, hinner, hbefore⟩ :=
      ih init.length (Nat.lt_succ_self _) hinit hopened rfl
    have hpre : before <+: before ++ opening :: inner := List.prefix_append _ _
    obtain ⟨before', opening', inner', content', rfl, hopening', hname, hinner', hbefore'⟩ :=
      ih before.length (Nat.lt_succ_of_le hpre.length_le) (hinit.of_isPrefix hpre) hbefore rfl
    exact ⟨before', opening', inner' ++ opening :: inner ++ [last], content', by simp, hopening',
      hname, hinner'.element hopening hinner hevent, hbefore'⟩
  | _ => exact hleaf fun names => by simp [hevent, trackOpen]

/-- The innermost open element is the one whose name was put down last. -/
theorem innermost_iff {tokens : List Token} {name : List UInt8} (hnested : Nested tokens) :
    Innermost tokens name ↔ (openAfter tokens).head? = some name := by
  constructor
  · rintro ⟨before, opening, inner, content, rfl, hopening, rfl, hinner⟩
    rw [List.append_cons, hinner.openAfter_append, openAfter_concat, hopening]
    rfl
  · intro hhead
    obtain ⟨before, opening, inner, content, heq, hopening, hname, hinner, -⟩ :=
      exists_of_openAfter hnested (List.cons_head?_tail hhead).symm
    exact ⟨before, opening, inner, content, heq, hopening, hname, hinner⟩

end FormsAudit.Markup
