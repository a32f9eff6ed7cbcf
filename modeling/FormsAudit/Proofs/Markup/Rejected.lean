import FormsAudit.Proofs.Markup.Attributes
import FormsAudit.Proofs.Markup.Opening

/-!
# What a rejection tells

A rejected end tag is told by its own name and by that of the innermost open element, whose end was
expected (`head?_of_mismatchedEnd`).  The name of an open element has no blank in it
(`isSpace_of_mem_openAfter`), as the name in a start tag ends at the first one.  The name in an end
tag goes on to its `>`, and may have any.
-/

namespace FormsAudit.Markup

/-! ## Names of open elements -/

theorem isSpace_of_mem_tagName {content : List UInt8} {byte : UInt8} (h : byte ∈ tagName content) :
    isSpace byte = false := by
  simpa using List.mem_takeWhile_imp h

theorem isSpace_of_mem_openAfter {tokens : List Token} {name : List UInt8}
    (h : name ∈ openAfter tokens) : ∀ byte ∈ name, isSpace byte = false := by
  induction tokens using List.reverseRecOn with
  | nil => cases h
  | append_singleton tokens token ih =>
    rw [openAfter_concat] at h
    unfold trackOpen at h
    split at h
    · rcases List.mem_cons.mp h with rfl | h
      · exact fun byte => isSpace_of_mem_tagName
      · exact ih h
    · exact ih (List.mem_of_mem_tail h)
    · exact ih h

/-! ## Rejected end tags -/

/-- The name in an end tag that is rejected. -/
def Rejection.endName? : Rejection → Option (List UInt8)
  | .unmatchedEnd name | .mismatchedEnd _ name => some name
  | _ => none

section Step

variable {lexer : Lexer} {byte : UInt8} {offset : Nat} {expected found : List UInt8}

theorem head?_of_completeTag {closing : Bool} {collected : List UInt8}
    (h : lexer.completeTag closing collected = .rejected offset (.mismatchedEnd expected found)) :
    lexer.opened.head? = some expected := by
  unfold Lexer.completeTag at h
  cases closing with
  | true =>
    rw [if_pos rfl] at h
    dsimp only at h
    split at h
    · cases h
    · rename_i first outer hopened
      rw [hopened]
      split_ifs at h <;> cases h <;> rfl
  | false =>
    rw [if_neg Bool.false_ne_true] at h
    split at h <;> cases h

theorem head?_of_stepTag {closing : Bool} {quote : Option UInt8} {collected : List UInt8}
    (h : lexer.stepTag closing quote collected byte =
      .rejected offset (.mismatchedEnd expected found)) : lexer.opened.head? = some expected := by
  unfold Lexer.stepTag at h
  split at h
  · cases h
  · split_ifs at h
    · exact head?_of_completeTag h
    · cases h
    · cases h

theorem head?_of_step (h : lexer.step byte = .rejected offset (.mismatchedEnd expected found)) :
    lexer.opened.head? = some expected := by
  unfold Lexer.step at h
  split at h
  · unfold Lexer.stepText at h
    dsimp only at h
    split_ifs at h
    cases h
  · unfold Lexer.stepMarkup at h
    split_ifs at h
    · cases h
    · cases h
    · cases h
    · exact head?_of_stepTag h
  · unfold Lexer.stepBang at h
    split_ifs at h <;> cases h
  · unfold Lexer.stepCData at h
    split at h
    · dsimp only at h
      split_ifs at h <;> cases h
    · cases h
  · unfold Lexer.stepComment at h
    split at h
    · split_ifs at h
      · cases h
      · split at h
        · split at h <;> cases h
        · cases h
    · cases h
  · unfold Lexer.stepDoctype at h
    split_ifs at h
    · cases h
    · split at h
      · unfold Lexer.completeDoctype at h
        dsimp only at h
        split_ifs at h
        · split at h <;> cases h
        · cases h
      · cases h
    · cases h
  · unfold Lexer.stepInstruction at h
    split at h
    · cases h
    · dsimp only at h
      split_ifs at h <;> cases h
    · cases h
  · exact head?_of_stepTag h

end Step

/-- **Where an end tag was expected to be that of another element, that is the innermost open
one.** -/
theorem head?_of_mismatchedEnd {source : Source} {offset : Nat} {expected found : List UInt8}
    (h : source.tokens.ending = .rejected offset (.mismatchedEnd expected found)) :
    (openAfter source.tokens.tokens).head? = some expected := by
  obtain ⟨consumed, lexer, hread, hend⟩ := Lexed.initial.lex source.content
  rw [List.nil_append, List.nil_append] at hread
  rcases hend with ⟨-, hready⟩ | ⟨byte, stop, reason, -, hstep, hrejected⟩
  · -- the end of the input rejects no end tag
    cases hfailure : source.failure with
    | some error =>
      rw [tokens_of_failure hfailure hready] at h
      cases h
    | none =>
      rw [tokens_of_ready hfailure hready] at h
      dsimp only at h
      unfold Lexer.finish at h
      split at h <;> cases h
  · have htokens := tokens_of_rejected hrejected
    rw [htokens] at h
    obtain ⟨rfl, rfl⟩ := Ending.rejected.inj h
    rw [htokens, ← hread.opened_eq]
    exact head?_of_step hstep

/-! ## Values without an end -/

/-- What ends a value is one of the two quotes. -/
def AttributeMode.IsQuoted : AttributeMode → Prop
  | .value _ quote _ _ => isQuote quote = true
  | _ => True

theorem step_isQuoted {mode : AttributeMode} (h : mode.IsQuoted) (offset : Nat) (byte : UInt8) :
    match mode.step offset byte with
    | .go next => next.IsQuoted
    | .fault fault => ∀ position quote, fault ≠ .expectedQuote position quote
    | _ => True := by
  cases mode with
  | between | key | afterKey =>
    simp only [AttributeMode.step]
    split_ifs <;> simp [AttributeMode.IsQuoted]
  | beforeValue =>
    simp only [AttributeMode.step]
    split_ifs with hquote <;> simp [AttributeMode.IsQuoted, isQuote, hquote]
  | value =>
    simp only [AttributeMode.step]
    split_ifs
    · trivial
    · exact h

theorem isQuote_of_attributesFrom {unique : Bool} {bytes : List UInt8} {offset position : Nat}
    {seen : List (List UInt8 × Nat)} {mode : AttributeMode} {quote : UInt8}
    (hmode : mode.IsQuoted)
    (h : (attributesFrom unique seen mode offset bytes).2 = some (.expectedQuote position quote)) :
    isQuote quote = true := by
  induction bytes generalizing offset seen mode with
  | nil =>
    unfold attributesFrom at h
    cases mode with
    | value =>
      obtain ⟨-, rfl⟩ := AttributeFault.expectedQuote.inj (Option.some.inj h)
      exact hmode
    | _ => simp [AttributeMode.finish] at h
  | cons byte rest ih =>
    have hstep := step_isQuoted hmode offset byte
    unfold attributesFrom at h
    cases hresult : mode.step offset byte with
    | go next =>
      simp only [hresult] at h hstep
      exact ih hstep h
    | keyed start key =>
      simp only [hresult] at h
      split at h
      · cases h
      · have hnext : (AttributeMode.beforeValue key).IsQuoted := trivial
        exact ih hnext h
    | found item =>
      simp only [hresult] at h
      have hnext : AttributeMode.between.IsQuoted := trivial
      exact ih hnext h
    | fault fault =>
      simp only [hresult] at h hstep
      exact absurd (Option.some.inj h) (hstep position quote)

/-- Where a value does not end, what is missing is one of the two quotes. -/
theorem isQuote_of_expectedQuote {content : List UInt8} {position : Nat} {quote : UInt8}
    (h : (attributes content).2 = some (.expectedQuote position quote)) : isQuote quote = true := by
  have hmode : AttributeMode.between.IsQuoted := trivial
  exact isQuote_of_attributesFrom hmode h

end FormsAudit.Markup
