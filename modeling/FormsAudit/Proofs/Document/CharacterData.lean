import FormsAudit.Proofs.Document.Truncated

/-!
# Character data outside of the root

Character data comes as text and in sections.  Outside of every element a document without a fault
of form has only blank text.  A section is not asked for its place: wherever one is put into such a
document, also before or after the root, its tokens are still those of a well-formed document
(`audit_characterData`).

This is so since nothing that a token is asked about the tokens before it depends on the sections
among them (`obstacle?_insert`).
-/

namespace FormsAudit

namespace Markup

/-- Whether the event is a section of character data. -/
def Event.isSection : Event → Bool
  | cdata _ => true
  | _ => false

variable {first others : List Token} {inserted token : Token}

/-- A condition that does not depend on a token put in before is met by the others with it as
without it. -/
theorem stepwise_insert {condition : List Token → Token → Prop}
    (hinserted : condition first inserted)
    (hsame : ∀ between token, condition (first ++ inserted :: between) token ↔
      condition (first ++ between) token) :
    Stepwise condition (first ++ inserted :: others) ↔ Stepwise condition (first ++ others) := by
  induction others using List.reverseRecOn with
  | nil =>
    rw [stepwise_concat, List.append_nil]
    exact and_iff_left hinserted
  | append_singleton others token ih =>
    rw [← List.cons_append, ← List.append_assoc, ← List.append_assoc, stepwise_concat,
      stepwise_concat, ih, hsame]

theorem openAfter_insert (hinserted : inserted.event.isSection = true) :
    openAfter (first ++ inserted :: others) = openAfter (first ++ others) := by
  have hleaf : ∀ names, trackOpen names inserted.event = names := by
    intro names
    revert hinserted
    cases inserted.event <;> simp [Event.isSection, trackOpen]
  simp [openAfter, hleaf]

theorem nested_insert (hinserted : inserted.event.isSection = true) :
    Nested (first ++ inserted :: others) ↔ Nested (first ++ others) := by
  apply stepwise_insert
  · intro name hname
    rw [hname] at hinserted
    cases hinserted
  · intro between token
    rw [openAfter_insert hinserted]

end Markup

namespace Document

open Markup

variable {first others : List Token} {inserted : Token}

/-! ## A section among the tokens -/

theorem hasTag_insert (hinserted : inserted.event.isSection = true) :
    hasTag (first ++ inserted :: others) = hasTag (first ++ others) := by
  have htag : inserted.event.isTag = false := by
    revert hinserted
    cases inserted.event <;> simp [Event.isSection, Event.isTag]
  simp [hasTag, htag]

theorem hasDoctype_insert (hinserted : inserted.event.isSection = true) :
    hasDoctype (first ++ inserted :: others) = hasDoctype (first ++ others) := by
  have hdoctype : inserted.event.isDoctype = false := by
    revert hinserted
    cases inserted.event <;> simp [Event.isSection, Event.isDoctype]
  simp [hasDoctype, hdoctype]

/-- No token is in a wrong place for a section before it. -/
theorem obstacle?_insert (hinserted : inserted.event.isSection = true) (token : Token) :
    obstacle? (first ++ inserted :: others) token = obstacle? (first ++ others) token := by
  unfold obstacle?
  rw [openAfter_insert hinserted, hasTag_insert hinserted, hasDoctype_insert hinserted]

/-- And no section is. -/
theorem obstacle?_section (hinserted : inserted.event.isSection = true) (before : List Token) :
    obstacle? before inserted = none := by
  revert hinserted
  unfold obstacle?
  cases inserted.event <;> simp [Event.isSection]

theorem placed_insert (hinserted : inserted.event.isSection = true) :
    Placed (first ++ inserted :: others) ↔ Placed (first ++ others) := by
  apply stepwise_insert
  · exact obstacle?_section hinserted first
  · intro between token
    rw [obstacle?_insert hinserted]

theorem wellFormed_insert (hinserted : inserted.event.isSection = true)
    (hnested : Nested (first ++ others)) :
    WellFormed (first ++ inserted :: others) ↔ WellFormed (first ++ others) := by
  rw [wellFormed_iff hnested, wellFormed_iff ((nested_insert hinserted).mpr hnested),
    placed_insert hinserted, openAfter_insert hinserted, hasTag_insert hinserted]

/-! ## Accepted documents -/

/-- **A document without a fault of form has only blank text outside of its root.**  Sections of
character data have no part in that: one that is put in at any place leaves the document well
formed. -/
theorem audit_characterData [WideDecoders] {file : String} {index : ScriptIndex} {source : Source}
    {diagnostics : List Diagnostic} (haudit : audit file source index = .ok diagnostics)
    (hwell : malformed diagnostics = []) :
    Stepwise (fun before token => ∀ content, token.event = .text content →
        openAfter before = [] → ∀ byte ∈ content, isSpace byte) source.tokens.tokens ∧
      ∀ first others, source.tokens.tokens = first ++ others →
        ∀ inserted, inserted.event.isSection = true →
          WellFormed (first ++ inserted :: others) := by
  obtain ⟨hfailure, -⟩ := accepted_of_malformed_eq_nil haudit hwell
  obtain ⟨-, hplaced, hclosed, htag⟩ := closed_of_malformed_eq_nil hfailure haudit hwell
  have hdocument : WellFormed source.tokens.tokens := hplaced.wellFormed hclosed htag
  refine ⟨hdocument.text, ?_⟩
  intro first others htokens inserted hinserted
  have hnested : Nested (first ++ others) := htokens ▸ nested_tokens source
  rw [wellFormed_insert hinserted hnested, ← htokens]
  exact hdocument

/-- A root with blanks around it. -/
def spacedRoot : Source := ⟨["\n<a>x</a>\n".toUTF8.toList], none⟩

attribute [local instance] WideDecoders.asciiOnly

theorem audit_characterData_spacedRoot :
    audit "Form.xml" spacedRoot .empty = .ok [] ∧ malformed [] = [] ∧
      WellFormed (spacedRoot.tokens.tokens ++ [⟨10, 23, .cdata "y".toUTF8.toList⟩]) := by
  have haudit : audit "Form.xml" spacedRoot .empty = .ok [] := by decide +kernel
  obtain ⟨-, hinsert⟩ := audit_characterData haudit rfl
  exact ⟨haudit, rfl, hinsert spacedRoot.tokens.tokens [] (List.append_nil _).symm _ rfl⟩

/-- A root with a section of character data after it. -/
def trailingSection : Source := ⟨["<a/><![CDATA[x]]>".toUTF8.toList], none⟩

/-- A section after the root is accepted, although what it holds is not blank.  As text the same
would be refused. -/
theorem audit_trailingSection :
    audit "Test.xml" trailingSection .empty = .ok [] ∧
      (∃ before token, before ++ [token] <+: trailingSection.tokens.tokens ∧
        token.event = .cdata "x".toUTF8.toList ∧ hasTag before = true ∧ openAfter before = []) ∧
      audit "Test.xml" ⟨["<a/>x".toUTF8.toList], none⟩ .empty =
        .ok [.notWellFormed ⟨"Test.xml", 1, 5, none⟩
          "text content outside of the root element"] := by
  refine ⟨by decide +kernel, ?_, by decide +kernel⟩
  have htokens : trailingSection.tokens.tokens =
      [⟨0, 4, .emptyTag "a".toUTF8.toList⟩] ++ [⟨4, 17, .cdata "x".toUTF8.toList⟩] := by
    decide +kernel
  rw [htokens]
  exact ⟨_, _, List.prefix_rfl, rfl, rfl, rfl⟩

end Document

end FormsAudit
