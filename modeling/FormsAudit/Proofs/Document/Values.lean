import FormsAudit.Proofs.Document.Truncated

/-!
# Values without a less-than sign

A less-than sign has no place in the value of an attribute.  The check of a tag looks for one in the
quoted stretches of the tag, which are found without regard to names, and not in the values.  So no
quoted stretch of an accepted document has the sign in it, and no value has up to the first name with
a quote (`audit_values`).  From such a name on values may lie outside of every stretch, and the sign
is missed there.
-/

namespace FormsAudit.Document

open Markup

theorem lessThanInValue?_eq_none_iff {values : List QuotedValue} :
    lessThanInValue? values = none ↔ ∀ value ∈ values, 0x3C ∉ value.content := by
  simp only [lessThanInValue?, List.findSome?_eq_none_iff, Option.map_eq_none_iff,
    List.findIdx?_eq_none_iff]
  constructor
  · intro h value hvalue hmem
    simpa using h value hvalue 0x3C hmem
  · intro h value hvalue byte hbyte
    rw [beq_eq_false_iff_ne]
    rintro rfl
    exact h value hvalue hbyte

/-- The tags of accepted documents have passed the check of tags. -/
theorem exists_checkTag_of_accepted [WideDecoders]
    {file : String} {index : ScriptIndex} {source : Source}
    {diagnostics : List Diagnostic} (haudit : audit file source index = .ok diagnostics)
    (hwell : malformed diagnostics = []) {token : Token} (htoken : token ∈ source.tokens.tokens)
    {content : List UInt8} (hevent : token.event = .startTag content ∨
      token.event = .emptyTag content) :
    ∃ encoding found, checkTag encoding token.start content = .ok found := by
  obtain ⟨-, haccepted⟩ := accepted_of_malformed_eq_nil haudit hwell
  obtain ⟨before, rest, htokens⟩ := List.append_of_mem htoken
  have hpre : before ++ [token] <+: source.tokens.tokens := by
    rw [htokens]
    exact ⟨rest, by simp⟩
  have hrejection : rejection? source.signature.encoding ([] ++ before) token = none :=
    rejection?_of_prefix_acceptedAfter (haccepted ▸ hpre)
  obtain ⟨-, found, hcheck, -⟩ := accept_of_rejection?_eq_none hrejection
  refine ⟨encodingOf source.signature.encoding ([] ++ before) token, found, ?_⟩
  rcases hevent with hevent | hevent <;> simpa only [checkContent, hevent] using hcheck

/-- **In a document without a fault of form no quoted stretch of a tag has a `<` in it**, and so no
value of an attribute, unless a name of the tag up to its own has a quote. -/
theorem audit_values [WideDecoders] {file : String} {index : ScriptIndex} {source : Source}
    {diagnostics : List Diagnostic} (haudit : audit file source index = .ok diagnostics)
    (hwell : malformed diagnostics = []) :
    ∀ token ∈ source.tokens.tokens, ∀ content,
      token.event = .startTag content ∨ token.event = .emptyTag content →
        (∀ value ∈ quotedValues content, 0x3C ∉ value.content) ∧
          ∀ items, items <+: (attributes content).1 → UnquotedUpTo content items →
            ∀ item ∈ items, 0x3C ∉ item.value := by
  intro token htoken content hevent
  obtain ⟨encoding, found, hcheck⟩ := exists_checkTag_of_accepted haudit hwell htoken hevent
  obtain ⟨-, hnone, -⟩ := checkTag_eq_ok_iff.mp hcheck
  have hstretches := lessThanInValue?_eq_none_iff.mp hnone
  refine ⟨hstretches, ?_⟩
  intro items hitems hnames item hitem
  have hmem : item.quoted ∈ quotedValues content :=
    (map_quoted_isPrefix hitems hnames).subset (List.mem_map_of_mem hitem)
  exact hstretches item.quoted hmem

/-- A tag whose second and third attributes have quotes in their keys. -/
def quotedKeys : Source := ⟨["<a x='1' y'='<' z'='2'/>".toUTF8.toList], none⟩

attribute [local instance] WideDecoders.asciiOnly

/-- The statement covers the first value; the second one, behind a quote, has the sign in it. -/
theorem audit_values_quotedKeys :
    audit "Form.xml" quotedKeys .empty = .ok [] ∧ malformed [] = [] ∧
      ∃ first second others, (attributes "a x='1' y'='<' z'='2'".toUTF8.toList).1 =
          first :: second :: others ∧
        0x3C ∉ first.value ∧ 0x3C ∈ second.value := by
  have haudit : audit "Form.xml" quotedKeys .empty = .ok [] := by decide +kernel
  have htokens : quotedKeys.tokens.tokens =
      [⟨0, 24, .emptyTag "a x='1' y'='<' z'='2'".toUTF8.toList⟩] := by
    decide +kernel
  have hitems : (attributes "a x='1' y'='<' z'='2'".toUTF8.toList).1 =
      [⟨[0x78], [0x31], 5⟩, ⟨[0x79, 0x27], [0x3C], 12⟩, ⟨[0x7A, 0x27], [0x32], 19⟩] := by
    decide +kernel
  obtain ⟨-, hvalues⟩ := audit_values haudit rfl _ (htokens ▸ List.mem_singleton_self _) _ (.inr rfl)
  refine ⟨haudit, rfl, _, _, _, hitems, ?_, by decide⟩
  exact hvalues [⟨[0x78], [0x31], 5⟩] (hitems ▸ ⟨_, rfl⟩) (by decide +kernel) _
    (List.mem_singleton_self _)

/-- A tag whose name has a quote in it, which opens a stretch that ends where the first value
begins. -/
def quotedName : Source := ⟨["<a' x='<' y'='1'/>".toUTF8.toList], none⟩

/-- Behind a name with a quote a value with a `<` is accepted.  The same value is refused where the
names have no quotes. -/
theorem audit_quotedName :
    audit "Test.xml" quotedName .empty = .ok [] ∧
      (∃ token ∈ quotedName.tokens.tokens, ∃ content, token.event = .emptyTag content ∧
        ∃ item ∈ (attributes content).1, item.value = [0x3C]) ∧
      audit "Test.xml" ⟨["<a x='<' y='1'/>".toUTF8.toList], none⟩ .empty =
        .ok [.notWellFormed ⟨"Test.xml", 1, 7, none⟩
          "'<' is not allowed in attribute values"] := by
  refine ⟨by decide +kernel, ?_, by decide +kernel⟩
  have htokens : quotedName.tokens.tokens =
      [⟨0, 18, .emptyTag "a' x='<' y'='1'".toUTF8.toList⟩] := by
    decide +kernel
  rw [htokens]
  exact ⟨_, List.mem_singleton_self _, _, rfl, ⟨[0x78], [0x3C], 6⟩, by decide +kernel, rfl⟩

end FormsAudit.Document
