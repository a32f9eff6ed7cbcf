import FormsAudit.Proofs.Document.Misreference

/-!
# How far a failure can lie from its token

Where bytes are counted as what they are, a token is refused at one of its own offsets, with one
exception (`audit_bounds`).  The references of a value are reported relative to a quoted stretch of
the tag.  If a name up to the value has a quote, that stretch is another one, and the report can lie
behind the tag by as many bytes as the value has, even behind all that has been read
(`audit_strayReference`).

Up to a name with a quote the stretches are the values, and from such a name on they are not.
-/

namespace FormsAudit.Document

open Markup

/-- **A token is refused at one of its offsets, or because of a reference in a value behind a name
with a quote.**  In the second case the report is off by no more than the length of the value.  The
values of a tag are its first quoted stretches exactly up to the first name with a quote. -/
theorem audit_bounds [WideDecoders] (file : String) (index : ScriptIndex) (source : Source) :
    (∀ (before : List Token) (token : Token) (failure : Failure),
      before ++ [token] <+: source.tokens.tokens →
      before <+: acceptedAfter source.signature.encoding [] source.tokens.tokens →
      (encodingOf source.signature.encoding before token).isBytewise = true →
      rejection? source.signature.encoding before token = some failure →
        audit file source index =
            .ok (findingsAfter index (locationIn file (.ofSource source))
              source.signature.encoding [] before ++
                [failure.diagnostic (locationIn file (.ofSource source))]) ∧
          token.start ≤ failure.offset ∧ token.stop ≤ source.content.length ∧
            (failure.offset ≤ token.stop ∨
              ∃ tag items item fault,
                (token.event = .startTag tag ∨ token.event = .emptyTag tag) ∧
                items ++ [item] <+: (attributes tag).1 ∧ ¬ UnquotedUpTo tag (items ++ [item]) ∧
                failure.fault = .reference fault ∧
                failure.offset ≤ token.stop + item.value.length)) ∧
      ∀ tag items item, items ++ [item] <+: (attributes tag).1 →
        (UnquotedUpTo tag (items ++ [item]) ↔
          (items ++ [item]).map Attribute.quoted <+: quotedValues tag) := by
  refine ⟨?_, fun tag items item hitems => unquotedUpTo_iff (by simp) hitems⟩
  intro before token failure hpre hbefore hbytewise hrejection
  have hmem : token ∈ source.tokens.tokens := mem_of_concat hpre
  obtain ⟨hlt, hstop⟩ := bounds_of_source hmem
  refine ⟨audit_eq_of_rejection? hpre hbefore hrejection file index, ?_⟩
  rcases failsWith_of_rejection? hrejection with ⟨fault, -, rfl⟩ | ⟨-, hfails⟩
  · exact ⟨le_rfl, hstop, .inl hlt.le⟩
  refine ⟨hfails.start_le, hstop, ?_⟩
  rcases hfails.le_stop_or hbytewise (spelled_of_source source hmem) hlt.le with
    hle | ⟨tag, text, items, item, hevent, hreads, hitems, hnames, hvalue, hle⟩
  · exact .inl hle
  obtain ⟨value, -, hexpand⟩ :=
    exists_expandAt_of_readValue hbytewise hreads (mem_of_concat hitems) hvalue
  rcases expandAt_eq_error_iff.mp hexpand with ⟨fault, -, rfl⟩ | ⟨_, _, _, -, -, -, rfl⟩
  · exact .inr ⟨tag, items, item, fault, hevent, hitems, hnames, rfl, hle⟩
  · exact .inl hlt.le

attribute [local instance] WideDecoders.asciiOnly

/-- The second value of `misnamedTag` is at fault, and no name has a quote. -/
theorem audit_bounds_misnamedTag :
    let source : Source := ⟨["<".toUTF8.toList ++ misnamedTag ++ "/>".toUTF8.toList], none⟩
    let token : Token := ⟨0, 23, .emptyTag misnamedTag⟩
    ∃ failure, rejection? .utf8 [] token = some failure ∧
      audit "Form.xml" source .empty =
        .ok [failure.diagnostic (locationIn "Form.xml" (.ofSource source))] ∧
      token.start ≤ failure.offset ∧ failure.offset ≤ token.stop ∧
        (attributes misnamedTag).1.map Attribute.quoted <+: quotedValues misnamedTag := by
  intro source token
  have hitems : (attributes misnamedTag).1 = [⟨"p".toUTF8.toList, "&lt;".toUTF8.toList, 5⟩] ++
      [⟨"q".toUTF8.toList, "\u00E9&1;".toUTF8.toList, 14⟩] := by
    decide +kernel
  have hpre : [] ++ [token] <+: source.tokens.tokens := by decide +kernel
  have hrejection : rejection? .utf8 [] token =
      some ⟨18, .reference (.unrecognized ['\u00E9', '&'] ['1'])⟩ := by
    decide +kernel
  have hsignature : source.signature.encoding = .utf8 := by decide +kernel
  obtain ⟨hbounds, hvalues⟩ := audit_bounds "Form.xml" .empty source
  rw [hsignature] at hbounds
  obtain ⟨haudit, hstart, -, hstop⟩ := hbounds [] token _ hpre List.nil_prefix rfl hrejection
  have hnames : UnquotedUpTo misnamedTag (attributes misnamedTag).1 := by decide +kernel
  refine ⟨_, hrejection, haudit, hstart, ?_, ?_⟩
  · rcases hstop with hle | ⟨tag, items, item, -, hevent, hpart, hquoted, -⟩
    · exact hle
    · obtain rfl : tag = misnamedTag := by
        rcases hevent with hevent | hevent <;> cases hevent
        rfl
      exact absurd ⟨hnames.1, fun other hother => hnames.2 other (hpart.subset hother)⟩ hquoted
  · rw [hitems] at hnames ⊢
    exact (hvalues misnamedTag _ _ (hitems ▸ List.prefix_rfl)).mp hnames

/-- A tag whose name has a quote, which opens a stretch that reaches to the third value.  The second
stretch is a part of the last key. -/
def strayReference : Source :=
  ⟨["<a\" x='1' y='12345678&' z=\"3\"w\"/>".toUTF8.toList], none⟩

/-- Behind a name with a quote the reference without an end in the second value is not reported at
its ampersand, nor in its tag, nor at any byte of the document. -/
theorem audit_strayReference :
    let tag := "a\" x='1' y='12345678&' z=\"3\"w\"".toUTF8.toList
    let token : Token := ⟨0, 33, .emptyTag tag⟩
    strayReference.tokens.tokens = [token] ∧ strayReference.content.length = token.stop ∧
      strayReference.content[21]? = some 0x26 ∧
      (attributes tag).1.map (·.start) = [6, 12, 26] ∧
      (quotedValues tag).map (·.start) = [2, 28] ∧
      (∃ failure, rejection? .utf8 [] token = some failure ∧ failure.offset = 37 ∧
        ¬ failure.offset ≤ token.stop) ∧
      audit "Test.xml" strayReference .empty = .ok [.notWellFormed ⟨"Test.xml", 1, 38, none⟩
        "Error while escaping character at range 8..9: Cannot find ';' after '&'"] := by
  intro tag token
  have hrejection : rejection? .utf8 [] token =
      some ⟨37, .reference (.unterminated "12345678".toList 9)⟩ := by
    decide +kernel
  refine ⟨?_, ?_, ?_, ?_, ?_, ⟨_, hrejection, rfl, by decide⟩, ?_⟩ <;> decide +kernel

end FormsAudit.Document
