import FormsAudit.Proofs.Document.Legality
import FormsAudit.Proofs.Markup.Name
import FormsAudit.Proofs.Markup.WrittenTag

/-!
# References to entities by name

No declaration of an entity is read, so a reference in a text can only be asked for its name.  If a
document is in order but for one reference (`Mentions`), it is accepted when an entity may have that
name (`audit_named`).  That is not the question whether XML calls it a name: some names of XML are
refused, and some texts that are no names are accepted (`audit_misjudgedNames`).

Every text has such a document, with nothing but the reference in its root (`mentions_soleReference`).
-/

namespace FormsAudit

namespace Markup

/-- A word without the character lies on one side of it. -/
theorem infix_append_cons_iff {α : Type} {c : α} {word first second : List α} (hc : c ∉ word) :
    word <:+: first ++ c :: second ↔ word <:+: first ∨ word <:+: second := by
  constructor
  · rintro ⟨front, back, h⟩
    rcases List.append_eq_append_iff.mp h with ⟨rest, hfirst, -⟩ | ⟨rest, hfront, hback⟩
    · exact .inl ⟨front, rest, hfirst.symm⟩
    cases rest with
    | nil => exact .inl ⟨front, [], by simpa using hfront⟩
    | cons d rest =>
      obtain ⟨rfl, rfl⟩ := List.cons.inj hback
      -- the word ends behind the character, so it begins there too
      rcases List.append_eq_append_iff.mp hfront with ⟨part, -, hword⟩ | ⟨part, -, hword⟩
      · rw [hword] at hc
        simp at hc
      · cases part with
        | nil =>
          obtain rfl : c :: rest = word := hword
          simp at hc
        | cons e part =>
          obtain ⟨-, rfl⟩ := List.cons.inj hword
          exact .inr ⟨part, back, rfl⟩
  · rintro (h | h)
    · exact h.trans (List.prefix_append ..).isInfix
    · exact h.trans ((List.suffix_cons ..).isInfix.trans (List.suffix_append ..).isInfix)

theorem bracket_notMem_of_isName {name : List Char} (h : isName name = true) : ']' ∉ name := by
  have hbracket : startsName ']' = false ∧ continuesName ']' = false := by decide +kernel
  cases name with
  | nil => exact List.not_mem_nil
  | cons first rest =>
    obtain ⟨hfirst, hrest⟩ := isName_cons_iff.mp h
    rintro (_ | ⟨_, hmem⟩)
    · simp [hbracket.1] at hfirst
    · simpa [hbracket.2] using hrest _ hmem

end Markup

namespace Document

open Markup

variable {outside name after : List Char}

/-- A text with a reference in it. -/
def withReference (outside name after : List Char) : List Char :=
  outside ++ '&' :: (name ++ ';' :: after)

section

variable [WideDecoders]

theorem textLegal_of_checkText {text : List Char} {start : Nat}
    (h : checkText .utf8 start (Utf8.encode text) = .ok ()) :
    TextLegal .utf8 (Utf8.encode text) text := by
  have hbytewise : Encoding.utf8.isBytewise = true := rfl
  obtain ⟨other, hother⟩ := (checkText_eq_ok_iff hbytewise).mp h
  obtain rfl : text = other :=
    Option.some.inj ((Utf8.decode?_encode text).symm.trans hother.reads.1)
  exact hother

/-- Legal texts in UTF-8 can be expanded to legal ones. -/
theorem TextLegal.exists_expands {text : List Char}
    (h : TextLegal .utf8 (Utf8.encode text) text) :
    ∃ expanded, Expands text expanded ∧ ∀ c ∈ expanded, isLegal c = true := by
  have hlegal : ∀ c ∈ text, isLegal c = true := fun c hc => isLegal_iff.mpr (h.reads.2 c hc)
  obtain ⟨expanded, hexpand, hexpanded⟩ := (exists_expand_legal_iff hlegal).mpr h.references
  exact ⟨expanded, expand_eq_ok_iff.mp hexpand, hexpanded⟩

section Between

variable (houtside : TextLegal .utf8 (Utf8.encode outside) outside)
  (hafter : TextLegal .utf8 (Utf8.encode after) after)
  (hlegal : ∀ c ∈ name, IsLegalCode c.toNat) (hclosed : IsEnclosed name)

include houtside hafter hlegal

theorem legal_withReference : ∀ c ∈ withReference outside name after, IsLegalCode c.toNat := by
  have hampersand : IsLegalCode '&'.toNat := isLegal_iff.mp rfl
  have hsemicolon : IsLegalCode ';'.toNat := isLegal_iff.mp rfl
  simp only [withReference, List.mem_append, List.mem_cons]
  rintro c (hc | rfl | hc | rfl | hc)
  · exact houtside.reads.2 c hc
  · exact hampersand
  · exact hlegal c hc
  · exact hsemicolon
  · exact hafter.reads.2 c hc

include hclosed

theorem referencesLegal_withReference (hname : isName name = true) :
    ReferencesLegal (withReference outside name after) := by
  have hwhole : ∀ c ∈ withReference outside name after, isLegal c = true := fun c hc =>
    isLegal_iff.mpr (legal_withReference houtside hafter hlegal c hc)
  obtain ⟨first, hfirst, hfirstLegal⟩ := houtside.exists_expands
  obtain ⟨last, hlast, hlastLegal⟩ := hafter.exists_expands
  obtain ⟨value, hvalue, hvalueLegal⟩ := exists_standsFor (.inr hname)
  have hexpands := hfirst.append (.reference hclosed hvalue hlast)
  refine (exists_expand_legal_iff hwhole).mp ⟨_, expand_eq_ok_iff.mpr hexpands, ?_⟩
  simp only [List.mem_append]
  rintro c (hc | hc | hc)
  · exact hfirstLegal c hc
  · exact hvalueLegal c hc
  · exact hlastLegal c hc

/-- **A text that is legal but for a reference to an entity is legal if an entity may be called
so.** -/
theorem exists_textLegal_withReference_iff (hsharp : name.head? ≠ some '#') :
    (∃ text, TextLegal .utf8 (Utf8.encode (withReference outside name after)) text) ↔
      isName name = true := by
  have hread : Encoding.utf8.decode? (Utf8.encode (withReference outside name after)) =
      some (withReference outside name after) :=
    Utf8.decode?_encode _
  constructor
  · rintro ⟨text, ⟨htext, -⟩, -, hreferences⟩
    obtain rfl : withReference outside name after = text :=
      Option.some.inj (hread.symm.trans htext)
    have hreference : HasReference (withReference outside name after) name :=
      ⟨hclosed, outside, after, by simp [withReference]⟩
    rcases hreferences.names name hreference hsharp with ⟨c, hc⟩ | hname
    · exact isName_of_predefined hc
    · exact hname
  · intro hname
    refine ⟨_, ⟨hread, legal_withReference houtside hafter hlegal⟩, ?_,
      referencesLegal_withReference houtside hafter hlegal hclosed hname⟩
    -- the reference cuts the text, and its name has no bracket
    rw [withReference, infix_append_cons_iff (by decide), infix_append_cons_iff (by decide)]
    rintro (h | h | h)
    · exact houtside.sectionEnd h
    · exact bracket_notMem_of_isName hname (h.subset List.mem_cons_self)
    · exact hafter.sectionEnd h

end Between

/-! ## Documents -/

/-- The document has a reference to an entity of that name in the text of a token, and whatever else
is in it is in order. -/
structure Mentions (source : Source) (before : List Token) (token : Token)
    (outside name after : List Char) : Prop where
  ending : ∃ stop, source.tokens.ending = .complete stop
  wellFormed : WellFormed source.tokens.tokens
  pre : before ++ [token] <+: source.tokens.tokens
  /-- The content of every other token passes. -/
  others : Stepwise (fun first other => first ≠ before → ∃ attributes,
    checkContent (encodingOf source.signature.encoding first other) other = .ok attributes)
    source.tokens.tokens
  event : token.event = .text (Utf8.encode (withReference outside name after))
  encoding : encodingOf source.signature.encoding before token = .utf8
  legalOutside : TextLegal .utf8 (Utf8.encode outside) outside
  legalAfter : TextLegal .utf8 (Utf8.encode after) after

variable {source : Source} {before : List Token} {token : Token}

/-- The audit of a well-formed document reports no fault of form if the content of every token
passes. -/
theorem exists_audit_of_wellFormed (file : String) (index : ScriptIndex) {stop : Nat}
    (hending : source.tokens.ending = .complete stop) (hwell : WellFormed source.tokens.tokens) :
    ∃ diagnostics, audit file source index = .ok diagnostics ∧
      (malformed diagnostics = [] ↔
        ContentPasses source.signature.encoding source.tokens.tokens) := by
  obtain ⟨hplaced, hopened, htag⟩ := (wellFormed_iff (nested_tokens source)).mp hwell
  obtain ⟨verdict, hverdict, hsome⟩ :=
    exists_verdict source.signature.encoding (.inl ⟨stop, hending⟩)
  rw [audit_eq, hverdict]
  refine ⟨_, rfl, ?_⟩
  rw [malformed_append, malformed_findingsAfter, List.nil_append]
  have hcontent : verdict = none ↔
      ContentPasses source.signature.encoding source.tokens.tokens := by
    rw [← Option.not_isSome_iff_eq_none, hsome]
    simp [hending, hopened, htag, acceptedAfter_eq_iff, hplaced]
  rw [← hcontent]
  cases verdict <;> simp [malformed, Failure.diagnostic, Diagnostic.notWellFormed]

/-- With all other tokens in order, the document is accepted when the text with the reference is
legal. -/
theorem Mentions.contentPasses_iff (h : Mentions source before token outside name after) :
    ContentPasses source.signature.encoding source.tokens.tokens ↔
      ∃ text, TextLegal .utf8 (Utf8.encode (withReference outside name after)) text := by
  have hcheck : (∃ attributes, checkContent .utf8 token = .ok attributes) ↔
      ∃ text, TextLegal .utf8 (Utf8.encode (withReference outside name after)) text := by
    have hbytewise : Encoding.utf8.isBytewise = true := rfl
    simp only [checkContent, h.event, exists_map_eq_ok_iff]
    exact Unique.exists_iff.trans (checkText_eq_ok_iff hbytewise)
  rw [← hcheck, ← h.encoding]
  constructor
  · intro hall
    exact hall before token h.pre
  · intro htoken first other hpre
    by_cases hfirst : first = before
    · subst hfirst
      obtain rfl : token = other := concat_isPrefix_unique h.pre hpre
      exact htoken
    · exact h.others first other hpre hfirst

/-- With all else in order, the name decides. -/
theorem Mentions.exists_audit (h : Mentions source before token outside name after)
    (hlegal : ∀ c ∈ name, IsLegalCode c.toNat) (hclosed : IsEnclosed name)
    (hsharp : name.head? ≠ some '#') (file : String) (index : ScriptIndex) :
    ∃ diagnostics, audit file source index = .ok diagnostics ∧
      (malformed diagnostics = [] ↔ isName name = true) := by
  obtain ⟨stop, hending⟩ := h.ending
  obtain ⟨diagnostics, haudit, hcontent⟩ :=
    exists_audit_of_wellFormed file index hending h.wellFormed
  refine ⟨diagnostics, haudit, ?_⟩
  rw [hcontent, h.contentPasses_iff]
  exact exists_textLegal_withReference_iff h.legalOutside h.legalAfter hlegal hclosed hsharp

/-! ## A document for every name -/

/-- A root with nothing in it but a reference to an entity of that name. -/
def soleReference (name : List Char) : Source :=
  ⟨[[0x3C, 0x61, 0x3E] ++ (Utf8.encode (withReference [] name []) ++ [0x3C, 0x2F, 0x61, 0x3E])],
    none⟩

omit [WideDecoders] in
theorem tokens_soleReference (hangle : '<' ∉ name) :
    let raw := Utf8.encode (withReference [] name [])
    (soleReference name).tokens =
      ⟨[] ++ [⟨0, 3, .startTag [0x61]⟩] ++ [⟨3, 3 + raw.length, .text raw⟩] ++
        [⟨3 + raw.length, 3 + raw.length + 4, .endTag [0x61]⟩], .complete (3 + raw.length + 4)⟩ := by
  intro raw
  have hraw : (0x3C : UInt8) ∉ raw := by
    have hmem : '<' ∉ withReference [] name [] := by simpa [withReference] using hangle
    exact fun h => hmem ((Utf8.plainByte_mem_encode_iff (by decide)).mp h)
  have hne : raw ≠ [] := Utf8.encode_ne_nil (by simp [withReference])
  have hcollect : ∀ byte ∈ raw, ∀ offset collected,
      Lexer.step ⟨offset, 3, .text collected, [[0x61]]⟩ byte =
        .collecting ⟨offset + 1, 3, .text (byte :: collected), [[0x61]]⟩ := by
    intro byte hbyte offset collected
    have hother : byte ≠ 0x3C := ne_of_mem_of_not_mem hbyte hraw
    simp [Lexer.step, Lexer.stepText, hother, Lexer.collect]
  have hcontent : (soleReference name).content =
      [0x3C, 0x61, 0x3E] ++ (raw ++ [0x3C, 0x2F, 0x61, 0x3E]) := by
    simp [soleReference, raw, Source.content, Source.bytes, Source.signature, Source.firstRead,
      Signature.ofFirstRead]
  have hopening : lex .initial [0x3C, 0x61, 0x3E] =
      ([⟨0, 3, .startTag [0x61]⟩], .ready ⟨3, 3, .text [], [[0x61]]⟩) := by
    decide
  have hclosing : lex ⟨3 + raw.length, 3, .text (raw.reverse ++ []), [[0x61]]⟩
      [0x3C, 0x2F, 0x61, 0x3E] =
        ([⟨3, 3 + raw.length, .text raw⟩,
            ⟨3 + raw.length, 3 + raw.length + 4, .endTag [0x61]⟩],
          .ready ⟨3 + raw.length + 4, 3 + raw.length + 4, .text [], []⟩) := by
    simp [lex, Lexer.step, Lexer.stepText, hne, Lexer.stepMarkup, Lexer.stepTag, Lexer.completeTag,
      Lexer.collect, Lexer.complete, isSpace]
  have hlex : lex .initial (soleReference name).content =
      ([] ++ [⟨0, 3, .startTag [0x61]⟩] ++ [⟨3, 3 + raw.length, .text raw⟩] ++
        [⟨3 + raw.length, 3 + raw.length + 4, .endTag [0x61]⟩],
        .ready ⟨3 + raw.length + 4, 3 + raw.length + 4, .text [], []⟩) := by
    rw [hcontent, lex_append, hopening]
    dsimp only
    rw [lex_collect .text hcollect, hclosing]
    rfl
  rw [tokens_of_ready rfl (congrArg Prod.snd hlex), hlex]
  rfl

theorem mentions_soleReference (hangle : '<' ∉ name) :
    let raw := Utf8.encode (withReference [] name [])
    Mentions (soleReference name) ([] ++ [⟨0, 3, .startTag [0x61]⟩]) ⟨3, 3 + raw.length, .text raw⟩
      [] name [] := by
  intro raw
  have htokens := tokens_soleReference hangle
  have hnested := nested_tokens (soleReference name)
  have hnil : TextLegal .utf8 (Utf8.encode []) [] :=
    textLegal_of_checkText (rfl : checkText .utf8 0 _ = .ok ())
  refine ⟨⟨_, congrArg Reading.ending htokens⟩, ?_, ?_, ?_, rfl, rfl, hnil, hnil⟩
  · rw [wellFormed_iff hnested, htokens]
    refine ⟨?_, rfl, rfl⟩
    iterate 3 refine stepwise_concat.mpr ⟨?_, rfl⟩
    exact stepwise_nil
  · rw [htokens]
    exact List.prefix_append ..
  · rw [htokens]
    refine stepwise_concat.mpr ⟨stepwise_concat.mpr ⟨stepwise_concat.mpr ⟨stepwise_nil, ?_⟩, ?_⟩, ?_⟩
    · intro _
      exact ⟨[], rfl⟩
    · intro hother
      exact absurd rfl hother
    · intro _
      exact ⟨[], rfl⟩

/-- **Every text is a name or not, and the document with nothing but a reference to it is accepted
accordingly.** -/
theorem exists_audit_soleReference (hlegal : ∀ c ∈ name, IsLegalCode c.toNat)
    (hclosed : IsEnclosed name) (hangle : '<' ∉ name) (hsharp : name.head? ≠ some '#')
    (file : String) (index : ScriptIndex) :
    ∃ diagnostics, audit file (soleReference name) index = .ok diagnostics ∧
      (malformed diagnostics = [] ↔ isName name = true) :=
  (mentions_soleReference hangle).exists_audit hlegal hclosed hsharp file index

/-! ## The names of XML -/

/-- **A reference in a text is accepted when an entity may have its name, whatever XML says.**  In a
document with nothing else to refuse, all names of XML in ASCII are accepted and no other texts of
ASCII.  Beyond it, what is accepted is a name of XML unless it has a letter or number that is out of
place there. -/
theorem audit_named (file : String) (index : ScriptIndex)
    (h : Mentions source before token outside name after)
    (hlegal : ∀ c ∈ name, IsLegalCode c.toNat) (hclosed : IsEnclosed name)
    (hsharp : name.head? ≠ some '#') :
    ∃ diagnostics, audit file source index = .ok diagnostics ∧
      (malformed diagnostics = [] ↔ isName name = true) ∧
      (malformed diagnostics = [] → (IsXmlName name ↔ AvoidsStrays name)) ∧
      ((∀ c ∈ name, c.toNat < 0x80) → (malformed diagnostics = [] ↔ IsXmlName name)) := by
  obtain ⟨diagnostics, haudit, hname⟩ := h.exists_audit hlegal hclosed hsharp file index
  refine ⟨diagnostics, haudit, hname, ?_, ?_⟩
  · intro hwell
    exact isXmlName_iff_of_isName (hname.mp hwell)
  · intro hascii
    rw [hname]
    exact isName_iff_of_ascii hascii

end

/-- A text with a named reference among others, beside other content. -/
def mentioningDocument : Source :=
  ⟨["<p q='&#x41;'>&lt;x&gr\u00F6\u00DFe;&amp;<b/></p>".toUTF8.toList], none⟩

attribute [local instance] WideDecoders.asciiOnly

theorem audit_named_mentioningDocument :
    audit "Form.xml" mentioningDocument .empty = .ok [] ∧ IsXmlName "gr\u00F6\u00DFe".toList := by
  have htokens : mentioningDocument.tokens =
      ⟨[] ++ [⟨0, 14, .startTag "p q='&#x41;'".toUTF8.toList⟩] ++
        [⟨14, 33, .text "&lt;x&gr\u00F6\u00DFe;&amp;".toUTF8.toList⟩] ++
        [⟨33, 37, .emptyTag "b".toUTF8.toList⟩] ++ [⟨37, 41, .endTag "p".toUTF8.toList⟩],
        .complete 41⟩ := by
    decide +kernel
  have hwell : WellFormed mentioningDocument.tokens.tokens := by
    rw [wellFormed_iff (nested_tokens mentioningDocument), htokens]
    refine ⟨?_, by decide +kernel, by decide +kernel⟩
    iterate 4 refine stepwise_concat.mpr ⟨?_, by decide +kernel⟩
    exact stepwise_nil
  have hmentions : Mentions mentioningDocument
      ([] ++ [⟨0, 14, .startTag "p q='&#x41;'".toUTF8.toList⟩])
      ⟨14, 33, .text "&lt;x&gr\u00F6\u00DFe;&amp;".toUTF8.toList⟩ "&lt;x".toList
      "gr\u00F6\u00DFe".toList "&amp;".toList := by
    refine ⟨⟨41, by rw [htokens]⟩, hwell, ?_, ?_, by decide +kernel, by decide +kernel,
      textLegal_of_checkText (by decide +kernel : checkText .utf8 0 _ = .ok ()),
      textLegal_of_checkText (by decide +kernel : checkText .utf8 0 _ = .ok ())⟩
    · rw [htokens, List.append_assoc]
      exact List.prefix_append ..
    · rw [htokens]
      iterate 4 rw [stepwise_concat]
      refine ⟨⟨⟨⟨stepwise_nil, fun _ => ⟨[("q", "A")], ?_⟩⟩, fun hother => absurd rfl hother⟩,
        fun _ => ⟨[], ?_⟩⟩, fun _ => ⟨[], ?_⟩⟩ <;> decide +kernel
  have hlegal : ∀ c ∈ "gr\u00F6\u00DFe".toList, IsLegalCode c.toNat :=
    checkLegal_eq_ok_iff.mp (by decide +kernel : checkLegal .utf8 0 _ = .ok ())
  have hclosed : IsEnclosed "gr\u00F6\u00DFe".toList := by simp [IsEnclosed]
  obtain ⟨diagnostics, haudit, hname, hxml, -⟩ :=
    audit_named "Form.xml" .empty hmentions hlegal hclosed (by decide)
  have hfound : audit "Form.xml" mentioningDocument .empty = .ok [] := by decide +kernel
  obtain rfl : diagnostics = [] := Except.ok.inj (haudit.symm.trans hfound)
  exact ⟨haudit, (hxml rfl).mpr (by decide +kernel)⟩

/-- A name of XML with a middle dot is refused, and a letter that begins no name is accepted. -/
theorem audit_misjudgedNames :
    (IsXmlName ['a', '\u00B7', 'b'] ∧
      audit "Test.xml" ⟨["<a>&a\u00B7b;</a>".toUTF8.toList], none⟩ .empty =
        .ok [.notWellFormed ⟨"Test.xml", 1, 5, none⟩ "at 1..5: unrecognized entity `a\u00B7b`"]) ∧
    ¬ IsXmlName ['\u00AA'] ∧
      audit "Test.xml" ⟨["<a>&\u00AA;</a>".toUTF8.toList], none⟩ .empty = .ok [] := by
  decide +kernel

end Document

end FormsAudit
