import FormsAudit.Proofs.Document.Legality
import FormsAudit.Proofs.Document.Values
import FormsAudit.Proofs.Markup.Misreference

/-!
# Where a bad reference is reported

The checks of a token come to the references of a text, or of the value of an attribute, when nothing
else is at fault before (`ComesTo`).  A bad reference there ends the document.  Its ampersand lies
where the bytes before it end, but that is only where it is reported when it has no end: a name is
reported one byte further, and a number at the start of the token (`reportedAt`,
`audit_badReference`).

The values of attributes are located by the quoted stretches of the tag.  So no name up to the value
may have a quote in it, which would open a stretch of its own.
-/

namespace FormsAudit.Document

open Markup

/-! ## Bad references in some bytes -/

/-- Where a defect is reported, of a reference whose ampersand lies at `ampersand` in a token that
begins at `tokenStart`. -/
def reportedAt (tokenStart ampersand : Nat) : ReferenceDefect → Nat
  | .unterminated => ampersand
  | .misnamed => ampersand + 1
  | .misnumbered | .illegal => tokenStart

/-- The text that is expanded before the defect comes to light: characters are looked at when all
references have been replaced. -/
def expandedFirst (outside after : List Char) : ReferenceDefect → List Char
  | .illegal => outside ++ '&' :: after
  | _ => outside

theorem expandedFirst_of_ne {defect : ReferenceDefect} (h : defect ≠ .illegal)
    (outside after : List Char) : expandedFirst outside after defect = outside := by
  cases defect with
  | illegal => exact absurd rfl h
  | _ => rfl

section

variable [WideDecoders]

/-- A reference with the defect begins with the ampersand at `index` of the bytes, and it is where
their expansion fails. -/
def BadReference (encoding : Encoding) (raw : List UInt8) (index : Nat)
    (defect : ReferenceDefect) : Prop :=
  ∃ front back outside after, raw = front ++ 0x26 :: back ∧ front.length = index ∧
    encoding.decode? front = some outside ∧ encoding.decode? back = some after ∧
    (∃ expanded, Expands (expandedFirst outside after defect) expanded) ∧ HasDefect defect after

theorem BadReference.getElem? {encoding : Encoding} {raw : List UInt8} {index : Nat}
    {defect : ReferenceDefect} (h : BadReference encoding raw index defect) :
    raw[index]? = some 0x26 := by
  obtain ⟨front, back, -, -, rfl, rfl, -⟩ := h
  simp

section Bytewise

variable {encoding : Encoding} (hbytewise : encoding.isBytewise = true) {raw : List UInt8}
  {text : List Char}

include hbytewise

/-- In bytes that are legal but for their references, there is one that is bad. -/
theorem exists_badReference (hreads : ReadsLegal encoding raw text)
    (hillegal : ¬ ReferencesLegal text) :
    ∃ index defect, BadReference encoding raw index defect := by
  obtain ⟨hread, hlegal⟩ := hreads
  -- an ampersand of the text is one of the bytes
  have hbad : ∀ outside after defect, text = outside ++ '&' :: after →
      (∃ expanded, Expands (expandedFirst outside after defect) expanded) →
        HasDefect defect after → ∃ index defect, BadReference encoding raw index defect := by
    rintro outside after defect rfl hexpands hdefect
    obtain ⟨front, back, hraw, hfront, hback⟩ :=
      Encoding.exists_of_decode?_append hbytewise (c := '&') rfl hread
    exact ⟨front.length, defect, front, back, outside, after, hraw, rfl, hfront, hback, hexpands,
      hdefect⟩
  rcases expands_or_exists_hasDefect text with
    ⟨expanded, h⟩ | ⟨outside, after, defect, htext, hne, hexpands, hdefect⟩
  · simp only [← isLegal_iff] at hlegal
    have hnot : ¬ ∀ c ∈ expanded, isLegal c = true := fun hall =>
      hillegal ((exists_expand_legal_iff hlegal).mp ⟨expanded, expand_eq_ok_iff.mpr h, hall⟩)
    simp only [not_forall] at hnot
    obtain ⟨c, hc, hcharacter⟩ := hnot
    rcases h.mem hc with hmem | ⟨name, value, ⟨hname, before, rest, htext⟩, hvalue, hmem⟩
    · exact absurd (hlegal c hmem) hcharacter
    · cases hvalue with
      | @number number found hwrites hzero =>
        obtain rfl := List.mem_singleton.mp hmem
        refine hbad before ('#' :: (number ++ ';' :: rest)) .illegal (by rw [← htext]; simp)
          ⟨expanded, ?_⟩ (.illegal rest (by simpa [IsEnclosed] using hname) hwrites hzero
            (fun hcode => hcharacter (isLegal_iff.mpr hcode)))
        rw [expandedFirst]
        rw [← htext] at h
        simpa using h
      | predefined hpredefined =>
        rw [List.mem_singleton.mp hmem] at hcharacter
        exact absurd (isLegal_of_predefined hpredefined) hcharacter
      | declared => cases hmem
  · refine hbad outside after defect htext ?_ hdefect
    rwa [expandedFirst_of_ne hne]

/-- The text with a bad reference is refused at the place of the defect. -/
theorem exists_expandAt_eq_error {index : Nat} {defect : ReferenceDefect}
    (h : BadReference encoding raw index defect) (hread : encoding.decode? raw = some text)
    (tokenStart start : Nat) :
    ∃ fault, expandAt encoding tokenStart start text =
      .error ⟨reportedAt tokenStart (start + index) defect, fault⟩ := by
  obtain ⟨front, back, outside, after, rfl, rfl, hfront, hback, ⟨expanded, hexpands⟩, hdefect⟩ := h
  have htext : text = outside ++ '&' :: after := by
    rw [Encoding.decode?_append_plain hbytewise (by decide), hfront, hback] at hread
    exact (Option.some.inj hread).symm
  have hlength : encoding.encodedLength outside = front.length :=
    Encoding.encodedLength_eq hbytewise hfront
  have hlength' : encoding.encodedLength (outside ++ ['&']) = front.length + 1 := by
    have hampersand : encoding.decode? (front ++ [0x26]) = some (outside ++ ['&']) := by
      rw [Encoding.decode?_append_plain hbytewise (by decide), hfront,
        Encoding.decode?_nil hbytewise]
      rfl
    rw [Encoding.encodedLength_eq hbytewise hampersand]
    simp
  subst htext
  by_cases hillegal : defect = .illegal
  · subst hillegal
    rw [expandedFirst] at hexpands
    have hexpand : expand (outside ++ '&' :: after) = .ok expanded := expand_eq_ok_iff.mpr hexpands
    have hfound : illegal? expanded ≠ none := by
      intro hnone
      cases hdefect with
      | @illegal number c rest hnumber hwrites hzero hcharacter =>
        have hname : HasReference (outside ++ '&' :: '#' :: (number ++ ';' :: rest))
            ('#' :: number) :=
          ⟨by simpa [IsEnclosed] using hnumber, outside, rest, by simp⟩
        obtain ⟨value, hvalue, hpart⟩ := hexpands.exists_of_hasReference hname
        obtain rfl := hvalue.unique (.number hwrites hzero)
        have hlegal := illegal?_eq_none_iff.mp hnone c (hpart.subset List.mem_cons_self)
        exact hcharacter (isLegal_iff.mp hlegal)
    obtain ⟨⟨before, c⟩, hsome⟩ := Option.ne_none_iff_exists'.mp hfound
    refine ⟨.illegalCharacter c, ?_⟩
    unfold expandAt
    simp [hexpand, hsome, reportedAt]
  · rw [expandedFirst_of_ne hillegal] at hexpands
    obtain ⟨fault, hexpand, hbefore⟩ := exists_expand_eq_error hexpands hdefect hillegal
    refine ⟨.reference fault, ?_⟩
    unfold expandAt
    simp only [hexpand, Except.error.injEq, Failure.mk.injEq, and_true]
    cases fault <;> cases defect <;>
      simp_all [referenceOffset, ReferenceFault.before?, reportedAt, Nat.add_assoc]

end Bytewise

/-! ## Where references are looked for -/

/-- The checks of a token come to the references of the bytes `raw`, which begin at `start`: they are
its text, or the value of one of its attributes, and all that is checked before is right. -/
inductive ComesTo (encoding : Encoding) (token : Token) : Nat → List UInt8 → Prop
  | text {raw : List UInt8} {text : List Char} (hevent : token.event = .text raw)
    (hreads : ReadsLegal encoding raw text) (hsection : ¬ [0x5D, 0x5D, 0x3E] <:+: raw) :
    ComesTo encoding token token.start raw
  | value {tag : List UInt8} {text : List Char} {items : List Attribute} {item : Attribute}
    (hevent : token.event = .startTag tag ∨ token.event = .emptyTag tag)
    (hreads : ReadsLegal encoding tag text)
    (hless : ∀ value ∈ quotedValues tag, 0x3C ∉ value.content)
    (hitems : items ++ [item] <+: (attributes tag).1)
    (hnames : UnquotedUpTo tag (items ++ [item]))
    (hearlier : ∀ other ∈ items, ∃ text, encoding.decode? other.value = some text ∧
      ReferencesLegal text) :
    ComesTo encoding token (token.start + 1 + item.start) item.value

theorem ComesTo.exists_append {encoding : Encoding} {token : Token} {start : Nat}
    {raw bytes : List UInt8} (h : ComesTo encoding token start raw)
    (hspelled : SpelledIn bytes token) (hstart : token.start ≤ token.stop) :
    ∃ before rest, bytes = before ++ (raw ++ rest) ∧ before.length = start := by
  cases h with
  | @text raw text hevent =>
    have hcontent : token.event.content? = some (0, raw) := by rw [hevent]; rfl
    exact hspelled.exists_append hstart hcontent
  | @value tag text items item hevent hreads hless hitems hnames =>
    have hmem : item.quoted ∈ quotedValues tag := by
      apply (map_quoted_isPrefix hitems hnames).subset
      simp
    obtain ⟨before, rest, rfl, hbefore⟩ :=
      hspelled.exists_append hstart (content?_of_tag hevent)
    obtain ⟨front, mark, others, htag, hfront⟩ := exists_of_mem_quotedValues hmem
    refine ⟨before ++ front, mark :: others ++ rest, ?_, ?_⟩
    · rw [htag]
      simp [Attribute.quoted]
    · rw [List.length_append, hbefore, hfront]
      rfl

/-- The first value whose references cannot be replaced is where a tag fails. -/
theorem expandAttributes_eq_error {encoding : Encoding} {start : Nat} {items : List Attribute}
    {item : Attribute} {values : List QuotedValue} {text : List Char} {failure : Failure}
    (hvalues : (items ++ [item]).map Attribute.quoted <+: values)
    (hearlier : ∀ other ∈ items, ∃ text, ReadsLegal encoding other.value text ∧
      ReferencesLegal text)
    (hread : encoding.decode? item.value = some text)
    (hfails : expandAt encoding start (start + 1 + item.start) text = .error failure)
    (others : List Attribute) :
    expandAttributes encoding start (items ++ item :: others) values = .error failure := by
  induction items generalizing values with
  | nil =>
    obtain ⟨rest, rfl⟩ := hvalues
    simp [expandAttributes, Attribute.quoted, decodeAt, hread, hfails, bind, Except.bind]
  | cons first items ih =>
    obtain ⟨text', ⟨hread', hlegal⟩, hreferences⟩ := hearlier first List.mem_cons_self
    obtain ⟨value, values, rfl⟩ : ∃ value others, values = value :: others := by
      cases values with
      | nil => simp at hvalues
      | cons value others => exact ⟨value, others, rfl⟩
    obtain ⟨rfl, hrest⟩ := List.cons_prefix_cons.mp hvalues
    have hexpands : ∃ expanded,
        expandAt encoding start (start + 1 + first.start) text' = .ok expanded :=
      (exists_expandAt_iff hlegal).mpr hreferences
    obtain ⟨expanded, hexpanded⟩ := hexpands
    have hothers := ih hrest fun other hother => hearlier other (List.mem_cons_of_mem first hother)
    simp [expandAttributes, Attribute.quoted, decodeAt, hread', hexpanded, hothers, bind,
      Except.bind]

section Bytewise

variable {encoding : Encoding} (hbytewise : encoding.isBytewise = true)

include hbytewise

/-- The characters themselves are right. -/
theorem ComesTo.exists_readsLegal {token : Token} {start : Nat} {raw : List UInt8}
    (h : ComesTo encoding token start raw) : ∃ text, ReadsLegal encoding raw text := by
  cases h with
  | text hevent hreads => exact ⟨_, hreads⟩
  | value hevent hreads hless hitems =>
    obtain ⟨-, hvalue⟩ := standsBetween_of_mem_attributes (mem_of_concat hitems)
    exact readsLegal_of_standsBetween hbytewise hvalue hreads

/-- Where the checks come to a reference that is bad, the token is refused. -/
theorem checkContent_eq_error {token : Token} {start index : Nat} {raw : List UInt8}
    {defect : ReferenceDefect} (h : ComesTo encoding token start raw)
    (hbad : BadReference encoding raw index defect) :
    ∃ fault, checkContent encoding token =
      .error ⟨reportedAt token.start (start + index) defect, fault⟩ := by
  obtain ⟨text, hread, hlegal⟩ := h.exists_readsLegal hbytewise
  obtain ⟨fault, hfails⟩ := exists_expandAt_eq_error hbytewise hbad hread token.start start
  refine ⟨fault, ?_⟩
  cases h with
  | text hevent hreads hsection =>
    have hcheck : checkLegal encoding token.start text = .ok () := checkLegal_eq_ok_iff.mpr hlegal
    have hdiscard : ∀ failure : Failure, (discard (.error failure : Except Failure (List Char)) :
        Except Failure Unit) = .error failure := fun _ => rfl
    simp [checkContent, hevent, checkText, sectionEnd?_eq_none_iff.mpr hsection, decodeAt, hread,
      hcheck, hfails, hdiscard, bind, Except.bind, Except.map]
  | @value tag tagText items item hevent hreads hless hitems hnames hearlier =>
    obtain ⟨hreadTag, hlegalTag⟩ := hreads
    have hcheck : checkLegal encoding (token.start + 1) tagText = .ok () :=
      checkLegal_eq_ok_iff.mpr hlegalTag
    have hvalues := map_quoted_isPrefix hitems hnames
    have hlegalEarlier : ∀ other ∈ items, ∃ text,
        ReadsLegal encoding other.value text ∧ ReferencesLegal text := by
      intro other hother
      have hmem : other ∈ (attributes tag).1 :=
        hitems.subset (List.mem_append_left [item] hother)
      obtain ⟨value, hvalue⟩ := readsLegal_of_standsBetween hbytewise
        (standsBetween_of_mem_attributes hmem).2 ⟨hreadTag, hlegalTag⟩
      obtain ⟨text, htext, hreferences⟩ := hearlier other hother
      obtain rfl : value = text := Option.some.inj (hvalue.1.symm.trans htext)
      exact ⟨value, hvalue, hreferences⟩
    obtain ⟨others, hall⟩ := hitems
    rw [List.append_assoc, List.singleton_append] at hall
    have hattributes := expandAttributes_eq_error hvalues hlegalEarlier hread hfails others
    rw [hall] at hattributes
    have htag : checkTag encoding token.start tag =
        .error ⟨reportedAt token.start (token.start + 1 + item.start + index) defect, fault⟩ := by
      simp [checkTag, decodeAt, hreadTag, hcheck, lessThanInValue?_eq_none_iff.mpr hless,
        hattributes, bind, Except.bind]
    rcases hevent with hevent | hevent <;> simpa [checkContent, hevent] using htag

end Bytewise

/-! ## The report -/

/-- A token that is refused, after tokens that are accepted, ends the document. -/
theorem audit_eq_of_rejection? {source : Source} {before : List Token} {token : Token}
    {failure : Failure} (hpre : before ++ [token] <+: source.tokens.tokens)
    (hbefore : before <+: acceptedAfter source.signature.encoding [] source.tokens.tokens)
    (h : rejection? source.signature.encoding before token = some failure) (file : String)
    (index : ScriptIndex) :
    audit file source index =
      .ok (findingsAfter index (locationIn file (.ofSource source)) source.signature.encoding []
          before ++ [failure.diagnostic (locationIn file (.ofSource source))]) := by
  rcases accepted_or_rejected hpre hbefore with ⟨hnone, -⟩ | ⟨other, hother, hfirst, haccepted⟩
  · rw [h] at hnone
    cases hnone
  · rw [h] at hother
    obtain rfl := Option.some.inj hother
    rw [audit_eq, verdict?, hfirst, haccepted]
    rfl

/-- **A bad reference ends the document, and where it is reported depends on its defect.**  Of a
text or a value that the checks come to, some reference is bad if they are not all legal.  Its
ampersand is one of the bytes, and the report goes to it only if the reference has no end. -/
theorem audit_badReference (file : String) (index : ScriptIndex) {source : Source}
    {before : List Token} {token : Token} {start : Nat} {raw : List UInt8}
    (hpre : before ++ [token] <+: source.tokens.tokens)
    (hbefore : before <+: acceptedAfter source.signature.encoding [] source.tokens.tokens)
    (hplace : obstacle? before token = none)
    (hbytewise : (encodingOf source.signature.encoding before token).isBytewise = true)
    (hcomes : ComesTo (encodingOf source.signature.encoding before token) token start raw) :
    let encoding := encodingOf source.signature.encoding before token
    let locate := locationIn file (.ofSource source)
    (∀ text, encoding.decode? raw = some text → ¬ ReferencesLegal text →
        ∃ ampersand defect, BadReference encoding raw ampersand defect) ∧
      ∀ ampersand defect, BadReference encoding raw ampersand defect →
        source.content[start + ampersand]? = some 0x26 ∧
          ∃ message, audit file source index =
            .ok (findingsAfter index locate source.signature.encoding [] before ++
              [.notWellFormed (locate (reportedAt token.start (start + ampersand) defect))
                message]) ∧
            ((∀ bytes ∈ source.reads, bytes ≠ []) → source.signature.mark ≠ 2 →
              let place := lineColumn
                (source.content.take (reportedAt token.start (start + ampersand) defect))
              locate (reportedAt token.start (start + ampersand) defect) =
                ⟨file, LineIndex.saturate place.1, LineIndex.saturate place.2, none⟩) := by
  intro encoding locate
  constructor
  · intro text hread hillegal
    obtain ⟨other, hreads⟩ := hcomes.exists_readsLegal hbytewise
    obtain rfl : other = text := Option.some.inj (hreads.1.symm.trans hread)
    exact exists_badReference hbytewise hreads hillegal
  · intro ampersand defect hbad
    have htoken : token ∈ source.tokens.tokens := mem_of_concat hpre
    obtain ⟨hstart, hstop⟩ := bounds_of_source htoken
    obtain ⟨front, rest, hcontent, rfl⟩ :=
      hcomes.exists_append (spelled_of_source source htoken) hstart.le
    obtain ⟨hlt, -⟩ := List.getElem?_eq_some_iff.mp hbad.getElem?
    refine ⟨?_, ?_⟩
    · rw [hcontent, List.getElem?_append_right (Nat.le_add_right _ _), Nat.add_sub_cancel_left,
        List.getElem?_append_left hlt, hbad.getElem?]
    · obtain ⟨fault, hcheck⟩ := checkContent_eq_error hbytewise hcomes hbad
      have hrejection : rejection? source.signature.encoding before token =
          some ⟨reportedAt token.start (front.length + ampersand) defect, fault⟩ := by
        rw [rejection?_eq, hplace]
        simp only [hcheck]
      have haudit := audit_eq_of_rejection? hpre hbefore hrejection file index
      refine ⟨fault.message, haudit, ?_⟩
      intro hreads hmark
      have hinside : front.length + ampersand + 1 ≤ source.content.length := by
        rw [hcontent, List.length_append, List.length_append]
        omega
      have hreported : reportedAt token.start (front.length + ampersand) defect ≤
          source.content.length := by
        cases defect <;> simp only [reportedAt] <;> omega
      simp only [locate, locationIn, LineIndex.locate_ofSource hreads hmark hreported]

end

/-- A tag whose second value has a reference to no name, behind a character of two bytes. -/
def misnamedTag : List UInt8 := "a p='&lt;' q='\u00E9&1;'".toUTF8.toList

attribute [local instance] WideDecoders.asciiOnly

theorem audit_badReference_misnamedTag :
    let source : Source := ⟨["<".toUTF8.toList ++ misnamedTag ++ "/>".toUTF8.toList], none⟩
    source.content[17]? = some 0x26 ∧
      ∃ message, audit "Form.xml" source .empty =
        .ok [.notWellFormed ⟨"Form.xml", 1, 19, none⟩ message] := by
  intro source
  have htokens : source.tokens.tokens = [] ++ [⟨0, 23, .emptyTag misnamedTag⟩] := by
    decide +kernel
  have hreads : ReadsLegal .utf8 misnamedTag "a p='&lt;' q='\u00E9&1;'".toList :=
    ⟨by decide +kernel,
      checkLegal_eq_ok_iff.mp (by decide +kernel : checkLegal .utf8 0 _ = .ok ())⟩
  have hitems : [⟨"p".toUTF8.toList, "&lt;".toUTF8.toList, 5⟩] ++
      [⟨"q".toUTF8.toList, "\u00E9&1;".toUTF8.toList, 14⟩] <+: (attributes misnamedTag).1 := by
    decide +kernel
  have hearlier : ReferencesLegal "&lt;".toList :=
    (exists_expandAt_iff (checkLegal_eq_ok_iff.mp
      (by decide +kernel : checkLegal .utf8 0 _ = .ok ()))).mp
        ⟨['<'], (by decide +kernel : expandAt .utf8 0 0 "&lt;".toList = .ok ['<'])⟩
  have hcomes : ComesTo .utf8 ⟨0, 23, .emptyTag misnamedTag⟩ 15 "\u00E9&1;".toUTF8.toList := by
    refine .value (.inr rfl) hreads (by decide +kernel) hitems (by decide +kernel) ?_
    intro other hother
    obtain rfl := List.mem_singleton.mp hother
    exact ⟨"&lt;".toList, by decide +kernel, hearlier⟩
  have hdefect : HasDefect .misnamed ['1', ';'] :=
    @HasDefect.misnamed ['1'] [] (by simp [IsEnclosed]) (by decide) (by decide +kernel)
  have hbad : BadReference .utf8 "\u00E9&1;".toUTF8.toList 2 .misnamed :=
    ⟨"\u00E9".toUTF8.toList, "1;".toUTF8.toList, ['\u00E9'], ['1', ';'], by decide +kernel,
      by decide +kernel, by decide +kernel, by decide +kernel,
      ⟨['\u00E9'], .character (by decide) .nil⟩, hdefect⟩
  have hpre : [] ++ [⟨0, 23, .emptyTag misnamedTag⟩] <+: source.tokens.tokens :=
    htokens ▸ List.prefix_rfl
  obtain ⟨-, hreported⟩ :=
    audit_badReference "Form.xml" .empty hpre List.nil_prefix rfl rfl hcomes
  obtain ⟨hampersand, message, haudit, -⟩ := hreported 2 .misnamed hbad
  have hlocation : locationIn "Form.xml" (.ofSource source) (reportedAt 0 (15 + 2) .misnamed) =
      ⟨"Form.xml", 1, 19, none⟩ := by
    decide +kernel
  refine ⟨hampersand, message, ?_⟩
  rw [← hlocation]
  exact haudit

/-- A text with a reference to no name. -/
def namelessReference : Source := ⟨["<a>x&1;</a>".toUTF8.toList], none⟩

/-- A text with a reference to no character. -/
def zeroReference : Source := ⟨["<a>x&#0;</a>".toUTF8.toList], none⟩

/-- A reference to no name is reported behind its ampersand, and one to no character at the start of
the text. -/
theorem audit_misplacedReferences :
    (namelessReference.content[4]? = some 0x26 ∧
      lineColumn (namelessReference.content.take 4) = (1, 5) ∧
      audit "Test.xml" namelessReference .empty =
        .ok [.notWellFormed ⟨"Test.xml", 1, 6, none⟩ "at 2..3: unrecognized entity `1`"]) ∧
    (zeroReference.content[4]? = some 0x26 ∧
      lineColumn (zeroReference.content.take 4) = (1, 5) ∧
      audit "Test.xml" zeroReference .empty =
        .ok [.notWellFormed ⟨"Test.xml", 1, 4, none⟩
          "invalid character reference: 0x0 character is not permitted in XML"]) := by
  decide +kernel

end FormsAudit.Document
