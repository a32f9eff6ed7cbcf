import FormsAudit.Proofs.Document.Findings
import FormsAudit.Proofs.Markup.Reference
import FormsAudit.Proofs.Markup.Spelling

/-!
# What a token fails with

`FailsWith` lists the failures of the content of a token.  Each comes with what is known of the
content by then, and with the offset at which it is reported: where the content begins, moved on by
the bytes that are counted before the fault.  The check of a token gives no other failure
(`failsWith_of_checkContent`), so what holds of all failures is shown by looking at these.

The value of an attribute is reported relative to a quoted stretch of the tag, the one that has as
many before it as the attribute has.  Whether the value stands in it is another question.
-/

namespace FormsAudit.Document

open Markup

variable [WideDecoders]

/-- The bytes are that text, and all its characters may stand in a document. -/
def ReadsLegal (encoding : Encoding) (raw : List UInt8) (text : List Char) : Prop :=
  encoding.decode? raw = some text ∧ ∀ c ∈ text, IsLegalCode c.toNat

/-! ## The failures of the content of a token -/

/-- Where the value of the attribute that comes after `count` others is taken to start, in a tag that
begins at `tokenStart`. -/
def valueStart (tokenStart : Nat) (tag : List UInt8) (count : Nat) : Nat :=
  tokenStart + 1 + ((quotedValues tag)[count]?.map (·.start)).getD 0

/-- The value of an attribute with its references replaced, of bytes that are taken to begin at
`start`. -/
def readValue (encoding : Encoding) (tokenStart start : Nat) (raw : List UInt8) :
    Except Failure (List Char) :=
  decodeAt encoding start raw >>= expandAt encoding tokenStart start

/-- The failures of the content of a token. -/
inductive FailsWith (encoding : Encoding) (token : Token) : Failure → Prop
  | undecodable {skip : Nat} {content : List UInt8}
    (hcontent : token.event.content? = some (skip, content))
    (hread : encoding.decode? content = none) :
    FailsWith encoding token
      ⟨token.start + skip + (if encoding = .utf8 then Utf8.validLength content else 0),
        .undecodable encoding⟩
  | character {skip : Nat} {content : List UInt8} {text before : List Char} {c : Char}
    (hcontent : token.event.content? = some (skip, content))
    (hread : encoding.decode? content = some text) (hillegal : illegal? text = some (before, c)) :
    FailsWith encoding token
      ⟨token.start + skip + encoding.encodedLength before, .illegalCharacter c⟩
  | sectionEnd {content : List UInt8} {index : Nat} (hevent : token.event = .text content)
    (hend : sectionEnd? content = some index) :
    FailsWith encoding token ⟨token.start + index, .sectionEndInText⟩
  | reference {content : List UInt8} {text : List Char} {failure : Failure}
    (hevent : token.event = .text content) (hreads : ReadsLegal encoding content text)
    (hfails : expandAt encoding token.start token.start text = .error failure) :
    FailsWith encoding token failure
  | lessThan {tag : List UInt8} {index : Nat}
    (hevent : token.event = .startTag tag ∨ token.event = .emptyTag tag)
    (hless : lessThanInValue? (quotedValues tag) = some index) :
    FailsWith encoding token ⟨token.start + 1 + index, .lessThanInValue⟩
  | attributeFault {tag : List UInt8} {fault : AttributeFault}
    (hevent : token.event = .startTag tag ∨ token.event = .emptyTag tag)
    (hfault : (attributes tag).2 = some fault) :
    FailsWith encoding token ⟨token.start + 1 + fault.position, .attribute fault⟩
  | value {tag : List UInt8} {text : List Char} {items : List Attribute} {item : Attribute}
    {failure : Failure} (hevent : token.event = .startTag tag ∨ token.event = .emptyTag tag)
    (hreads : ReadsLegal encoding tag text) (hitems : items ++ [item] <+: (attributes tag).1)
    (hfails : readValue encoding token.start (valueStart token.start tag items.length) item.value =
      .error failure) :
    FailsWith encoding token failure

/-! ## What the parts of a check fail with -/

section Checks

variable {encoding : Encoding} {start : Nat} {raw : List UInt8} {text : List Char}
  {failure : Failure}

theorem decodeAt_eq_error_iff :
    decodeAt encoding start raw = .error failure ↔
      encoding.decode? raw = none ∧
        ⟨start + (if encoding = .utf8 then Utf8.validLength raw else 0), .undecodable encoding⟩ =
          failure := by
  unfold decodeAt
  cases encoding.decode? raw <;> simp

omit [WideDecoders] in
theorem illegal?_eq_none_iff : illegal? text = none ↔ ∀ c ∈ text, isLegal c = true := by
  unfold illegal?
  rw [← List.dropWhile_eq_nil_iff]
  cases text.dropWhile isLegal <;> simp

theorem checkLegal_eq_ok_iff :
    checkLegal encoding start text = .ok () ↔ ∀ c ∈ text, IsLegalCode c.toNat := by
  simp only [← isLegal_iff]
  rw [← illegal?_eq_none_iff, checkLegal]
  cases illegal? text <;> simp

theorem checkLegal_eq_error_iff :
    checkLegal encoding start text = .error failure ↔
      ∃ before c, illegal? text = some (before, c) ∧
        ⟨start + encoding.encodedLength before, .illegalCharacter c⟩ = failure := by
  unfold checkLegal
  cases illegal? text with
  | none => simp
  | some found => simp [Prod.ext_iff]

/-- The replacement of references fails at the first that is none, or when they stand for a character
that is not legal. -/
theorem expandAt_eq_error_iff {tokenStart : Nat} :
    expandAt encoding tokenStart start text = .error failure ↔
      (∃ fault, expand text = .error fault ∧
        ⟨referenceOffset encoding tokenStart start fault, .reference fault⟩ = failure) ∨
      ∃ expanded before c, expand text = .ok expanded ∧ '&' ∈ text ∧
        illegal? expanded = some (before, c) ∧ ⟨tokenStart, .illegalCharacter c⟩ = failure := by
  unfold expandAt
  cases expand text with
  | error fault => simp
  | ok expanded =>
    by_cases hampersand : '&' ∈ text
    · cases hillegal : illegal? expanded with
      | none => simp [hampersand, hillegal]
      | some found => simp [hampersand, hillegal, Prod.ext_iff]
    · simp [hampersand]

omit [WideDecoders] in
theorem discard_eq_error_iff {α : Type} {result : Except Failure α} :
    (discard result : Except Failure Unit) = .error failure ↔ result = .error failure :=
  map_eq_error_iff

theorem readsLegal_of_check (hread : decodeAt encoding start raw = .ok text)
    (hcheck : checkLegal encoding start text = .ok ()) : ReadsLegal encoding raw text :=
  ⟨decodeAt_eq_ok_iff.mp hread, checkLegal_eq_ok_iff.mp hcheck⟩

/-- The attributes fail with the first of their values that fails. -/
theorem exists_of_expandAttributes_eq_error {items : List Attribute} {values : List QuotedValue}
    (h : expandAttributes encoding start items values = .error failure) :
    ∃ before item, before ++ [item] <+: items ∧
      readValue encoding start (start + 1 + (values[before.length]?.map (·.start)).getD 0)
        item.value = .error failure := by
  induction items generalizing values with
  | nil => cases h
  | cons item items ih =>
    rw [expandAttributes, List.head?_eq_getElem?] at h
    rcases bind_eq_error_iff.mp h with hread | ⟨text, hread, h⟩
    · exact ⟨[], item, ⟨items, rfl⟩, bind_eq_error_iff.mpr (.inl hread)⟩
    rcases bind_eq_error_iff.mp h with hexpand | ⟨value, -, h⟩
    · exact ⟨[], item, ⟨items, rfl⟩, bind_eq_error_iff.mpr (.inr ⟨text, hread, hexpand⟩)⟩
    rcases bind_eq_error_iff.mp h with hothers | ⟨others, -, h⟩
    · obtain ⟨before, other, hpre, hfails⟩ := ih hothers
      rw [List.getElem?_tail] at hfails
      exact ⟨item :: before, other, List.cons_prefix_cons.mpr ⟨rfl, hpre⟩, hfails⟩
    · cases h

end Checks

/-! ## The checks of the events -/

section Events

variable {encoding : Encoding} {token : Token} {failure : Failure}

theorem failsWith_of_checkText {content : List UInt8} (hevent : token.event = .text content)
    (h : checkText encoding token.start content = .error failure) :
    FailsWith encoding token failure := by
  have hcontent : token.event.content? = some (0, content) := by rw [hevent]; rfl
  unfold checkText at h
  split at h
  · rename_i index hindex
    cases h
    exact .sectionEnd hevent hindex
  rcases bind_eq_error_iff.mp h with hread | ⟨text, hread, h⟩
  · obtain ⟨hnone, rfl⟩ := decodeAt_eq_error_iff.mp hread
    exact .undecodable hcontent hnone
  rcases bind_eq_error_iff.mp h with hcheck | ⟨⟨⟩, hcheck, h⟩
  · obtain ⟨before, c, hillegal, rfl⟩ := checkLegal_eq_error_iff.mp hcheck
    exact .character hcontent (decodeAt_eq_ok_iff.mp hread) hillegal
  · exact .reference hevent (readsLegal_of_check hread hcheck) (discard_eq_error_iff.mp h)

theorem failsWith_of_checkVerbatim {skip : Nat} {content : List UInt8}
    (hcontent : token.event.content? = some (skip, content))
    (h : checkVerbatim encoding token.start skip content = .error failure) :
    FailsWith encoding token failure := by
  rcases bind_eq_error_iff.mp h with hread | ⟨text, hread, h⟩
  · obtain ⟨hnone, rfl⟩ := decodeAt_eq_error_iff.mp hread
    exact .undecodable hcontent hnone
  · obtain ⟨before, c, hillegal, rfl⟩ := checkLegal_eq_error_iff.mp h
    exact .character hcontent (decodeAt_eq_ok_iff.mp hread) hillegal

theorem failsWith_of_checkTag {tag : List UInt8}
    (hevent : token.event = .startTag tag ∨ token.event = .emptyTag tag)
    (h : checkTag encoding token.start tag = .error failure) :
    FailsWith encoding token failure := by
  have hcontent := content?_of_tag hevent
  unfold checkTag at h
  rcases bind_eq_error_iff.mp h with hread | ⟨text, hread, h⟩
  · obtain ⟨hnone, rfl⟩ := decodeAt_eq_error_iff.mp hread
    exact .undecodable hcontent hnone
  rcases bind_eq_error_iff.mp h with hcheck | ⟨⟨⟩, hcheck, h⟩
  · obtain ⟨before, c, hillegal, rfl⟩ := checkLegal_eq_error_iff.mp hcheck
    exact .character hcontent (decodeAt_eq_ok_iff.mp hread) hillegal
  dsimp only at h
  split at h
  · rename_i index hindex
    cases h
    exact .lessThan hevent hindex
  rcases bind_eq_error_iff.mp h with hexpand | ⟨found, -, h⟩
  · obtain ⟨items, item, hitems, hfails⟩ := exists_of_expandAttributes_eq_error hexpand
    exact .value hevent (readsLegal_of_check hread hcheck) hitems hfails
  split at h
  · rename_i fault hfault
    cases h
    exact .attributeFault hevent hfault
  · cases h

/-- **The check of a token gives the failures of its content and no others.** -/
theorem failsWith_of_checkContent (h : checkContent encoding token = .error failure) :
    FailsWith encoding token failure := by
  unfold checkContent at h
  split at h
  · rename_i hevent
    exact failsWith_of_checkTag (.inl hevent) h
  · rename_i hevent
    exact failsWith_of_checkTag (.inr hevent) h
  · rename_i hevent
    exact failsWith_of_checkText hevent (map_eq_error_iff.mp h)
  · rename_i hevent
    exact failsWith_of_checkVerbatim (by rw [hevent]; rfl) (map_eq_error_iff.mp h)
  · rename_i hevent
    exact failsWith_of_checkVerbatim (by rw [hevent]; rfl) (map_eq_error_iff.mp h)
  · rename_i hevent
    exact failsWith_of_checkVerbatim (by rw [hevent]; rfl) (map_eq_error_iff.mp h)
  · cases h

/-- A token is rejected because of its place, at its start, or because of its content. -/
theorem failsWith_of_rejection? {signature : Encoding} {before : List Token}
    (h : rejection? signature before token = some failure) :
    (∃ fault, obstacle? before token = some fault ∧ failure = ⟨token.start, fault⟩) ∨
      obstacle? before token = none ∧
        FailsWith (encodingOf signature before token) token failure := by
  rw [rejection?_eq] at h
  split at h
  · rename_i fault hfault
    exact .inl ⟨fault, hfault, (Option.some.inj h).symm⟩
  · rename_i hplace
    right
    split at h
    · rename_i other hcheck
      obtain rfl := Option.some.inj h
      exact ⟨hplace, failsWith_of_checkContent hcheck⟩
    · cases h

end Events

end FormsAudit.Document
