import FormsAudit.Proofs.Document.Truncated
import FormsAudit.Proofs.Encoding.Plain
import FormsAudit.Proofs.Markup.Parts
import FormsAudit.Proofs.Markup.Reference

/-!
# The characters of accepted documents

What a document without a fault of form is made of is legal text in its encoding (`TokenLegal`), up
to the characters that its references denote (`audit_legality`).  Of text inside of an element
nothing else is asked.

Each check is described by what passes it, beginning with `decodeAt_eq_ok_iff`.  The values of
attributes are checked for their references alone: their own characters have been checked with the
tag, of whose text theirs is a part (`readsLegal_of_standsBetween`).
-/

namespace FormsAudit.Document

open Markup

/-! ## Legal content -/

section

variable [WideDecoders]

/-- What is asked of the bytes of a text. -/
structure TextLegal (encoding : Encoding) (raw : List UInt8) (text : List Char) : Prop where
  reads : ReadsLegal encoding raw text
  sectionEnd : ¬ [']', ']', '>'] <:+: text
  references : ReferencesLegal text

/-- What is asked of the bytes of a tag, as a whole and part by part. -/
structure TagLegal (encoding : Encoding) (raw : List UInt8) : Prop where
  reads : ∃ text, ReadsLegal encoding raw text
  name : ∃ text, ReadsLegal encoding (tagName raw) text
  whole : (attributes raw).2 = none
  keys : ∀ item ∈ (attributes raw).1, ∃ text, ReadsLegal encoding item.key text
  values : ∀ item ∈ (attributes raw).1, ∃ text,
    ReadsLegal encoding item.value text ∧ ReferencesLegal text

/-- What is asked of an event.  Declarations and end tags are not asked for their characters. -/
def EventLegal (encoding : Encoding) : Event → Prop
  | .text raw => ∃ text, TextLegal encoding raw text
  | .cdata raw | .comment raw | .instruction raw => ∃ text, ReadsLegal encoding raw text
  | .startTag raw | .emptyTag raw => TagLegal encoding raw
  | .declaration _ | .doctype _ | .endTag _ => True

/-! ## What passes the checks -/

variable {encoding : Encoding} {start : Nat} {raw : List UInt8} {text : List Char}

omit [WideDecoders] in
theorem sectionEnd?_eq_none_iff : sectionEnd? raw = none ↔ ¬ [0x5D, 0x5D, 0x3E] <:+: raw := by
  induction raw with
  | nil => simp [sectionEnd?]
  | cons byte raw ih =>
    rw [List.infix_cons_iff, not_or, ← ih, sectionEnd?]
    by_cases hstarts : [0x5D, 0x5D, 0x3E] <+: byte :: raw <;>
      simp [List.isPrefixOf_iff_prefix, hstarts]

omit [WideDecoders] in
theorem discard_eq_ok_iff {α : Type} {result : Except Failure α} :
    (discard result : Except Failure Unit) = .ok () ↔ ∃ value, result = .ok value := by
  cases result with
  | error failure => exact iff_of_false (by rintro ⟨⟩) (by simp)
  | ok value => exact iff_of_true rfl ⟨value, rfl⟩

/-- References are replaced exactly when they are legal, in a text that is so. -/
theorem exists_expandAt_iff {tokenStart : Nat} (hlegal : ∀ c ∈ text, IsLegalCode c.toNat) :
    (∃ expanded, expandAt encoding tokenStart start text = .ok expanded) ↔
      ReferencesLegal text := by
  simp only [← isLegal_iff] at hlegal
  rw [← exists_expand_legal_iff hlegal]
  unfold expandAt
  constructor
  · rintro ⟨expanded, h⟩
    cases hexpand : expand text with
    | error fault => simp [hexpand] at h
    | ok found =>
      refine ⟨found, rfl, ?_⟩
      by_cases hampersand : text.contains '&'
      · simp only [hexpand, hampersand, if_true] at h
        apply illegal?_eq_none_iff.mp
        cases hillegal : illegal? found with
        | none => rfl
        | some illegal => simp [hillegal] at h
      · -- without a reference there are only the characters of the text
        intro c hc
        rcases (expand_eq_ok_iff.mp hexpand).mem hc with hc | ⟨name, -, hname, -⟩
        · exact hlegal c hc
        · have hmem : '&' ∈ text := hname.2.subset List.mem_cons_self
          exact absurd (List.contains_iff_mem.mpr hmem) hampersand
  · rintro ⟨expanded, hexpand, hexpanded⟩
    refine ⟨expanded, ?_⟩
    simp [hexpand, illegal?_eq_none_iff.mpr hexpanded]

theorem checkVerbatim_eq_ok_iff {skip : Nat} :
    checkVerbatim encoding start skip raw = .ok () ↔ ∃ text, ReadsLegal encoding raw text := by
  simp only [checkVerbatim, bind_eq_ok_iff, decodeAt_eq_ok_iff, checkLegal_eq_ok_iff, ReadsLegal]

/-- The attributes of a tag pass when the values of all are read, and their references replaced. -/
theorem forall_of_expandAttributes {items : List Attribute} {values : List QuotedValue}
    {found : List (String × String)}
    (h : expandAttributes encoding start items values = .ok found) :
    ∀ item ∈ items, ∃ text, encoding.decode? item.value = some text ∧
      ∃ valueStart expanded, expandAt encoding start valueStart text = .ok expanded := by
  induction items generalizing values found with
  | nil => simp
  | cons item items ih =>
    simp only [expandAttributes, bind_eq_ok_iff, decodeAt_eq_ok_iff] at h
    obtain ⟨text, htext, expanded, hexpanded, others, hothers, -⟩ := h
    intro other hother
    rcases List.mem_cons.mp hother with rfl | hother
    · exact ⟨text, htext, _, expanded, hexpanded⟩
    · exact ih hothers other hother

section Bytewise

variable (hbytewise : encoding.isBytewise = true)

include hbytewise

theorem sectionEnd?_of_decode? (hread : encoding.decode? raw = some text) :
    sectionEnd? raw = none ↔ ¬ [']', ']', '>'] <:+: text := by
  have hword : ∀ c ∈ [']', ']', '>'], Utf8.isPlain c = true := by
    simp [Utf8.isPlain]
  rw [sectionEnd?_eq_none_iff, ← Encoding.infix_iff hbytewise hread hword (by simp)]
  rfl

theorem checkText_eq_ok_iff :
    checkText encoding start raw = .ok () ↔ ∃ text, TextLegal encoding raw text := by
  unfold checkText
  constructor
  · intro h
    split at h
    · cases h
    · rename_i hsection
      simp only [bind_eq_ok_iff, decodeAt_eq_ok_iff] at h
      obtain ⟨text, hread, ⟨⟩, hcheck, hexpand⟩ := h
      have hlegal := checkLegal_eq_ok_iff.mp hcheck
      exact ⟨text, ⟨hread, hlegal⟩, (sectionEnd?_of_decode? hbytewise hread).mp hsection,
        (exists_expandAt_iff hlegal).mp (discard_eq_ok_iff.mp hexpand)⟩
  · rintro ⟨text, ⟨hread, hlegal⟩, hsection, hreferences⟩
    rw [(sectionEnd?_of_decode? hbytewise hread).mpr hsection]
    simp only [bind_eq_ok_iff, decodeAt_eq_ok_iff]
    refine ⟨text, hread, (), checkLegal_eq_ok_iff.mpr hlegal, ?_⟩
    exact discard_eq_ok_iff.mpr ((exists_expandAt_iff hlegal).mpr hreferences)

/-- What stands between ASCII bytes is legal with the whole. -/
theorem readsLegal_of_standsBetween {part : List UInt8} (h : StandsBetween part raw)
    (hreads : ReadsLegal encoding raw text) : ∃ inner, ReadsLegal encoding part inner := by
  obtain ⟨opening, closing, hopening, hclosing, before, after, rfl⟩ := h
  obtain ⟨hread, hlegal⟩ := hreads
  have hshape : before ++ opening :: (part ++ [closing]) ++ after =
      before ++ opening :: (part ++ closing :: after) := by simp
  rw [hshape] at hread
  obtain ⟨inner, hinner, hpart⟩ :=
    Encoding.exists_infix_of_decode? hbytewise hopening hclosing hread
  exact ⟨inner, hinner, fun c hc => hlegal c (hpart.subset hc)⟩

/-- In a tag that can be read, a value can be read too, so it fails because of its references. -/
theorem exists_expandAt_of_readValue (hreads : ReadsLegal encoding raw text) {item : Attribute}
    (hitem : item ∈ (attributes raw).1) {tokenStart valueStart : Nat} {failure : Failure}
    (h : readValue encoding tokenStart valueStart item.value = .error failure) :
    ∃ value, ReadsLegal encoding item.value value ∧
      expandAt encoding tokenStart valueStart value = .error failure := by
  obtain ⟨-, hvalue⟩ := standsBetween_of_mem_attributes hitem
  obtain ⟨value, hvalue⟩ := readsLegal_of_standsBetween hbytewise hvalue hreads
  refine ⟨value, hvalue, ?_⟩
  rwa [readValue, decodeAt, hvalue.1] at h

theorem tagName_readsLegal (hreads : ReadsLegal encoding raw text) :
    ∃ name, ReadsLegal encoding (tagName raw) name := by
  rcases tagName_eq_or raw with hall | ⟨space, rest, hspace, hraw⟩
  · rw [hall]
    exact ⟨text, hreads⟩
  · obtain ⟨hread, hlegal⟩ := hreads
    rw [hraw, Encoding.decode?_append_plain hbytewise (lt_of_isSpace hspace),
      Option.bind_eq_some_iff] at hread
    obtain ⟨name, hname, hread⟩ := hread
    obtain ⟨others, -, rfl⟩ := Option.map_eq_some_iff.mp hread
    exact ⟨name, hname, fun c hc => hlegal c (List.mem_append_left _ hc)⟩

theorem tagLegal_of_checkTag {found : List (String × String)}
    (h : checkTag encoding start raw = .ok found) : TagLegal encoding raw := by
  obtain ⟨⟨text, hread, hcheck⟩, -, hwhole, hexpanded⟩ := checkTag_eq_ok_iff.mp h
  have hreads : ReadsLegal encoding raw text := ⟨hread, checkLegal_eq_ok_iff.mp hcheck⟩
  refine ⟨⟨text, hreads⟩, tagName_readsLegal hbytewise hreads, hwhole, ?_, ?_⟩
  · intro item hitem
    obtain ⟨hkey, -⟩ := standsBetween_of_mem_attributes hitem
    exact readsLegal_of_standsBetween hbytewise hkey hreads
  · intro item hitem
    obtain ⟨-, hvalue⟩ := standsBetween_of_mem_attributes hitem
    obtain ⟨value, hreads⟩ := readsLegal_of_standsBetween hbytewise hvalue hreads
    obtain ⟨other, hother, valueStart, hexpand⟩ := forall_of_expandAttributes hexpanded item hitem
    obtain rfl : other = value := Option.some.inj (hother.symm.trans hreads.1)
    exact ⟨other, hreads, (exists_expandAt_iff hreads.2).mp hexpand⟩

/-- Whatever passes the check of its content is legal. -/
theorem eventLegal_of_checkContent {token : Token} {attributes : List (String × String)}
    (h : checkContent encoding token = .ok attributes) : EventLegal encoding token.event := by
  have hpasses : ∀ {check : Except Failure Unit},
      check.map (fun _ => ([] : List (String × String))) = .ok attributes → check = .ok () := by
    rintro (failure | ⟨⟩) hcheck
    · cases hcheck
    · rfl
  obtain ⟨start, stop, event⟩ := token
  cases event with
  | declaration content | doctype content | endTag name => trivial
  | startTag content | emptyTag content => exact tagLegal_of_checkTag hbytewise h
  | text content => exact (checkText_eq_ok_iff hbytewise).mp (hpasses h)
  | cdata content | comment content | instruction content =>
    exact checkVerbatim_eq_ok_iff.mp (hpasses h)

end Bytewise

/-! ## Accepted documents -/

/-- Text inside of an element is accepted exactly when it is legal, and changes nothing. -/
theorem accept_text_iff {state : State} {stop : Nat} (hopened : state.opened ≠ [])
    (hbytewise : (state.encodingAt start).isBytewise = true) :
    state.accept ⟨start, stop, .text raw⟩ = .ok (state, none) ↔
      ∃ text, TextLegal (state.encodingAt start) raw text := by
  have hcheck : checkText (state.encodingAt start) start raw = .ok () ↔
      ∃ text, TextLegal (state.encodingAt start) raw text := checkText_eq_ok_iff hbytewise
  have hinside : state.opened.isEmpty = false := by simpa using hopened
  rw [← hcheck]
  simp only [State.accept, hinside, Bool.false_and, Bool.false_eq_true, if_false]
  cases checkText (state.encodingAt start) start raw <;> simp [Except.map]

/-- **Of a document without a fault of form every event is legal**, in the encoding in force at its
place.  Text inside of an element is refused only where it is not. -/
theorem audit_legality (source : Source) :
    (Stepwise (fun before token =>
        (encodingOf source.signature.encoding before token).isBytewise = true)
        source.tokens.tokens →
      ∀ file index diagnostics, audit file source index = .ok diagnostics →
        malformed diagnostics = [] →
          Stepwise (fun before token =>
            EventLegal (encodingOf source.signature.encoding before token) token.event)
            source.tokens.tokens) ∧
      ∀ (state : State) (start stop : Nat) (raw : List UInt8), state.opened ≠ [] →
        (state.encodingAt start).isBytewise = true →
          (state.accept ⟨start, stop, .text raw⟩ = .ok (state, none) ↔
            ∃ text, TextLegal (state.encodingAt start) raw text) := by
  constructor
  · intro hbytewise file index diagnostics haudit hwell before token hpre
    obtain ⟨-, haccepted⟩ := accepted_of_malformed_eq_nil haudit hwell
    have hrejection : rejection? source.signature.encoding ([] ++ before) token = none :=
      rejection?_of_prefix_acceptedAfter (haccepted ▸ hpre)
    obtain ⟨-, attributes, hcheck, -⟩ := accept_of_rejection?_eq_none hrejection
    exact eventLegal_of_checkContent (hbytewise before token hpre) hcheck
  · intro state start stop raw hopened hbytewise
    exact accept_text_iff hopened hbytewise

end

/-- A text with references of every kind, and a character beyond ASCII. -/
def referringText : List UInt8 := "&lt;x&#9;&custom;".toUTF8.toList ++ [0xE9]

/-- A document in a declared encoding of one byte per character. -/
def referringDocument : Source :=
  ⟨["<?xml version='1.0' encoding='windows-1252'?><a t='&#x41;'>".toUTF8.toList ++ referringText ++
    "</a>".toUTF8.toList], none⟩

attribute [local instance] WideDecoders.asciiOnly

theorem audit_legality_referringDocument :
    let inside : State := ⟨.narrow .windows1252, ["a"], true, false, false⟩
    audit "Form.xml" referringDocument .empty = .ok [] ∧
      TagLegal (.narrow .windows1252) "a t='&#x41;'".toUTF8.toList ∧
      inside.accept ⟨59, 77, .text referringText⟩ = .ok (inside, none) ∧
      (∃ text, TextLegal (.narrow .windows1252) referringText text) ∧
      ¬ ∃ text, TextLegal (.narrow .windows1252) "&#1;".toUTF8.toList text := by
  intro inside
  have haudit : audit "Form.xml" referringDocument .empty = .ok [] := by decide +kernel
  have htokens : referringDocument.tokens.tokens =
      [] ++ [⟨0, 45, .declaration "xml version='1.0' encoding='windows-1252'".toUTF8.toList⟩] ++
        [⟨45, 59, .startTag "a t='&#x41;'".toUTF8.toList⟩] ++ [⟨59, 77, .text referringText⟩] ++
        [⟨77, 81, .endTag "a".toUTF8.toList⟩] := by
    decide +kernel
  have hbytewise : Stepwise (fun before token =>
      (encodingOf referringDocument.signature.encoding before token).isBytewise = true)
      referringDocument.tokens.tokens := by
    rw [htokens]
    iterate 4 rw [stepwise_concat]
    refine ⟨⟨⟨⟨stepwise_nil, ?_⟩, ?_⟩, ?_⟩, ?_⟩ <;> decide +kernel
  obtain ⟨hdocument, htext⟩ := audit_legality referringDocument
  have hlegal := hdocument hbytewise "Form.xml" .empty [] haudit rfl
  rw [htokens, stepwise_concat, stepwise_concat, stepwise_concat] at hlegal
  obtain ⟨⟨⟨-, htag⟩, -⟩, -⟩ := hlegal
  have hopened : inside.opened ≠ [] := List.cons_ne_nil _ _
  have hreferring := htext inside 59 77 referringText hopened rfl
  have hcontrol := htext inside 59 63 "&#1;".toUTF8.toList hopened rfl
  have haccept : inside.accept ⟨59, 77, .text referringText⟩ = .ok (inside, none) := by
    decide +kernel
  have hencoding : encodingOf referringDocument.signature.encoding
      ([] ++ [⟨0, 45, .declaration "xml version='1.0' encoding='windows-1252'".toUTF8.toList⟩])
      ⟨45, 59, .startTag "a t='&#x41;'".toUTF8.toList⟩ = .narrow .windows1252 := by
    decide +kernel
  rw [hencoding] at htag
  refine ⟨haudit, htag, haccept, hreferring.mp haccept, ?_⟩
  intro hlegal
  have hrejected : inside.accept ⟨59, 63, .text "&#1;".toUTF8.toList⟩ ≠ .ok (inside, none) := by
    decide +kernel
  exact hrejected (hcontrol.mpr hlegal)

end FormsAudit.Document
