import FormsAudit.Markup.Lexer
import FormsAudit.Proofs.Markup.Attributes
import FormsAudit.Proofs.Markup.Escaping
import FormsAudit.Proofs.Text.Encoded

/-!
# Tags as they are written

A tag is laid out as a name and attributes, each a key and a value between quotes, with blanks among
them (`WrittenTag`).  In a value everything may stand but the quote that ends it, also what means
something elsewhere in a tag.

Two readers come to such a tag.  The lexer takes all of it as one token (`lex_writtenTag`), and the
reader of attributes finds the keys and values that were written (`attributes_writtenTag`).
-/

namespace FormsAudit.Markup

open Utf8

/-! ## The layout of a tag -/

def blankChars : List Char := [' ', '\t', '\r', '\n']

/-- The characters that have a meaning in a tag outside of values. -/
def tagChars : List Char := blankChars ++ ['"', '\'', '<', '=', '>', '/', '!', '?']

/-- What may be the name of a tag or the key of an attribute. -/
structure IsWrittenName (name : List Char) : Prop where
  ne_nil : name ≠ []
  legal : ∀ c ∈ name, IsLegalCode c.toNat
  plain : ∀ c ∈ name, c ∉ tagChars

/-- An attribute as it is written, with the blanks before it. -/
structure WrittenAttribute where
  blanks : List Char
  key : List Char
  beforeEquals : List Char
  afterEquals : List Char
  quote : Char
  /-- What stands between the quotes. -/
  value : List Char
  deriving DecidableEq, Repr

namespace WrittenAttribute

variable (entry : WrittenAttribute)

def text : List Char :=
  entry.blanks ++ (entry.key ++ (entry.beforeEquals ++ '=' :: (entry.afterEquals ++
    entry.quote :: (entry.value ++ [entry.quote]))))

/-- The parts of the attribute are what they should be, but for its value. -/
structure IsLaidOut : Prop where
  blanks : ∀ c ∈ entry.blanks, c ∈ blankChars
  key : IsWrittenName entry.key
  beforeEquals : ∀ c ∈ entry.beforeEquals, c ∈ blankChars
  afterEquals : ∀ c ∈ entry.afterEquals, c ∈ blankChars
  quote : entry.quote = '"' ∨ entry.quote = '\''

/-- What is asked of the value. -/
structure HasLegalValue : Prop where
  clean : ∀ c ∈ entry.value, IsClean entry.quote c
  references : ReferencesLegal entry.value

theorem HasLegalValue.quote_notMem {entry : WrittenAttribute} (h : entry.HasLegalValue) :
    entry.quote ∉ entry.value :=
  fun hmem => (h.clean _ hmem).ne_quote rfl

end WrittenAttribute

/-- A tag as it is written. -/
structure WrittenTag where
  name : List Char
  entries : List WrittenAttribute
  /-- The blanks before the end of the tag. -/
  blanks : List Char
  /-- Whether the element ends with the tag. -/
  empty : Bool
  deriving DecidableEq, Repr

namespace WrittenTag

variable (tag : WrittenTag)

def text : List Char :=
  tag.name ++ (tag.entries.flatMap WrittenAttribute.text ++ tag.blanks)

def content : List UInt8 := encode tag.text

def ending : List UInt8 := if tag.empty then [0x2F, 0x3E] else [0x3E]

def event : Event := if tag.empty then .emptyTag tag.content else .startTag tag.content

/-- The parts of the tag are what they should be, but for the values, and there are no two of the
same key. -/
structure IsLaidOut : Prop where
  name : IsWrittenName tag.name
  entries : ∀ entry ∈ tag.entries, entry.IsLaidOut
  /-- The name ends before the first attribute. -/
  apart : ∀ entry ∈ tag.entries.head?, entry.blanks ≠ []
  keys : (tag.entries.map WrittenAttribute.key).Nodup
  blanks : ∀ c ∈ tag.blanks, c ∈ blankChars

end WrittenTag

/-! ## The bytes of the parts -/

theorem isPlain_of_mem_tagChars {c : Char} (h : c ∈ tagChars) : isPlain c = true := by
  have hall : tagChars.all isPlain = true := by decide
  exact List.all_eq_true.mp hall c h

theorem plainByte_notMem_encode {c : Char} (h : c ∈ tagChars) {text : List Char} (hc : c ∉ text) :
    plainByte c ∉ encode text :=
  fun hmem => hc ((plainByte_mem_encode_iff (isPlain_of_mem_tagChars h)).mp hmem)

/-- Blanks are written as blanks. -/
theorem isSpace_of_mem_encode {text : List Char} (h : ∀ c ∈ text, c ∈ blankChars) :
    ∀ byte ∈ encode text, isSpace byte = true := by
  induction text with
  | nil => simp
  | cons c text ih =>
    obtain ⟨hc, hrest⟩ := List.forall_mem_cons.mp h
    have hall : blankChars.all (fun c => (String.utf8EncodeChar c).all isSpace) = true := by decide
    have hspaces := List.all_eq_true.mp (List.all_eq_true.mp hall c hc)
    rw [encode_cons]
    exact List.forall_mem_append.mpr ⟨hspaces, ih hrest⟩

/-- No byte of a name is one that means something in a tag. -/
theorem IsWrittenName.notMem_of_mem_encode {name : List Char} (h : IsWrittenName name) :
    ∀ byte ∈ encode name, byte ∉ tagChars.map plainByte := by
  intro byte hbyte hmem
  obtain ⟨c, hc, rfl⟩ := List.mem_map.mp hmem
  exact plainByte_notMem_encode hc (fun hname => h.plain c hname hc) hbyte

theorem legal_of_blank {c : Char} (h : c ∈ blankChars) : IsLegalCode c.toNat ∧ c ≠ '<' := by
  have hall : ∀ c ∈ blankChars, IsLegalCode c.toNat ∧ c ≠ '<' := by simp [blankChars, IsLegalCode]
  exact hall c h

theorem IsWrittenName.legal_ne {name : List Char} (h : IsWrittenName name) :
    ∀ c ∈ name, IsLegalCode c.toNat ∧ c ≠ '<' := by
  intro c hc
  refine ⟨h.legal c hc, ?_⟩
  rintro rfl
  exact h.plain _ hc (by decide)

theorem isSpace_eq_false {byte : UInt8} (h : byte ∉ tagChars.map plainByte) :
    isSpace byte = false := by
  rw [← Bool.not_eq_true]
  intro hspace
  simp only [isSpace, Bool.or_eq_true, decide_eq_true_eq] at hspace
  rcases hspace with ((rfl | rfl) | rfl) | rfl <;> exact h (by decide)

theorem isQuote_eq_false {byte : UInt8} (h : byte ∉ tagChars.map plainByte) :
    isQuote byte = false := by
  rw [← Bool.not_eq_true]
  intro hquote
  simp only [isQuote, Bool.or_eq_true, decide_eq_true_eq] at hquote
  rcases hquote with rfl | rfl <;> exact h (by decide)

/-- What the lexer and the reader of attributes see of an attribute. -/
theorem WrittenAttribute.encode_text {entry : WrittenAttribute} (h : entry.IsLaidOut) :
    encode entry.text = encode entry.blanks ++ (encode entry.key ++ (encode entry.beforeEquals ++
      0x3D :: (encode entry.afterEquals ++ plainByte entry.quote ::
        (encode entry.value ++ [plainByte entry.quote])))) := by
  have hequals : String.utf8EncodeChar '=' = [0x3D] := by decide
  have hquote : String.utf8EncodeChar entry.quote = [plainByte entry.quote] := by
    rcases h.quote with hquote | hquote <;> rw [hquote] <;> decide
  simp [text, encode_append, hequals, hquote]

theorem isQuote_plainByte {quote : Char} (h : quote = '"' ∨ quote = '\'') :
    isQuote (plainByte quote) = true := by
  rcases h with rfl | rfl <;> rfl

/-! ## The lexer -/

/-- Bytes that are all collected in the same mode are collected one after the other. -/
theorem lex_collect (mode : List UInt8 → Mode) {bytes : List UInt8} {start : Nat}
    {opened : List (List UInt8)}
    (h : ∀ byte ∈ bytes, ∀ offset collected,
      Lexer.step ⟨offset, start, mode collected, opened⟩ byte =
        .collecting ⟨offset + 1, start, mode (byte :: collected), opened⟩)
    (offset : Nat) (collected rest : List UInt8) :
    lex ⟨offset, start, mode collected, opened⟩ (bytes ++ rest) =
      lex ⟨offset + bytes.length, start, mode (bytes.reverse ++ collected), opened⟩ rest := by
  induction bytes generalizing offset collected with
  | nil => rfl
  | cons byte bytes ih =>
    obtain ⟨hbyte, hrest⟩ := List.forall_mem_cons.mp h
    rw [List.cons_append, lex, hbyte]
    dsimp only
    rw [ih hrest, List.length_cons, List.reverse_cons, List.append_assoc, Nat.add_assoc,
      Nat.add_comm 1]
    rfl

/-- The lexer, outside of quotes in a tag, collects the bytes and is outside of quotes after
them. -/
def IsCollected (bytes : List UInt8) : Prop :=
  ∀ offset start opened closing collected rest,
    lex ⟨offset, start, .tag closing none collected, opened⟩ (bytes ++ rest) =
      lex ⟨offset + bytes.length, start, .tag closing none (bytes.reverse ++ collected), opened⟩ rest

theorem IsCollected.append {first second : List UInt8} (h : IsCollected first)
    (h' : IsCollected second) : IsCollected (first ++ second) := by
  intro offset start opened closing collected rest
  rw [List.append_assoc, h, h', List.length_append, List.reverse_append, Nat.add_assoc,
    List.append_assoc]

theorem isCollected_of_forall {bytes : List UInt8}
    (h : ∀ byte ∈ bytes, byte ≠ 0x3E ∧ isQuote byte = false) : IsCollected bytes := by
  intro offset start opened closing collected rest
  refine lex_collect (.tag closing none) ?_ offset collected rest
  intro byte hbyte offset collected
  obtain ⟨hne, hquote⟩ := h byte hbyte
  have hnot : ¬ (byte = 0x22 ∨ byte = 0x27) := by simpa [isQuote] using hquote
  simp only [Lexer.step, Lexer.stepTag, if_neg hne, if_neg hnot, Lexer.collect]

/-- Between quotes everything is collected, until the same quote comes again. -/
theorem isCollected_quoted {mark : UInt8} (hmark : isQuote mark = true) {bytes : List UInt8}
    (h : mark ∉ bytes) : IsCollected (mark :: (bytes ++ [mark])) := by
  intro offset start opened closing collected rest
  have hopens : mark = 0x22 ∨ mark = 0x27 := by simpa [isQuote] using hmark
  have hnot : mark ≠ 0x3E := by rcases hopens with rfl | rfl <;> decide
  have hinside : ∀ byte ∈ bytes, ∀ offset collected,
      Lexer.step ⟨offset, start, .tag closing (some mark) collected, opened⟩ byte =
        .collecting ⟨offset + 1, start, .tag closing (some mark) (byte :: collected), opened⟩ := by
    intro byte hbyte offset collected
    simp only [Lexer.step, Lexer.stepTag, if_neg (ne_of_mem_of_not_mem hbyte h), Lexer.collect]
  rw [List.cons_append, lex]
  simp only [Lexer.step, Lexer.stepTag, if_neg hnot, if_pos hopens, Lexer.collect]
  rw [List.append_assoc, lex_collect (.tag closing (some mark)) hinside]
  simp [lex, Lexer.step, Lexer.stepTag, Lexer.collect, Nat.add_assoc, Nat.add_comm 1]

theorem isCollected_blanks {text : List Char} (h : ∀ c ∈ text, c ∈ blankChars) :
    IsCollected (encode text) := by
  refine isCollected_of_forall fun byte hbyte => ?_
  have hspace := isSpace_of_mem_encode h byte hbyte
  refine ⟨?_, isQuote_of_isSpace hspace⟩
  rintro rfl
  cases hspace

theorem IsWrittenName.isCollected {name : List Char} (h : IsWrittenName name) :
    IsCollected (encode name) := by
  refine isCollected_of_forall fun byte hbyte => ?_
  have hplain := h.notMem_of_mem_encode byte hbyte
  refine ⟨?_, isQuote_eq_false hplain⟩
  rintro rfl
  exact hplain (by decide)

theorem WrittenAttribute.IsLaidOut.quote_notMem {entry : WrittenAttribute} (h : entry.IsLaidOut)
    (hvalue : entry.quote ∉ entry.value) : plainByte entry.quote ∉ encode entry.value := by
  refine plainByte_notMem_encode ?_ hvalue
  rcases h.quote with hquote | hquote <;> rw [hquote] <;> decide

theorem WrittenAttribute.IsLaidOut.isCollected {entry : WrittenAttribute} (h : entry.IsLaidOut)
    (hvalue : entry.quote ∉ entry.value) : IsCollected (encode entry.text) := by
  have hequals : IsCollected [0x3D] := isCollected_of_forall (by simp [isQuote])
  have hquoted := isCollected_quoted (isQuote_plainByte h.quote) (h.quote_notMem hvalue)
  rw [encode_text h]
  exact (isCollected_blanks h.blanks).append (h.key.isCollected.append
    ((isCollected_blanks h.beforeEquals).append (hequals.append
      ((isCollected_blanks h.afterEquals).append hquoted))))

section Tag

variable {tag : WrittenTag} (h : tag.IsLaidOut)

include h

theorem WrittenTag.IsLaidOut.isCollected (hvalues : ∀ entry ∈ tag.entries, entry.quote ∉ entry.value) :
    IsCollected tag.content := by
  have hentries : IsCollected (encode (tag.entries.flatMap WrittenAttribute.text)) := by
    have hall := h.entries
    generalize tag.entries = entries at hall hvalues ⊢
    induction entries with
    | nil => exact isCollected_of_forall (by simp)
    | cons entry entries ih =>
      obtain ⟨hentry, hrest⟩ := List.forall_mem_cons.mp hall
      obtain ⟨hvalue, hvalues⟩ := List.forall_mem_cons.mp hvalues
      rw [List.flatMap_cons, encode_append]
      exact (hentry.isCollected hvalue).append (ih hrest hvalues)
  rw [WrittenTag.content, WrittenTag.text, encode_append, encode_append]
  exact h.name.isCollected.append (hentries.append (isCollected_blanks h.blanks))

/-- A tag ends with its name, with a quote or with blanks. -/
theorem WrittenTag.IsLaidOut.exists_last :
    ∃ front last, tag.text = front ++ last ∧ last ≠ [] ∧ '/' ∉ last := by
  by_cases hblanks : tag.blanks = []
  · rcases List.eq_nil_or_concat' tag.entries with hentries | ⟨entries, entry, hentries⟩
    · refine ⟨[], tag.name, by simp [text, hentries, hblanks], h.name.ne_nil, ?_⟩
      exact fun hmem => h.name.plain '/' hmem (by decide)
    · refine ⟨tag.name ++ (entries.flatMap WrittenAttribute.text ++ (entry.blanks ++ (entry.key ++
        (entry.beforeEquals ++ '=' :: (entry.afterEquals ++ entry.quote :: entry.value))))),
        [entry.quote], by simp [text, hentries, hblanks, WrittenAttribute.text],
        List.cons_ne_nil _ _, ?_⟩
      have hquote := (h.entries entry (by rw [hentries]; simp)).quote
      rw [List.mem_singleton]
      rcases hquote with hquote | hquote <;> rw [hquote] <;> decide
  · refine ⟨tag.name ++ tag.entries.flatMap WrittenAttribute.text, tag.blanks,
      (List.append_assoc ..).symm, hblanks, fun hmem => ?_⟩
    exact absurd (h.blanks '/' hmem) (by decide)

/-- So it is not taken for one that ends its element. -/
theorem WrittenTag.IsLaidOut.reverse_content_ne (rest : List UInt8) :
    tag.content.reverse ≠ 0x2F :: rest := by
  obtain ⟨front, last, htext, hne, hslash⟩ := h.exists_last
  intro heq
  have hlast : encode last ≠ [] := encode_ne_nil hne
  have hcontent : tag.content = rest.reverse ++ [0x2F] := by
    rw [← List.reverse_reverse tag.content, heq, List.reverse_cons]
  rw [content, htext, encode_append] at hcontent
  have hmem : 0x2F ∈ encode last := by
    have hget : (encode front ++ encode last).getLast (by simp [hlast]) = 0x2F := by
      simp only [hcontent, List.getLast_concat]
    rw [List.getLast_append_of_ne_nil _ hlast] at hget
    exact hget ▸ List.getLast_mem hlast
  have hdash : '/' ∈ tagChars := by decide
  exact plainByte_notMem_encode hdash hslash hmem

/-- The name does not begin another kind of markup. -/
theorem WrittenTag.IsLaidOut.lex_markup (offset start : Nat) (opened : List (List UInt8))
    (rest : List UInt8) :
    lex ⟨offset, start, .markup, opened⟩ (tag.content ++ rest) =
      lex ⟨offset, start, .tag false none [], opened⟩ (tag.content ++ rest) := by
  obtain ⟨byte, bytes, hbytes⟩ := List.exists_cons_of_ne_nil (encode_ne_nil h.name.ne_nil)
  have hplain : byte ∉ tagChars.map plainByte :=
    h.name.notMem_of_mem_encode byte (by rw [hbytes]; exact List.mem_cons_self)
  have hne : ∀ other ∈ tagChars.map plainByte, byte ≠ other := by
    rintro other hother rfl
    exact hplain hother
  have hquote : ¬ (byte = 0x22 ∨ byte = 0x27) :=
    not_or.mpr ⟨hne 0x22 (by decide), hne 0x27 (by decide)⟩
  have hopening : byte ≠ 0x21 ∧ byte ≠ 0x2F ∧ byte ≠ 0x3F ∧ byte ≠ 0x3E :=
    ⟨hne 0x21 (by decide), hne 0x2F (by decide), hne 0x3F (by decide), hne 0x3E (by decide)⟩
  rw [content, text, encode_append, hbytes, List.cons_append, List.cons_append]
  simp only [lex, Lexer.step, Lexer.stepMarkup, Lexer.stepTag, Lexer.collect, hopening, hquote,
    if_false]

/-- **The lexer takes a tag as it is written for one token**, whatever its values are and whatever
follows. -/
theorem lex_writtenTag (hvalues : ∀ entry ∈ tag.entries, entry.quote ∉ entry.value)
    {lexer : Lexer} (hmode : lexer.mode = .markup) :
    ∃ next, ∀ rest, lex lexer (tag.content ++ (tag.ending ++ rest)) =
      (⟨lexer.start, lexer.offset + (tag.content ++ tag.ending).length, tag.event⟩ ::
        (lex next rest).1, (lex next rest).2) := by
  obtain ⟨offset, start, mode, opened⟩ := lexer
  obtain rfl : mode = .markup := hmode
  simp only [h.lex_markup, h.isCollected hvalues offset, List.append_nil]
  cases hempty : tag.empty with
  | true =>
    refine ⟨⟨offset + tag.content.length + 1 + 1, offset + tag.content.length + 1 + 1, .text [],
      opened⟩, fun rest => ?_⟩
    simp [WrittenTag.ending, WrittenTag.event, hempty, lex, Lexer.step, Lexer.stepTag,
      Lexer.collect, Lexer.completeTag, Lexer.complete, Nat.add_assoc]
  | false =>
    refine ⟨⟨offset + tag.content.length + 1, offset + tag.content.length + 1, .text [],
      tagName tag.content :: opened⟩, fun rest => ?_⟩
    have hcomplete : Lexer.completeTag ⟨offset + tag.content.length, start,
        .tag false none tag.content.reverse, opened⟩ false tag.content.reverse =
          Lexer.complete ⟨offset + tag.content.length, start,
            .tag false none tag.content.reverse, opened⟩ (.startTag tag.content)
              (tagName tag.content :: opened) := by
      unfold Lexer.completeTag
      rw [if_neg Bool.false_ne_true]
      split
      · rename_i rest heq
        exact absurd heq (h.reverse_content_ne rest)
      · simp only [List.reverse_reverse]
    simp [WrittenTag.ending, WrittenTag.event, hempty, lex, Lexer.step, Lexer.stepTag, hcomplete,
      Lexer.complete, Nat.add_assoc]

end Tag

/-! ## The reader of attributes -/

section Reader

variable {seen : List (List UInt8 × Nat)}

/-- Bytes that are all collected in the same mode are collected one after the other. -/
theorem attributesFrom_collect (mode : List UInt8 → AttributeMode) {bytes : List UInt8}
    (h : ∀ byte ∈ bytes, ∀ offset collected,
      (mode collected).step offset byte = .go (mode (byte :: collected)))
    (offset : Nat) (collected rest : List UInt8) :
    attributesFrom true seen (mode collected) offset (bytes ++ rest) =
      attributesFrom true seen (mode (bytes.reverse ++ collected)) (offset + bytes.length) rest := by
  induction bytes generalizing offset collected with
  | nil => rfl
  | cons byte bytes ih =>
    obtain ⟨hbyte, hrest⟩ := List.forall_mem_cons.mp h
    rw [List.cons_append, attributesFrom, hbyte]
    dsimp only
    rw [ih hrest, List.length_cons, List.reverse_cons, List.append_assoc, Nat.add_assoc,
      Nat.add_comm 1]
    rfl

/-- Blanks are passed over. -/
theorem attributesFrom_blanks {mode : AttributeMode}
    (hmode : ∀ byte offset, isSpace byte = true → mode.step offset byte = .go mode)
    {blanks : List UInt8} (h : ∀ byte ∈ blanks, isSpace byte = true) (offset : Nat)
    (rest : List UInt8) :
    attributesFrom true seen mode offset (blanks ++ rest) =
      attributesFrom true seen mode (offset + blanks.length) rest :=
  attributesFrom_collect (fun _ => mode) (fun byte hbyte offset _ => hmode byte offset (h byte hbyte))
    offset [] rest

theorem between_step_of_isSpace (byte : UInt8) (offset : Nat) (hbyte : isSpace byte = true) :
    AttributeMode.between.step offset byte = .go .between := by
  simp only [AttributeMode.step, if_pos hbyte]

theorem attributesFrom_key {key : List UInt8} (hne : key ≠ [])
    (h : ∀ byte ∈ key, byte ∉ tagChars.map plainByte) (offset : Nat) (rest : List UInt8) :
    attributesFrom true seen .between offset (key ++ rest) =
      attributesFrom true seen (.key offset key.reverse) (offset + key.length) rest := by
  obtain ⟨byte, key, rfl⟩ := List.exists_cons_of_ne_nil hne
  obtain ⟨hbyte, hrest⟩ := List.forall_mem_cons.mp h
  have hcollect : ∀ byte ∈ key, ∀ position collected,
      (AttributeMode.key offset collected).step position byte =
        .go (.key offset (byte :: collected)) := by
    intro other hother position collected
    have hequals : other ≠ 0x3D := by
      rintro rfl
      exact hrest _ hother (by decide)
    simp [AttributeMode.step, hequals, isSpace_eq_false (hrest other hother)]
  have hstep : AttributeMode.between.step offset byte = .go (.key offset [byte]) := by
    simp [AttributeMode.step, isSpace_eq_false hbyte]
  rw [List.cons_append, attributesFrom, hstep]
  dsimp only
  rw [attributesFrom_collect (.key offset) hcollect, List.length_cons, List.reverse_cons,
    Nat.add_assoc, Nat.add_comm 1]

/-- A new key ends with the equals sign, or with blanks before it. -/
theorem attributesFrom_equals {start : Nat} {collected blanks : List UInt8}
    (h : ∀ byte ∈ blanks, isSpace byte = true) (hnew : seen.lookup collected.reverse = none)
    (offset : Nat) (rest : List UInt8) :
    attributesFrom true seen (.key start collected) offset (blanks ++ 0x3D :: rest) =
      attributesFrom true ((collected.reverse, start) :: seen) (.beforeValue collected.reverse)
        (offset + blanks.length + 1) rest := by
  cases blanks with
  | nil => simp [attributesFrom, AttributeMode.step, hnew]
  | cons byte blanks =>
    obtain ⟨hbyte, hrest⟩ := List.forall_mem_cons.mp h
    have hequals : byte ≠ 0x3D := by
      rintro rfl
      cases hbyte
    have hstep : (AttributeMode.key start collected).step offset byte =
        .go (.afterKey start collected.reverse) := by
      simp [AttributeMode.step, hequals, hbyte]
    have hblanks : ∀ byte offset, isSpace byte = true →
        (AttributeMode.afterKey start collected.reverse).step offset byte =
          .go (.afterKey start collected.reverse) := by
      intro byte offset hbyte
      have hequals : byte ≠ 0x3D := by
        rintro rfl
        cases hbyte
      simp [AttributeMode.step, hequals, hbyte]
    rw [List.cons_append, attributesFrom, hstep]
    dsimp only
    rw [attributesFrom_blanks hblanks hrest]
    simp [attributesFrom, AttributeMode.step, hnew, Nat.add_assoc, Nat.add_comm 1]

/-- A value goes from its quote to the next. -/
theorem attributesFrom_value {name blanks value : List UInt8} {mark : UInt8}
    (h : ∀ byte ∈ blanks, isSpace byte = true) (hmark : isQuote mark = true)
    (hvalue : mark ∉ value) (offset : Nat) (rest : List UInt8) :
    ∃ item stop, item.key = name ∧ item.value = value ∧
      attributesFrom true seen (.beforeValue name) offset
          (blanks ++ mark :: (value ++ mark :: rest)) =
        (item :: (attributesFrom true seen .between stop rest).1,
          (attributesFrom true seen .between stop rest).2) := by
  have hquote : mark = 0x22 ∨ mark = 0x27 := by simpa [isQuote] using hmark
  have hblanks : ∀ byte offset, isSpace byte = true →
      (AttributeMode.beforeValue name).step offset byte = .go (.beforeValue name) := by
    intro byte offset hbyte
    have hnot : ¬ (byte = 0x22 ∨ byte = 0x27) := by
      simpa [isQuote] using isQuote_of_isSpace hbyte
    simp only [AttributeMode.step, if_neg hnot, if_pos hbyte]
  have hcollect : ∀ byte ∈ value, ∀ position collected,
      (AttributeMode.value name mark (offset + blanks.length + 1) collected).step position byte =
        .go (.value name mark (offset + blanks.length + 1) (byte :: collected)) := by
    intro byte hbyte position collected
    simp only [AttributeMode.step, if_neg (ne_of_mem_of_not_mem hbyte hvalue)]
  refine ⟨⟨name, value, offset + blanks.length + 1⟩, offset + blanks.length + 1 + value.length + 1,
    rfl, rfl, ?_⟩
  rw [attributesFrom_blanks hblanks h, attributesFrom]
  simp only [AttributeMode.step, if_pos hquote]
  rw [attributesFrom_collect (.value name mark _) hcollect]
  simp [attributesFrom, AttributeMode.step]

/-- The reader of attributes finds the key and the value that are written, if the key is new. -/
theorem WrittenAttribute.IsLaidOut.exists_attributesFrom {entry : WrittenAttribute}
    (h : entry.IsLaidOut) (hvalue : entry.quote ∉ entry.value)
    (hnew : seen.lookup (encode entry.key) = none) (offset : Nat) (rest : List UInt8) :
    ∃ item start stop, item.key = encode entry.key ∧ item.value = encode entry.value ∧
      attributesFrom true seen .between offset (encode entry.text ++ rest) =
        (item :: (attributesFrom true ((encode entry.key, start) :: seen) .between stop rest).1,
          (attributesFrom true ((encode entry.key, start) :: seen) .between stop rest).2) := by
  have hnewKey : seen.lookup (encode entry.key).reverse.reverse = none := by
    rwa [List.reverse_reverse]
  have htext : encode entry.text ++ rest = encode entry.blanks ++ (encode entry.key ++
      (encode entry.beforeEquals ++ 0x3D :: (encode entry.afterEquals ++ plainByte entry.quote ::
        (encode entry.value ++ plainByte entry.quote :: rest)))) := by
    simp [encode_text h]
  -- the key starts behind the blanks
  let start := offset + (encode entry.blanks).length
  obtain ⟨item, stop, hkey, hitem, hread⟩ :=
    @attributesFrom_value ((encode entry.key, start) :: seen) (encode entry.key) _ _ _
      (isSpace_of_mem_encode h.afterEquals) (isQuote_plainByte h.quote) (h.quote_notMem hvalue)
      (start + (encode entry.key).length + (encode entry.beforeEquals).length + 1) rest
  refine ⟨item, start, stop, hkey, hitem, ?_⟩
  rw [htext, attributesFrom_blanks between_step_of_isSpace (isSpace_of_mem_encode h.blanks),
    attributesFrom_key (encode_ne_nil h.key.ne_nil) h.key.notMem_of_mem_encode,
    attributesFrom_equals (isSpace_of_mem_encode h.beforeEquals) hnewKey, List.reverse_reverse]
  exact hread

end Reader

/-- What is read of attributes that are written one after another. -/
theorem exists_attributesFrom_entries {entries : List WrittenAttribute} {blanks : List Char}
    (hentries : ∀ entry ∈ entries, entry.IsLaidOut)
    (hvalues : ∀ entry ∈ entries, entry.quote ∉ entry.value)
    (hkeys : (entries.map WrittenAttribute.key).Nodup) (hblanks : ∀ c ∈ blanks, c ∈ blankChars)
    {seen : List (List UInt8 × Nat)}
    (hnew : ∀ entry ∈ entries, seen.lookup (encode entry.key) = none) (offset : Nat) :
    ∃ items,
      attributesFrom true seen .between offset
          (encode (entries.flatMap WrittenAttribute.text) ++ encode blanks) = (items, none) ∧
        items.map (fun item => (item.key, item.value)) =
          entries.map fun entry => (encode entry.key, encode entry.value) := by
  induction entries generalizing seen offset with
  | nil =>
    refine ⟨[], ?_, rfl⟩
    rw [List.flatMap_nil, encode_nil, List.nil_append, ← List.append_nil (encode blanks),
      attributesFrom_blanks between_step_of_isSpace (isSpace_of_mem_encode hblanks)]
    rfl
  | cons entry entries ih =>
    obtain ⟨hentry, hentries⟩ := List.forall_mem_cons.mp hentries
    obtain ⟨hvalue, hvalues⟩ := List.forall_mem_cons.mp hvalues
    obtain ⟨hfresh, hnew⟩ := List.forall_mem_cons.mp hnew
    rw [List.map_cons, List.nodup_cons] at hkeys
    obtain ⟨item, start, stop, hkey, hitem, hread⟩ :=
      hentry.exists_attributesFrom hvalue hfresh offset
        (encode (entries.flatMap WrittenAttribute.text) ++ encode blanks)
    have hstill : ∀ other ∈ entries,
        ((encode entry.key, start) :: seen).lookup (encode other.key) = none := by
      intro other hother
      have hne : encode other.key ≠ encode entry.key := by
        intro heq
        apply hkeys.1
        rw [← encode_injective heq]
        exact List.mem_map_of_mem hother
      rw [List.lookup_cons, beq_eq_false_iff_ne.mpr hne]
      exact hnew other hother
    obtain ⟨items, hothers, hitems⟩ := ih hentries hvalues hkeys.2 hstill stop
    refine ⟨item :: items, ?_, ?_⟩
    · rw [List.flatMap_cons, encode_append, List.append_assoc, hread, hothers]
    · rw [List.map_cons, List.map_cons, hitems, hkey, hitem]

section Tag

variable {tag : WrittenTag} (h : tag.IsLaidOut)

include h

theorem tagName_writtenTag : tagName tag.content = encode tag.name := by
  have hblank : ∀ {blanks : List Char} (rest : List Char), (∀ c ∈ blanks, c ∈ blankChars) →
      blanks ≠ [] → (encode (blanks ++ rest)).takeWhile (!isSpace ·) = [] := by
    intro blanks rest hblanks hne
    obtain ⟨byte, bytes, hbytes⟩ := List.exists_cons_of_ne_nil (encode_ne_nil hne)
    have hbyte := isSpace_of_mem_encode hblanks byte (by rw [hbytes]; exact List.mem_cons_self)
    rw [encode_append, hbytes, List.cons_append, List.takeWhile_cons, hbyte]
    rfl
  have hrest : (encode (tag.entries.flatMap WrittenAttribute.text ++ tag.blanks)).takeWhile
      (!isSpace ·) = [] := by
    cases hentries : tag.entries with
    | nil =>
      by_cases hne : tag.blanks = []
      · rw [hne]
        rfl
      · simpa using hblank [] h.blanks hne
    | cons entry entries =>
      have hentry := h.entries entry (by rw [hentries]; exact List.mem_cons_self)
      have hne := h.apart entry (by rw [hentries]; rfl)
      rw [List.flatMap_cons, WrittenAttribute.text, List.append_assoc, List.append_assoc]
      exact hblank _ hentry.blanks hne
  have hname : ∀ byte ∈ encode tag.name, (!isSpace byte) = true := by
    intro byte hbyte
    rw [isSpace_eq_false (h.name.notMem_of_mem_encode byte hbyte)]
    rfl
  rw [tagName, WrittenTag.content, WrittenTag.text, encode_append,
    List.takeWhile_append_of_pos hname, hrest, List.append_nil]

/-- **The reader of attributes finds the keys and the values that are written.** -/
theorem attributes_writtenTag (hvalues : ∀ entry ∈ tag.entries, entry.quote ∉ entry.value) :
    (attributes tag.content).1.map (fun item => (item.key, item.value)) =
        tag.entries.map (fun entry => (encode entry.key, encode entry.value)) ∧
      (attributes tag.content).2 = none := by
  have hcontent : tag.content = encode tag.name ++
      (encode (tag.entries.flatMap WrittenAttribute.text) ++ encode tag.blanks) := by
    simp [WrittenTag.content, WrittenTag.text, encode_append]
  have hnew : ∀ entry ∈ tag.entries,
      ([] : List (List UInt8 × Nat)).lookup (encode entry.key) = none := fun _ _ => rfl
  obtain ⟨items, hread, hitems⟩ := exists_attributesFrom_entries h.entries hvalues h.keys h.blanks
    hnew (encode tag.name).length
  have hattributes : attributes tag.content = (items, none) := by
    rw [attributes, tagName_writtenTag h, hcontent, List.drop_left, hread]
  rw [hattributes]
  exact ⟨hitems, rfl⟩

end Tag

/-! ## The characters -/

theorem WrittenAttribute.IsLaidOut.legal {entry : WrittenAttribute} (h : entry.IsLaidOut)
    (hvalue : entry.HasLegalValue) :
    ∀ c ∈ entry.text, IsLegalCode c.toNat ∧ c ≠ '<' := by
  have hquote : IsLegalCode entry.quote.toNat ∧ entry.quote ≠ '<' := by
    rcases h.quote with hquote | hquote <;> rw [hquote] <;> simp [IsLegalCode]
  have hequals : IsLegalCode '='.toNat ∧ '=' ≠ '<' := by simp [IsLegalCode]
  intro c hc
  simp only [text, List.mem_append, List.mem_cons, List.not_mem_nil, or_false] at hc
  rcases hc with hc | hc | hc | rfl | hc | rfl | hc | rfl
  · exact legal_of_blank (h.blanks c hc)
  · exact h.key.legal_ne c hc
  · exact legal_of_blank (h.beforeEquals c hc)
  · exact hequals
  · exact legal_of_blank (h.afterEquals c hc)
  · exact hquote
  · exact ⟨(hvalue.clean c hc).legal, (hvalue.clean c hc).ne_less⟩
  · exact hquote

/-- All of the tag is legal, and no other tag begins in it. -/
theorem WrittenTag.IsLaidOut.legal {tag : WrittenTag} (h : tag.IsLaidOut)
    (hvalues : ∀ entry ∈ tag.entries, entry.HasLegalValue) :
    ∀ c ∈ tag.text, IsLegalCode c.toNat ∧ c ≠ '<' := by
  intro c hc
  simp only [text, List.mem_append, List.mem_flatMap] at hc
  rcases hc with hc | ⟨entry, hentry, hc⟩ | hc
  · exact h.name.legal_ne c hc
  · exact (h.entries entry hentry).legal (hvalues entry hentry) c hc
  · exact legal_of_blank (h.blanks c hc)

end FormsAudit.Markup
