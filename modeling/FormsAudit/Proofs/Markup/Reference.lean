import FormsAudit.Markup.Reference
import FormsAudit.Proofs.Fallible
import FormsAudit.Proofs.Text.Numeral
import FormsAudit.Proofs.Text.Utf8

/-!
# What references stand for

A text with its references replaced is described by a grammar without the state of a reader
(`Expands`), and `expand` gives what the grammar says (`expand_eq_ok_iff`).

That there is such a text can be told from its ampersands, each on its own (`exists_expands_iff`):
every one begins a reference, and every reference stands for something.  What it stands for is then
a part of the expanded text (`Expands.exists_of_ampersand`), and besides there are only the
characters of the text (`Expands.mem`).  So a legal text is expanded to a legal text when its
references are legal (`exists_expand_legal_iff`).
-/

namespace FormsAudit.Markup

/-- The numbers of the characters that may stand in a document. -/
def IsLegalCode (n : Nat) : Prop :=
  n = 0x9 ∨ n = 0xA ∨ n = 0xD ∨ 0x20 ≤ n ∧ n ≤ 0xD7FF ∨ 0xE000 ≤ n ∧ n ≤ 0xFFFD ∨
    0x10000 ≤ n ∧ n ≤ 0x10FFFF

theorem isLegal_iff {c : Char} : isLegal c = true ↔ IsLegalCode c.toNat := by
  have hvalid : c.toNat < 0xD800 ∨ 0xDFFF < c.toNat ∧ c.toNat < 0x110000 := c.valid
  simp only [isLegal, IsLegalCode, Bool.or_eq_true, Bool.and_eq_true, decide_eq_true_eq,
    ← Char.toNat_inj, Char.reduceToNat]
  omega

/-! ## What one reference stands for -/

/-- Whether the number after `&#` is that code, in decimal or after `x` in hexadecimal. -/
def WritesCode (number : List Char) (code : Nat) : Prop :=
  Numeral.Writes 10 number code ∨ ∃ digits, number = 'x' :: digits ∧ Numeral.Writes 16 digits code

/-- The entities that need no declaration. -/
def predefined : List (List Char × Char) :=
  [(['l', 't'], '<'), (['g', 't'], '>'), (['a', 'm', 'p'], '&'), (['a', 'p', 'o', 's'], '\''),
    (['q', 'u', 'o', 't'], '"')]

/-- The text that the reference of a name stands for. -/
inductive StandsFor : List Char → List Char → Prop
  | number {number : List Char} {c : Char} (h : WritesCode number c.toNat) (hzero : c.toNat ≠ 0) :
    StandsFor ('#' :: number) [c]
  | predefined {name : List Char} {c : Char} (h : (name, c) ∈ predefined) : StandsFor name [c]
  /-- An entity that may be declared elsewhere. -/
  | declared {name : List Char} (h : isName name = true)
    (hother : ∀ c, (name, c) ∉ Markup.predefined) : StandsFor name []

/-- A number is read by its digits, in the radix that an `x` before them tells. -/
theorem writesCode_iff {number digits : List Char} {radix : Nat}
    (h : (match number with
      | 'x' :: digits => (16, digits)
      | digits => (10, digits)) = (radix, digits)) (code : Nat) :
    radix ≤ 16 ∧ 0 < radix ∧ (WritesCode number code ↔ Numeral.Writes radix digits code) := by
  split at h
  · rename_i digits
    obtain ⟨rfl, rfl⟩ := Prod.mk.inj h
    have hdecimal : ¬ Numeral.Writes 10 ('x' :: digits) code :=
      Numeral.not_writes_cons (by decide) rfl digits code
    exact ⟨by decide, by decide, by simp [WritesCode, hdecimal]⟩
  · rename_i hnumber
    obtain ⟨rfl, rfl⟩ := Prod.mk.inj h
    have hhexadecimal : ¬ ∃ digits, number = 'x' :: digits ∧ Numeral.Writes 16 digits code := by
      rintro ⟨digits, rfl, -⟩
      exact hnumber digits rfl
    exact ⟨by decide, by decide, by simp [WritesCode, hhexadecimal]⟩

theorem characterOfNumber_eq_ok_iff {number : List Char} {c : Char} :
    characterOfNumber number = .ok c ↔ WritesCode number c.toNat ∧ c.toNat ≠ 0 := by
  unfold characterOfNumber
  split
  rename_i radix digits heq
  obtain ⟨hradix, hpositive, hwrites⟩ := writesCode_iff heq c.toNat
  have hread : ∀ n, Numeral.readDigits radix UInt32.size digits = .ok n ↔
      n < UInt32.size ∧ Numeral.Writes radix digits n := fun n =>
    Numeral.readDigits_eq_ok_iff hradix hpositive (by decide)
  have hsize : c.toNat < UInt32.size := c.val.toNat_lt
  rw [hwrites]
  split
  -- a sign is no digit
  · rename_i rest
    have hsign := Numeral.not_writes_cons hradix (c := '+') rfl rest c.toNat
    simp [hsign]
  · rename_i rest
    have hsign := Numeral.not_writes_cons hradix (c := '-') rfl rest c.toNat
    simp [hsign]
  · have hcode : Numeral.Writes radix digits c.toNat ↔
        Numeral.readDigits radix UInt32.size digits = .ok c.toNat := by
      rw [hread]
      exact (and_iff_right hsize).symm
    rw [hcode]
    cases hresult : Numeral.readDigits radix UInt32.size digits with
    | error fault => simp
    | ok n =>
      rw [Except.ok.injEq]
      cases n with
      | zero => simp [eq_comm]
      | succ m =>
        by_cases hvalid : (m + 1).isValidChar
        · have hn : (Char.ofNat (m + 1)).toNat = m + 1 := Utf8.toNat_ofNat hvalid
          simp only [hvalid, if_true, Except.ok.injEq, ← Char.toNat_inj, hn]
          omega
        · have hcode : m + 1 ≠ c.toNat := by
            rintro heq
            exact hvalid (heq ▸ c.valid)
          simp [hvalid, hcode]

theorem entity?_eq_some_iff {name text : List Char} :
    entity? name = some text ↔
      (∃ c, (name, c) ∈ predefined ∧ [c] = text) ∨
        (isName name = true ∧ ∀ c, (name, c) ∉ predefined) ∧ [] = text := by
  unfold entity?
  split_ifs with hlt hgt hamp hapos hquot hname
  case pos | pos | pos | pos | pos => subst name; simp [predefined]
  case pos => simp [predefined, *]
  case neg => simp [predefined, *]

theorem standsFor_number_iff {number text : List Char} :
    StandsFor ('#' :: number) text ↔
      ∃ c, text = [c] ∧ WritesCode number c.toNat ∧ c.toNat ≠ 0 := by
  constructor
  · intro h
    cases h with
    | number hwrites hzero => exact ⟨_, rfl, hwrites, hzero⟩
    | predefined h => simp [predefined] at h
    | declared h =>
      have hsharp : Unicode.isAlphabetic '#' = false := by decide +kernel
      simp [isName, hsharp] at h
  · rintro ⟨c, rfl, hwrites, hzero⟩
    exact .number hwrites hzero

theorem resolveReference_eq_ok_iff {before name text : List Char} :
    resolveReference before name = .ok text ↔ StandsFor name text := by
  unfold resolveReference
  split
  · rename_i number
    rw [standsFor_number_iff]
    simp only [← characterOfNumber_eq_ok_iff]
    cases characterOfNumber number <;> simp [eq_comm]
  · rename_i hnumber
    have hentity : entity? name = some text ↔ StandsFor name text := by
      rw [entity?_eq_some_iff]
      constructor
      · rintro (⟨c, hpredefined, rfl⟩ | ⟨⟨hname, hother⟩, rfl⟩)
        · exact .predefined hpredefined
        · exact .declared hname hother
      · intro h
        cases h with
        | number => exact absurd rfl (hnumber _)
        | predefined h => exact .inl ⟨_, h, rfl⟩
        | declared h hother => exact .inr ⟨⟨h, hother⟩, rfl⟩
    rw [← hentity]
    cases entity? name <;> simp

theorem StandsFor.unique {name text other : List Char} (h : StandsFor name text)
    (h' : StandsFor name other) : text = other := by
  have hresolve : resolveReference [] name = .ok text := resolveReference_eq_ok_iff.mpr h
  rw [resolveReference_eq_ok_iff.mpr h'] at hresolve
  exact (Except.ok.inj hresolve).symm

/-! ## A text with its references replaced -/

/-- Whether a reference can have the name: it lies between an ampersand and the next semicolon. -/
def IsEnclosed (name : List Char) : Prop := '&' ∉ name ∧ ';' ∉ name

/-- The text that is made of another when its references are replaced. -/
inductive Expands : List Char → List Char → Prop
  | nil : Expands [] []
  | character {c : Char} {text expanded : List Char} (hc : c ≠ '&') (h : Expands text expanded) :
    Expands (c :: text) (c :: expanded)
  | reference {name value text expanded : List Char} (hname : IsEnclosed name)
    (hvalue : StandsFor name value) (h : Expands text expanded) :
    Expands ('&' :: (name ++ ';' :: text)) (value ++ expanded)

theorem Expands.append {text expanded other last : List Char} (h : Expands text expanded)
    (h' : Expands other last) : Expands (text ++ other) (expanded ++ last) := by
  induction h with
  | nil => exact h'
  | character hc _ ih => exact .character hc ih
  | reference hname hvalue _ ih => simpa using Expands.reference hname hvalue ih

/-- The text that is made of one that begins inside of a reference, after a part of its name. -/
def ExpandsInside (part text expanded : List Char) : Prop :=
  ∃ others value rest last, text = others ++ ';' :: rest ∧ IsEnclosed others ∧
    StandsFor (part ++ others) value ∧ Expands rest last ∧ expanded = value ++ last

section Cons

variable {c : Char} {part text expanded : List Char}

theorem expands_ampersand_iff :
    Expands ('&' :: text) expanded ↔ ExpandsInside [] text expanded := by
  constructor
  · intro h
    cases h with
    | character hc => exact absurd rfl hc
    | reference hname hvalue h => exact ⟨_, _, _, _, rfl, hname, hvalue, h, rfl⟩
  · rintro ⟨name, value, rest, last, rfl, hname, hvalue, h, rfl⟩
    exact .reference hname hvalue h

theorem expands_cons_iff (hc : c ≠ '&') :
    Expands (c :: text) expanded ↔ ∃ last, Expands text last ∧ expanded = c :: last := by
  constructor
  · intro h
    cases h with
    | character _ h => exact ⟨_, h, rfl⟩
    | reference => exact absurd rfl hc
  · rintro ⟨last, h, rfl⟩
    exact .character hc h

theorem expandsInside_semicolon_iff :
    ExpandsInside part (';' :: text) expanded ↔
      ∃ value last, StandsFor part value ∧ Expands text last ∧ expanded = value ++ last := by
  constructor
  · rintro ⟨others, value, rest, last, htext, hname, hvalue, h, rfl⟩
    cases others with
    | nil =>
      obtain ⟨-, rfl⟩ := List.cons.inj htext
      exact ⟨value, last, by simpa using hvalue, h, rfl⟩
    | cons first others =>
      obtain ⟨rfl, -⟩ := List.cons.inj htext
      exact absurd List.mem_cons_self hname.2
  · rintro ⟨value, last, hvalue, h, rfl⟩
    exact ⟨[], value, text, last, rfl, by simp [IsEnclosed], by simpa using hvalue, h, rfl⟩

theorem expandsInside_cons_iff (hc : c ≠ ';') :
    ExpandsInside part (c :: text) expanded ↔
      c ≠ '&' ∧ ExpandsInside (part ++ [c]) text expanded := by
  constructor
  · rintro ⟨others, value, rest, last, htext, hname, hvalue, h, rfl⟩
    cases others with
    | nil => exact absurd (List.cons.inj htext).1 hc
    | cons first others =>
      obtain ⟨rfl, rfl⟩ := List.cons.inj htext
      simp only [IsEnclosed, List.mem_cons, not_or] at hname
      refine ⟨Ne.symm hname.1.1, others, value, rest, last, rfl, ⟨hname.1.2, hname.2.2⟩, ?_, h, rfl⟩
      rwa [List.append_assoc]
  · rintro ⟨hampersand, others, value, rest, last, rfl, hname, hvalue, h, rfl⟩
    refine ⟨c :: others, value, rest, last, rfl, ?_, ?_, h, rfl⟩
    · simp only [IsEnclosed, List.mem_cons, not_or]
      exact ⟨⟨hampersand.symm, hname.1⟩, hc.symm, hname.2⟩
    · rwa [List.append_assoc] at hvalue

end Cons

/-- The reader expands a text by the grammar, also from inside of a reference on. -/
theorem expandFrom_eq_ok_iff {before text expanded : List Char} :
    (expandFrom before none text = .ok expanded ↔ Expands text expanded) ∧
      ∀ outside name, expandFrom before (some (outside, name)) text = .ok expanded ↔
        ExpandsInside name.reverse text expanded := by
  induction text generalizing before expanded with
  | nil =>
    constructor
    · rw [expandFrom, Except.ok.injEq]
      constructor
      · rintro rfl
        exact .nil
      · rintro ⟨⟩
        rfl
    · intro outside name
      simp [expandFrom, ExpandsInside]
  | cons c text ih =>
    constructor
    · rw [expandFrom]
      split
      · rename_i hc
        rw [hc, expands_ampersand_iff]
        exact ih.2 before []
      · rename_i hc
        rw [expands_cons_iff hc, map_eq_ok_iff]
        exact exists_congr fun last => and_congr_left fun _ => ih.1
    · intro outside name
      rw [expandFrom]
      split
      · rename_i hc
        simp only [hc, expandsInside_semicolon_iff]
        constructor
        · intro h
          split at h
          · rename_i value hvalue
            obtain ⟨last, hlast, rfl⟩ := map_eq_ok_iff.mp h
            exact ⟨value, last, resolveReference_eq_ok_iff.mp hvalue, ih.1.mp hlast, rfl⟩
          · cases h
        · rintro ⟨value, last, hvalue, h, rfl⟩
          rw [resolveReference_eq_ok_iff.mpr hvalue]
          exact map_eq_ok_iff.mpr ⟨last, ih.1.mpr h, rfl⟩
      · rename_i hc
        rw [expandsInside_cons_iff hc]
        split
        · rename_i hampersand
          simp [hampersand]
        · rename_i hampersand
          rw [ih.2, List.reverse_cons]
          exact (and_iff_right hampersand).symm

/-- **A text is expanded by the grammar of references.** -/
theorem expand_eq_ok_iff {text expanded : List Char} :
    expand text = .ok expanded ↔ Expands text expanded :=
  expandFrom_eq_ok_iff.1

/-! ## Each reference on its own -/

/-- Whether a reference of that name stands in the text. -/
def HasReference (text name : List Char) : Prop :=
  IsEnclosed name ∧ '&' :: (name ++ [';']) <:+: text

/-- Every ampersand of the text begins a reference. -/
def ReferencesClosed (text : List Char) : Prop :=
  ∀ before after, text = before ++ '&' :: after → ∃ name, IsEnclosed name ∧ name ++ [';'] <+: after

theorem HasReference.of_infix {text other name : List Char} (h : HasReference text name)
    (hpart : text <:+: other) : HasReference other name :=
  ⟨h.1, h.2.trans hpart⟩

theorem ReferencesClosed.of_suffix {text other : List Char} (h : ReferencesClosed other)
    (hsuffix : text <:+ other) : ReferencesClosed text := by
  obtain ⟨front, rfl⟩ := hsuffix
  rintro before after rfl
  exact h (front ++ before) after (List.append_assoc ..).symm

/-- An ampersand lies behind what has none. -/
theorem exists_of_append_eq {front text before after : List Char} (hfront : '&' ∉ front)
    (h : front ++ text = before ++ '&' :: after) : ∃ between, text = between ++ '&' :: after := by
  rcases List.append_eq_append_iff.mp h with ⟨between, -, htext⟩ | ⟨between, rfl, hafter⟩
  · exact ⟨between, htext⟩
  · cases between with
    | nil => exact ⟨[], hafter.symm⟩
    | cons first between =>
      obtain ⟨rfl, -⟩ := List.cons.inj hafter
      simp at hfront

/-- At every ampersand of a text there is a reference, and what it stands for is a part of the
expanded text. -/
theorem Expands.exists_of_ampersand {text expanded : List Char} (h : Expands text expanded)
    {before after : List Char} (htext : text = before ++ '&' :: after) :
    ∃ name value rest, after = name ++ ';' :: rest ∧ IsEnclosed name ∧ StandsFor name value ∧
      value <:+: expanded := by
  induction h generalizing before with
  | nil => simp at htext
  | @character c text expanded hc h ih =>
    have hfront : '&' ∉ [c] := by simpa using Ne.symm hc
    obtain ⟨between, hbetween⟩ := exists_of_append_eq hfront htext
    obtain ⟨name, value, rest, hafter, hname, hvalue, hpart⟩ := ih hbetween
    exact ⟨name, value, rest, hafter, hname, hvalue, hpart.trans (List.suffix_cons ..).isInfix⟩
  | @reference name value text expanded hname hvalue h ih =>
    cases before with
    | nil =>
      obtain ⟨-, rfl⟩ := List.cons.inj htext
      exact ⟨name, value, text, rfl, hname, hvalue, (List.prefix_append ..).isInfix⟩
    | cons first before =>
      obtain ⟨-, hbody⟩ := List.cons.inj htext
      have hfront : '&' ∉ name ++ [';'] := by simpa using hname.1
      obtain ⟨between, hbetween⟩ := exists_of_append_eq hfront (by simpa using hbody)
      obtain ⟨name, value, rest, hafter, hname, hvalue, hpart⟩ := ih hbetween
      exact ⟨name, value, rest, hafter, hname, hvalue, hpart.trans (List.suffix_append ..).isInfix⟩

/-- A reference ends with the first semicolon. -/
theorem IsEnclosed.unique {name other rest last : List Char} (h : IsEnclosed name)
    (h' : IsEnclosed other) (heq : name ++ ';' :: rest = other ++ ';' :: last) : name = other := by
  have htake : ∀ (name rest : List Char), IsEnclosed name →
      (name ++ ';' :: rest).takeWhile (· ≠ ';') = name := by
    intro name rest hname
    rw [List.takeWhile_append_of_pos]
    · simp
    · intro c hc
      have hne : c ≠ ';' := ne_of_mem_of_not_mem hc hname.2
      simpa using hne
  rw [← htake name rest h, heq, htake other last h']

theorem Expands.exists_of_hasReference {text expanded name : List Char} (h : Expands text expanded)
    (hname : HasReference text name) : ∃ value, StandsFor name value ∧ value <:+: expanded := by
  obtain ⟨hname, before, after, rfl⟩ := hname
  have htext : before ++ '&' :: (name ++ [';']) ++ after =
      before ++ '&' :: (name ++ ';' :: after) := by
    simp
  obtain ⟨other, value, rest, hother, henclosed, hvalue, hpart⟩ := h.exists_of_ampersand htext
  obtain rfl := hname.unique henclosed hother
  exact ⟨value, hvalue, hpart⟩

/-- **A text can be expanded when every ampersand begins a reference and every reference stands for
something.** -/
theorem exists_expands_iff {text : List Char} :
    (∃ expanded, Expands text expanded) ↔
      ReferencesClosed text ∧ ∀ name, HasReference text name → ∃ value, StandsFor name value := by
  constructor
  · rintro ⟨expanded, h⟩
    constructor
    · intro before after htext
      obtain ⟨name, -, rest, rfl, hname, -, -⟩ := h.exists_of_ampersand htext
      exact ⟨name, hname, rest, by simp⟩
    · intro name hname
      obtain ⟨value, hvalue, -⟩ := h.exists_of_hasReference hname
      exact ⟨value, hvalue⟩
  · rintro ⟨hclosed, hstands⟩
    -- by the length, since a reference is passed over at once
    induction hlength : text.length using Nat.strong_induction_on generalizing text with
    | _ length ih =>
      have hrest : ∀ rest, rest <:+ text → rest.length < length →
          ∃ expanded, Expands rest expanded := by
        intro rest hsuffix hlt
        refine ih _ hlt (hclosed.of_suffix hsuffix) (fun name hname => ?_) rfl
        exact hstands name (hname.of_infix hsuffix.isInfix)
      cases text with
      | nil => exact ⟨[], .nil⟩
      | cons c text =>
        rw [List.length_cons] at hlength
        by_cases hc : c = '&'
        · subst hc
          obtain ⟨name, hname, rest, rfl⟩ := hclosed [] text rfl
          simp only [List.append_assoc, List.singleton_append] at hlength hstands hrest ⊢
          obtain ⟨value, hvalue⟩ := hstands name ⟨hname, [], rest, by simp⟩
          obtain ⟨expanded, h⟩ := hrest rest ⟨'&' :: (name ++ [';']), by simp⟩ (by simp at *; omega)
          exact ⟨value ++ expanded, .reference hname hvalue h⟩
        · obtain ⟨expanded, h⟩ := hrest text (List.suffix_cons c text) (by omega)
          exact ⟨c :: expanded, .character hc h⟩

/-- A character of the expanded text stands in the text, or one of its references stands for it. -/
theorem Expands.mem {text expanded : List Char} (h : Expands text expanded) {c : Char}
    (hc : c ∈ expanded) :
    c ∈ text ∨ ∃ name value, HasReference text name ∧ StandsFor name value ∧ c ∈ value := by
  induction h with
  | nil => cases hc
  | @character first text expanded hfirst h ih =>
    rcases List.mem_cons.mp hc with rfl | hc
    · exact .inl List.mem_cons_self
    · rcases ih hc with hc | ⟨name, value, hname, hvalue, hc⟩
      · exact .inl (List.mem_cons_of_mem first hc)
      · exact .inr ⟨name, value, hname.of_infix (List.suffix_cons ..).isInfix, hvalue, hc⟩
  | @reference name value text expanded hname hvalue h ih =>
    have hsuffix : text <:+ '&' :: (name ++ ';' :: text) := ⟨'&' :: (name ++ [';']), by simp⟩
    rcases List.mem_append.mp hc with hc | hc
    · exact .inr ⟨name, value, ⟨hname, [], text, by simp⟩, hvalue, hc⟩
    · rcases ih hc with hc | ⟨name, value, hname, hvalue, hc⟩
      · exact .inl (hsuffix.subset hc)
      · exact .inr ⟨name, value, hname.of_infix hsuffix.isInfix, hvalue, hc⟩

/-! ## References among legal characters -/

/-- The references of a text are closed, and none is to what may not stand in a document. -/
structure ReferencesLegal (text : List Char) : Prop where
  closed : ReferencesClosed text
  numbers : ∀ number, HasReference text ('#' :: number) →
    ∃ code, WritesCode number code ∧ IsLegalCode code
  /-- The entity is predefined or may be declared elsewhere. -/
  names : ∀ name, HasReference text name → name.head? ≠ some '#' →
    (∃ c, (name, c) ∈ predefined) ∨ isName name = true

theorem IsLegalCode.isValidChar {code : Nat} (h : IsLegalCode code) : code.isValidChar := by
  simp only [Nat.isValidChar, IsLegalCode] at h ⊢
  omega

theorem standsFor_ofNat {number : List Char} {code : Nat} (hwrites : WritesCode number code)
    (hlegal : IsLegalCode code) : StandsFor ('#' :: number) [Char.ofNat code] := by
  have hcode : (Char.ofNat code).toNat = code := Utf8.toNat_ofNat hlegal.isValidChar
  rw [standsFor_number_iff]
  refine ⟨_, rfl, by rwa [hcode], ?_⟩
  rw [hcode]
  unfold IsLegalCode at hlegal
  omega

theorem isLegal_of_predefined {name : List Char} {c : Char} (h : (name, c) ∈ predefined) :
    isLegal c = true := by
  have hall : ∀ entity ∈ predefined, isLegal entity.2 = true := by decide
  exact hall _ h

theorem isName_of_predefined {name : List Char} {c : Char} (h : (name, c) ∈ predefined) :
    isName name = true := by
  have hall : ∀ entity ∈ predefined, isName entity.1 = true := by decide +kernel
  exact hall _ h

/-- An entity that is predefined or may be declared elsewhere stands for legal characters. -/
theorem exists_standsFor {name : List Char}
    (h : (∃ c, (name, c) ∈ predefined) ∨ isName name = true) :
    ∃ value, StandsFor name value ∧ ∀ c ∈ value, isLegal c = true := by
  by_cases hpredefined : ∃ c, (name, c) ∈ predefined
  · obtain ⟨c, hc⟩ := hpredefined
    exact ⟨[c], .predefined hc, by simpa using isLegal_of_predefined hc⟩
  · exact ⟨[], .declared (h.resolve_left hpredefined) (not_exists.mp hpredefined), by simp⟩

/-- **A legal text can be expanded to a legal text exactly when its references are legal.** -/
theorem exists_expand_legal_iff {text : List Char} (hlegal : ∀ c ∈ text, isLegal c = true) :
    (∃ expanded, expand text = .ok expanded ∧ ∀ c ∈ expanded, isLegal c = true) ↔
      ReferencesLegal text := by
  simp only [expand_eq_ok_iff]
  constructor
  · rintro ⟨expanded, h, hexpanded⟩
    refine ⟨(exists_expands_iff.mp ⟨expanded, h⟩).1, ?_, ?_⟩
    · intro number hnumber
      obtain ⟨value, hvalue, hpart⟩ := h.exists_of_hasReference hnumber
      obtain ⟨c, rfl, hwrites, -⟩ := standsFor_number_iff.mp hvalue
      have hc : isLegal c = true := hexpanded c (hpart.subset List.mem_cons_self)
      exact ⟨c.toNat, hwrites, isLegal_iff.mp hc⟩
    · intro name hname hsharp
      obtain ⟨value, hvalue, -⟩ := h.exists_of_hasReference hname
      cases hvalue with
      | number => exact absurd rfl hsharp
      | predefined h => exact .inl ⟨_, h⟩
      | declared h => exact .inr h
  · rintro ⟨hclosed, hnumbers, hnames⟩
    have hstands : ∀ name, HasReference text name → ∃ value, StandsFor name value := by
      intro name hname
      by_cases hsharp : name.head? = some '#'
      · obtain ⟨number, rfl⟩ := List.head?_eq_some_iff.mp hsharp
        obtain ⟨code, hwrites, hcode⟩ := hnumbers number hname
        exact ⟨_, standsFor_ofNat hwrites hcode⟩
      · obtain ⟨value, hvalue, -⟩ := exists_standsFor (hnames name hname hsharp)
        exact ⟨value, hvalue⟩
    obtain ⟨expanded, h⟩ := exists_expands_iff.mpr ⟨hclosed, hstands⟩
    refine ⟨expanded, h, ?_⟩
    intro c hc
    rcases h.mem hc with hc | ⟨name, value, hname, hvalue, hc⟩
    · exact hlegal c hc
    · cases hvalue with
      | @number number found hwrites hzero =>
        obtain ⟨code, hcode, hlegalCode⟩ := hnumbers number hname
        have hsame := (StandsFor.number hwrites hzero).unique (standsFor_ofNat hcode hlegalCode)
        rw [hsame, List.mem_singleton] at hc
        rw [hc, isLegal_iff, Utf8.toNat_ofNat hlegalCode.isValidChar]
        exact hlegalCode
      | predefined h =>
        rw [List.mem_singleton.mp hc]
        exact isLegal_of_predefined h
      | declared => cases hc

end FormsAudit.Markup
