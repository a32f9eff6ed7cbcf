import FormsAudit.Proofs.Markup.Reference

/-!
# Where references go wrong

A reference may lack its end, have a name that is none, or a number that is no character's or that
of a character which may not stand in a document.  `HasDefect` says so of the text after the
ampersand, without a reader.

The reader of references gets past whatever can be expanded (`expandFrom_append`) and stops at the
first defect.  What its fault says of the text before is not always the text before the ampersand:
for a name it includes the ampersand, and for a number there is nothing (`exists_expand_eq_error`).
In any case it is a beginning of the text (`before_of_expand`).  A name that it gives stands in a
reference of the text (`hasReference_of_expand`).
-/

namespace FormsAudit.Markup

/-- How a reference may be malformed. -/
inductive ReferenceDefect where
  /-- No `;` comes before the next `&` or the end. -/
  | unterminated
  /-- What stands before the `;` is no name. -/
  | misnamed
  /-- What stands between `&#` and `;` is not the number of a character. -/
  | misnumbered
  /-- The number is that of a character that may not stand in a document. -/
  | illegal
  deriving DecidableEq, Repr

/-- What follows the ampersand of a reference with the defect. -/
inductive HasDefect : ReferenceDefect → List Char → Prop
  | unterminated {name rest : List Char} (hname : IsEnclosed name)
    (hrest : rest = [] ∨ rest.head? = some '&') : HasDefect .unterminated (name ++ rest)
  | misnamed {name : List Char} (rest : List Char) (hname : IsEnclosed name)
    (hsharp : name.head? ≠ some '#') (hnone : isName name = false) :
    HasDefect .misnamed (name ++ ';' :: rest)
  | misnumbered {number : List Char} (rest : List Char) (hnumber : IsEnclosed number)
    (hnone : ∀ c : Char, WritesCode number c.toNat → c.toNat = 0) :
    HasDefect .misnumbered ('#' :: (number ++ ';' :: rest))
  | illegal {number : List Char} {c : Char} (rest : List Char) (hnumber : IsEnclosed number)
    (hwrites : WritesCode number c.toNat) (hzero : c.toNat ≠ 0)
    (hillegal : ¬ IsLegalCode c.toNat) : HasDefect .illegal ('#' :: (number ++ ';' :: rest))

/-! ## What a fault says of the text before -/

/-- What goes before a reference that is none, where the fault says so. -/
def ReferenceFault.before? : ReferenceFault → Option (List Char)
  | .unterminated before _ | .unrecognized before _ => some before
  | .character _ => none

theorem before_of_resolveReference {before name : List Char} {fault : ReferenceFault}
    (h : resolveReference before name = .error fault) :
    ∀ outside, fault.before? = some outside → outside = before ++ ['&'] := by
  unfold resolveReference at h
  split at h <;> split at h <;> cases h <;> simp [ReferenceFault.before?]

/-- What goes before the fault is a beginning of what has been read and is still to be read.  Inside
of a reference, what had gone before its `&` and that have been read. -/
theorem before_of_expandFrom {before : List Char} {opened : Option (List Char × List Char)}
    {text : List Char} {fault : ReferenceFault}
    (hopened : ∀ outside name, opened = some (outside, name) →
      outside.reverse ++ ['&'] <+: before.reverse)
    (h : expandFrom before opened text = .error fault) :
    ∀ outside, fault.before? = some outside → outside <+: before.reverse ++ text := by
  induction text generalizing before opened with
  | nil =>
    unfold expandFrom at h
    split at h
    · cases h
    · rename_i outside name
      cases h
      rintro _ ⟨⟩
      rw [List.append_nil]
      exact (List.prefix_append _ _).trans (hopened outside name rfl)
  | cons c rest ih =>
    have hmoved : before.reverse ++ c :: rest = (c :: before).reverse ++ rest := by simp
    have hgrown : before.reverse <+: (c :: before).reverse := by simp
    have hread : before.reverse <+: before.reverse ++ c :: rest := List.prefix_append _ _
    unfold expandFrom at h
    split at h
    · rw [hmoved]
      split at h
      · rename_i hamp
        refine ih ?_ h
        rintro _ _ ⟨⟩
        simp [hamp]
      · exact ih (by simp) (map_eq_error_iff.mp h)
    · rename_i outside name
      have hbefore := hopened outside name rfl
      split at h
      · split at h
        · rw [hmoved]
          exact ih (by simp) (map_eq_error_iff.mp h)
        · rename_i hfault
          cases h
          intro other hother
          rw [before_of_resolveReference hfault other hother]
          exact hbefore.trans hread
      · split at h
        · cases h
          rintro _ ⟨⟩
          exact (List.prefix_append _ _).trans (hbefore.trans hread)
        · rw [hmoved]
          refine ih ?_ h
          rintro _ _ ⟨⟩
          exact hbefore.trans hgrown

theorem before_of_expand {text : List Char} {fault : ReferenceFault}
    (h : expand text = .error fault) :
    ∀ outside, fault.before? = some outside → outside <+: text :=
  before_of_expandFrom (by simp) h

/-! ## The name that is none -/

theorem isName_of_resolveReference {before outside name found : List Char}
    (h : resolveReference before name = .error (.unrecognized outside found)) :
    found = name ∧ isName name = false := by
  unfold resolveReference at h
  split at h
  · split at h <;> cases h
  · split at h
    · cases h
    · rename_i hnone
      cases h
      refine ⟨rfl, ?_⟩
      unfold entity? at hnone
      split_ifs at hnone with hlt hgt hamp hapos hquot hname
      exact Bool.eq_false_iff.mpr hname

/-- A name that is refused stands in a reference of what is still to be read, or of what begins
before with the reference that is open. -/
theorem hasReference_of_expandFrom {before outside name : List Char}
    {opened : Option (List Char × List Char)} {text : List Char}
    (hopened : ∀ outside part, opened = some (outside, part) → IsEnclosed part)
    (h : expandFrom before opened text = .error (.unrecognized outside name)) :
    HasReference ((opened.elim [] fun part => '&' :: part.2.reverse) ++ text) name ∧
      isName name = false := by
  induction text generalizing before opened with
  | nil => cases opened <;> cases h
  | cons c rest ih =>
    unfold expandFrom at h
    split at h
    · split at h
      · rename_i hampersand
        have hpart : IsEnclosed [] := by simp [IsEnclosed]
        rw [hampersand]
        exact ih (by rintro _ _ ⟨⟩; exact hpart) h
      · obtain ⟨hreference, hname⟩ := ih (by simp) (map_eq_error_iff.mp h)
        exact ⟨hreference.of_infix (List.suffix_cons c rest).isInfix, hname⟩
    · rename_i front part
      have hpart : IsEnclosed part := hopened front part rfl
      split at h
      · rename_i hsemicolon
        split at h
        · obtain ⟨hreference, hname⟩ := ih (by simp) (map_eq_error_iff.mp h)
          have hrest : rest <:+ c :: rest := List.suffix_cons c rest
          exact ⟨hreference.of_infix (hrest.trans (List.suffix_append _ _)).isInfix, hname⟩
        · -- the semicolon ends the reference of this name
          rename_i fault hfault
          cases h
          obtain ⟨rfl, hname⟩ := isName_of_resolveReference hfault
          refine ⟨⟨by simpa [IsEnclosed] using hpart, ?_⟩, hname⟩
          rw [hsemicolon]
          exact List.IsPrefix.isInfix ⟨rest, by simp⟩
      · split at h
        · cases h
        · rename_i hsemicolon hampersand
          have hlonger : IsEnclosed (c :: part) := by
            simp only [IsEnclosed, List.mem_cons, not_or]
            exact ⟨⟨Ne.symm hampersand, hpart.1⟩, Ne.symm hsemicolon, hpart.2⟩
          obtain ⟨hreference, hname⟩ := ih (by rintro _ _ ⟨⟩; exact hlonger) h
          exact ⟨by simpa using hreference, hname⟩

/-- The name for which a text is refused stands in a reference of the text. -/
theorem hasReference_of_expand {text outside name : List Char}
    (h : expand text = .error (.unrecognized outside name)) :
    HasReference text name ∧ isName name = false :=
  hasReference_of_expandFrom (by simp) h

/-! ## Up to the defect -/

variable {before outside part name text expanded : List Char}

theorem map_id_except {ε α : Type} (result : Except ε (List α)) :
    result.map ([] ++ ·) = result := by
  cases result <;> rfl

theorem map_map_except {ε α : Type} (first second : List α) (result : Except ε (List α)) :
    (result.map (second ++ ·)).map (first ++ ·) = result.map (first ++ second ++ ·) := by
  cases result <;> simp [Except.map]

/-- The name of a reference is collected. -/
theorem expandFrom_name (hname : IsEnclosed name) (rest : List Char) :
    expandFrom before (some (outside, part)) (name ++ rest) =
      expandFrom (name.reverse ++ before) (some (outside, name.reverse ++ part)) rest := by
  induction name generalizing before part with
  | nil => rfl
  | cons c name ih =>
    simp only [IsEnclosed, List.mem_cons, not_or] at hname
    rw [List.cons_append, expandFrom]
    simp only [if_neg (Ne.symm hname.1.1), if_neg (Ne.symm hname.2.1)]
    rw [ih ⟨hname.1.2, hname.2.2⟩]
    simp

/-- What can be expanded is, and the reader goes on behind it. -/
theorem expandFrom_append (h : Expands text expanded) (rest : List Char) :
    expandFrom before none (text ++ rest) =
      (expandFrom (text.reverse ++ before) none rest).map (expanded ++ ·) := by
  induction h generalizing before with
  | nil => exact (map_id_except _).symm
  | @character c text expanded hc h ih =>
    rw [List.cons_append, expandFrom]
    simp only [if_neg hc]
    rw [ih]
    simpa using map_map_except [c] expanded (expandFrom (text.reverse ++ c :: before) none rest)
  | @reference name value text expanded hname hvalue h ih =>
    have hresolve : resolveReference before.reverse name = .ok value :=
      resolveReference_eq_ok_iff.mpr hvalue
    calc expandFrom before none ('&' :: (name ++ ';' :: text) ++ rest)
      _ = expandFrom ('&' :: before) (some (before, [])) (name ++ (';' :: text ++ rest)) := by
        simp [expandFrom]
      _ = expandFrom (name.reverse ++ '&' :: before) (some (before, name.reverse))
            (';' :: (text ++ rest)) := by
        rw [expandFrom_name hname, List.append_nil, List.cons_append]
      _ = (expandFrom (';' :: (name.reverse ++ '&' :: before)) none (text ++ rest)).map
            (value ++ ·) := by
        simp [expandFrom, hresolve]
      _ = _ := by
        rw [ih, map_map_except]
        simp

theorem resolveReference_of_misnamed (hsharp : name.head? ≠ some '#') (hnone : isName name = false) :
    resolveReference outside name = .error (.unrecognized (outside ++ ['&']) name) := by
  have hentity : entity? name = none := by
    cases hfound : entity? name with
    | none => rfl
    | some value =>
      rcases entity?_eq_some_iff.mp hfound with ⟨c, hpredefined, -⟩ | ⟨⟨hname, -⟩, -⟩
      · rw [isName_of_predefined hpredefined] at hnone
        cases hnone
      · rw [hname] at hnone
        cases hnone
  unfold resolveReference
  split
  · exact absurd rfl hsharp
  · rw [hentity]

theorem exists_resolveReference_of_misnumbered {number : List Char}
    (hnone : ∀ c : Char, WritesCode number c.toNat → c.toNat = 0) :
    ∃ fault, resolveReference outside ('#' :: number) = .error (.character fault) := by
  cases hfound : characterOfNumber number with
  | error fault => exact ⟨fault, by simp [resolveReference, hfound]⟩
  | ok c =>
    obtain ⟨hwrites, hzero⟩ := characterOfNumber_eq_ok_iff.mp hfound
    exact absurd (hnone c hwrites) hzero

/-- **The reader stops at the first defect.**  A name is reported with the ampersand before it, and
a number without what goes before. -/
theorem exists_expand_eq_error {defect : ReferenceDefect} {after : List Char}
    (h : Expands outside expanded) (hdefect : HasDefect defect after)
    (hillegal : defect ≠ .illegal) :
    ∃ fault, expand (outside ++ '&' :: after) = .error fault ∧
      fault.before? =
        match defect with
        | .unterminated => some outside
        | .misnamed => some (outside ++ ['&'])
        | .misnumbered | .illegal => none := by
  -- the state of the reader after the ampersand
  have hinside : ∀ name rest, IsEnclosed name → after = name ++ rest →
      ∃ before, expand (outside ++ '&' :: after) =
        (expandFrom before (some (outside.reverse, name.reverse)) rest).map (expanded ++ ·) := by
    rintro name rest hname rfl
    refine ⟨name.reverse ++ '&' :: outside.reverse, ?_⟩
    rw [expand, expandFrom_append h, List.append_nil, expandFrom]
    simp only [if_true]
    rw [expandFrom_name hname, List.append_nil]
  -- a reference that is closed is resolved
  have hresolved : ∀ name rest fault, IsEnclosed name → after = name ++ ';' :: rest →
      resolveReference outside name = .error fault →
        expand (outside ++ '&' :: after) = .error fault := by
    intro name rest fault hname hafter hresolve
    obtain ⟨before, hbefore⟩ := hinside name (';' :: rest) hname hafter
    rw [hbefore, expandFrom]
    simp [hresolve, Except.map]
  cases hdefect with
  | @unterminated name rest hname hrest =>
    obtain ⟨before, hbefore⟩ := hinside name rest hname rfl
    rw [hbefore]
    cases rest with
    | nil => exact ⟨_, rfl, by simp [ReferenceFault.before?]⟩
    | cons c rest =>
      obtain rfl : c = '&' := by simpa using hrest
      refine ⟨.unterminated outside (Utf8.size before + Utf8.size ('&' :: rest)), ?_, rfl⟩
      rw [expandFrom]
      simp [Except.map]
  | @misnamed name rest hname hsharp hnone =>
    exact ⟨_, hresolved name rest _ hname rfl (resolveReference_of_misnamed hsharp hnone), rfl⟩
  | @misnumbered number rest hnumber hnone =>
    have hname : IsEnclosed ('#' :: number) := by simpa [IsEnclosed] using hnumber
    obtain ⟨fault, hresolve⟩ := exists_resolveReference_of_misnumbered hnone
    exact ⟨_, hresolved _ rest _ hname rfl hresolve, rfl⟩
  | illegal => exact absurd rfl hillegal

/-! ## That there is a defect -/

theorem exists_hasDefect_of_not_standsFor (hname : IsEnclosed name)
    (hnone : ∀ value, ¬ StandsFor name value) (rest : List Char) :
    ∃ defect, defect ≠ .illegal ∧ HasDefect defect (name ++ ';' :: rest) := by
  by_cases hsharp : name.head? = some '#'
  · obtain ⟨number, rfl⟩ := List.head?_eq_some_iff.mp hsharp
    have hnumber : IsEnclosed number := by simpa [IsEnclosed] using hname
    refine ⟨.misnumbered, by decide, .misnumbered rest hnumber ?_⟩
    intro c hwrites
    by_contra hzero
    exact hnone [c] (.number hwrites hzero)
  · have hother : isName name = false := by
      rw [← Bool.not_eq_true]
      intro hfound
      obtain ⟨value, hvalue, -⟩ := exists_standsFor (.inr hfound)
      exact hnone value hvalue
    exact ⟨.misnamed, by decide, .misnamed rest hname hsharp hother⟩

/-- A name goes up to the first semicolon, unless it does not end. -/
theorem exists_enclosed (text : List Char) :
    ∃ name rest, text = name ++ rest ∧ IsEnclosed name ∧
      ((rest = [] ∨ rest.head? = some '&') ∨ ∃ others, rest = ';' :: others) := by
  induction text with
  | nil => exact ⟨[], [], rfl, by simp [IsEnclosed], .inl (.inl rfl)⟩
  | cons c text ih =>
    by_cases hampersand : c = '&'
    · exact ⟨[], c :: text, rfl, by simp [IsEnclosed], .inl (.inr (by rw [hampersand]; rfl))⟩
    by_cases hsemicolon : c = ';'
    · exact ⟨[], c :: text, rfl, by simp [IsEnclosed], .inr ⟨text, by rw [hsemicolon]⟩⟩
    obtain ⟨name, rest, rfl, hname, hrest⟩ := ih
    refine ⟨c :: name, rest, rfl, ?_, hrest⟩
    simp only [IsEnclosed, List.mem_cons, not_or]
    exact ⟨⟨Ne.symm hampersand, hname.1⟩, Ne.symm hsemicolon, hname.2⟩

/-- **A text that cannot be expanded has a first defect**, up to which it can. -/
theorem expands_or_exists_hasDefect (text : List Char) :
    (∃ expanded, Expands text expanded) ∨
      ∃ outside after defect, text = outside ++ '&' :: after ∧ defect ≠ .illegal ∧
        (∃ expanded, Expands outside expanded) ∧ HasDefect defect after := by
  -- by the length, since a reference is passed over at once
  induction hlength : text.length using Nat.strong_induction_on generalizing text with
  | _ length ih =>
    cases text with
    | nil => exact .inl ⟨[], .nil⟩
    | cons c text =>
      rw [List.length_cons] at hlength
      by_cases hc : c = '&'
      · subst hc
        obtain ⟨name, rest, rfl, hname, hrest | ⟨others, rfl⟩⟩ := exists_enclosed text
        · exact .inr ⟨[], _, .unterminated, rfl, by decide, ⟨[], .nil⟩,
            .unterminated hname hrest⟩
        by_cases hstands : ∃ value, StandsFor name value
        · obtain ⟨value, hvalue⟩ := hstands
          have hlt : others.length < length := by
            rw [List.length_append, List.length_cons] at hlength
            omega
          rcases ih _ hlt others rfl with ⟨expanded, h⟩ |
            ⟨outside, after, defect, rfl, hlegal, ⟨expanded, h⟩, hdefect⟩
          · exact .inl ⟨value ++ expanded, .reference hname hvalue h⟩
          · exact .inr ⟨'&' :: (name ++ ';' :: outside), after, defect, by simp, hlegal,
              ⟨value ++ expanded, .reference hname hvalue h⟩, hdefect⟩
        · obtain ⟨defect, hlegal, hdefect⟩ :=
            exists_hasDefect_of_not_standsFor hname (not_exists.mp hstands) others
          exact .inr ⟨[], _, defect, rfl, hlegal, ⟨[], .nil⟩, hdefect⟩
      · rcases ih _ (by omega) text rfl with ⟨expanded, h⟩ |
          ⟨outside, after, defect, rfl, hlegal, ⟨expanded, h⟩, hdefect⟩
        · exact .inl ⟨c :: expanded, .character hc h⟩
        · exact .inr ⟨c :: outside, after, defect, rfl, hlegal,
            ⟨c :: expanded, .character hc h⟩, hdefect⟩

end FormsAudit.Markup
