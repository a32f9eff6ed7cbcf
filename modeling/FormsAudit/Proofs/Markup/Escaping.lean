import FormsAudit.Proofs.Markup.Reference

/-!
# Text written between quotes

A character of a value can be written as itself, by a predefined entity or by its number
(`WritesChar`), and each character of a text in its own way (`WritesText`).  Whatever is chosen, the
text is what the reader of references makes of it (`WritesText.expands`), and nothing that is
written ends the value or begins a tag (`WritesText.clean`).
-/

namespace FormsAudit.Markup

/-- The ways in which a character can be written between quotes. -/
inductive WritesChar (quote c : Char) : List Char → Prop
  | itself (hampersand : c ≠ '&') (hless : c ≠ '<') (hquote : c ≠ quote) : WritesChar quote c [c]
  | predefined {name : List Char} (h : (name, c) ∈ predefined) :
    WritesChar quote c ('&' :: (name ++ [';']))
  /-- The number may begin with zeros. -/
  | number {number : List Char} (h : WritesCode number c.toNat) :
    WritesChar quote c ('&' :: '#' :: (number ++ [';']))

/-- The ways in which a text can be written between quotes. -/
inductive WritesText (quote : Char) : List Char → List Char → Prop
  | nil : WritesText quote [] []
  | cons {c : Char} {piece text written : List Char} (hpiece : WritesChar quote c piece)
    (h : WritesText quote text written) : WritesText quote (c :: text) (piece ++ written)

/-! ## Letters and digits -/

/-- Letters and digits of ASCII. -/
def IsWordChar (c : Char) : Prop :=
  48 ≤ c.toNat ∧ c.toNat ≤ 57 ∨ 65 ≤ c.toNat ∧ c.toNat ≤ 90 ∨ 97 ≤ c.toNat ∧ c.toNat ≤ 122

instance : DecidablePred IsWordChar := fun _ => inferInstanceAs (Decidable (_ ∨ _))

theorem isWordChar_of_isDigit {radix value : Nat} (hradix : radix ≤ 16) {c : Char}
    (h : Numeral.IsDigit radix c value) : IsWordChar c := by
  have hall : ∀ value < 16, IsWordChar (Nat.digitChar value) ∧
      IsWordChar (Nat.digitChar value).toUpper := by
    decide
  obtain ⟨hlower, hupper⟩ := hall value (h.1.trans_le hradix)
  rcases h.2 with rfl | rfl
  · exact hlower
  · exact hupper

theorem WritesCode.isWordChar {number : List Char} {code : Nat} (h : WritesCode number code) :
    ∀ c ∈ number, IsWordChar c := by
  have hdigits : ∀ {radix digits}, radix ≤ 16 → Numeral.Writes radix digits code →
      ∀ c ∈ digits, IsWordChar c := by
    intro radix digits hradix hwrites c hc
    obtain ⟨value, hvalue⟩ := hwrites.isDigit c hc
    exact isWordChar_of_isDigit hradix hvalue
  rcases h with h | ⟨digits, rfl, h⟩
  · exact hdigits (by decide) h
  · intro c hc
    rcases List.mem_cons.mp hc with rfl | hc
    · decide
    · exact hdigits (by decide) h c hc

theorem isWordChar_of_predefined {name : List Char} {c : Char} (h : (name, c) ∈ predefined) :
    ∀ other ∈ name, IsWordChar other := by
  have hall : ∀ entity ∈ predefined, entity.1.all (IsWordChar ·) = true := by decide
  simpa using hall _ h

theorem IsWordChar.ne {c other : Char} (h : IsWordChar c) (hother : ¬ IsWordChar other) :
    c ≠ other :=
  fun heq => hother (heq ▸ h)

theorem isEnclosed_of_isWordChar {name : List Char} (h : ∀ c ∈ name, IsWordChar c) :
    IsEnclosed name :=
  ⟨fun hmem => absurd (h _ hmem) (by decide), fun hmem => absurd (h _ hmem) (by decide)⟩

/-! ## What is written -/

section Written

variable {quote : Char} {text written : List Char}

/-- A reader of references gets past what a character is written as. -/
theorem WritesChar.expands {c : Char} {piece : List Char} (hpiece : WritesChar quote c piece)
    (hlegal : IsLegalCode c.toNat) (h : Expands written text) :
    Expands (piece ++ written) (c :: text) := by
  cases hpiece with
  | itself hampersand => exact .character hampersand h
  | @predefined name hname =>
    have henclosed := isEnclosed_of_isWordChar (isWordChar_of_predefined hname)
    simpa using Expands.reference henclosed (.predefined hname) h
  | @number number hwrites =>
    have henclosed : IsEnclosed ('#' :: number) := by
      simpa [IsEnclosed] using isEnclosed_of_isWordChar hwrites.isWordChar
    have hzero : c.toNat ≠ 0 := by
      unfold IsLegalCode at hlegal
      omega
    simpa using Expands.reference henclosed (.number hwrites hzero) h

/-- **A text is what its references are replaced to, however it is written.** -/
theorem WritesText.expands (h : WritesText quote text written)
    (hlegal : ∀ c ∈ text, IsLegalCode c.toNat) : Expands written text := by
  induction h with
  | nil => exact .nil
  | cons hpiece _ ih =>
    obtain ⟨hc, hrest⟩ := List.forall_mem_cons.mp hlegal
    exact hpiece.expands hc (ih hrest)

/-- What may stand in a value between quotes. -/
structure IsClean (quote c : Char) : Prop where
  legal : IsLegalCode c.toNat
  ne_less : c ≠ '<'
  ne_quote : c ≠ quote

theorem IsWordChar.isClean (hquote : quote = '"' ∨ quote = '\'') {c : Char} (h : IsWordChar c) :
    IsClean quote c := by
  refine ⟨?_, h.ne (by decide), ?_⟩
  · unfold IsWordChar at h
    unfold IsLegalCode
    omega
  · rcases hquote with rfl | rfl <;> exact h.ne (by decide)

theorem WritesChar.clean (hquote : quote = '"' ∨ quote = '\'') {c : Char} {piece : List Char}
    (h : WritesChar quote c piece) (hlegal : IsLegalCode c.toNat) :
    ∀ other ∈ piece, IsClean quote other := by
  have hframe : ∀ other ∈ ['&', '#', ';'], IsClean quote other := by
    intro other hother
    simp only [List.mem_cons, List.not_mem_nil, or_false] at hother
    rcases hquote with rfl | rfl <;> rcases hother with rfl | rfl | rfl <;>
      exact ⟨by simp [IsLegalCode], by decide, by decide⟩
  intro other hother
  cases h with
  | itself _ hless hne =>
    obtain rfl := List.mem_singleton.mp hother
    exact ⟨hlegal, hless, hne⟩
  | predefined hname =>
    simp only [List.mem_cons, List.mem_append, List.not_mem_nil, or_false] at hother
    rcases hother with rfl | hother | rfl
    · exact hframe _ (by decide)
    · exact (isWordChar_of_predefined hname other hother).isClean hquote
    · exact hframe _ (by decide)
  | number hwrites =>
    simp only [List.mem_cons, List.mem_append, List.not_mem_nil, or_false] at hother
    rcases hother with rfl | rfl | hother | rfl
    · exact hframe _ (by decide)
    · exact hframe _ (by decide)
    · exact (hwrites.isWordChar other hother).isClean hquote
    · exact hframe _ (by decide)

/-- **What a legal text is written as may stand between the quotes.** -/
theorem WritesText.clean (hquote : quote = '"' ∨ quote = '\'') (h : WritesText quote text written)
    (hlegal : ∀ c ∈ text, IsLegalCode c.toNat) : ∀ c ∈ written, IsClean quote c := by
  induction h with
  | nil => simp
  | cons hpiece _ ih =>
    obtain ⟨hc, hrest⟩ := List.forall_mem_cons.mp hlegal
    exact List.forall_mem_append.mpr ⟨hpiece.clean hquote hc, ih hrest⟩

end Written

end FormsAudit.Markup
