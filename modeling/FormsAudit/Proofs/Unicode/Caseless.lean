import FormsAudit.Proofs.Unicode.FinalSigma

/-!
# Characters without case

A character that is no letter of two cases, nor one of the three that stand for others, stays what it
is in lower case, and no other character becomes it.  So it stands in the lower-case form of a text
just if it stands in the text (`mem_lowercase_iff`), and a text with such a character has no
lower-case form in common with one without it.  The marks that part a path and the characters that
end a line are of this kind.
-/

namespace FormsAudit.Unicode

/-- No character has this one in its lower-case form but itself. -/
def IsCaseless (c : Char) : Prop :=
  letterRanges.has c = false ∧ c ≠ 'İ' ∧ c ≠ 'ς' ∧ c ≠ '\u0307'

instance (c : Char) : Decidable (IsCaseless c) :=
  inferInstanceAs (Decidable (_ ∧ _))

variable {c : Char}

theorem IsCaseless.ne_of_letter (h : IsCaseless c) {d : Char} (hd : letterRanges.has d = true) :
    c ≠ d := by
  rintro rfl
  rw [h.1] at hd
  cases hd

theorem IsCaseless.mem_lowerIn_iff (h : IsCaseless c) (before : List Char) (d : Char)
    (after : List Char) : c ∈ lowerIn before d after ↔ c = d := by
  have hletters : letterRanges.has capitalSigma = true ∧ letterRanges.has 'σ' = true ∧
      letterRanges.has 'i' = true := by
    decide +kernel
  by_cases hsigma : d = capitalSigma
  · subst hsigma
    have hc : c ≠ capitalSigma := h.ne_of_letter hletters.1
    have hsmall : c ≠ 'σ' := h.ne_of_letter hletters.2.1
    rw [lowerIn, if_pos rfl]
    split <;> simp [hc, hsmall, h.2.2.1]
  by_cases hdotted : d = 'İ'
  · subst hdotted
    have hc : c ≠ 'i' := h.ne_of_letter hletters.2.2
    simp [lowerIn, hsigma, hc, h.2.1, h.2.2.2]
  rw [lowerIn, if_neg hsigma, if_neg hdotted, List.mem_singleton]
  rcases lowerChar_eq_or d with hself | ⟨hletter, hlower⟩
  · rw [hself]
  · exact iff_of_false (h.ne_of_letter hlower) (h.ne_of_letter hletter)

theorem IsCaseless.mem_lowercaseAfter_iff (h : IsCaseless c) (before text : List Char) :
    c ∈ lowercaseAfter before text ↔ c ∈ text := by
  induction text generalizing before with
  | nil => rfl
  | cons d rest ih =>
    rw [lowercaseAfter, List.mem_append, h.mem_lowerIn_iff, ih, List.mem_cons]

/-- **A character without case stands in the lower-case form of a text just if it stands in the
text.** -/
theorem IsCaseless.mem_lowercase_iff (h : IsCaseless c) (text : List Char) :
    c ∈ lowercase text ↔ c ∈ text :=
  h.mem_lowercaseAfter_iff [] text

/-- Texts with one lower-case form have the same characters without case. -/
theorem IsCaseless.mem_iff_of_lowercase_eq (h : IsCaseless c) {first second : List Char}
    (heq : lowercase first = lowercase second) : c ∈ first ↔ c ∈ second := by
  rw [← h.mem_lowercase_iff first, heq, h.mem_lowercase_iff second]

theorem isCaseless_dot : IsCaseless '.' := by decide +kernel

theorem isCaseless_slash : IsCaseless '/' := by decide +kernel

theorem isCaseless_lineFeed : IsCaseless '\n' := by decide +kernel

theorem isCaseless_carriageReturn : IsCaseless '\r' := by decide +kernel

end FormsAudit.Unicode
