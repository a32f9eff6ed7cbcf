import FormsAudit.Proofs.Unicode.Ranges
import FormsAudit.Unicode.Lowercase
import Mathlib.Data.List.Forall2

/-!
# Texts with the same lower-case form

What a character becomes may depend on those around it: a capital sigma looks for cased letters on
both sides.  So two texts have the same lower-case form when their characters can be told apart
neither by what they become nor by what they are to a sigma nearby (`lowercase_congr`).  A capital of
ASCII and its small letter are such characters (`lowersAlike_of_toLower_eq`).
-/

namespace FormsAudit.Unicode

/-- Lower-casing does not tell the characters apart, in their own place or next to another. -/
structure LowersAlike (c d : Char) : Prop where
  own : ∀ before after, lowerIn before c after = lowerIn before d after
  ignorable : caseIgnorableRanges.has c = caseIgnorableRanges.has d
  cased : casedRanges.has c = casedRanges.has d

theorem LowersAlike.refl (c : Char) : LowersAlike c c :=
  ⟨fun _ _ => rfl, rfl, rfl⟩

theorem LowersAlike.symm {c d : Char} (h : LowersAlike c d) : LowersAlike d c :=
  ⟨fun before after => (h.own before after).symm, h.ignorable.symm, h.cased.symm⟩

theorem LowersAlike.trans {c d e : Char} (h : LowersAlike c d) (h' : LowersAlike d e) :
    LowersAlike c e :=
  ⟨fun before after => (h.own before after).trans (h'.own before after),
    h.ignorable.trans h'.ignorable, h.cased.trans h'.cased⟩

variable {before others first second : List Char}

/-- A sigma nearby does not tell the characters apart. -/
def CasedAlike (c d : Char) : Prop :=
  caseIgnorableRanges.has c = caseIgnorableRanges.has d ∧ casedRanges.has c = casedRanges.has d

theorem LowersAlike.casedAlike {c d : Char} (h : LowersAlike c d) : CasedAlike c d :=
  ⟨h.ignorable, h.cased⟩

theorem startsCased_congr (h : List.Forall₂ CasedAlike first second) :
    startsCased first = startsCased second := by
  induction h with
  | nil => rfl
  | @cons c d first second hchar _ ih =>
    obtain ⟨hignorable, hcased⟩ := hchar
    unfold startsCased at ih ⊢
    rw [List.dropWhile_cons, List.dropWhile_cons, ← hignorable]
    cases caseIgnorableRanges.has c with
    | true => exact ih
    | false => exact hcased

theorem lowerIn_congr (c : Char) (hbefore : List.Forall₂ LowersAlike before others)
    (hafter : List.Forall₂ LowersAlike first second) :
    lowerIn before c first = lowerIn others c second := by
  rw [lowerIn, lowerIn, startsCased_congr (hbefore.imp fun _ _ => LowersAlike.casedAlike),
    startsCased_congr (hafter.imp fun _ _ => LowersAlike.casedAlike)]

theorem lowercaseAfter_congr (hbefore : List.Forall₂ LowersAlike before others)
    (h : List.Forall₂ LowersAlike first second) :
    lowercaseAfter before first = lowercaseAfter others second := by
  induction h generalizing before others with
  | nil => rfl
  | @cons c d first second hchar hrest ih =>
    rw [lowercaseAfter, lowercaseAfter, ih (.cons hchar hbefore), hchar.own,
      lowerIn_congr d hbefore hrest]

/-- **Characters that are lowered alike make texts with one lower-case form.** -/
theorem lowercase_congr (h : List.Forall₂ LowersAlike first second) :
    lowercase first = lowercase second :=
  lowercaseAfter_congr .nil h

/-! ## The letters of ASCII -/

/-- A letter of ASCII, which has no rule of its own. -/
def IsPlainLetter (c : Char) : Prop :=
  asciiLetters.has c = true ∧ c ≠ capitalSigma ∧ c ≠ 'İ'

instance (c : Char) : Decidable (IsPlainLetter c) :=
  inferInstanceAs (Decidable (_ ∧ _ ∧ _))

theorem lower_of_capital {c : Char} (hlow : 0x41 ≤ c.toNat) (hhigh : c.toNat ≤ 0x5A) :
    lowerChar c = lowerChar c.toLower ∧ IsPlainLetter c ∧ IsPlainLetter c.toLower := by
  have hall : ∀ n < 26, (fun c : Char => lowerChar c = lowerChar c.toLower ∧ IsPlainLetter c ∧
      IsPlainLetter c.toLower) (Char.ofNat (0x41 + n)) := by
    decide +kernel
  have hletter := hall (c.toNat - 0x41) (by omega)
  rwa [Nat.add_sub_cancel' hlow, Char.ofNat_toNat] at hletter

/-- A letter of ASCII is a cased one. -/
theorem cased_of_letter {c : Char} (h : asciiLetters.has c = true) :
    caseIgnorableRanges.has c = false ∧ casedRanges.has c = true := by
  have hignorable : asciiLetters.apart caseIgnorableRanges = true := by decide +kernel
  have hcased : asciiLetters.within casedRanges = true := by decide +kernel
  exact ⟨Bool.eq_false_iff.mpr (Ranges.not_has_of_apart hignorable h),
    Ranges.has_of_within hcased h⟩

/-- A capital of ASCII stands wherever its small letter does. -/
theorem lowersAlike_toLower (c : Char) : LowersAlike c c.toLower := by
  by_cases hupper : 'A'.val ≤ c.val ∧ c.val ≤ 'Z'.val
  · obtain ⟨hlower, ⟨hletter, hsigma, hdotted⟩, hletter', hsigma', hdotted'⟩ :=
      lower_of_capital hupper.1 hupper.2
    obtain ⟨hignorable, hcased⟩ := cased_of_letter hletter
    obtain ⟨hignorable', hcased'⟩ := cased_of_letter hletter'
    refine ⟨fun _ _ => ?_, hignorable.trans hignorable'.symm, hcased.trans hcased'.symm⟩
    simp only [lowerIn, hsigma, hdotted, hsigma', hdotted', hlower, if_false]
  · have hsame : c.toLower = c := dif_neg hupper
    rw [hsame]
    exact .refl c

theorem lowersAlike_of_toLower_eq {c d : Char} (h : c.toLower = d.toLower) : LowersAlike c d := by
  have hd := lowersAlike_toLower d
  rw [← h] at hd
  exact (lowersAlike_toLower c).trans hd.symm

/-- Texts that are equal up to the case of ASCII letters have one lower-case form. -/
theorem lowercase_eq_of_map_toLower_eq (h : first.map Char.toLower = second.map Char.toLower) :
    lowercase first = lowercase second := by
  refine lowercase_congr ?_
  rw [← List.forall₂_eq_eq_eq, List.forall₂_map_left_iff, List.forall₂_map_right_iff] at h
  exact h.imp fun _ _ => lowersAlike_of_toLower_eq

end FormsAudit.Unicode
