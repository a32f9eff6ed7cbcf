import FormsAudit.Proofs.Text.Utf8
import FormsAudit.Proofs.Unicode.Lowercase

/-!
# Texts of the same letters

Characters are the same letter if each of them, by itself, has the same lower-case form
(`SameLetter`).  Letters that differ in case only are cased ones, which case does not ignore
(`casedAlike_of_sameLetter`), so a sigma nearby does not tell them apart.  Yet the lower-case forms of
texts of the same letters may differ: where a capital sigma ends a word it becomes the final form,
while the small sigma stays what it is.  That is the only difference (`lowercase_eq_iff`).
-/

namespace FormsAudit.Unicode

/-! ## Letters of two cases -/

/-- The capitals of a run and their lower-case letters. -/
def CapitalRun.letters (run : CapitalRun) : Ranges :=
  (List.range ((run.last - run.first) / run.stride + 1)).flatMap fun k =>
    [(run.first + k * run.stride, run.first + k * run.stride),
      (run.image + k * run.stride, run.image + k * run.stride)]

/-- The capitals that have a lower-case letter of one character, and these letters. -/
def letterRanges : Ranges :=
  capitalRuns.flatMap CapitalRun.letters

theorem mem_letters_of_lower? {run : CapitalRun} {n lower : Nat} (h : run.lower? n = some lower) :
    (n, n) ∈ run.letters ∧ (lower, lower) ∈ run.letters := by
  unfold CapitalRun.lower? at h
  split at h
  · rename_i hrun
    obtain ⟨hfirst, hlast, hstride⟩ := hrun
    cases h
    have hsteps : (n - run.first) / run.stride * run.stride = n - run.first :=
      Nat.div_mul_cancel (Nat.dvd_of_mod_eq_zero hstride)
    have hcount : (n - run.first) / run.stride ≤ (run.last - run.first) / run.stride :=
      Nat.div_le_div_right (by omega)
    have hself : run.first + (n - run.first) = n := by omega
    constructor <;>
      refine List.mem_flatMap.mpr ⟨_, List.mem_range.mpr (Nat.lt_succ_of_le hcount), ?_⟩ <;>
        simp [hsteps, hself]
  · cases h

/-- A character that is no capital is its own lower-case letter, and a capital has another one. -/
theorem lowerChar_eq_or (c : Char) :
    lowerChar c = c ∨ letterRanges.has c = true ∧ letterRanges.has (lowerChar c) = true := by
  unfold lowerChar
  cases hfind : capitalRuns.findSome? fun run => run.lower? c.toNat with
  | none => exact .inl rfl
  | some lower =>
    obtain ⟨run, hrun, hlower⟩ := List.exists_of_findSome?_eq_some hfind
    obtain ⟨hself, hother⟩ := mem_letters_of_lower? hlower
    have hvalid : ∀ range ∈ letterRanges, range.1.isValidChar := by decide +kernel
    have hletter : ∀ {n}, (n, n) ∈ run.letters → (n, n) ∈ letterRanges := fun hmem =>
      List.mem_flatMap.mpr ⟨run, hrun, hmem⟩
    have hcode : (Char.ofNat lower).toNat = lower :=
      Utf8.toNat_ofNat (hvalid _ (hletter hother))
    refine .inr ⟨Ranges.has_iff.mpr ⟨_, hletter hself, Nat.le_refl _, Nat.le_refl _⟩,
      Ranges.has_iff.mpr ⟨_, hletter hother, ?_⟩⟩
    rw [hcode]
    exact ⟨Nat.le_refl _, Nat.le_refl _⟩

theorem casedAlike_of_letters {c d : Char} (hc : letterRanges.has c = true)
    (hd : letterRanges.has d = true) : CasedAlike c d := by
  have hignorable : letterRanges.apart caseIgnorableRanges = true := by decide +kernel
  have hcased : letterRanges.within casedRanges = true := by decide +kernel
  constructor
  · rw [Bool.eq_false_iff.mpr (Ranges.not_has_of_apart hignorable hc),
      Bool.eq_false_iff.mpr (Ranges.not_has_of_apart hignorable hd)]
  · rw [Ranges.has_of_within hcased hc, Ranges.has_of_within hcased hd]

/-! ## The same letter -/

/-- The characters have the same lower-case form, each of them by itself. -/
def SameLetter (c d : Char) : Prop :=
  lowerIn [] c [] = lowerIn [] d []

instance (c d : Char) : Decidable (SameLetter c d) :=
  inferInstanceAs (Decidable (_ = _))

/-- Sigma has no rule of its own when it stands alone. -/
theorem lowerIn_alone (c : Char) :
    lowerIn [] c [] = if c = 'İ' then ['i', '\u0307'] else [lowerChar c] := by
  by_cases hsigma : c = capitalSigma
  · rw [hsigma]
    decide +kernel
  · rw [lowerIn, if_neg hsigma]

theorem SameLetter.eq_or_lowerChar_eq {c d : Char} (h : SameLetter c d) :
    c = d ∨ lowerChar c = lowerChar d := by
  rw [SameLetter, lowerIn_alone, lowerIn_alone] at h
  by_cases hc : c = 'İ' <;> by_cases hd : d = 'İ'
  · exact .inl (hc.trans hd.symm)
  · simp [hc, hd] at h
  · simp [hc, hd] at h
  · simp only [hc, hd, if_false, List.cons.injEq, and_true] at h
    exact .inr h

/-- A sigma nearby does not tell the cases of a letter apart. -/
theorem casedAlike_of_sameLetter {c d : Char} (h : SameLetter c d) : CasedAlike c d := by
  rcases h.eq_or_lowerChar_eq with rfl | hlower
  · exact ⟨rfl, rfl⟩
  rcases lowerChar_eq_or c with hc | ⟨hc, hlowerc⟩ <;>
    rcases lowerChar_eq_or d with hd | ⟨hd, hlowerd⟩
  · rw [hc, hd] at hlower
    rw [hlower]
    exact ⟨rfl, rfl⟩
  · rw [← hlower, hc] at hlowerd
    exact casedAlike_of_letters hlowerd hd
  · rw [hlower, hd] at hlowerc
    exact casedAlike_of_letters hc hlowerc
  · exact casedAlike_of_letters hc hd

/-! ## Sigma at the end of a word -/

/-- A word ends between `before` (nearest first) and `after`. -/
def EndsWord (before after : List Char) : Prop :=
  startsCased before = true ∧ startsCased after = false

instance (before after : List Char) : Decidable (EndsWord before after) :=
  inferInstanceAs (Decidable (_ ∧ _))

/-- A word ends at the place in the text, where `before` (nearest first) has gone before the text. -/
def EndsWordAt (before text : List Char) (place : Nat) : Prop :=
  EndsWord ((text.take place).reverse ++ before) (text.drop (place + 1))

/-- Wherever a word of the first text ends, both texts have a capital sigma or neither has. -/
def SameFinals (first second : List Char) : Prop :=
  ∀ place, EndsWordAt [] first place →
    (first[place]? = some capitalSigma ↔ second[place]? = some capitalSigma)

variable {before others first second : List Char} {c d : Char}

instance (before text : List Char) (place : Nat) : Decidable (EndsWordAt before text place) :=
  inferInstanceAs (Decidable (EndsWord ..))

/-- Behind both texts there is nothing to agree on. -/
theorem sameFinals_iff_forall_lt :
    SameFinals first second ↔ ∀ place < max first.length second.length,
      EndsWordAt [] first place →
        (first[place]? = some capitalSigma ↔ second[place]? = some capitalSigma) := by
  refine ⟨fun h place _ => h place, fun h place => ?_⟩
  by_cases hplace : place < max first.length second.length
  · exact h place hplace
  · obtain ⟨hfirst, hsecond⟩ := Nat.max_le.mp (Nat.le_of_not_lt hplace)
    simp [hfirst, hsecond]

instance (first second : List Char) : Decidable (SameFinals first second) :=
  decidable_of_iff' _ sameFinals_iff_forall_lt

@[simp] theorem endsWordAt_cons_zero :
    EndsWordAt before (c :: first) 0 ↔ EndsWord before first := by
  simp [EndsWordAt]

@[simp] theorem endsWordAt_cons_succ {place : Nat} :
    EndsWordAt before (c :: first) (place + 1) ↔ EndsWordAt (c :: before) first place := by
  simp [EndsWordAt]

/-- Unless it is a sigma at the end of a word, a character becomes what it becomes alone. -/
theorem lowerIn_eq (before : List Char) (c : Char) (after : List Char) :
    lowerIn before c after =
      if c = capitalSigma ∧ EndsWord before after then ['ς'] else lowerIn [] c [] := by
  by_cases hsigma : c = capitalSigma
  · have halone : lowerIn [] capitalSigma [] = ['σ'] := rfl
    rw [hsigma, halone]
    simp [lowerIn, EndsWord]
  · simp [lowerIn, hsigma]

theorem length_lowerIn (before : List Char) (c : Char) (after : List Char) :
    (lowerIn before c after).length = (lowerIn [] c []).length := by
  rw [lowerIn_eq]
  split
  · rename_i hfinal
    rw [hfinal.1]
    rfl
  · rfl

section SameLetters

variable (hbefore : List.Forall₂ SameLetter before others)
include hbefore

theorem endsWord_congr (hafter : List.Forall₂ SameLetter first second) :
    EndsWord before first ↔ EndsWord others second := by
  rw [EndsWord, EndsWord, startsCased_congr (hbefore.imp fun _ _ => casedAlike_of_sameLetter),
    startsCased_congr (hafter.imp fun _ _ => casedAlike_of_sameLetter)]

theorem lowerIn_eq_iff (h : SameLetter c d) (hafter : List.Forall₂ SameLetter first second) :
    lowerIn before c first = lowerIn others d second ↔
      (EndsWord before first → (c = capitalSigma ↔ d = capitalSigma)) := by
  have halone : lowerIn [] c [] = lowerIn [] d [] := h
  have hsmall : ['ς'] ≠ lowerIn [] capitalSigma [] := by decide
  simp only [lowerIn_eq before, lowerIn_eq others, ← endsWord_congr hbefore hafter]
  by_cases hends : EndsWord before first
  · by_cases hc : c = capitalSigma <;> by_cases hd : d = capitalSigma
    · simp [hends, hc, hd]
    · rw [if_pos ⟨hc, hends⟩, if_neg (hd ·.1), ← halone, hc]
      exact iff_of_false hsmall (by simp [hends, hd])
    · rw [if_neg (hc ·.1), if_pos ⟨hd, hends⟩, halone, hd]
      exact iff_of_false hsmall.symm (by simp [hends, hc])
    · simpa [hends, hc, hd] using halone
  · simpa [hends] using halone

theorem lowercaseAfter_eq_iff (h : List.Forall₂ SameLetter first second) :
    lowercaseAfter before first = lowercaseAfter others second ↔
      ∀ place, EndsWordAt before first place →
        (first[place]? = some capitalSigma ↔ second[place]? = some capitalSigma) := by
  induction h generalizing before others with
  | nil => simp [lowercaseAfter]
  | @cons c d first second hchar hrest ih =>
    have hlength : (lowerIn before c first).length = (lowerIn others d second).length := by
      rw [length_lowerIn, length_lowerIn others, hchar]
    rw [lowercaseAfter, lowercaseAfter, List.append_eq_append_iff_of_size_eq_left hlength,
      lowerIn_eq_iff hbefore hchar hrest, ih (.cons hchar hbefore)]
    -- the first place is that of the first characters, the others are those of the rest
    refine Iff.trans ?_ Nat.and_forall_add_one
    simp

end SameLetters

/-- **Texts of the same letters have one lower-case form just if they agree on the capital sigmas at
the ends of words.** -/
theorem lowercase_eq_iff (h : List.Forall₂ SameLetter first second) :
    lowercase first = lowercase second ↔ SameFinals first second :=
  lowercaseAfter_eq_iff .nil h

end FormsAudit.Unicode
