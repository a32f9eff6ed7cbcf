import FormsAudit.Markup.Reference
import FormsAudit.Proofs.Unicode.Ranges

/-!
# Names of entities and the names of XML

XML says by ranges of code points with which characters a name begins and which come after
(`IsXmlName`).  What an entity may be called is told by properties of its characters instead
(`isName`), and neither set holds the other.

Of the letters and numbers only few are no characters of names, and these are listed
(`strayStartRanges`, `strayRanges`).  So a name that an entity may have is one of XML unless it has
one of them (`isXmlName_iff_of_isName`).  The other way round nothing of the kind is true: marks such
as the middle dot are allowed behind the first character, but are neither letters nor numbers.  In
ASCII there is no difference (`isName_iff_of_ascii`).
-/

namespace FormsAudit

namespace Markup

open Unicode

/-- The code points with which a name of XML begins. -/
def nameStartRanges : Ranges := [
  (0x3A, 0x3A), (0x41, 0x5A), (0x5F, 0x5F), (0x61, 0x7A), (0xC0, 0xD6), (0xD8, 0xF6),
  (0xF8, 0x2FF), (0x370, 0x37D), (0x37F, 0x1FFF), (0x200C, 0x200D), (0x2070, 0x218F),
  (0x2C00, 0x2FEF), (0x3001, 0xD7FF), (0xF900, 0xFDCF), (0xFDF0, 0xFFFD), (0x10000, 0xEFFFF)]

/-- The code points of a name of XML behind the first. -/
def nameRanges : Ranges :=
  nameStartRanges ++
    [(0x2D, 0x2E), (0x30, 0x39), (0xB7, 0xB7), (0x300, 0x36F), (0x203F, 0x2040)]

/-- A name of XML 1.0, in its fifth edition. -/
def IsXmlName : List Char → Prop
  | [] => False
  | first :: rest => nameStartRanges.has first = true ∧ ∀ c ∈ rest, nameRanges.has c = true

instance : DecidablePred IsXmlName
  | [] => inferInstanceAs (Decidable False)
  | first :: rest =>
    decidable_of_iff ((nameStartRanges.has first && rest.all nameRanges.has) = true)
      (by simp [IsXmlName])

/-- The letters with which no name of XML begins. -/
def strayStartRanges : Ranges := [
  (0xAA, 0xAA), (0xB5, 0xB5), (0xBA, 0xBA), (0x345, 0x345), (0x24B6, 0x24E9)]

/-- The letters and numbers that are in no name of XML. -/
def strayRanges : Ranges := [
  (0xAA, 0xAA), (0xB2, 0xB3), (0xB5, 0xB5), (0xB9, 0xB9), (0xBA, 0xBA), (0xBC, 0xBE),
  (0x2460, 0x249B), (0x24B6, 0x24E9), (0x24EA, 0x24FF), (0x2776, 0x2793)]

/-- No character of the text is a letter or number that is out of place in a name of XML. -/
def AvoidsStrays : List Char → Prop
  | [] => True
  | first :: rest =>
    ¬ strayStartRanges.has first = true ∧ ∀ c ∈ rest, ¬ strayRanges.has c = true

instance : DecidablePred AvoidsStrays
  | [] => inferInstanceAs (Decidable True)
  | first :: rest =>
    decidable_of_iff
      ((!strayStartRanges.has first && rest.all fun c => !strayRanges.has c) = true)
      (by simp [AvoidsStrays])

/-- Whether a name that an entity may have begins with the character. -/
def startsName (c : Char) : Bool :=
  isAlphabetic c || c = '_' || c = ':'

/-- Whether a name that an entity may have goes on with the character. -/
def continuesName (c : Char) : Bool :=
  isAlphanumeric c || c = '_' || c = ':' || c = '-' || c = '.'

variable {c : Char} {name rest : List Char}

theorem isName_cons_iff :
    isName (c :: rest) = true ↔ startsName c = true ∧ ∀ c ∈ rest, continuesName c = true := by
  rw [isName, Bool.and_eq_true, List.all_eq_true]
  rfl

/-! ## All of Unicode -/

theorem strayStart_iff :
    strayStartRanges.has c = true ↔ startsName c = true ∧ ¬ nameStartRanges.has c = true := by
  have hletters : strayStartRanges.within alphabeticRanges = true := by decide +kernel
  have hapart : strayStartRanges.apart nameStartRanges = true := by decide +kernel
  have hwithin : alphabeticRanges.within (nameStartRanges ++ strayStartRanges) = true := by
    decide +kernel
  simp only [startsName, Bool.or_eq_true, decide_eq_true_eq]
  constructor
  · intro h
    exact ⟨.inl (.inl (Ranges.has_of_within hletters h)), Ranges.not_has_of_apart hapart h⟩
  · rintro ⟨(hletter | rfl) | rfl, hnot⟩
    · exact (Ranges.has_append.mp (Ranges.has_of_within hwithin hletter)).resolve_left hnot
    · exact absurd (by decide) hnot
    · exact absurd (by decide) hnot

theorem stray_iff :
    strayRanges.has c = true ↔ continuesName c = true ∧ ¬ nameRanges.has c = true := by
  have hletters : strayRanges.within (alphabeticRanges ++ numericRanges) = true := by
    decide +kernel
  have hapart : strayRanges.apart nameRanges = true := by decide +kernel
  have hwithin : Ranges.within (alphabeticRanges ++ numericRanges) (nameRanges ++ strayRanges) =
      true := by
    decide +kernel
  have halphanumeric : isAlphanumeric c = true ↔
      Ranges.has (alphabeticRanges ++ numericRanges) c = true := by
    rw [isAlphanumeric, Bool.or_eq_true, Ranges.has_append]
    rfl
  simp only [continuesName, Bool.or_eq_true, decide_eq_true_eq, halphanumeric]
  constructor
  · intro h
    exact ⟨.inl (.inl (.inl (.inl (Ranges.has_of_within hletters h)))),
      Ranges.not_has_of_apart hapart h⟩
  · rintro ⟨(((hletter | rfl) | rfl) | rfl) | rfl, hnot⟩
    · exact (Ranges.has_append.mp (Ranges.has_of_within hwithin hletter)).resolve_left hnot
    · exact absurd (by decide) hnot
    · exact absurd (by decide) hnot
    · exact absurd (by decide) hnot
    · exact absurd (by decide) hnot

/-- **A name that an entity may have is one of XML unless it has a letter or number that is out of
place there.** -/
theorem isXmlName_iff_of_isName (h : isName name = true) : IsXmlName name ↔ AvoidsStrays name := by
  cases name with
  | nil => cases h
  | cons first rest =>
    obtain ⟨hfirst, hrest⟩ := isName_cons_iff.mp h
    refine and_congr ?_ (forall₂_congr fun c hc => ?_)
    · rw [strayStart_iff, and_iff_right hfirst, Classical.not_not]
    · rw [stray_iff, and_iff_right (hrest c hc), Classical.not_not]

/-! ## ASCII -/

/-- No letter or number of ASCII is out of place. -/
theorem not_stray_of_ascii (hc : c.toNat < 0x80) :
    ¬ strayStartRanges.has c = true ∧ ¬ strayRanges.has c = true := by
  have hascii : Ranges.has [(0x00, 0x7F)] c = true :=
    Ranges.has_iff.mpr ⟨_, List.mem_singleton_self _, Nat.zero_le _, Nat.le_of_lt_succ hc⟩
  exact ⟨Ranges.not_has_of_apart (by decide) hascii, Ranges.not_has_of_apart (by decide) hascii⟩

theorem of_nameRanges_of_ascii (hc : c.toNat < 0x80) :
    (nameStartRanges.has c = true → startsName c = true) ∧
      (nameRanges.has c = true → continuesName c = true) := by
  have hall : ∀ n < 0x80, (fun c : Char => (nameStartRanges.has c = true → startsName c = true) ∧
      (nameRanges.has c = true → continuesName c = true)) (Char.ofNat n) := by
    decide +kernel
  have hcharacter := hall c.toNat hc
  rwa [Char.ofNat_toNat] at hcharacter

/-- Of the texts of ASCII the entities may have the names of XML and no others. -/
theorem isName_iff_of_ascii (h : ∀ c ∈ name, c.toNat < 0x80) :
    isName name = true ↔ IsXmlName name := by
  cases name with
  | nil => exact iff_of_false Bool.false_ne_true not_false
  | cons first rest =>
    obtain ⟨hfirst, hrest⟩ := List.forall_mem_cons.mp h
    constructor
    · intro hname
      refine (isXmlName_iff_of_isName hname).mpr ⟨(not_stray_of_ascii hfirst).1, ?_⟩
      intro c hc
      exact (not_stray_of_ascii (hrest c hc)).2
    · rintro ⟨hstart, hothers⟩
      refine isName_cons_iff.mpr ⟨(of_nameRanges_of_ascii hfirst).1 hstart, ?_⟩
      intro c hc
      exact (of_nameRanges_of_ascii (hrest c hc)).2 (hothers c hc)

end Markup

end FormsAudit
