import FormsAudit.Unicode.Ranges

/-!
# Ranges and other ranges

The code points of some ranges are the bits of one number (`Ranges.mask`).  So one `and` of two numbers
tells whether the characters of some ranges lie in others (`Ranges.within`), or whether none of them
does (`Ranges.apart`), which the kernel evaluates for the tables of whole properties.
-/

namespace FormsAudit.Unicode

/-- The number whose bits are the code points in the ranges. -/
def Ranges.mask (ranges : Ranges) : Nat :=
  ranges.foldr (fun range mask => mask ||| (1 <<< (range.2 + 1 - range.1) - 1) <<< range.1) 0

/-- Whether each code point of the ranges lies in the others. -/
def Ranges.within (ranges others : Ranges) : Bool :=
  ranges.mask &&& others.mask == ranges.mask

/-- Whether no code point of the ranges lies in the others. -/
def Ranges.apart (ranges others : Ranges) : Bool :=
  ranges.mask &&& others.mask == 0

/-- The letters of ASCII. -/
def asciiLetters : Ranges := [(0x41, 0x5A), (0x61, 0x7A)]

variable {ranges others : Ranges} {c : Char}

theorem Ranges.has_append :
    Ranges.has (ranges ++ others) c = true ↔ ranges.has c = true ∨ others.has c = true := by
  simp [Ranges.has]

theorem Ranges.testBit_mask (ranges : Ranges) (c : Char) :
    ranges.mask.testBit c.toNat = ranges.has c := by
  induction ranges with
  | nil => simp [mask, has]
  | cons range ranges ih =>
    have hrange : ((1 <<< (range.2 + 1 - range.1) - 1) <<< range.1).testBit c.toNat =
        (decide (range.1 ≤ c.toNat) && decide (c.toNat ≤ range.2)) := by
      rw [Nat.testBit_shiftLeft, Nat.one_shiftLeft, Nat.testBit_two_pow_sub_one, Bool.eq_iff_iff]
      simp only [Bool.and_eq_true, decide_eq_true_eq]
      omega
    rw [mask] at ih
    rw [mask, List.foldr_cons, Nat.testBit_or, ih, hrange, Bool.or_comm]
    rfl

theorem Ranges.has_of_within (h : ranges.within others = true) (hc : ranges.has c = true) :
    others.has c = true := by
  have hboth : (ranges.mask &&& others.mask).testBit c.toNat = true := by
    rw [eq_of_beq h, testBit_mask, hc]
  rw [Nat.testBit_and, testBit_mask, testBit_mask, hc] at hboth
  exact hboth

theorem Ranges.not_has_of_apart (h : ranges.apart others = true) (hc : ranges.has c = true) :
    ¬ others.has c = true := by
  have hboth : (ranges.mask &&& others.mask).testBit c.toNat = false := by
    rw [eq_of_beq h, Nat.zero_testBit]
  rw [Nat.testBit_and, testBit_mask, testBit_mask, hc] at hboth
  exact Bool.eq_false_iff.mp hboth

end FormsAudit.Unicode
