import FormsAudit.Text.Numeral
import Mathlib.Data.List.Forall2
import Mathlib.Data.Nat.Digits.Defs

/-!
# The number that digits make

Digits make the number that has them in their places (`Writes`).  The reader of numerals gives that
number where it is below the bound, and has no other result (`readDigits_eq_ok_iff`,
`readDecimal_eq_ok_iff`).
-/

namespace FormsAudit.Numeral

/-- Whether the character is the digit of that value, a letter of either case from ten on. -/
def IsDigit (radix : Nat) (c : Char) (value : Nat) : Prop :=
  value < radix ∧ (c = Nat.digitChar value ∨ c = (Nat.digitChar value).toUpper)

/-- Whether the digits, which are one at least, are those of the number. -/
def Writes (radix : Nat) (digits : List Char) (number : Nat) : Prop :=
  digits ≠ [] ∧ ∃ values, List.Forall₂ (IsDigit radix) digits values ∧
    number = Nat.ofDigits radix values.reverse

theorem digitValue?_digitChar {radix value : Nat} (hradix : radix ≤ 16) (h : value < radix) :
    digitValue? radix (Nat.digitChar value) = some value ∧
      digitValue? radix (Nat.digitChar value).toUpper = some value := by
  have hvalue : value < 16 := Nat.lt_of_lt_of_le h hradix
  have hall : ∀ value < 16,
      digitValue? 16 (Nat.digitChar value) = some value ∧
        digitValue? 16 (Nat.digitChar value).toUpper = some value := by
    decide
  -- a smaller radix leaves out digits, and changes the value of none
  have hfilter : ∀ c, digitValue? radix c = (digitValue? 16 c).filter (· < radix) := by
    intro c
    simp only [digitValue?, Option.filter_filter]
    congr 1
    funext value
    simp
    omega
  obtain ⟨hlower, hupper⟩ := hall value hvalue
  simp [hfilter, hlower, hupper, h]

theorem toNat_digitChar {value : Nat} (h : value < 16) :
    value < 10 ∧ (Nat.digitChar value).toNat = 48 + value ∨
      10 ≤ value ∧ (Nat.digitChar value).toNat = 87 + value ∧
        (Nat.digitChar value).toUpper.toNat = 55 + value := by
  have hall : ∀ value < 16,
      value < 10 ∧ (Nat.digitChar value).toNat = 48 + value ∨
        10 ≤ value ∧ (Nat.digitChar value).toNat = 87 + value ∧
          (Nat.digitChar value).toUpper.toNat = 55 + value := by
    decide
  exact hall value h

theorem digitValue?_eq_some_iff {radix : Nat} (hradix : radix ≤ 16) {c : Char} {value : Nat} :
    digitValue? radix c = some value ↔ IsDigit radix c value := by
  constructor
  · intro h
    obtain ⟨hfound, hbelow⟩ := Option.filter_eq_some_iff.mp h
    have hvalue : value < radix := of_decide_eq_true hbelow
    have hcode := toNat_digitChar (Nat.lt_of_lt_of_le hvalue hradix)
    rw [IsDigit, ← Char.toNat_inj, ← Char.toNat_inj]
    refine ⟨hvalue, ?_⟩
    have hrange : (48 ≤ c.toNat ∧ c.toNat ≤ 57 ∧ c.toNat = 48 + value) ∨
        (97 ≤ c.toNat ∧ c.toNat = 87 + value) ∨ (65 ≤ c.toNat ∧ c.toNat = 55 + value) := by
      split_ifs at hfound with hdigit hlower hupper <;> have hvalue := Option.some.inj hfound <;>
        simp only [Char.reduceToNat] at hvalue
      · have hlow : 48 ≤ c.toNat := hdigit.1
        have hhigh : c.toNat ≤ 57 := hdigit.2
        omega
      · have hlow : 97 ≤ c.toNat := hlower.1
        omega
      · have hlow : 65 ≤ c.toNat := hupper.1
        omega
    omega
  · rintro ⟨hvalue, rfl | rfl⟩
    · exact (digitValue?_digitChar hradix hvalue).1
    · exact (digitValue?_digitChar hradix hvalue).2

/-- Those before a digit stand one place higher. -/
theorem ofDigits_append_step (radix value digit : Nat) (values : List Nat) :
    Nat.ofDigits radix (values ++ [digit, value]) =
      Nat.ofDigits radix (values ++ [value * radix + digit]) := by
  simp only [Nat.ofDigits_append, Nat.ofDigits_cons, Nat.ofDigits_nil]
  ring

theorem le_ofDigits_append {radix : Nat} (hpositive : 0 < radix) (values : List Nat) (value : Nat) :
    value ≤ Nat.ofDigits radix (values ++ [value]) := by
  rw [Nat.ofDigits_append, Nat.ofDigits_singleton]
  have hplace : 1 * value ≤ radix ^ values.length * value :=
    Nat.mul_le_mul_right value (Nat.pow_pos hpositive)
  omega

/-- What is read after `value` is the number that has it before the digits. -/
theorem readFrom_eq_ok_iff {radix bound : Nat} (hradix : radix ≤ 16) (hpositive : 0 < radix)
    {value : Nat} (hvalue : value < bound) {digits : List Char} {number : Nat} :
    readFrom radix bound value digits = .ok number ↔
      number < bound ∧ ∃ values, List.Forall₂ (IsDigit radix) digits values ∧
        number = Nat.ofDigits radix (values.reverse ++ [value]) := by
  induction digits generalizing value with
  | nil =>
    simp [readFrom]
    omega
  | cons c digits ih =>
    have hcons : (∃ values, List.Forall₂ (IsDigit radix) (c :: digits) values ∧
          number = Nat.ofDigits radix (values.reverse ++ [value])) ↔
        ∃ digit, digitValue? radix c = some digit ∧
          ∃ values, List.Forall₂ (IsDigit radix) digits values ∧
            number = Nat.ofDigits radix (values.reverse ++ [value * radix + digit]) := by
      simp only [List.forall₂_cons_left_iff, ← digitValue?_eq_some_iff hradix]
      constructor
      · rintro ⟨_, ⟨digit, values, hdigit, hvalues, rfl⟩, rfl⟩
        refine ⟨digit, hdigit, values, hvalues, ?_⟩
        rw [← ofDigits_append_step, List.reverse_cons, List.append_assoc]
        rfl
      · rintro ⟨digit, hdigit, values, hvalues, rfl⟩
        refine ⟨_, ⟨digit, values, hdigit, hvalues, rfl⟩, ?_⟩
        rw [← ofDigits_append_step, List.reverse_cons, List.append_assoc]
        rfl
    rw [hcons, readFrom]
    cases hdigit : digitValue? radix c with
    | none => simp
    | some digit =>
      simp only [Option.some.injEq, exists_eq_left']
      split
      · rename_i hnext
        exact ih hnext
      · rename_i hnext
        -- a number that is too large only grows
        simp only [reduceCtorEq, false_iff, not_and]
        rintro hnumber ⟨values, -, rfl⟩
        have hle := le_ofDigits_append hpositive values.reverse (value * radix + digit)
        omega

/-- **Digits are read as the number that they write, if it is below the bound.** -/
theorem readDigits_eq_ok_iff {radix bound : Nat} (hradix : radix ≤ 16) (hpositive : 0 < radix)
    (hbound : 0 < bound) {digits : List Char} {number : Nat} :
    readDigits radix bound digits = .ok number ↔ number < bound ∧ Writes radix digits number := by
  cases digits with
  | nil => simp [readDigits, Writes]
  | cons c digits =>
    rw [readDigits, List.isEmpty_cons, if_neg Bool.false_ne_true,
      readFrom_eq_ok_iff hradix hpositive hbound]
    simp [Writes, Nat.ofDigits_append]

theorem Writes.isDigit {radix : Nat} {digits : List Char} {number : Nat}
    (h : Writes radix digits number) : ∀ c ∈ digits, ∃ value, IsDigit radix c value := by
  obtain ⟨-, values, hvalues, -⟩ := h
  induction hvalues with
  | nil => simp
  | cons hdigit _ ih => exact List.forall_mem_cons.mpr ⟨⟨_, hdigit⟩, ih⟩

theorem ofDigits_eq_zero_iff {radix : Nat} (hpositive : 0 < radix) {values : List Nat} :
    Nat.ofDigits radix values = 0 ↔ ∀ value ∈ values, value = 0 := by
  induction values with
  | nil => simp
  | cons value values ih =>
    rw [Nat.ofDigits_cons, List.forall_mem_cons, ← ih]
    simp [hpositive.ne']

/-- Zero is written with nothing but zeros. -/
theorem Writes.eq_zero_iff {digits : List Char} {number : Nat} (h : Writes 10 digits number) :
    number = 0 ↔ ∀ c ∈ digits, c = '0' := by
  obtain ⟨-, values, hvalues, rfl⟩ := h
  have hzero : ∀ value < 10, (value = 0 ↔ Nat.digitChar value = '0') ∧
      (value = 0 ↔ (Nat.digitChar value).toUpper = '0') := by
    decide
  rw [ofDigits_eq_zero_iff (by decide)]
  simp only [List.mem_reverse]
  induction hvalues with
  | nil => simp
  | @cons c value digits values hdigit _ ih =>
    rw [List.forall_mem_cons, List.forall_mem_cons]
    refine and_congr ?_ ih
    obtain ⟨hvalue, rfl | rfl⟩ := hdigit
    · exact (hzero value hvalue).1
    · exact (hzero value hvalue).2

instance (digits : List Char) (number : Nat) : Decidable (Writes 10 digits number) :=
  decidable_of_iff (readDigits 10 (number + 1) digits = .ok number) <| by
    rw [readDigits_eq_ok_iff (by decide) (by decide) (Nat.succ_pos number)]
    exact and_iff_right (Nat.lt_succ_self number)

theorem not_writes_cons {radix : Nat} (hradix : radix ≤ 16) {c : Char}
    (hc : digitValue? radix c = none) (digits : List Char) (number : Nat) :
    ¬ Writes radix (c :: digits) number := by
  intro h
  obtain ⟨value, hvalue⟩ := h.isDigit c List.mem_cons_self
  rw [(digitValue?_eq_some_iff hradix).mpr hvalue] at hc
  cases hc

/-- The text is a decimal numeral of the number, with or without a plus sign. -/
def WritesDecimal (text : List Char) (number : Nat) : Prop :=
  ∃ digits, (text = digits ∨ text = '+' :: digits) ∧ Writes 10 digits number

theorem readDecimal_eq_ok_iff {bound : Nat} (hbound : 0 < bound) {text : List Char}
    {number : Nat} :
    readDecimal bound text = .ok number ↔ number < bound ∧ WritesDecimal text number := by
  have hplus : ∀ digits, ¬ Writes 10 ('+' :: digits) number := fun digits =>
    not_writes_cons (by decide) (by decide) digits number
  have hempty : ¬ Writes 10 [] number := fun h => h.1 rfl
  unfold readDecimal WritesDecimal
  split
  · simp [hplus, hempty]
  · simp [hplus, readDigits_eq_ok_iff (by decide : 10 ≤ 16) (by decide) hbound]
  · rename_i _ hsign
    rw [readDigits_eq_ok_iff (by decide) (by decide) hbound]
    refine and_congr_right fun _ => ⟨fun h => ⟨text, .inl rfl, h⟩, ?_⟩
    rintro ⟨digits, rfl | rfl, h⟩
    · exact h
    · exact absurd rfl (hsign digits)

end FormsAudit.Numeral
