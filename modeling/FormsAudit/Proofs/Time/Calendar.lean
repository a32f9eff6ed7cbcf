import FormsAudit.Timestamp
import Mathlib.Tactic.Common
import Mathlib.Tactic.IntervalCases

/-!
# The calendar

A day of four hundred years lies in a century, in four years of that century, and in one of those
years; the last of each may be a day longer than the others.  The formula for the year is right
because the days that it takes off are the leap days that are over.  A date made of the number of a
day has that number again, and is a day that there is.
-/

namespace FormsAudit.Date

/-! ## The year of the era -/

/-- The year of the era in which its day `n` lies, as dates are made. -/
def yearOfEra (n : Nat) : Nat :=
  (n - n / 1460 + n / 36524 - n / 146096) / 365

/-- The days of the era before the year `y`. -/
def daysBefore (y : Nat) : Nat :=
  365 * y + y / 4 - y / 100

/-- The days of an era by centuries, fours of years, years and days. -/
theorem exists_eq_of_lt_era {n : Nat} (hn : n < 146097) : ∃ c q a d,
    n = 36524 * c + 1461 * q + (365 * a + d) ∧ c ≤ 3 ∧ q ≤ 24 ∧ a ≤ 3 ∧
      (d ≤ 364 ∨ d = 365 ∧ a = 3 ∧ (q < 24 ∨ c = 3)) := by
  obtain ⟨c, r, rfl, hc, hr⟩ : ∃ c r, n = 36524 * c + r ∧ c ≤ 3 ∧
      (r < 36524 ∨ r = 36524 ∧ c = 3) := by
    rcases Nat.lt_or_ge n 146096 with hlt | hge
    · exact ⟨n / 36524, n % 36524, by omega, by omega, by omega⟩
    · exact ⟨3, 36524, by omega, by omega, by omega⟩
  obtain ⟨q, s, rfl, hq, hs⟩ : ∃ q s, r = 1461 * q + s ∧ q ≤ 24 ∧
      (s < 1460 ∨ s = 1460 ∧ (q < 24 ∨ c = 3)) :=
    ⟨r / 1461, r % 1461, by omega, by omega, by omega⟩
  rcases hs with hs | ⟨rfl, hlast⟩
  · exact ⟨c, q, s / 365, s % 365, by omega, hc, hq, by omega, by omega⟩
  · exact ⟨c, q, 3, 365, by omega, hc, hq, Nat.le_refl 3, .inr ⟨rfl, rfl, hlast⟩⟩

/-- The leap days that are over, one in four years, as the day `n` tells them. -/
theorem div_1460_eq {c q r n : Nat} (hn : n = 36524 * c + 1461 * q + r) :
    n / 1460 = 25 * c + q + (24 * c + q + r) / 1460 := by
  have hsplit : n = (24 * c + q + r) + 1460 * (25 * c + q) := by omega
  rw [hsplit, Nat.add_mul_div_left _ _ (by decide), Nat.add_comm]

/-- Of the days of the year none or one is taken off, never more than there are. -/
theorem div_1460_le {c q a d : Nat} (hc : c ≤ 3) (hq : q ≤ 24) (ha : a ≤ 3)
    (hd : d ≤ 364 ∨ d = 365 ∧ a = 3 ∧ (q < 24 ∨ c = 3)) :
    (24 * c + q + (365 * a + d)) / 1460 ≤ d ∧
      d < 365 + (24 * c + q + (365 * a + d)) / 1460 := by
  rcases hd with hd | ⟨rfl, rfl, -⟩ <;> omega

/-- The centuries that are over, and one more on the last day of the era. -/
theorem div_36524_eq {c q a d n : Nat} (hn : n = 36524 * c + 1461 * q + (365 * a + d))
    (hc : c ≤ 3) (hq : q ≤ 24) (ha : a ≤ 3)
    (hd : d ≤ 364 ∨ d = 365 ∧ a = 3 ∧ (q < 24 ∨ c = 3)) :
    n / 36524 = c + n / 146096 := by
  rcases Nat.lt_or_ge n 146096 with hlt | hge
  · have hr : 1461 * q + (365 * a + d) < 36524 := by
      rcases hd with hd | ⟨rfl, rfl, hq' | rfl⟩ <;> omega
    rw [Nat.div_eq_of_lt hlt, hn, Nat.add_assoc, Nat.mul_add_div (by decide),
      Nat.div_eq_of_lt hr]
  · omega

theorem yearOfEra_eq {c q a d n : Nat} (hn : n = 36524 * c + 1461 * q + (365 * a + d))
    (hc : c ≤ 3) (hq : q ≤ 24) (ha : a ≤ 3)
    (hd : d ≤ 364 ∨ d = 365 ∧ a = 3 ∧ (q < 24 ∨ c = 3)) :
    yearOfEra n = 100 * c + 4 * q + a := by
  obtain ⟨hle, hlt⟩ := div_1460_le hc hq ha hd
  rw [yearOfEra, div_1460_eq hn, div_36524_eq hn hc hq ha hd]
  generalize (24 * c + q + (365 * a + d)) / 1460 = taken at hle hlt
  generalize n / 146096 = last
  have hnumerator : n - (25 * c + q + taken) + (c + last) - last =
      (d - taken) + 365 * (100 * c + 4 * q + a) := by
    clear hd
    omega
  have hrest : d - taken < 365 := by
    clear hd
    omega
  rw [hnumerator, Nat.add_mul_div_left _ _ (by decide), Nat.div_eq_of_lt hrest, Nat.zero_add]

/-- The day `n` of the era is a day of the year that it is said to lie in; it is one beyond the
365th only if the year, which begins in March, ends with a leap day. -/
theorem exists_dayOfYear {n : Nat} (hn : n < 146097) :
    ∃ y d, yearOfEra n = y ∧ y < 400 ∧ n = daysBefore y + d ∧
      (d ≤ 364 ∨ d = 365 ∧ (y + 1) % 4 = 0 ∧ ((y + 1) % 100 ≠ 0 ∨ (y + 1) % 400 = 0)) := by
  obtain ⟨c, q, a, d, heq, hc, hq, ha, hd⟩ := exists_eq_of_lt_era hn
  refine ⟨_, d, yearOfEra_eq heq hc hq ha hd, by omega, ?_, ?_⟩
  · have hfours : (100 * c + 4 * q + a) / 4 = 25 * c + q := by omega
    have hcenturies : (100 * c + 4 * q + a) / 100 = c := by omega
    rw [daysBefore, hfours, hcenturies, heq]
    omega
  · rcases hd with hd | ⟨hd, rfl, hlast⟩
    · exact .inl hd
    · exact .inr ⟨hd, by omega, by omega⟩

/-! ## The month of the year -/

/-- The date of the day `d` of the year `y` of an era, both counted from the first of March. -/
def ofEra (era : Int) (y d : Nat) : Date :=
  let shiftedMonth := (5 * d + 2) / 153
  let month := if shiftedMonth < 10 then shiftedMonth + 3 else shiftedMonth - 9
  let year := y + era * 400
  ⟨if month ≤ 2 then year + 1 else year, month, d - (153 * shiftedMonth + 2) / 5 + 1⟩

/-- Every day is a day of a year of an era. -/
theorem exists_ofDays_eq (days : Int) : ∃ (era : Int) (y d : Nat),
    ofDays days = ofEra era y d ∧ days = era * 146097 + ((daysBefore y : Int) + d) - 719468 ∧
      y < 400 ∧ (d ≤ 364 ∨
        d = 365 ∧ (y + 1) % 4 = 0 ∧ ((y + 1) % 100 ≠ 0 ∨ (y + 1) % 400 = 0)) := by
  obtain ⟨era, n, hera, hn, hdays⟩ : ∃ (era : Int) (n : Nat),
      (days + 719468).fdiv 146097 = era ∧ n < 146097 ∧ days + 719468 - era * 146097 = n := by
    refine ⟨_, (days + 719468 - (days + 719468).fdiv 146097 * 146097).toNat, rfl, ?_, ?_⟩
    · rw [Int.fdiv_eq_ediv_of_nonneg _ (by decide)]
      omega
    · rw [Int.fdiv_eq_ediv_of_nonneg _ (by decide)]
      omega
  obtain ⟨y, d, hyear, hy, hday, hd⟩ := exists_dayOfYear hn
  refine ⟨era, y, d, ?_, by omega, hy, hd⟩
  have hrest : n - (365 * y + y / 4 - y / 100) = d := by
    rw [daysBefore] at hday
    omega
  rw [yearOfEra] at hyear
  simp only [ofDays, hera, hdays, Int.toNat_natCast, hyear, hrest, ofEra]

/-- The month of a date, and the year that it lies in as years are counted from March. -/
theorem month_ofEra (era : Int) (y : Nat) {d : Nat} (hd : d ≤ 365) :
    ((ofEra era y d).month + 9) % 12 = (5 * d + 2) / 153 ∧
      (if (ofEra era y d).month ≤ 2 then (ofEra era y d).year - 1 else (ofEra era y d).year) =
        y + era * 400 := by
  have hmonth : (5 * d + 2) / 153 ≤ 11 := by omega
  simp only [ofEra]
  rcases Nat.lt_or_ge ((5 * d + 2) / 153) 10 with hlt | hge
  · simp only [if_pos hlt, show ¬ (5 * d + 2) / 153 + 3 ≤ 2 by omega, if_false, and_true]
    omega
  · simp only [if_neg (Nat.not_lt.mpr hge), show (5 * d + 2) / 153 - 9 ≤ 2 by omega, if_true]
    omega

theorem toDays_ofEra (era : Int) {y d : Nat} (hy : y < 400) (hd : d ≤ 365) :
    (ofEra era y d).toDays = era * 146097 + ((daysBefore y : Int) + d) - 719468 := by
  obtain ⟨hmonth, hyear⟩ := month_ofEra era y hd
  have hera : ((y : Int) + era * 400).fdiv 400 = era := by
    rw [Int.fdiv_eq_ediv_of_nonneg _ (by decide)]
    omega
  have hrest : (y : Int) + era * 400 - era * 400 = y := by omega
  have hday : (153 * ((5 * d + 2) / 153) + 2) / 5 ≤ d := by omega
  simp only [toDays, hyear, hera, hrest, hmonth]
  simp only [ofEra, daysBefore]
  omega

/-- **The date of a day has the number of the day.** -/
theorem toDays_ofDays (days : Int) : (ofDays days).toDays = days := by
  obtain ⟨era, y, d, hdate, hdays, hy, hd⟩ := exists_ofDays_eq days
  rw [hdate, toDays_ofEra era hy (by omega), ← hdays]

/-- The day of a date is one that its month has. -/
theorem day_ofEra_le (era : Int) {y d : Nat} (hd : d ≤ 364 ∨
    d = 365 ∧ (y + 1) % 4 = 0 ∧ ((y + 1) % 100 ≠ 0 ∨ (y + 1) % 400 = 0)) :
    (ofEra era y d).day ≤ daysInMonth (ofEra era y d).year (ofEra era y d).month := by
  obtain ⟨shiftedMonth, hmonth⟩ : ∃ m, (5 * d + 2) / 153 = m := ⟨_, rfl⟩
  have hle : shiftedMonth ≤ 11 := by omega
  simp only [ofEra, hmonth]
  rcases Nat.lt_or_ge shiftedMonth 11 with hlt | hge
  · have hrange : 153 * shiftedMonth ≤ 5 * d + 2 ∧ 5 * d + 2 < 153 * shiftedMonth + 153 := by
      omega
    clear hmonth hd
    interval_cases shiftedMonth <;> simp [daysInMonth] <;> omega
  · -- February
    obtain rfl : shiftedMonth = 11 := by omega
    rcases hd with hd | ⟨rfl, hfour, hhundred⟩
    · simp only [daysInMonth]
      split_ifs <;> omega
    · have hleap : isLeapYear (y + era * 400 + 1) = true := by
        have hemod : ∀ k : Int, (y + era * 400 + 1 : Int).emod k = (y + era * 400 + 1) % k :=
          fun _ => rfl
        simp only [isLeapYear, hemod, Bool.and_eq_true, Bool.or_eq_true, decide_eq_true_eq]
        omega
      simp [daysInMonth, hleap]

/-- **There is such a day as the date of a day**, unless its year is beyond the calendar. -/
theorem isValid_ofDays {days : Int} (hfirst : firstYear ≤ (ofDays days).year)
    (hlast : (ofDays days).year ≤ lastYear) : (ofDays days).isValid = true := by
  obtain ⟨era, y, d, hdate, -, hy, hd⟩ := exists_ofDays_eq days
  have hday := day_ofEra_le era hd
  have hmonth : 1 ≤ (ofEra era y d).month ∧ (ofEra era y d).month ≤ 12 := by
    simp only [ofEra]
    split_ifs <;> omega
  have hfirstDay : 1 ≤ (ofEra era y d).day := Nat.le_add_left 1 _
  rw [hdate] at hfirst hlast ⊢
  simp [isValid, hfirst, hlast, hday, hmonth, hfirstDay]

theorem bounds_of_isValid {date : Date} (h : date.isValid = true) :
    1 ≤ date.month ∧ date.month ≤ 12 ∧ 1 ≤ date.day ∧ date.day ≤ 31 := by
  have hdays : daysInMonth date.year date.month ≤ 31 := by
    unfold daysInMonth
    split_ifs <;> omega
  simp only [isValid, Bool.and_eq_true, decide_eq_true_eq] at h
  omega

end FormsAudit.Date
