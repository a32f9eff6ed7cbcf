import FormsAudit.Proofs.Time.Calendar
import FormsAudit.Proofs.Json.Lexeme

/-!
# Points in time that have been written

The text of a point in time is read as that point, as long as its year has at most four digits.
Each part of the text is a number with zeros in front, which is read as the number, and a mark.
-/

namespace FormsAudit.Timestamp

/-! ## Padded numbers -/

/-- The digits of `n`, with zeros in front up to the given width. -/
def padded (width n : Nat) : List Char :=
  List.replicate (width - (Nat.toDigits 10 n).length) '0' ++ Nat.toDigits 10 n

theorem toList_padLeft (width n : Nat) :
    (Numeral.padLeft width (toString n)).toList = padded width n := by
  simp only [Numeral.padLeft, padded, Nat.toString_eq_ofList_toDigits, String.toList_append,
    String.toList_ofList, String.length_ofList]

theorem length_padded {width n : Nat} (hwidth : 0 < width) (hn : n < 10 ^ width) :
    (padded width n).length = width := by
  have hle := (Nat.length_toDigits_le_iff (by decide) hwidth).mpr hn
  simp only [padded, List.length_append, List.length_replicate]
  omega

theorem padded_ne_nil (width n : Nat) : padded width n ≠ [] :=
  List.append_ne_nil_of_right_ne_nil _ Nat.toDigits_ne_nil

theorem ofDigitChars_padded (width n : Nat) : Nat.ofDigitChars 10 (padded width n) 0 = n := by
  rw [padded, Nat.ofDigitChars_append, Nat.ofDigitChars_replicate_zero, Nat.mul_zero,
    Nat.ofDigitChars_ten_toDigits]

theorem isDigit_of_mem_padded {width n : Nat} {c : Char} (h : c ∈ padded width n) :
    Json.isDigit c = true := by
  rcases List.mem_append.mp h with hzero | hdigit
  · rw [List.eq_of_mem_replicate hzero]
    rfl
  · exact Json.isDigit_of_mem_toDigits hdigit

theorem digit?_of_isDigit {c : Char} (h : Json.isDigit c = true) :
    digit? c = some (c.toNat - '0'.toNat) := by
  have hrange : '0' ≤ c ∧ c ≤ '9' := by simpa [Json.isDigit] using h
  have hlt : c.toNat - 48 < 10 := by
    have hle : c.toNat ≤ '9'.toNat := hrange.2
    have hnine : '9'.toNat = 57 := rfl
    omega
  simp [digit?, Numeral.digitValue?, hrange, hlt]

/-- Digits are read as the number that they make, if there are as many as are read at most, or none
follows them. -/
theorem readNumber_append {most : Option Nat} {digits rest : List Char} (hne : digits ≠ [])
    (hdigits : ∀ c ∈ digits, Json.isDigit c = true)
    (hmost : most = some digits.length ∨
      (∀ c ∈ rest.head?, digit? c = none) ∧ ∀ count ∈ most, digits.length ≤ count)
    (hvalue : Nat.ofDigitChars 10 digits 0 < 2 ^ 63) :
    readNumber most (digits ++ rest) = .ok (Nat.ofDigitChars 10 digits 0, rest) := by
  have hall : (digits ++ rest).takeWhile (fun c => (digit? c).isSome) =
      digits ++ rest.takeWhile (fun c => (digit? c).isSome) :=
    List.takeWhile_append_of_pos fun c hc => by simp [digit?_of_isDigit (hdigits c hc)]
  have hfold : digits.foldl (fun value c => value * 10 + (digit? c).getD 0) 0 =
      Nat.ofDigitChars 10 digits 0 := by
    rw [Nat.ofDigitChars_eq_foldl]
    refine List.foldl_ext _ _ _ fun value c hc => ?_
    rw [digit?_of_isDigit (hdigits c hc), Option.getD_some, Nat.mul_comm]
  have htaken : most.elim id List.take
      ((digits ++ rest).takeWhile fun c => (digit? c).isSome) = digits := by
    rw [hall]
    rcases hmost with rfl | ⟨hrest, hmost⟩
    · exact List.take_left
    · have hnone : rest.takeWhile (fun c => (digit? c).isSome) = [] := by
        cases rest with
        | nil => rfl
        | cons c rest => simp [hrest c rfl]
      rw [hnone, List.append_nil]
      cases most with
      | none => rfl
      | some count => exact List.take_of_length_le (hmost count rfl)
  have hbound : Nat.ofDigitChars 10 digits 0 < 0x8000000000000000 := hvalue
  obtain ⟨first, others, rfl⟩ := List.exists_cons_of_ne_nil hne
  cases most with
  | none =>
    simp only [Option.elim_none, id_eq] at htaken
    simp only [readNumber, htaken, hfold, if_pos hbound, List.drop_left]
  | some count =>
    simp only [Option.elim_some] at htaken
    simp only [readNumber, htaken, hfold, if_pos hbound, List.drop_left]

/-! ## The parts of the text -/

theorem isBlank_of_isDigit {c : Char} (h : Json.isDigit c = true) : Unicode.isBlank c = false := by
  have hrange : '0' ≤ c ∧ c ≤ '9' := by simpa [Json.isDigit] using h
  have hleast : 48 ≤ c.toNat := hrange.1
  have hmost : c.toNat ≤ 57 := hrange.2
  simp only [Unicode.isBlank, Unicode.Ranges.has, Unicode.blankRanges, List.any_eq_false]
  intro range hrange
  simp only [List.mem_cons, List.not_mem_nil, or_false] at hrange
  rcases hrange with rfl | rfl | rfl | rfl | rfl | rfl | rfl | rfl | rfl | rfl <;> simp <;> omega

/-- There is no blank before a padded number. -/
theorem trimStart_padded (width n : Nat) (rest : List Char) :
    Unicode.trimStart (padded width n ++ rest) = padded width n ++ rest := by
  obtain ⟨first, others, heq⟩ := List.exists_cons_of_ne_nil (padded_ne_nil width n)
  have hfirst : Json.isDigit first = true :=
    isDigit_of_mem_padded (heq ▸ List.mem_cons_self : first ∈ padded width n)
  rw [heq, List.cons_append, Unicode.trimStart,
    List.dropWhile_cons_of_neg (by simp [isBlank_of_isDigit hfirst])]

/-- A number of a fixed width is read whatever follows it. -/
theorem readNumber_padded {width n : Nat} (hwidth : 0 < width) (hn : n < 10 ^ width)
    (hbound : n < 2 ^ 63) (rest : List Char) :
    readNumber (some width) (padded width n ++ rest) = .ok (n, rest) := by
  have h := @readNumber_append (some width) (padded width n) rest (padded_ne_nil width n)
    (fun _ => isDigit_of_mem_padded) (.inl (congrArg some (length_padded hwidth hn).symm))
    (by rwa [ofDigitChars_padded])
  rwa [ofDigitChars_padded] at h

theorem readYear_padded {year : Nat} (hyear : year < 10000) (rest : List Char) :
    readYear (padded 4 year ++ rest) = .ok (year, rest) := by
  obtain ⟨first, others, heq⟩ := List.exists_cons_of_ne_nil (padded_ne_nil 4 year)
  have hfirst : Json.isDigit first = true :=
    isDigit_of_mem_padded (heq ▸ List.mem_cons_self : first ∈ padded 4 year)
  have hsign : first ≠ '-' ∧ first ≠ '+' := by
    constructor <;> rintro rfl <;> cases hfirst
  have hread := @readNumber_padded 4 year (by decide) hyear (by omega) rest
  have hrange : year < 2147483648 := by omega
  rw [readYear, trimStart_padded]
  rw [heq, List.cons_append] at hread ⊢
  split
  · next h => exact absurd (List.cons.inj h).1 hsign.1
  · next h => exact absurd (List.cons.inj h).1 hsign.2
  · simp [hread, Except.map, bind, Except.bind, hrange]

theorem readBetween_padded {least most n : Nat} (hleast : least ≤ n) (hmost : n ≤ most)
    (hn : n < 100) (rest : List Char) :
    readBetween least most (padded 2 n ++ rest) = .ok (n, rest) := by
  rw [readBetween, trimStart_padded, readNumber_padded (by decide) hn (by omega)]
  simp [bind, Except.bind, hleast, hmost]

theorem readMark_self {c : Char} (hc : Unicode.isBlank c = false) (rest : List Char) :
    readMark c (c :: rest) = .ok rest := by
  simp [readMark, Unicode.trimStart, hc]

theorem readFraction_padded {width n : Nat} (hwidth : 0 < width) (hmost : width ≤ 9)
    (hn : n < 10 ^ width) :
    readFraction ('.' :: (padded width n ++ ['Z'])) = .ok (n * 10 ^ (9 - width), ['Z']) := by
  have hbound : n < 2 ^ 63 := hn.trans_le
    ((Nat.pow_le_pow_right (by decide) hmost).trans (by decide))
  have hread : readNumber (some 9) (padded width n ++ ['Z']) = .ok (n, ['Z']) := by
    have h := @readNumber_append (some 9) (padded width n) ['Z'] (padded_ne_nil width n)
      (fun _ => isDigit_of_mem_padded)
      (.inr ⟨fun c hc => by cases hc; rfl, fun count hcount => by
        cases hcount
        rwa [length_padded hwidth hn]⟩)
      (by rwa [ofDigitChars_padded])
    rwa [ofDigitChars_padded] at h
  have hcount : (padded width n ++ ['Z']).length - ['Z'].length = width := by
    simp [length_padded hwidth hn]
  have hbehind : ['Z'].dropWhile (fun c => (digit? c).isSome) = ['Z'] := rfl
  simp only [readFraction, hread, bind, Except.bind, hcount, hbehind, Nat.pow_eq]

/-- The part of a second is read up to the letter behind it. -/
theorem readFraction_fractionText {nanoseconds : Nat} (h : nanoseconds < billion) :
    readFraction ((fractionText nanoseconds).toList ++ ['Z']) = .ok (nanoseconds, ['Z']) := by
  have hpoint : ∀ width n, ("." ++ Numeral.padLeft width (toString n)).toList ++ ['Z'] =
      '.' :: (padded width n ++ ['Z']) := by
    intro width n
    rw [String.toList_append, toList_padLeft]
    rfl
  rw [billion] at h
  unfold fractionText
  split_ifs with hzero hmillion hthousand
  · rw [hzero]
    rfl
  · rw [hpoint, readFraction_padded (by decide) (by decide) (by omega)]
    exact congrArg (fun n => Except.ok (n, ['Z'])) (by omega)
  · rw [hpoint, readFraction_padded (by decide) (by decide) (by omega)]
    exact congrArg (fun n => Except.ok (n, ['Z'])) (by omega)
  · rw [hpoint, readFraction_padded (by decide) (by decide) (by omega), Nat.sub_self, Nat.pow_zero,
      Nat.mul_one]

/-! ## The whole text -/

/-- A point in time whose year has at most four digits, and whose second counts a second thousand
million of nanoseconds only at the end of a minute. -/
structure Plain (time : Timestamp) : Prop where
  first_year : 0 ≤ (Date.ofDays (time.seconds.fdiv 86400)).year
  last_year : (Date.ofDays (time.seconds.fdiv 86400)).year ≤ 9999
  nanoseconds : time.nanoseconds < billion ∨
    time.seconds % 60 = 59 ∧ time.nanoseconds < 2 * billion

/-- The text of a date whose year has at most four digits. -/
theorem toList_toText_date {date : Date} (hfirst : 0 ≤ date.year) (hlast : date.year ≤ 9999) :
    date.toText.toList = padded 4 date.year.natAbs ++
      '-' :: (padded 2 date.month ++ '-' :: padded 2 date.day) := by
  have hyear : Date.yearText date.year = Numeral.padLeft 4 (toString date.year.natAbs) :=
    if_pos ⟨hfirst, hlast⟩
  have hself : ∀ s : String, toString s = s := fun _ => rfl
  simp only [Date.toText, Date.two, hyear, hself, String.toList_append, toList_padLeft,
    List.append_assoc]
  rfl

theorem toList_toText {time : Timestamp} (h : time.Plain) {date : Date}
    (hdate : Date.ofDays (time.seconds.fdiv 86400) = date) {ofDay : Nat}
    (hday : (time.seconds - time.seconds.fdiv 86400 * 86400).toNat = ofDay) :
    time.toText.toList = padded 4 date.year.natAbs ++
      '-' :: (padded 2 date.month ++ '-' :: (padded 2 date.day ++
        'T' :: (padded 2 (ofDay / 3600) ++ ':' :: (padded 2 (ofDay / 60 % 60) ++
          ':' :: (padded 2 (ofDay % 60 + time.nanoseconds / billion) ++
            ((fractionText (time.nanoseconds % billion)).toList ++ ['Z'])))))) := by
  subst hdate hday
  have hself : ∀ s : String, toString s = s := fun _ => rfl
  simp only [toText, Date.two, hself, String.toList_append, toList_padLeft,
    toList_toText_date h.first_year h.last_year, List.append_assoc, List.cons_append]
  rfl

/-- The second of the day at a point in time, and the second that is written for it. -/
theorem second_bounds {time : Timestamp} (h : time.Plain) {ofDay : Nat}
    (hday : (time.seconds - time.seconds.fdiv 86400 * 86400).toNat = ofDay) :
    time.seconds = time.seconds.fdiv 86400 * 86400 + ofDay ∧ ofDay < 86400 ∧
      (time.nanoseconds / billion = 0 ∨ time.nanoseconds / billion = 1 ∧ ofDay % 60 = 59) := by
  have hnanoseconds := h.nanoseconds
  rw [Int.fdiv_eq_ediv_of_nonneg _ (by decide)] at hday ⊢
  rw [billion] at hnanoseconds ⊢
  omega

theorem isValid_date {time : Timestamp} (h : time.Plain) :
    (Date.ofDays (time.seconds.fdiv 86400)).isValid = true := by
  have hfirst := h.first_year
  have hlast := h.last_year
  exact Date.isValid_ofDays (by rw [Date.firstYear]; omega) (by rw [Date.lastYear]; omega)

/-- The clock that shows a point in time shows it then. -/
theorem ofClock_ofDays {time : Timestamp} (h : time.Plain) {ofDay : Nat}
    (hday : (time.seconds - time.seconds.fdiv 86400 * 86400).toNat = ofDay) :
    ofClock (Date.ofDays (time.seconds.fdiv 86400)) (ofDay / 3600) (ofDay / 60 % 60)
      (ofDay % 60 + time.nanoseconds / billion) (time.nanoseconds % billion) 0 = .ok time := by
  obtain ⟨hseconds, hofDay, hnanoseconds⟩ := second_bounds h hday
  have hshown : (if ofDay % 60 + time.nanoseconds / billion = 60 then 59
      else ofDay % 60 + time.nanoseconds / billion) = ofDay % 60 := by
    split_ifs <;> omega
  have htotal : (time.seconds.fdiv 86400) * 86400 +
      ((ofDay / 3600 * 3600 + ofDay / 60 % 60 * 60 + ofDay % 60 : Nat) : Int) - 0 =
        time.seconds := by
    omega
  have hrest : (if ofDay % 60 + time.nanoseconds / billion = 60
      then time.nanoseconds % billion + billion else time.nanoseconds % billion) =
        time.nanoseconds := by
    have hsplit := Nat.div_add_mod time.nanoseconds billion
    split_ifs with hleap
    · have hone : time.nanoseconds / billion = 1 := by omega
      rw [hone] at hsplit
      omega
    · have hzero : time.nanoseconds / billion = 0 := by omega
      rw [hzero] at hsplit
      omega
  have hyear : ¬ ((Date.ofDays (time.seconds.fdiv 86400)).year < Date.firstYear ∨
      Date.lastYear < (Date.ofDays (time.seconds.fdiv 86400)).year) := by
    have hfirst := h.first_year
    have hlast := h.last_year
    rw [Date.firstYear, Date.lastYear]
    omega
  simp only [ofClock, isValid_date h, hshown, Date.toDays_ofDays, htotal, hrest, hyear, if_false]
  rfl

/-- **A point in time is read as it has been written.** -/
theorem parse_toText {time : Timestamp} (h : time.Plain) : parse time.toText = .ok time := by
  obtain ⟨date, hdate⟩ : ∃ date, Date.ofDays (time.seconds.fdiv 86400) = date := ⟨_, rfl⟩
  obtain ⟨ofDay, hday⟩ : ∃ ofDay, (time.seconds - time.seconds.fdiv 86400 * 86400).toNat = ofDay :=
    ⟨_, rfl⟩
  have htext := toList_toText h hdate hday
  have hclock := ofClock_ofDays h hday
  obtain ⟨hfirst, hlast⟩ := And.intro h.first_year h.last_year
  have hvalid := isValid_date h
  rw [hdate] at hclock hfirst hlast hvalid
  obtain ⟨hfirstMonth, hlastMonth, hfirstDay, hlastDay⟩ := Date.bounds_of_isValid hvalid
  obtain ⟨-, hofDay, hnanoseconds⟩ := second_bounds h hday
  have hyear : date.year.natAbs < 10000 := by omega
  have hnatAbs : ((date.year.natAbs : Nat) : Int) = date.year := Int.natAbs_of_nonneg hfirst
  have hhour : ofDay / 3600 ≤ 23 := by omega
  have hminute : ofDay / 60 % 60 ≤ 59 := by omega
  have hsecond : ofDay % 60 + time.nanoseconds / billion ≤ 60 := by omega
  have hzone : readZone (Unicode.trimStart ['Z']) = .ok (0, []) := rfl
  have hend : (!(Unicode.trimStart []).isEmpty) = false := rfl
  rw [parse, htext]
  -- each reader leaves what follows its part of the text
  simp only [readYear_padded hyear, bind, Except.bind,
    readMark_self (show Unicode.isBlank '-' = false from rfl),
    readMark_self (show Unicode.isBlank ':' = false from rfl),
    readBetween_padded hfirstMonth hlastMonth (by omega),
    readBetween_padded hfirstDay hlastDay (by omega),
    readBetween_padded (Nat.zero_le _) hhour (by omega),
    readBetween_padded (Nat.zero_le _) hminute (by omega),
    readBetween_padded (Nat.zero_le _) hsecond (by omega),
    readFraction_fractionText (Nat.mod_lt _ (show 0 < billion by decide)), hzone, hend,
    Bool.false_eq_true, if_false, hnatAbs]
  exact hclock

end FormsAudit.Timestamp
