import FormsAudit.Text.Numeral
import FormsAudit.Unicode.Blank

/-!
# Points in time

A point in time counts the seconds since the beginning of 1970 and the nanoseconds within the second.
A leap second is the second before it with another thousand million nanoseconds.  Dates follow the
Gregorian calendar, also before there was one.
-/

namespace FormsAudit

/-- A point in time. -/
structure Timestamp where
  seconds : Int
  nanoseconds : Nat
  deriving DecidableEq, Repr

/-- A date of the Gregorian calendar. -/
structure Date where
  year : Int
  month : Nat
  day : Nat
  deriving DecidableEq, Repr

namespace Date

/-- Whether the year has a 29th of February. -/
def isLeapYear (year : Int) : Bool :=
  year.emod 4 = 0 && (year.emod 100 ≠ 0 || year.emod 400 = 0)

/-- The number of days of the month. -/
def daysInMonth (year : Int) (month : Nat) : Nat :=
  if month = 2 then (if isLeapYear year then 29 else 28)
  else if month = 4 ∨ month = 6 ∨ month = 9 ∨ month = 11 then 30
  else 31

/-- The first and the last year of the calendar. -/
def firstYear : Int := -262143

def lastYear : Int := 262142

/-- Whether there is such a day. -/
def isValid (date : Date) : Bool :=
  firstYear ≤ date.year && date.year ≤ lastYear && 1 ≤ date.month && date.month ≤ 12 &&
    1 ≤ date.day && date.day ≤ daysInMonth date.year date.month

/-- The number of days from the beginning of 1970.  Years are counted from March here, so that the
leap day comes last; four hundred years have 146097 days. -/
def toDays (date : Date) : Int :=
  let year := if date.month ≤ 2 then date.year - 1 else date.year
  let era := year.fdiv 400
  let ofEra := year - era * 400
  let month := (date.month + 9) % 12
  let ofYear : Int := (153 * month + 2) / 5 + date.day - 1
  era * 146097 + (ofEra * 365 + ofEra / 4 - ofEra / 100 + ofYear) - 719468

/-- The date of the day with the given number. -/
def ofDays (days : Int) : Date :=
  let shifted := days + 719468
  let era := shifted.fdiv 146097
  let ofEra := (shifted - era * 146097).toNat
  let yearOfEra := (ofEra - ofEra / 1460 + ofEra / 36524 - ofEra / 146096) / 365
  let ofYear := ofEra - (365 * yearOfEra + yearOfEra / 4 - yearOfEra / 100)
  let shiftedMonth := (5 * ofYear + 2) / 153
  let day := ofYear - (153 * shiftedMonth + 2) / 5 + 1
  let month := if shiftedMonth < 10 then shiftedMonth + 3 else shiftedMonth - 9
  let year := yearOfEra + era * 400
  ⟨if month ≤ 2 then year + 1 else year, month, day⟩

/-- The year as it is written: four digits, and a sign where that is not enough. -/
def yearText (year : Int) : String :=
  let digits := Numeral.padLeft 4 (toString year.natAbs)
  if 0 ≤ year ∧ year ≤ 9999 then digits
  else if year < 0 then "-" ++ digits
  else "+" ++ Numeral.padLeft 5 (toString year.natAbs)

/-- Two digits. -/
def two (n : Nat) : String := Numeral.padLeft 2 (toString n)

/-- The date as it is written. -/
def toText (date : Date) : String :=
  s!"{yearText date.year}-{two date.month}-{two date.day}"

end Date

namespace Timestamp

/-- A thousand million. -/
def billion : Nat := 1000000000

/-- The part of a second as it is written: no digits, or as few groups of three as tell it. -/
def fractionText (nanoseconds : Nat) : String :=
  if nanoseconds = 0 then ""
  else if nanoseconds % 1000000 = 0 then
    "." ++ Numeral.padLeft 3 (toString (nanoseconds / 1000000))
  else if nanoseconds % 1000 = 0 then "." ++ Numeral.padLeft 6 (toString (nanoseconds / 1000))
  else "." ++ Numeral.padLeft 9 (toString nanoseconds)

/-- The point in time as it is written. -/
def toText (time : Timestamp) : String :=
  let days := time.seconds.fdiv 86400
  let ofDay := (time.seconds - days * 86400).toNat
  let second := ofDay % 60 + time.nanoseconds / billion
  let clock := s!"{Date.two (ofDay / 3600)}:{Date.two (ofDay / 60 % 60)}:{Date.two second}"
  s!"{(Date.ofDays days).toText}T{clock}{fractionText (time.nanoseconds % billion)}Z"

/-! ## Reading -/

/-- Why a text is no point in time. -/
inductive Fault where
  | outOfRange
  | impossible
  | invalid
  | tooShort
  | tooLong
  deriving DecidableEq, Repr

/-- The fault in words. -/
def Fault.message : Fault → String
  | outOfRange => "input is out of range"
  | impossible => "no possible date and time matching input"
  | invalid => "input contains invalid characters"
  | tooShort => "premature end of input"
  | tooLong => "trailing input"

/-- The value of a decimal digit. -/
def digit? (c : Char) : Option Nat := Numeral.digitValue? 10 c

/-- The number that at most `most` digits make, below the bound of 63 bits, and the rest. -/
def readNumber (most : Option Nat) (text : List Char) : Except Fault (Nat × List Char) :=
  let all := text.takeWhile fun c => (digit? c).isSome
  let digits := match most with
    | some count => all.take count
    | none => all
  match digits with
  | [] => .error (if text.isEmpty then .tooShort else .invalid)
  | _ =>
    let value := digits.foldl (fun value c => value * 10 + (digit? c).getD 0) 0
    if value < 0x8000000000000000 then .ok (value, text.drop digits.length) else .error .outOfRange

/-- Reads a number between two bounds. -/
def readBetween (least most : Nat) (text : List Char) : Except Fault (Nat × List Char) := do
  let (value, rest) ← readNumber (some 2) (Unicode.trimStart text)
  if least ≤ value ∧ value ≤ most then .ok (value, rest) else .error .outOfRange

/-- Reads a year, which may have a sign and then any number of digits. -/
def readYear (text : List Char) : Except Fault (Int × List Char) := do
  let (year, rest) ← (match Unicode.trimStart text with
    | '-' :: rest => (readNumber none rest).map fun (n, rest) => (-(n : Int), rest)
    | '+' :: rest => (readNumber none rest).map fun (n, rest) => ((n : Int), rest)
    | rest => (readNumber (some 4) rest).map fun (n, rest) => ((n : Int), rest))
  if -0x80000000 ≤ year ∧ year < 0x80000000 then .ok (year, rest) else .error .outOfRange

/-- Reads a character, blanks before it skipped. -/
def readMark (c : Char) (text : List Char) : Except Fault (List Char) :=
  match Unicode.trimStart text with
  | [] => .error .tooShort
  | found :: rest => if found = c then .ok rest else .error .invalid

/-- Reads the part of a second, of which nine digits count. -/
def readFraction (text : List Char) : Except Fault (Nat × List Char) :=
  match text with
  | '.' :: rest => do
    let (value, behind) ← readNumber (some 9) rest
    let count := rest.length - behind.length
    .ok (value * Nat.pow 10 (9 - count), behind.dropWhile fun c => (digit? c).isSome)
  | _ => .ok (0, text)

/-- Reads two digits of an offset. -/
def readTwoDigits (text : List Char) : Except Fault (Nat × Nat × List Char) :=
  match text with
  | [] => .error .tooShort
  | [c] => .error (if 1 < c.utf8Size then .invalid else .tooShort)
  | first :: second :: rest =>
    match digit? first, digit? second with
    | some a, some b => .ok (a, b, rest)
    | _, _ => .error .invalid

/-- Reads the distance from universal time, in seconds. -/
def readOffset (text : List Char) : Except Fault (Int × List Char) :=
  let hoursAndMinutes (sign : Int) (text : List Char) : Except Fault (Int × List Char) := do
    let (a, b, rest) ← readTwoDigits text
    let (c, d, rest) ← readTwoDigits (rest.dropWhile fun c => c = ':' || Unicode.isBlank c)
    if 6 ≤ c then .error .outOfRange
    else .ok (sign * (((a * 10 + b) * 3600 + (c * 10 + d) * 60 : Nat) : Int), rest)
  match text with
  | 'Z' :: rest | 'z' :: rest => .ok (0, rest)
  | '+' :: rest => hoursAndMinutes 1 rest
  | '-' :: rest | '−' :: rest => hoursAndMinutes (-1) rest
  | [] => .error .tooShort
  | _ => .error .invalid

/-- Reads a distance from universal time, or the name of universal time itself. -/
def readZone (text : List Char) : Except Fault (Int × List Char) :=
  if (text.take 3).map Char.toUpper = ['U', 'T', 'C'] then .ok (0, text.drop 3)
  else readOffset text

/-- The point in time at which a clock shows the given time, that many seconds off universal
time. -/
def ofClock (date : Date) (hour minute second nanoseconds : Nat) (offset : Int) :
    Except Fault Timestamp :=
  if !date.isValid ∨ 86400 ≤ offset.natAbs then .error .outOfRange
  else
    let leap := second = 60
    let shown := if leap then 59 else second
    let seconds := date.toDays * 86400 + (hour * 3600 + minute * 60 + shown : Nat) - offset
    let year := (Date.ofDays (seconds.fdiv 86400)).year
    if year < Date.firstYear ∨ Date.lastYear < year then .error .impossible
    else .ok ⟨seconds, if leap then nanoseconds + billion else nanoseconds⟩

/-- The point in time that the text stands for. -/
def parse (text : String) : Except Fault Timestamp := do
  let (year, rest) ← readYear text.toList
  let rest ← readMark '-' rest
  let (month, rest) ← readBetween 1 12 rest
  let rest ← readMark '-' rest
  let (day, rest) ← readBetween 1 31 rest
  let rest ← (match rest with
    | 'T' :: rest | 't' :: rest | ' ' :: rest => .ok rest
    | [] => .error .tooShort
    | _ => .error .invalid)
  let (hour, rest) ← readBetween 0 23 rest
  let rest ← readMark ':' rest
  let (minute, rest) ← readBetween 0 59 rest
  let rest ← readMark ':' rest
  let (second, rest) ← readBetween 0 60 rest
  let (nanoseconds, rest) ← readFraction rest
  let (offset, rest) ← readZone (Unicode.trimStart rest)
  if !(Unicode.trimStart rest).isEmpty then .error .tooLong
  else ofClock ⟨year, month, day⟩ hour minute second nanoseconds offset

end Timestamp

end FormsAudit
