import FormsAudit.Decimal.Binary
import FormsAudit.Json.Value
import FormsAudit.Timestamp
import FormsAudit.Toml.Text

/-!
# Numbers, truth values and dates of TOML

A scalar without quotes is one run of characters, except that a date and a time may be parted by one
space.  Its kind is read off the whole run.
-/

namespace FormsAudit.Toml

open Json (Value)

/-- Whether `c` may stand in a scalar without quotes. -/
def isScalarChar (c : Char) : Bool :=
  c.isAlphanum || c = '_' || c = '-' || c = '+' || c = '.' || c = ':'

/-- The value of a digit of the radix. -/
def digitOf? (radix : Nat) (c : Char) : Option Nat :=
  (hexDigit? c).filter (· < radix)

/-- The number that digits make, with single underscores allowed between them. -/
def digitsValue? (radix : Nat) (value : Nat) (separated : Bool) : List Char → Option Nat
  | [] => if separated then none else some value
  | c :: rest =>
    if c = '_' then if separated then none else digitsValue? radix value true rest
    else (digitOf? radix c).bind fun digit => digitsValue? radix (value * radix + digit) false rest

/-- The number that at least one digit makes. -/
def natural? (radix : Nat) (text : List Char) : Option Nat :=
  match text with
  | [] => none
  | '_' :: _ => none
  | text => digitsValue? radix 0 false text

/-- A number without superfluous zeros in front. -/
def decimal? (text : List Char) : Option Nat :=
  match text with
  | '0' :: _ :: _ => none
  | text => natural? 10 text

/-- A sign and what follows it. -/
def splitSign (text : List Char) : Bool × List Char :=
  match text with
  | '-' :: rest => (true, rest)
  | '+' :: rest => (false, rest)
  | rest => (false, rest)

/-- The whole number that the text writes.  Numbers beyond the range of any integer type are not
numbers. -/
def integer? (text : List Char) : Option Value :=
  let unsigned (n : Option Nat) : Option Value :=
    (n.filter (· < Nat.pow 2 128)).map fun n => .number (.natural n)
  match text with
  | '0' :: 'x' :: digits => unsigned (natural? 16 digits)
  | '0' :: 'o' :: digits => unsigned (natural? 8 digits)
  | '0' :: 'b' :: digits => unsigned (natural? 2 digits)
  | text =>
    match splitSign text with
    | (true, digits) =>
      ((decimal? digits).filter (· ≤ Nat.pow 2 127)).map fun n =>
        if n = 0 then .number (.natural 0) else .number (.negative n)
    | (false, digits) => unsigned (decimal? digits)

/-- A number in decimal notation: `significand` times ten to the power `exponent`. -/
structure Decimal where
  significand : Nat
  exponent : Int
  deriving DecidableEq, Repr

/-- Whether the number is not too large for the 64-bit binary format. -/
def Decimal.isFinite (number : Decimal) : Bool :=
  let size := number.exponent + (toString number.significand).length
  if number.significand = 0 || size ≤ 308 then true
  else if 310 < size then false
  else
    let (num, den) := Binary.scale number.significand 10 number.exponent
    !(Binary.nearest num den).isTooLarge

/-- What the text behind the letter of an exponent adds to the exponent. -/
def exponent? (text : List Char) : Option Int :=
  let (isNegative, digits) := splitSign text
  (natural? 10 digits).map fun n => if isNegative then -(n : Int) else n

/-- The number with a point or an exponent that the text writes, its sign left out. -/
def decimalNotation? (text : List Char) : Option Decimal := do
  let body := (splitSign text).2
  let mantissa := body.takeWhile fun c => c != 'e' && c != 'E'
  let whole := mantissa.takeWhile (· != '.')
  let significand ← decimal? whole
  let number ←
    match mantissa.drop whole.length with
    | [] => some ⟨significand, 0⟩
    | _ :: digits =>
      let places := (digits.filter (· != '_')).length
      (natural? 10 digits).map fun n =>
        (⟨significand * Nat.pow 10 places + n, -(places : Int)⟩ : Decimal)
  match body.drop mantissa.length with
  | [] => if mantissa.length = whole.length then none else some number
  | _ :: digits =>
    (exponent? digits).map fun n => { number with exponent := number.exponent + n }

/-- Whether the text is a number with a point or an exponent that is not too large, or one of the
names of infinity and of what is no number. -/
def isFloat (text : List Char) : Bool :=
  let body := (splitSign text).2
  body = "inf".toList || body = "nan".toList ||
    ((decimalNotation? text).map Decimal.isFinite).getD false

/-- The number that exactly so many digits make. -/
def fixed? (count : Nat) (text : List Char) : Option (Nat × List Char) :=
  let digits := text.take count
  if digits.length = count then
    (natural? 10 (digits.filter Char.isDigit)).filter (fun _ => digits.all Char.isDigit) |>.map
      (·, text.drop count)
  else none

/-- A date, and what follows it. -/
def date? (text : List Char) : Option (List Char) :=
  match fixed? 4 text with
  | some (year, '-' :: rest) =>
    match fixed? 2 rest with
    | some (month, '-' :: rest) =>
      (fixed? 2 rest).bind fun (day, rest) =>
        if (⟨year, month, day⟩ : Date).isValid then some rest else none
    | _ => none
  | _ => none

/-- The part of a second, if a point comes first, and what follows it. -/
def fraction? (text : List Char) : Option (List Char) :=
  match text with
  | '.' :: rest =>
    let digits := rest.takeWhile Char.isDigit
    if digits.isEmpty then none else some (rest.drop digits.length)
  | text => some text

/-- A time of day, with or without seconds, and what follows it. -/
def time? (text : List Char) : Option (List Char) :=
  match fixed? 2 text with
  | some (hour, ':' :: rest) =>
    (fixed? 2 rest).bind fun (minute, rest) =>
      if 23 < hour ∨ 59 < minute then none
      else
        match rest with
        | ':' :: rest =>
          (fixed? 2 rest).bind fun (second, rest) => if 60 < second then none else fraction? rest
        | rest => some rest
  | _ => none

/-- Whether the text is a distance from universal time. -/
def isOffset (text : List Char) : Bool :=
  match text with
  | ['Z'] | ['z'] => true
  | sign :: rest =>
    (sign = '+' || sign = '-') &&
      match fixed? 2 rest with
      | some (hour, ':' :: rest) =>
        match fixed? 2 rest with
        | some (minute, []) => hour ≤ 23 && minute ≤ 59
        | _ => false
      | _ => false
  | [] => false

/-- Whether the text is a date, a time, or both. -/
def isDateTime (text : List Char) : Bool :=
  match date? text with
  | some [] => true
  | some (mark :: rest) =>
    (mark = 'T' || mark = 't' || mark = ' ') &&
      match time? rest with
      | some behind => behind.isEmpty || isOffset behind
      | none => false
  | none => time? text = some []

/-- The name of the only field of a date, seen as a record. -/
def dateField : String := "$__toml_private_datetime"

/-- The value that a scalar without quotes writes. -/
def scalarOf? (text : List Char) : Option Value :=
  if text = "true".toList then some (.boolean true)
  else if text = "false".toList then some (.boolean false)
  else
    match integer? text with
    | some value => some value
    | none =>
      if isFloat text then some (.number (.decimal (String.ofList text)))
      else if isDateTime text then some (.record [(dateField, .text (String.ofList text))])
      else none

/-- Reads a scalar without quotes. -/
def readScalar? (text : List Char) : Option (Value × List Char) :=
  let run := text.takeWhile isScalarChar
  let rest := text.drop run.length
  match rest with
  | ' ' :: more =>
    let time := more.takeWhile isScalarChar
    if date? run = some [] ∧ (time.head?.any Char.isDigit) then
      (scalarOf? (run ++ ' ' :: time)).map (·, more.drop time.length)
    else (scalarOf? run).map (·, rest)
  | _ => (scalarOf? run).map (·, rest)

end FormsAudit.Toml
