/-!
# Numerals of bounded size

Digits are read one after the other, and the first that is no digit or makes the number too large
decides what is wrong.
-/

namespace FormsAudit.Numeral

/-- Why a text is no numeral. -/
inductive Fault where
  | empty
  | invalidDigit
  | tooLarge
  deriving DecidableEq, Repr

/-- The fault in words. -/
def Fault.message : Fault → String
  | .empty => "cannot parse integer from empty string"
  | .invalidDigit => "invalid digit found in string"
  | .tooLarge => "number too large to fit in target type"

/-- The value of a digit, letters of either case standing for the digits from ten on. -/
def digitValue? (radix : Nat) (c : Char) : Option Nat :=
  let value? :=
    if '0' ≤ c ∧ c ≤ '9' then some (c.toNat - '0'.toNat)
    else if 'a' ≤ c ∧ c ≤ 'z' then some (c.toNat - 'a'.toNat + 10)
    else if 'A' ≤ c ∧ c ≤ 'Z' then some (c.toNat - 'A'.toNat + 10)
    else none
  value?.filter (· < radix)

/-- The number below `bound` that the digits make after those that made `value`. -/
def readFrom (radix bound : Nat) (value : Nat) : List Char → Except Fault Nat
  | [] => .ok value
  | c :: rest =>
    match digitValue? radix c with
    | none => .error .invalidDigit
    | some digit =>
      let next := value * radix + digit
      if next < bound then readFrom radix bound next rest else .error .tooLarge

/-- The number below `bound` that the digits make. -/
def readDigits (radix bound : Nat) (digits : List Char) : Except Fault Nat :=
  if digits.isEmpty then .error .empty else readFrom radix bound 0 digits

/-- The number below `bound` that a decimal numeral with or without a plus sign stands for. -/
def readDecimal (bound : Nat) : List Char → Except Fault Nat
  | ['+'] => .error .invalidDigit
  | '+' :: digits => readDigits 10 bound digits
  | digits => readDigits 10 bound digits

/-- `n` in hexadecimal with capital letters. -/
def upperHex (n : Nat) : String :=
  String.ofList ((Nat.toDigits 16 n).map fun c => if 'a' ≤ c ∧ c ≤ 'f' then c.toUpper else c)

/-- `text` with zeros in front, up to `width` characters. -/
def padLeft (width : Nat) (text : String) : String :=
  String.ofList (List.replicate (width - text.length) '0') ++ text

end FormsAudit.Numeral
