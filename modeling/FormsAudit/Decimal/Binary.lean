/-!
# Binary numbers of limited precision

Numbers of 53 significant bits, as the 64-bit binary format has them, without sign and without an
upper bound on the exponent.  Every operation gives the number nearest to the exact result, of two
the one with an even significand.
-/

namespace FormsAudit

/-- The number `significand` times two to the power `exponent`. -/
structure Binary where
  significand : Nat
  exponent : Int
  deriving DecidableEq, Repr

namespace Binary

/-- The number of significant bits. -/
def precision : Nat := 53

/-- The least exponent. -/
def leastExponent : Int := -1074

/-- The greatest exponent of a finite number of the format. -/
def greatestExponent : Int := 971

def zero : Binary := ⟨0, leastExponent⟩

/-- `num / den` rounded to a whole number, a half to the even neighbour. -/
def roundQuotient (num den : Nat) : Nat :=
  let down := num / den
  let twice := 2 * (num % den)
  if twice < den then down
  else if den < twice then down + 1
  else if down % 2 = 0 then down
  else down + 1

/-- `n` times `base` to the power `exponent`, as a quotient. -/
def scale (n base : Nat) (exponent : Int) : Nat × Nat :=
  if 0 ≤ exponent then (n * base.pow exponent.toNat, 1) else (n, base.pow (-exponent).toNat)

/-- The number as a quotient. -/
def toQuotient (x : Binary) : Nat × Nat :=
  scale x.significand 2 x.exponent

/-- An exponent for which the quotient has a significand of full precision, or one bit more. -/
def exponentFor (num den : Nat) : Int :=
  max leastExponent ((Nat.log2 num : Int) - Nat.log2 den - precision)

/-- The nearest number with a given exponent. -/
def atExponent (num den : Nat) (exponent : Int) : Binary :=
  let (up, down) := scale 1 2 exponent
  ⟨roundQuotient (num * down) (den * up), exponent⟩

/-- The number nearest to `num / den`. -/
def nearest (num den : Nat) : Binary :=
  if num = 0 then zero
  else
    let exponent := exponentFor num den
    let first := atExponent num den exponent
    -- a significand with a bit too many is rounded again from the quotient, not from itself
    if first.significand < Nat.pow 2 precision then first
    else
      let second := atExponent num den (exponent + 1)
      if second.significand < Nat.pow 2 precision then second
      else atExponent num den (exponent + 2)

def ofNat (n : Nat) : Binary := nearest n 1

def add (x y : Binary) : Binary :=
  let (a, b) := x.toQuotient
  let (c, d) := y.toQuotient
  nearest (a * d + c * b) (b * d)

def mul (x y : Binary) : Binary :=
  let (a, b) := x.toQuotient
  let (c, d) := y.toQuotient
  nearest (a * c) (b * d)

/-- The quotient of two numbers, zero where the divisor is zero. -/
def div (x y : Binary) : Binary :=
  let (a, b) := x.toQuotient
  let (c, d) := y.toQuotient
  if c = 0 then zero else nearest (a * d) (b * c)

/-- The whole part. -/
def floor (x : Binary) : Nat :=
  let (a, b) := x.toQuotient
  a / b

/-- What is left of the number when `n` has been taken away as often as possible. -/
def mod (x : Binary) (n : Nat) : Binary :=
  let (a, b) := x.toQuotient
  nearest (a % (n * b)) b

/-- The number nearest to a power of ten. -/
def powerOfTen (exponent : Nat) : Binary := ofNat (Nat.pow 10 exponent)

/-- Whether the number is too large for the format. -/
def isTooLarge (x : Binary) : Bool := greatestExponent < x.exponent

/-- The number with the given number of decimals, a half to the even digit. -/
def toFixed (x : Binary) (decimals : Nat) : String :=
  let (a, b) := x.toQuotient
  let unit := Nat.pow 10 decimals
  let scaled := roundQuotient (a * unit) b
  let fraction := toString (scaled % unit)
  let zeros := String.ofList (List.replicate (decimals - fraction.length) '0')
  s!"{scaled / unit}.{zeros}{fraction}"

end Binary

end FormsAudit
