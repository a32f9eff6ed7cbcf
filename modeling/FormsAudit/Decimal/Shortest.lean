import FormsAudit.Decimal.Binary

/-!
# The shortest decimal of a binary number

A binary number stands for all numbers nearer to it than to its neighbours.  Among the decimals in
that interval the shortest is wanted, and of the shortest the nearest.  The arithmetic is exact, on
quotients of natural numbers.
-/

namespace FormsAudit

/-- The number `digits` times ten to the power `exponent`. -/
structure Decimal where
  digits : Nat
  exponent : Int
  deriving DecidableEq, Repr

namespace Binary

/-- The largest `e` with ten to the power `e` not above `num / den`, for a positive quotient. -/
def decimalExponent (num den : Nat) : Int :=
  if den ≤ num then ((Nat.toDigits 10 (num / den)).length : Int) - 1
  else
    let lift := ((List.range 400).find? (den ≤ num * Nat.pow 10 ·)).getD 400
    Int.negOfNat lift

/-- Whether the neighbour below lies at half the distance of the one above. -/
def isNarrowBelow (x : Binary) : Bool :=
  x.significand = Nat.pow 2 (precision - 1) && leastExponent < x.exponent

/-- Whether `candidate` lies in the interval of `x`.  The quotients have the denominator four, since
a bound lies a half or a quarter of a unit away. -/
def covers (x : Binary) (candidate : Decimal) : Bool :=
  let (num, den) := scale candidate.digits 10 candidate.exponent
  let (low, unit) := scale (4 * x.significand - if x.isNarrowBelow then 1 else 2) 2 x.exponent
  let (high, _) := scale (4 * x.significand + 2) 2 x.exponent
  let value := 4 * num * unit
  if x.significand % 2 = 0 then low * den ≤ value && value ≤ high * den
  else low * den < value && value < high * den

/-- How far `candidate` is from `x`, on a scale that depends on the grid alone. -/
def distance (x : Binary) (candidate : Decimal) : Nat :=
  let (num, den) := scale candidate.digits 10 candidate.exponent
  let (value, unit) := x.toQuotient
  (num * unit - value * den) + (value * den - num * unit)

/-- The nearest decimal of at most `count` digits in the interval of `x`, if there is one. -/
def ofCount? (x : Binary) (count : Nat) : Option Decimal :=
  let (num, den) := x.toQuotient
  let grid := decimalExponent num den + 1 - count
  let (ten, one) := scale 1 10 grid
  let below := num * one / (den * ten)
  let candidates := ([below, below + 1].map fun digits => (⟨digits, grid⟩ : Decimal)).filter
    fun candidate => candidate.digits != 0 && x.covers candidate
  match candidates with
  | [first, second] => if x.distance first ≤ x.distance second then some first else some second
  | [only] => some only
  | _ => none

/-- The shortest decimal in the interval of a positive number. -/
def shortest (x : Binary) : Decimal :=
  ((List.range 17).findSome? fun n => x.ofCount? (n + 1)).getD ⟨0, 0⟩

end Binary

namespace Decimal

/-- How a decimal is written: positionally where the exponent of its first digit lies between the
bounds, else with an exponent of at least two digits. -/
structure Style where
  leastPositional : Int
  mostPositional : Int

/-- The style of numbers in messages. -/
def Style.message : Style := ⟨-5, 15⟩

/-- The decimal in the given style, always with a point where it is written positionally. -/
def write (style : Style) (x : Decimal) : String :=
  let digits := (Nat.toDigits 10 x.digits).reverse.dropWhile (· = '0') |>.reverse
  let lead := x.exponent + (Nat.toDigits 10 x.digits).length - 1
  if style.leastPositional ≤ lead ∧ lead ≤ style.mostPositional then
    if lead < 0 then
      "0." ++ String.ofList (List.replicate (-lead - 1).toNat '0' ++ digits)
    else
      let whole := lead.toNat + 1
      let padded := digits ++ List.replicate (whole - digits.length) '0'
      let fraction := if padded.length = whole then ['0'] else padded.drop whole
      String.ofList (padded.take whole ++ '.' :: fraction)
  else
    let mantissa :=
      match digits with
      | [] => ['0']
      | [digit] => [digit]
      | digit :: rest => digit :: '.' :: rest
    let sign := if lead < 0 then "e-" else "e+"
    let power := toString lead.natAbs
    String.ofList mantissa ++ sign ++ (if power.length < 2 then "0" ++ power else power)

end Decimal

/-- The number in messages. -/
def Binary.toText (x : Binary) : String :=
  if x.significand = 0 then "0.0" else x.shortest.write .message

end FormsAudit
