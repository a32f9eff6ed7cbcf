/-!
# JSON values

A value as it is written: the fields of a record keep their order.  Numbers that are not whole are
known by their text alone, since nothing here computes with them.
-/

namespace FormsAudit.Json

/-- A number. -/
inductive Number where
  | natural (n : Nat)
  /-- A whole number below zero, by its distance from zero. -/
  | negative (n : Nat)
  /-- A number with a point or an exponent. -/
  | decimal (text : String)
  deriving DecidableEq, Repr

/-- A JSON value. -/
inductive Value where
  | null
  | boolean (b : Bool)
  | number (n : Number)
  | text (s : String)
  | list (items : List Value)
  | record (fields : List (String × Value))
  deriving Inhabited, Repr

namespace Value

/-- The value of the field, null where there is none. -/
def field (value : Value) (name : String) : Value :=
  match value with
  | record fields => (fields.lookup name).getD null
  | _ => null

/-- The text that the value is; nothing for anything else. -/
def asText : Value → String
  | text s => s
  | _ => ""

/-- The truth value that the value is; false for anything else. -/
def asBoolean : Value → Bool
  | boolean b => b
  | _ => false

/-- The natural number that the value is; zero for anything else. -/
def asNatural : Value → Nat
  | number (.natural n) => n
  | _ => 0

/-- The items of the list that the value is; none for anything else. -/
def items : Value → List Value
  | list items => items
  | _ => []

/-- The value, unless it is null. -/
def asOption : Value → Option Value
  | null => none
  | value => some value

end Value

end FormsAudit.Json
