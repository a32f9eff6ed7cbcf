import FormsAudit.Json.Value

/-!
# Writing JSON

Values are written with two spaces of indentation, one item or field a line.
-/

namespace FormsAudit.Json

/-- Two hexadecimal digits of a number below 256. -/
def twoHexDigits (n : Nat) : List Char :=
  [Nat.digitChar (n / 16), Nat.digitChar (n % 16)]

/-- A character as it is written inside a text. -/
def escapeChar (c : Char) : List Char :=
  if c = '"' then ['\\', '"']
  else if c = '\\' then ['\\', '\\']
  else if c = '\x08' then ['\\', 'b']
  else if c = '\x0c' then ['\\', 'f']
  else if c = '\n' then ['\\', 'n']
  else if c = '\r' then ['\\', 'r']
  else if c = '\t' then ['\\', 't']
  else if c.toNat < 0x20 then ['\\', 'u', '0', '0'] ++ twoHexDigits c.toNat
  else [c]

/-- A text between quotes. -/
def renderText (text : List Char) : List Char :=
  '"' :: text.flatMap escapeChar ++ ['"']

/-- A number. -/
def Number.render : Number → List Char
  | natural n => Nat.toDigits 10 n
  | negative n => '-' :: Nat.toDigits 10 n
  | decimal text => text.toList

/-- A new line, indented to the given depth. -/
def newLine (depth : Nat) : List Char :=
  '\n' :: List.replicate (2 * depth) ' '

mutual

/-- A value, at the given depth. -/
def Value.renderAt (depth : Nat) : Value → List Char
  | .null => ['n', 'u', 'l', 'l']
  | .boolean true => ['t', 'r', 'u', 'e']
  | .boolean false => ['f', 'a', 'l', 's', 'e']
  | .number n => n.render
  | .text s => renderText s.toList
  | .list [] => ['[', ']']
  | .list (item :: items) =>
    '[' :: newLine (depth + 1) ++ (item.renderAt (depth + 1) ++ renderItems depth items)
  | .record [] => ['\x7b', '\x7d']
  | .record ((name, value) :: fields) =>
    '\x7b' :: newLine (depth + 1) ++
      (renderText name.toList ++ [':', ' '] ++
        (value.renderAt (depth + 1) ++ renderFields depth fields))

/-- The further items of a list, and its end. -/
def renderItems (depth : Nat) : List Value → List Char
  | [] => newLine depth ++ [']']
  | item :: items =>
    ',' :: newLine (depth + 1) ++ (item.renderAt (depth + 1) ++ renderItems depth items)

/-- The further fields of a record, and its end. -/
def renderFields (depth : Nat) : List (String × Value) → List Char
  | [] => newLine depth ++ ['\x7d']
  | (name, value) :: fields =>
    ',' :: newLine (depth + 1) ++
      (renderText name.toList ++ [':', ' '] ++
        (value.renderAt (depth + 1) ++ renderFields depth fields))

end

/-- The text of a value. -/
def Value.render (value : Value) : String :=
  String.ofList (value.renderAt 0)

end FormsAudit.Json
