import FormsAudit.Decimal.Shortest
import FormsAudit.Json.Cursor

/-!
# Words, texts and numbers of JSON

Each reader here takes the cursor at the first character of a lexeme, or behind its opening mark, and
gives what the lexeme says and the cursor behind it.  The readers that skip refuse less: they do
not ask whether an escape stands for a character, nor how large a number is.
-/

namespace FormsAudit.Json

/-! ## Words -/

/-- Reads the rest of a word such as `null`, once its first letter is known. -/
def readWord (cursor : Cursor) : List Char → Except Fault Cursor
  | [] => .ok cursor
  | expected :: word =>
    match cursor.rest with
    | [] => .error (cursor.broken .endInValue)
    | c :: rest =>
      if c = expected then readWord (cursor.after c rest) word
      else .error (cursor.brokenAhead .expectedWord)

/-! ## Texts -/

/-- Where the reader of a text stands. -/
inductive TextMode where
  | plain
  /-- After a backslash. -/
  | escaped
  /-- Inside a hexadecimal escape: the leading surrogate before it, if any, the bytes it still
  takes, and its value if all its digits are digits. -/
  | hex (leading : Option Nat) (left : Nat) (value : Option Nat)
  /-- After the hexadecimal escape of a leading surrogate. -/
  | paired (leading : Nat)
  /-- After the backslash that follows a leading surrogate. -/
  | pairedEscape (leading : Nat)
  deriving DecidableEq, Repr

/-- The character that a letter stands for after a backslash. -/
def escapeOf? (c : Char) : Option Char :=
  match c with
  | '"' => some '"'
  | '\\' => some '\\'
  | '/' => some '/'
  | 'b' => some '\x08'
  | 'f' => some '\x0c'
  | 'n' => some '\n'
  | 'r' => some '\r'
  | 't' => some '\t'
  | _ => none

/-- The value of a hexadecimal digit. -/
def hexDigit? (c : Char) : Option Nat :=
  if '0' ≤ c ∧ c ≤ '9' then some (c.toNat - '0'.toNat)
  else if 'a' ≤ c ∧ c ≤ 'f' then some (c.toNat - 'a'.toNat + 10)
  else if 'A' ≤ c ∧ c ≤ 'F' then some (c.toNat - 'A'.toNat + 10)
  else none

/-- What a complete hexadecimal escape leads to: a character, or the wait for a trailing
surrogate. -/
def endHex (leading : Option Nat) (value : Nat) : Except SyntaxFault (TextMode × List Char) :=
  match leading with
  | none =>
    if 0xDC00 ≤ value ∧ value ≤ 0xDFFF then .error .loneSurrogate
    else if 0xD800 ≤ value ∧ value ≤ 0xDBFF then .ok (.paired value, [])
    else .ok (.plain, [Char.ofNat value])
  | some first =>
    if 0xDC00 ≤ value ∧ value ≤ 0xDFFF then
      .ok (.plain, [Char.ofNat (0x10000 + (first - 0xD800) * 0x400 + (value - 0xDC00))])
    else .error .loneSurrogate

/-- Reads a text up to the quote that ends it.  With `strict` off the text is skipped. -/
def readTextFrom (strict : Bool) (mode : TextMode) (line column : Nat) :
    List Char → Except Fault (List Char × Cursor)
  | [] => .error (Cursor.broken ⟨line, column, []⟩ .endInText)
  | c :: rest =>
    let here : Cursor := ⟨line, column, c :: rest⟩
    let next := here.after c rest
    let go (mode : TextMode) (read : List Char) : Except Fault (List Char × Cursor) :=
      (readTextFrom strict mode next.line next.column rest).map fun (text, cursor) =>
        (read ++ text, cursor)
    match mode with
    | .plain =>
      if c = '"' then .ok ([], next)
      else if c = '\\' then go .escaped []
      else if c.toNat < 0x20 then
        .error ((if strict then next else here).broken .controlCharacter)
      else go .plain [c]
    | .escaped =>
      if c = 'u' then go (.hex none 4 (some 0)) []
      else
        match escapeOf? c with
        | some meant => go .plain [meant]
        | none => .error (here.brokenAhead .invalidEscape)
    | .hex leading left value =>
      let value := value.bind fun n => (hexDigit? c).map (n * 16 + ·)
      if c.utf8Size < left then go (.hex leading (left - c.utf8Size) value) []
      else
        let place : Cursor := if c = '\n' then next else ⟨line, column + left, rest⟩
        match value with
        | none => .error (place.broken .invalidEscape)
        | some n =>
          if strict then
            match endHex leading n with
            | .error fault => .error (place.broken fault)
            | .ok (mode, read) => go mode read
          else go .plain []
    | .paired leading =>
      if c = '\\' then go (.pairedEscape leading) []
      else .error (here.brokenAhead .endOfEscape)
    | .pairedEscape leading =>
      if c = 'u' then go (.hex (some leading) 4 (some 0)) []
      else .error (here.brokenAhead .endOfEscape)

/-- Reads a text, once its opening quote is behind the cursor. -/
def readText (cursor : Cursor) : Except Fault (String × Cursor) :=
  (readTextFrom true .plain cursor.line cursor.column cursor.rest).map fun (text, cursor) =>
    (String.ofList text, cursor)

/-- Skips a text, once its opening quote is behind the cursor. -/
def skipText (cursor : Cursor) : Except Fault Cursor :=
  (readTextFrom false .plain cursor.line cursor.column cursor.rest).map (·.2)

/-! ## Numbers -/

/-- Whether `c` is a decimal digit. -/
def isDigit (c : Char) : Bool :=
  '0' ≤ c && c ≤ '9'

/-- The digits at the cursor, and the cursor behind them. -/
def takeDigits (cursor : Cursor) : List Char × Cursor :=
  let digits := cursor.rest.takeWhile isDigit
  (digits, cursor.past digits (cursor.rest.dropWhile isDigit))

/-- The first number that does not fit into a word of 64 bits. -/
def wordBound : Nat := UInt64.size

/-- Appends digits to `value` as long as it stays below the bound; gives the number of digits that
did not fit as well. -/
def appendDigits (value : Nat) : List Char → Nat × Nat
  | [] => (value, 0)
  | c :: rest =>
    let next := value * 10 + (c.toNat - '0'.toNat)
    if next < wordBound then appendDigits next rest else (value, rest.length + 1)

/-- `value` times ten to the power `exponent`; nothing if that is too large.  An exponent beyond 308
is applied in parts. -/
def scaledByTen : Nat → Binary → Int → Option Binary
  | 0, value, _ => some value
  | fuel + 1, value, exponent =>
    if exponent.natAbs ≤ 308 then
      let power := Binary.powerOfTen exponent.natAbs
      let result := if 0 ≤ exponent then value.mul power else value.div power
      if result.isTooLarge then none else some result
    else if value.significand = 0 then some value
    else if 0 ≤ exponent then none
    else scaledByTen fuel (value.div (Binary.powerOfTen 308)) (exponent + 308)

/-- The number with the parts, placed at the cursor.  An exponent far below zero makes it zero, so
that the parts in which it is applied need not be many. -/
def decimalNumber (positive : Bool) (significand : Nat) (exponent : Int) (cursor : Cursor) :
    Except Fault (Number × Cursor) :=
  match scaledByTen 4 (.ofNat significand) (max exponent (-900)) with
  | none => .error (cursor.broken .numberTooLarge)
  | some value =>
    let text := value.toText
    .ok (.decimal (if positive then text else "-" ++ text), cursor)

/-- The first exponent that does not fit. -/
def exponentBound : Nat := 0x80000000

/-- Reads an exponent, once its letter is behind the cursor. -/
def readExponent (positive : Bool) (significand : Nat) (exponent : Int) (cursor : Cursor) :
    Except Fault (Number × Cursor) :=
  let (up, cursor) :=
    match cursor.rest with
    | '+' :: rest => (true, cursor.after '+' rest)
    | '-' :: rest => (false, cursor.after '-' rest)
    | _ => (true, cursor)
  match cursor.rest with
  | [] => .error (cursor.broken .endInValue)
  | c :: _ =>
    if isDigit c then
      let (digits, behind) := takeDigits cursor
      -- the digit that makes the exponent too large is where a large number is refused
      let fitting := digits.foldl (fun (state : Nat × Nat) digit =>
        let next := state.1 * 10 + (digit.toNat - '0'.toNat)
        if state.2 = 0 ∧ next < exponentBound then (next, 0) else (state.1, state.2 + 1)) (0, 0)
      if fitting.2 = 0 then
        let limit (e : Int) : Int := max (-(exponentBound : Int)) (min e (exponentBound - 1))
        decimalNumber positive significand
          (limit (if up then exponent + fitting.1 else exponent - fitting.1)) behind
      else if significand ≠ 0 ∧ up then
        let shown := digits.take (digits.length - fitting.2 + 1)
        .error ((cursor.past shown []).broken .numberTooLarge)
      else .ok (.decimal (if positive then "0.0" else "-0.0"), behind)
    else .error (cursor.brokenAhead .invalidNumber)

/-- Reads what follows the digits of a number with a point or an exponent. -/
def readScale (positive : Bool) (significand : Nat) (exponent : Int) (cursor : Cursor) :
    Except Fault (Number × Cursor) :=
  match cursor.rest with
  | 'e' :: rest => readExponent positive significand exponent (cursor.after 'e' rest)
  | 'E' :: rest => readExponent positive significand exponent (cursor.after 'E' rest)
  | _ => decimalNumber positive significand exponent cursor

/-- Reads the fraction, once the point is behind the cursor. -/
def readFraction (positive : Bool) (significand : Nat) (exponent : Int) (cursor : Cursor) :
    Except Fault (Number × Cursor) :=
  let (digits, behind) := takeDigits cursor
  if digits.isEmpty then
    .error (cursor.brokenAhead (if cursor.rest.isEmpty then .endInValue else .invalidNumber))
  else
    let (value, dropped) := appendDigits significand digits
    readScale positive value (exponent - (digits.length - dropped)) behind

/-- Reads a number, once its sign is behind the cursor. -/
def readNumber (positive : Bool) (cursor : Cursor) : Except Fault (Number × Cursor) :=
  match cursor.rest with
  | [] => .error (cursor.broken .endInValue)
  | first :: rest =>
    if !isDigit first then .error (cursor.brokenAhead .invalidNumber)
    else
      let (digits, behind) := takeDigits cursor
      if first = '0' && 1 < digits.length then
        .error ((cursor.after first rest).brokenAhead .invalidNumber)
      else
        let (value, dropped) := appendDigits 0 digits
        match behind.rest with
        | '.' :: rest => readFraction positive value dropped (behind.after '.' rest)
        | 'e' :: _ | 'E' :: _ => readScale positive value dropped behind
        | _ =>
          if dropped ≠ 0 then decimalNumber positive value dropped behind
          else if positive then .ok (.natural value, behind)
          else if value = 0 ∨ 0x8000000000000000 < value then decimalNumber false value 0 behind
          else .ok (.negative value, behind)

/-- Skips the exponent of a number, once its letter is behind the cursor. -/
def skipExponent (cursor : Cursor) : Except Fault Cursor :=
  let cursor :=
    match cursor.rest with
    | '+' :: rest => cursor.after '+' rest
    | '-' :: rest => cursor.after '-' rest
    | _ => cursor
  let (digits, behind) := takeDigits cursor
  if digits.isEmpty then .error (cursor.brokenAhead .invalidNumber) else .ok behind

/-- Skips a number, once its sign is behind the cursor. -/
def skipNumber (cursor : Cursor) : Except Fault Cursor :=
  let (digits, behind) := takeDigits cursor
  match digits with
  | [] => .error (cursor.brokenAhead .invalidNumber)
  | '0' :: _ :: _ => .error (Cursor.brokenAhead (cursor.past ['0'] ['0']) .invalidNumber)
  | _ =>
    match behind.rest with
    | 'e' :: rest | 'E' :: rest => skipExponent (behind.past ['e'] rest)
    | '.' :: rest =>
      let point := behind.after '.' rest
      let (fraction, behind) := takeDigits point
      if fraction.isEmpty then .error (point.brokenAhead .invalidNumber)
      else
        match behind.rest with
        | 'e' :: rest | 'E' :: rest => skipExponent (behind.past ['e'] rest)
        | _ => .ok behind
    | _ => .ok behind

end FormsAudit.Json
