/-!
# Texts and blanks of TOML

Every reader here takes what is left of a document and gives what it read and what is left then, or
nothing where the document breaks the grammar.
-/

namespace FormsAudit.Toml

/-! ## Blanks and comments -/

/-- Whether `c` is a blank inside a line. -/
def isBlank (c : Char) : Bool := c = ' ' || c = '\t'

/-- Whether `c` may stand in a comment or a text: control characters other than the tab may not. -/
def isPlain (c : Char) : Bool :=
  c = '\t' || (0x20 ≤ c.toNat && c.toNat ≠ 0x7F)

/-- What is left behind the blanks. -/
def skipBlanks (text : List Char) : List Char :=
  text.dropWhile isBlank

/-- What is left behind a line break, if one comes first. -/
def newline? : List Char → Option (List Char)
  | '\n' :: rest => some rest
  | '\r' :: '\n' :: rest => some rest
  | _ => none

/-- What is left behind a comment, if one comes first. -/
def skipComment (text : List Char) : List Char :=
  match text with
  | '#' :: rest => rest.dropWhile isPlain
  | text => text

/-- What is left behind blanks, comments and line breaks. -/
def skipLines : Nat → List Char → List Char
  | 0, text => text
  | fuel + 1, text =>
    let behind := skipComment (skipBlanks text)
    match newline? behind with
    | some rest => skipLines fuel rest
    | none => behind

/-- What is left behind everything that may stand between the items of a list. -/
def skipGap (text : List Char) : List Char :=
  skipLines text.length text

/-- What is left behind the rest of a line, which may hold nothing but blanks and a comment. -/
def endLine? (text : List Char) : Option (List Char) :=
  match skipComment (skipBlanks text) with
  | [] => some []
  | behind => newline? behind

/-! ## Texts -/

/-- The value of a hexadecimal digit. -/
def hexDigit? (c : Char) : Option Nat :=
  if '0' ≤ c ∧ c ≤ '9' then some (c.toNat - '0'.toNat)
  else if 'a' ≤ c ∧ c ≤ 'f' then some (c.toNat - 'a'.toNat + 10)
  else if 'A' ≤ c ∧ c ≤ 'F' then some (c.toNat - 'A'.toNat + 10)
  else none

/-- The character whose code point the digits write, if there is one. -/
def characterOf? (digits : List Char) : Option Char :=
  let value := digits.foldl (fun value c =>
    match value, hexDigit? c with
    | some n, some digit => some (n * 16 + digit)
    | _, _ => none) (some 0)
  value.bind fun n => if h : n.isValidChar then some (Char.ofNatAux n h) else none

/-- Reads the digits of an escape. -/
def readCode? (count : Nat) (text : List Char) : Option (Char × List Char) :=
  let digits := text.take count
  if digits.length = count then (characterOf? digits).map (·, text.drop count) else none

/-- Reads an escape, once its backslash has been read. -/
def readEscape? : List Char → Option (Char × List Char)
  | 'b' :: rest => some ('\x08', rest)
  | 't' :: rest => some ('\t', rest)
  | 'n' :: rest => some ('\n', rest)
  | 'f' :: rest => some ('\x0c', rest)
  | 'r' :: rest => some ('\r', rest)
  | 'e' :: rest => some ('\x1b', rest)
  | '"' :: rest => some ('"', rest)
  | '\\' :: rest => some ('\\', rest)
  | 'x' :: rest => readCode? 2 rest
  | 'u' :: rest => readCode? 4 rest
  | 'U' :: rest => readCode? 8 rest
  | _ => none

/-- What is left of a text of several lines behind a backslash at the end of a line: the next
character that is neither blank nor a line break. -/
def continueLine? (text : List Char) : Option (List Char) :=
  (newline? (skipBlanks text)).map fun rest =>
    rest.dropWhile fun c => isBlank c || c = '\n' || c = '\r'

/-- Reads a text in one line up to its closing quote.  Escapes stand between double quotes only. -/
def readLine? (quote : Char) : Nat → List Char → Option (List Char × List Char)
  | 0, _ => none
  | fuel + 1, text =>
    match text with
    | [] => none
    | c :: rest =>
      if c = quote then some ([], rest)
      else if c = '\\' ∧ quote = '"' then
        (readEscape? rest).bind fun (meant, rest) =>
          (readLine? quote fuel rest).map fun (read, rest) => (meant :: read, rest)
      else if isPlain c then
        (readLine? quote fuel rest).map fun (read, rest) => (c :: read, rest)
      else none

/-- Reads a text of several lines up to its three closing quotes, of which up to two more may come
first and belong to the text. -/
def readLines? (quote : Char) : Nat → List Char → Option (List Char × List Char)
  | 0, _ => none
  | fuel + 1, text =>
    let next (read : Char) (rest : List Char) : Option (List Char × List Char) :=
      (readLines? quote fuel rest).map fun (more, rest) => (read :: more, rest)
    match text with
    | [] => none
    | c :: rest =>
      if c = quote then
        let quotes := text.takeWhile (· = quote)
        if 3 ≤ quotes.length then
          if quotes.length ≤ 5 then
            some (quotes.drop 3, text.drop quotes.length)
          else none
        else next c rest
      else if c = '\\' ∧ quote = '"' then
        match continueLine? rest with
        | some rest => readLines? quote fuel rest
        | none => (readEscape? rest).bind fun (meant, rest) => next meant rest
      else if isPlain c ∨ c = '\n' then next c rest
      else if c = '\r' ∧ rest.head? = some '\n' then next c rest
      else none

/-- Reads a text, if a quote comes first. -/
def readText? (text : List Char) : Option (List Char × List Char) :=
  match text with
  | '"' :: '"' :: '"' :: rest => readLines? '"' text.length ((newline? rest).getD rest)
  | '\'' :: '\'' :: '\'' :: rest => readLines? '\'' text.length ((newline? rest).getD rest)
  | '"' :: rest => readLine? '"' text.length rest
  | '\'' :: rest => readLine? '\'' text.length rest
  | _ => none

end FormsAudit.Toml
