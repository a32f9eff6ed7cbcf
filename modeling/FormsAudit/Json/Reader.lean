import FormsAudit.Json.Lexeme
import FormsAudit.Json.Shape

/-!
# Reading JSON by shape

A text is read with the shape in hand, so that the first fault in the order of the text is the one
that is told, be it of grammar or of content.  A fault of content is placed at the end of the
innermost value that has it.  Values that no shape asks for are skipped.
-/

namespace FormsAudit.Json

/-- Reads a value at the cursor. -/
abbrev ValueReader := Cursor → Except Fault (Value × Cursor)

/-! ## Skipping -/

/-- An open list or record. -/
inductive Frame where
  | list
  | record
  deriving DecidableEq, Repr

namespace Frame

/-- The bracket that closes the frame. -/
def closing : Frame → Char
  | list => ']'
  | record => '\x7d'

/-- The fault of a text that ends inside the frame. -/
def unfinished : Frame → SyntaxFault
  | list => .endInList
  | record => .endInRecord

/-- The fault of a text that goes on after an item with neither a comma nor the closing
bracket. -/
def unclosed : Frame → SyntaxFault
  | list => .expectedListEnd
  | record => .expectedRecordEnd

end Frame

/-- Reads the colon after a name. -/
def readColon (cursor : Cursor) : Except Fault Cursor :=
  let cursor := cursor.skipSpace
  match cursor.rest with
  | ':' :: rest => .ok (cursor.after ':' rest)
  | [] => .error (cursor.brokenAhead .endInRecord)
  | _ => .error (cursor.brokenAhead .expectedColon)

/-- Skips the name of a field and its colon. -/
def skipName (cursor : Cursor) : Except Fault Cursor :=
  let cursor := cursor.skipSpace
  match cursor.rest with
  | '"' :: rest => (skipText (cursor.after '"' rest)).bind readColon
  | [] => .error (cursor.brokenAhead .endInRecord)
  | _ => .error (cursor.brokenAhead .expectedTextKey)

mutual

/-- Skips a value inside the open frames, and what follows until all of them are closed. -/
def skipWithin (fuel : Nat) (frames : List Frame) (cursor : Cursor) : Except Fault Cursor :=
  match fuel with
  | 0 => .error (cursor.broken .endInValue)
  | fuel + 1 =>
    let cursor := cursor.skipSpace
    let behind : Except Fault Cursor → Except Fault Cursor := fun result =>
      result.bind (skipRest fuel true frames)
    match cursor.rest with
    | [] => .error (cursor.brokenAhead .endInValue)
    | 'n' :: rest => behind (readWord (cursor.after 'n' rest) ['u', 'l', 'l'])
    | 't' :: rest => behind (readWord (cursor.after 't' rest) ['r', 'u', 'e'])
    | 'f' :: rest => behind (readWord (cursor.after 'f' rest) ['a', 'l', 's', 'e'])
    | '-' :: rest => behind (skipNumber (cursor.after '-' rest))
    | '"' :: rest => behind (skipText (cursor.after '"' rest))
    | '[' :: rest => skipRest fuel false (.list :: frames) (cursor.after '[' rest)
    | '\x7b' :: rest => skipRest fuel false (.record :: frames) (cursor.after '\x7b' rest)
    | c :: _ =>
      if isDigit c then behind (skipNumber cursor)
      else .error (cursor.brokenAhead .expectedValue)

/-- Skips what follows an item of the innermost frame, or its opening bracket. -/
def skipRest (fuel : Nat) (afterItem : Bool) (frames : List Frame) (cursor : Cursor) :
    Except Fault Cursor :=
  match fuel, frames with
  | _, [] => .ok cursor
  | 0, _ => .error (cursor.broken .endInValue)
  | fuel + 1, frame :: outer =>
    let cursor := cursor.skipSpace
    let item (cursor : Cursor) : Except Fault Cursor :=
      match frame with
      | .list => skipWithin fuel frames cursor
      | .record => (skipName cursor).bind (skipWithin fuel frames)
    match cursor.rest with
    | [] => .error (cursor.brokenAhead frame.unfinished)
    | c :: rest =>
      if c = ',' && afterItem then item (cursor.after c rest)
      else if c = frame.closing then skipRest fuel true outer (cursor.after c rest)
      else if afterItem then .error (cursor.brokenAhead frame.unclosed)
      else item cursor

end

/-- Skips a value. -/
def skipValue (cursor : Cursor) : Except Fault Cursor :=
  skipWithin (3 * cursor.rest.length + 3) [] cursor

/-! ## Complaints -/

/-- The fault of a value of another kind than asked for.  A scalar is read to be told. -/
def wrongType (wanted : String) (cursor : Cursor) : Fault :=
  let complain (found : Found) (behind : Cursor) : Fault :=
    behind.fault (.content (.wrongType found wanted))
  let told (result : Except Fault (Found × Cursor)) : Fault :=
    match result with
    | .error fault => fault
    | .ok (found, behind) => complain found behind
  match cursor.rest with
  | 'n' :: rest => told ((readWord (cursor.after 'n' rest) ['u', 'l', 'l']).map (.null, ·))
  | 't' :: rest =>
    told ((readWord (cursor.after 't' rest) ['r', 'u', 'e']).map (.boolean true, ·))
  | 'f' :: rest =>
    told ((readWord (cursor.after 'f' rest) ['a', 'l', 's', 'e']).map (.boolean false, ·))
  | '"' :: rest =>
    told ((readText (cursor.after '"' rest)).map fun (s, behind) => (.text s, behind))
  | '-' :: rest =>
    told ((readNumber false (cursor.after '-' rest)).map fun (n, behind) => (.number n, behind))
  | '[' :: _ => complain .list cursor
  | '\x7b' :: _ => complain .record cursor
  | c :: _ =>
    if isDigit c then
      told ((readNumber true cursor).map fun (n, behind) => (.number n, behind))
    else cursor.brokenAhead .expectedValue
  | [] => cursor.brokenAhead .expectedValue

/-- The value behind a lexeme, or the complaint about it, placed behind it. -/
def judged (behind : Cursor) : Except Complaint Value → Except Fault (Value × Cursor)
  | .error complaint => .error (behind.fault (.content complaint))
  | .ok value => .ok (value, behind)

/-- Why the reading of a record stops early. -/
inductive Refusal where
  | fault (fault : Fault)
  /-- A complaint that is still to be placed, and where the record stands. -/
  | complaint (complaint : Complaint) (cursor : Cursor)
  deriving Repr

/-! ## Lists -/

/-- Whether another item follows in a list, and where; `first` before any item has been read. -/
def nextItem (first : Bool) (cursor : Cursor) : Except Fault (Bool × Cursor) :=
  let cursor := cursor.skipSpace
  match cursor.rest with
  | [] => .error (cursor.brokenAhead .endInList)
  | c :: rest =>
    if c = ']' then .ok (false, cursor)
    else if first then .ok (true, cursor)
    else if c = ',' then
      let next := (cursor.after c rest).skipSpace
      match next.rest with
      | [] => .error (next.brokenAhead .endInValue)
      | ']' :: _ => .error (next.brokenAhead .trailingComma)
      | _ => .ok (true, next)
    else .error (cursor.brokenAhead .expectedListEnd)

/-- Closes a list: the cursor behind its bracket, or where the reading stops and why. -/
def closeList (cursor : Cursor) : Cursor × Option Fault :=
  let cursor := cursor.skipSpace
  match cursor.rest with
  | ']' :: rest => (cursor.after ']' rest, none)
  | ',' :: rest =>
    let next := (cursor.after ',' rest).skipSpace
    match next.rest with
    | ']' :: _ => (next, some (next.brokenAhead .trailingComma))
    | _ => (next, some (next.brokenAhead .trailingCharacters))
  | [] => (cursor, some (cursor.brokenAhead .endInList))
  | _ => (cursor, some (cursor.brokenAhead .trailingCharacters))

/-- Reads the items of a list. -/
def readItems (item : ValueReader) : Nat → Bool → Cursor → Except Fault (List Value × Cursor)
  | 0, _, cursor => .error (cursor.broken .endInList)
  | fuel + 1, first, cursor =>
    match nextItem first cursor with
    | .error fault => .error fault
    | .ok (false, cursor) => .ok ([], cursor)
    | .ok (true, cursor) =>
      match item cursor with
      | .error fault => .error fault
      | .ok (value, cursor) =>
        (readItems item fuel false cursor).map fun (values, cursor) => (value :: values, cursor)

/-- Reads the fields of a record from a list, one after the other. -/
def readInTurn (name : String) (count : Nat) (index : Nat)
    (readers : List (String × ValueReader)) (fields : List (String × Shape × Option Value))
    (cursor : Cursor) : Except Refusal (List (String × Value) × Cursor) :=
  match readers with
  | [] => .ok ([], cursor)
  | (field, read) :: readers =>
    match nextItem (index = 0) cursor with
    | .error fault => .error (.fault fault)
    | .ok (false, cursor) =>
      match Shape.completeRest name count index fields with
      | .error complaint => .error (.complaint complaint cursor)
      | .ok values => .ok (values, cursor)
    | .ok (true, cursor) =>
      match read cursor with
      | .error fault => .error (.fault fault)
      | .ok (value, cursor) =>
        (readInTurn name count (index + 1) readers (fields.drop 1) cursor).map
          fun (values, cursor) => ((field, value) :: values, cursor)

/-! ## Records -/

/-- Whether another field follows in a record, and where its name begins. -/
def nextName (first : Bool) (cursor : Cursor) : Except Fault (Bool × Cursor) :=
  let cursor := cursor.skipSpace
  let name (cursor : Cursor) : Except Fault (Bool × Cursor) :=
    match cursor.rest with
    | '"' :: _ => .ok (true, cursor)
    | _ => .error (cursor.brokenAhead .expectedTextKey)
  match cursor.rest with
  | [] => .error (cursor.brokenAhead .endInRecord)
  | c :: rest =>
    if c = '\x7d' then .ok (false, cursor)
    else if first then name cursor
    else if c = ',' then
      let next := (cursor.after c rest).skipSpace
      match next.rest with
      | [] => .error (next.brokenAhead .endInValue)
      | '\x7d' :: _ => .error (next.brokenAhead .trailingComma)
      | _ => name next
    else .error (cursor.brokenAhead .expectedRecordEnd)

/-- Closes a record: the cursor behind its bracket, or where the reading stops and why. -/
def closeRecord (cursor : Cursor) : Cursor × Option Fault :=
  let cursor := cursor.skipSpace
  match cursor.rest with
  | '\x7d' :: rest => (cursor.after '\x7d' rest, none)
  | ',' :: _ => (cursor, some (cursor.brokenAhead .trailingComma))
  | [] => (cursor, some (cursor.brokenAhead .endInRecord))
  | _ => (cursor, some (cursor.brokenAhead .trailingCharacters))

/-- Reads the fields of a record by name. -/
def readNamed (readers : List (String × ValueReader)) :
    Nat → Bool → List (String × Value) → Cursor →
      Except Refusal (List (String × Value) × Cursor)
  | 0, _, _, cursor => .error (.fault (cursor.broken .endInRecord))
  | fuel + 1, first, found, cursor =>
    match nextName first cursor with
    | .error fault => .error (.fault fault)
    | .ok (false, cursor) => .ok (found, cursor)
    | .ok (true, cursor) =>
      match readText (cursor.past ['"'] (cursor.rest.drop 1)) with
      | .error fault => .error (.fault fault)
      | .ok (name, cursor) =>
        match readers.lookup name with
        | none =>
          match (readColon cursor).bind skipValue with
          | .error fault => .error (.fault fault)
          | .ok cursor => readNamed readers fuel false found cursor
        | some read =>
          if (found.lookup name).isSome then .error (.complaint (.duplicateField name) cursor)
          else
            match (readColon cursor).bind read with
            | .error fault => .error (.fault fault)
            | .ok (value, cursor) =>
              readNamed readers fuel false (found ++ [(name, value)]) cursor

/-- The record that the reading of its fields gives, once it is closed. -/
def closed (close : Cursor → Cursor × Option Fault) :
    Except Refusal (List (String × Value) × Cursor) → Except Fault (Value × Cursor)
  | .error (.fault fault) => .error fault
  | .error (.complaint complaint cursor) =>
    .error ((close cursor).1.fault (.content complaint))
  | .ok (fields, cursor) =>
    match close cursor with
    | (cursor, none) => .ok (.record fields, cursor)
    | (_, some fault) => .error fault

/-- The record completed from the fields that were found. -/
def completed (fields : List (String × Shape × Option Value))
    (result : Except Refusal (List (String × Value) × Cursor)) :
    Except Refusal (List (String × Value) × Cursor) :=
  match result with
  | .error refusal => .error refusal
  | .ok (found, cursor) =>
    match Shape.complete found fields with
    | .error complaint => .error (.complaint complaint cursor)
    | .ok values => .ok (values, cursor)

/-- Reads a name that is one of some choices, either as a text or as the only field of a record,
whose value is null. -/
def readChoice (names : List String) (cursor : Cursor) : Except Fault (Value × Cursor) :=
  let name (cursor : Cursor) : Except Fault (Value × Cursor) :=
    let cursor := cursor.skipSpace
    match cursor.rest with
    | '"' :: rest =>
      (readText (cursor.after '"' rest)).bind fun (s, behind) =>
        judged behind (Shape.checkChoice names s)
    | [] => .error (cursor.brokenAhead .endInValue)
    | _ => .error (wrongType "variant identifier" cursor)
  match cursor.rest with
  | '"' :: _ => name cursor
  | '\x7b' :: rest =>
    match name (cursor.after '\x7b' rest) with
    | .error fault => .error fault
    | .ok (value, cursor) =>
      match readColon cursor with
      | .error fault => .error fault
      | .ok cursor =>
        let cursor := cursor.skipSpace
        let unit :=
          match cursor.rest with
          | 'n' :: rest => readWord (cursor.after 'n' rest) ['u', 'l', 'l']
          | [] => .error (cursor.brokenAhead .endInValue)
          | _ => .error (wrongType "unit" cursor)
        match unit with
        | .error fault => .error fault
        | .ok cursor =>
          let cursor := cursor.skipSpace
          match cursor.rest with
          | '\x7d' :: rest => .ok (value, cursor.after '\x7d' rest)
          | [] => .error (cursor.broken .endInRecord)
          | _ => .error (cursor.broken .expectedValue)
  | _ => .error (cursor.brokenAhead .expectedValue)

/-! ## Shapes -/

mutual

/-- Reads a value of the shape. -/
def Shape.read (shape : Shape) (cursor : Cursor) : Except Fault (Value × Cursor) :=
  let cursor := cursor.skipSpace
  if cursor.rest.isEmpty then .error (cursor.brokenAhead .endInValue)
  else
    match shape with
    | .text wanted refusal =>
      match cursor.rest with
      | '"' :: rest =>
        (readText (cursor.after '"' rest)).bind fun (s, behind) =>
          judged behind (Shape.checkText wanted refusal (.text s))
      | _ => .error (wrongType wanted cursor)
    | .boolean =>
      match cursor.rest with
      | 't' :: rest =>
        (readWord (cursor.after 't' rest) ['r', 'u', 'e']).map (.boolean true, ·)
      | 'f' :: rest =>
        (readWord (cursor.after 'f' rest) ['a', 'l', 's', 'e']).map (.boolean false, ·)
      | _ => .error (wrongType "a boolean" cursor)
    | .natural wanted bound =>
      match cursor.rest with
      | '-' :: rest =>
        (readNumber false (cursor.after '-' rest)).bind fun (n, behind) =>
          judged behind (Shape.checkNatural wanted bound n)
      | c :: _ =>
        if isDigit c then
          (readNumber true cursor).bind fun (n, behind) =>
            judged behind (Shape.checkNatural wanted bound n)
        else .error (wrongType wanted cursor)
      | [] => .error (wrongType wanted cursor)
    | .choice names => readChoice names cursor
    | .option shape =>
      match cursor.rest with
      | 'n' :: rest => (readWord (cursor.after 'n' rest) ['u', 'l', 'l']).map (.null, ·)
      | _ => shape.read cursor
    | .list shape =>
      match cursor.rest with
      | '[' :: rest =>
        match readItems shape.read (rest.length + 1) true (cursor.after '[' rest) with
        | .error fault => .error fault
        | .ok (values, cursor) =>
          match closeList cursor with
          | (cursor, none) => .ok (.list values, cursor)
          | (_, some fault) => .error fault
      | _ => .error (wrongType "a sequence" cursor)
    | .record name fields =>
      match cursor.rest with
      | '[' :: rest =>
        closed closeList
          (readInTurn name fields.length 0 (fieldReaders fields) fields (cursor.after '[' rest))
      | '\x7b' :: rest =>
        closed closeRecord
          (completed fields
            (readNamed (fieldReaders fields) (rest.length + 1) true []
              (cursor.after '\x7b' rest)))
      | _ => .error (wrongType ("struct " ++ name) cursor)

/-- The reader of each field. -/
def fieldReaders (fields : List (String × Shape × Option Value)) :
    List (String × ValueReader) :=
  match fields with
  | [] => []
  | (name, shape, _) :: rest => (name, shape.read) :: fieldReaders rest

end

/-- Reads a whole text as a value of the shape. -/
def Shape.parse (shape : Shape) (text : String) : Except Fault Value :=
  match shape.read (.start text.toList) with
  | .error fault => .error fault
  | .ok (value, cursor) =>
    let behind := cursor.skipSpace
    if behind.rest.isEmpty then .ok value else .error (behind.brokenAhead .trailingCharacters)

end FormsAudit.Json
