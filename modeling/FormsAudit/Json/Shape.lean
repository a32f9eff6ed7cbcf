import FormsAudit.Json.Fault

/-!
# Shapes of values

A shape says what a value is asked to be.  A value that fits is completed: its record fields stand in
the order of the shape, those that the shape does not name are dropped, and those that are left out
take what the shape falls back on.  A record may also be given as the list of its fields' values.
-/

namespace FormsAudit.Json

/-- What a value is asked to be. -/
inductive Shape where
  /-- A text.  `wanted` names it, and `refusal` gives the reason to refuse one. -/
  | text (wanted : String) (refusal : String → Option String)
  | boolean
  /-- A natural number below `bound`. -/
  | natural (wanted : String) (bound : Nat)
  /-- One of some names. -/
  | choice (names : List String)
  /-- Null, or a value of the shape. -/
  | option (shape : Shape)
  | list (shape : Shape)
  /-- A record: for each field its name, its shape, and what it falls back on when left out. -/
  | record (name : String) (fields : List (String × Shape × Option Value))

namespace Shape

/-- Any text at all. -/
def anyText : Shape := .text "a string" fun _ => none

/-- The text of a path. -/
def path : Shape := .text "path string" fun _ => none

/-- The name of a shape where a value of another kind is found. -/
def wanted : Shape → String
  | text wanted _ => wanted
  | boolean => "a boolean"
  | natural wanted _ => wanted
  | choice _ => "variant identifier"
  | option shape => shape.wanted
  | list _ => "a sequence"
  | record name _ => "struct " ++ name

/-- What a record is asked to be where a list is too short for it. -/
def wantedLength (name : String) (count : Nat) : String :=
  s!"struct {name} with {count} element" ++ if count = 1 then "" else "s"

/-- Whether a text fits. -/
def checkText (wanted : String) (refusal : String → Option String) (value : Value) :
    Except Complaint Value :=
  match value with
  | .text s =>
    match refusal s with
    | none => .ok value
    | some reason => .error (.refused reason)
  | .null => .error (.wrongType .null wanted)
  | .boolean b => .error (.wrongType (.boolean b) wanted)
  | .number n => .error (.wrongType (.number n) wanted)
  | .list _ => .error (.wrongType .list wanted)
  | .record _ => .error (.wrongType .record wanted)

/-- Whether a number fits. -/
def checkNatural (wanted : String) (bound : Nat) (n : Number) : Except Complaint Value :=
  match n with
  | .natural k =>
    if k < bound then .ok (.number n) else .error (.wrongValue (.number n) wanted)
  | .negative _ => .error (.wrongValue (.number n) wanted)
  | .decimal _ => .error (.wrongType (.number n) wanted)

/-- Whether a name is one of the choices. -/
def checkChoice (names : List String) (name : String) : Except Complaint Value :=
  if names.contains name then .ok (.text name) else .error (.unknownChoice name names)

/-- The record with all fields of the shape, from those that were found. -/
def complete (found : List (String × Value)) :
    List (String × Shape × Option Value) → Except Complaint (List (String × Value))
  | [] => .ok []
  | (name, _, fallback) :: rest =>
    match (found.lookup name).or fallback with
    | none => .error (.missingField name)
    | some value => (complete found rest).map ((name, value) :: ·)

/-- What the fields from the `index`-th on fall back on, where a list ends before them. -/
def completeRest (name : String) (count : Nat) (index : Nat) :
    List (String × Shape × Option Value) → Except Complaint (List (String × Value))
  | [] => .ok []
  | (field, _, fallback) :: rest =>
    match fallback with
    | none => .error (.wrongLength index (wantedLength name count))
    | some value =>
      (completeRest name count (index + 1) rest).map ((field, value) :: ·)

/-- What a value is, where it is of another kind than asked for. -/
def foundOf : Value → Found
  | .null => .null
  | .boolean b => .boolean b
  | .number n => .number n
  | .text s => .text s
  | .list _ => .list
  | .record _ => .record

end Shape

end FormsAudit.Json
