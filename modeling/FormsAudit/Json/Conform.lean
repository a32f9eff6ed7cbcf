import FormsAudit.Json.Shape

/-!
# Values that fit a shape

A value that has been read already is compared with a shape.  The fields of a record are gone
through in the order in which the record has them.
-/

namespace FormsAudit.Json

/-- The results of `check` for all items, or the first complaint. -/
def conformItems (check : Value → Except Complaint Value) :
    List Value → Except Complaint (List Value)
  | [] => .ok []
  | item :: rest =>
    match check item with
    | .error complaint => .error complaint
    | .ok value => (conformItems check rest).map (value :: ·)

/-- The fields that have a check, each with the result of its check, or the first complaint. -/
def conformNamed (checks : List (String × (Value → Except Complaint Value)))
    (found : List (String × Value)) :
    List (String × Value) → Except Complaint (List (String × Value))
  | [] => .ok found
  | (name, value) :: rest =>
    match checks.lookup name with
    | none => conformNamed checks found rest
    | some check =>
      if (found.lookup name).isSome then .error (.duplicateField name)
      else
        match check value with
        | .error complaint => .error complaint
        | .ok value => conformNamed checks (found ++ [(name, value)]) rest

/-- The items as the values of the fields in turn, and the items left over. -/
def conformInTurn (name : String) (count : Nat) (index : Nat)
    (checks : List (String × (Value → Except Complaint Value)))
    (fields : List (String × Shape × Option Value)) (items : List Value) :
    Except Complaint (List (String × Value) × List Value) :=
  match checks, fields, items with
  | [], _, items => .ok ([], items)
  | _, fields, [] => (Shape.completeRest name count index fields).map (·, [])
  | (field, check) :: checks, fields, item :: rest =>
    match check item with
    | .error complaint => .error complaint
    | .ok value =>
      (conformInTurn name count (index + 1) checks (fields.drop 1) rest).map
        fun (values, left) => ((field, value) :: values, left)

/-- How strictly records given as lists are taken. -/
inductive Strictness where
  /-- A list may not be longer than the record. -/
  | exact
  /-- What is left over of a list is ignored. -/
  | lenient
  deriving DecidableEq, Repr

mutual

/-- The value, completed as the shape asks, or the first complaint. -/
def Shape.conform (strictness : Strictness) (shape : Shape) (value : Value) :
    Except Complaint Value :=
  match shape with
  | .text wanted refusal => Shape.checkText wanted refusal value
  | .boolean =>
    match value with
    | .boolean b => .ok (.boolean b)
    | value => .error (.wrongType (Shape.foundOf value) "a boolean")
  | .natural wanted bound =>
    match value with
    | .number n => Shape.checkNatural wanted bound n
    | value => .error (.wrongType (Shape.foundOf value) wanted)
  | .choice names =>
    match value with
    | .text s => Shape.checkChoice names s
    | value => .error (.wrongType (Shape.foundOf value) "string or map")
  | .option shape =>
    match value with
    | .null => .ok .null
    | value => shape.conform strictness value
  | .list shape =>
    match value with
    | .list items => (conformItems (shape.conform strictness) items).map .list
    | value => .error (.wrongType (Shape.foundOf value) "a sequence")
  | .record name fields =>
    match value with
    | .record entries =>
      match conformNamed (fieldChecks strictness fields) [] entries with
      | .error complaint => .error complaint
      | .ok found => (Shape.complete found fields).map .record
    | .list items =>
      match conformInTurn name fields.length 0 (fieldChecks strictness fields) fields items with
      | .error complaint => .error complaint
      | .ok (values, left) =>
        if left.isEmpty || strictness = .lenient then .ok (.record values)
        else .error (.wrongLength items.length "fewer elements in array")
    | value => .error (.wrongType (Shape.foundOf value) ("struct " ++ name))

/-- The check of each field. -/
def fieldChecks (strictness : Strictness) (fields : List (String × Shape × Option Value)) :
    List (String × (Value → Except Complaint Value)) :=
  match fields with
  | [] => []
  | (name, shape, _) :: rest =>
    (name, shape.conform strictness) :: fieldChecks strictness rest

end

end FormsAudit.Json
