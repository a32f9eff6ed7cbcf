import FormsAudit.Json.Value

/-!
# Trees of tables

A document is built statement by statement.  What may still be added to a table depends on how it came
to be: a table with a header of its own is complete, one that was only passed through by a longer
header may get its own later, and one made by a dotted key takes more dotted keys.  A table written
in braces is a value, to which nothing is added.
-/

namespace FormsAudit.Toml

/-- How a table came to be. -/
inductive Origin where
  /-- By its own header. -/
  | header
  /-- On the way of the header of another table. -/
  | passing
  /-- By a dotted key. -/
  | dotted
  deriving DecidableEq, Repr

/-- A part of a document. -/
inductive Tree where
  | value (value : Json.Value)
  | table (origin : Origin) (entries : List (String × Tree))
  /-- The tables under headers in double brackets, the last of them first. -/
  | tables (last : List (String × Tree)) (earlier : List (List (String × Tree)))

/-- The entries of a table. -/
abbrev Entries := List (String × Tree)

/-- The entries with one replaced or appended. -/
def Entries.put (entries : Entries) (key : String) (tree : Tree) : Entries :=
  if entries.any (·.1 == key) then
    entries.map fun entry => if entry.1 == key then (key, tree) else entry
  else entries ++ [(key, tree)]

/-- The table that a key leads to on the way of a header, and how to put it back. -/
def Entries.pass? (entries : Entries) (key : String) : Option (Entries × (Entries → Tree)) :=
  match entries.lookup key with
  | none => some ([], .table .passing)
  | some (.table origin inner) => some (inner, .table origin)
  | some (.tables last earlier) => some (last, fun inner => .tables inner earlier)
  | some (.value _) => none

/-- The table that a key leads to on the way of a dotted key, whether it was made so, and how to put
it back. -/
def Entries.passDotted? (entries : Entries) (key : String) :
    Option (Entries × Bool × (Entries → Tree)) :=
  match entries.lookup key with
  | none => some ([], true, .table .dotted)
  | some (.table .dotted inner) => some (inner, true, .table .dotted)
  | some (.table .passing inner) => some (inner, false, .table .passing)
  | some (.tables last earlier) => some (last, false, fun inner => .tables inner earlier)
  | some _ => none

/-- The entries after a header. -/
def Entries.open? (entries : Entries) : List String → Option Entries
  | [] => none
  | [key] =>
    match entries.lookup key with
    | none => some (entries.put key (.table .header []))
    | some (.table .passing inner) => some (entries.put key (.table .header inner))
    | some _ => none
  | key :: rest =>
    (entries.pass? key).bind fun (inner, back) =>
      (Entries.open? inner rest).map fun inner => entries.put key (back inner)

/-- The entries after a header in double brackets. -/
def Entries.append? (entries : Entries) : List String → Option Entries
  | [] => none
  | [key] =>
    match entries.lookup key with
    | none => some (entries.put key (.tables [] []))
    | some (.tables last earlier) => some (entries.put key (.tables [] (last :: earlier)))
    | some _ => none
  | key :: rest =>
    (entries.pass? key).bind fun (inner, back) =>
      (Entries.append? inner rest).map fun inner => entries.put key (back inner)

/-- The entries after a value is given to a key, which may be dotted.  The last part of a dotted key
goes into a table that dotted keys have made. -/
def Entries.assign? (entries : Entries) (fits : Bool) (path : List String) (tree : Tree) :
    Option Entries :=
  match path with
  | [] => none
  | [key] =>
    if fits ∧ (entries.lookup key).isNone then some (entries.put key tree) else none
  | key :: rest =>
    (entries.passDotted? key).bind fun (inner, made, back) =>
      (Entries.assign? inner made rest tree).map fun inner => entries.put key (back inner)

/-- The entries with those of the table under a header changed. -/
def Entries.within? (change : Entries → Option Entries) (entries : Entries) :
    List String → Option Entries
  | [] => change entries
  | key :: rest =>
    (entries.pass? key).bind fun (inner, back) =>
      (Entries.within? change inner rest).map fun inner => entries.put key (back inner)

mutual

/-- The tree as a value. -/
def Tree.toValue : Tree → Json.Value
  | .value value => value
  | .table _ entries => .record (entryValues entries)
  | .tables last earlier => .list (tableValues earlier ++ [.record (entryValues last)])

/-- The entries with their values. -/
def entryValues : List (String × Tree) → List (String × Json.Value)
  | [] => []
  | (key, tree) :: rest => (key, tree.toValue) :: entryValues rest

/-- The tables as values, the last of them last. -/
def tableValues : List (List (String × Tree)) → List Json.Value
  | [] => []
  | entries :: rest => tableValues rest ++ [.record (entryValues entries)]

end

end FormsAudit.Toml
