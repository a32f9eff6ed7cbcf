/-!
# File trees

A file tree is a directory with named entries, each a tree again, a regular file, a symbolic link or
a named pipe.  A node is found by the names that lead to it, no links followed.
-/

namespace FormsAudit

/-- The name of an entry of a directory. -/
abbrev EntryName := List UInt8

/-- A node of a file tree. -/
inductive Node where
  | directory (entries : List (EntryName × Node))
  | file (content : List UInt8)
  | link (target : List UInt8)
  /-- A pipe, and what comes out of it: whoever reads it waits until someone has written this and is
  done.  A pipe to which no one writes is never read to the end. -/
  | pipe (written : List UInt8 := [])
  deriving Repr

namespace Node

/-- The entries of a directory; none of anything else. -/
def entries : Node → List (EntryName × Node)
  | directory entries => entries
  | _ => []

/-- Whether the node is a directory. -/
def isDirectory : Node → Bool
  | directory _ => true
  | _ => false

/-- The entry of a directory that has the name. -/
def child? (node : Node) (name : EntryName) : Option Node :=
  node.entries.lookup name

/-- The node that the names lead to. -/
def find? (node : Node) : List EntryName → Option Node
  | [] => some node
  | name :: names => (node.child? name).bind fun child => child.find? names

/-- The entries with `name` set to `child`, or taken away. -/
def setEntry (entries : List (EntryName × Node)) (name : EntryName) (child : Option Node) :
    List (EntryName × Node) :=
  match child with
  | none => entries.filter (·.1 != name)
  | some child =>
    if entries.any (·.1 == name) then
      entries.map fun entry => if entry.1 == name then (name, child) else entry
    else
      entries ++ [(name, child)]

/-- The tree with the node that the names lead to set to `replacement`, or taken away.  Names that
lead through anything but directories change nothing. -/
def update (node : Node) (names : List EntryName) (replacement : Option Node) : Node :=
  match names with
  | [] => replacement.getD node
  | [name] =>
    match node with
    | directory entries => directory (setEntry entries name replacement)
    | other => other
  | name :: rest =>
    match node, node.child? name with
    | directory entries, some child =>
      directory (setEntry entries name (some (child.update rest replacement)))
    | other, _ => other

mutual

/-- The number of directories of a tree. -/
def countDirectories : Node → Nat
  | directory entries => 1 + countDirectoriesIn entries
  | _ => 0

/-- The number of directories of all entries. -/
def countDirectoriesIn : List (EntryName × Node) → Nat
  | [] => 0
  | (_, child) :: rest => child.countDirectories + countDirectoriesIn rest

end

@[simp] theorem find?_nil (node : Node) : node.find? [] = some node := rfl

theorem find?_append (node : Node) (first second : List EntryName) :
    node.find? (first ++ second) = (node.find? first).bind fun inner => inner.find? second := by
  induction first generalizing node with
  | nil => rfl
  | cons name names ih =>
    simp only [List.cons_append, find?]
    cases node.child? name with
    | none => rfl
    | some child => exact ih child

end Node

end FormsAudit
