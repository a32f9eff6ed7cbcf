import FormsAudit.Path.Basic
import FormsAudit.ScriptIndex

/-!
# File references

A file of the project: the path by which it is opened, and the reference by which it is reported,
which is relative to the root and the same on every system.
-/

namespace FormsAudit

/-- A file of the project. -/
structure FileReference where
  relative : String
  path : Path
  deriving DecidableEq, Repr

namespace FileReference

/-- The reference to the file at `path` in the project at `root`. -/
def ofPath (root path : Path) : FileReference :=
  ⟨path.relativeTo root, path⟩

/-- The name of the file, if it is text. -/
def fileName? (reference : FileReference) : Option String :=
  (reference.path.fileName?.bind Utf8.decode?).map String.ofList

/-- The order in which files are listed: by reference, then by path. -/
def order (a b : FileReference) : Ordering :=
  (compare a.relative b.relative).then (a.path.order b.path)

/-- Whether `a` may be listed before `b`. -/
def le (a b : FileReference) : Bool :=
  a.order b != .gt

end FileReference

namespace ScriptIndex

/-- Two scripts whose names differ in case alone. -/
structure Collision where
  /-- The reference of the script that stays. -/
  script : String
  /-- The name that it replaces. -/
  replaced : String
  deriving DecidableEq, Repr

/-- Files the name of a script, with the collision that this is, if any. -/
def insertFile (index : ScriptIndex) (file : FileReference) :
    ScriptIndex × Option Collision :=
  match file.fileName? with
  | none => (index, none)
  | some name =>
    let collision :=
      match index.lookup name with
      | some previous => if previous = name then none else some ⟨file.relative, previous⟩
      | none => none
    (index.insert name, collision)

/-- Files the names of scripts one after the other, noting the collisions. -/
def insertFiles (index : ScriptIndex) : List FileReference → ScriptIndex × List Collision
  | [] => (index, [])
  | file :: files =>
    let (next, collision) := index.insertFile file
    let (final, collisions) := next.insertFiles files
    (final, collision.toList ++ collisions)

/-- The index of the scripts' names, and the collisions among them. -/
def ofFiles (files : List FileReference) : ScriptIndex × List Collision :=
  empty.insertFiles files

end ScriptIndex

end FormsAudit
