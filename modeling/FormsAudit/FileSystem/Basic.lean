import FormsAudit.FileSystem.Node
import FormsAudit.Path.Basic
import FormsAudit.SystemError

/-!
# The file system

Paths are resolved as the system resolves them: component by component from the root or the working
directory, links replaced by what they point to, up to a limit on links and on lengths.  Some places
may be closed to the program, or readable in part only.  Each operation gives its result or the error
number of the system.
-/

namespace FormsAudit

/-- What the system refuses at a place, and why. -/
structure Access where
  /-- Why no name can be looked up in the directory. -/
  search : Option Errno := none
  /-- The names that the directory lists, and why it lists no more. -/
  listing : Option (List EntryName × Errno) := none
  /-- How many bytes the file yields, and why it yields no more. -/
  reading : Option (Nat × Errno) := none
  /-- Why no file can be written at the place. -/
  writing : Option Errno := none
  deriving DecidableEq, Repr

/-- A file tree, the directory in which relative paths begin, and the places where the system refuses
something. -/
structure FileSystem where
  root : Node
  workingDirectory : List EntryName
  refusals : List (List EntryName × Access) := []
  deriving Repr

namespace FileSystem

/-- How many links one path may lead through. -/
def linkLimit : Nat := 40

/-- How long a path may be, with the byte that ends it. -/
def pathLimit : Nat := 4096

/-- How long a name may be. -/
def nameLimit : Nat := 255

/-- The components through which the system follows a path.  A slash at the end asks for a
directory: it is a step that stays where it is and looks nothing up. -/
def steps (bytes : List UInt8) : List Path.Component :=
  let parts := bytes.splitOn Path.slash
  let named := parts.filterMap fun part =>
    if part = [] then none
    else if part = [0x2E] then some .current
    else if part = [0x2E, 0x2E] then some .parent
    else some (.normal part)
  if parts.getLast? == some [] then named ++ [.root] else named

/-- Where a path of the given bytes begins, seen from `directory`. -/
def origin (directory : List EntryName) (bytes : List UInt8) : List EntryName :=
  if bytes.head? = some Path.slash then [] else directory

/-! ## What is refused -/

/-- What is refused at the place with the names `names`. -/
def accessAt (fs : FileSystem) (names : List EntryName) : Access :=
  (fs.refusals.lookup names).getD {}

/-- Whether the directory with the names `names` lists its entry `name`. -/
def lists (fs : FileSystem) (names : List EntryName) (name : EntryName) : Bool :=
  (fs.accessAt names).listing.all fun listing => listing.1.contains name

/-- How a path is followed. -/
inductive Manner where
  /-- A link in the last place is not followed. -/
  | itself
  /-- All links are followed. -/
  | through
  /-- All links are followed, and every place is looked at by its path from the root.  The real path
  is found in this manner. -/
  | real
  deriving DecidableEq, Repr

/-- How long the path is that leads from the root to the place with the names `names`: each name
follows a slash. -/
def realLength (names : List EntryName) : Nat :=
  names.length + names.flatten.length

/-- The first refusal to look something up in the directories that lead from the root to the place
with the names `names`, this one included. -/
def searchRefusal? (fs : FileSystem) (names : List EntryName) : Option Errno :=
  (List.range (names.length + 1)).findSome? fun count =>
    (fs.accessAt (names.take count)).search

/-- Why the step is not taken in the directory with the names `names`. -/
def barrier? (fs : FileSystem) (manner : Manner) (names : List EntryName) :
    Path.Component → Option Errno
  | .root => none
  | .current | .parent => (fs.accessAt names).search
  | .normal name =>
    if manner = .real then
      if pathLimit ≤ realLength (names ++ [name]) then some .nameTooLong
      else fs.searchRefusal? names
    else (fs.accessAt names).search

/-! ## Where a path leads -/

/-- A place in the tree: the names that lead there, and the node, if there is one yet. -/
structure Place where
  names : List EntryName
  node : Option Node
  deriving Repr

/-- Follows the steps from the place with the names `names`.  Only the last step may lead to
nothing. -/
def walk (fs : FileSystem) (manner : Manner) (links : Nat) (names : List EntryName)
    (pending : List Path.Component) : Except Errno Place :=
  match pending with
  | [] => .ok ⟨names, fs.root.find? names⟩
  | step :: rest =>
    match fs.root.find? names with
    | some (.directory entries) =>
      match fs.barrier? manner names step with
      | some errno => .error errno
      | none =>
        match step with
        | .root | .current => fs.walk manner links names rest
        | .parent => fs.walk manner links names.dropLast rest
        | .normal name =>
          match entries.lookup name with
          | none =>
            if nameLimit < name.length then .error .nameTooLong
            else if rest.isEmpty then .ok ⟨names ++ [name], none⟩
            else .error .noEntry
          | some (.link target) =>
            if rest.isEmpty && manner == .itself then .ok ⟨names ++ [name], some (.link target)⟩
            else
              match links with
              | 0 => .error .tooManyLinks
              | links + 1 =>
                if target.isEmpty then .error .noEntry
                else fs.walk manner links (origin names target) (steps target ++ rest)
          | some _ => fs.walk manner links (names ++ [name]) rest
    | some _ => .error .notADirectory
    | none => .error .noEntry
  termination_by (links, pending.length)

/-- The place of a path. -/
def place (fs : FileSystem) (path : Path) (manner : Manner := .through) : Except Errno Place :=
  if path.isEmpty then .error .noEntry
  else if pathLimit ≤ path.bytes.length then .error .nameTooLong
  else
    fs.walk manner linkLimit (origin fs.workingDirectory path.bytes) (steps path.bytes)

/-- The node of a path, and the names that lead to it. -/
def lookup (fs : FileSystem) (path : Path) (manner : Manner := .through) :
    Except Errno (List EntryName × Node) :=
  match fs.place path manner with
  | .error errno => .error errno
  | .ok ⟨_, none⟩ => .error .noEntry
  | .ok ⟨names, some node⟩ => .ok (names, node)

/-- Why the real path of what the path leads to cannot be had. -/
def realFault? (fs : FileSystem) (path : Path) : Option Errno :=
  match fs.lookup path .real with
  | .error errno => some errno
  | .ok _ => none

/-- Whether the path leads to anything. -/
def «exists» (fs : FileSystem) (path : Path) : Bool :=
  (fs.lookup path).isOk

/-! ## Reading -/

/-- What is read of a file that holds `content`, and why no more. -/
def yield (access : Access) (content : List UInt8) : List UInt8 × Option Errno :=
  match access.reading with
  | none => (content, none)
  | some (count, errno) => (content.take count, some errno)

/-- What the file of a path yields when it is opened and read, and the error that ends it, if one
does. -/
def read (fs : FileSystem) (path : Path) : Except Errno (List UInt8 × Option Errno) :=
  match fs.lookup path with
  | .error errno => .error errno
  | .ok (names, .file content) | .ok (names, .pipe content) =>
    .ok (yield (fs.accessAt names) content)
  | .ok (_, .directory _) => .error .isADirectory
  | .ok (_, .link _) => .error .tooManyLinks

/-- The content of a file. -/
def contentOf (fs : FileSystem) (path : Path) : Except Errno (List UInt8) :=
  match fs.read path with
  | .error errno => .error errno
  | .ok (content, none) => .ok content
  | .ok (_, some errno) => .error errno

/-! ## Changes -/

/-- The tree with the node at a place replaced. -/
def replace (fs : FileSystem) (names : List EntryName) (node : Option Node) : FileSystem :=
  { fs with root := fs.root.update names node }

/-- The path without the slashes at its end. -/
def withoutTrailingSlashes (path : Path) : Path :=
  ⟨(path.bytes.reverse.dropWhile (· = Path.slash)).reverse⟩

/-- The tree after a file is written: what it held before is gone, and a file that was not there is
made.  A path that ends with a slash asks for a directory, which is never written. -/
def writeFile (fs : FileSystem) (path : Path) (content : List UInt8) :
    Except Errno FileSystem :=
  let named := withoutTrailingSlashes path
  if path.isEmpty then .error .noEntry
  else if named.isEmpty then .error .isADirectory
  else if named ≠ path then
    match fs.place named .itself with
    | .error errno => .error errno
    | .ok _ => .error .isADirectory
  else
    match fs.place path with
    | .error errno => .error errno
    | .ok ⟨_, some (.directory _)⟩ => .error .isADirectory
    | .ok ⟨names, node⟩ =>
      match (fs.accessAt names).writing with
      | some errno => .error errno
      | none =>
        match node with
        | none | some (.file _) => .ok (fs.replace names (some (.file content)))
        | some _ => .ok fs

/-- The tree after an entry is taken away, a link itself and not what it points to. -/
def remove (fs : FileSystem) (path : Path) : Except Errno FileSystem :=
  match fs.lookup path .itself with
  | .error errno => .error errno
  | .ok (_, .directory _) => .error .isADirectory
  | .ok (names, _) => .ok (fs.replace names none)

/-- The tree with the directories made that the steps lead through. -/
def makeDirectories (fs : FileSystem) (names : List EntryName) :
    List Path.Component → FileSystem × List EntryName
  | [] => (fs, names)
  | step :: rest =>
    match fs.walk .through linkLimit names [step] with
    | .ok ⟨next, some (.directory _)⟩ => fs.makeDirectories next rest
    | .ok ⟨next, none⟩ => (fs.replace next (some (.directory []))).makeDirectories next rest
    | _ => (fs, names)

/-- The tree with a node put at a path, below directories made as needed; what stood there before
gives way. -/
def put (fs : FileSystem) (path : Path) (node : Node) : FileSystem :=
  let all := steps path.bytes
  let (made, names) := fs.makeDirectories (origin fs.workingDirectory path.bytes) all.dropLast
  match node, all.getLast? with
  | .directory _, some step => (made.makeDirectories names [step]).1
  | .file _, some step =>
    match made.walk .through linkLimit names [step] with
    | .ok ⟨place, _⟩ => made.replace place (some node)
    | .error _ => made
  | _, some (.normal name) => made.replace (names ++ [name]) (some node)
  | _, _ => made

end FileSystem

end FormsAudit
