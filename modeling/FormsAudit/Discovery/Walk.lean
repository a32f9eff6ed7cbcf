import FormsAudit.Discovery.Selection
import FormsAudit.FileSystem.Basic

/-!
# Finding the files of a project

The directories below the root are walked, each once.  Links wait until every directory that is
really there has been walked; then they are followed in rounds, each round in the order of their
paths, so that a directory that can be reached both ways is listed under its real path, and the order
in which a directory happens to list its entries does not matter.  What cannot be read below the root
is passed over with a warning.
-/

namespace FormsAudit

/-- An entry that is passed over. -/
structure SkippedEntry where
  path : Path
  error : Errno
  deriving DecidableEq, Repr

/-- Why nothing can be found. -/
structure DiscoveryFault where
  root : Path
  reason : String
  deriving DecidableEq, Repr

namespace Discovery

/-- The state of a walk: the directories that have been walked, the files found, the links that wait
and the entries passed over. -/
structure Progress where
  visited : List (List EntryName)
  files : List FileReference
  links : List Path
  skipped : List SkippedEntry
  deriving Repr

/-- Passes over an entry. -/
def Progress.skip (progress : Progress) (path : Path) (error : Errno) : Progress :=
  { progress with skipped := progress.skipped ++ [⟨path, error⟩] }

/-- Notes a file, if it is wanted. -/
def Progress.note (progress : Progress) (selection : Selection) (file : FileReference) :
    Progress :=
  if selection.accepts file then { progress with files := progress.files ++ [file] }
  else progress

/-- Why the entry that is listed at `path`, in the directory with the names `names`, cannot be looked
at. -/
def refusal? (fs : FileSystem) (names : List EntryName) (path : Path) : Option Errno :=
  if FileSystem.pathLimit ≤ path.bytes.length then some .nameTooLong
  else (fs.accessAt names).search

/-- Passes over the directory at `path` if it did not list all of its entries. -/
def Progress.leave (progress : Progress) (fs : FileSystem) (names : List EntryName)
    (path : Path) : Progress :=
  match (fs.accessAt names).listing with
  | none => progress
  | some (_, errno) => progress.skip path errno

mutual

/-- Visits a node that has been found at `path`, where the tree has the names `names`.  These are the
real path of a directory, if it can be had. -/
def visitNode (fs : FileSystem) (selection : Selection) (root path : Path)
    (names : List EntryName) (node : Node) (progress : Progress) : Progress :=
  match node with
  | .link _ =>
    if selection.followLinks then { progress with links := progress.links ++ [path] }
    else progress
  | .file _ => progress.note selection (.ofPath root path)
  | .pipe _ => progress
  | .directory entries =>
    match fs.realFault? path with
    | some errno => progress.skip path errno
    | none =>
      if progress.visited.contains names then progress
      else
        (visitEntries fs selection root path names entries
          { progress with visited := names :: progress.visited }).leave fs names path

/-- Visits the entries that the directory at `path` lists. -/
def visitEntries (fs : FileSystem) (selection : Selection) (root path : Path)
    (names : List EntryName) (entries : List (EntryName × Node)) (progress : Progress) :
    Progress :=
  match entries with
  | [] => progress
  | (name, child) :: rest =>
    visitEntries fs selection root path names rest
      (if fs.lists names name then
        match refusal? fs names (path.join ⟨name⟩) with
        | some errno => progress.skip (path.join ⟨name⟩) errno
        | none =>
          visitNode fs selection root (path.join ⟨name⟩) (names ++ [name]) child progress
      else progress)

end

/-- Follows a link. -/
def visitLink (fs : FileSystem) (selection : Selection) (root : Path) (progress : Progress)
    (link : Path) : Progress :=
  match fs.lookup link with
  | .error errno => progress.skip link errno
  | .ok (names, node) => visitNode fs selection root link names node progress

/-- Whether the link `a` may be followed before `b`. -/
def linkLE (a b : Path) : Bool :=
  a.order b != .gt

/-- Follows the waiting links, round after round.  A round that meets a link to follow later has
walked a new directory, so there are no more rounds than directories. -/
def followRounds (fs : FileSystem) (selection : Selection) (root : Path) :
    Nat → Progress → Progress
  | 0, progress => progress
  | rounds + 1, progress =>
    if progress.links.isEmpty then progress
    else
      let links := progress.links.mergeSort linkLE
      followRounds fs selection root rounds
        (links.foldl (visitLink fs selection root) { progress with links := [] })

/-- The places that have been walked when a walk begins: that of the root, if it has a real path. -/
def claimed (fs : FileSystem) (root : Path) (names : List EntryName) : List (List EntryName) :=
  if (fs.realFault? root).isNone then [names] else []

/-- Walks the directory `entries`, which lies at the place `names`, and then follows the links. -/
def explore (fs : FileSystem) (selection : Selection) (root : Path) (names : List EntryName)
    (entries : List (EntryName × Node)) : Progress :=
  followRounds fs selection root (fs.root.countDirectories + 1)
    (visitEntries fs selection root root names entries ⟨claimed fs root names, [], [], []⟩)

/-- The wanted files below `root` in the order of their references, and the entries passed over. -/
def discover (fs : FileSystem) (selection : Selection) (root : Path) :
    Except DiscoveryFault (List FileReference × List SkippedEntry) :=
  match fs.lookup root with
  | .error errno => .error ⟨root, (SystemError.refused errno).message⟩
  | .ok (names, .directory entries) =>
    match (fs.accessAt names).listing with
    | some (_, errno) => .error ⟨root, (SystemError.refused errno).message⟩
    | none =>
      let progress := explore fs selection root names entries
      .ok (progress.files.mergeSort FileReference.le, progress.skipped)
  | .ok _ => .error ⟨root, "not a directory"⟩

end Discovery

end FormsAudit
