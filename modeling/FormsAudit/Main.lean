import FormsAudit.Program
import Std.Time.DateTime.Timestamp

/-!
# The command

The file tree is read into memory, the program is run on it, and what comes of it is written and
shown.  A link is kept as a link to the place that the system says it leads to.  What the system does
not let the program read is kept as refused.  Of the wide encodings only ASCII is known here.
-/

namespace FormsAudit.Command

/-- What is learnt while a tree is read: where its links lead, and what the system refuses. -/
structure Learnt where
  targets : List String := []
  refusals : List (List EntryName × Access) := []

/-- What has been learnt so far. -/
abbrev Notebook := IO.Ref Learnt

/-- The names that lead to a place that is given from the root. -/
def namesOf (place : String) : List EntryName :=
  (place.toUTF8.toList.splitOn Path.slash).filter (!·.isEmpty)

/-- The error number of a failed operation; where it is not known, that of an input or output
error. -/
def errnoOf : IO.Error → Errno
  | .permissionDenied _ code _ => ⟨code.toNat⟩
  | .noFileOrDirectory _ code _ => ⟨code.toNat⟩
  | .invalidArgument _ code _ => ⟨code.toNat⟩
  | .inappropriateType _ code _ => ⟨code.toNat⟩
  | .hardwareFault code _ => ⟨code.toNat⟩
  | .resourceExhausted _ code _ => ⟨code.toNat⟩
  | .otherError code _ => ⟨code.toNat⟩
  | _ => ⟨5⟩

/-- Notes what the system refuses at a place. -/
def Notebook.refuse (notebook : Notebook) (place : String) (access : Access) : IO Unit :=
  notebook.modify fun learnt =>
    { learnt with refusals := (namesOf place, access) :: learnt.refusals }

/-- A link, to where the system says that it leads. -/
def readLink (notebook : Notebook) (entry : IO.FS.DirEntry) : IO Node := do
  try
    let target := (← IO.FS.realPath entry.path).toString
    notebook.modify fun learnt => { learnt with targets := target :: learnt.targets }
    return .link target.toUTF8.toList
  catch _ => return .link []

mutual

/-- The node at a place that is no link. -/
partial def readNode (notebook : Notebook) (place : String) : IO Node := do
  let found ← IO.FS.realPath place
  if ← found.isDir then
    try
      let mut entries := []
      for entry in ← found.readDir do
        entries := (entry.fileName.toUTF8.toList, ← readEntry notebook place entry) :: entries
      return .directory entries.reverse
    catch error =>
      notebook.refuse place { listing := some ([], errnoOf error) }
      return .directory []
  else
    try
      return .file (← IO.FS.readBinFile found).toList
    catch error =>
      notebook.refuse place { reading := some (0, errnoOf error) }
      return .file []

/-- The node that an entry of the directory at `place` names. -/
partial def readEntry (notebook : Notebook) (place : String) (entry : IO.FS.DirEntry) :
    IO Node := do
  try
    match (← entry.path.symlinkMetadata).type with
    | .dir | .file => readNode notebook entry.path.toString
    | .symlink => readLink notebook entry
    | .other => return .pipe
  catch error =>
    notebook.refuse place { search := some (errnoOf error) }
    return .directory []

end

/-- The tree with what is found at a place, if anything is. -/
def mount (notebook : Notebook) (files : FileSystem) (place : String) : IO FileSystem := do
  let node ← readNode notebook place
  let made := files.put (.ofString place) (.directory [])
  let refusals := (← notebook.get).refusals
  match made.lookup (.ofString place) with
  | .ok (names, _) =>
    return { made.replace names (some node) with refusals := refusals ++ files.refusals }
  | .error _ => return files

/-- Whether a place is one of the others or lies below one. -/
def isBelow (places : List String) (place : String) : Bool :=
  places.any fun other => place == other || place.startsWith (other ++ "/")

/-- The tree with what is found at the places and wherever links lead from there. -/
partial def mountAll (mounted : List String) (files : FileSystem) :
    List String → IO FileSystem
  | [] => return files
  | path :: rest => do
    try
      let place := (← IO.FS.realPath path).toString
      if isBelow mounted place then mountAll mounted files rest
      else
        let notebook ← IO.mkRef {}
        let next ← mount notebook files place
        mountAll (place :: mounted) next ((← notebook.get).targets ++ rest)
    catch _ => mountAll mounted files rest

/-- The time, to the nanosecond. -/
def now : IO Timestamp := do
  let nanoseconds := (← Std.Time.Timestamp.now).toNanosecondsSinceUnixEpoch.val
  return ⟨nanoseconds.ediv Timestamp.billion, (nanoseconds.emod Timestamp.billion).toNat⟩

/-- The variables that are set. -/
def readEnvironment : IO Environment :=
  Config.variableNames.filterMapM fun name => do
    return (← IO.getEnv name).map fun value => (name, value)

/-- What the program is given: all but the tree, of which nothing is read yet. -/
def prepare (arguments : List String) : IO Program.Input := do
  let started ← now
  let directory := (← IO.currentDir).toString
  return {
    files := { root := .directory [], workingDirectory := namesOf directory }
    environment := ← readEnvironment
    arguments
    processors := 1
    outputIsTerminal := ← (← IO.getStdout).isTty
    errorsAreTerminal := ← (← IO.getStderr).isTty
    clock := { started, finished := ← now }
    guid := .ofRandom (← IO.getRandomBytes 16).toList }

/-- The input with the places read at which the program is going to look. -/
def look (input : Program.Input) : IO Program.Input := do
  let places := (Program.places input).map Path.display
  return { input with files := ← mountAll [] input.files places }

/-- Writes the report, if there is one. -/
def writeReport (output : Program.Output) : IO Unit :=
  match output.report with
  | none => return
  | some (path, content) => IO.FS.writeBinFile path.display ⟨content.toArray⟩

end FormsAudit.Command

open FormsAudit in
/-- Runs the program on the files of this machine. -/
def main (arguments : List String) : IO UInt32 := do
  let input ← Command.prepare arguments
  let input ← Command.look (← Command.look input)
  let _ := WideDecoders.asciiOnly
  let output := Program.run input
  try
    Command.writeReport output
    IO.print output.shown
    IO.eprint output.errors
    return output.code.toUInt32
  catch error =>
    IO.eprintln s!"IO error: {error}"
    return Failure.exitCode.toUInt32
