import FormsAudit.FileReference
import FormsAudit.Path.Glob

/-!
# Selections of files

Which files of a project are wanted: those with certain extensions, case ignored, that no pattern
excludes.
-/

namespace FormsAudit

/-- Which files are wanted, and whether links are followed to find them. -/
structure Selection where
  /-- Extensions without leading dots, in lower case. -/
  extensions : List (List Char)
  excluded : List Glob
  followLinks : Bool

/-- A pattern that cannot be read. -/
structure PatternFault where
  pattern : String
  fault : GlobFault
  deriving DecidableEq, Repr

/-- The fault in words. -/
def PatternFault.message (fault : PatternFault) : String :=
  s!"Invalid glob pattern '{fault.pattern}': error parsing glob '{fault.pattern}': " ++
    fault.fault.message

namespace Selection

/-- An extension as it is compared. -/
def normalExtension (extension : String) : List Char :=
  Unicode.lowercase (extension.toList.dropWhile (· = '.'))

/-- The patterns read, or the first that cannot be. -/
def readPatterns : List String → Except PatternFault (List Glob)
  | [] => .ok []
  | pattern :: rest =>
    match Glob.parse pattern with
    | .error fault => .error ⟨pattern, fault⟩
    | .ok glob => (readPatterns rest).map (glob :: ·)

/-- The selection of files with one of the extensions that none of the patterns matches. -/
def make (extensions patterns : List String) (followLinks : Bool) :
    Except PatternFault Selection :=
  (readPatterns patterns).map fun globs =>
    ⟨extensions.map normalExtension, globs, followLinks⟩

/-- The selection of documents, when nothing else is asked for. -/
def documents : Selection := ⟨[normalExtension "xml"], [], false⟩

/-- Whether the file's extension, as text and in lower case, is wanted. -/
def wantsExtension (selection : Selection) (path : Path) : Bool :=
  match path.extension?.bind Utf8.decode? with
  | none => false
  | some extension => selection.extensions.contains (Unicode.lowercase extension)

/-- Whether a pattern excludes the reference. -/
def excludes (selection : Selection) (relative : String) : Bool :=
  selection.excluded.any (·.isMatch relative)

/-- Whether the file is wanted. -/
def accepts (selection : Selection) (file : FileReference) : Bool :=
  selection.wantsExtension file.path && !selection.excludes file.relative

end Selection

end FormsAudit
