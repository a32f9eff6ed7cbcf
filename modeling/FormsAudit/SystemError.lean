/-!
# Errors of the operating system

What can go wrong when a file is opened, read or written, with the words the system has for it.
-/

namespace FormsAudit

/-- The broad kind of a system error. -/
inductive ErrorKind where
  | notFound
  | permissionDenied
  | notADirectory
  | isADirectory
  | alreadyExists
  | invalidInput
  | invalidData
  | invalidFilename
  | filesystemLoop
  | readOnlyFilesystem
  | storageFull
  | interrupted
  | wouldBlock
  | outOfMemory
  | directoryNotEmpty
  | brokenPipe
  | other
  | uncategorized
  deriving DecidableEq, Repr

/-- The name of the kind. -/
def ErrorKind.name : ErrorKind → String
  | .notFound => "NotFound"
  | .permissionDenied => "PermissionDenied"
  | .notADirectory => "NotADirectory"
  | .isADirectory => "IsADirectory"
  | .alreadyExists => "AlreadyExists"
  | .invalidInput => "InvalidInput"
  | .invalidData => "InvalidData"
  | .invalidFilename => "InvalidFilename"
  | .filesystemLoop => "FilesystemLoop"
  | .readOnlyFilesystem => "ReadOnlyFilesystem"
  | .storageFull => "StorageFull"
  | .interrupted => "Interrupted"
  | .wouldBlock => "WouldBlock"
  | .outOfMemory => "OutOfMemory"
  | .directoryNotEmpty => "DirectoryNotEmpty"
  | .brokenPipe => "BrokenPipe"
  | .other => "Other"
  | .uncategorized => "Uncategorized"

/-- An error number of the system, such as 2 for a missing file. -/
structure Errno where
  number : Nat
  deriving DecidableEq, Repr

namespace Errno

def noEntry : Errno := ⟨2⟩
def accessDenied : Errno := ⟨13⟩
def notADirectory : Errno := ⟨20⟩
def isADirectory : Errno := ⟨21⟩
def nameTooLong : Errno := ⟨36⟩
def tooManyLinks : Errno := ⟨40⟩

/-- The system's words for the number, and the kind it belongs to. -/
def describe (errno : Errno) : String × ErrorKind :=
  match errno.number with
  | 1 => ("Operation not permitted", .permissionDenied)
  | 2 => ("No such file or directory", .notFound)
  | 4 => ("Interrupted system call", .interrupted)
  | 5 => ("Input/output error", .uncategorized)
  | 6 => ("No such device or address", .uncategorized)
  | 9 => ("Bad file descriptor", .uncategorized)
  | 11 => ("Resource temporarily unavailable", .wouldBlock)
  | 12 => ("Cannot allocate memory", .outOfMemory)
  | 13 => ("Permission denied", .permissionDenied)
  | 17 => ("File exists", .alreadyExists)
  | 20 => ("Not a directory", .notADirectory)
  | 21 => ("Is a directory", .isADirectory)
  | 22 => ("Invalid argument", .invalidInput)
  | 24 => ("Too many open files", .uncategorized)
  | 28 => ("No space left on device", .storageFull)
  | 30 => ("Read-only file system", .readOnlyFilesystem)
  | 32 => ("Broken pipe", .brokenPipe)
  | 36 => ("File name too long", .invalidFilename)
  | 39 => ("Directory not empty", .directoryNotEmpty)
  | 40 => ("Too many levels of symbolic links", .filesystemLoop)
  | number => (s!"Unknown error {number}", .uncategorized)

end Errno

/-- An error met while a file is used. -/
inductive SystemError where
  /-- The system refused the call. -/
  | refused (errno : Errno)
  /-- A failure of another origin, with a text of its own. -/
  | raised (kind : ErrorKind) (text : String)
  /-- A file read as text is not UTF-8. -/
  | notText
  deriving DecidableEq, Repr

namespace SystemError

/-- The kind of the error. -/
def kind : SystemError → ErrorKind
  | refused errno => errno.describe.2
  | raised kind _ => kind
  | notText => .invalidData

/-- The error in words. -/
def message : SystemError → String
  | refused errno => s!"{errno.describe.1} (os error {errno.number})"
  | raised _ text => text
  | notText => "stream did not contain valid UTF-8"

end SystemError

end FormsAudit
