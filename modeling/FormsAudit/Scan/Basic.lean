import FormsAudit.Config.Basic
import FormsAudit.Discovery.Walk
import FormsAudit.Pool
import FormsAudit.Scan.Outcome

/-!
# Scans

A scan finds the documents and the scripts below a root, indexes the scripts and then audits the
documents, at most so many at a time.  What comes of the documents is put together in their order,
whatever the order in which they were finished.  Someone may watch how far the scan has come, and
cancel it.
-/

namespace FormsAudit.Scan

/-! ## What a scan is told and what it tells -/

/-- What a scan is about to do, or has just done. -/
inductive Phase where
  | discovery
  | indexing
  | validation
  | complete
  deriving DecidableEq, Repr

/-- How far a scan has come. -/
structure Progress where
  phase : Phase
  /-- The file that has just been finished. -/
  file : Option String
  completed : Nat
  total : Nat
  deriving DecidableEq, Repr

/-- Someone who is told how far a scan has come, and says whether to cancel it. -/
abbrev Watcher := Progress → Bool

/-- A watcher who lets the scan go on. -/
def Watcher.patient : Watcher := fun _ => false

/-- What is logged as not in order, although the scan goes on. -/
inductive Warning where
  | skippedEntry (entry : SkippedEntry)
  | collision (collision : ScriptIndex.Collision)
  | unreadableFiles (files failed : Nat)
  deriving DecidableEq, Repr

/-- What the clock shows during a scan. -/
structure Clock where
  started : Timestamp
  finished : Timestamp
  /-- How long the audit of a file takes. -/
  spent : FileReference → Duration := fun _ => .zero

/-- What is scanned, and how many files at a time. -/
structure Settings where
  documents : Selection
  scripts : Selection
  limit : Nat

/-! ## The audit of many files -/

/-- What comes of an audit of many files. -/
structure Validation where
  results : Results
  notices : List Progress
  cancelled : Bool
  deriving DecidableEq, Repr

/-- That a file is the so-manieth to be finished. -/
def Progress.ofFile (total : Nat) (file : FileReference) (place : Nat) : Progress :=
  ⟨.validation, some file.relative, place, total⟩

variable [WideDecoders]

/-- What is done with each of `total` files.  Neither an audit nor a watcher breaks down. -/
def work (fs : FileSystem) (index : ScriptIndex) (spent : FileReference → Duration)
    (watcher : Watcher) (total : Nat) : Work FileReference Outcome where
  attempt file := .ok (Outcome.ofFile fs index spent file)
  breakDown file words := Outcome.broken file (spent file) words
  passOver := Outcome.skipped
  turnAway := Outcome.turnedAway
  cancels file place := watcher (.ofFile total file place)
  fault? _ _ := none
  lose file words := Outcome.broken file .zero words

/-- The results of the files' outcomes, put together in order. -/
def merge (outcomes : List Outcome) : Results :=
  outcomes.foldl (fun results outcome => results.add outcome.result outcome.diagnostics) .empty

/-- What a pool of audits comes to. -/
def Validation.ofPool (pool : Pool FileReference Outcome) : Validation where
  results := merge pool.outcomes
  notices := pool.notices.map fun (file, place) => .ofFile pool.tasks.length file place
  cancelled := pool.cancelled

/-- Audits the files, at most `limit` at a time. -/
def validate (fs : FileSystem) (index : ScriptIndex) (spent : FileReference → Duration)
    (watcher : Watcher) (limit : Nat) (cancelled : Bool) (files : List FileReference) :
    Validation :=
  .ofPool ((Pool.start limit cancelled files).run (work fs index spent watcher files.length))

/-- The warning that files could not be read, if there are any. -/
def unreadableWarning? (results : Results) : Option Warning :=
  if results.unreadableFiles = 0 then none
  else some (.unreadableFiles results.totalFiles results.unreadableFiles)

/-! ## The scan -/

/-- What comes of a scan. -/
structure Record where
  run : Except Failure Run
  notices : List Progress
  warnings : List Warning
  /-- Whether the scan has been cancelled. -/
  cancelled : Bool

/-- The documents and the scripts below the root, and the entries passed over for each. -/
def findFiles (fs : FileSystem) (settings : Settings) (root : Path) :
    Except DiscoveryFault
      ((List FileReference × List FileReference) × List SkippedEntry) := do
  let (documents, skipped) ← Discovery.discover fs settings.documents root
  let (scripts, others) ← Discovery.discover fs settings.scripts root
  return ((documents, scripts), skipped ++ others)

/-- That the files are looked for. -/
def Progress.starting : Progress := ⟨.discovery, none, 0, 0⟩

/-- That so many files are found and the scripts are being indexed. -/
def Progress.indexing (total : Nat) : Progress := ⟨.indexing, none, 0, total⟩

/-- That all of so many files are finished. -/
def Progress.ended (total : Nat) : Progress := ⟨.complete, none, total, total⟩

/-- What a scan comes to, once the documents are audited. -/
def conclude (documents scripts : List FileReference) (warnings : List Warning) (clock : Clock)
    (watcher : Watcher) (validation : Validation) : Record :=
  let results := validation.results
  let ended := Progress.ended results.totalFiles
  { run := .ok
      { ruleSet := .scan
        files := documents
        scriptCount := scripts.length
        results
        started := clock.started
        finished := clock.finished }
    notices := .starting :: .indexing documents.length :: (validation.notices ++ [ended])
    warnings := warnings ++ (unreadableWarning? results).toList
    cancelled := validation.cancelled || watcher ended }

/-- Scans the files below `root`. -/
def run (fs : FileSystem) (settings : Settings) (root : Path) (clock : Clock)
    (watcher : Watcher) (cancelled : Bool) : Record :=
  let cancelled := cancelled || watcher .starting
  match findFiles fs settings root with
  | .error fault => ⟨.error (.discovery fault), [.starting], [], cancelled⟩
  | .ok ((documents, scripts), skipped) =>
    let (index, collisions) := ScriptIndex.ofFiles scripts
    let warnings := skipped.map .skippedEntry ++ collisions.map .collision
    let cancelled := cancelled || watcher (.indexing documents.length)
    conclude documents scripts warnings clock watcher
      (validate fs index clock.spent watcher settings.limit cancelled documents)

end FormsAudit.Scan
