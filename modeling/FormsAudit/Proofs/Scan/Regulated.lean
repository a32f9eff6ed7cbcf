import FormsAudit.Proofs.Pool.Regulated
import FormsAudit.Proofs.Scan.Validation

/-!
# Permits in an audit of many files

An audit of many files is a run of a pool, and so its permits are neither made nor lost, no more files
are audited at a time than there are permits, and it never gets stuck (`Pool.regulated`).  No file is
reported as one whose task was turned away (`validation_regulated`): what comes of a file is its own
audit or that it was skipped.
-/

namespace FormsAudit.Scan

variable {fs : FileSystem} {index : ScriptIndex} {spent : FileReference → Duration}
  {watcher : Watcher} {limit : Nat} {cancelled : Bool} {files : List FileReference}
  {moves : List Pool.Move} {pool : Pool FileReference Outcome}

/-- A file that is audited is not passed over. -/
theorem status_ofFile_ne_skipped [WideDecoders] (file : FileReference) (reason : String) :
    (Outcome.ofFile fs index spent file).result.status ≠ .skipped reason := by
  unfold Outcome.ofFile
  cases auditFile fs index file with
  | error error => simp [Outcome.ofAudit, Outcome.unread]
  | ok diagnostics =>
    simp only [Outcome.ofAudit, Outcome.statusOf]
    split <;> simp

/-- **An audit of many files is regulated by its permits**, and no file is turned away. -/
theorem validation_regulated [WideDecoders]
    (hplay : (Pool.start limit cancelled files).play?
      (work fs index spent watcher files.length) moves = some pool) :
    Pool.Regulated (work fs index spent watcher files.length) limit cancelled files moves pool ∧
      ∀ task ∈ pool.tasks, ∀ outcome, task.2.verdict? = some outcome →
        outcome.result.status ≠ .skipped "validation pool closed" := by
  have hregulated := Pool.regulated (Pool.played_iff.mpr hplay)
  refine ⟨hregulated, fun task htask outcome hverdict => ?_⟩
  obtain (rfl | rfl) | ⟨_, _, hfault, -⟩ := hregulated.verdict task htask outcome hverdict
  · simp [work, Outcome.skipped, Outcome.unaudited]
  · exact status_ofFile_ne_skipped task.1 "validation pool closed"
  · cases hfault

/-- The first task has passed its file over, as the run was cancelled, and has given the only permit
back; the second one has taken it. -/
def handedOver : List Pool.Move :=
  [.advance 0, .cancel, .advance 0, .advance 0, .advance 1]

attribute [local instance] WideDecoders.asciiOnly

theorem validation_regulated_handedOver :
    ∃ pool, (Pool.start 0 false twoFiles).play?
        (work sideBySide .empty (fun _ => .zero) .patient twoFiles.length) handedOver = some pool ∧
      pool.isDone = false ∧ pool.permits = 0 ∧ pool.holders = 1 ∧
      Pool.HasPermit (work sideBySide .empty (fun _ => .zero) .patient twoFiles.length)
        (.start 0 false twoFiles) handedOver 1 ∧
      Pool.Regulated (work sideBySide .empty (fun _ => .zero) .patient twoFiles.length) 0 false
        twoFiles handedOver pool := by
  have hplay : ∃ pool, (Pool.start 0 false twoFiles).play?
      (work sideBySide .empty (fun _ => .zero) .patient twoFiles.length) handedOver = some pool ∧
      pool.isDone = false ∧ pool.permits = 0 ∧ pool.holders = 1 ∧
      pool.tasks[1]? = some (⟨"b.xml", .ofString "/b.xml"⟩, .admitted) :=
    ⟨_, rfl, rfl, rfl, rfl, rfl⟩
  obtain ⟨pool, hplay, hdone, hpermits, hholders, htask⟩ := hplay
  obtain ⟨hregulated, -⟩ := validation_regulated hplay
  have hsecond := (hregulated.holdsPermit_iff 1 _ .admitted htask).mp rfl
  exact ⟨pool, hplay, hdone, hpermits, hholders, hsecond, hregulated⟩

end FormsAudit.Scan
