import FormsAudit.Proofs.Pool.Settled
import FormsAudit.Scan.Basic
import Mathlib.Data.Finset.Basic
import Mathlib.Data.Finset.Filter
import Mathlib.Data.Finset.Range

/-!
# Audits of many files

Whatever the order in which the tasks of an audit take their steps, and whenever it is cancelled,
its results are those of a set of files that were passed over and of the others audited alone, in
the order of the files (`exists_accounts`).  The files passed over are those whose tasks looked at
the flag after it was set; without a cancellation there are none.
-/

namespace FormsAudit.Scan

variable {fs : FileSystem} {index : ScriptIndex} {spent : FileReference → Duration}
  {watcher : Watcher} {limit : Nat} {cancelled : Bool} {files : List FileReference}
  {moves : List Pool.Move} {pool : Pool FileReference Outcome}

/-! ## Results put together -/

theorem merge_concat (outcomes : List Outcome) (outcome : Outcome) :
    merge (outcomes ++ [outcome]) = (merge outcomes).add outcome.result outcome.diagnostics := by
  simp [merge]

theorem fileResults_merge (outcomes : List Outcome) :
    (merge outcomes).fileResults = outcomes.map (·.result) := by
  induction outcomes using List.reverseRecOn with
  | nil => rfl
  | append_singleton outcomes outcome ih => simp [merge_concat, ih]

theorem diagnostics_merge (outcomes : List Outcome) :
    (merge outcomes).diagnostics = outcomes.flatMap (·.diagnostics) := by
  induction outcomes using List.reverseRecOn with
  | nil => rfl
  | append_singleton outcomes outcome ih => simp [merge_concat, ih]

/-! ## What the results are made of -/

section

variable [WideDecoders]

/-- The result and the findings are those of the file audited alone, or say that it cannot be read. -/
def Alone (fs : FileSystem) (index : ScriptIndex) (file : FileReference) (result : FileResult)
    (findings : List Diagnostic) : Prop :=
  result.file = file.relative ∧
    match auditFile fs index file with
    | .ok diagnostics =>
      findings = diagnostics ∧
        result.status = if diagnostics = [] then .clean else .findings diagnostics.length
    | .error error =>
      ∃ finding, finding = .unreadableFile file.relative (Failure.system error).message ∧
        finding.rule.id = "IO-ERROR" ∧ findings = [finding] ∧
          result.status = .unreadable finding.message

/-- The outcomes of the files, of which those at the places `skipped` are passed over. -/
def blocks (fs : FileSystem) (index : ScriptIndex) (spent : FileReference → Duration)
    (files : List FileReference) (skipped : Finset Nat) : List Outcome :=
  files.zipIdx.map fun (file, place) =>
    if place ∈ skipped then Outcome.skipped file else Outcome.ofFile fs index spent file

/-- The task of the file at `place` looks at the flag after the run is cancelled: from the start, by
a move or by the watcher, when it was told of a file. -/
def LooksAfterCancel (fs : FileSystem) (index : ScriptIndex) (spent : FileReference → Duration)
    (watcher : Watcher) (limit : Nat) (cancelled : Bool) (files : List FileReference)
    (moves : List Pool.Move) (place : Nat) : Prop :=
  ∃ before reached,
    Pool.TookAt (work fs index spent watcher files.length) (.start limit cancelled files) moves
        place .admitted before reached ∧
      (cancelled = true ∨ .cancel ∈ before ∨
        ∃ notice ∈ reached.notices, watcher (.ofFile files.length notice.1 notice.2) = true)

/-- The validation accounts for every file, those at the places `skipped` being passed over; the
findings of each are one of the blocks. -/
structure Accounts (fs : FileSystem) (index : ScriptIndex) (spent : FileReference → Duration)
    (watcher : Watcher) (limit : Nat) (cancelled : Bool) (files : List FileReference)
    (moves : List Pool.Move) (validation : Validation) (skipped : Finset Nat)
    (blocks : List (List Diagnostic)) : Prop where
  /-- There is one result for each file. -/
  length_fileResults : validation.results.fileResults.length = files.length
  /-- There is one block of findings for each file. -/
  length_blocks : blocks.length = files.length
  /-- The findings are those of each file, in order. -/
  diagnostics : validation.results.diagnostics = blocks.flatten
  /-- A file that is passed over is skipped, and there are no findings in it. -/
  passedOver : ∀ place ∈ skipped, ∃ file, files[place]? = some file ∧
    validation.results.fileResults[place]? =
      some ⟨file.relative, .skipped "run cancelled", .zero⟩ ∧
    blocks[place]? = some []
  /-- A file that is not passed over has the result and the findings of an audit of its own. -/
  alone : ∀ place ∉ skipped, ∀ file, files[place]? = some file → ∃ result findings,
    validation.results.fileResults[place]? = some result ∧ blocks[place]? = some findings ∧
      Alone fs index file result findings
  mem_skipped_iff : ∀ place, place ∈ skipped ↔
    LooksAfterCancel fs index spent watcher limit cancelled files moves place
  skipped_eq_empty : cancelled = false → .cancel ∉ moves →
    (∀ notice ∈ validation.notices, watcher notice = false) → skipped = ∅
  /-- A file that is not passed over is audited once. -/
  performs : ∀ place < files.length, place ∉ skipped →
    ∃! before, Pool.Performs (work fs index spent watcher files.length)
      (.start limit cancelled files) moves place before
  /-- A file that is passed over is not audited. -/
  not_performs : ∀ place ∈ skipped, ∀ before,
    ¬ Pool.Performs (work fs index spent watcher files.length)
      (.start limit cancelled files) moves place before

theorem alone_ofFile (file : FileReference) :
    Alone fs index file (Outcome.ofFile fs index spent file).result
      (Outcome.ofFile fs index spent file).diagnostics := by
  unfold Alone Outcome.ofFile
  cases auditFile fs index file with
  | ok diagnostics => exact ⟨rfl, rfl, by simp [Outcome.ofAudit, Outcome.statusOf]⟩
  | error error => exact ⟨rfl, _, rfl, rfl, rfl, rfl⟩

section Blocks

variable {skipped : Finset Nat} {place : Nat} {file : FileReference}
  (hfile : files[place]? = some file)

include hfile

theorem getElem?_blocks_of_mem (hplace : place ∈ skipped) :
    (blocks fs index spent files skipped)[place]? = some (Outcome.skipped file) := by
  simp [blocks, List.getElem?_zipIdx, hfile, hplace]

theorem getElem?_blocks_of_notMem (hplace : place ∉ skipped) :
    (blocks fs index spent files skipped)[place]? = some (Outcome.ofFile fs index spent file) := by
  simp [blocks, List.getElem?_zipIdx, hfile, hplace]

end Blocks

/-! ## Runs of an audit -/

/-- The flag that a task finds is set when the run has been cancelled before. -/
theorem looksAfterCancel_iff {place : Nat} :
    LooksAfterCancel fs index spent watcher limit cancelled files moves place ↔
      Pool.Looked (work fs index spent watcher files.length) (.start limit cancelled files) moves
        place true := by
  unfold LooksAfterCancel Pool.Looked
  refine exists_congr fun before => exists_congr fun reached => and_congr_right ?_
  intro htook
  exact (htook.2.1.cancelled_iff rfl).symm

theorem lt_length_of_looksAfterCancel {place : Nat}
    (h : LooksAfterCancel fs index spent watcher limit cancelled files moves place) :
    place < files.length := by
  obtain ⟨before, reached, ⟨-, hreached, job, htask⟩, -⟩ := h
  have hjobs := congrArg List.length hreached.jobs_eq
  have hplace := (List.getElem?_eq_some_iff.mp htask).1
  simp only [Pool.start, List.length_map] at hjobs
  omega

/-- Where no one cancels the run, no task finds it cancelled. -/
theorem not_looksAfterCancel {place : Nat}
    (hplayed : Pool.Played (work fs index spent watcher files.length)
      (.start limit cancelled files) moves pool)
    (hcancelled : cancelled = false) (hmoves : .cancel ∉ moves)
    (hnotices : ∀ notice ∈ (Validation.ofPool pool).notices, watcher notice = false) :
    ¬ LooksAfterCancel fs index spent watcher limit cancelled files moves place := by
  rintro ⟨before, reached, htook, hstart | hcancel | ⟨notice, hnotice, hwatcher⟩⟩
  -- the run would have been cancelled from the start, by a move or by the watcher
  · rw [hcancelled] at hstart
    cases hstart
  · exact hmoves (htook.1.subset (List.mem_append_left _ hcancel))
  · have hpre := hplayed.notices_isPrefix htook.2.1 (isPrefix_of_concat htook.1)
    have hlength : pool.tasks.length = files.length := by
      rw [← List.length_map (f := Prod.fst), hplayed.jobs_of_start]
    have hquiet := hnotices _ (List.mem_map_of_mem (hpre.subset hnotice))
    rw [hlength, hwatcher] at hquiet
    cases hquiet

/-- What comes of the tasks depends only on which of them looked after the run was cancelled. -/
theorem outcomes_eq_blocks
    (hplayed : Pool.Played (work fs index spent watcher files.length)
      (.start limit cancelled files) moves pool)
    (hdone : pool.isDone = true) {skipped : Finset Nat}
    (hmem : ∀ place, place ∈ skipped ↔
      LooksAfterCancel fs index spent watcher limit cancelled files moves place) :
    pool.outcomes = blocks fs index spent files skipped := by
  apply Pool.outcomes_eq_of_forall hdone hplayed.jobs_of_start (fun place file =>
    if place ∈ skipped then Outcome.skipped file else Outcome.ofFile fs index spent file)
  intro place file outcome htask
  obtain ⟨hpassed, hperformed⟩ := Pool.outcome_of_finished hplayed (Pool.fresh_start ..) htask
  rw [← looksAfterCancel_iff, ← hmem] at hpassed hperformed
  split
  · rename_i hplace
    obtain ⟨⟨_, houtcome⟩, -⟩ := hpassed hplace
    exact houtcome
  · rename_i hplace
    obtain ⟨⟨_, houtcome⟩, -⟩ := hperformed hplace
    exact houtcome

/-- **Every order of the tasks' steps accounts for every file.** -/
theorem exists_accounts
    (hplay : (Pool.start limit cancelled files).play?
      (work fs index spent watcher files.length) moves = some pool)
    (hdone : pool.isDone = true) :
    ∃ skipped blocks, Accounts fs index spent watcher limit cancelled files moves (.ofPool pool)
      skipped blocks := by
  classical
  have hplayed := Pool.played_iff.mpr hplay
  set skipped := (Finset.range files.length).filter
    (LooksAfterCancel fs index spent watcher limit cancelled files moves) with hskipped
  have hmem : ∀ place, place ∈ skipped ↔
      LooksAfterCancel fs index spent watcher limit cancelled files moves place := by
    intro place
    rw [hskipped, Finset.mem_filter, Finset.mem_range]
    exact and_iff_right_of_imp lt_length_of_looksAfterCancel
  have houtcomes := outcomes_eq_blocks hplayed hdone hmem
  have hfinished : ∀ place < files.length, ∃ file outcome,
      pool.tasks[place]? = some (file, Stage.finished outcome) := by
    intro place hplace
    have hfile := List.getElem?_eq_getElem hplace
    exact ⟨files[place], Pool.exists_finished hdone hplayed.jobs_of_start hfile⟩
  have hresults : (Validation.ofPool pool).results.fileResults =
      (blocks fs index spent files skipped).map (·.result) := by
    rw [← houtcomes]
    exact fileResults_merge pool.outcomes
  have hlength : (blocks fs index spent files skipped).length = files.length := by simp [blocks]
  refine ⟨skipped, (blocks fs index spent files skipped).map (·.diagnostics), ?_⟩
  constructor
  case length_fileResults => rw [hresults, List.length_map, hlength]
  case length_blocks => rw [List.length_map, hlength]
  case diagnostics =>
    rw [← List.flatMap_def, ← houtcomes]
    exact diagnostics_merge pool.outcomes
  case passedOver =>
    intro place hplace
    have hfile := List.getElem?_eq_getElem
      (lt_length_of_looksAfterCancel ((hmem place).mp hplace))
    refine ⟨_, hfile, ?_, ?_⟩
    · rw [hresults, List.getElem?_map, getElem?_blocks_of_mem hfile hplace]
      rfl
    · rw [List.getElem?_map, getElem?_blocks_of_mem hfile hplace]
      rfl
  case alone =>
    intro place hplace file hfile
    have halone : Alone fs index file (Outcome.ofFile fs index spent file).result
      (Outcome.ofFile fs index spent file).diagnostics := alone_ofFile file
    refine ⟨_, _, ?_, ?_, halone⟩
    · rw [hresults, List.getElem?_map, getElem?_blocks_of_notMem hfile hplace]
      rfl
    · rw [List.getElem?_map, getElem?_blocks_of_notMem hfile hplace]
      rfl
  case mem_skipped_iff => exact hmem
  case skipped_eq_empty =>
    intro hcancelled hmoves hnotices
    apply Finset.eq_empty_of_forall_notMem
    intro place hplace
    exact not_looksAfterCancel hplayed hcancelled hmoves hnotices ((hmem place).mp hplace)
  case performs =>
    intro place hplace hnot
    obtain ⟨file, outcome, htask⟩ := hfinished place hplace
    rw [hmem, looksAfterCancel_iff] at hnot
    exact ((Pool.outcome_of_finished hplayed (Pool.fresh_start ..) htask).2 hnot).2
  case not_performs =>
    intro place hplace
    have hlooks := (hmem place).mp hplace
    obtain ⟨file, outcome, htask⟩ := hfinished place (lt_length_of_looksAfterCancel hlooks)
    rw [looksAfterCancel_iff] at hlooks
    exact ((Pool.outcome_of_finished hplayed (Pool.fresh_start ..) htask).1 hlooks).2

end

/-- A tree of two documents. -/
def sideBySide : FileSystem :=
  ⟨.directory [("a.xml".toUTF8.toList, .file "<a/>".toUTF8.toList),
    ("b.xml".toUTF8.toList, .file "<b>".toUTF8.toList)], [], []⟩

/-- The two documents. -/
def twoFiles : List FileReference :=
  [⟨"a.xml", .ofString "/a.xml"⟩, ⟨"b.xml", .ofString "/b.xml"⟩]

/-- Two tasks take turns.  The run is cancelled after the first has looked and before the second
does. -/
def cancelledMidway : List Pool.Move :=
  [.advance 1, .advance 0, .advance 0, .cancel, .advance 1, .advance 0, .advance 1, .advance 0,
    .advance 0, .advance 1, .advance 1, .advance 0]

attribute [local instance] WideDecoders.asciiOnly

theorem exists_accounts_cancelledMidway :
    ∃ pool skipped blocks,
      (Pool.start 2 false twoFiles).play?
          (work sideBySide .empty (fun _ => .zero) .patient twoFiles.length)
          cancelledMidway = some pool ∧
        pool.isDone = true ∧
        Accounts sideBySide .empty (fun _ => .zero) .patient 2 false twoFiles
          cancelledMidway (.ofPool pool) skipped blocks := by
  have hdone : ∃ pool, (Pool.start 2 false twoFiles).play?
      (work sideBySide .empty (fun _ => .zero) .patient twoFiles.length)
      cancelledMidway = some pool ∧ pool.isDone = true := ⟨_, rfl, rfl⟩
  obtain ⟨pool, hplay, hdone⟩ := hdone
  obtain ⟨skipped, blocks, haccounts⟩ := exists_accounts hplay hdone
  exact ⟨pool, skipped, blocks, hplay, hdone, haccounts⟩

end FormsAudit.Scan
