import FormsAudit.Proofs.Pool.InOrder
import FormsAudit.Proofs.Pool.Settled

/-!
# Permits in a run

At each moment of a run the permits that are free and those that tasks have are as many as in the
beginning.  Who has a permit is told by what has happened: the task was given one and has not given it
back (`Played.holdsPermit_iff`).  A job is only done by a task that has a permit, so no more jobs are
done at a time than there are permits.

No pool gets stuck, for where no task has a permit all of them are free (`exists_advance`).  A step
leaves fewer steps to take, so a run has a bounded number of them, and one that no step can continue
has finished all tasks.  `Regulated` puts this together for the runs of a pool from its start
(`regulated`).
-/

namespace FormsAudit

namespace Stage

variable {β : Type}

/-- Whether the task does its job. -/
def isWorking : Stage β → Bool
  | working => true
  | _ => false

/-- What has come of the job, where the task is through with it. -/
def verdict? : Stage β → Option β
  | judged outcome | released outcome | counted outcome _ | finished outcome => some outcome
  | _ => none

theorem holdsPermit_of_isWorking {stage : Stage β} (h : stage.isWorking = true) :
    stage.holdsPermit = true := by
  cases stage with
  | working => rfl
  | _ => cases h

end Stage

namespace Pool

variable {α β : Type} {work : Work α β} {first pool next : Pool α β} {moves : List Move}
  {index : Nat} {job : α} {stage : Stage β}

/-! ## Who has a permit -/

/-- The task is given a permit in the step after `before`. -/
def Admits (work : Work α β) (first : Pool α β) (moves : List Move) (index : Nat)
    (before : List Move) : Prop :=
  ∃ reached, TookAt work first moves index .waiting before reached ∧ reached.closed = false

/-- The task gives its permit back in the step after `before`. -/
def Releases (work : Work α β) (first : Pool α β) (moves : List Move) (index : Nat)
    (before : List Move) : Prop :=
  ∃ reached outcome, TookAt work first moves index (.judged outcome) before reached

/-- The task has been given a permit and has not given it back. -/
def HasPermit (work : Work α β) (first : Pool α β) (moves : List Move) (index : Nat) : Prop :=
  (∃ before, Admits work first moves index before) ∧
    ¬ ∃ before, Releases work first moves index before

/-- What has happened to the permit of a task that is at a stage. -/
def Accounted (work : Work α β) (first : Pool α β) (moves : List Move) (index : Nat) :
    Stage β → Prop
  | .waiting => True
  | .admitted | .working | .judged _ => ∃ before, Admits work first moves index before
  | .released _ | .counted _ _ | .finished _ =>
    (∃ before, Admits work first moves index before) ∧
      ∃ before, Releases work first moves index before

theorem Admits.unique {before before' : List Move} (h : Admits work first moves index before)
    (h' : Admits work first moves index before') : before = before' := by
  obtain ⟨reached, htook, -⟩ := h
  obtain ⟨reached', htook', -⟩ := h'
  exact htook.unique htook' rfl

theorem Accounted.of_isPrefix {others : List Move} (h : Accounted work first moves index stage)
    (hpre : moves <+: others) : Accounted work first others index stage := by
  have hadmits : (∃ before, Admits work first moves index before) →
      ∃ before, Admits work first others index before := by
    rintro ⟨before, reached, htook, hopen⟩
    exact ⟨before, reached, htook.of_isPrefix hpre, hopen⟩
  have hreleases : (∃ before, Releases work first moves index before) →
      ∃ before, Releases work first others index before := by
    rintro ⟨before, reached, outcome, htook⟩
    exact ⟨before, reached, outcome, htook.of_isPrefix hpre⟩
  cases stage with
  | waiting => trivial
  | admitted | working | judged => exact hadmits h
  | released | counted | finished => exact ⟨hadmits h.1, hreleases h.2⟩

theorem Accounted.step (h : Played work first moves pool) (hopen : pool.closed = false)
    (htask : pool.tasks[index]? = some (job, stage))
    (haccounted : Accounted work first moves index stage)
    (hstep : Stepped work pool index job stage next) :
    ∃ after, next.tasks[index]? = some (job, after) ∧
      Accounted work first (moves ++ [.advance index]) index after := by
  have hindex : index < pool.tasks.length := (List.getElem?_eq_some_iff.mp htask).1
  have htook := h.tookAt htask
  have hkept := haccounted.of_isPrefix (List.prefix_append moves [.advance index])
  cases hstep with
  | acquire => exact ⟨.admitted, List.getElem?_set_self hindex, moves, pool, htook, hopen⟩
  | turnAway hclosed =>
    rw [hopen] at hclosed
    cases hclosed
  | passOver | begin | perform => exact ⟨_, List.getElem?_set_self hindex, hkept⟩
  | release outcome =>
    exact ⟨.released outcome, List.getElem?_set_self hindex, hkept, moves, pool, outcome, htook⟩
  | count outcome => exact ⟨.counted outcome _, List.getElem?_set_self hindex, hkept⟩
  | notify outcome place => exact ⟨.finished _, List.getElem?_set_self hindex, hkept⟩

theorem Played.accounted (h : Played work first moves pool) (hfirst : Fresh first)
    (htask : pool.tasks[index]? = some (job, stage)) :
    Accounted work first moves index stage := by
  refine Played.forall_stage (P := fun moves _ => Accounted work first moves index) hfirst
    (fun _ => trivial) (fun hpre h => h.of_isPrefix hpre) ?_ h htask
  intro moves pool next job stage hmoves htask haccounted hstep
  exact haccounted.step hmoves (hmoves.closed_eq.trans hfirst.isOpen) htask hstep

/-- A task that has taken a step is past the stage at which it took it. -/
theorem TookAt.past {earlier : Stage β} {before : List Move} {reached : Pool α β}
    (htook : TookAt work first moves index earlier before reached)
    (h : Played work first moves pool) (htask : pool.tasks[index]? = some (job, stage)) :
    stage.stepsLeft < earlier.stepsLeft := by
  obtain ⟨other, after, hafter, hlt⟩ := htook.stepsLeft_lt h
  obtain ⟨-, rfl⟩ := Prod.mk.inj (Option.some.inj (htask.symm.trans hafter))
  exact hlt

/-- **The stage of a task tells whether it has a permit.** -/
theorem Played.holdsPermit_iff (h : Played work first moves pool) (hfirst : Fresh first)
    (htask : pool.tasks[index]? = some (job, stage)) :
    stage.holdsPermit = true ↔ HasPermit work first moves index := by
  have haccounted := h.accounted hfirst htask
  have hadmitted : (∃ before, Admits work first moves index before) → stage.stepsLeft < 6 := by
    rintro ⟨before, reached, htook, -⟩
    exact htook.past h htask
  have hreleased : (∃ before, Releases work first moves index before) → stage.stepsLeft < 3 := by
    rintro ⟨before, reached, outcome, htook⟩
    exact htook.past h htask
  cases stage with
  | waiting =>
    refine iff_of_false Bool.false_ne_true fun hhas => ?_
    exact absurd (hadmitted hhas.1) (by simp [Stage.stepsLeft])
  | admitted | working | judged =>
    refine iff_of_true rfl ⟨haccounted, fun hback => ?_⟩
    exact absurd (hreleased hback) (by simp [Stage.stepsLeft])
  | released | counted | finished =>
    exact iff_of_false Bool.false_ne_true fun hhas => hhas.2 haccounted.2

/-! ## Steps that can be taken -/

/-- **A pool is not stuck while a task is unfinished.** -/
theorem exists_advance (work : Work α β) (hpermits : 0 < pool.permits + pool.holders)
    (hdone : pool.isDone = false) : ∃ index next, pool.advance? work index = some next := by
  by_contra hstuck
  push Not at hstuck
  have hheld : ∀ task ∈ pool.tasks, task.2.stepsLeft = 0 ∨
      task.2 = .waiting ∧ pool.closed = false ∧ pool.permits = 0 := by
    rintro ⟨job, stage⟩ hmem
    obtain ⟨index, htask⟩ := List.getElem?_of_mem hmem
    exact (advance?_eq_none_iff htask).mp (Option.eq_none_iff_forall_ne_some.mpr (hstuck index))
  -- all permits are free, and some task waits
  have hholders : pool.holders = 0 :=
    holders_eq_zero fun task htask => (hheld task htask).symm.imp_left And.left
  obtain ⟨task, htask, hsteps⟩ : ∃ task ∈ pool.tasks, task.2.stepsLeft ≠ 0 := by
    simpa [isDone] using hdone
  obtain ⟨-, -, hnone⟩ := (hheld task htask).resolve_left hsteps
  omega

/-- Whether the move is a step of a task. -/
def Move.isStep : Move → Bool
  | .advance _ => true
  | .cancel => false

/-- Each step of a run leaves fewer steps to take. -/
theorem Played.steps_add_stepsLeft_le (h : Played work first moves pool) :
    moves.countP Move.isStep + pool.stepsLeft ≤ first.stepsLeft := by
  induction h with
  | start => simp
  | @move moves pool next last _ hlast ih =>
    rw [List.countP_append, List.countP_singleton]
    cases last with
    | cancel =>
      obtain rfl := Option.some.inj hlast
      exact ih
    | advance index =>
      obtain ⟨job, stage, htask, hstep⟩ := exists_stepped hlast
      have hlt := hstep.stepsLeft_lt htask
      simp only [Move.isStep, if_true]
      omega

theorem stepsLeft_start (limit : Nat) (cancelled : Bool) (jobs : List α) :
    (start limit cancelled jobs : Pool α β).stepsLeft = 6 * jobs.length := by
  simp only [stepsLeft, start]
  induction jobs with
  | nil => rfl
  | cons job jobs ih =>
    rw [List.map_cons, List.foldr_cons, ih, List.length_cons, Stage.stepsLeft]
    omega

/-- Steps of the tasks alone finish every pool that a run has led to. -/
theorem Played.exists_finish (h : Played work first moves pool)
    (hpermits : 0 < pool.permits + pool.holders) :
    ∃ more last, .cancel ∉ more ∧ Played work first (moves ++ more) last ∧ last.isDone = true := by
  induction hsteps : pool.stepsLeft using Nat.strong_induction_on generalizing moves pool with
  | _ steps ih =>
    cases hdone : pool.isDone with
    | true => exact ⟨[], pool, List.not_mem_nil, (List.append_nil moves).symm ▸ h, hdone⟩
    | false =>
      obtain ⟨index, next, hnext⟩ := exists_advance work hpermits hdone
      obtain ⟨job, stage, htask, hstep⟩ := exists_stepped hnext
      have hlt : next.stepsLeft < steps := hsteps ▸ hstep.stepsLeft_lt htask
      have hkept : 0 < next.permits + next.holders := by
        rw [hstep.permits_add_holders htask]
        exact hpermits
      obtain ⟨more, last, hcancel, hplayed, hlast⟩ :=
        ih next.stepsLeft hlt (h.move (.advance index) hnext) hkept rfl
      refine ⟨.advance index :: more, last, by simpa using hcancel, ?_, hlast⟩
      rwa [List.append_cons]

/-! ## Regulated runs -/

/-- What holds at each moment of a run of a pool from its start. -/
structure Regulated (work : Work α β) (limit : Nat) (cancelled : Bool) (jobs : List α)
    (moves : List Move) (pool : Pool α β) : Prop where
  /-- There is one task for each job. -/
  jobs_eq : pool.tasks.map Prod.fst = jobs
  /-- The free permits and those that tasks have are as many as in the beginning. -/
  permits_add_holders : pool.permits + pool.holders = max 1 limit
  /-- `holders` counts the tasks that have a permit. -/
  holdsPermit_iff : ∀ index job stage, pool.tasks[index]? = some (job, stage) →
    (stage.holdsPermit = true ↔ HasPermit work (start limit cancelled jobs) moves index)
  /-- A job is only done by a task that has a permit. -/
  working : ∀ index job, pool.tasks[index]? = some (job, .working) →
    HasPermit work (start limit cancelled jobs) moves index
  working_le : pool.tasks.countP (·.2.isWorking) ≤ max 1 limit
  /-- The pool is not stuck while a task is unfinished. -/
  exists_advance : pool.isDone = false → ∃ index next, pool.advance? work index = some next
  steps_le : moves.countP Move.isStep ≤ 6 * jobs.length
  /-- The run can be continued until all tasks are finished. -/
  exists_finish : ∃ more last, .cancel ∉ more ∧
    Played work (start limit cancelled jobs) (moves ++ more) last ∧ last.isDone = true
  /-- Once no task can take a step, all are finished, and each has been given a permit once. -/
  maximal : (∀ index, pool.advance? work index = none) → pool.isDone = true ∧
    ∀ index < jobs.length, ∃! before, Admits work (start limit cancelled jobs) moves index before
  /-- No one closes the pool, so no task is turned away. -/
  isOpen : pool.closed = false
  verdict : ∀ task ∈ pool.tasks, ∀ outcome, task.2.verdict? = some outcome →
    (outcome = work.passOver task.1 ∨ outcome = work.perform task.1) ∨
      ∃ place words, work.fault? task.1 place = some words ∧ outcome = work.lose task.1 words

theorem isDone_of_forall_none (hpermits : 0 < pool.permits + pool.holders)
    (hnone : ∀ index, pool.advance? work index = none) : pool.isDone = true := by
  by_contra hdone
  obtain ⟨index, next, hnext⟩ := exists_advance work hpermits (Bool.eq_false_iff.mpr hdone)
  rw [hnone] at hnext
  cases hnext

theorem Settled.verdict {outcome : β} (h : Settled work first moves index job outcome) :
    outcome = work.passOver job ∨ outcome = work.perform job :=
  h.imp And.right fun hdone => hdone.2.2

theorem Explained.verdict {outcome : β} (h : Explained work first moves index job stage)
    (hverdict : stage.verdict? = some outcome) :
    (outcome = work.passOver job ∨ outcome = work.perform job) ∨
      ∃ place words, work.fault? job place = some words ∧ outcome = work.lose job words := by
  cases stage with
  | waiting | admitted | working => cases hverdict
  | judged | released | counted =>
    obtain rfl := Option.some.inj hverdict
    exact .inl (Settled.verdict h)
  | finished =>
    obtain rfl := Option.some.inj hverdict
    obtain ⟨settled, place, hsettled, rfl⟩ := h
    unfold Work.deliver
    cases hfault : work.fault? job place with
    | none => exact .inl hsettled.verdict
    | some words => exact .inr ⟨place, words, hfault, rfl⟩

/-- **The runs of a pool are regulated.** -/
theorem regulated {limit : Nat} {cancelled : Bool} {jobs : List α}
    (h : Played work (start limit cancelled jobs) moves pool) :
    Regulated work limit cancelled jobs moves pool := by
  have hfresh : Fresh (start limit cancelled jobs : Pool α β) := fresh_start limit cancelled jobs
  have hpermits : pool.permits + pool.holders = max 1 limit := by
    have hholders : (start limit cancelled jobs : Pool α β).holders = 0 :=
      holders_eq_zero fun task htask => .inl (hfresh.waiting task htask)
    rw [h.permits_add_holders, hholders]
    rfl
  have hpos : 0 < pool.permits + pool.holders := by omega
  have hholds : ∀ index job stage, pool.tasks[index]? = some (job, stage) →
      (stage.holdsPermit = true ↔ HasPermit work (start limit cancelled jobs) moves index) :=
    fun _ _ _ htask => h.holdsPermit_iff hfresh htask
  constructor
  case jobs_eq => exact h.jobs_of_start
  case permits_add_holders => exact hpermits
  case holdsPermit_iff => exact hholds
  case working =>
    intro index job htask
    exact (hholds index job .working htask).mp rfl
  case working_le =>
    calc pool.tasks.countP (·.2.isWorking)
        ≤ pool.holders := List.countP_mono_left fun task _ => Stage.holdsPermit_of_isWorking
      _ ≤ pool.permits + pool.holders := Nat.le_add_left _ _
      _ = max 1 limit := hpermits
  case exists_advance => exact exists_advance work hpos
  case steps_le =>
    have hsteps := h.steps_add_stepsLeft_le
    rw [stepsLeft_start] at hsteps
    omega
  case exists_finish => exact h.exists_finish hpos
  case maximal =>
    intro hnone
    have hdone := isDone_of_forall_none hpos hnone
    refine ⟨hdone, fun index hindex => ?_⟩
    obtain ⟨outcome, htask⟩ := exists_finished hdone h.jobs_of_start (List.getElem?_eq_getElem hindex)
    obtain ⟨⟨before, hadmits⟩, -⟩ := h.accounted hfresh htask
    exact ⟨before, hadmits, fun other hother => hother.unique hadmits⟩
  case isOpen => exact h.closed_eq
  case verdict =>
    rintro ⟨job, stage⟩ hmem outcome hverdict
    obtain ⟨index, htask⟩ := List.getElem?_of_mem hmem
    exact (h.explained hfresh htask).verdict hverdict

end Pool

end FormsAudit
