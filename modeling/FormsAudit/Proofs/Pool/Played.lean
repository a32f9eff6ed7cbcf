import FormsAudit.Pool
import FormsAudit.Proofs.Beginnings
import Mathlib.Data.List.Perm.Basic

/-!
# Runs of a pool

`Played work first moves pool` says that the moves, made one after the other, lead from the pool
`first` to `pool`.  Such runs are all interleavings of the tasks' steps, with a cancellation at any
moment.  `Stepped` lists once what a step of a task can do.

A task never changes its job and its stages only go forward, so it takes each kind of step once at
most (`TookAt.unique`); this is what "the step at which the task looks at the flag" rests on.
-/

namespace FormsAudit.Pool

variable {α β : Type} {work : Work α β}

/-! ## Steps -/

@[simp] theorem cancelled_setStage (pool : Pool α β) (index : Nat) (job : α) (stage : Stage β) :
    (pool.setStage index job stage).cancelled = pool.cancelled := rfl

@[simp] theorem closed_setStage (pool : Pool α β) (index : Nat) (job : α) (stage : Stage β) :
    (pool.setStage index job stage).closed = pool.closed := rfl

@[simp] theorem notices_setStage (pool : Pool α β) (index : Nat) (job : α) (stage : Stage β) :
    (pool.setStage index job stage).notices = pool.notices := rfl

/-- But for their order, the tasks are the one at the index and others, which stay as they are when
that one comes to another stage. -/
theorem exists_perm_setStage {pool : Pool α β} {index : Nat} {job : α} {stage : Stage β}
    (htask : pool.tasks[index]? = some (job, stage)) :
    ∃ others, pool.tasks.Perm ((job, stage) :: others) ∧
      ∀ after, (pool.setStage index job after).tasks.Perm ((job, after) :: others) := by
  obtain ⟨hindex, hget⟩ := List.getElem?_eq_some_iff.mp htask
  refine ⟨pool.tasks.eraseIdx index, ?_, fun after => ?_⟩
  · rw [← hget]
    exact (List.getElem_cons_eraseIdx_perm hindex).symm
  · exact List.set_perm_cons_eraseIdx hindex (job, after)

theorem isDone_iff {pool : Pool α β} :
    pool.isDone = true ↔ ∀ task ∈ pool.tasks, task.2.stepsLeft = 0 := by
  simp [isDone]

/-- What the step of the task of `job` that is at the given stage makes of the pool. -/
inductive Stepped (work : Work α β) (pool : Pool α β) (index : Nat) (job : α) :
    Stage β → Pool α β → Prop
  | acquire : pool.closed = false → pool.permits ≠ 0 →
      Stepped work pool index job .waiting
        { pool.setStage index job .admitted with permits := pool.permits - 1 }
  | turnAway : pool.closed = true →
      Stepped work pool index job .waiting
        (pool.setStage index job (.released (work.turnAway job)))
  | passOver : pool.cancelled = true →
      Stepped work pool index job .admitted
        (pool.setStage index job (.judged (work.passOver job)))
  | begin : pool.cancelled = false →
      Stepped work pool index job .admitted (pool.setStage index job .working)
  | perform :
      Stepped work pool index job .working (pool.setStage index job (.judged (work.perform job)))
  | release (outcome : β) :
      Stepped work pool index job (.judged outcome)
        { pool.setStage index job (.released outcome) with permits := pool.permits + 1 }
  | count (outcome : β) :
      Stepped work pool index job (.released outcome)
        { pool.setStage index job (.counted outcome (pool.completed + 1)) with
          completed := pool.completed + 1 }
  | notify (outcome : β) (place : Nat) :
      Stepped work pool index job (.counted outcome place)
        { pool.setStage index job (.finished (work.deliver job place outcome)) with
          notices := pool.notices ++ [(job, place)]
          cancelled := pool.cancelled || work.cancels job place }

/-- Every step does one of the things that `Stepped` lists. -/
theorem exists_stepped {pool next : Pool α β} {index : Nat}
    (h : pool.advance? work index = some next) :
    ∃ job stage, pool.tasks[index]? = some (job, stage) ∧
      Stepped work pool index job stage next := by
  unfold advance? at h
  cases htask : pool.tasks[index]? with
  | none => simp [htask] at h
  | some task =>
    obtain ⟨job, stage⟩ := task
    refine ⟨job, stage, rfl, ?_⟩
    simp only [htask] at h
    cases stage with
    | waiting =>
      dsimp only at h
      cases hclosed : pool.closed
      · rw [hclosed, if_neg Bool.false_ne_true, Option.ite_none_left_eq_some] at h
        obtain ⟨hpermits, hnext⟩ := h
        exact Option.some.inj hnext ▸ .acquire hclosed hpermits
      · rw [hclosed, if_pos rfl] at h
        exact Option.some.inj h ▸ .turnAway hclosed
    | admitted =>
      dsimp only at h
      cases hcancelled : pool.cancelled
      · rw [hcancelled] at h
        exact Option.some.inj h ▸ .begin hcancelled
      · rw [hcancelled] at h
        exact Option.some.inj h ▸ .passOver hcancelled
    | working => exact Option.some.inj h ▸ .perform
    | judged outcome => exact Option.some.inj h ▸ .release outcome
    | released outcome => exact Option.some.inj h ▸ .count outcome
    | counted outcome place => exact Option.some.inj h ▸ .notify outcome place
    | finished outcome => cases h

/-- A task is held up only when it is finished, or waits and no permit is free. -/
theorem advance?_eq_none_iff {pool : Pool α β} {index : Nat} {job : α} {stage : Stage β}
    (htask : pool.tasks[index]? = some (job, stage)) :
    pool.advance? work index = none ↔
      stage.stepsLeft = 0 ∨ stage = .waiting ∧ pool.closed = false ∧ pool.permits = 0 := by
  rw [advance?, htask]
  cases stage with
  | waiting => cases hclosed : pool.closed <;> simp [Stage.stepsLeft]
  | finished outcome => exact iff_of_true rfl (.inl rfl)
  | _ => simp [Stage.stepsLeft]

/-- A step sets the stage of its own task, to one with fewer steps left. -/
theorem Stepped.exists_tasks_eq {pool next : Pool α β} {index : Nat} {job : α} {stage : Stage β}
    (h : Stepped work pool index job stage next) :
    ∃ after, next.tasks = pool.tasks.set index (job, after) ∧
      after.stepsLeft < stage.stepsLeft := by
  cases h <;> exact ⟨_, rfl, by simp [Stage.stepsLeft]⟩

/-! ## Runs -/

/-- The moves, made one after the other, lead from the pool `first` to the pool at the end. -/
inductive Played (work : Work α β) (first : Pool α β) : List Move → Pool α β → Prop
  | start : Played work first [] first
  | move {moves : List Move} {pool next : Pool α β} (last : Move) :
      Played work first moves pool → pool.move? work last = some next →
      Played work first (moves ++ [last]) next

variable {first pool next reached : Pool α β} {moves before : List Move} {index : Nat}

/-- No task has taken a step yet, and the pool is open. -/
structure Fresh (pool : Pool α β) : Prop where
  waiting : ∀ task ∈ pool.tasks, task.2 = .waiting
  isOpen : pool.closed = false

theorem fresh_start (limit : Nat) (cancelled : Bool) (jobs : List α) :
    Fresh (start limit cancelled jobs : Pool α β) :=
  ⟨by simp [start], rfl⟩

theorem play?_concat (moves : List Move) (last : Move) (first : Pool α β) :
    first.play? work (moves ++ [last]) =
      (first.play? work moves).bind fun pool => pool.move? work last := by
  induction moves generalizing first with
  | nil =>
    simp only [List.nil_append, play?, Option.bind_some]
    cases first.move? work last <;> rfl
  | cons move moves ih =>
    simp only [List.cons_append, play?]
    cases first.move? work move with
    | none => rfl
    | some next => exact ih next

/-- The relation and the function are the same. -/
theorem played_iff : Played work first moves pool ↔ first.play? work moves = some pool := by
  constructor
  · intro h
    induction h with
    | start => rfl
    | move last _ hlast ih => rw [play?_concat, ih, Option.bind_some, hlast]
  · intro h
    -- a run grows at its end, and so the induction is on the moves from the last one
    induction moves using List.reverseRecOn generalizing pool with
    | nil => exact Option.some.inj h ▸ .start
    | append_singleton moves last ih =>
      rw [play?_concat, Option.bind_eq_some_iff] at h
      obtain ⟨reached, hreached, hlast⟩ := h
      exact .move last (ih hreached) hlast

theorem Played.unique {other : Pool α β} (h : Played work first moves pool)
    (hother : Played work first moves other) : pool = other :=
  Option.some.inj ((played_iff.mp h).symm.trans (played_iff.mp hother))

/-! ## What happens to a task -/

/-- A move leaves a task as it is, unless it is the task's own step. -/
theorem getElem?_tasks_of_move? {last : Move} (hlast : pool.move? work last = some next)
    (hne : last ≠ .advance index) : next.tasks[index]? = pool.tasks[index]? := by
  cases last with
  | cancel => exact Option.some.inj hlast ▸ rfl
  | advance other =>
    obtain ⟨job, stage, -, hstep⟩ := exists_stepped hlast
    obtain ⟨after, htasks, -⟩ := hstep.exists_tasks_eq
    have hother : other ≠ index := by
      intro heq
      exact hne (congrArg Move.advance heq)
    rw [htasks, List.getElem?_set_ne hother]

theorem stepped_of_move? (hlast : pool.move? work (.advance index) = some next) {job : α}
    {stage : Stage β} (htask : pool.tasks[index]? = some (job, stage)) :
    Stepped work pool index job stage next := by
  obtain ⟨other, found, hfound, hstep⟩ := exists_stepped hlast
  obtain ⟨rfl, rfl⟩ := Prod.mk.inj (Option.some.inj (htask.symm.trans hfound))
  exact hstep

theorem Stepped.getElem?_tasks {job : α} {stage : Stage β}
    (h : Stepped work pool index job stage next)
    (htask : pool.tasks[index]? = some (job, stage)) :
    ∃ after, next.tasks[index]? = some (job, after) ∧ after.stepsLeft < stage.stepsLeft := by
  obtain ⟨after, htasks, hlt⟩ := h.exists_tasks_eq
  have hindex : index < pool.tasks.length := (List.getElem?_eq_some_iff.mp htask).1
  refine ⟨after, ?_, hlt⟩
  rw [htasks, List.getElem?_set_self hindex]

/-- What holds of a task that waits, is kept by the task's own steps and does not change with later
moves holds of each task of a run, at the stage where it is. -/
theorem Played.forall_stage {P : List Move → α → Stage β → Prop} (hfirst : Fresh first)
    (hstart : ∀ job, P [] job .waiting)
    (hkept : ∀ {moves others job stage}, moves <+: others → P moves job stage →
      P others job stage)
    (hstep : ∀ {moves pool next job stage}, Played work first moves pool →
      pool.tasks[index]? = some (job, stage) → P moves job stage →
      Stepped work pool index job stage next →
      ∃ after, next.tasks[index]? = some (job, after) ∧ P (moves ++ [.advance index]) job after)
    (h : Played work first moves pool) {job : α} {stage : Stage β}
    (htask : pool.tasks[index]? = some (job, stage)) : P moves job stage := by
  induction h generalizing job stage with
  | start =>
    obtain rfl : stage = .waiting := hfirst.waiting _ (List.mem_of_getElem? htask)
    exact hstart job
  | @move _ pool next last hmoves hlast ih =>
    by_cases hown : last = .advance index
    · subst hown
      obtain ⟨other, found, hfound, hstepped⟩ := exists_stepped hlast
      obtain ⟨after, hafter, hholds⟩ := hstep hmoves hfound (ih hfound) hstepped
      obtain ⟨rfl, rfl⟩ := Prod.mk.inj (Option.some.inj (htask.symm.trans hafter))
      exact hholds
    · rw [getElem?_tasks_of_move? hlast hown] at htask
      exact hkept (List.prefix_append _ _) (ih htask)

theorem Played.jobs_eq (h : Played work first moves pool) :
    pool.tasks.map Prod.fst = first.tasks.map Prod.fst := by
  induction h with
  | start => rfl
  | @move _ pool next last _ hlast ih =>
    rw [← ih]
    cases last with
    | cancel => exact Option.some.inj hlast ▸ rfl
    | advance index =>
      obtain ⟨job, stage, htask, hstep⟩ := exists_stepped hlast
      obtain ⟨after, htasks, -⟩ := hstep.exists_tasks_eq
      refine List.ext_getElem? fun other => ?_
      rw [htasks, List.getElem?_map, List.getElem?_map]
      by_cases hother : index = other
      · subst hother
        rw [List.getElem?_set_self (List.getElem?_eq_some_iff.mp htask).1, htask]
        rfl
      · rw [List.getElem?_set_ne hother]

theorem Played.jobs_of_start {limit : Nat} {cancelled : Bool} {jobs : List α}
    (h : Played work (Pool.start limit cancelled jobs) moves pool) :
    pool.tasks.map Prod.fst = jobs := by
  rw [h.jobs_eq]
  simp [Pool.start, Function.comp_def]

/-- The task of the index takes the step after `before`, which leads to the pool `reached`, and was
at the given stage there. -/
def TookAt (work : Work α β) (first : Pool α β) (moves : List Move) (index : Nat)
    (stage : Stage β) (before : List Move) (reached : Pool α β) : Prop :=
  before ++ [.advance index] <+: moves ∧ Played work first before reached ∧
    ∃ job, reached.tasks[index]? = some (job, stage)

theorem TookAt.of_isPrefix {others : List Move} {stage : Stage β}
    (h : TookAt work first moves index stage before reached) (hpre : moves <+: others) :
    TookAt work first others index stage before reached :=
  ⟨h.1.trans hpre, h.2⟩

theorem Played.tookAt (h : Played work first moves pool) {job : α} {stage : Stage β}
    (htask : pool.tasks[index]? = some (job, stage)) :
    TookAt work first (moves ++ [.advance index]) index stage moves pool :=
  ⟨List.prefix_rfl, h, job, htask⟩

/-- After a step of a task its stage has fewer steps left, for the rest of the run. -/
theorem TookAt.stepsLeft_lt {stage : Stage β}
    (htook : TookAt work first moves index stage before reached)
    (h : Played work first moves pool) :
    ∃ job after, pool.tasks[index]? = some (job, after) ∧ after.stepsLeft < stage.stepsLeft := by
  obtain ⟨hpre, hreached, job, htask⟩ := htook
  induction h with
  | start => simp at hpre
  | @move _ pool next last hmoves hlast ih =>
    rcases concat_isPrefix_concat_iff.mp hpre with ⟨rfl, rfl⟩ | hpre
    · -- the step is the last move
      obtain rfl := hreached.unique hmoves
      have hstep := stepped_of_move? hlast htask
      obtain ⟨after, hafter, hlt⟩ := hstep.getElem?_tasks htask
      exact ⟨job, after, hafter, hlt⟩
    · -- the step came before, and the last move is one more step of the task or none of its
      obtain ⟨other, after, hafter, hlt⟩ := ih hpre
      by_cases hown : last = .advance index
      · subst hown
        have hstep := stepped_of_move? hlast hafter
        obtain ⟨later, hlater, hless⟩ := hstep.getElem?_tasks hafter
        exact ⟨other, later, hlater, hless.trans hlt⟩
      · refine ⟨other, after, ?_, hlt⟩
        rw [getElem?_tasks_of_move? hlast hown, hafter]

/-- A task takes each kind of step once at most. -/
theorem TookAt.unique {stage other : Stage β} {before' : List Move} {reached' : Pool α β}
    (htook : TookAt work first moves index stage before reached)
    (hother : TookAt work first moves index other before' reached')
    (hstage : stage.stepsLeft = other.stepsLeft) : before = before' := by
  -- the earlier of two such steps would leave too few steps for the later one
  have hlater : ∀ {stage other : Stage β} {before before' : List Move}
      {reached reached' : Pool α β},
      TookAt work first moves index stage before reached →
      TookAt work first moves index other before' reached' →
      stage.stepsLeft = other.stepsLeft → ¬ before ++ [.advance index] <+: before' := by
    intro stage other before before' reached reached' htook hother hstage hinside
    obtain ⟨-, hreached', job, htask⟩ := hother
    obtain ⟨job', after, hafter, hless⟩ := TookAt.stepsLeft_lt ⟨hinside, htook.2⟩ hreached'
    obtain ⟨-, rfl⟩ := Prod.mk.inj (Option.some.inj (htask.symm.trans hafter))
    omega
  rcases isPrefix_trichotomy htook.1 hother.1 with hinside | heq | hinside
  · exact absurd hinside (hlater htook hother hstage)
  · exact heq
  · exact absurd hinside (hlater hother htook hstage.symm)

/-! ## The flags -/

/-- No one closes a pool. -/
theorem Played.closed_eq (h : Played work first moves pool) : pool.closed = first.closed := by
  induction h with
  | start => rfl
  | @move _ pool next last _ hlast ih =>
    rw [← ih]
    cases last with
    | cancel => exact Option.some.inj hlast ▸ rfl
    | advance index =>
      obtain ⟨job, stage, -, hstep⟩ := exists_stepped hlast
      cases hstep <;> rfl

/-- Who has been told what stays told. -/
theorem Played.notices_isPrefix (h : Played work first moves pool)
    (hreached : Played work first before reached) (hpre : before <+: moves) :
    reached.notices <+: pool.notices := by
  induction h with
  | start =>
    obtain rfl := List.prefix_nil.mp hpre
    exact hreached.unique .start ▸ List.prefix_rfl
  | @move _ pool next last hmoves hlast ih =>
    rcases List.prefix_concat_iff.mp hpre with rfl | hpre
    · exact hreached.unique (hmoves.move last hlast) ▸ List.prefix_rfl
    · refine (ih hpre).trans ?_
      cases last with
      | cancel => exact Option.some.inj hlast ▸ List.prefix_rfl
      | advance index =>
        obtain ⟨job, stage, -, hstep⟩ := exists_stepped hlast
        cases hstep with
        | notify => exact List.prefix_append _ _
        | _ => exact List.prefix_rfl

/-- The run is cancelled when it was so from the start, when someone has cancelled it, or when
someone who was told of a finished task has. -/
theorem Played.cancelled_iff (h : Played work first moves pool) (hfirst : first.notices = []) :
    pool.cancelled = true ↔
      first.cancelled = true ∨ .cancel ∈ moves ∨
        ∃ notice ∈ pool.notices, work.cancels notice.1 notice.2 = true := by
  induction h with
  | start => simp [hfirst]
  | @move _ pool next last hmoves hlast ih =>
    cases last with
    | cancel => simp [← Option.some.inj hlast]
    | advance index =>
      obtain ⟨job, stage, -, hstep⟩ := exists_stepped hlast
      cases hstep with
      | notify outcome place => simp [ih, or_and_right, exists_or, or_assoc]
      | _ => simpa using ih

end FormsAudit.Pool
