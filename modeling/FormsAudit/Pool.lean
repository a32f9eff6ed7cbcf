/-!
# Task pools

A pool has one task for each job and a number of permits.  A task asks for a permit, looks whether the
run is cancelled, does its job or passes it over, gives the permit back, is counted, and tells that it
is finished.  A pool that is closed has no permit for anyone, and turns the task away.  The tasks may
take their steps in any order, and the run may be cancelled between any two of them.  A job may break
down, and so may a task while it tells that it is finished; either comes to an outcome of its own.
-/

namespace FormsAudit

/-- What the tasks of a pool do: `α` are the jobs and `β` what comes of them. -/
structure Work (α β : Type) where
  /-- Does a job, which may break down. -/
  attempt : α → Except String β
  /-- What comes of a job that broke down in the given way. -/
  breakDown : α → String → β
  /-- What comes of a job that is passed over because the run is cancelled. -/
  passOver : α → β
  /-- What comes of a job whose task is turned away because the pool is closed. -/
  turnAway : α → β
  /-- Whether someone who is told that the job is the so-manieth to be finished cancels the run. -/
  cancels : α → Nat → Bool
  /-- How the task breaks down while someone is told so, if it does. -/
  fault? : α → Nat → Option String
  /-- What comes of a job whose task broke down in the given way. -/
  lose : α → String → β

namespace Work

variable {α β : Type}

/-- Does a job. -/
def perform (work : Work α β) (job : α) : β :=
  match work.attempt job with
  | .ok outcome => outcome
  | .error words => work.breakDown job words

/-- What is left of an outcome once its task has told that the job is the so-manieth to be
finished. -/
def deliver (work : Work α β) (job : α) (place : Nat) (outcome : β) : β :=
  match work.fault? job place with
  | none => outcome
  | some words => work.lose job words

end Work

/-- How far a task has come. -/
inductive Stage (β : Type) where
  /-- It waits for a permit. -/
  | waiting
  /-- It has a permit and has not looked yet whether the run is cancelled. -/
  | admitted
  /-- It has a permit and does its job. -/
  | working
  /-- It has a permit and is through with its job. -/
  | judged (outcome : β)
  /-- It has given its permit back, or was given none. -/
  | released (outcome : β)
  /-- It has been counted as the so-manieth. -/
  | counted (outcome : β) (place : Nat)
  /-- It has told that it is finished. -/
  | finished (outcome : β)
  deriving DecidableEq, Repr

namespace Stage

/-- How many steps are left to take. -/
def stepsLeft {β : Type} : Stage β → Nat
  | waiting => 6
  | admitted => 5
  | working => 4
  | judged _ => 3
  | released _ => 2
  | counted _ _ => 1
  | finished _ => 0

/-- Whether the task has a permit. -/
def holdsPermit {β : Type} : Stage β → Bool
  | admitted | working | judged _ => true
  | _ => false

/-- What has come of the job, once the task is finished. -/
def outcome? {β : Type} : Stage β → Option β
  | finished outcome => some outcome
  | _ => none

end Stage

/-- A pool of tasks. -/
structure Pool (α β : Type) where
  /-- The jobs, in order, and how far their tasks have come. -/
  tasks : List (α × Stage β)
  /-- How many permits are free. -/
  permits : Nat
  /-- Whether there are no permits for anyone any more. -/
  closed : Bool
  cancelled : Bool
  /-- How many tasks have been counted. -/
  completed : Nat
  /-- Which jobs were told to be finished, as the so-manieth. -/
  notices : List (α × Nat)
  deriving DecidableEq, Repr

namespace Pool

variable {α β : Type}

/-- How many permits a pool can have. -/
def maxPermits : Nat := 0x1FFFFFFFFFFFFFFF

/-- The pool before any step, with at least one permit.  The limit must not exceed `maxPermits`. -/
def start (limit : Nat) (cancelled : Bool) (jobs : List α) : Pool α β where
  tasks := jobs.map fun job => (job, .waiting)
  permits := max 1 limit
  closed := false
  cancelled
  completed := 0
  notices := []

/-- The pool with the task of the index at another stage. -/
def setStage (pool : Pool α β) (index : Nat) (job : α) (stage : Stage β) : Pool α β :=
  { pool with tasks := pool.tasks.set index (job, stage) }

/-- The pool after the next step of a task, if it can take one. -/
def advance? (work : Work α β) (pool : Pool α β) (index : Nat) : Option (Pool α β) :=
  match pool.tasks[index]? with
  | none => none
  | some (job, stage) =>
    match stage with
    | .waiting =>
      if pool.closed then some (pool.setStage index job (.released (work.turnAway job)))
      else if pool.permits = 0 then none
      else some { pool.setStage index job .admitted with permits := pool.permits - 1 }
    | .admitted =>
      some (pool.setStage index job
        (if pool.cancelled then .judged (work.passOver job) else .working))
    | .working => some (pool.setStage index job (.judged (work.perform job)))
    | .judged outcome =>
      some { pool.setStage index job (.released outcome) with permits := pool.permits + 1 }
    | .released outcome =>
      some
        { pool.setStage index job (.counted outcome (pool.completed + 1)) with
          completed := pool.completed + 1 }
    | .counted outcome place =>
      some
        { pool.setStage index job (.finished (work.deliver job place outcome)) with
          notices := pool.notices ++ [(job, place)]
          cancelled := pool.cancelled || work.cancels job place }
    | .finished _ => none

/-- What happens next in a pool. -/
inductive Move where
  /-- A task takes a step. -/
  | advance (index : Nat)
  /-- The run is cancelled. -/
  | cancel
  deriving DecidableEq, Repr

/-- The pool after a move, if it can be made. -/
def move? (work : Work α β) (pool : Pool α β) : Move → Option (Pool α β)
  | .advance index => pool.advance? work index
  | .cancel => some { pool with cancelled := true }

/-- The pool after moves, if all can be made in turn. -/
def play? (work : Work α β) : List Move → Pool α β → Option (Pool α β)
  | [], pool => some pool
  | move :: moves, pool => (pool.move? work move).bind (play? work moves)

/-- Whether all tasks are finished. -/
def isDone (pool : Pool α β) : Bool :=
  pool.tasks.all fun task => task.2.stepsLeft = 0

/-- How many steps are left to take for all tasks. -/
def stepsLeft (pool : Pool α β) : Nat :=
  pool.tasks.foldr (fun task steps => task.2.stepsLeft + steps) 0

/-- What has come of the jobs whose tasks are finished, in the order of the jobs. -/
def outcomes (pool : Pool α β) : List β :=
  pool.tasks.filterMap fun task => task.2.outcome?

/-- Lets the first task that is not finished take a step, so many times. -/
def runFor (work : Work α β) : Nat → Pool α β → Pool α β
  | 0, pool => pool
  | steps + 1, pool =>
    match pool.advance? work (pool.tasks.findIdx fun task => task.2.stepsLeft ≠ 0) with
    | none => pool
    | some next => runFor work steps next

/-- Finishes the tasks, one after the other in the order of their jobs. -/
def run (work : Work α β) (pool : Pool α β) : Pool α β :=
  pool.runFor work pool.stepsLeft

end Pool

end FormsAudit
