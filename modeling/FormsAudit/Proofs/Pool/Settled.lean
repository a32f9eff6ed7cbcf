import FormsAudit.Proofs.Pool.Played

/-!
# What comes of a job

A task looks once whether the run is cancelled.  What comes of its job depends on nothing else,
unless the task breaks down in the end: whatever the order of the steps, a job is passed over if its
task found the run cancelled, and else it is done, once (`outcome_of_finished`).  No task is turned
away, since no one closes the pool.  The outcomes of a finished pool are therefore told, in the order
of the jobs, by the looks alone (`outcomes_eq_of_forall`).

The invariant is `Explained`.  It says of a task at each stage what must have happened before.
-/

namespace FormsAudit.Pool

variable {α β : Type} {work : Work α β} {first pool : Pool α β} {moves : List Move} {index : Nat}
  {job : α}

/-! ## Looking and doing -/

/-- The task has looked whether the run is cancelled, and found that it is as `cancelled` says. -/
def Looked (work : Work α β) (first : Pool α β) (moves : List Move) (index : Nat)
    (cancelled : Bool) : Prop :=
  ∃ before reached, TookAt work first moves index .admitted before reached ∧
    reached.cancelled = cancelled

/-- The task does its job in the step after `before`. -/
def Performs (work : Work α β) (first : Pool α β) (moves : List Move) (index : Nat)
    (before : List Move) : Prop :=
  ∃ reached, TookAt work first moves index .working before reached

/-- The outcome is that of a job that was passed over or done, as the task found. -/
def Settled (work : Work α β) (first : Pool α β) (moves : List Move) (index : Nat) (job : α)
    (outcome : β) : Prop :=
  (Looked work first moves index true ∧ outcome = work.passOver job) ∨
    Looked work first moves index false ∧ (∃ before, Performs work first moves index before) ∧
      outcome = work.perform job

/-- What has happened before a task of `job` is at a stage. -/
def Explained (work : Work α β) (first : Pool α β) (moves : List Move) (index : Nat) (job : α) :
    Stage β → Prop
  | .waiting | .admitted => True
  | .working => Looked work first moves index false
  | .judged outcome | .released outcome | .counted outcome _ =>
    Settled work first moves index job outcome
  | .finished outcome =>
    ∃ verdict place, Settled work first moves index job verdict ∧
      outcome = work.deliver job place verdict

theorem Looked.of_isPrefix {others : List Move} {cancelled : Bool}
    (h : Looked work first moves index cancelled) (hpre : moves <+: others) :
    Looked work first others index cancelled := by
  obtain ⟨before, reached, htook, hflag⟩ := h
  exact ⟨before, reached, htook.of_isPrefix hpre, hflag⟩

theorem Settled.of_isPrefix {others : List Move} {outcome : β}
    (h : Settled work first moves index job outcome) (hpre : moves <+: others) :
    Settled work first others index job outcome := by
  rcases h with ⟨hlooked, rfl⟩ | ⟨hlooked, ⟨before, reached, htook⟩, rfl⟩
  · exact .inl ⟨hlooked.of_isPrefix hpre, rfl⟩
  · exact .inr ⟨hlooked.of_isPrefix hpre, ⟨before, reached, htook.of_isPrefix hpre⟩, rfl⟩

theorem Explained.of_isPrefix {others : List Move} {stage : Stage β}
    (h : Explained work first moves index job stage) (hpre : moves <+: others) :
    Explained work first others index job stage := by
  cases stage with
  | waiting | admitted => trivial
  | working => exact Looked.of_isPrefix h hpre
  | judged | released | counted => exact Settled.of_isPrefix h hpre
  | finished =>
    obtain ⟨verdict, place, hsettled, rfl⟩ := h
    exact ⟨verdict, place, hsettled.of_isPrefix hpre, rfl⟩

theorem Looked.unique {cancelled other : Bool} (h : Looked work first moves index cancelled)
    (hother : Looked work first moves index other) : cancelled = other := by
  obtain ⟨before, reached, htook, rfl⟩ := h
  obtain ⟨before', reached', htook', rfl⟩ := hother
  obtain rfl := htook.unique htook' rfl
  rw [htook.2.1.unique htook'.2.1]

theorem Performs.unique {before before' : List Move}
    (h : Performs work first moves index before) (h' : Performs work first moves index before') :
    before = before' := by
  obtain ⟨reached, htook⟩ := h
  obtain ⟨reached', htook'⟩ := h'
  exact htook.unique htook' rfl

/-! ## The invariant -/

theorem Explained.step {next : Pool α β} {stage : Stage β} (h : Played work first moves pool)
    (hopen : pool.closed = false) (htask : pool.tasks[index]? = some (job, stage))
    (hexplained : Explained work first moves index job stage)
    (hstep : Stepped work pool index job stage next) :
    ∃ after, next.tasks[index]? = some (job, after) ∧
      Explained work first (moves ++ [.advance index]) index job after := by
  have hindex : index < pool.tasks.length := (List.getElem?_eq_some_iff.mp htask).1
  have htook := h.tookAt htask
  have hkept := hexplained.of_isPrefix (List.prefix_append moves [.advance index])
  cases hstep with
  | acquire => exact ⟨.admitted, List.getElem?_set_self hindex, trivial⟩
  | turnAway hclosed =>
    rw [hopen] at hclosed
    cases hclosed
  | passOver hcancelled =>
    exact ⟨_, List.getElem?_set_self hindex, .inl ⟨⟨moves, pool, htook, hcancelled⟩, rfl⟩⟩
  | begin hcancelled =>
    exact ⟨_, List.getElem?_set_self hindex, moves, pool, htook, hcancelled⟩
  | perform =>
    exact ⟨_, List.getElem?_set_self hindex, .inr ⟨hkept, ⟨moves, pool, htook⟩, rfl⟩⟩
  | release outcome => exact ⟨.released outcome, List.getElem?_set_self hindex, hkept⟩
  | count outcome => exact ⟨.counted outcome _, List.getElem?_set_self hindex, hkept⟩
  | notify outcome place =>
    exact ⟨.finished _, List.getElem?_set_self hindex, outcome, place, hkept, rfl⟩

/-- The stage of every task of a run is explained. -/
theorem Played.explained (h : Played work first moves pool) (hfirst : Fresh first)
    {stage : Stage β}
    (htask : pool.tasks[index]? = some (job, stage)) :
    Explained work first moves index job stage := by
  refine Played.forall_stage (P := fun moves job => Explained work first moves index job) hfirst
    (fun _ => trivial) (fun hpre h => h.of_isPrefix hpre) ?_ h htask
  intro moves pool next job stage hmoves htask hexplained hstep
  exact hexplained.step hmoves (hmoves.closed_eq.trans hfirst.isOpen) htask hstep

/-! ## Finished tasks -/

/-- **A job is passed over if its task found the run cancelled, and else it is done once.**  What is
left of the outcome is up to who is told in the end. -/
theorem outcome_of_finished (h : Played work first moves pool) (hfirst : Fresh first) {outcome : β}
    (htask : pool.tasks[index]? = some (job, .finished outcome)) :
    (Looked work first moves index true →
        (∃ place, outcome = work.deliver job place (work.passOver job)) ∧
        ∀ before, ¬ Performs work first moves index before) ∧
      (¬ Looked work first moves index true →
        (∃ place, outcome = work.deliver job place (work.perform job)) ∧
        ∃! before, Performs work first moves index before) := by
  obtain ⟨verdict, place, ⟨hlooked, rfl⟩ | ⟨hlooked, ⟨before, hperforms⟩, rfl⟩, rfl⟩ :=
    h.explained hfirst htask
  · refine ⟨fun _ => ⟨⟨place, rfl⟩, ?_⟩, fun hnot => absurd hlooked hnot⟩
    intro before hperforms
    -- a task at work has found before that the run was not cancelled
    obtain ⟨reached, hpre, hreached, other, hother⟩ := hperforms
    have hworking : Looked work first before index false := hreached.explained hfirst hother
    have hbefore := hworking.of_isPrefix (isPrefix_of_concat hpre)
    cases hlooked.unique hbefore
  · refine ⟨?_, fun _ => ⟨⟨place, rfl⟩, before, hperforms, ?_⟩⟩
    · intro hcancelled
      cases hlooked.unique hcancelled
    · intro other hother
      exact hother.unique hperforms

theorem eq_finished_of_stepsLeft {stage : Stage β} (h : stage.stepsLeft = 0) :
    ∃ outcome, stage = .finished outcome := by
  cases stage with
  | finished outcome => exact ⟨outcome, rfl⟩
  | _ => cases h

theorem exists_finished (hdone : pool.isDone = true) {jobs : List α}
    (hjobs : pool.tasks.map Prod.fst = jobs) (hjob : jobs[index]? = some job) :
    ∃ outcome, pool.tasks[index]? = some (job, .finished outcome) := by
  rw [← hjobs, List.getElem?_map, Option.map_eq_some_iff] at hjob
  obtain ⟨⟨other, stage⟩, htask, rfl⟩ := hjob
  have hstage : stage.stepsLeft = 0 := isDone_iff.mp hdone _ (List.mem_of_getElem? htask)
  obtain ⟨outcome, rfl⟩ := eq_finished_of_stepsLeft hstage
  exact ⟨outcome, htask⟩

/-- The outcomes of a finished pool stand in the order of the jobs. -/
theorem outcomes_eq_of_forall {jobs : List α} (hdone : pool.isDone = true)
    (hjobs : pool.tasks.map Prod.fst = jobs) (outcomeOf : Nat → α → β)
    (houtcome : ∀ index job outcome, pool.tasks[index]? = some (job, .finished outcome) →
      outcome = outcomeOf index job) :
    pool.outcomes = jobs.zipIdx.map fun (job, index) => outcomeOf index job := by
  have htasks : pool.tasks =
      jobs.zipIdx.map fun (job, index) => (job, .finished (outcomeOf index job)) := by
    apply List.ext_getElem?
    intro index
    rw [List.getElem?_map, List.getElem?_zipIdx, Option.map_map, Nat.zero_add]
    cases hjob : jobs[index]? with
    | none =>
      rw [Option.map_none, List.getElem?_eq_none_iff]
      rw [List.getElem?_eq_none_iff, ← hjobs, List.length_map] at hjob
      exact hjob
    | some job =>
      obtain ⟨outcome, htask⟩ := exists_finished hdone hjobs hjob
      rw [htask, houtcome index job outcome htask]
      rfl
  rw [outcomes, htasks, List.filterMap_map]
  exact congrFun List.filterMap_eq_map' _

end FormsAudit.Pool
