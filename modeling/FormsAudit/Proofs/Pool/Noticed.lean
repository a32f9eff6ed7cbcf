import FormsAudit.Proofs.Pool.Settled

/-!
# What is told of a run

A task is counted and later tells that it is finished, as the so-manieth, and other tasks may be
counted and tell so in between.  `Counting` is kept by each step: the places of the tasks that are
counted and of the notices are the first numbers, each once, and the notices are of the tasks that are
finished.  When all tasks are finished there is therefore one notice for each job, and their places
are a rearrangement of the numbers up to the number of jobs (`notices_of_isDone`).
-/

namespace FormsAudit

/-- As the so-manieth the task is counted, where it has not told so yet. -/
def Stage.place? {β : Type} : Stage β → Option Nat
  | counted _ place => some place
  | _ => none

namespace Pool

open scoped List

variable {α β γ : Type} {work : Work α β} {pool next : Pool α β} {moves : List Move}
  {index : Nat} {job : α} {stage after : Stage β}

/-- A step of a task changes what is told by its own stage, and leaves what is told by the others. -/
theorem exists_perm_filterMap (f : α × Stage β → Option γ)
    (htask : pool.tasks[index]? = some (job, stage)) (after : Stage β) :
    ∃ others, (pool.tasks.filterMap f).Perm ((f (job, stage)).toList ++ others) ∧
      ((pool.setStage index job after).tasks.filterMap f).Perm
        ((f (job, after)).toList ++ others) := by
  obtain ⟨others, hold, hnew⟩ := exists_perm_setStage htask
  have hcons : ∀ task, (task :: others).filterMap f = (f task).toList ++ others.filterMap f := by
    intro task
    rw [List.filterMap_cons]
    cases f task <;> rfl
  refine ⟨others.filterMap f, ?_, ?_⟩
  · rw [← hcons]
    exact hold.filterMap f
  · rw [← hcons]
    exact (hnew after).filterMap f

/-- The jobs that are counted and not told to be finished yet, with their places. -/
def pending (pool : Pool α β) : List (α × Nat) :=
  pool.tasks.filterMap fun task => task.2.place?.map (task.1, ·)

/-- The jobs whose tasks are finished. -/
def finishedJobs (pool : Pool α β) : List α :=
  pool.tasks.filterMap fun task => if task.2.stepsLeft = 0 then some task.1 else none

/-- The places handed out are the first numbers, and the jobs told of are those finished. -/
structure Counting (pool : Pool α β) : Prop where
  places : ((pool.pending ++ pool.notices).map Prod.snd).Perm (List.range' 1 pool.completed)
  jobs : (pool.notices.map Prod.fst).Perm pool.finishedJobs

theorem counting_start (limit : Nat) (cancelled : Bool) (jobs : List α) :
    Counting (start limit cancelled jobs : Pool α β) := by
  constructor <;> simp [start, pending, finishedJobs, Stage.place?, Stage.stepsLeft]

theorem place?_eq_none (h : 2 ≤ stage.stepsLeft) : stage.place? = none := by
  cases stage with
  | counted outcome place => simp [Stage.stepsLeft] at h
  | _ => rfl

/-- A step that comes before the task is counted. -/
theorem Counting.uncounted (h : Counting pool) (htask : pool.tasks[index]? = some (job, stage))
    (htasks : next.tasks = (pool.setStage index job after).tasks)
    (hnotices : next.notices = pool.notices) (hcompleted : next.completed = pool.completed)
    (hbefore : 2 ≤ stage.stepsLeft) (hafter : 2 ≤ after.stepsLeft) : Counting next := by
  constructor
  case places =>
    obtain ⟨others, hold, hnew⟩ :=
      exists_perm_filterMap (fun task => task.2.place?.map (task.1, ·)) htask after
    simp only [place?_eq_none, hbefore, hafter] at hold hnew
    have hpending : next.pending.Perm pool.pending := by
      rw [pending, htasks]
      exact hnew.trans hold.symm
    rw [hnotices, hcompleted]
    exact ((hpending.append_right pool.notices).map Prod.snd).trans h.places
  case jobs =>
    obtain ⟨others, hold, hnew⟩ := exists_perm_filterMap
      (fun task => if task.2.stepsLeft = 0 then some task.1 else none) htask after
    have hunfinished : stage.stepsLeft ≠ 0 ∧ after.stepsLeft ≠ 0 := by omega
    simp only [hunfinished, if_false] at hold hnew
    rw [hnotices, finishedJobs, htasks]
    exact h.jobs.trans (hold.trans hnew.symm)

/-- A counted task has the next place. -/
theorem Counting.count {outcome : β} (h : Counting pool)
    (htask : pool.tasks[index]? = some (job, .released outcome)) :
    Counting { pool.setStage index job (.counted outcome (pool.completed + 1)) with
      completed := pool.completed + 1 } := by
  set next : Pool α β := { pool.setStage index job (.counted outcome (pool.completed + 1)) with
    completed := pool.completed + 1 }
  constructor
  case places =>
    obtain ⟨others, hold, hnew⟩ := exists_perm_filterMap
      (fun task => task.2.place?.map (task.1, ·)) htask (.counted outcome (pool.completed + 1))
    have hpending : next.pending.Perm ((job, pool.completed + 1) :: pool.pending) :=
      hnew.trans (hold.symm.cons _)
    calc (next.pending ++ pool.notices).map Prod.snd
        ~ ((job, pool.completed + 1) :: pool.pending ++ pool.notices).map Prod.snd :=
          (hpending.append_right pool.notices).map Prod.snd
      _ = (pool.completed + 1) :: (pool.pending ++ pool.notices).map Prod.snd := rfl
      _ ~ (pool.completed + 1) :: List.range' 1 pool.completed := h.places.cons _
      _ ~ List.range' 1 pool.completed ++ [pool.completed + 1] :=
          (List.perm_append_singleton _ _).symm
      _ = List.range' 1 (pool.completed + 1) := by
          rw [List.range'_1_concat, Nat.add_comm 1]
  case jobs =>
    obtain ⟨others, hold, hnew⟩ := exists_perm_filterMap
      (fun task => if task.2.stepsLeft = 0 then some task.1 else none) htask
      (.counted outcome (pool.completed + 1))
    exact h.jobs.trans (hold.trans hnew.symm)

/-- A task that tells that it is finished tells its place. -/
theorem Counting.notify {outcome final : β} {place : Nat} (h : Counting pool) (cancelled : Bool)
    (htask : pool.tasks[index]? = some (job, .counted outcome place)) :
    Counting { pool.setStage index job (.finished final) with
      notices := pool.notices ++ [(job, place)], cancelled } := by
  set next : Pool α β := { pool.setStage index job (.finished final) with
    notices := pool.notices ++ [(job, place)], cancelled }
  have hnotices : next.notices.Perm ((job, place) :: pool.notices) :=
    List.perm_append_singleton _ _
  constructor
  case places =>
    obtain ⟨others, hold, hnew⟩ := exists_perm_filterMap
      (fun task => task.2.place?.map (task.1, ·)) htask (.finished final)
    have hpending : pool.pending.Perm ((job, place) :: next.pending) :=
      hold.trans (hnew.symm.cons _)
    have hall : next.pending ++ next.notices ~ pool.pending ++ pool.notices :=
      calc next.pending ++ next.notices
          ~ next.pending ++ (job, place) :: pool.notices := hnotices.append_left _
        _ ~ (job, place) :: next.pending ++ pool.notices := List.perm_middle
        _ ~ pool.pending ++ pool.notices := (hpending.append_right _).symm
    exact (hall.map Prod.snd).trans h.places
  case jobs =>
    obtain ⟨others, hold, hnew⟩ := exists_perm_filterMap
      (fun task => if task.2.stepsLeft = 0 then some task.1 else none) htask (.finished final)
    have hfinished : next.finishedJobs.Perm (job :: pool.finishedJobs) :=
      hnew.trans (hold.symm.cons _)
    exact (hnotices.map Prod.fst).trans ((h.jobs.cons job).trans hfinished.symm)

theorem Counting.step (h : Counting pool) (htask : pool.tasks[index]? = some (job, stage))
    (hstep : Stepped work pool index job stage next) : Counting next := by
  cases hstep with
  | count outcome => exact h.count htask
  | notify outcome place => exact h.notify _ htask
  | _ => exact h.uncounted htask rfl rfl rfl (by simp [Stage.stepsLeft]) (by simp [Stage.stepsLeft])

theorem Played.counting {first : Pool α β} (h : Played work first moves pool)
    (hfirst : Counting first) : Counting pool := by
  induction h with
  | start => exact hfirst
  | @move _ pool next last _ hlast ih =>
    cases last with
    | cancel => exact Option.some.inj hlast ▸ ⟨ih.places, ih.jobs⟩
    | advance index =>
      obtain ⟨job, stage, htask, hstep⟩ := exists_stepped hlast
      exact ih.step htask hstep

/-- **In the end each job has been told once to be finished**, and the places are all the numbers up
to the number of jobs. -/
theorem notices_of_isDone {limit : Nat} {cancelled : Bool} {jobs : List α}
    (h : Played work (start limit cancelled jobs) moves pool) (hdone : pool.isDone = true) :
    (pool.notices.map Prod.fst).Perm jobs ∧
      (pool.notices.map Prod.snd).Perm (List.range' 1 jobs.length) := by
  have hfinished : pool.finishedJobs = jobs := by
    rw [← h.jobs_of_start, finishedJobs, ← List.filterMap_eq_map]
    exact List.filterMap_congr fun task htask => if_pos (isDone_iff.mp hdone task htask)
  have hpending : pool.pending = [] := by
    rw [pending, List.filterMap_eq_nil_iff]
    intro task htask
    obtain ⟨outcome, houtcome⟩ := eq_finished_of_stepsLeft (isDone_iff.mp hdone task htask)
    rw [houtcome]
    rfl
  obtain ⟨hplaces, htold⟩ := h.counting (counting_start limit cancelled jobs)
  rw [hfinished] at htold
  rw [hpending, List.nil_append] at hplaces
  have hcompleted : pool.completed = jobs.length := by
    have hlength := hplaces.length_eq
    rw [List.length_map, List.length_range'] at hlength
    rw [← hlength, ← htold.length_eq, List.length_map]
  exact ⟨htold, hcompleted ▸ hplaces⟩

end Pool

end FormsAudit
