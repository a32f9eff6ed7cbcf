import FormsAudit.Proofs.Pool.Played

/-!
# Finishing a pool

Permits are neither made nor lost: the free ones and those that tasks have stay as many as there
were (`permits_add_holders`).  A pool that works off its tasks in the order of their jobs therefore
never gets stuck, and `Pool.run` finishes them all.  What it does is one of the orders in which the
tasks may take their steps (`exists_play?_run`).
-/

namespace FormsAudit.Pool

variable {α β : Type} {work : Work α β} {first pool next : Pool α β} {moves : List Move}
  {index : Nat} {job : α} {stage after : Stage β}

/-! ## Permits -/

/-- How many tasks have a permit. -/
def holders (pool : Pool α β) : Nat :=
  pool.tasks.countP fun task => task.2.holdsPermit

theorem holders_setStage (htask : pool.tasks[index]? = some (job, stage)) (after : Stage β) :
    (pool.setStage index job after).holders + stage.holdsPermit.toNat =
      pool.holders + after.holdsPermit.toNat := by
  obtain ⟨others, hold, hnew⟩ := exists_perm_setStage htask
  have hcons : ∀ task : α × Stage β, (task :: others).countP (·.2.holdsPermit) =
      others.countP (·.2.holdsPermit) + task.2.holdsPermit.toNat := by
    intro task
    rw [List.countP_cons]
    cases task.2.holdsPermit <;> rfl
  rw [holders, holders, hold.countP_eq, (hnew after).countP_eq, hcons, hcons]
  exact Nat.add_right_comm _ _ _

theorem holders_setStage_of_eq (htask : pool.tasks[index]? = some (job, stage))
    (heq : after.holdsPermit = stage.holdsPermit) :
    (pool.setStage index job after).holders = pool.holders := by
  have h := holders_setStage htask after
  rw [heq] at h
  exact Nat.add_right_cancel h

/-- Tasks that wait and tasks that are finished have no permits. -/
theorem holders_eq_zero (h : ∀ task ∈ pool.tasks, task.2 = .waiting ∨ task.2.stepsLeft = 0) :
    pool.holders = 0 := by
  rw [holders, List.countP_eq_zero]
  rintro ⟨job, stage⟩ htask
  rcases h _ htask with hstage | hstage <;> cases stage <;>
    simp_all [Stage.stepsLeft, Stage.holdsPermit]

theorem Stepped.permits_add_holders (h : Stepped work pool index job stage next)
    (htask : pool.tasks[index]? = some (job, stage)) :
    next.permits + next.holders = pool.permits + pool.holders := by
  cases h with
  | acquire _ hpermits =>
    have hholders := holders_setStage htask .admitted
    simp only [Stage.holdsPermit, Bool.toNat_true, Bool.toNat_false] at hholders
    show pool.permits - 1 + (pool.setStage index job .admitted).holders = _
    omega
  | release outcome =>
    have hholders := holders_setStage htask (.released outcome)
    simp only [Stage.holdsPermit, Bool.toNat_true, Bool.toNat_false] at hholders
    show pool.permits + 1 + (pool.setStage index job (.released outcome)).holders = _
    omega
  | _ =>
    -- all other steps keep the permit that the task has, or has not
    exact congrArg (pool.permits + ·) (holders_setStage_of_eq htask rfl)

/-- In every run the permits stay as many as they were. -/
theorem Played.permits_add_holders (h : Played work first moves pool) :
    pool.permits + pool.holders = first.permits + first.holders := by
  induction h with
  | start => rfl
  | @move _ pool next last _ hlast ih =>
    rw [← ih]
    cases last with
    | cancel => exact Option.some.inj hlast ▸ rfl
    | advance index =>
      obtain ⟨job, stage, htask, hstep⟩ := exists_stepped hlast
      exact hstep.permits_add_holders htask

/-! ## Steps left -/

theorem stepsLeft_setStage (htask : pool.tasks[index]? = some (job, stage)) (after : Stage β) :
    (pool.setStage index job after).stepsLeft + stage.stepsLeft =
      pool.stepsLeft + after.stepsLeft := by
  obtain ⟨others, hold, hnew⟩ := exists_perm_setStage htask
  have hsum : ∀ pool : Pool α β, pool.stepsLeft = (pool.tasks.map (·.2.stepsLeft)).sum := by
    intro pool
    rw [stepsLeft, List.sum_eq_foldr, List.foldr_map]
  rw [hsum, hsum, (hold.map _).sum_nat, ((hnew after).map _).sum_nat]
  simp only [List.map_cons, List.sum_cons]
  omega

theorem Stepped.stepsLeft_lt (h : Stepped work pool index job stage next)
    (htask : pool.tasks[index]? = some (job, stage)) : next.stepsLeft < pool.stepsLeft := by
  obtain ⟨after, htasks, hlt⟩ := h.exists_tasks_eq
  have hnext : next.stepsLeft = (pool.setStage index job after).stepsLeft := by
    rw [stepsLeft, htasks]
    rfl
  have hset := stepsLeft_setStage htask after
  omega

theorem isDone_of_stepsLeft (h : pool.stepsLeft = 0) : pool.isDone = true := by
  rw [isDone_iff]
  unfold stepsLeft at h
  generalize pool.tasks = tasks at h
  induction tasks with
  | nil => simp
  | cons task tasks ih =>
    rw [List.foldr_cons] at h
    exact List.forall_mem_cons.mpr ⟨by omega, ih (by omega)⟩

/-! ## One task after the other -/

/-- The tasks at the front are finished, and all others wait but for the first. -/
def InOrder (pool : Pool α β) : Prop :=
  ∃ done queue, pool.tasks = done ++ queue ∧ (∀ task ∈ done, task.2.stepsLeft = 0) ∧
    ∀ task ∈ queue.tail, task.2 = .waiting

theorem inOrder_start (limit : Nat) (cancelled : Bool) (jobs : List α) :
    InOrder (start limit cancelled jobs : Pool α β) := by
  refine ⟨[], _, rfl, by simp, fun task htask => ?_⟩
  obtain ⟨job, -, rfl⟩ := List.mem_map.mp (List.mem_of_mem_tail htask)
  rfl

/-- A pool in order is finished, or has a task at work before which all are finished and after which
all wait. -/
theorem InOrder.isDone_or (h : InOrder pool) :
    pool.isDone = true ∨ ∃ done current waiting, pool.tasks = done ++ current :: waiting ∧
      (∀ task ∈ done, task.2.stepsLeft = 0) ∧ current.2.stepsLeft ≠ 0 ∧
      ∀ task ∈ waiting, task.2 = .waiting := by
  obtain ⟨done, queue, htasks, hdone, hqueue⟩ := h
  cases queue with
  | nil =>
    left
    rw [List.append_nil] at htasks
    rw [isDone_iff, htasks]
    exact hdone
  | cons current rest =>
    by_cases hcurrent : current.2.stepsLeft = 0
    · -- the first is finished too, and the next one is at work
      have hmore : ∀ task ∈ done ++ [current], task.2.stepsLeft = 0 := by
        intro task htask
        rcases List.mem_append.mp htask with htask | htask
        · exact hdone task htask
        · exact List.mem_singleton.mp htask ▸ hcurrent
      cases rest with
      | nil =>
        left
        rw [isDone_iff, htasks]
        exact hmore
      | cons waiting others =>
        right
        refine ⟨done ++ [current], waiting, others, by simpa using htasks, hmore, ?_, ?_⟩
        · rw [hqueue waiting List.mem_cons_self]
          exact Nat.succ_ne_zero 5
        · intro task htask
          exact hqueue task (List.mem_cons_of_mem _ htask)
    · right
      exact ⟨done, current, rest, htasks, hdone, hcurrent, hqueue⟩

/-- In order, the task at work can take a step, since no other has a permit. -/
theorem InOrder.exists_advance (work : Work α β) (h : InOrder pool)
    (hpermits : 0 < pool.permits + pool.holders) (hdone : pool.isDone = false) :
    ∃ next, pool.advance? work (pool.tasks.findIdx fun task => task.2.stepsLeft ≠ 0) = some next ∧
      InOrder next := by
  rcases h.isDone_or with
    hdone' | ⟨done, ⟨job, stage⟩, waiting, htasks, hfinished, hstage, hwaiting⟩
  · rw [hdone] at hdone'
    cases hdone'
  have hindex : (pool.tasks.findIdx fun task => task.2.stepsLeft ≠ 0) = done.length := by
    have hnone : ∀ task ∈ done, (decide (task.2.stepsLeft ≠ 0)) = false := by
      simpa using hfinished
    rw [htasks, List.findIdx_append, List.findIdx_eq_length_of_false hnone, if_neg (by simp)]
    simp [List.findIdx_cons, hstage]
  have htask : pool.tasks[done.length]? = some (job, stage) := by
    simp [htasks]
  have hadvance : pool.advance? work done.length ≠ none := by
    rw [ne_eq, advance?_eq_none_iff htask]
    rintro (hfinal | ⟨rfl, -, hnone⟩)
    · exact hstage hfinal
    · have hholders : pool.holders = 0 := by
        apply holders_eq_zero
        rw [htasks, List.forall_mem_append, List.forall_mem_cons]
        exact ⟨fun task htask => .inr (hfinished task htask), .inl rfl,
          fun task htask => .inl (hwaiting task htask)⟩
      omega
  obtain ⟨next, hnext⟩ := Option.ne_none_iff_exists'.mp hadvance
  rw [hindex]
  refine ⟨next, hnext, ?_⟩
  obtain ⟨other, found, hfound, hstep⟩ := exists_stepped hnext
  obtain ⟨rfl, rfl⟩ := Prod.mk.inj (Option.some.inj (htask.symm.trans hfound))
  obtain ⟨after, hnextTasks, -⟩ := hstep.exists_tasks_eq
  refine ⟨done, (job, after) :: waiting, ?_, hfinished, hwaiting⟩
  rw [hnextTasks, htasks, List.set_append_right _ _ (Nat.le_refl _), Nat.sub_self,
    List.set_cons_zero]

/-- **A pool in order is worked off to the end**, by steps of its tasks alone. -/
theorem exists_play?_runFor (h : InOrder pool) (hpermits : 0 < pool.permits + pool.holders)
    (steps : Nat) (hsteps : pool.stepsLeft ≤ steps) :
    ∃ moves, .cancel ∉ moves ∧ pool.play? work moves = some (runFor work steps pool) ∧
      (runFor work steps pool).isDone = true := by
  induction steps generalizing pool with
  | zero => exact ⟨[], by simp, rfl, isDone_of_stepsLeft (Nat.le_zero.mp hsteps)⟩
  | succ steps ih =>
    unfold runFor
    cases hdone : pool.isDone with
    | true =>
      have hindex : (pool.tasks.findIdx fun task => task.2.stepsLeft ≠ 0) = pool.tasks.length := by
        apply List.findIdx_eq_length_of_false
        intro task htask
        simpa using isDone_iff.mp hdone task htask
      rw [hindex, advance?, List.getElem?_eq_none (Nat.le_refl _)]
      exact ⟨[], by simp, rfl, hdone⟩
    | false =>
      set current := pool.tasks.findIdx fun task => task.2.stepsLeft ≠ 0
      obtain ⟨next, hnext, horder⟩ := h.exists_advance work hpermits hdone
      obtain ⟨job, stage, htask, hstep⟩ := exists_stepped hnext
      have hlt := hstep.stepsLeft_lt htask
      rw [← hstep.permits_add_holders htask] at hpermits
      obtain ⟨moves, hcancel, hplay, hfinished⟩ := ih horder hpermits (by omega)
      rw [hnext]
      refine ⟨.advance current :: moves, by simpa using hcancel, ?_, hfinished⟩
      rw [play?, move?, hnext, Option.bind_some, hplay]

/-- The run of a pool is one of the orders in which its tasks may take their steps, and the pool is
finished after it. -/
theorem exists_play?_run (work : Work α β) (limit : Nat) (cancelled : Bool) (jobs : List α) :
    ∃ moves, .cancel ∉ moves ∧
      (start limit cancelled jobs).play? work moves =
        some ((start limit cancelled jobs).run work) ∧
      ((start limit cancelled jobs).run work).isDone = true := by
  apply exists_play?_runFor (inOrder_start limit cancelled jobs) _ _ (Nat.le_refl _)
  -- there is a permit at least, whatever the limit
  have hpermits : 1 ≤ (start limit cancelled jobs : Pool α β).permits := Nat.le_max_left 1 limit
  omega

end FormsAudit.Pool
