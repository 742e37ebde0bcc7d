import SimulatedLinux.Kernel.Cpu
import SimulatedLinux.Kernel.Mutex

/-! # Priorities

A task's priority changes in two places: `xTaskPriorityInherit` raises that of the
holder of a mutex, and `xTaskPriorityDisinherit` gives a task that returns its last mutex
its base priority back. Both write the value of the event item too, and neither moves an
event item that is in a wait list.
-/

namespace SimulatedLinux.Kernel

variable {α : Type}

/-- The priorities of a task, and the value its event item is sorted by. -/
def Task.prio (T : Task α) : Nat × Nat × Nat := (T.uxPriority, T.uxBasePriority, T.xEventValue)

namespace State

/-- The priorities of all tasks. -/
def prios (k : State α) (t : TaskId) : Nat × Nat × Nat := (k.task t).prio

variable (k : State α) (t : TaskId)

theorem prios_modTask (f : Task α → Task α) :
    (k.modTask t f).prios = Function.update k.prios t (f (k.task t)).prio := by
  funext u
  by_cases hu : u = t
  · subst hu
    simp [prios, modTask]
  · simp [prios, modTask, hu]

theorem prios_modTask_same {f : Task α → Task α} (hsame : (f (k.task t)).prio = (k.task t).prio) :
    (k.modTask t f).prios = k.prios := by
  rw [prios_modTask, hsame]
  exact Function.update_eq_self t k.prios

@[simp] theorem prios_setFrame (frame : Frame α) : (k.setFrame t frame).prios = k.prios :=
  prios_modTask_same k t rfl

@[simp] theorem prios_setPc (frame : Frame α) (pc : Pc α) : (k.setPc t frame pc).prios = k.prios :=
  prios_setFrame k t _

@[simp] theorem prios_complete (frame : Frame α) (res : QueueResult α) :
    (k.complete t frame res).prios = k.prios :=
  prios_setPc k t frame _

@[simp] theorem prios_setEventList (list : EventList) (tasks : List TaskId) :
    (k.setEventList list tasks).prios = k.prios := by
  cases list <;> rfl

@[simp] theorem prios_removeEventItem : (k.removeEventItem t).prios = k.prios := by
  unfold removeEventItem
  split
  · rfl
  · rw [prios_modTask_same _ _ rfl, prios_setEventList]

@[simp] theorem prios_prvAddTaskToReadyList : (k.prvAddTaskToReadyList t).prios = k.prios :=
  prios_modTask_same k t rfl

@[simp] theorem prios_xTaskRemoveFromEventList (list : EventList) :
    (k.xTaskRemoveFromEventList list).prios = k.prios := by
  unfold xTaskRemoveFromEventList
  split
  · rfl
  next u rest _ =>
    have hremoved :
        ((k.setEventList list rest).modTask u fun T => { T with xEventList := none }).prios =
          k.prios := by
      rw [prios_modTask_same _ _ rfl, prios_setEventList]
    dsimp only
    split
    · rw [prios_prvAddTaskToReadyList]
      exact hremoved
    · rw [prios_modTask_same _ _ rfl]
      exact hremoved

@[simp] theorem prios_wakeFirst (list : EventList) : (k.wakeFirst list).prios = k.prios := by
  unfold wakeFirst
  split
  · rfl
  · exact prios_xTaskRemoveFromEventList k list

@[simp] theorem prios_wakeLocked (list : EventList) (count : Nat) :
    (k.wakeLocked list count).prios = k.prios := by
  induction count generalizing k with
  | zero => rfl
  | succ count ih =>
      unfold wakeLocked
      split
      · rfl
      · rw [ih, prios_xTaskRemoveFromEventList]

theorem prios_foldl {f : State α → TaskId → State α} (hf : ∀ k t, (f k t).prios = k.prios)
    (tasks : List TaskId) : (tasks.foldl f k).prios = k.prios := by
  induction tasks generalizing k with
  | nil => rfl
  | cons t rest ih => rw [List.foldl_cons, ih, hf]

theorem prios_unblockDelayed : (k.unblockDelayed t).prios = k.prios := by
  unfold unblockDelayed
  split
  · rw [prios_prvAddTaskToReadyList, prios_removeEventItem]
  · rfl

@[simp] theorem prios_xTaskIncrementTick : k.xTaskIncrementTick.prios = k.prios := by
  unfold xTaskIncrementTick
  split
  · dsimp only
    rw [prios_foldl _ prios_unblockDelayed]
    split <;> rfl
  · rfl

@[simp] theorem prios_xTaskResumeAll : k.xTaskResumeAll.prios = k.prios := by
  have hticks (n : Nat) (k : State α) : (xTaskIncrementTick^[n] k).prios = k.prios := by
    induction n generalizing k with
    | zero => rfl
    | succ n ih => rw [Function.iterate_succ_apply, ih, prios_xTaskIncrementTick]
  have hready (k : State α) (t : TaskId) : (k.readyPended t).prios = k.prios := by
    rw [readyPended, prios_prvAddTaskToReadyList, prios_removeEventItem]
  unfold xTaskResumeAll
  dsimp only
  split
  · exact (hticks _ _).trans (prios_foldl _ hready _)
  · rfl

@[simp] theorem prios_prvAddCurrentTaskToDelayedList (xTicksToWait : Nat) (forever : Bool) :
    (k.prvAddCurrentTaskToDelayedList xTicksToWait forever).prios = k.prios := by
  unfold prvAddCurrentTaskToDelayedList
  refine prios_modTask_same _ _ ?_
  split <;> rfl

@[simp] theorem prios_vTaskPlaceOnEventList (list : EventList) (xTicksToWait : Nat) :
    (k.vTaskPlaceOnEventList list xTicksToWait).prios = k.prios := by
  unfold vTaskPlaceOnEventList
  rw [prios_prvAddCurrentTaskToDelayedList, prios_modTask_same _ _ rfl, prios_setEventList]

theorem prios_takeCount (q : QueueId) : (k.takeCount q).prios = k.prios := by
  unfold takeCount
  dsimp only
  split
  · have hmod := prios_modTask_same (k.modQueue q fun Q =>
        { Q with uxMessagesWaiting := Q.uxMessagesWaiting - 1 })
      k.pxCurrentTCB (f := fun T => { T with uxMutexesHeld := T.uxMutexesHeld + 1 }) rfl
    exact hmod
  · rfl

theorem prios_failOrWait (frame : Frame α) : (k.failOrWait t frame).prios = k.prios := by
  unfold failOrWait
  dsimp only
  split
  · rw [prios_complete]
    rfl
  · rw [prios_setFrame]
    rfl

theorem prios_leave (frame : Frame α) (res : QueueResult α) :
    (k.leave t frame res).prios = k.prios := by
  unfold leave
  dsimp only
  let ret := frame.api.result res ((k.xTickCount + tickModulus - frame.startTick) % tickModulus)
  have hmod : (k.modTask t fun T => { T with frame := none, ret := some ret }).prios = k.prios :=
    prios_modTask_same k t rfl
  cases frame.api.locks <;> cases res <;> exact hmod

theorem prios_enter (api : Api α) : (k.enter t api).prios = k.prios := by
  unfold enter
  cases api.unlocks <;> cases api.request <;> exact prios_modTask_same _ t rfl

end State

/-! ## What a step does to the priorities -/

/-- The change that one step of the kernel makes to the priorities. -/
inductive Reprioritised (k : State α) (act : Act α) (k' : State α) : Prop
  | same (hprios : k'.prios = k.prios)
  /-- A task that is about to wait for a mutex lifts its holder. -/
  | boosted (t h : TaskId) (f : Frame α) (hact : act = .run t) (hframe : k.view.frame t = some f)
      (hpc : f.pc = .inherit) (hholder : (k.queue f.xQueue).xMutexHolder = some h)
      (hlower : (k.task h).uxPriority < (k.task t).uxPriority)
      (hprios : k'.prios = Function.update k.prios h
        ((k.task t).uxPriority, (k.task h).uxBasePriority,
          configMaxPriorities - (k.task t).uxPriority))
  /-- A task gives its last mutex back. -/
  | dropped (t : TaskId) (f : Frame α) (item : Option α) (hact : act = .run t)
      (hframe : k.view.frame t = some f) (hpc : f.pc = .attempt) (hop : f.op = .genericSend item)
      (hmutex : (k.queue f.xQueue).isMutex) (hholder : (k.queue f.xQueue).xMutexHolder = some t)
      (hlast : (k.task t).uxMutexesHeld = 1) (hgone : (k'.task t).uxMutexesHeld = 0)
      (hprios : k'.prios = Function.update k.prios t
        ((k.task t).uxBasePriority, (k.task t).uxBasePriority,
          configMaxPriorities - (k.task t).uxBasePriority))
  | spawned (c : TaskId) (uxPriority : Nat) (hact : act = .spawn c uxPriority)
      (hlt : uxPriority < configMaxPriorities) (hnext : k'.nextTask = k.nextTask + 1)
      (hprios : k'.prios = Function.update k.prios k.nextTask
        (uxPriority, uxPriority, configMaxPriorities - uxPriority))

namespace State

variable {k k' : State α} {t : TaskId} {f : Frame α} {act : Act α}

theorem reprioritised_inherit (hcurrent : k.pxCurrentTCB = t) (hframe : k.view.frame t = some f)
    (hpc : f.pc = .inherit) :
    Reprioritised k (.run t)
      ((k.xTaskPriorityInherit (k.queue f.xQueue).xMutexHolder).setPc t f .place) := by
  cases hholder : (k.queue f.xQueue).xMutexHolder with
  | none => exact .same (prios_setPc _ _ _ _)
  | some h =>
      simp only [xTaskPriorityInherit, hcurrent]
      split
      next hlower =>
        refine .boosted t h f rfl hframe hpc hholder hlower ?_
        rw [prios_setPc, prios_modTask]
        rfl
      next => exact .same (prios_setPc _ _ _ _)

/-- The priorities after `xTaskPriorityDisinherit`. -/
theorem prios_xTaskPriorityDisinherit {holder : Option TaskId}
    (hdone : k.xTaskPriorityDisinherit holder = some k') :
    k'.prios = k.prios ∨ holder = some k.pxCurrentTCB ∧ (k.task k.pxCurrentTCB).uxMutexesHeld = 1 ∧
      (k'.task k.pxCurrentTCB).uxMutexesHeld = 0 ∧ k'.prios = Function.update k.prios k.pxCurrentTCB
        ((k.task k.pxCurrentTCB).uxBasePriority, (k.task k.pxCurrentTCB).uxBasePriority,
          configMaxPriorities - (k.task k.pxCurrentTCB).uxBasePriority) := by
  unfold xTaskPriorityDisinherit at hdone
  split at hdone
  · cases hdone
    exact .inl rfl
  next h =>
    split at hdone
    next hheld =>
      obtain ⟨rfl, hheld⟩ := hheld
      have hmod :=
        prios_modTask_same k k.pxCurrentTCB (f :=
          fun T => { T with uxMutexesHeld := T.uxMutexesHeld - 1 }) rfl
      dsimp only at hdone
      split at hdone
      next hlast =>
        cases hdone
        simp only [modTask, Function.update_self] at hlast
        refine .inr ⟨rfl, by omega, ?_, ?_⟩
        · simp only [modTask, Function.update_self]
          exact hlast.2
        · rw [prios_modTask, hmod]
          simp [modTask, Task.prio]
      next =>
        cases hdone
        exact .inl hmod
    next => simp at hdone

theorem view_held (k : State α) (t : TaskId) : k.view.held t = (k.task t).uxMutexesHeld := rfl

theorem reprioritised_attempt (hcurrent : k.pxCurrentTCB = t) (hframe : k.view.frame t = some f)
    (hpc : f.pc = .attempt) : Reprioritised k (.run t) (k.attempt t f) := by
  unfold attempt
  split
  next item hop =>
    unfold xQueueGenericSend
    dsimp only
    split
    · split
      · exact .same rfl
      next k₁ hcopy =>
        have hafter :
            (((k₁.retried t f.waitList).wakeFirst (.toReceive f.xQueue)).complete t f
              (.pass none)).prios = k₁.prios := by
          rw [prios_complete, prios_wakeFirst]
          rfl
        unfold prvCopyDataToQueue at hcopy
        split at hcopy
        · split at hcopy
          next hmutex =>
            obtain ⟨k₂, hdone, rfl⟩ := Option.map_eq_some_iff.mp hcopy
            rcases prios_xTaskPriorityDisinherit hdone with hsame | ⟨hholder, hlast, hgone, hprios⟩
            · exact .same (hafter.trans hsame)
            · rw [hcurrent] at hholder hlast hgone hprios
              refine .dropped t f item rfl hframe hpc hop hmutex hholder hlast ?_
                (hafter.trans hprios)
              rw [← view_held, view_complete, view_wakeFirst, view_retried, view_modQueue]
              exact hgone
          · cases hcopy
            exact .same hafter
        · cases hcopy
          exact .same hafter
    · exact .same (prios_failOrWait k t f)
  next =>
    unfold xQueueReceive
    dsimp only
    split
    · refine .same ?_
      rw [prios_complete, prios_wakeFirst]
      rfl
    · exact .same (prios_failOrWait k t f)
  next =>
    unfold xQueueSemaphoreTake
    dsimp only
    split
    · refine .same ?_
      rw [prios_complete, prios_wakeFirst]
      exact prios_takeCount k f.xQueue
    · exact .same (prios_failOrWait k t f)

theorem reprioritised_runFrame (hcurrent : k.pxCurrentTCB = t) (hframe : k.view.frame t = some f) :
    Reprioritised k (.run t) (k.runFrame t f) := by
  unfold runFrame
  dsimp only
  split
  · exact .same rfl
  · split
    next =>
      split
      · exact .same (prios_setPc _ _ _ _)
      · exact .same rfl
    next hpc => exact reprioritised_attempt hcurrent hframe hpc
    next => exact .same (prios_setPc _ _ _ _)
    next => exact .same (prios_setPc _ _ _ _)
    next => exact .same (prios_setFrame _ _ _)
    next =>
      split
      · split <;> exact .same (prios_setPc _ _ _ _)
      · exact .same (prios_setPc _ _ _ _)
    next hpc => exact reprioritised_inherit hcurrent hframe hpc
    next => exact .same (by rw [prios_setPc, prios_vTaskPlaceOnEventList])
    next => exact .same ((prios_setPc _ _ _ _).trans (prios_wakeLocked k _ _))
    next => exact .same ((prios_setPc _ _ _ _).trans (prios_wakeLocked k _ _))
    next =>
      unfold afterResume
      split
      · exact .same (by rw [prios_complete, prios_xTaskResumeAll])
      · exact .same (by rw [prios_setPc, prios_xTaskResumeAll])
      · exact .same (by rw [prios_setPc, prios_xTaskResumeAll])
    next =>
      split
      · exact .same (prios_complete _ _ _ _)
      · exact .same (prios_setPc _ _ _ _)
    next => exact .same (prios_leave _ _ _ _)

theorem reprioritised_perform (hstep : k.perform act = some k') : Reprioritised k act k' := by
  unfold perform at hstep
  split at hstep
  next => simp at hstep
  next => simp at hstep
  next =>
    cases hstep
    exact .same (prios_enter _ _ _)
  next => split at hstep <;> cases hstep <;> exact .same rfl
  next => split at hstep <;> cases hstep <;> exact .same rfl
  next c uxPriority =>
    split at hstep <;> cases hstep
    next hlt =>
      refine .spawned c uxPriority rfl hlt rfl ?_
      exact Function.comp_update Task.prio k.task k.nextTask _
    next => exact .same rfl
  next t =>
    cases hstep
    unfold vTaskDelete
    split
    · refine .same ?_
      have hmod :
          ((k.removeEventItem t).modTask t fun T =>
            { T with xStateList := .waitingTermination }).prios = k.prios := by
        rw [prios_modTask_same _ _ rfl, prios_removeEventItem]
      exact hmod
    · exact .same rfl
  next =>
    cases hstep
    unfold prvCheckTasksWaitingTermination
    split
    · exact .same rfl
    next t rest _ =>
      have hmod := prios_modTask_same k t (f := fun T => { T with xStateList := .absent }) rfl
      exact .same hmod
  next t n =>
    split at hstep <;> cases hstep
    · unfold vTaskDelay
      split
      · exact .same rfl
      · refine .same ?_
        rw [prios_xTaskResumeAll, prios_prvAddCurrentTaskToDelayedList]
        rfl
    · exact .same rfl
  next =>
    cases hstep
    exact .same rfl
  next =>
    split at hstep <;> cases hstep
    · exact .same rfl
    · exact .same (prios_xTaskResumeAll k)

/-- Every step is one of the four. -/
theorem reprioritised_step (hstep : k.step act = some k') : Reprioritised k act k' := by
  have hswitched {t : TaskId} (h : Reprioritised (k.switchTo t) act k') :
      Reprioritised k act k' := by
    cases h with
    | same hprios => exact .same hprios
    | boosted t h f hact hframe hpc hholder hlower hprios =>
        exact .boosted t h f hact hframe hpc hholder hlower hprios
    | dropped t f item hact hframe hpc hop hmutex hholder hlast hgone hprios =>
        exact .dropped t f item hact hframe hpc hop hmutex hholder hlast hgone hprios
    | spawned c uxPriority hact hlt hnext hprios =>
        exact .spawned c uxPriority hact hlt hnext hprios
  unfold step at hstep
  split at hstep
  · split at hstep <;> cases hstep
    exact .same (prios_xTaskIncrementTick k)
  next t hactor =>
    split at hstep
    · split at hstep
      next f u hframe =>
        obtain rfl : u = t := Option.some.inj hactor
        cases hstep
        exact hswitched (reprioritised_runFrame rfl hframe)
      next => simp at hstep
      next => exact hswitched (reprioritised_perform hstep)
    · simp at hstep

end State

end SimulatedLinux.Kernel
