import SimulatedLinux.Kernel.Machine

/-! # Where a task belongs

The list a task's state item should be in follows from three fields of the task. What the
functions of the kernel do to these three is said here, function by function; most of
them do nothing.
-/

namespace SimulatedLinux.Kernel

variable {α : Type}

/-- The fields of a task that its place in the lists depends on. -/
structure Slot where
  state : StateList
  wake : Nat
  priority : Nat

/-- The list a task belongs to, where `second` says which delayed list is in use. -/
def Slot.home (slot : Slot) (second : Bool) : Option ListName :=
  match slot.state with
  | .ready => some (.ready slot.priority)
  | .delayed => some (.delayedTask second)
  | .overflowDelayed => some (.delayedTask !second)
  | .suspended => some .suspended
  | .waitingTermination => some .waitingTermination
  | .absent => none

def Slot.setState (slot : Slot) (state : StateList) : Slot := { slot with state }

/-- The delayed lists change their roles. -/
def Slot.switched (slot : Slot) : Slot :=
  slot.setState (match slot.state with
    | .delayed => .overflowDelayed
    | .overflowDelayed => .delayed
    | list => list)

def Task.slot (T : Task α) : Slot := ⟨T.xStateList, T.xWakeTime, T.uxPriority⟩

/-- The program points of a blocking function that move no state item. -/
def Pc.still : Pc α → Bool
  | .attempt | .inherit | .place | .unlockTx _ | .unlockRx _ | .resumeAll _ => false
  | _ => true

namespace State

def slot (k : State α) (t : TaskId) : Slot := (k.task t).slot

variable (k : State α) (t : TaskId)

theorem slot_modTask (f : Task α → Task α) :
    (k.modTask t f).slot = Function.update k.slot t (f (k.task t)).slot := by
  funext u
  by_cases hu : u = t
  · subst hu
    simp [slot, modTask]
  · simp [slot, modTask, hu]

theorem slot_modTask_same {f : Task α → Task α} (hsame : (f (k.task t)).slot = (k.task t).slot) :
    (k.modTask t f).slot = k.slot := by
  rw [slot_modTask, hsame]
  exact Function.update_eq_self t k.slot

@[simp] theorem slot_setFrame (frame : Frame α) : (k.setFrame t frame).slot = k.slot :=
  slot_modTask_same k t rfl

@[simp] theorem slot_setPc (frame : Frame α) (pc : Pc α) : (k.setPc t frame pc).slot = k.slot :=
  slot_setFrame k t _

@[simp] theorem slot_complete (frame : Frame α) (res : QueueResult α) :
    (k.complete t frame res).slot = k.slot :=
  slot_setPc k t frame _

@[simp] theorem slot_setEventList (list : EventList) (tasks : List TaskId) :
    (k.setEventList list tasks).slot = k.slot := by
  cases list <;> rfl

@[simp] theorem slot_removeEventItem : (k.removeEventItem t).slot = k.slot := by
  unfold removeEventItem
  split
  · rfl
  · rw [slot_modTask_same _ _ rfl, slot_setEventList]

theorem slot_prvAddTaskToReadyList :
    (k.prvAddTaskToReadyList t).slot = Function.update k.slot t ((k.slot t).setState .ready) :=
  slot_modTask k t _

theorem slot_readyPended :
    (k.readyPended t).slot = Function.update k.slot t ((k.slot t).setState .ready) := by
  rw [readyPended, slot_prvAddTaskToReadyList, slot_removeEventItem]

/-- The woken task is ready, unless the scheduler is suspended. -/
theorem slot_xTaskRemoveFromEventList {list : EventList} {rest : List TaskId}
    (hlist : k.eventList list = t :: rest) :
    (k.xTaskRemoveFromEventList list).slot =
      if k.uxSchedulerSuspended = 0 then Function.update k.slot t ((k.slot t).setState .ready)
      else k.slot := by
  have hremoved :
      ((k.setEventList list rest).modTask t fun T => { T with xEventList := none }).slot =
        k.slot := by
    rw [slot_modTask_same _ _ rfl, slot_setEventList]
  have hsuspended :
      ((k.setEventList list rest).modTask t fun T =>
        { T with xEventList := none }).uxSchedulerSuspended = k.uxSchedulerSuspended := by
    cases list <;> rfl
  simp only [xTaskRemoveFromEventList, hlist]
  by_cases hzero : k.uxSchedulerSuspended = 0
  · rw [if_pos (hsuspended.trans hzero), if_pos hzero, slot_prvAddTaskToReadyList, ← hremoved]
    rfl
  · rw [if_neg (fun h => hzero (hsuspended.symm.trans h)), if_neg hzero, slot_modTask_same _ _ rfl]
    exact hremoved

/-- The current task after `prvAddCurrentTaskToDelayedList`. -/
def delayedSlot (k : State α) (slot : Slot) (xTicksToWait : Nat) (xCanBlockIndefinitely : Bool) :
    Slot :=
  if xTicksToWait = portMaxDelay ∧ xCanBlockIndefinitely then slot.setState .suspended
  else
    let xTimeToWake := (k.xTickCount + xTicksToWait) % tickModulus
    { slot with
      wake := xTimeToWake
      state := if xTimeToWake < k.xTickCount then .overflowDelayed else .delayed }

theorem slot_prvAddCurrentTaskToDelayedList (xTicksToWait : Nat) (forever : Bool) :
    (k.prvAddCurrentTaskToDelayedList xTicksToWait forever).slot =
      Function.update k.slot k.pxCurrentTCB
        (k.delayedSlot (k.slot k.pxCurrentTCB) xTicksToWait forever) := by
  rw [prvAddCurrentTaskToDelayedList, slot_modTask]
  congr 1
  unfold delayedSlot
  split
  · rfl
  · rfl

theorem slot_taskSwitchDelayedLists :
    k.taskSwitchDelayedLists.slot = fun t => Slot.switched (k.slot t) := rfl

theorem slot_xTaskPriorityInherit (holder : TaskId) :
    (k.xTaskPriorityInherit (some holder)).slot =
      if (k.task holder).uxPriority < (k.task k.pxCurrentTCB).uxPriority then
        Function.update k.slot holder
          { k.slot holder with priority := (k.task k.pxCurrentTCB).uxPriority }
      else k.slot := by
  simp only [xTaskPriorityInherit]
  split
  · exact slot_modTask k holder _
  · rfl

/-- The holder after `xTaskPriorityDisinherit`. -/
theorem slot_xTaskPriorityDisinherit {k k' : State α} {holder : TaskId}
    (hdone : k.xTaskPriorityDisinherit (some holder) = some k') :
    holder = k.pxCurrentTCB ∧ k'.slot =
      if (k.task holder).uxPriority ≠ (k.task holder).uxBasePriority ∧
      (k.task holder).uxMutexesHeld - 1 = 0 then
        Function.update k.slot holder
          { k.slot holder with priority := (k.task holder).uxBasePriority }
      else k.slot := by
  simp only [xTaskPriorityDisinherit] at hdone
  split at hdone
  next hheld =>
    obtain ⟨rfl, -⟩ := hheld
    have hmod :=
      slot_modTask_same k k.pxCurrentTCB (f :=
        fun T => { T with uxMutexesHeld := T.uxMutexesHeld - 1 }) rfl
    refine ⟨rfl, ?_⟩
    have hcond (P : Nat → Nat → Nat → Prop) :
        P ((k.modTask k.pxCurrentTCB fun T => { T with uxMutexesHeld := T.uxMutexesHeld - 1 }).task
            k.pxCurrentTCB).uxPriority
          ((k.modTask k.pxCurrentTCB fun T => { T with uxMutexesHeld := T.uxMutexesHeld - 1 }).task
            k.pxCurrentTCB).uxBasePriority
          ((k.modTask k.pxCurrentTCB fun T => { T with uxMutexesHeld := T.uxMutexesHeld - 1 }).task
            k.pxCurrentTCB).uxMutexesHeld ↔
        P (k.task k.pxCurrentTCB).uxPriority (k.task k.pxCurrentTCB).uxBasePriority
          ((k.task k.pxCurrentTCB).uxMutexesHeld - 1) := by
      simp [modTask]
    split at hdone
    next hlast =>
      rw [if_pos ((hcond fun p b n => p ≠ b ∧ n = 0).mp hlast)]
      cases hdone
      rw [slot_modTask, hmod]
      simp [modTask, slot, Task.slot]
    next hlast =>
      rw [if_neg fun h => hlast ((hcond fun p b n => p ≠ b ∧ n = 0).mpr h)]
      cases hdone
      exact hmod
  next => simp at hdone

theorem slot_takeCount (q : QueueId) : (k.takeCount q).slot = k.slot := by
  unfold takeCount
  dsimp only
  split
  · have hmod := slot_modTask_same (k.modQueue q fun Q =>
        { Q with uxMessagesWaiting := Q.uxMessagesWaiting - 1 })
      k.pxCurrentTCB (f := fun T => { T with uxMutexesHeld := T.uxMutexesHeld + 1 }) rfl
    exact hmod
  · rfl

theorem slot_failOrWait (frame : Frame α) : (k.failOrWait t frame).slot = k.slot := by
  unfold failOrWait
  dsimp only
  split
  · rw [slot_complete]
    rfl
  · rw [slot_setFrame]
    rfl

theorem slot_leave (frame : Frame α) (res : QueueResult α) :
    (k.leave t frame res).slot = k.slot := by
  unfold leave
  dsimp only
  let ret := frame.api.result res ((k.xTickCount + tickModulus - frame.startTick) % tickModulus)
  have hmod : (k.modTask t fun T => { T with frame := none, ret := some ret }).slot = k.slot :=
    slot_modTask_same k t rfl
  cases frame.api.locks <;> cases res <;> exact hmod

theorem slot_enter (api : Api α) : (k.enter t api).slot = k.slot := by
  unfold enter
  cases api.unlocks <;> cases api.request <;> exact slot_modTask_same _ t rfl

theorem slot_afterResume (frame : Frame α) (after : AfterUnlock) :
    (k.afterResume t frame after).slot = k.slot := by
  unfold afterResume
  split
  · exact slot_complete k t frame _
  · exact slot_setPc k t frame _
  · exact slot_setPc k t frame _

theorem slot_runFrame_still {frame : Frame α} (hstill : frame.pc.still) :
    (k.runFrame t frame).slot = k.slot := by
  unfold runFrame
  dsimp only
  split
  · rfl
  · split
    next =>
      split
      · exact slot_setPc ..
      · rfl
    next hpc => simp [hpc, Pc.still] at hstill
    next => exact slot_setPc ..
    next => exact slot_setPc ..
    next => exact slot_setFrame ..
    next =>
      split
      · split <;> exact slot_setPc ..
      · exact slot_setPc ..
    next hpc => simp [hpc, Pc.still] at hstill
    next hpc => simp [hpc, Pc.still] at hstill
    next hpc => simp [hpc, Pc.still] at hstill
    next hpc => simp [hpc, Pc.still] at hstill
    next hpc => simp [hpc, Pc.still] at hstill
    next =>
      split
      · exact slot_complete ..
      · exact slot_setPc ..
    next => exact slot_leave ..

end State

end SimulatedLinux.Kernel
