import SimulatedLinux.Kernel.Step

/-! # What a kernel step changes apart from scheduling

The `View` of a kernel state forgets which list a task waits in, its priority
and the time. Everything the scheduler does leaves the view alone, so what a
blocking function does to a queue is said once here, as a relation between
views, and the results about mutexes, semaphores and mailboxes start from it.
-/

namespace SimulatedLinux.Kernel

variable {α : Type}

/-- A queue without its wait lists and lock counters. -/
structure Contents (α : Type) where
  live : Bool
  isMutex : Bool
  uxLength : Nat
  uxItemSize : Nat
  uxMessagesWaiting : Nat
  pcTail : Nat
  pcWriteTo : Nat
  pcReadFrom : Nat
  storage : Nat → Option α
  xMutexHolder : Option TaskId

def Queue.contents (Q : Queue α) : Contents α where
  live := Q.live
  isMutex := Q.isMutex
  uxLength := Q.uxLength
  uxItemSize := Q.uxItemSize
  uxMessagesWaiting := Q.uxMessagesWaiting
  pcTail := Q.pcTail
  pcWriteTo := Q.pcWriteTo
  pcReadFrom := Q.pcReadFrom
  storage := Q.storage
  xMutexHolder := Q.xMutexHolder

namespace Contents

/-- One more message, without a holder where the queue is a mutex. -/
def sent (C : Contents α) (item : Option α) : Contents α :=
  if C.uxItemSize = 0 then
    { C with
      xMutexHolder := if C.isMutex then none else C.xMutexHolder
      uxMessagesWaiting := C.uxMessagesWaiting + 1 }
  else
    { C with
      storage := Function.update C.storage C.pcWriteTo item
      pcWriteTo := if C.pcTail ≤ C.pcWriteTo + C.uxItemSize then 0 else C.pcWriteTo + C.uxItemSize
      uxMessagesWaiting := C.uxMessagesWaiting + 1 }

/-- The slot the next receive reads. -/
def nextRead (C : Contents α) : Nat :=
  if C.pcTail ≤ C.pcReadFrom + C.uxItemSize then 0 else C.pcReadFrom + C.uxItemSize

/-- One message less, after `xQueueReceive`. -/
def received (C : Contents α) : Contents α :=
  { C with
    pcReadFrom := if C.uxItemSize = 0 then C.pcReadFrom else C.nextRead
    uxMessagesWaiting := C.uxMessagesWaiting - 1 }

/-- The message `xQueueReceive` copies out. -/
def front (C : Contents α) : Option α :=
  if C.uxItemSize = 0 then none else C.storage C.nextRead

/-- One message less, after `xQueueSemaphoreTake` by `t`. -/
def taken (C : Contents α) (t : TaskId) : Contents α :=
  { C with
    xMutexHolder := if C.isMutex then some t else C.xMutexHolder
    uxMessagesWaiting := C.uxMessagesWaiting - 1 }

end Contents

/-- The kernel without its scheduling data. -/
structure View (α : Type) where
  queue : QueueId → Contents α
  /-- `uxMutexesHeld`. -/
  held : TaskId → Nat
  frame : TaskId → Option (Frame α)
  ret : TaskId → Option (Ret α)
  nextQueue : Nat
  nextTask : Nat
  uxCurrentNumberOfTasks : Nat
  xTasksWaitingTermination : List TaskId
  fault : Option Fault
  locked : TaskId → List QueueId
  trace : List (Event α)

def State.view (k : State α) : View α where
  queue := fun q => (k.queue q).contents
  held := fun t => (k.task t).uxMutexesHeld
  frame := fun t => (k.task t).frame
  ret := fun t => (k.task t).ret
  nextQueue := k.nextQueue
  nextTask := k.nextTask
  uxCurrentNumberOfTasks := k.uxCurrentNumberOfTasks
  xTasksWaitingTermination := k.xTasksWaitingTermination
  fault := k.fault
  locked := k.locked
  trace := k.trace

namespace View

def setQueue (v : View α) (q : QueueId) (C : Contents α) : View α :=
  { v with queue := Function.update v.queue q C }

def setHeld (v : View α) (t : TaskId) (n : Nat) : View α :=
  { v with held := Function.update v.held t n }

def setFrame (v : View α) (t : TaskId) (frame : Option (Frame α)) : View α :=
  { v with frame := Function.update v.frame t frame }

def setRet (v : View α) (t : TaskId) (ret : Option (Ret α)) : View α :=
  { v with ret := Function.update v.ret t ret }

/-- The blocking function of `frame` is done. -/
def complete (v : View α) (t : TaskId) (frame : Frame α) (res : QueueResult α) : View α :=
  { v.setFrame t (some { frame with pc := .leave res }) with
    trace := v.trace ++ [⟨t, frame.api, res⟩] }

/-- The entry point returns `ret`. -/
def leave (v : View α) (t : TaskId) (api : Api α) (res : QueueResult α) (ret : Ret α) : View α :=
  let v := (v.setFrame t none).setRet t (some ret)
  match api.locks, res with
  | some q, .pass _ => { v with locked := Function.update v.locked t (q :: v.locked t) }
  | _, _ => v

end View

namespace State

variable (k : State α) (t : TaskId) (q : QueueId)

/-! ## Functions that only schedule -/

theorem view_modTask (f : Task α → Task α) :
    (k.modTask t f).view =
      ((k.view.setHeld t (f (k.task t)).uxMutexesHeld).setFrame t (f (k.task t)).frame).setRet t
        (f (k.task t)).ret := by
  have hupdate {β : Type} (g : Task α → β) :
      (fun u => g (Function.update k.task t (f (k.task t)) u)) =
        Function.update (fun u => g (k.task u)) t (g (f (k.task t))) :=
    Function.comp_update g k.task t _
  simp only [view, modTask, View.setHeld, View.setFrame, View.setRet, hupdate]

/-- An update that keeps the call in progress and the mutexes held. -/
theorem view_modTask_wait {f : Task α → Task α}
    (hheld : (f (k.task t)).uxMutexesHeld = (k.task t).uxMutexesHeld)
    (hframe : (f (k.task t)).frame = (k.task t).frame)
    (hret : (f (k.task t)).ret = (k.task t).ret) :
    (k.modTask t f).view = k.view := by
  rw [view_modTask, hheld, hframe, hret]
  simp [view, View.setHeld, View.setFrame, View.setRet]

theorem view_modQueue (f : Queue α → Queue α) :
    (k.modQueue q f).view = k.view.setQueue q (f (k.queue q)).contents := by
  simp only [view, modQueue, View.setQueue, View.mk.injEq, and_true]
  exact Function.comp_update Queue.contents k.queue q _

theorem view_modQueue_wait {f : Queue α → Queue α}
    (hcontents : (f (k.queue q)).contents = (k.queue q).contents) :
    (k.modQueue q f).view = k.view := by
  rw [view_modQueue, hcontents]
  simp [View.setQueue, view]

@[simp] theorem view_setEventList (list : EventList) (tasks : List TaskId) :
    (k.setEventList list tasks).view = k.view := by
  cases list with
  | toSend q => rw [setEventList, view_modQueue_wait _ _ rfl]
  | toReceive q => rw [setEventList, view_modQueue_wait _ _ rfl]
  | pendingReady => rfl

@[simp] theorem view_removeEventItem : (k.removeEventItem t).view = k.view := by
  unfold removeEventItem
  split
  next => rfl
  next => rw [view_modTask_wait _ _ rfl rfl rfl, view_setEventList]

@[simp] theorem view_prvAddTaskToReadyList : (k.prvAddTaskToReadyList t).view = k.view :=
  view_modTask_wait k t rfl rfl rfl

@[simp] theorem view_xTaskRemoveFromEventList (list : EventList) :
    (k.xTaskRemoveFromEventList list).view = k.view := by
  unfold xTaskRemoveFromEventList
  split
  next => rfl
  next t rest _ =>
    have hbase : ((k.setEventList list rest).modTask t
        fun T => { T with xEventList := none }).view = k.view := by
      rw [view_modTask_wait _ _ rfl rfl rfl, view_setEventList]
    dsimp only
    split
    · rw [view_prvAddTaskToReadyList]
      exact hbase
    · rw [view_modTask_wait _ _ rfl rfl rfl]
      exact hbase

@[simp] theorem view_wakeFirst (list : EventList) : (k.wakeFirst list).view = k.view := by
  unfold wakeFirst
  split
  · rfl
  · exact view_xTaskRemoveFromEventList k list

@[simp] theorem view_unblockDelayed : (k.unblockDelayed t).view = k.view := by
  unfold unblockDelayed
  split
  · rw [view_prvAddTaskToReadyList, view_removeEventItem]
  · rfl

theorem view_foldl {f : State α → TaskId → State α} (hf : ∀ k t, (f k t).view = k.view)
    (tasks : List TaskId) : (tasks.foldl f k).view = k.view := by
  induction tasks generalizing k with
  | nil => rfl
  | cons t rest ih => rw [List.foldl_cons, ih, hf]

@[simp] theorem view_xTaskIncrementTick : k.xTaskIncrementTick.view = k.view := by
  unfold xTaskIncrementTick
  split
  · dsimp only
    rw [view_foldl _ fun k t => view_unblockDelayed k t]
    split <;> rfl
  · rfl

@[simp] theorem view_vTaskSuspendAll : k.vTaskSuspendAll.view = k.view := rfl

@[simp] theorem view_xTaskResumeAll : k.xTaskResumeAll.view = k.view := by
  have hticks (n : Nat) (k : State α) : (xTaskIncrementTick^[n] k).view = k.view := by
    induction n generalizing k with
    | zero => rfl
    | succ n ih => rw [Function.iterate_succ_apply, ih, view_xTaskIncrementTick]
  have hready (k : State α) (t : TaskId) : (k.readyPended t).view = k.view := by
    rw [readyPended, view_prvAddTaskToReadyList, view_removeEventItem]
  unfold xTaskResumeAll
  dsimp only
  split
  · exact (hticks _ _).trans (view_foldl _ hready _)
  · rfl

@[simp] theorem view_prvAddCurrentTaskToDelayedList (xTicksToWait : Nat) (indefinitely : Bool) :
    (k.prvAddCurrentTaskToDelayedList xTicksToWait indefinitely).view = k.view := by
  unfold prvAddCurrentTaskToDelayedList
  apply view_modTask_wait <;> split <;> rfl

@[simp] theorem view_vTaskPlaceOnEventList (list : EventList) (xTicksToWait : Nat) :
    (k.vTaskPlaceOnEventList list xTicksToWait).view = k.view := by
  unfold vTaskPlaceOnEventList
  rw [view_prvAddCurrentTaskToDelayedList, view_modTask_wait _ _ rfl rfl rfl, view_setEventList]

@[simp] theorem view_xTaskPriorityInherit (holder : Option TaskId) :
    (k.xTaskPriorityInherit holder).view = k.view := by
  unfold xTaskPriorityInherit
  split
  next => rfl
  next =>
    dsimp only
    split
    · exact view_modTask_wait _ _ rfl rfl rfl
    · rfl

@[simp] theorem view_prvLockQueue : (k.prvLockQueue q).view = k.view :=
  view_modQueue_wait k q rfl

@[simp] theorem view_wakeLocked (list : EventList) (count : Nat) :
    (k.wakeLocked list count).view = k.view := by
  induction count generalizing k with
  | zero => rfl
  | succ count ih =>
      unfold wakeLocked
      split
      · rfl
      · rw [ih, view_xTaskRemoveFromEventList]

@[simp] theorem view_prvUnlockQueueTx : (k.prvUnlockQueueTx q).view = k.view := by
  rw [prvUnlockQueueTx, view_modQueue_wait _ _ rfl, view_wakeLocked]

@[simp] theorem view_prvUnlockQueueRx : (k.prvUnlockQueueRx q).view = k.view := by
  rw [prvUnlockQueueRx, view_modQueue_wait _ _ rfl, view_wakeLocked]

@[simp] theorem view_retried (list : EventList) : (k.retried t list).view = k.view := rfl

@[simp] theorem view_switchTo : (k.switchTo t).view = k.view := rfl

@[simp] theorem view_vTaskDelay (xTicksToDelay : Nat) :
    (k.vTaskDelay xTicksToDelay).view = k.view := by
  unfold vTaskDelay
  split
  · rfl
  · rw [view_xTaskResumeAll, view_prvAddCurrentTaskToDelayedList, view_vTaskSuspendAll]

/-! ## Functions that change the view -/

@[simp] theorem view_setFrame (frame : Frame α) :
    (k.setFrame t frame).view = k.view.setFrame t (some frame) := by
  rw [setFrame, view_modTask]
  simp [view, View.setHeld, View.setFrame, View.setRet]

theorem view_modRet (ret : Option (Ret α)) :
    (k.modTask t fun T => { T with ret := ret }).view = k.view.setRet t ret := by
  rw [view_modTask]
  simp [view, View.setHeld, View.setFrame, View.setRet]

theorem view_setFrameRet (frame : Option (Frame α)) (ret : Option (Ret α)) :
    (k.modTask t fun T => { T with frame := frame, ret := ret }).view =
      (k.view.setFrame t frame).setRet t ret := by
  rw [view_modTask]
  simp [view, View.setHeld, View.setFrame, View.setRet]

@[simp] theorem view_setPc (frame : Frame α) (pc : Pc α) :
    (k.setPc t frame pc).view = k.view.setFrame t (some { frame with pc := pc }) :=
  view_setFrame k t _

@[simp] theorem view_complete (frame : Frame α) (res : QueueResult α) :
    (k.complete t frame res).view = k.view.complete t frame res := by
  have hframe := view_setPc k t frame (.leave res)
  simp only [view, View.mk.injEq, View.setFrame] at hframe
  simp [view, complete, View.complete, View.setFrame, hframe]

theorem view_queue : k.view.queue q = (k.queue q).contents := rfl

theorem view_frame : k.view.frame t = (k.task t).frame := rfl

/-- The failing branch either gives up or goes on to block. -/
theorem view_failOrWait (frame : Frame α) :
    (frame.xTicksToWait = 0 ∧
      (k.failOrWait t frame).view = k.view.complete t frame .fail) ∨
    (frame.xTicksToWait ≠ 0 ∧ ∃ timeOut, (k.failOrWait t frame).view =
      k.view.setFrame t (some { frame with xTimeOut := some timeOut, pc := .suspendAll })) := by
  unfold failOrWait
  dsimp only
  split
  next hticks => exact .inl ⟨hticks, view_complete (k.retried t frame.waitList) t frame .fail⟩
  next hticks => exact .inr ⟨hticks, _, view_setFrame (k.retried t frame.waitList) t _⟩

theorem view_modHeld (f : Nat → Nat) :
    (k.modTask t fun T => { T with uxMutexesHeld := f T.uxMutexesHeld }).view =
      k.view.setHeld t (f (k.view.held t)) := by
  rw [view_modTask]
  simp [view, View.setHeld, View.setFrame, View.setRet]

theorem view_xTaskPriorityDisinherit {k' : State α} {holder : Option TaskId}
    (hdone : k.xTaskPriorityDisinherit holder = some k') :
    (holder = none ∧ k' = k) ∨
    (holder = some k.pxCurrentTCB ∧ 0 < k.view.held k.pxCurrentTCB ∧
      k'.view = k.view.setHeld k.pxCurrentTCB (k.view.held k.pxCurrentTCB - 1)) := by
  unfold xTaskPriorityDisinherit at hdone
  split at hdone
  next => exact .inl ⟨rfl, (Option.some.inj hdone).symm⟩
  next holder =>
    split at hdone
    next hholder =>
      obtain ⟨rfl, hheld⟩ := hholder
      refine .inr ⟨rfl, Nat.pos_of_ne_zero hheld, ?_⟩
      dsimp only at hdone
      split at hdone
      · cases hdone
        rw [view_modTask_wait _ _ rfl rfl rfl, view_modHeld k _ (· - 1)]
      · cases hdone
        exact view_modHeld k _ (· - 1)
    next => simp at hdone

end State

end SimulatedLinux.Kernel
