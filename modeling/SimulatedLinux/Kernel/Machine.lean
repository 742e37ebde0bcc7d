import SimulatedLinux.Lib.Shelf
import SimulatedLinux.Kernel.Step

/-! # The lists of the scheduler

`State` knows for every task in which kind of list its state item is. Here are the lists
themselves, as `tasks.c` keeps them: a ready list for each priority with the bitmap of those
that are not empty, two delayed lists that change roles when the tick count wraps, and the
cached time of the next wake-up. The functions keep the names they have for `State` and
do to the lists what the source does next to it.

`vTaskDelay` and `ulTaskNotifyTake` are cut into the stretches between which an interrupt
may come, and `EthernetISR` may notify a task at any time. What they do before they store to
`uxSchedulerSuspended` touches nothing that an interrupt sees, so that the first stretch is
entered at that store.
-/

namespace SimulatedLinux.Kernel

variable {α : Type}

/-- The lists of state items. `xDelayedTaskList1` and `xDelayedTaskList2` differ by a flag. -/
inductive ListName
  | ready (uxPriority : Nat)
  | delayedTask (second : Bool)
  | suspended
  | waitingTermination
  deriving DecidableEq, Repr

/-- `ucNotifyState`. -/
inductive NotifyState
  | notWaiting
  | waiting
  | received
  deriving DecidableEq, Repr

/-- Where a task is inside `vTaskDelay` or `ulTaskNotifyTake`. The points whose name does not end
in `Take` are passed with the scheduler suspended. -/
inductive Routine
  | outside
  | delayAdd (xTicksToDelay : Nat)
  | delayResume
  | notifyMark
  | notifyAdd
  | notifyResume
  | notifyTake
  deriving DecidableEq, Repr

/-- The kernel with its lists. `pxDelayedTaskList` says which of the two delayed lists is in use. -/
structure Machine (α : Type) where
  k : State α
  lists : Lib.Shelf ListName TaskId
  pxDelayedTaskList : Bool
  uxTopReadyPriority : BitVec 32
  xNextTaskUnblockTime : Nat
  xPendingReadyList : List TaskId
  ucNotifyState : TaskId → NotifyState
  ulNotifiedValue : TaskId → Nat
  routine : TaskId → Routine

/-- `portGET_HIGHEST_PRIORITY`. -/
def portGetHighestPriority (uxReadyPriorities : BitVec 32) : Nat :=
  31 - uxReadyPriorities.clz.toNat

namespace Machine

def onKernel (M : Machine α) (f : State α → State α) : Machine α := { M with k := f M.k }

def setRoutine (M : Machine α) (t : TaskId) (routine : Routine) : Machine α :=
  { M with routine := Function.update M.routine t routine }

@[simp] theorem k_setRoutine (M : Machine α) (t : TaskId) (routine : Routine) :
    (M.setRoutine t routine).k = M.k := rfl

@[simp] theorem ucNotifyState_setRoutine (M : Machine α) (t : TaskId) (routine : Routine) :
    (M.setRoutine t routine).ucNotifyState = M.ucNotifyState := rfl

@[simp] theorem xPendingReadyList_setRoutine (M : Machine α) (t : TaskId) (routine : Routine) :
    (M.setRoutine t routine).xPendingReadyList = M.xPendingReadyList := rfl

@[simp] theorem routine_setRoutine_self (M : Machine α) (t : TaskId) (routine : Routine) :
    (M.setRoutine t routine).routine t = routine :=
  Function.update_self ..

theorem routine_setRoutine_ne (M : Machine α) {t u : TaskId} (hne : u ≠ t) (routine : Routine) :
    (M.setRoutine t routine).routine u = M.routine u :=
  Function.update_of_ne hne ..

/-- The tasks in a list, in order. -/
def items (M : Machine α) (name : ListName) : List TaskId := (M.lists.list name).items

def delayedName (M : Machine α) : ListName := .delayedTask M.pxDelayedTaskList

def overflowName (M : Machine α) : ListName := .delayedTask !M.pxDelayedTaskList

/-! ## Ready lists -/

/-- `portRECORD_READY_PRIORITY`. -/
def portRecordReadyPriority (M : Machine α) (uxPriority : Nat) : Machine α :=
  { M with uxTopReadyPriority := M.uxTopReadyPriority ||| 1#32 <<< uxPriority }

/-- `portRESET_READY_PRIORITY`. -/
def portResetReadyPriority (M : Machine α) (uxPriority : Nat) : Machine α :=
  { M with uxTopReadyPriority := M.uxTopReadyPriority &&& ~~~(1#32 <<< uxPriority) }

/-- `listREMOVE_ITEM` of a state item. -/
def removeStateItem (M : Machine α) (t : TaskId) : Machine α := { M with lists := M.lists.remove t }

/-- `uxListRemove` of a state item, with the number of items that are left in its list. -/
def uxListRemove (M : Machine α) (t : TaskId) : Machine α × Nat :=
  (M.removeStateItem t,
    match M.lists.container t with
    | none => 0
    | some name => ((M.removeStateItem t).items name).length)

/-- `uxListRemove` of a task in a ready list, with the reset of its bit. -/
def removeReady (M : Machine α) (t : TaskId) : Machine α :=
  let (M', left) := M.uxListRemove t
  if left = 0 then M'.portResetReadyPriority (M.k.task t).uxPriority else M'

/-- What `prvAddTaskToReadyList` does to the lists. -/
def recordReady (M : Machine α) (t : TaskId) : Machine α :=
  let M := M.portRecordReadyPriority (M.k.task t).uxPriority
  { M with lists := M.lists.putEnd (.ready (M.k.task t).uxPriority) t }

/-- `prvAddTaskToReadyList`. -/
def prvAddTaskToReadyList (M : Machine α) (t : TaskId) : Machine α :=
  (M.recordReady t).onKernel (·.prvAddTaskToReadyList t)

/-- `vTaskSwitchContext`: the index of the highest ready list that is not empty moves on. -/
def vTaskSwitchContext (M : Machine α) : Machine α :=
  if M.k.uxSchedulerSuspended ≠ 0 then M
  else
    let name := ListName.ready (portGetHighestPriority M.uxTopReadyPriority)
    -- the source assumes that this list has a task in it
    match (M.lists.list name).next with
    | none => M.onKernel (·.halt .assertion)
    | some t => { M with lists := M.lists.advance name, k := M.k.switchTo t }

/-! ## Blocking and waking -/

/-- `prvAddCurrentTaskToDelayedList`. -/
def prvAddCurrentTaskToDelayedList (M : Machine α) (xTicksToWait : Nat)
    (xCanBlockIndefinitely : Bool) : Machine α :=
  let t := M.k.pxCurrentTCB
  let M := M.removeReady t
  let M := M.onKernel (·.prvAddCurrentTaskToDelayedList xTicksToWait xCanBlockIndefinitely)
  if xTicksToWait = portMaxDelay ∧ xCanBlockIndefinitely then
    { M with lists := M.lists.putEnd .suspended t }
  else
    let xTimeToWake := (M.k.xTickCount + xTicksToWait) % tickModulus
    let insert name :=
      M.lists.put name t (vListInsert (fun u => (M.k.task u).xWakeTime) t (M.items name))
    -- the wake time lies behind the wrap of the tick count
    if xTimeToWake < M.k.xTickCount then { M with lists := insert M.overflowName }
    else
      { M with
        lists := insert M.delayedName
        xNextTaskUnblockTime :=
          if xTimeToWake < M.xNextTaskUnblockTime then xTimeToWake else M.xNextTaskUnblockTime }

/-- `vTaskPlaceOnEventList`. -/
def vTaskPlaceOnEventList (M : Machine α) (list : EventList) (xTicksToWait : Nat) : Machine α :=
  let t := M.k.pxCurrentTCB
  let M := M.onKernel fun k =>
    k.setEventList list (vListInsert (fun u => (k.task u).xEventValue) t (k.eventList list))
  let M := M.onKernel (·.modTask t fun T => { T with xEventList := some list })
  M.prvAddCurrentTaskToDelayedList xTicksToWait true

/-- `xTaskRemoveFromEventList`. -/
def xTaskRemoveFromEventList (M : Machine α) (list : EventList) : Machine α :=
  match M.k.eventList list with
  | [] => M
  | t :: _ =>
      let M' := M.onKernel (·.xTaskRemoveFromEventList list)
      if M.k.uxSchedulerSuspended = 0 then (M'.removeStateItem t).recordReady t
      -- the ready lists are not touched while the scheduler is suspended
      else { M' with xPendingReadyList := M'.xPendingReadyList ++ [t] }

def wakeFirst (M : Machine α) (list : EventList) : Machine α :=
  if M.k.eventList list = [] then M else M.xTaskRemoveFromEventList list

def wakeLocked (M : Machine α) (list : EventList) : Nat → Machine α
  | 0 => M
  | count + 1 =>
      if M.k.eventList list = [] then M
      else (M.xTaskRemoveFromEventList list).wakeLocked list count

/-! ## Time -/

/-- `prvResetNextTaskUnblockTime`. -/
def prvResetNextTaskUnblockTime (M : Machine α) : Machine α :=
  { M with
    xNextTaskUnblockTime :=
      match M.items M.delayedName with
      | [] => portMaxDelay
      | t :: _ => (M.k.task t).xWakeTime }

/-- `taskSWITCH_DELAYED_LISTS`, after its assertion. -/
def taskSwitchDelayedLists (M : Machine α) : Machine α :=
  prvResetNextTaskUnblockTime
    { M with k := M.k.taskSwitchDelayedLists, pxDelayedTaskList := !M.pxDelayedTaskList }

/-- One task leaves a delayed or the suspended list for a ready list. -/
def unblock (M : Machine α) (t : TaskId) : Machine α :=
  ((M.removeStateItem t).onKernel (·.removeEventItem t)).prvAddTaskToReadyList t

/-- The loop of `xTaskIncrementTick`, which ends at the latest when the delayed list is empty. -/
def unblockLoop (M : Machine α) : Nat → Machine α
  | 0 => { M with xNextTaskUnblockTime := portMaxDelay }
  | count + 1 =>
      match M.items M.delayedName with
      | [] => { M with xNextTaskUnblockTime := portMaxDelay }
      | t :: _ =>
          if M.k.xTickCount < (M.k.task t).xWakeTime then
            { M with xNextTaskUnblockTime := (M.k.task t).xWakeTime }
          else (M.unblock t).unblockLoop count

/-- The part of `xTaskIncrementTick` after the tick count. -/
def checkUnblockTime (M : Machine α) : Machine α :=
  if M.xNextTaskUnblockTime ≤ M.k.xTickCount then M.unblockLoop (M.items M.delayedName).length
  else M

/-- `xTaskIncrementTick`. -/
def xTaskIncrementTick (M : Machine α) : Machine α :=
  if M.k.uxSchedulerSuspended = 0 then
    let M := M.onKernel fun k => { k with xTickCount := (k.xTickCount + 1) % tickModulus }
    if M.k.xTickCount = 0 then
      -- the assertion of `taskSWITCH_DELAYED_LISTS`
      if M.items M.delayedName = [] then M.taskSwitchDelayedLists.checkUnblockTime
      else M.onKernel (·.halt .assertion)
    else M.checkUnblockTime
  else M.onKernel fun k => { k with xPendedTicks := k.xPendedTicks + 1 }

/-- The loop of `xTaskResumeAll` over the pending tasks. -/
def readyAllPended (M : Machine α) : Machine α :=
  match M.xPendingReadyList with
  | [] => M
  | pended => { pended.foldl unblock M with xPendingReadyList := [] }.prvResetNextTaskUnblockTime

/-- `xTaskResumeAll`. -/
def xTaskResumeAll (M : Machine α) : Machine α :=
  let M := M.onKernel fun k => { k with uxSchedulerSuspended := k.uxSchedulerSuspended - 1 }
  if M.k.uxSchedulerSuspended = 0 then
    let M := M.readyAllPended
    (xTaskIncrementTick^[M.k.xPendedTicks] M).onKernel fun k => { k with xPendedTicks := 0 }
  else M

/-! ## Priorities -/

/-- `xTaskPriorityInherit`. -/
def xTaskPriorityInherit (M : Machine α) (pxMutexHolder : Option TaskId) : Machine α :=
  match pxMutexHolder with
  | none => M
  | some holder =>
      if (M.k.task holder).uxPriority < (M.k.task M.k.pxCurrentTCB).uxPriority then
        -- a holder that is ready changes its ready list
        if M.lists.container holder = some (.ready (M.k.task holder).uxPriority) then
          ((M.removeReady holder).onKernel (·.xTaskPriorityInherit (some holder))).recordReady
            holder
        else M.onKernel (·.xTaskPriorityInherit (some holder))
      else M

/-- `xTaskPriorityDisinherit`. -/
def xTaskPriorityDisinherit (M : Machine α) (pxMutexHolder : Option TaskId) : Option (Machine α) :=
  (M.k.xTaskPriorityDisinherit pxMutexHolder).map fun k =>
    match pxMutexHolder with
    | none => { M with k := k }
    | some holder =>
        if (M.k.task holder).uxPriority ≠ (M.k.task holder).uxBasePriority ∧
            (M.k.task holder).uxMutexesHeld - 1 = 0 then
          -- the holder is the running task, so it is in a ready list
          recordReady { M.removeReady holder with k := k } holder
        else { M with k := k }

/-! ## Queues -/

/-- `prvCopyDataToQueue`: a mutex is given back by its holder. -/
def prvCopyDataToQueue (M : Machine α) (q : QueueId) (item : Option α) : Option (Machine α) :=
  if (M.k.queue q).uxItemSize = 0 ∧ (M.k.queue q).isMutex then
    (M.xTaskPriorityDisinherit (M.k.queue q).xMutexHolder).map fun M => M.onKernel fun k =>
      k.modQueue q fun Q =>
        { Q with xMutexHolder := none, uxMessagesWaiting := Q.uxMessagesWaiting + 1 }
  else (M.k.prvCopyDataToQueue q item).map fun k => { M with k := k }

/-- The end of a critical section that has succeeded: a waiter is woken. -/
def pass (M : Machine α) (t : TaskId) (frame : Frame α) (list : EventList) (item : Option α) :
    Machine α :=
  ((M.onKernel (·.retried t frame.waitList)).wakeFirst list).onKernel
    (·.complete t frame (.pass item))

/-- The critical section of `xQueueGenericSend`. -/
def xQueueGenericSend (M : Machine α) (t : TaskId) (frame : Frame α) (item : Option α) :
    Machine α :=
  let q := frame.xQueue
  if (M.k.queue q).uxMessagesWaiting < (M.k.queue q).uxLength then
    match M.prvCopyDataToQueue q item with
    | none => M.onKernel (·.halt .assertion)
    | some M => M.pass t frame (.toReceive q) none
  else M.onKernel (·.failOrWait t frame)

/-- The critical section of `xQueueReceive`. -/
def xQueueReceive (M : Machine α) (t : TaskId) (frame : Frame α) : Machine α :=
  let q := frame.xQueue
  if 0 < (M.k.queue q).uxMessagesWaiting then
    let (Q, item) := prvCopyDataFromQueue (M.k.queue q)
    let M :=
      M.onKernel (·.modQueue q fun _ => { Q with uxMessagesWaiting := Q.uxMessagesWaiting - 1 })
    M.pass t frame (.toSend q) item
  else M.onKernel (·.failOrWait t frame)

/-- The critical section of `xQueueSemaphoreTake`. -/
def xQueueSemaphoreTake (M : Machine α) (t : TaskId) (frame : Frame α) : Machine α :=
  let q := frame.xQueue
  if 0 < (M.k.queue q).uxMessagesWaiting then
    (M.onKernel (·.takeCount q)).pass t frame (.toSend q) none
  else M.onKernel (·.failOrWait t frame)

/-- The critical section at the head of the loop. -/
def attempt (M : Machine α) (t : TaskId) (frame : Frame α) : Machine α :=
  match frame.op with
  | .genericSend item => M.xQueueGenericSend t frame item
  | .receive => M.xQueueReceive t frame
  | .semaphoreTake => M.xQueueSemaphoreTake t frame

/-- The two critical sections of `prvUnlockQueue`. -/
def prvUnlockQueueTx (M : Machine α) (q : QueueId) : Machine α :=
  (M.wakeLocked (.toReceive q) (M.k.queue q).cTxLock.toNat).onKernel
    (·.modQueue q fun Q => { Q with cTxLock := queueUnlocked })

def prvUnlockQueueRx (M : Machine α) (q : QueueId) : Machine α :=
  (M.wakeLocked (.toSend q) (M.k.queue q).cRxLock.toNat).onKernel
    (·.modQueue q fun Q => { Q with cRxLock := queueUnlocked })

/-- One step of a task inside a blocking function. The points that are not listed leave the
lists alone. -/
def runFrame (M : Machine α) (t : TaskId) (frame : Frame α) : Machine α :=
  let q := frame.xQueue
  if frame.pc.touchesQueue && !(M.k.queue q).live then M.onKernel (·.halt (.useAfterFree q))
  else
    match frame.pc with
    | .attempt => M.attempt t frame
    | .inherit =>
        (M.xTaskPriorityInherit (M.k.queue q).xMutexHolder).onKernel (·.setPc t frame .place)
    | .place =>
        (M.vTaskPlaceOnEventList frame.waitList frame.xTicksToWait).onKernel
          (·.setPc t frame (.unlockTx .blocked))
    | .unlockTx after => (M.prvUnlockQueueTx q).onKernel (·.setPc t frame (.unlockRx after))
    | .unlockRx after => (M.prvUnlockQueueRx q).onKernel (·.setPc t frame (.resumeAll after))
    | .resumeAll after => M.xTaskResumeAll.onKernel (·.afterResume t frame after)
    | _ => M.onKernel (·.runFrame t frame)

/-! ## Tasks -/

/-- `vTaskDelete(NULL)`. -/
def vTaskDelete (M : Machine α) (t : TaskId) : Machine α :=
  if M.k.uxSchedulerSuspended = 0 then
    let uxPriority := (M.k.task t).uxPriority
    let (M', left) := M.uxListRemove t
    -- `taskRESET_READY_PRIORITY` looks at the ready list of the priority again
    let M' :=
      if left = 0 ∧ M'.items (.ready uxPriority) = [] then M'.portResetReadyPriority uxPriority
      else M'
    { M' with k := M.k.vTaskDelete t, lists := M'.lists.putEnd .waitingTermination t }
  else M.onKernel (·.vTaskDelete t)

/-- The critical section of `prvCheckTasksWaitingTermination`. -/
def prvCheckTasksWaitingTermination (M : Machine α) : Machine α :=
  match M.k.xTasksWaitingTermination with
  | [] => M
  | t :: _ => (M.removeStateItem t).onKernel (·.prvCheckTasksWaitingTermination)

/-- `prvAddNewTaskToReadyList`. -/
def prvAddNewTaskToReadyList (M : Machine α) (uxPriority : Nat) : Machine α :=
  (M.onKernel (·.prvAddNewTaskToReadyList uxPriority)).recordReady M.k.nextTask

/-- What a task that may run does, outside of a blocking function. `vTaskDelay` is entered at
the store that suspends the scheduler. -/
def perform (M : Machine α) : Act α → Option (Machine α)
  | .spawn _ uxPriority =>
      if uxPriority < configMaxPriorities then some (M.prvAddNewTaskToReadyList uxPriority)
      else some (M.onKernel (·.halt .assertion))
  | .exit t => some (M.vTaskDelete t)
  | .reap _ => some M.prvCheckTasksWaitingTermination
  | .delay t xTicksToDelay =>
      if M.k.uxSchedulerSuspended = 0 then
        if xTicksToDelay = 0 then some M
        else some ((M.onKernel (·.vTaskSuspendAll)).setRoutine t (.delayAdd xTicksToDelay))
      else some (M.onKernel (·.halt .assertion))
  | .resumeAll _ =>
      if M.k.uxSchedulerSuspended = 0 then some (M.onKernel (·.halt .assertion))
      else some M.xTaskResumeAll
  | act => (M.k.perform act).map fun k => { M with k := k }

/-! ## Notifications -/

/-- The first stretch of `ulTaskNotifyTake(pdTRUE, portMAX_DELAY)`. -/
def ulTaskNotifyTake (M : Machine α) (t : TaskId) : Machine α :=
  if M.ulNotifiedValue t = 0 then (M.onKernel (·.vTaskSuspendAll)).setRoutine t .notifyMark
  else M.setRoutine t .notifyTake

/-- The next stretch of `vTaskDelay` or `ulTaskNotifyTake`. -/
def goOn (M : Machine α) (t : TaskId) : Option (Machine α) :=
  match M.routine t with
  | .outside => none
  | .delayAdd xTicksToDelay =>
      some ((M.prvAddCurrentTaskToDelayedList xTicksToDelay false).setRoutine t .delayResume)
  | .delayResume => some (M.xTaskResumeAll.setRoutine t .outside)
  | .notifyMark =>
      -- tested again, since an interrupt may have come in between
      if M.ulNotifiedValue t = 0 then
        some ({ M with ucNotifyState := Function.update M.ucNotifyState t .waiting }.setRoutine t
            .notifyAdd)
      else some (M.setRoutine t .notifyResume)
  | .notifyAdd =>
      some ((M.prvAddCurrentTaskToDelayedList portMaxDelay true).setRoutine t .notifyResume)
  | .notifyResume => some (M.xTaskResumeAll.setRoutine t .notifyTake)
  | .notifyTake =>
      some ({ M with
        ulNotifiedValue := Function.update M.ulNotifiedValue t 0
        ucNotifyState := Function.update M.ucNotifyState t .notWaiting }.setRoutine t .outside)

/-- `vTaskNotifyGiveFromISR`. -/
def vTaskNotifyGiveFromIsr (M : Machine α) (t : TaskId) : Machine α :=
  let M' := { M with
    ucNotifyState := Function.update M.ucNotifyState t .received
    ulNotifiedValue := Function.update M.ulNotifiedValue t ((M.ulNotifiedValue t + 1) % 2 ^ 32) }
  if M.ucNotifyState t = .waiting then
    -- a task that waits for a notification waits in no event list
    if (M.k.task t).xEventList ≠ none ∨ t ∈ M.xPendingReadyList then M'.onKernel (·.halt .assertion)
    else if M.k.uxSchedulerSuspended = 0 then (M'.removeStateItem t).prvAddTaskToReadyList t
    else { M' with xPendingReadyList := M.xPendingReadyList ++ [t] }
  else M'

end Machine

/-- The labels of the machine: those of the kernel, the next stretch of a routine, the two sides of
a notification, and a context switch. -/
inductive MachineAct (α : Type)
  | act (act : Act α)
  | goOn (t : TaskId)
  | notifyTake (t : TaskId)
  | notifyGive (t : TaskId)
  | switchContext

/-- The step function of the machine. -/
def Machine.step (M : Machine α) : MachineAct α → Option (Machine α)
  | .act act =>
      match act.actor with
      | none => if M.k.fault.isNone then some M.xTaskIncrementTick else none
      | some t =>
          if M.k.canRun t ∧ M.routine t = .outside then
            match (M.k.task t).frame, act with
            | some frame, .run _ => some ((M.onKernel (·.switchTo t)).runFrame t frame)
            | some _, _ => none
            | none, act => (M.onKernel (·.switchTo t)).perform act
          else none
  | .goOn t => if M.k.canRun t then (M.onKernel (·.switchTo t)).goOn t else none
  | .notifyTake t =>
      if M.k.canRun t ∧ M.routine t = .outside ∧ (M.k.task t).frame.isNone then
        some ((M.onKernel (·.switchTo t)).ulTaskNotifyTake t)
      else none
  | .notifyGive t => if M.k.fault.isNone then some (M.vTaskNotifyGiveFromIsr t) else none
  | .switchContext => if M.k.fault.isNone then some M.vTaskSwitchContext else none

end SimulatedLinux.Kernel
