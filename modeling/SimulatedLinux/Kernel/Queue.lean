import Mathlib.Logic.Function.Iterate
import SimulatedLinux.Kernel.State

/-! # The functions of `queue.c` and `tasks.c` under a blocking call

Each definition is the body of the C function of that name, as one update of the
kernel state. A function that can fail a `configASSERT` returns `none` there.
Tracing, queue sets, queue locks taken by interrupts and delay aborts are not
used by the shim and are left out.
-/

namespace SimulatedLinux.Kernel

variable {α : Type}

/-! ## Creation -/

/-- `prvInitialiseNewQueue`: `xQueueGenericReset` puts the read position on the
last slot. -/
def prvInitialiseNewQueue (uxQueueLength uxItemSize : Nat) : Queue α where
  live := true
  isMutex := false
  uxLength := uxQueueLength
  uxItemSize := uxItemSize
  uxMessagesWaiting := 0
  pcTail := uxQueueLength * uxItemSize
  pcWriteTo := 0
  pcReadFrom := (uxQueueLength - 1) * uxItemSize
  storage := fun _ => none
  xMutexHolder := none
  xTasksWaitingToSend := []
  xTasksWaitingToReceive := []
  cRxLock := queueUnlocked
  cTxLock := queueUnlocked

/-- `prvInitialiseMutex`: the queue is given once, with no holder. -/
def prvInitialiseMutex (Q : Queue α) : Queue α :=
  { Q with isMutex := true, xMutexHolder := none, uxMessagesWaiting := Q.uxMessagesWaiting + 1 }

def xQueueCreateMutex : Queue α := prvInitialiseMutex (prvInitialiseNewQueue 1 0)

def xSemaphoreCreateBinary : Queue α := prvInitialiseNewQueue 1 0

/-- `xQueueCreateCountingSemaphore`, which asserts `uxInitialCount <= uxMaxCount`. -/
def xQueueCreateCountingSemaphore (uxMaxCount uxInitialCount : Nat) : Option (Queue α) :=
  if uxMaxCount ≠ 0 ∧ uxInitialCount ≤ uxMaxCount then
    some { (prvInitialiseNewQueue uxMaxCount 0 : Queue α) with uxMessagesWaiting := uxInitialCount }
  else none

/-! ## Lists -/

/-- `vListInsert`: sorted by item value, after the items of the same value. The items
are those of any list of `list.c`; the links behind it are in `Kernel.ListMemory`. -/
def vListInsert {τ : Type} (value : τ → Nat) (t : τ) (items : List τ) : List τ :=
  items.takeWhile (fun u => value u ≤ value t) ++
    t :: items.dropWhile (fun u => value u ≤ value t)

theorem vListInsert_perm {τ : Type} (value : τ → Nat) (t : τ) (items : List τ) :
    (vListInsert value t items).Perm (t :: items) := by
  unfold vListInsert
  refine List.perm_middle.trans (.cons _ ?_)
  rw [List.takeWhile_append_dropWhile]

namespace State

/-- `uxListRemove` of a task's event item, when it is in a list. -/
def removeEventItem (k : State α) (t : TaskId) : State α :=
  match (k.task t).xEventList with
  | none => k
  | some list =>
      (k.setEventList list ((k.eventList list).erase t)).modTask t
        fun T => { T with xEventList := none }

/-- `prvAddTaskToReadyList`. -/
def prvAddTaskToReadyList (k : State α) (t : TaskId) : State α :=
  k.modTask t fun T => { T with xStateList := .ready }

/-- `xTaskRemoveFromEventList`: the head of the list becomes ready, or pending
while the scheduler is suspended. The callers have checked that there is one. -/
def xTaskRemoveFromEventList (k : State α) (list : EventList) : State α :=
  match k.eventList list with
  | [] => k
  | t :: rest =>
      let k := (k.setEventList list rest).modTask t fun T => { T with xEventList := none }
      let k := { k with woken := Function.update k.woken list (k.woken list ++ [t]) }
      if k.uxSchedulerSuspended = 0 then k.prvAddTaskToReadyList t
      else
        { k with xPendingReadyList := k.xPendingReadyList ++ [t] }.modTask t
          fun T => { T with xEventList := some .pendingReady }

/-- Wake a waiter when the list is not empty. -/
def wakeFirst (k : State α) (list : EventList) : State α :=
  if k.eventList list = [] then k else k.xTaskRemoveFromEventList list

/-! ## Time -/

/-- `taskSWITCH_DELAYED_LISTS`. -/
def taskSwitchDelayedLists (k : State α) : State α :=
  { k with
    xNumOfOverflows := k.xNumOfOverflows + 1
    task := fun t =>
      { k.task t with
        xStateList :=
          match (k.task t).xStateList with
          | .delayed => .overflowDelayed
          | .overflowDelayed => .delayed
          | list => list } }

/-- The head of the delayed list is due: its wake time has been reached. -/
def isDue (k : State α) (t : TaskId) : Bool :=
  (k.task t).xStateList = .delayed ∧ (k.task t).xWakeTime ≤ k.xTickCount

/-- The body of the unblocking loop of `xTaskIncrementTick`. -/
def unblockDelayed (k : State α) (t : TaskId) : State α :=
  if k.isDue t then (k.removeEventItem t).prvAddTaskToReadyList t else k

/-- `xTaskIncrementTick`. The loop over the delayed list visits the due tasks;
`xNextTaskUnblockTime` only saves entering it when there is none. -/
def xTaskIncrementTick (k : State α) : State α :=
  if k.uxSchedulerSuspended = 0 then
    let k := { k with xTickCount := (k.xTickCount + 1) % tickModulus }
    let k := if k.xTickCount = 0 then k.taskSwitchDelayedLists else k
    (List.range k.nextTask).foldl unblockDelayed k
  -- counted now, and replayed when the scheduler is resumed
  else { k with xPendedTicks := k.xPendedTicks + 1 }

def vTaskSuspendAll (k : State α) : State α :=
  { k with uxSchedulerSuspended := k.uxSchedulerSuspended + 1 }

/-- Move one task from the pending list to the ready lists. -/
def readyPended (k : State α) (t : TaskId) : State α :=
  (k.removeEventItem t).prvAddTaskToReadyList t

/-- `xTaskResumeAll`: the pended tasks become ready and the pended ticks are
replayed. -/
def xTaskResumeAll (k : State α) : State α :=
  let k := { k with uxSchedulerSuspended := k.uxSchedulerSuspended - 1 }
  if k.uxSchedulerSuspended = 0 then
    let k := k.xPendingReadyList.foldl readyPended k
    { xTaskIncrementTick^[k.xPendedTicks] k with xPendedTicks := 0 }
  else k

/-- `vTaskInternalSetTimeOutState`. -/
def vTaskInternalSetTimeOutState (k : State α) : TimeOut :=
  ⟨k.xNumOfOverflows, k.xTickCount⟩

/-- `xTaskCheckForTimeOut`: whether the time is up, and the time that is left. -/
def xTaskCheckForTimeOut (k : State α) (timeOut : TimeOut) (xTicksToWait : Nat) :
    Bool × TimeOut × Nat :=
  let xElapsedTime := (k.xTickCount + tickModulus - timeOut.xTimeOnEntering) % tickModulus
  if xTicksToWait = portMaxDelay then (false, timeOut, xTicksToWait)
  -- the count has wrapped and has come past the time of entry again
  else if k.xNumOfOverflows ≠ timeOut.xOverflowCount ∧
      timeOut.xTimeOnEntering ≤ k.xTickCount then
    (true, timeOut, 0)
  else if xElapsedTime < xTicksToWait then
    (false, k.vTaskInternalSetTimeOutState, xTicksToWait - xElapsedTime)
  else (true, timeOut, 0)

/-- `prvAddCurrentTaskToDelayedList`. -/
def prvAddCurrentTaskToDelayedList (k : State α) (xTicksToWait : Nat)
    (xCanBlockIndefinitely : Bool) : State α :=
  k.modTask k.pxCurrentTCB fun T =>
    if xTicksToWait = portMaxDelay ∧ xCanBlockIndefinitely then { T with xStateList := .suspended }
    else
      let xTimeToWake := (k.xTickCount + xTicksToWait) % tickModulus
      -- a wake time behind the wrap goes to the other list
      { T with
        xWakeTime := xTimeToWake
        xStateList := if xTimeToWake < k.xTickCount then .overflowDelayed else .delayed }

/-- `vTaskPlaceOnEventList`. -/
def vTaskPlaceOnEventList (k : State α) (list : EventList) (xTicksToWait : Nat) : State α :=
  let t := k.pxCurrentTCB
  let k := k.setEventList list (vListInsert (fun u => (k.task u).xEventValue) t (k.eventList list))
  let k := k.modTask t fun T => { T with xEventList := some list }
  k.prvAddCurrentTaskToDelayedList xTicksToWait true

/-! ## Priorities -/

/-- `xTaskPriorityInherit`. -/
def xTaskPriorityInherit (k : State α) (pxMutexHolder : Option TaskId) : State α :=
  match pxMutexHolder with
  | none => k
  | some holder =>
      let uxPriority := (k.task k.pxCurrentTCB).uxPriority
      if (k.task holder).uxPriority < uxPriority then
        -- the holder stays where it is in the wait list it may be in
        k.modTask holder fun T =>
          { T with xEventValue := configMaxPriorities - uxPriority, uxPriority := uxPriority }
      else k

/-- `xTaskPriorityDisinherit`. -/
def xTaskPriorityDisinherit (k : State α) (pxMutexHolder : Option TaskId) : Option (State α) :=
  match pxMutexHolder with
  | none => some k
  | some holder =>
      if holder = k.pxCurrentTCB ∧ (k.task holder).uxMutexesHeld ≠ 0 then
        let k := k.modTask holder fun T => { T with uxMutexesHeld := T.uxMutexesHeld - 1 }
        -- the inherited priority is kept until the last mutex is given back
        if (k.task holder).uxPriority ≠ (k.task holder).uxBasePriority ∧
            (k.task holder).uxMutexesHeld = 0 then
          some (k.modTask holder fun T =>
            { T with
              uxPriority := T.uxBasePriority
              xEventValue := configMaxPriorities - T.uxBasePriority })
        else some k
      else none

/-- `pvTaskIncrementMutexHeldCount`. -/
def pvTaskIncrementMutexHeldCount (k : State α) : State α :=
  k.modTask k.pxCurrentTCB fun T => { T with uxMutexesHeld := T.uxMutexesHeld + 1 }

/-! ## Items -/

/-- `prvCopyDataToQueue` with `queueSEND_TO_BACK`. -/
def prvCopyDataToQueue (k : State α) (q : QueueId) (item : Option α) : Option (State α) :=
  if (k.queue q).uxItemSize = 0 then
    -- nothing is copied for a semaphore: only the count changes
    if (k.queue q).isMutex then
      (k.xTaskPriorityDisinherit (k.queue q).xMutexHolder).map fun k =>
        k.modQueue q fun Q =>
          { Q with xMutexHolder := none, uxMessagesWaiting := Q.uxMessagesWaiting + 1 }
    else
      some (k.modQueue q fun Q => { Q with uxMessagesWaiting := Q.uxMessagesWaiting + 1 })
  else
    some (k.modQueue q fun Q =>
      let pcWriteTo := Q.pcWriteTo + Q.uxItemSize
      { Q with
        storage := Function.update Q.storage Q.pcWriteTo item
        pcWriteTo := if Q.pcTail ≤ pcWriteTo then 0 else pcWriteTo
        uxMessagesWaiting := Q.uxMessagesWaiting + 1 })

end State

/-- The read position after the pre-increment of `prvCopyDataFromQueue`. -/
def Queue.nextReadFrom (Q : Queue α) : Nat :=
  let pcReadFrom := Q.pcReadFrom + Q.uxItemSize
  if Q.pcTail ≤ pcReadFrom then 0 else pcReadFrom

/-- `prvCopyDataFromQueue`, with the count that `xQueueReceive` then lowers. -/
def prvCopyDataFromQueue (Q : Queue α) : Queue α × Option α :=
  if Q.uxItemSize = 0 then (Q, none)
  else ({ Q with pcReadFrom := Q.nextReadFrom }, Q.storage Q.nextReadFrom)

def prvIsQueueEmpty (Q : Queue α) : Bool := Q.uxMessagesWaiting = 0

def prvIsQueueFull (Q : Queue α) : Bool := Q.uxMessagesWaiting = Q.uxLength

namespace State

/-- `prvLockQueue`. -/
def prvLockQueue (k : State α) (q : QueueId) : State α :=
  k.modQueue q fun Q =>
    { Q with
      cRxLock := if Q.cRxLock = queueUnlocked then queueLockedUnmodified else Q.cRxLock
      cTxLock := if Q.cTxLock = queueUnlocked then queueLockedUnmodified else Q.cTxLock }

/-- One critical section of `prvUnlockQueue`: a waiter is woken for every item
that moved while the queue was locked. -/
def wakeLocked (k : State α) (list : EventList) : Nat → State α
  | 0 => k
  | count + 1 =>
      if k.eventList list = [] then k
      else (k.xTaskRemoveFromEventList list).wakeLocked list count

/-- The first critical section of `prvUnlockQueue`. -/
def prvUnlockQueueTx (k : State α) (q : QueueId) : State α :=
  (k.wakeLocked (.toReceive q) (k.queue q).cTxLock.toNat).modQueue q
    fun Q => { Q with cTxLock := queueUnlocked }

/-- The second critical section of `prvUnlockQueue`. -/
def prvUnlockQueueRx (k : State α) (q : QueueId) : State α :=
  (k.wakeLocked (.toSend q) (k.queue q).cRxLock.toNat).modQueue q
    fun Q => { Q with cRxLock := queueUnlocked }

end State

end SimulatedLinux.Kernel
