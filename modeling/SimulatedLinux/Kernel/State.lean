import Mathlib.Algebra.GroupWithZero.Nat
import Mathlib.Logic.Function.Basic

/-! # Kernel state: tasks, queues and blocking calls

The part of `tasks.c` and `queue.c` that semaphores, mutexes and mailboxes rest
on. Every kernel object of the shim and of the lwIP port is a `Queue_t`; a
semaphore is a queue whose items have size zero, and a mutex is a semaphore that
also records its holder.

A task and a queue are named by a serial number that is never used again, so a
name stands for one allocation; the field `live` of a queue says whether that
allocation still exists. Ready and delayed lists are kept as the container of
each task's state item, since any ready task may be scheduled next; the wait
lists of a queue are kept in order.
-/

namespace SimulatedLinux.Kernel

/-- Serial number of a task control block. -/
abbrev TaskId := Nat

/-- Serial number of a queue. -/
abbrev QueueId := Nat

/-- `TickType_t` has 32 bits. -/
def tickModulus : Nat := 2 ^ 32

def portMaxDelay : Nat := tickModulus - 1

def configMaxPriorities : Nat := 9

/-- `queueUNLOCKED` and `queueLOCKED_UNMODIFIED` of `queue.c`. -/
def queueUnlocked : Int := -1

def queueLockedUnmodified : Int := 0

/-- The list that holds a task's state item. -/
inductive StateList
  | ready
  | delayed
  | overflowDelayed
  | suspended
  | waitingTermination
  /-- No list: the task is not yet created or already freed. -/
  | absent
  deriving DecidableEq, Repr

/-- The list that holds a task's event item. -/
inductive EventList
  | toSend (queue : QueueId)
  | toReceive (queue : QueueId)
  | pendingReady
  deriving DecidableEq, Repr

/-- `TimeOut_t`. -/
structure TimeOut where
  xOverflowCount : Nat
  xTimeOnEntering : Nat
  deriving DecidableEq, Repr

/-- `Queue_t`. Positions in the storage area are byte offsets from `pcHead`, and
`storage` gives the item copied to an offset. -/
structure Queue (α : Type) where
  live : Bool
  /-- `uxQueueType == queueQUEUE_IS_MUTEX`. -/
  isMutex : Bool
  uxLength : Nat
  uxItemSize : Nat
  uxMessagesWaiting : Nat
  pcTail : Nat
  pcWriteTo : Nat
  pcReadFrom : Nat
  storage : Nat → Option α
  xMutexHolder : Option TaskId
  xTasksWaitingToSend : List TaskId
  xTasksWaitingToReceive : List TaskId
  cRxLock : Int
  cTxLock : Int

/-- The three blocking functions of `queue.c`. A semaphore is given by sending
the NULL item. -/
inductive Op (α : Type)
  | genericSend (item : Option α)
  | receive
  | semaphoreTake

/-- What a blocking function returned: `pdPASS`, with the item that was copied
out, or one of `errQUEUE_FULL` and `errQUEUE_EMPTY`. -/
inductive QueueResult (α : Type)
  | pass (item : Option α)
  | fail

/-- What happens after the scheduler is resumed at the end of a loop pass. -/
inductive AfterUnlock
  | blocked
  | retry
  | timedOut
  deriving DecidableEq, Repr

/-- The program points of a blocking function. Between `lockQueue` and
`resumeAll` the scheduler is suspended. -/
inductive Pc (α : Type)
  /-- The assertions at the head of the function. -/
  | entry
  /-- The critical section at the head of the loop. -/
  | attempt
  | suspendAll
  | lockQueue
  | checkTimeOut
  /-- `prvIsQueueFull` or `prvIsQueueEmpty`. -/
  | checkBlock
  | inherit
  | place
  | unlockTx (after : AfterUnlock)
  | unlockRx (after : AfterUnlock)
  | resumeAll (after : AfterUnlock)
  /-- `prvIsQueueEmpty` after a time-out. -/
  | recheck
  /-- The function has returned to its caller in the shim. -/
  | leave (result : QueueResult α)

/-- The entry points of `posix_shim.c` and `sys_arch.c` that end in a blocking
function. A handle may be NULL where the source checks it. -/
inductive Api (α : Type)
  | pthreadMutexLock (mutex : Option QueueId)
  | pthreadMutexUnlock (mutex : Option QueueId)
  | sysMutexLock (mutex : Option QueueId)
  | sysMutexUnlock (mutex : Option QueueId)
  | semWait (sem : Option QueueId)
  | semPost (sem : Option QueueId)
  | sysSemSignal (sem : Option QueueId)
  | sysArchSemWait (sem : QueueId) (timeout : Nat)
  | sysMboxPost (mbox : QueueId) (msg : α)
  | sysMboxTrypost (mbox : QueueId) (msg : α)
  | sysArchMboxFetch (mbox : QueueId) (timeout : Nat)
  | sysArchMboxTryfetch (mbox : QueueId)
  /-- The direct uses of a semaphore in `pthread_join` and `pthread_exit`. -/
  | xSemaphoreTake (sem : QueueId) (xTicksToWait : Nat)
  | xSemaphoreGive (sem : QueueId)

/-- What an entry point returned to the application. -/
inductive Ret (α : Type)
  | void
  | int (value : Int)
  | u32 (value : Nat)
  | fetched (value : Nat) (msg : Option α)
  | base (passed : Bool)

/-- The locals of a blocking function in progress. -/
structure Frame (α : Type) where
  api : Api α
  op : Op α
  xQueue : QueueId
  xTicksToWait : Nat
  /-- `xTimeOut`, absent until `xEntryTimeSet`. -/
  xTimeOut : Option TimeOut
  /-- `start_tick` of the lwIP waits. -/
  startTick : Nat
  pc : Pc α

/-- `TCB_t`, with the call its code is in the middle of. -/
structure Task (α : Type) where
  xStateList : StateList
  /-- The value of the state item: the wake time while the task is delayed. -/
  xWakeTime : Nat
  xEventList : Option EventList
  /-- The value of the event item. -/
  xEventValue : Nat
  uxPriority : Nat
  uxBasePriority : Nat
  uxMutexesHeld : Nat
  frame : Option (Frame α)
  ret : Option (Ret α)

/-- A completed queue operation: who made it, through which entry point, and
what the blocking function returned. -/
structure Event (α : Type) where
  task : TaskId
  api : Api α
  result : QueueResult α

/-- Why the system stopped. -/
inductive Fault
  /-- `vAssertCalled`. -/
  | assertion
  | useAfterFree (queue : QueueId)
  deriving DecidableEq, Repr

/-- The kernel. The last three fields are history: the tasks that an operation
removed from a wait list and that have not run their critical section since, the
mutexes each task has locked and not yet begun to unlock, and the operations
completed so far. -/
structure State (α : Type) where
  queue : QueueId → Queue α
  task : TaskId → Task α
  nextQueue : Nat
  nextTask : Nat
  pxCurrentTCB : TaskId
  uxSchedulerSuspended : Nat
  uxCurrentNumberOfTasks : Nat
  xTickCount : Nat
  xNumOfOverflows : Nat
  xPendedTicks : Nat
  xPendingReadyList : List TaskId
  xTasksWaitingTermination : List TaskId
  fault : Option Fault
  woken : EventList → List TaskId
  locked : TaskId → List QueueId
  trace : List (Event α)

variable {α : Type}

/-! ## Object updates -/

namespace State

def modTask (k : State α) (t : TaskId) (f : Task α → Task α) : State α :=
  { k with task := Function.update k.task t (f (k.task t)) }

def modQueue (k : State α) (q : QueueId) (f : Queue α → Queue α) : State α :=
  { k with queue := Function.update k.queue q (f (k.queue q)) }

/-- The tasks in an event list, in order. -/
def eventList (k : State α) : EventList → List TaskId
  | .toSend q => (k.queue q).xTasksWaitingToSend
  | .toReceive q => (k.queue q).xTasksWaitingToReceive
  | .pendingReady => k.xPendingReadyList

def setEventList (k : State α) : EventList → List TaskId → State α
  | .toSend q, tasks => k.modQueue q fun Q => { Q with xTasksWaitingToSend := tasks }
  | .toReceive q, tasks => k.modQueue q fun Q => { Q with xTasksWaitingToReceive := tasks }
  | .pendingReady, tasks => { k with xPendingReadyList := tasks }

/-- The frame of a task whose code is inside a blocking function. -/
def setFrame (k : State α) (t : TaskId) (frame : Frame α) : State α :=
  k.modTask t fun T => { T with frame := some frame }

def setPc (k : State α) (t : TaskId) (frame : Frame α) (pc : Pc α) : State α :=
  k.setFrame t { frame with pc := pc }

/-- A failed `configASSERT`, or an access to freed memory: nothing runs again. -/
def halt (k : State α) (fault : Fault) : State α :=
  { k with fault := some fault }

end State

end SimulatedLinux.Kernel
