import SimulatedLinux.Kernel.Queue

/-! # The kernel as a step function

One step is one critical section, or one stretch of code between two of them. A
label names the task that runs, so a list of labels is a schedule; the scheduler
may pick any ready task, unless it is suspended by the running one. A task that
is not inside a blocking function may make any call.
-/

namespace SimulatedLinux.Kernel

variable {α : Type}

/-! ## Entry points of the shim -/

/-- `pdMS_TO_TICKS` at `configTICK_RATE_HZ` 1000. -/
def pdMsToTicks (ms : Nat) : Nat := ms * 1000 / 1000 % tickModulus

/-- The `timeout_ticks` of the lwIP waits: zero waits for ever, and any other
timeout waits for at least one tick. -/
def timeoutTicks (timeout : Nat) : Nat :=
  if timeout = 0 then portMaxDelay
  else if pdMsToTicks timeout = 0 then 1
  else pdMsToTicks timeout

def sysArchTimeout : Nat := 2 ^ 32 - 1

def errOk : Int := 0

def errMem : Int := -1

namespace Api

/-- The blocking function an entry point calls, or `none` when it returns at
once because its handle is NULL. -/
def request : Api α → Option (Op α × QueueId × Nat)
  | pthreadMutexLock mutex | sysMutexLock mutex =>
      mutex.map fun q => (.semaphoreTake, q, portMaxDelay)
  | pthreadMutexUnlock mutex | sysMutexUnlock mutex =>
      mutex.map fun q => (.genericSend none, q, 0)
  | semWait sem => sem.map fun q => (.semaphoreTake, q, portMaxDelay)
  | semPost sem | sysSemSignal sem => sem.map fun q => (.genericSend none, q, 0)
  | sysArchSemWait q timeout => some (.semaphoreTake, q, timeoutTicks timeout)
  | sysMboxPost q msg => some (.genericSend (some msg), q, portMaxDelay)
  | sysMboxTrypost q msg => some (.genericSend (some msg), q, 0)
  | sysArchMboxFetch q timeout => some (.receive, q, timeoutTicks timeout)
  | sysArchMboxTryfetch q => some (.receive, q, 0)
  | xSemaphoreTake q xTicksToWait => some (.semaphoreTake, q, xTicksToWait)
  | xSemaphoreGive q => some (.genericSend none, q, 0)

/-- The value returned for a NULL handle. -/
def nullResult : Api α → Ret α
  | sysMutexLock _ | sysMutexUnlock _ | sysSemSignal _ => .void
  | _ => .int (-1)

/-- The value an entry point returns for the result of its blocking function,
`elapsed` ticks after it was entered. -/
def result (api : Api α) (res : QueueResult α) (elapsed : Nat) : Ret α :=
  match api, res with
  | pthreadMutexLock _, .pass _ | pthreadMutexUnlock _, .pass _
  | semWait _, .pass _ | semPost _, .pass _ => .int 0
  | pthreadMutexLock _, .fail | pthreadMutexUnlock _, .fail
  | semWait _, .fail | semPost _, .fail => .int (-1)
  | sysMutexLock _, _ | sysMutexUnlock _, _ | sysSemSignal _, _ | sysMboxPost _ _, _ => .void
  | sysArchSemWait _ _, .pass _ => .u32 elapsed
  | sysArchSemWait _ _, .fail => .u32 sysArchTimeout
  | sysMboxTrypost _ _, .pass _ => .int errOk
  | sysMboxTrypost _ _, .fail => .int errMem
  | sysArchMboxFetch _ _, .pass msg => .fetched elapsed msg
  | sysArchMboxFetch _ _, .fail => .u32 sysArchTimeout
  | sysArchMboxTryfetch _, .pass msg => .fetched 0 msg
  | sysArchMboxTryfetch _, .fail => .u32 sysArchTimeout
  | xSemaphoreTake _ _, .pass _ | xSemaphoreGive _, .pass _ => .base true
  | xSemaphoreTake _ _, .fail | xSemaphoreGive _, .fail => .base false

/-- The mutex a call locks. -/
def locks : Api α → Option QueueId
  | pthreadMutexLock mutex | sysMutexLock mutex => mutex
  | _ => none

/-- The mutex a call unlocks. -/
def unlocks : Api α → Option QueueId
  | pthreadMutexUnlock mutex | sysMutexUnlock mutex => mutex
  | _ => none

end Api

/-- The wait list a blocking function joins. -/
def Op.waitList : Op α → QueueId → EventList
  | genericSend _, q => .toSend q
  | receive, q | semaphoreTake, q => .toReceive q

/-- The check made before a task blocks: `prvIsQueueFull` or `prvIsQueueEmpty`. -/
def Op.mustBlock : Op α → Queue α → Bool
  | genericSend _, Q => prvIsQueueFull Q
  | receive, Q | semaphoreTake, Q => prvIsQueueEmpty Q

def Frame.waitList (frame : Frame α) : EventList := frame.op.waitList frame.xQueue

/-- The program points whose code reads or writes the queue. -/
def Pc.touchesQueue : Pc α → Bool
  | suspendAll | checkTimeOut | resumeAll _ | leave _ => false
  | _ => true

namespace State

/-! ## Blocking functions -/

/-- The assertions at the head of `xQueueGenericSend`, `xQueueReceive` and
`xQueueSemaphoreTake`. -/
def entryAsserts (k : State α) (frame : Frame α) : Bool :=
  (match frame.op with
    | .genericSend item => item.isSome || (k.queue frame.xQueue).uxItemSize = 0
    | .receive => true
    | .semaphoreTake => (k.queue frame.xQueue).uxItemSize = 0) &&
  (k.uxSchedulerSuspended = 0 || frame.xTicksToWait = 0)

/-- History: a task whose critical section has looked at the queue has retried. -/
def retried (k : State α) (t : TaskId) (list : EventList) : State α :=
  { k with woken := Function.update k.woken list ((k.woken list).erase t) }

/-- The blocking function is done; its caller in the shim goes on. -/
def complete (k : State α) (t : TaskId) (frame : Frame α) (res : QueueResult α) : State α :=
  { k.setPc t frame (.leave res) with trace := k.trace ++ [⟨t, frame.api, res⟩] }

/-- The failing branch of the critical section. -/
def failOrWait (k : State α) (t : TaskId) (frame : Frame α) : State α :=
  let k := k.retried t frame.waitList
  if frame.xTicksToWait = 0 then k.complete t frame .fail
  else
    -- the time of entry is set at the first failure only
    k.setFrame t
      { frame with
        xTimeOut := some (frame.xTimeOut.getD k.vTaskInternalSetTimeOutState)
        pc := .suspendAll }

/-- The critical section of `xQueueGenericSend`. -/
def xQueueGenericSend (k : State α) (t : TaskId) (frame : Frame α) (item : Option α) : State α :=
  let q := frame.xQueue
  if (k.queue q).uxMessagesWaiting < (k.queue q).uxLength then
    match k.prvCopyDataToQueue q item with
    | none => k.halt .assertion
    | some k =>
        ((k.retried t frame.waitList).wakeFirst (.toReceive q)).complete t frame (.pass none)
  else k.failOrWait t frame

/-- The critical section of `xQueueReceive`. -/
def xQueueReceive (k : State α) (t : TaskId) (frame : Frame α) : State α :=
  let q := frame.xQueue
  if 0 < (k.queue q).uxMessagesWaiting then
    let (Q, item) := prvCopyDataFromQueue (k.queue q)
    let k := k.modQueue q fun _ => { Q with uxMessagesWaiting := Q.uxMessagesWaiting - 1 }
    ((k.retried t frame.waitList).wakeFirst (.toSend q)).complete t frame (.pass item)
  else k.failOrWait t frame

/-- The update of a successful `xQueueSemaphoreTake`: the count goes down, and a
mutex records its holder. -/
def takeCount (k : State α) (q : QueueId) : State α :=
  let k := k.modQueue q fun Q => { Q with uxMessagesWaiting := Q.uxMessagesWaiting - 1 }
  if (k.queue q).isMutex then
    k.pvTaskIncrementMutexHeldCount.modQueue q fun Q =>
      { Q with xMutexHolder := some k.pxCurrentTCB }
  else k

/-- The critical section of `xQueueSemaphoreTake`. -/
def xQueueSemaphoreTake (k : State α) (t : TaskId) (frame : Frame α) : State α :=
  let q := frame.xQueue
  if 0 < (k.queue q).uxMessagesWaiting then
    (((k.takeCount q).retried t frame.waitList).wakeFirst (.toSend q)).complete t frame (.pass none)
  else k.failOrWait t frame

/-- The critical section at the head of the loop. -/
def attempt (k : State α) (t : TaskId) (frame : Frame α) : State α :=
  match frame.op with
  | .genericSend item => k.xQueueGenericSend t frame item
  | .receive => k.xQueueReceive t frame
  | .semaphoreTake => k.xQueueSemaphoreTake t frame

/-- Where the loop goes once the scheduler has been resumed. After a time-out a
send gives up at once, while a receive and a take look at the queue again. -/
def afterResume (k : State α) (t : TaskId) (frame : Frame α) (after : AfterUnlock) : State α :=
  match after, frame.op with
  | .timedOut, .genericSend _ => k.complete t frame .fail
  | .timedOut, _ => k.setPc t frame .recheck
  | _, _ => k.setPc t frame .attempt

/-- The entry point returns to the application. -/
def leave (k : State α) (t : TaskId) (frame : Frame α) (res : QueueResult α) : State α :=
  let elapsed := (k.xTickCount + tickModulus - frame.startTick) % tickModulus
  let k := k.modTask t fun T =>
    { T with frame := none, ret := some (frame.api.result res elapsed) }
  match frame.api.locks, res with
  | some q, .pass _ => { k with locked := Function.update k.locked t (q :: k.locked t) }
  | _, _ => k

/-- One step of a task inside a blocking function; the task is `pxCurrentTCB`. -/
def runFrame (k : State α) (t : TaskId) (frame : Frame α) : State α :=
  let q := frame.xQueue
  if frame.pc.touchesQueue && !(k.queue q).live then k.halt (.useAfterFree q)
  else
    match frame.pc with
    | .entry =>
        if k.entryAsserts frame then k.setPc t frame .attempt else k.halt .assertion
    | .attempt => k.attempt t frame
    -- no other task runs until `xTaskResumeAll`, but an interrupt may come between the steps
    | .suspendAll => k.vTaskSuspendAll.setPc t frame .lockQueue
    | .lockQueue => (k.prvLockQueue q).setPc t frame .checkTimeOut
    | .checkTimeOut =>
        let timeOut := frame.xTimeOut.getD k.vTaskInternalSetTimeOutState
        let (expired, timeOut, xTicksToWait) := k.xTaskCheckForTimeOut timeOut frame.xTicksToWait
        k.setFrame t
          { frame with
            xTimeOut := some timeOut
            xTicksToWait := xTicksToWait
            pc := if expired then .unlockTx .timedOut else .checkBlock }
    | .checkBlock =>
        if frame.op.mustBlock (k.queue q) then
          match frame.op with
          | .semaphoreTake => k.setPc t frame (if (k.queue q).isMutex then .inherit else .place)
          | _ => k.setPc t frame .place
        else k.setPc t frame (.unlockTx .retry)
    | .inherit => (k.xTaskPriorityInherit (k.queue q).xMutexHolder).setPc t frame .place
    -- the sorted insertion goes by the event values as they are at this moment
    | .place =>
        (k.vTaskPlaceOnEventList frame.waitList frame.xTicksToWait).setPc t frame
          (.unlockTx .blocked)
    | .unlockTx after => (k.prvUnlockQueueTx q).setPc t frame (.unlockRx after)
    | .unlockRx after => (k.prvUnlockQueueRx q).setPc t frame (.resumeAll after)
    | .resumeAll after => k.xTaskResumeAll.afterResume t frame after
    | .recheck =>
        if prvIsQueueEmpty (k.queue q) then k.complete t frame .fail
        else k.setPc t frame .attempt
    | .leave res => k.leave t frame res

/-! ## Scheduling -/

/-- Whether the task may be the one that runs: no context switch happens while
the scheduler is suspended. -/
def canRun (k : State α) (t : TaskId) : Bool :=
  k.fault.isNone &&
    (if k.uxSchedulerSuspended = 0 then (k.task t).xStateList = .ready
      else k.pxCurrentTCB = t)

def switchTo (k : State α) (t : TaskId) : State α := { k with pxCurrentTCB := t }

/-- Enter an entry point of the shim. -/
def enter (k : State α) (t : TaskId) (api : Api α) : State α :=
  -- `locked` records what the application holds; the code itself never reads it
  let k :=
    match api.unlocks with
    | some q => { k with locked := Function.update k.locked t ((k.locked t).erase q) }
    | none => k
  match api.request with
  | none => k.modTask t fun T => { T with ret := some api.nullResult }
  | some (op, q, xTicksToWait) =>
      k.modTask t fun T =>
        { T with
          ret := none
          frame := some
            { api, op, xQueue := q, xTicksToWait, xTimeOut := none
              startTick := k.xTickCount, pc := .entry } }

/-- A queue that has been allocated and initialised. -/
def addQueue (k : State α) (Q : Queue α) : State α :=
  { k with queue := Function.update k.queue k.nextQueue Q, nextQueue := k.nextQueue + 1 }

/-- `vQueueDelete`. -/
def vQueueDelete (k : State α) (q : QueueId) : State α :=
  k.modQueue q fun Q => { Q with live := false }

/-- `prvAddNewTaskToReadyList`, for a control block that `prvInitialiseNewTask`
has filled in. -/
def prvAddNewTaskToReadyList (k : State α) (uxPriority : Nat) : State α :=
  { k with
    nextTask := k.nextTask + 1
    uxCurrentNumberOfTasks := k.uxCurrentNumberOfTasks + 1
    task := Function.update k.task k.nextTask
      { xStateList := .ready, xWakeTime := 0, xEventList := none
        xEventValue := configMaxPriorities - uxPriority
        uxPriority, uxBasePriority := uxPriority, uxMutexesHeld := 0, frame := none, ret := none } }

/-- `vTaskDelete(NULL)`: the running task waits for the idle task to free it. -/
def vTaskDelete (k : State α) (t : TaskId) : State α :=
  if k.uxSchedulerSuspended = 0 then
    { (k.removeEventItem t).modTask t fun T => { T with xStateList := .waitingTermination } with
      xTasksWaitingTermination := k.xTasksWaitingTermination ++ [t] }
  else k.halt .assertion

/-- The critical section of `prvCheckTasksWaitingTermination`. -/
def prvCheckTasksWaitingTermination (k : State α) : State α :=
  match k.xTasksWaitingTermination with
  | [] => k
  | t :: rest =>
      { k.modTask t fun T => { T with xStateList := .absent } with
        xTasksWaitingTermination := rest
        uxCurrentNumberOfTasks := k.uxCurrentNumberOfTasks - 1 }

/-- `vTaskDelay`: the caller is delayed inside one suspension of the scheduler. -/
def vTaskDelay (k : State α) (xTicksToDelay : Nat) : State α :=
  if xTicksToDelay = 0 then k
  else (k.vTaskSuspendAll.prvAddCurrentTaskToDelayedList xTicksToDelay false).xTaskResumeAll

end State

/-- The queues the shim creates: `pthread_mutex_init` and `sys_mutex_new`,
`sem_init` and `sys_sem_new`, `sys_mbox_new`, and the semaphore of
`pthread_create`. -/
inductive NewQueue
  | mutex
  | counting (value : Nat)
  | mailbox (size : Nat)
  | binary

/-- The created queue, or `none` when creation asserts. -/
def NewQueue.build : NewQueue → Option (Queue α)
  | mutex => some xQueueCreateMutex
  | counting value => xQueueCreateCountingSemaphore 65535 value
  | mailbox size => if size = 0 then none else some (prvInitialiseNewQueue size 4)
  | binary => some xSemaphoreCreateBinary

/-- The labels of the kernel: a timer tick, or what one task does next. -/
inductive Act (α : Type)
  | tick
  | call (t : TaskId) (api : Api α)
  | run (t : TaskId)
  | create (t : TaskId) (spec : NewQueue)
  | delete (t : TaskId) (q : QueueId)
  | spawn (t : TaskId) (uxPriority : Nat)
  | exit (t : TaskId)
  | reap (t : TaskId)
  | delay (t : TaskId) (xTicksToDelay : Nat)
  | suspendAll (t : TaskId)
  | resumeAll (t : TaskId)

/-- The task an act is made by. -/
def Act.actor : Act α → Option TaskId
  | tick => none
  | call t _ | run t | create t _ | delete t _ | spawn t _ | exit t | reap t | delay t _
  | suspendAll t | resumeAll t => some t

namespace State

/-- What a task that may run does, outside of a blocking function. -/
def perform (k : State α) : Act α → Option (State α)
  | .tick | .run _ => none
  | .call t api => some (k.enter t api)
  | .create _ spec =>
      match spec.build with
      | some Q => some (k.addQueue Q)
      | none => some (k.halt .assertion)
  | .delete _ q =>
      if (k.queue q).live then some (k.vQueueDelete q) else some (k.halt (.useAfterFree q))
  | .spawn _ uxPriority =>
      if uxPriority < configMaxPriorities then some (k.prvAddNewTaskToReadyList uxPriority)
      else some (k.halt .assertion)
  | .exit t => some (k.vTaskDelete t)
  | .reap _ => some k.prvCheckTasksWaitingTermination
  | .delay _ xTicksToDelay =>
      if k.uxSchedulerSuspended = 0 then some (k.vTaskDelay xTicksToDelay)
      else some (k.halt .assertion)
  | .suspendAll _ => some k.vTaskSuspendAll
  | .resumeAll _ =>
      if k.uxSchedulerSuspended = 0 then some (k.halt .assertion) else some k.xTaskResumeAll

/-- The step function of the kernel. -/
def step (k : State α) (act : Act α) : Option (State α) :=
  match act.actor with
  | none => if k.fault.isNone then some k.xTaskIncrementTick else none
  | some t =>
      if k.canRun t then
        match (k.task t).frame, act with
        | some frame, .run _ => some ((k.switchTo t).runFrame t frame)
        | some _, _ => none
        | none, act => (k.switchTo t).perform act
      else none

end State

end SimulatedLinux.Kernel
