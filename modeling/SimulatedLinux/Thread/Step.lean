import SimulatedLinux.Thread.State

/-! # The thread functions as a step function

One step is one critical section, one kernel call, or one access to a field of a
descriptor outside of a critical section. Between any two steps another task may
run, unless the scheduler is suspended.
-/

namespace SimulatedLinux.Thread

open Kernel Heap

variable {α : Type}

/-- What application code does next. -/
inductive Call (α : Type)
  /-- `thread` says whether the pointer for the handle is not NULL. -/
  | pthreadCreate (thread : Bool) (startRoutine arg : Ptr)
  /-- `retval` says whether the pointer for the value is not NULL. -/
  | pthreadJoin (thread : Option ThreadId) (retval : Bool)
  /-- Also made by `posix_thread_wrapper` with the value of `start_routine`. -/
  | pthreadExit (retval : Ptr)
  | pthreadDetach (thread : Option ThreadId)
  | pthreadSelf
  /-- `xTaskCreate`, or `sys_thread_new`. -/
  | xTaskCreate (uxPriority stackBytes : Nat)
  /-- `vTaskDelete(NULL)`. -/
  | vTaskDelete
  /-- The functions for mutexes, semaphores and mailboxes. -/
  | blocking (api : Api α)
  | newQueue (spec : NewQueue)
  | deleteQueue (q : QueueId)
  | vTaskDelay (xTicksToDelay : Nat)
  | pvPortMalloc (xWantedSize : Nat)
  | vPortFree (pv : Nat)

/-- The labels of the system. -/
inductive Act (α : Type)
  | tick
  | call (t : TaskId) (c : Call α)
  | run (t : TaskId)

/-- The idle task, which frees the memory of deleted tasks. -/
def idleTask : TaskId := 0

/-- `tskIDLE_PRIORITY + 1` and the 1024 words of stack of a thread. -/
def threadPriority : Nat := 1

def threadStackBytes : Nat := 1024 * 4

/-- The memory of `xQueueGenericCreate`: the storage area follows the structure. -/
def queueBytes (sizes : Sizes) : NewQueue → Nat
  | .mailbox size => sizes.queue + size * 4
  | _ => sizes.queue

namespace Sys

variable (sizes : Sizes)

/-- The descriptor after its allocation; its other fields are not initialised. -/
def newDesc (s : Sys α) (addr : Nat) (creator : TaskId) : Sys α :=
  { s with
    nextThread := s.nextThread + 1
    desc := Function.update s.desc s.nextThread
      { live := true, addr, xTask := 0, startRoutine := 0, arg := 0, retval := 0, joinSem := none
        detached := false, next := none }
    past := Function.update s.past s.nextThread
      { creator := some creator, task := none, handle := none, use := .unused, selfFreed := false
        descFrees := 0, semFrees := 0 } }

/-- A control block that is about to run its first instruction. -/
def newInfo (pxStack pxNewTCB : Nat) (param : Option ThreadId) : Info where
  tcb := pxNewTCB
  pxStack := pxStack
  param := param
  pc := match param with
    | some t => .wrapper t
    | none => .app
  ret := none
  exited := none
  stackLive := true
  tcbLive := true

/-- A step of `xTaskCreate`. `at'` gives the program point of its caller. -/
def createTask (s : Sys α) (c : TaskId) (param : Option ThreadId) (at' : TaskPc → Pc)
    (done : Sys α → Sys α) : TaskPc → Option (Sys α)
  | .stack uxPriority stackBytes =>
      some (s.alloc stackBytes fun pv s => s.goto c (at' (.tcb uxPriority pv)))
  | .tcb uxPriority pxStack =>
      some (s.alloc sizes.tcb fun pv s => s.goto c (at' (.start uxPriority pxStack pv)))
  | .start uxPriority pxStack pxNewTCB =>
      s.kernel (.spawn c uxPriority) fun s' =>
        done { s' with
          info := Function.update s'.info s.kern.nextTask (newInfo pxStack pxNewTCB param) }

/-- A step of `pthread_create`. -/
def create (s : Sys α) (c : TaskId) (t : ThreadId) : CreatePc → Option (Sys α)
  | .startRoutine startRoutine arg =>
      some (s.touch t ((s.modDesc t fun D => { D with startRoutine := startRoutine }).goto c
        (.create t (.arg arg))))
  | .arg arg =>
      some (s.touch t ((s.modDesc t fun D => { D with arg := arg }).goto c (.create t .retval)))
  | .retval =>
      some (s.touch t ((s.modDesc t fun D => { D with retval := 0 }).goto c (.create t .detached)))
  | .detached =>
      some (s.touch t ((s.modDesc t fun D => { D with detached := false }).goto c
        (.create t .semaphore)))
  | .semaphore =>
      -- with the hook for a failed allocation, a NULL does not come back
      match pvPortMalloc s.heap sizes.queue with
      | none => some (s.halt .mallocFailed)
      | some (pv, heap) =>
          { s with heap := heap }.kernel (.create c .binary) fun s' =>
            { s' with
              queueAddr := Function.update s'.queueAddr s.kern.nextQueue pv
              semOwner := Function.update s'.semOwner s.kern.nextQueue (some t) }.goto c
                (.create t (.joinSem s.kern.nextQueue))
  | .joinSem sem =>
      some (s.touch t ((s.modDesc t fun D => { D with joinSem := some sem }).goto c
        (.create t .suspendAll)))
  | .suspendAll =>
      s.kernel (.suspendAll c) fun s =>
        s.goto c (.create t (.task (.stack threadPriority threadStackBytes)))
  | .task pc =>
      s.createTask sizes c (some t) (fun pc => .create t (.task pc)) (fun s' =>
        ((s'.modDesc t fun D => { D with xTask := (s'.info s.kern.nextTask).tcb }).modPast t
          fun P => { P with task := some s.kern.nextTask }).goto c (.create t .addThread)) pc
  | .addThread =>
      -- the list is changed while the scheduler is suspended, so in one step
      some (s.touch t (((s.addThread t).modPast t fun P => { P with creator := none }).goto c
        (.create t .store)))
  | .store =>
      some ((s.modPast t fun P => { P with handle := some t }).goto c (.create t .resumeAll))
  | .resumeAll => s.kernel (.resumeAll c) fun s => s.returns c (.int 0)

/-- `vSemaphoreDelete`, and the code after it. -/
def deleteSem (s : Sys α) (c : TaskId) (t : ThreadId) (sem : QueueId) (pc : Pc) : Option (Sys α) :=
  s.kernel (.delete c sem) fun s =>
    s.release (s.queueAddr sem) fun s =>
      (s.modPast t fun P => { P with semFrees := P.semFrees + 1 }).goto c pc

/-- `vPortFree(t)`, and the code after it. -/
def freeDesc (s : Sys α) (t : ThreadId) (next : Sys α → Sys α) : Sys α :=
  s.touch t (s.release (s.desc t).addr fun s =>
    next ((s.modDesc t fun D => { D with live := false }).modPast t
      fun P => { P with descFrees := P.descFrees + 1 }))

/-- Read `t->join_sem`, and go on. -/
def readSem (s : Sys α) (t : ThreadId) (next : QueueId → Option (Sys α)) : Option (Sys α) :=
  if (s.desc t).live then
    match (s.desc t).joinSem with
    | some sem => next sem
    | none => some (s.halt .assertion)
  else some (s.halt (.useAfterFree t))

/-- A step of `pthread_join`. -/
def join (s : Sys α) (j : TaskId) (t : ThreadId) (retval : Bool) : JoinPc → Option (Sys α)
  | .sem =>
      s.readSem t fun sem =>
        s.kernel (.call j (.xSemaphoreTake sem portMaxDelay)) fun s =>
          s.goto j (.join t retval .taken)
  | .taken =>
      -- what `xSemaphoreTake` has returned
      match (s.kern.task j).ret with
      | some (.base true) => some (s.goto j (.join t retval .retval))
      | _ => some ((s.modPast t fun P => { P with use := .failed }).returns j (.int (-1)))
  | .retval =>
      if retval then
        some (s.touch t (s.goto j (.join t retval (.removeThread (some (s.desc t).retval)))))
      else some (s.goto j (.join t retval (.removeThread none)))
  | .removeThread value =>
      some (s.removeThread t fun s => s.goto j (.join t retval (.readSem value)))
  | .readSem value =>
      s.readSem t fun sem => some (s.goto j (.join t retval (.deleteSem value sem)))
  | .deleteSem value sem => s.deleteSem j t sem (.join t retval (.free value))
  | .free value =>
      some (s.freeDesc t fun s =>
        (s.modPast t fun P => { P with use := .joined value }).returns j (.int 0))

/-- A step of `pthread_exit`. -/
def exit (s : Sys α) (u : TaskId) : ExitPc → Option (Sys α)
  | .findThread retval =>
      match s.findThread (s.info u).tcb with
      | .ok (some t) => some (s.goto u (.exit (.retval t retval)))
      | .ok none => some (s.goto u (.exit .taskDelete))
      | .error fault => some (s.walkFault fault)
  | .retval t retval =>
      some (s.touch t ((s.modDesc t fun D => { D with retval := retval }).goto u
        (.exit (.detached t))))
  | .detached t =>
      some (s.touch t (s.goto u
        -- the flag is tested once, and is not looked at again
        (.exit (if (s.desc t).detached then .removeThread t else .sem t))))
  | .removeThread t => some (s.removeThread t fun s => s.goto u (.exit (.readSem t)))
  | .readSem t => s.readSem t fun sem => some (s.goto u (.exit (.deleteSem t sem)))
  | .deleteSem t sem => s.deleteSem u t sem (.exit (.free t))
  | .free t =>
      some (s.freeDesc t fun s =>
        (s.modPast t fun P => { P with selfFreed := true }).goto u (.exit .taskDelete))
  | .sem t =>
      s.readSem t fun sem =>
        s.kernel (.call u (.xSemaphoreGive sem)) fun s => s.goto u (.exit (.given t))
  | .given _ => some (s.goto u (.exit .taskDelete))
  | .taskDelete => s.kernel (.exit u) fun s => s.goto u .dead

/-- The next step of a task outside of the kernel's blocking functions. -/
def advance (s : Sys α) (t : TaskId) : Pc → Option (Sys α)
  | .app =>
      if t = idleTask then
        -- the idle task takes the first task of the list, then `prvDeleteTCB` frees its memory
        match s.kern.xTasksWaitingTermination with
        | [] => none
        | u :: _ => s.kernel (.reap t) fun s => s.goto t (.freeStack u)
      else none
  | .createMalloc startRoutine arg =>
      some (s.alloc sizes.posixThread fun pv s =>
        (s.newDesc pv t).goto t (.create s.nextThread (.startRoutine startRoutine arg)))
  | .create h pc => s.create sizes t h pc
  | .join h retval pc => s.join t h retval pc
  | .exit pc => s.exit t pc
  | .detach h =>
      some (s.touch h (((s.modDesc h fun D => { D with detached := true }).modPast h
        fun P => { P with use := .detached }).returns t (.int 0)))
  | .self =>
      match s.findThread (s.info t).tcb with
      | .ok handle => some (s.returns t (.handle handle))
      | .error fault => some (s.walkFault fault)
  | .task pc => s.createTask sizes t none .task (fun s => s.returns t (.int 1)) pc
  | .wrapper h => some (s.touch h (s.goto t (.wrapperArg h)))
  | .wrapperArg h => some (s.touch h (s.goto t .app))
  | .freeStack u =>
      some (s.release (s.info u).pxStack fun s =>
        (s.modInfo u fun I => { I with stackLive := false }).goto t (.freeTcb u))
  | .freeTcb u =>
      some (s.release (s.info u).tcb fun s =>
        (s.modInfo u fun I => { I with tcbLive := false }).goto t .app)
  | .dead => none

/-- The application calls an entry point. -/
def begin (s : Sys α) (t : TaskId) : Call α → Option (Sys α)
  | .pthreadCreate thread startRoutine arg =>
      if thread = false ∨ startRoutine = 0 then some (s.returns t (.int (-1)))
      else some (s.goto t (.createMalloc startRoutine arg))
  | .pthreadJoin none _ => some (s.returns t (.int (-1)))
  | .pthreadJoin (some h) retval =>
      some ((s.modPast h fun P => { P with use := .joining t }).goto t (.join h retval .sem))
  | .pthreadExit retval =>
      some (s.modInfo t fun I => { I with exited := some retval, pc := .exit (.findThread retval) })
  | .pthreadDetach none => some (s.returns t (.int (-1)))
  | .pthreadDetach (some h) =>
      some ((s.modPast h fun P => { P with use := .detaching t }).goto t (.detach h))
  | .pthreadSelf => some (s.goto t .self)
  | .xTaskCreate uxPriority stackBytes => some (s.goto t (.task (.stack uxPriority stackBytes)))
  | .vTaskDelete => some (s.goto t (.exit .taskDelete))
  | .blocking api => s.kernel (.call t api) id
  | .newQueue spec =>
      -- the sizes are checked before the allocation
      if (spec.build : Option (Queue α)).isSome then
        match pvPortMalloc s.heap (queueBytes sizes spec) with
        | none => some (s.halt .mallocFailed)
        | some (pv, heap) =>
            { s with heap := heap }.kernel (.create t spec) fun s' =>
              { s' with queueAddr := Function.update s'.queueAddr s.kern.nextQueue pv }
      else s.kernel (.create t spec) id
  | .deleteQueue q =>
      s.kernel (.delete t q) fun s => s.release (s.queueAddr q) id
  | .vTaskDelay xTicksToDelay => s.kernel (.delay t xTicksToDelay) id
  | .pvPortMalloc xWantedSize =>
      some (s.alloc xWantedSize fun pv s =>
        { s with blocks := Function.update s.blocks pv true }.returns t (.ptr pv))
  | .vPortFree pv =>
      some (s.release pv fun s => { s with blocks := Function.update s.blocks pv false })

/-- The task runs now. -/
def switchTo (s : Sys α) (t : TaskId) : Sys α := { s with kern := s.kern.switchTo t }

/-- The step function of the system. -/
def step (s : Sys α) (act : Act α) : Option (Sys α) :=
  if s.fault.isNone then
    match act with
    | .tick => s.kernel .tick id
    | .call t c =>
        if s.kern.canRun t ∧ (s.frame t).isNone ∧ s.pc t = .app ∧ t ≠ idleTask then
          (s.switchTo t).begin sizes t c
        else none
    | .run t =>
        if s.kern.canRun t then
          match s.frame t with
          | some _ => s.kernel (.run t) id
          | none => (s.switchTo t).advance sizes t (s.pc t)
        else none
  else none

end Sys

end SimulatedLinux.Thread
