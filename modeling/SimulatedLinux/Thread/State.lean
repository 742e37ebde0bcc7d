import SimulatedLinux.Heap.Heap4
import SimulatedLinux.Kernel.Calls
import SimulatedLinux.Lib.Chain

/-! # State of the thread layer

The threads of `posix_shim.c` over the kernel and the heap. Every task has a
program point in the code of the shim; application code may call any entry point
whenever its task is at the point `app`.

A descriptor, like a task and a queue, is named by a serial number, and `live`
says whether its memory still belongs to it. Addresses are kept where the code
compares them: the registry is searched by the address of a control block, which
the heap may hand out again.
-/

namespace SimulatedLinux.Thread

open Kernel Heap

/-- Serial number of a `posix_thread_t`. -/
abbrev ThreadId := Nat

/-- A `void *`, or a function pointer, as the application passes it. -/
abbrev Ptr := Nat

/-- `posix_thread_t`. -/
structure PosixThread where
  live : Bool
  addr : Nat
  xTask : Nat
  startRoutine : Ptr
  arg : Ptr
  retval : Ptr
  joinSem : Option QueueId
  detached : Bool
  next : Option ThreadId

/-- The program points of `xTaskCreate`. -/
inductive TaskPc
  | stack (uxPriority stackBytes : Nat)
  | tcb (uxPriority pxStack : Nat)
  /-- `prvInitialiseNewTask` and `prvAddNewTaskToReadyList`. -/
  | start (uxPriority pxStack pxNewTCB : Nat)
  deriving DecidableEq

/-- The program points of `pthread_create`, from the allocation of the descriptor. -/
inductive CreatePc
  | startRoutine (startRoutine arg : Ptr)
  | arg (arg : Ptr)
  | retval
  | detached
  /-- `xSemaphoreCreateBinary`. -/
  | semaphore
  | joinSem (sem : QueueId)
  | suspendAll
  | task (pc : TaskPc)
  | addThread
  /-- `*thread = t`. -/
  | store
  | resumeAll
  deriving DecidableEq

/-- The program points of `pthread_join`. -/
inductive JoinPc
  /-- Read `t->join_sem` and call `xSemaphoreTake`. -/
  | sem
  /-- `xSemaphoreTake` has returned. -/
  | taken
  | retval
  | removeThread (value : Option Ptr)
  /-- Read `t->join_sem`. -/
  | readSem (value : Option Ptr)
  | deleteSem (value : Option Ptr) (sem : QueueId)
  | free (value : Option Ptr)
  deriving DecidableEq

/-- The program points of `pthread_exit`. -/
inductive ExitPc
  | findThread (retval : Ptr)
  | retval (t : ThreadId) (retval : Ptr)
  /-- Read `t->detached`. -/
  | detached (t : ThreadId)
  | removeThread (t : ThreadId)
  | readSem (t : ThreadId)
  | deleteSem (t : ThreadId) (sem : QueueId)
  | free (t : ThreadId)
  /-- Read `t->join_sem` and call `xSemaphoreGive`. -/
  | sem (t : ThreadId)
  /-- `xSemaphoreGive` has returned. -/
  | given (t : ThreadId)
  | taskDelete
  deriving DecidableEq

/-- Where the code of a task is. -/
inductive Pc
  | app
  /-- The allocation at the head of `pthread_create`. -/
  | createMalloc (startRoutine arg : Ptr)
  | create (t : ThreadId) (pc : CreatePc)
  | join (t : ThreadId) (retval : Bool) (pc : JoinPc)
  | exit (pc : ExitPc)
  | detach (t : ThreadId)
  | self
  /-- A native task is created. -/
  | task (pc : TaskPc)
  /-- `posix_thread_wrapper` reads `t->start_routine`, then `t->arg`. -/
  | wrapper (t : ThreadId)
  | wrapperArg (t : ThreadId)
  /-- `prvDeleteTCB` in the idle task, for a task taken off the waiting list. -/
  | freeStack (u : TaskId)
  | freeTcb (u : TaskId)
  /-- After `vTaskDelete(NULL)`. -/
  | dead
  deriving DecidableEq

/-- What an entry point returned. -/
inductive Ret
  | int (value : Int)
  | handle (t : Option ThreadId)
  | ptr (pv : Nat)
  deriving DecidableEq

/-- A task as the shim sees it. The last three fields are history: the value it
passed to `pthread_exit`, and whether its stack and its control block are still
allocated. -/
structure Info where
  tcb : Nat
  pxStack : Nat
  /-- `pvParameters` of `posix_thread_wrapper`; a native task has none. -/
  param : Option ThreadId
  pc : Pc
  ret : Option Ret
  exited : Option Ptr
  stackLive : Bool
  tcbLive : Bool

/-- What became of a handle. -/
inductive Use
  | unused
  | joining (j : TaskId)
  /-- `pthread_join` returned 0 after storing this value. -/
  | joined (value : Option Ptr)
  /-- `pthread_join` returned -1. -/
  | failed
  | detaching (d : TaskId)
  | detached
  deriving DecidableEq

/-- The history of a thread: who is creating it, its task, the value stored in
the creator's variable, the use of its handle, and how often its objects were
freed. -/
structure Past where
  creator : Option TaskId
  task : Option TaskId
  handle : Option ThreadId
  use : Use
  /-- `pthread_exit` freed the descriptor of its own thread. -/
  selfFreed : Bool
  descFrees : Nat
  semFrees : Nat

/-- Why the system stopped. -/
inductive Fault
  /-- `vApplicationMallocFailedHook` does not return. -/
  | mallocFailed
  | assertion
  | useAfterFree (t : ThreadId)
  /-- A walk along the registry does not end. -/
  | endless
  deriving DecidableEq

/-- The kernel, the heap, and the data of the shim. -/
structure Sys (α : Type) where
  kern : State α
  heap : Heap4
  /-- The address of each queue. -/
  queueAddr : QueueId → Nat
  desc : ThreadId → PosixThread
  nextThread : ThreadId
  gThreadList : Option ThreadId
  info : TaskId → Info
  fault : Option Fault
  past : ThreadId → Past
  /-- History: the thread a queue was made for, if it is a `join_sem`. -/
  semOwner : QueueId → Option ThreadId
  /-- History: the memory the application has allocated and not freed. -/
  blocks : Nat → Bool

/-- The sizes of the objects on the heap. -/
structure Sizes where
  posixThread : Nat
  queue : Nat
  tcb : Nat

variable {α : Type}

namespace Sys

def frame (s : Sys α) (t : TaskId) : Option (Frame α) := (s.kern.task t).frame

def pc (s : Sys α) (t : TaskId) : Pc := (s.info t).pc

def modInfo (s : Sys α) (t : TaskId) (f : Info → Info) : Sys α :=
  { s with info := Function.update s.info t (f (s.info t)) }

def modDesc (s : Sys α) (t : ThreadId) (f : PosixThread → PosixThread) : Sys α :=
  { s with desc := Function.update s.desc t (f (s.desc t)) }

def modPast (s : Sys α) (t : ThreadId) (f : Past → Past) : Sys α :=
  { s with past := Function.update s.past t (f (s.past t)) }

def goto (s : Sys α) (t : TaskId) (pc : Pc) : Sys α := s.modInfo t fun I => { I with pc := pc }

/-- The entry point returns to the application. -/
def returns (s : Sys α) (t : TaskId) (ret : Ret) : Sys α :=
  s.modInfo t fun I => { I with pc := .app, ret := some ret }

def halt (s : Sys α) (fault : Fault) : Sys α := { s with fault := some fault }

/-- Access a field of a descriptor, and go on. -/
def touch (s : Sys α) (t : ThreadId) (next : Sys α) : Sys α :=
  if (s.desc t).live then next else s.halt (.useAfterFree t)

/-- Allocate memory. In this configuration `pvPortMalloc` does not return NULL: the
failed hook never returns. -/
def alloc (s : Sys α) (size : Nat) (next : Nat → Sys α → Sys α) : Sys α :=
  match pvPortMalloc s.heap size with
  | some (pv, heap) => next pv { s with heap := heap }
  | none => s.halt .mallocFailed

/-- Free memory. -/
def release (s : Sys α) (pv : Nat) (next : Sys α → Sys α) : Sys α :=
  match vPortFree s.heap pv with
  | some heap => next { s with heap := heap }
  | none => s.halt .assertion

/-- A step of the kernel, after which the code goes on unless the kernel stopped. -/
def kernel (s : Sys α) (act : Kernel.Act α) (next : Sys α → Sys α) : Option (Sys α) :=
  (s.kern.step act).map fun kern =>
    if kern.fault.isNone then next { s with kern := kern } else { s with kern := kern }

/-! ## The registry -/

/-- The critical section of `add_thread`. -/
def addThread (s : Sys α) (t : ThreadId) : Sys α :=
  { s.modDesc t fun D => { D with next := s.gThreadList } with gThreadList := some t }

def next (s : Sys α) (t : ThreadId) : Option ThreadId := (s.desc t).next

def live (s : Sys α) (t : ThreadId) : Bool := (s.desc t).live

/-- The critical section of `find_thread`. A list that ends has at most as many
nodes as there are descriptors. -/
def findThread (s : Sys α) (xTask : Nat) : Except (Lib.WalkFault ThreadId) (Option ThreadId) :=
  Lib.search s.live (fun t => (s.desc t).xTask = xTask) s.next s.nextThread s.gThreadList

/-- The links of the registry are rewritten. -/
def setLinks (s : Sys α) (head : Option ThreadId) (next : ThreadId → Option ThreadId) : Sys α :=
  { s with gThreadList := head, desc := fun t => { s.desc t with next := next t } }

def walkFault (s : Sys α) : Lib.WalkFault ThreadId → Sys α
  | .freed t => s.halt (.useAfterFree t)
  | .endless => s.halt .endless

/-- The critical section of `remove_thread`. -/
def removeThread (s : Sys α) (t : ThreadId) (next : Sys α → Sys α) : Sys α :=
  match Lib.unlink s.live t s.gThreadList s.next s.nextThread none s.gThreadList with
  | .ok (head, links) => next (s.setLinks head links)
  | .error fault => s.walkFault fault

end Sys

end SimulatedLinux.Thread
