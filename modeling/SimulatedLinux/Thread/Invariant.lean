import SimulatedLinux.Kernel.Cpu
import SimulatedLinux.Lib.Ownership
import SimulatedLinux.Thread.Life
import SimulatedLinux.Thread.Step

/-! # The invariant of the thread layer

Each thread of the system is projected to its `Life`. The invariant says that all
of these are in order, that the program points of the tasks agree with the history
of the threads they are about, that the registry is a list of the threads that
have not been unlinked, newest first, and that every object owns its own memory.
-/

namespace SimulatedLinux.Thread

open Kernel Heap

variable {α : Type}

/-! ## Program points -/

namespace CreatePc

/-- The thread is in the registry. -/
def added : CreatePc → Bool
  | store | resumeAll => true
  | _ => false

/-- The scheduler is suspended. -/
def inWindow : CreatePc → Bool
  | task _ | addThread | store | resumeAll => true
  | _ => false

/-- The descriptor has its semaphore. -/
def hasSem : CreatePc → Bool
  | suspendAll | task _ | addThread | store | resumeAll => true
  | _ => false

/-- The task has been created. -/
def hasTask : CreatePc → Bool
  | addThread | store | resumeAll => true
  | _ => false

end CreatePc

/-- The memory a step of `xTaskCreate` has allocated and not yet handed over. -/
def TaskPc.memory : TaskPc → Option Nat × Option Nat
  | stack _ _ => (none, none)
  | tcb _ pxStack => (some pxStack, none)
  | start _ pxStack pxNewTCB => (some pxStack, some pxNewTCB)

/-- The thread that `pthread_exit` works on. -/
def ExitPc.thread : ExitPc → Option ThreadId
  | findThread _ | taskDelete => none
  | retval t _ | detached t | removeThread t | readSem t | deleteSem t _ | free t | sem
    t | given t =>
      some t

/-- The value of `pthread_join` once it has been read. -/
def JoinPc.value : JoinPc → Option Ptr
  | removeThread value | readSem value | deleteSem value _ | free value => value
  | _ => none

namespace Pc

def inWindow : Pc → Bool
  | create _ pc => pc.inWindow
  | _ => false

/-- The thread that is being created, before it is in the registry. -/
def creates : Pc → Option ThreadId
  | create t pc => if pc.added then none else some t
  | _ => none

def joins : Pc → Option ThreadId
  | join t _ _ => some t
  | _ => none

def detaches : Pc → Option ThreadId
  | detach t => some t
  | _ => none

/-- The task works on the descriptor of its own thread. -/
def own : Pc → Option ThreadId
  | exit pc => pc.thread
  | wrapper t | wrapperArg t => some t
  | _ => none

/-- The value that `pthread_exit` has still to store. -/
def passes : Pc → Option Ptr
  | exit (.findThread value) | exit (.retval _ value) => some value
  | _ => none

/-- The semaphore that was read from a descriptor to be deleted. -/
def reads : Pc → Option (ThreadId × QueueId)
  | exit (.deleteSem t sem) | join t _ (.deleteSem _ sem) => some (t, sem)
  | _ => none

/-- The code of the idle task. -/
def idles : Pc → Bool
  | app | freeStack _ | freeTcb _ => true
  | _ => false

/-- The task that the idle task is freeing. -/
def frees : Pc → Option TaskId
  | freeStack u | freeTcb u => some u
  | _ => none

/-- The memory of a task that is being created. -/
def memory : Pc → Option Nat × Option Nat
  | create _ (.task pc) | task pc => pc.memory
  | _ => (none, none)

end Pc

/-- The task whose join of the handle is in progress. -/
def Use.joiner : Use → Option TaskId
  | joining j => some j
  | _ => none

/-- The task whose detach of the handle is in progress. -/
def Use.detacher : Use → Option TaskId
  | detaching d => some d
  | _ => none

/-! ## The life of a thread -/

/-- The call has not got to its end. -/
def pending (frame : Option (Frame α)) : Bool :=
  match frame with
  | some f => match f.pc with
    | .leave _ => false
    | _ => true
  | none => false

/-- The take of a call has succeeded. -/
def succeeded (frame : Option (Frame α)) (ret : Option (Kernel.Ret α)) : Bool :=
  match frame with
  | some f => match f.pc with
    | .leave (.pass _) => true
    | _ => false
  | none => match ret with
    | some (.base true) => true
    | _ => false

def bodyOf (pc : Pc) (frame : Option (Frame α)) (selfFreed : Bool) : Body :=
  match pc with
  | .exit pc =>
      match pc with
      | .findThread _ => .finding
      | .retval _ _ => .storing
      | .detached _ => .testing
      | .removeThread _ => .unlinking
      | .readSem _ | .deleteSem _ _ => .deleting
      | .free _ => .freeing
      | .sem _ => .giving
      | .given _ => if pending frame then .giving else .gave
      | .taskDelete => if selfFreed then .freed else .gave
  | .dead => if selfFreed then .freed else .gave
  | _ => .running

def JoinPc.handle (pc : JoinPc) (success : Bool) : Handle :=
  match pc with
  | .sem => .waiting
  | .taken => if success then .reading else .waiting
  | .retval => .reading
  | .removeThread _ => .unlinking
  | .readSem _ | .deleteSem _ _ => .deleting
  | .free _ => .freeing

def Pc.handle (pc : Pc) (success : Bool) : Handle :=
  match pc with
  | .join _ _ pc => pc.handle success
  | _ => .waiting

def Pc.value : Pc → Option Ptr
  | .join _ _ pc => pc.value
  | _ => none

namespace Sys

variable (s : Sys α)

def body (h : ThreadId) : Body :=
  match (s.past h).task with
  | some u => bodyOf (s.pc u) (s.frame u) (s.past h).selfFreed
  | none => .running

def passed (h : ThreadId) : Option Ptr := (s.past h).task.bind fun u => (s.info u).exited

def handle (h : ThreadId) : Handle :=
  match (s.past h).use with
  | .unused => .unused
  | .joining j => (s.pc j).handle (succeeded (s.frame j) (s.kern.task j).ret)
  | .joined _ => .joined
  | .failed => .waiting
  | .detaching _ => .detaching
  | .detached => .detached

def out (h : ThreadId) : Option Ptr :=
  match (s.past h).use with
  | .joining j => (s.pc j).value
  | .joined value => value
  | _ => none

/-- The semaphore of the thread. -/
def sem (h : ThreadId) : Contents α :=
  match (s.desc h).joinSem with
  | some q => s.kern.view.queue q
  | none => Queue.none.contents

/-- The thread as its parties see it, with the nodes of the registry given. -/
def life (nodes : List ThreadId) (h : ThreadId) : Life where
  body := s.body h
  handle := s.handle h
  listed := h ∈ nodes
  semLive := (s.sem h).live
  descLive := (s.desc h).live
  detached := (s.desc h).detached
  count := (s.sem h).uxMessagesWaiting
  retval := (s.desc h).retval
  passed := s.passed h
  out := s.out h
  semFrees := (s.past h).semFrees
  descFrees := (s.past h).descFrees

/-- The thread has been created and put in the registry. -/
def Made (h : ThreadId) : Prop := h < s.nextThread ∧ (s.past h).creator = none

/-- The creator's variable holds the handle. -/
def Published (h : ThreadId) : Prop := (s.past h).handle = some h

/-! ## The invariant -/

/-- The kernel, and the windows in which a creator has suspended the scheduler. -/
structure Core : Prop where
  kernel : KernelInv s.kern
  calls : Calls s.kern.view fun _ _ => True
  window : ∀ c, (s.pc c).inWindow → s.kern.cpu = (1, c) ∧ s.frame c = none
  running : s.kern.cpu.1 ≠ 0 →
    (s.pc s.kern.cpu.2).inWindow ∨ (s.frame s.kern.cpu.2).isSome
  fault : s.fault = none ∨ s.fault = some .mallocFailed
  kernFault : ∀ q, s.kern.fault = some (.useAfterFree q) → s.semOwner q = none

/-- The tasks and the threads name each other. -/
structure Roles : Prop where
  creates : Lib.Paired (fun h => (s.past h).creator) fun c => (s.pc c).creates
  joins : Lib.Paired (fun h => (s.past h).use.joiner) fun j => (s.pc j).joins
  detaches : Lib.Paired (fun h => (s.past h).use.detacher) fun d => (s.pc d).detaches
  tasks : Lib.Paired (fun h => (s.past h).task) fun u => (s.info u).param
  own : ∀ u h, (s.pc u).own = some h → (s.info u).param = some h
  passes : ∀ u value, (s.pc u).passes = some value → (s.info u).exited = some value

/-- A deleted task keeps its memory until the idle task has freed it. -/
structure Tasks : Prop where
  unborn : ∀ u, s.kern.view.nextTask ≤ u → s.pc u = .app ∧ (s.info u).param = none
  waiting : ∀ u ∈ s.kern.view.xTasksWaitingTermination, s.pc u = .dead
  idle : (s.pc idleTask).idles ∧ (s.info idleTask).param = none
  frees : ∀ u w, (s.pc u).frees = some w →
    u = idleTask ∧ w < s.kern.view.nextTask ∧ s.pc w = .dead ∧
      w ∉ s.kern.view.xTasksWaitingTermination
  stack : ∀ u, (s.info u).stackLive ↔ u < s.kern.view.nextTask ∧ u ≠ idleTask ∧
    (s.pc u ≠ .dead ∨ u ∈ s.kern.view.xTasksWaitingTermination ∨ s.pc idleTask = .freeStack u)
  tcb : ∀ u, (s.info u).tcbLive ↔ u < s.kern.view.nextTask ∧ u ≠ idleTask ∧
    (s.pc u ≠ .dead ∨ u ∈ s.kern.view.xTasksWaitingTermination ∨ (s.pc idleTask).frees = some u)

/-- A call in progress is made by the application, or on the semaphore of a thread
by its joiner or by its own exit. -/
inductive InCall (t : TaskId) (f : Frame α) : Prop
  | app (hpc : s.pc t = .app) (howner : s.semOwner f.xQueue = none)
  | join (h : ThreadId) (retval : Bool) (hpc : s.pc t = .join h retval .taken)
      (hsem : (s.desc h).joinSem = some f.xQueue)
      (hapi : f.api = .xSemaphoreTake f.xQueue portMaxDelay)
  | exit (h : ThreadId) (hpc : s.pc t = .exit (.given h))
      (hsem : (s.desc h).joinSem = some f.xQueue) (hapi : f.api = .xSemaphoreGive f.xQueue)

/-- Every thread has a binary semaphore of its own. -/
structure Sems : Prop where
  calls : ∀ t f, s.frame t = some f → s.InCall t f
  /-- The take of `pthread_join` waits for ever, so it returns with the semaphore. -/
  returned : ∀ t h retval, s.pc t = .join h retval .taken → s.frame t = none →
    (s.kern.task t).ret = some (.base true)
  reads : ∀ t h q, (s.pc t).reads = some (h, q) → (s.desc h).joinSem = some q
  owner : ∀ h q, (s.desc h).joinSem = some q → s.semOwner q = some h
  maker : ∀ h q, s.semOwner q = some h →
    (s.desc h).joinSem = some q ∨ ∃ c, s.pc c = .create h (.joinSem q)
  binary : ∀ h q, s.semOwner q = some h → q < s.kern.view.nextQueue ∧
    (s.kern.view.queue q).uxLength = 1 ∧ (s.kern.view.queue q).uxItemSize = 0 ∧
    (s.kern.view.queue q).isMutex = false

/-- A semaphore that nobody has used. -/
def FreshSem (h : ThreadId) (q : QueueId) : Prop :=
  s.semOwner q = some h ∧ (s.kern.view.queue q).live ∧ (s.kern.view.queue q).uxMessagesWaiting = 0

/-- A thread that is not yet in the registry. -/
structure Building (h : ThreadId) (pc : CreatePc) : Prop where
  live : (s.desc h).live
  joinable : (s.desc h).detached = false
  sem : ∀ q, pc = .joinSem q → s.FreshSem h q
  hasSem : pc.hasSem → ∃ q, (s.desc h).joinSem = some q ∧ s.FreshSem h q
  noSem : pc.hasSem = false → (s.desc h).joinSem = none
  hasTask : pc.hasTask → ∃ u, (s.past h).task = some u ∧ s.pc u = .wrapper h ∧
    s.frame u = none ∧ (s.desc h).xTask = (s.info u).tcb
  noTask : pc.hasTask = false → (s.past h).task = none

/-- What holds of one thread. -/
structure ThreadOk (nodes : List ThreadId) (h : ThreadId) : Prop where
  unborn : s.nextThread ≤ h → (s.past h).creator = none ∧ (s.past h).task = none ∧
    (s.desc h).live = false ∧ (s.desc h).joinSem = none
  fresh : ¬ s.Made h → (s.past h).use = .unused ∧ (s.past h).handle = none ∧
    (s.past h).selfFreed = false ∧ (s.past h).descFrees = 0 ∧ (s.past h).semFrees = 0 ∧ h ∉ nodes
  building : ∀ c pc, s.pc c = .create h pc → pc.added = false → s.Building h pc
  life : s.Made h → (s.life nodes h).Ok
  sem : s.Made h → ∃ q, (s.desc h).joinSem = some q
  task : s.Made h → ∃ u, (s.past h).task = some u ∧ (s.desc h).xTask = (s.info u).tcb
  stored : s.Made h → s.Published h ∨ ∃ c, s.pc c = .create h .store
  storing : ∀ c, s.pc c = .create h .store → s.Made h
  notFailed : (s.past h).use ≠ .failed
  selfFreed : (s.past h).selfFreed → ∀ u, (s.past h).task = some u →
    s.pc u = .exit .taskDelete ∨ s.pc u = .dead

/-- The registry is a list in which a thread whose task is still allocated stands
before every other thread that has the same control block. -/
structure Registry (nodes : List ThreadId) : Prop where
  chain : Lib.Chain s.next s.gThreadList nodes
  order : nodes.Pairwise fun newer older => ∀ u, (s.past older).task = some u →
    (s.info u).tcbLive → (s.desc newer).xTask ≠ (s.info u).tcb
  untracked : ∀ u value, s.pc u = .exit (.findThread value) → (s.info u).param = none →
    ∀ h ∈ nodes, (s.desc h).xTask ≠ (s.info u).tcb

end Sys

/-- What can own memory. -/
inductive Owner
  | desc (h : ThreadId)
  | queue (q : QueueId)
  | stack (u : TaskId)
  | tcb (u : TaskId)
  /-- The memory of a task that is being created. -/
  | newStack (c : TaskId)
  | newTcb (c : TaskId)
  | block (pv : Nat)
  deriving DecidableEq

namespace Sys

variable (s : Sys α)

def owned : Owner → Option Nat
  | .desc h => if (s.desc h).live then some (s.desc h).addr else none
  | .queue q => if (s.kern.view.queue q).live then some (s.queueAddr q) else none
  | .stack u => if (s.info u).stackLive then some (s.info u).pxStack else none
  | .tcb u => if (s.info u).tcbLive then some (s.info u).tcb else none
  | .newStack c => (s.pc c).memory.1
  | .newTcb c => (s.pc c).memory.2
  | .block pv => if s.blocks pv then some pv else none

/-- The invariant. `base` is what was allocated before the start, and `low` and
`high` are the bounds of the heap. -/
structure Inv (base : Nat → Option Nat) (low high : Nat) (nodes : List ThreadId) : Prop where
  core : s.Core
  roles : s.Roles
  tasks : s.Tasks
  sems : s.Sems
  threads : ∀ h, s.ThreadOk nodes h
  registry : s.Registry nodes
  sound : Sound s.heap low high
  ledger : Lib.Ledger base s.heap.block s.owned

end Sys

/-! ## What the application promises -/

/-- A handle is passed to at most one join or detach, and the semaphores of the shim
are left to it. A task that was not made by `pthread_create` calls `pthread_exit` only
while no node of the registry has its address. -/
def Call.Proper (s : Sys α) (t : TaskId) : Call α → Prop
  | .pthreadJoin (some h) _ | .pthreadDetach (some h) => s.Published h ∧ (s.past h).use = .unused
  | .pthreadExit _ => (s.info t).param = none → s.findThread (s.info t).tcb = .ok none
  | .vTaskDelete => (s.info t).param = none
  | .blocking api => ∀ q, api.target = some q → q < s.kern.nextQueue ∧ s.semOwner q = none
  | .deleteQueue q => s.semOwner q = none
  | .vPortFree pv => s.blocks pv
  | _ => True

def Act.Proper (s : Sys α) : Act α → Prop
  | .call t c => c.Proper s t
  | _ => True

end SimulatedLinux.Thread
