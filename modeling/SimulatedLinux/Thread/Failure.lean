import SimulatedLinux.Heap.Client
import SimulatedLinux.Kernel.Mutex
import SimulatedLinux.Thread.Reachable

/-! # Failing calls in this configuration

The creation functions of the shim and of the lwIP layer promise an error value when
there is no memory or an argument is not acceptable, and unlocking a mutex promises one
to a task that does not hold it. Here the functions are run as this application
configures the kernel: the hook for a failed allocation loops for ever, and a failed
assertion stops the system.
-/

namespace SimulatedLinux.Thread

open Kernel Heap

/-- Where a call ends that does not return. -/
inductive Stop
  | vApplicationMallocFailedHook
  | vAssertCalled
  deriving DecidableEq, Repr

/-- Code that works on the heap, and may not come back. -/
abbrev Alloc := StateT Heap4 (Except Stop)

/-! ## Kernel functions -/

namespace Alloc

/-- `pvPortMalloc`: the hook is called before NULL can be returned. -/
def pvPortMalloc (xWantedSize : Nat) : Alloc Ptr := fun heap =>
  match Heap.pvPortMalloc heap xWantedSize with
  | some (pv, heap) => .ok (pv, heap)
  | none => .error .vApplicationMallocFailedHook

def vPortFree (pv : Ptr) : Alloc Unit := fun heap =>
  match Heap.vPortFree heap pv with
  | some heap => .ok ((), heap)
  | none => .error .vAssertCalled

def configAssert (condition : Bool) : Alloc Unit := fun heap =>
  if condition then .ok ((), heap) else .error .vAssertCalled

/-- `xQueueGenericCreate`: the handle, or NULL. -/
def xQueueGenericCreate (sizes : Sizes) (uxQueueLength uxItemSize : Nat) : Alloc Ptr :=
  if 0 < uxQueueLength ∧ uxItemSize ≤ sizeMax / uxQueueLength ∧
      uxQueueLength * uxItemSize ≤ sizeMax - sizes.queue then
    pvPortMalloc (sizes.queue + uxQueueLength * uxItemSize)
  else do
    configAssert false
    return 0

/-- `xQueueCreateMutex`. `prvInitialiseMutex` accepts NULL. -/
def xQueueCreateMutex (sizes : Sizes) : Alloc Ptr := xQueueGenericCreate sizes 1 0

def xSemaphoreCreateBinary (sizes : Sizes) : Alloc Ptr := xQueueGenericCreate sizes 1 0

def xQueueCreateCountingSemaphore (sizes : Sizes) (uxMaxCount uxInitialCount : Nat) : Alloc Ptr :=
  if uxMaxCount ≠ 0 ∧ uxInitialCount ≤ uxMaxCount then xQueueGenericCreate sizes uxMaxCount 0
  else do
    configAssert false
    return 0

/-- `prvCreateTask`: the control block, or NULL. The size of the stack is computed in a
`size_t`, and the priority is checked by `prvInitialiseNewTask`. -/
def prvCreateTask (sizes : Sizes) (uxStackDepth uxPriority : Nat) : Alloc Ptr := do
  let pxStack ← pvPortMalloc (uxStackDepth * 4 % (sizeMax + 1))
  if pxStack = 0 then
    return 0
  let pxNewTCB ← pvPortMalloc sizes.tcb
  if pxNewTCB = 0 then
    vPortFree pxStack
    return 0
  configAssert (uxPriority < configMaxPriorities)
  return pxNewTCB

/-! ## Entry points -/

/-- `pthread_create`. The flag says whether the pointer for the handle is not NULL. -/
def pthreadCreate (sizes : Sizes) (thread : Bool) (startRoutine : Ptr) : Alloc Int := do
  if thread = false ∨ startRoutine = 0 then
    return -1
  let t ← pvPortMalloc sizes.posixThread
  if t = 0 then
    return -1
  let joinSem ← xSemaphoreCreateBinary sizes
  if joinSem = 0 then
    vPortFree t
    return -1
  let xTask ← prvCreateTask sizes (threadStackBytes / 4) threadPriority
  if xTask = 0 then
    vPortFree joinSem
    vPortFree t
    return -1
  return 0

def pthreadMutexInit (sizes : Sizes) (mutex : Bool) : Alloc Int := do
  if mutex = false then
    return -1
  let xMutex ← xQueueCreateMutex sizes
  if xMutex = 0 then
    return -1
  return 0

def semInit (sizes : Sizes) (sem : Bool) (value : BitVec 32) : Alloc Int := do
  if sem = false then
    return -1
  let xSem ← xQueueCreateCountingSemaphore sizes 65535 value.toNat
  if xSem = 0 then
    return -1
  return 0

/-- `(*sem != NULL) ? ERR_OK : ERR_MEM`. -/
def errOf (handle : Ptr) : Int := if handle ≠ 0 then errOk else errMem

def sysSemNew (sizes : Sizes) (count : BitVec 8) : Alloc Int := do
  let sem ← xQueueCreateCountingSemaphore sizes 65535 count.toNat
  return errOf sem

def sysMutexNew (sizes : Sizes) : Alloc Int := do
  let mutex ← xQueueCreateMutex sizes
  return errOf mutex

/-- `sys_mbox_new`. The `int` becomes an unsigned length. -/
def sysMboxNew (sizes : Sizes) (size : BitVec 32) : Alloc Int := do
  let mbox ← xQueueGenericCreate sizes size.toNat 4
  return errOf mbox

/-- `sys_thread_new`: the handle of the task, or NULL. -/
def sysThreadNew (sizes : Sizes) (stacksize prio : BitVec 32) : Alloc Int := do
  let xCreatedTask ← prvCreateTask sizes stacksize.toNat prio.toNat
  return xCreatedTask

end Alloc

/-- A call of one of the creation functions, with the arguments that decide its result. -/
inductive Entry
  | pthreadCreate (thread : Bool) (startRoutine : Ptr)
  | pthreadMutexInit (mutex : Bool)
  | semInit (sem : Bool) (value : BitVec 32)
  | sysSemNew (count : BitVec 8)
  | sysMutexNew
  | sysMboxNew (size : BitVec 32)
  | sysThreadNew (stacksize prio : BitVec 32)

namespace Entry

def call (sizes : Sizes) : Entry → Alloc Int
  | pthreadCreate thread startRoutine => Alloc.pthreadCreate sizes thread startRoutine
  | pthreadMutexInit mutex => Alloc.pthreadMutexInit sizes mutex
  | semInit sem value => Alloc.semInit sizes sem value
  | sysSemNew count => Alloc.sysSemNew sizes count
  | sysMutexNew => Alloc.sysMutexNew sizes
  | sysMboxNew size => Alloc.sysMboxNew sizes size
  | sysThreadNew stacksize prio => Alloc.sysThreadNew sizes stacksize prio

/-! ## What the documentation promises -/

/-- The sizes of the objects the call makes, in order. -/
def requests (sizes : Sizes) : Entry → List Nat
  | pthreadCreate _ _ => [sizes.posixThread, sizes.queue, threadStackBytes, sizes.tcb]
  | pthreadMutexInit _ | semInit _ _ | sysSemNew _ | sysMutexNew => [sizes.queue]
  | sysMboxNew size => [sizes.queue + size.toNat * 4]
  | sysThreadNew stacksize _ => [stacksize.toNat * 4, sizes.tcb]

end Entry

/-- The heap has room for objects of these sizes, one after the other. -/
def provides : Heap4 → List Nat → Bool
  | _, [] => true
  | heap, size :: rest =>
      match Heap.pvPortMalloc heap size with
      | some (_, heap) => provides heap rest
      | none => false

namespace Alloc

/-- The code returns only such values. -/
def Returns {β : Type} (x : Alloc β) (good : β → Prop) : Prop :=
  ∀ heap r heap', x heap = .ok (r, heap') → good r

/-- The code makes these allocations. It returns such a value where the heap provides
them all, and ends in the hook otherwise. -/
def Answers {β : Type} (x : Alloc β) (requests : List Nat) (good : β → Prop) : Prop :=
  ∀ heap, if provides heap requests then ∃ r heap', x heap = .ok (r, heap') ∧ good r
    else x heap = .error .vApplicationMallocFailedHook

variable {β : Type} {good : β → Prop} {requests : List Nat} {n : Nat}

theorem Returns.pure {r : β} (hgood : good r) : Returns (Pure.pure r) good := by
  intro heap r' heap' hrun
  cases hrun
  exact hgood

theorem Answers.pure {r : β} (hgood : good r) : Answers (Pure.pure r) [] good := by
  intro heap
  exact ⟨r, heap, rfl, hgood⟩

theorem malloc_bind_some {heap heap' : Heap4} {pv : Nat} (f : Ptr → Alloc β)
    (hmalloc : Heap.pvPortMalloc heap n = some (pv, heap')) :
    (pvPortMalloc n >>= f) heap = f pv heap' := by
  simp [bind, StateT.bind, pvPortMalloc, hmalloc, Except.bind]

theorem malloc_bind_none {heap : Heap4} (f : Ptr → Alloc β)
    (hmalloc : Heap.pvPortMalloc heap n = none) :
    (pvPortMalloc n >>= f) heap = .error .vApplicationMallocFailedHook := by
  simp [bind, StateT.bind, pvPortMalloc, hmalloc, Except.bind]

theorem pvPortMalloc_pos {heap heap' : Heap4} {pv : Nat}
    (hmalloc : Heap.pvPortMalloc heap n = some (pv, heap')) :
    pv ≠ 0 := by
  obtain ⟨-, b, rest, -, rfl, -⟩ := pvPortMalloc_some hmalloc
  simp [xHeapStructSize]

/-- No pointer that is returned is NULL. -/
theorem Returns.malloc {f : Ptr → Alloc β} (hf : ∀ pv, pv ≠ 0 → Returns (f pv) good) :
    Returns (pvPortMalloc n >>= f) good := by
  intro heap r heap' hrun
  cases hmalloc : Heap.pvPortMalloc heap n with
  | none => simp [malloc_bind_none f hmalloc] at hrun
  | some result =>
      rw [malloc_bind_some f hmalloc] at hrun
      exact hf _ (pvPortMalloc_pos hmalloc) _ _ _ hrun

theorem Answers.malloc {f : Ptr → Alloc β} (hf : ∀ pv, pv ≠ 0 → Answers (f pv) requests good) :
    Answers (pvPortMalloc n >>= f) (n :: requests) good := by
  intro heap
  cases hmalloc : Heap.pvPortMalloc heap n with
  | none => simpa [provides, hmalloc] using malloc_bind_none f hmalloc
  | some result =>
      simp only [provides, hmalloc, malloc_bind_some f hmalloc]
      exact hf _ (pvPortMalloc_pos hmalloc) _

theorem Returns.assert {f : Unit → Alloc β} {condition : Bool}
    (hf : condition → Returns (f ()) good) :
    Returns (configAssert condition >>= f) good := by
  intro heap r heap' hrun
  cases condition with
  | false => simp [bind, StateT.bind, configAssert, Except.bind] at hrun
  | true => exact hf rfl _ _ _ hrun

theorem assert_bind_true {f : Unit → Alloc β} {condition : Bool} (hcondition : condition) :
    configAssert condition >>= f = f () := by
  subst hcondition
  rfl

theorem Returns.fails {f : Unit → Alloc β} : Returns (configAssert false >>= f) good :=
  .assert (by simp)

variable {sizes : Sizes}

/-- Whatever is asked for, a queue that is returned exists. -/
theorem Returns.queue {f : Ptr → Alloc β} (hf : ∀ pv, pv ≠ 0 → Returns (f pv) good)
    (uxQueueLength uxItemSize : Nat) :
    Returns (xQueueGenericCreate sizes uxQueueLength uxItemSize >>= f) good := by
  unfold xQueueGenericCreate
  split
  · exact .malloc hf
  · rw [bind_assoc]
    exact .fails

theorem Returns.counting {f : Ptr → Alloc β} (hf : ∀ pv, pv ≠ 0 → Returns (f pv) good)
    (uxMaxCount uxInitialCount : Nat) :
    Returns (xQueueCreateCountingSemaphore sizes uxMaxCount uxInitialCount >>= f) good := by
  unfold xQueueCreateCountingSemaphore
  split
  · exact .queue hf _ _
  · rw [bind_assoc]
    exact .fails

theorem Returns.task {f : Ptr → Alloc β} (hf : ∀ pv, pv ≠ 0 → Returns (f pv) good)
    (uxStackDepth uxPriority : Nat) :
    Returns (prvCreateTask sizes uxStackDepth uxPriority >>= f) good := by
  simp only [prvCreateTask, bind_assoc]
  refine .malloc fun pxStack hstack => ?_
  simp only [if_neg hstack, bind_assoc]
  refine .malloc fun pxNewTCB htcb => ?_
  simp only [if_neg htcb, bind_assoc]
  refine .assert fun _ => ?_
  simpa using hf pxNewTCB htcb

theorem Answers.task {f : Ptr → Alloc β} (hf : ∀ pv, pv ≠ 0 → Answers (f pv) requests good)
    {uxStackDepth uxPriority : Nat} (hdepth : uxStackDepth * 4 ≤ sizeMax)
    (hpriority : uxPriority < configMaxPriorities) :
    Answers (prvCreateTask sizes uxStackDepth uxPriority >>= f)
      (uxStackDepth * 4 :: sizes.tcb :: requests) good := by
  simp only [prvCreateTask, bind_assoc, Nat.mod_eq_of_lt (Nat.lt_succ_of_le hdepth)]
  refine .malloc fun pxStack hstack => ?_
  simp only [if_neg hstack, bind_assoc]
  refine .malloc fun pxNewTCB htcb => ?_
  simp only [if_neg htcb, assert_bind_true (decide_eq_true hpriority)]
  simpa using hf pxNewTCB htcb

end Alloc

namespace Entry

open Alloc

variable {sizes : Sizes} {e : Entry}

end Entry

/-! ## Unlocking a mutex that is not held -/

variable {α : Type}

/-- A mutex that has not been destroyed, with the count that belongs to its holder. -/
structure Mutex (Q : Queue α) : Prop where
  live : Q.live
  isMutex : Q.isMutex
  uxLength : Q.uxLength = 1
  uxItemSize : Q.uxItemSize = 0
  count : Q.uxMessagesWaiting =
    match Q.xMutexHolder with
    | some _ => 0
    | none => 1

section Unlock

variable {k : State α} {t : TaskId} {q : QueueId}

/-- Every mutex of a run is one of these. -/
theorem Mutex.of_inv (hinv : MutexInv k.view) (hlive : (k.queue q).live)
    (hmutex : (k.queue q).isMutex) :
    Mutex (k.queue q) :=
  ⟨hlive, hmutex, (hinv.shape q hmutex).1, (hinv.shape q hmutex).2, hinv.count q hmutex⟩

theorem step_run {frame : Frame α} (hrun : k.canRun t) (hframe : (k.task t).frame = some frame) :
    k.step (.run t) = some ((k.switchTo t).runFrame t frame) := by
  simp [State.step, Act.actor, hrun, hframe]

/-- The task may run, and is in its call of `pthread_mutex_unlock` for a mutex that is as
it was before. -/
structure Unlocking (k₀ k : State α) (t : TaskId) (q : QueueId) (pc : Kernel.Pc α) : Prop where
  canRun : k.canRun t
  frame : ∃ startTick, (k.task t).frame = some
    ⟨.pthreadMutexUnlock (some q), .genericSend none, q, 0, none, startTick, pc⟩
  queue : k.queue q = k₀.queue q

theorem canRun_of {k' : State α} (hrun : k.canRun t) (hfault : k'.fault = k.fault)
    (hsuspended : k'.uxSchedulerSuspended = k.uxSchedulerSuspended) (hcurrent : k'.pxCurrentTCB = t)
    (hstate : (k'.task t).xStateList = (k.task t).xStateList) : k'.canRun t := by
  simp only [State.canRun, Bool.and_eq_true, Option.isNone_iff_eq_none, hfault, hsuspended,
    hcurrent, hstate] at hrun ⊢
  refine ⟨hrun.1, ?_⟩
  have hready := hrun.2
  split
  next hzero =>
    rw [if_pos hzero] at hready
    exact hready
  next => simp

/-- The task and the queue after its frame has been replaced. -/
theorem Unlocking.setFrame {k₀ : State α} {frame : Frame α} (hrun : k.canRun t)
    (hqueue : k.queue q = k₀.queue q) {startTick : Nat} {pc : Kernel.Pc α}
    (hframe : frame =
      ⟨.pthreadMutexUnlock (some q), .genericSend none, q, 0, none, startTick, pc⟩) :
    Unlocking k₀ ((k.switchTo t).setFrame t frame) t q pc := by
  refine ⟨canRun_of hrun rfl rfl rfl ?_, ⟨startTick, ?_⟩, hqueue⟩
  · simp [State.setFrame, State.modTask, State.switchTo]
  · simp [State.setFrame, State.modTask, hframe]

end Unlock

end SimulatedLinux.Thread
