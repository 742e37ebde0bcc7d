import SimulatedLinux.Thread.Reachable

/-! # `pthread_create` when memory runs out

The hook for a failed allocation does not return in this configuration. Here it does,
and `pthread_create` is run as one piece, with all of its error paths. Each of them gives
back what was allocated before, so the free list ends as it began.
-/

namespace SimulatedLinux.Thread

open Kernel Heap

variable {α : Type}

/-- What `pthread_create` returns, and what it leaves behind. -/
structure Created (α : Type) where
  ret : Int
  /-- `*thread`. -/
  thread : Option ThreadId
  sys : Sys α

namespace Sys

/-- `vPortFree`, or `none` where it asserts. -/
def free (s : Sys α) (pv : Nat) : Option (Sys α) :=
  (vPortFree s.heap pv).map fun heap => { s with heap := heap }

/-- `xSemaphoreCreateBinary`, or `none` for NULL. -/
def xSemaphoreCreateBinary (s : Sys α) (sizes : Sizes) : Option (QueueId × Sys α) :=
  (pvPortMalloc s.heap sizes.queue).map fun (pv, heap) =>
    (s.kern.nextQueue,
      { s with
        heap := heap
        kern := s.kern.addQueue Kernel.xSemaphoreCreateBinary
        queueAddr := Function.update s.queueAddr s.kern.nextQueue pv })

/-- `vSemaphoreDelete`. -/
def vSemaphoreDelete (s : Sys α) (sem : QueueId) : Option (Sys α) :=
  { s with kern := s.kern.vQueueDelete sem }.free (s.queueAddr sem)

/-- `xTaskCreate`: the task it made, if any. The stack is freed when there is no memory
for the control block. -/
def xTaskCreate (s : Sys α) (sizes : Sizes) (param : ThreadId) : Option (Option TaskId × Sys α) :=
  match pvPortMalloc s.heap threadStackBytes with
  | none => some (none, s)
  | some (pxStack, heap) =>
      match pvPortMalloc heap sizes.tcb with
      | none => ({ s with heap := heap }.free pxStack).map fun s => (none, s)
      | some (pxNewTCB, heap) =>
          some (some s.kern.nextTask,
            { s with
              heap := heap
              kern := s.kern.prvAddNewTaskToReadyList threadPriority
              info :=
                Function.update s.info s.kern.nextTask (newInfo pxStack pxNewTCB (some param)) })

/-- The clock ticks while the scheduler is suspended. -/
def ticks (s : Sys α) (count : Nat) :
    Sys α := { s with kern := State.xTaskIncrementTick^[count] s.kern }

def vTaskSuspendAll (s : Sys α) : Sys α := { s with kern := s.kern.vTaskSuspendAll }

def xTaskResumeAll (s : Sys α) : Sys α := { s with kern := s.kern.xTaskResumeAll }

/-- The fields that `pthread_create` fills in. -/
def initThread (s : Sys α) (t : ThreadId) (startRoutine arg : Ptr) : Sys α :=
  s.modDesc t fun D =>
    { D with startRoutine := startRoutine, arg := arg, retval := 0, detached := false }

/-- `pthread_create` from the suspension of the scheduler on. The descriptor `t` is at
`pv`, and `old` is the value of `*thread`; `count` ticks come before the task is made. -/
def spawnThread (s : Sys α) (sizes : Sizes) (t : ThreadId) (pv : Nat) (sem : QueueId)
    (old : Option ThreadId) (count : Nat) : Option (Created α) :=
  match (s.vTaskSuspendAll.ticks count).xTaskCreate sizes t with
  | none => none
  | some (none, s) =>
      (s.xTaskResumeAll.vSemaphoreDelete sem).bind fun s => (s.free pv).map fun s => ⟨-1, old, s⟩
  | some (some u, s) =>
      let s := s.modDesc t fun D => { D with xTask := (s.info u).tcb }
      some ⟨0, some t, (s.addThread t).xTaskResumeAll⟩

/-- `pthread_create`, called by task `c`, or `none` where an assertion fails. `thread` is
the old value of `*thread`, or `none` where the pointer is NULL. -/
def pthreadCreate (s : Sys α) (sizes : Sizes) (c : TaskId) (thread : Option (Option ThreadId))
    (startRoutine arg : Ptr) (count : Nat) : Option (Created α) :=
  match thread with
  | none => some ⟨-1, none, s⟩
  | some old =>
      if startRoutine = 0 then some ⟨-1, old, s⟩
      else
        match pvPortMalloc s.heap sizes.posixThread with
        | none => some ⟨-1, old, s⟩
        | some (pv, heap) =>
            let t := s.nextThread
            let s := ({ s with heap := heap }.newDesc pv c).initThread t startRoutine arg
            match s.xSemaphoreCreateBinary sizes with
            | none => (s.free pv).map fun s => ⟨-1, old, s⟩
            | some (sem, s) =>
                (s.modDesc t fun D => { D with joinSem := some sem }).spawnThread sizes t pv
                  sem old count

end Sys

/-! ## What an error path restores -/

section Undo

variable {heap heap₁ heap₂ : Heap4} {low high wanted pv : Nat}

/-- Whatever happened in between, a block that is given back leaves the heap as it was
before the allocation. -/
theorem free_undoes (hsound : Sound heap low high)
    (hmalloc : pvPortMalloc heap wanted = some (pv, heap₁)) (hsound₂ : Sound heap₂ low high)
    (hsame : heap₂.block = heap₁.block) :
    ∃ heap', vPortFree heap₂ pv = some heap' ∧ Sound heap' low high ∧ heap'.block = heap.block := by
  obtain ⟨-, hfresh, size, hblock⟩ := hsound.pvPortMalloc hmalloc
  have hused : heap₂.block pv = some size := by simp [hsame, hblock]
  obtain ⟨heap', hfree, hsound', hblock'⟩ := hsound₂.vPortFree hused
  refine ⟨heap', hfree, hsound', ?_⟩
  rw [hblock', hsame, hblock, Function.update_idem, ← hfresh, Function.update_eq_self]

end Undo

namespace Sys

/-- What a failed call leaves as it was. -/
structure Restored (s s' : Sys α) : Prop where
  gThreadList : s'.gThreadList = s.gThreadList
  /-- The descriptors that there are already, with their links, are unchanged. -/
  desc : ∀ h, h < s.nextThread → s'.desc h = s.desc h
  info : s'.info = s.info
  tasks : s'.kern.view.tasks = s.kern.view.tasks
  suspended : s'.kern.uxSchedulerSuspended = s.kern.uxSchedulerSuspended
  bytes : s'.heap.xFreeBytesRemaining = s.heap.xFreeBytesRemaining
  free : s'.heap.free = s.heap.free

variable {s s' : Sys α} {low high : Nat} {sizes : Sizes}

theorem Restored.refl (s : Sys α) : Restored s s :=
  ⟨rfl, fun _ _ => rfl, rfl, rfl, rfl, rfl, rfl⟩

theorem view_ticks (k : State α) (count : Nat) :
    (State.xTaskIncrementTick^[count] k).view = k.view := by
  induction count generalizing k with
  | zero => rfl
  | succ count ih => rw [Function.iterate_succ_apply, ih, State.view_xTaskIncrementTick]

theorem cpu_ticks (k : State α) (count : Nat) :
    (State.xTaskIncrementTick^[count] k).cpu = k.cpu := by
  induction count generalizing k with
  | zero => rfl
  | succ count ih => rw [Function.iterate_succ_apply, ih, State.cpu_xTaskIncrementTick]

theorem cpu_resumeAll (k : State α) : k.xTaskResumeAll.cpu = (k.cpu.1 - 1, k.cpu.2) := by
  have hready (tasks : List TaskId) (k : State α) :
      (tasks.foldl State.readyPended k).cpu = k.cpu := by
    induction tasks generalizing k with
    | nil => rfl
    | cons t rest ih =>
        rw [List.foldl_cons, ih]
        exact State.cpu_removeEventItem k t
  unfold State.xTaskResumeAll
  dsimp only
  split
  · exact (cpu_ticks _ _).trans (hready _ _)
  · rfl

/-- A task for which there is no memory leaves everything as it was. -/
theorem xTaskCreate_cases (hsound : Sound s.heap low high) (sizes : Sizes) (param : ThreadId) :
    (∃ u s', s.xTaskCreate sizes param = some (some u, s')) ∨
      ∃ heap, s.xTaskCreate sizes param = some (none, { s with heap := heap }) ∧
      Sound heap low high ∧
        heap.block = s.heap.block := by
  cases hstack : pvPortMalloc s.heap threadStackBytes with
  | none => exact .inr ⟨s.heap, by simp [xTaskCreate, hstack], hsound, rfl⟩
  | some result =>
      obtain ⟨pxStack, heap⟩ := result
      cases htcb : pvPortMalloc heap sizes.tcb with
      | some result => exact .inl ⟨_, _, by simp only [xTaskCreate, hstack, htcb]; rfl⟩
      | none =>
          have hsound' : Sound heap low high := (hsound.pvPortMalloc hstack).1
          obtain ⟨heap', hfree, hsound'', hblock⟩ := free_undoes hsound hstack hsound' rfl
          exact .inr ⟨heap', by simp [xTaskCreate, hstack, htcb, free, hfree], hsound'', hblock⟩

/-- The kernel after the error path behind the creation of the semaphore. -/
theorem kern_restored (k : State α) (sem : QueueId) (count : Nat) :
    ((State.xTaskIncrementTick^[count] k.vTaskSuspendAll).xTaskResumeAll.vQueueDelete
      sem).view.tasks = k.view.tasks ∧
      ((State.xTaskIncrementTick^[count] k.vTaskSuspendAll).xTaskResumeAll.vQueueDelete
        sem).uxSchedulerSuspended = k.uxSchedulerSuspended := by
  constructor
  · rw [State.vQueueDelete, State.view_modQueue, State.view_xTaskResumeAll, view_ticks,
      State.view_vTaskSuspendAll]
    rfl
  · have hcpu := cpu_resumeAll (State.xTaskIncrementTick^[count] k.vTaskSuspendAll)
    rw [cpu_ticks] at hcpu
    exact congrArg Prod.fst hcpu

/-- The semaphore and the descriptor are given back when there is no task. -/
theorem spawnThread_cases {s₀ : Sys α} (hsound : Sound s.heap low high) {t : ThreadId} {pv : Nat}
    {sem : QueueId}
    (hundo : ∀ heap, Sound heap low high → heap.block = s.heap.block → ∃ heap₁ heap₂,
      vPortFree heap (s.queueAddr sem) = some heap₁ ∧ vPortFree heap₁ pv = some heap₂ ∧
        heap₂.xFreeBytesRemaining = s₀.heap.xFreeBytesRemaining ∧ heap₂.free = s₀.heap.free)
    (hlist : s.gThreadList = s₀.gThreadList)
    (hdesc : ∀ h, h < s₀.nextThread → s.desc h = s₀.desc h) (hinfo : s.info = s₀.info)
    (htasks : s.kern.view.tasks = s₀.kern.view.tasks)
    (hsuspended : s.kern.uxSchedulerSuspended = s₀.kern.uxSchedulerSuspended)
    (old : Option ThreadId) (count : Nat) :
    ∃ r, s.spawnThread sizes t pv sem old count = some r ∧
      (r.ret = -1 → r.thread = old ∧ s₀.Restored r.sys) := by
  have hsound' : Sound (s.vTaskSuspendAll.ticks count).heap low high := hsound
  rcases xTaskCreate_cases hsound' sizes t with ⟨u, s', hcreated⟩ | ⟨heap, hfailed, hsound', hblock⟩
  · refine ⟨_, by simp only [spawnThread, hcreated]; rfl, fun hret => ?_⟩
    simp at hret
  · obtain ⟨heap₁, heap₂, hfree₁, hfree₂, hbytes, hfree⟩ := hundo heap hsound' hblock
    obtain ⟨htasks', hsuspended'⟩ := kern_restored s.kern sem count
    have haddr : (s.vTaskSuspendAll.ticks count).queueAddr sem = s.queueAddr sem := rfl
    have hrun : s.spawnThread sizes t pv sem old count = some ⟨-1, old, { s with
        heap := heap₂
        kern :=
          (State.xTaskIncrementTick^[count] s.kern.vTaskSuspendAll).xTaskResumeAll.vQueueDelete sem
            }⟩ := by
      simp only [spawnThread, hfailed, vSemaphoreDelete, xTaskResumeAll, Sys.free, haddr, hfree₁,
        hfree₂, Option.map_some, Option.bind_some]
      rfl
    exact ⟨_, hrun, fun _ => ⟨rfl, hlist, hdesc, hinfo, htasks'.trans htasks,
      hsuspended'.trans hsuspended, hbytes, hfree⟩⟩

end Sys

/-- `pthread_create` returns, and when it returns -1 it has changed nothing, whichever of
its four allocations failed. -/
theorem pthread_create_atomic {s : Sys α} {low high : Nat} (hsound : Sound s.heap low high)
    (sizes : Sizes) (c : TaskId) (thread : Option (Option ThreadId)) (startRoutine arg : Ptr)
    (count : Nat) :
    ∃ r, s.pthreadCreate sizes c thread startRoutine arg count = some r ∧
      (r.ret = -1 → r.thread = thread.join ∧ s.Restored r.sys) := by
  cases thread with
  | none => exact ⟨_, rfl, fun _ => ⟨rfl, .refl s⟩⟩
  | some old =>
  by_cases hroutine : startRoutine = 0
  · exact ⟨_, by simp only [Sys.pthreadCreate, if_pos hroutine]; rfl, fun _ => ⟨rfl, .refl s⟩⟩
  simp only [Sys.pthreadCreate, if_neg hroutine]
  cases hdesc : pvPortMalloc s.heap sizes.posixThread with
  | none => exact ⟨_, rfl, fun _ => ⟨rfl, .refl s⟩⟩
  | some result =>
  obtain ⟨pv, heap₁⟩ := result
  have hsound₁ : Sound heap₁ low high := (hsound.pvPortMalloc hdesc).1
  simp only [Sys.xSemaphoreCreateBinary, Sys.initThread, Sys.newDesc, Sys.modDesc]
  cases hsem : pvPortMalloc heap₁ sizes.queue with
  | none =>
      -- the descriptor is given back
      obtain ⟨heap, hfree, hsound', hblock⟩ := free_undoes hsound hdesc hsound₁ rfl
      obtain ⟨hlist, hbytes⟩ := hsound'.free_eq hsound hblock
      simp only [Option.map_none, Sys.free, hfree, Option.map_some]
      exact ⟨_, rfl, fun _ => ⟨rfl, rfl, fun h hh => by simp [Nat.ne_of_lt hh], rfl, rfl, rfl,
        hbytes, hlist⟩⟩
  | some result =>
      obtain ⟨pvSem, heap₂⟩ := result
      have hsound₂ : Sound heap₂ low high := (hsound₁.pvPortMalloc hsem).1
      simp only [Option.map_some]
      refine Sys.spawnThread_cases (by exact hsound₂) (fun heap hsound' hblock => ?_) (by rfl)
        (fun h hh => by simp [Nat.ne_of_lt hh]) (by rfl) (by rfl) (by rfl) old count
      obtain ⟨heap₃, hfree₃, hsound₃, hblock₃⟩ := free_undoes hsound₁ hsem hsound' hblock
      obtain ⟨heap₄, hfree₄, hsound₄, hblock₄⟩ := free_undoes hsound hdesc hsound₃ hblock₃
      obtain ⟨hlist, hbytes⟩ := hsound₄.free_eq hsound hblock₄
      exact ⟨heap₃, heap₄, by simpa using hfree₃, hfree₄, hbytes, hlist⟩

/-- A heap of 256 bytes, which has no room for a stack. -/
def smallHeap : Heap4 := prvHeapInit 0x20000000 256

theorem pthread_create_atomic_stack :
    ∃ (s : Sys Unit) (r : Created Unit), demoRun (fun _ _ => true) [] = some s ∧
    Sys.pthreadCreate { s with heap := smallHeap } demoSizes 1 (some none) 1 0 3 = some r ∧
      r.ret = -1 ∧
    r.thread = none ∧ Sys.Restored { s with heap := smallHeap } r.sys := by
  have hrun : ((demoRun (fun _ _ => true) []).bind fun s : Sys Unit =>
      (Sys.pthreadCreate { s with heap := smallHeap } demoSizes 1 (some none) 1 0 3).map
        Created.ret) = some (-1) := by
    decide +kernel
  obtain ⟨s, hs, hfails⟩ := Option.bind_eq_some_iff.mp hrun
  obtain ⟨r, hr, hret⟩ := Option.map_eq_some_iff.mp hfails
  obtain ⟨low, high, hsound⟩ : ∃ low high, Sound smallHeap low high := prvHeapInit_sound (by decide)
  have hsound' : Sound ({ s with heap := smallHeap } : Sys Unit).heap low high := hsound
  obtain ⟨r', hr', hrestored⟩ := pthread_create_atomic hsound' demoSizes 1 (some none) 1 0 3
  obtain rfl : r = r' := Option.some.inj (hr.symm.trans hr')
  exact ⟨s, r, hs, hr, hret, hrestored hret⟩

end SimulatedLinux.Thread
