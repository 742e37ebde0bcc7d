import SimulatedLinux.Heap.Client
import SimulatedLinux.Thread.Effect
import SimulatedLinux.Thread.Reachable

/-! # The memory that a step changes

A step makes at most one call of the allocator, and only the objects it is about gain
or lose memory.
-/

namespace SimulatedLinux.Thread

open Kernel Heap

variable {α : Type}

/-- At most one call of the allocator. -/
inductive HeapStep (heap : Heap4) : Heap4 → Prop
  | same : HeapStep heap heap
  | malloc (size pv : Nat) {heap' : Heap4} (h : pvPortMalloc heap size = some (pv, heap')) :
      HeapStep heap heap'
  | free (pv : Nat) {heap' : Heap4} (h : vPortFree heap pv = some heap') : HeapStep heap heap'

/-- A block that stays allocated keeps its size. -/
theorem HeapStep.block_eq {heap heap' : Heap4} {low high : Nat} (hheap : HeapStep heap heap')
    (hsound : Sound heap low high) {a : Nat} (hbefore : (heap.block a).isSome)
    (hafter : (heap'.block a).isSome) :
    heap'.block a = heap.block a := by
  cases hheap with
  | same => rfl
  | malloc size pv hmalloc =>
      obtain ⟨-, hfree, n, hblock⟩ := hsound.pvPortMalloc hmalloc
      have hne : a ≠ pv := by
        rintro rfl
        simp [hfree] at hbefore
      rw [hblock, Function.update_of_ne hne]
  | free pv hfree =>
      unfold Heap.vPortFree at hfree
      split at hfree
      · obtain ⟨n, -, rfl⟩ := Option.map_eq_some_iff.mp hfree
        rw [block_update (h := heap) rfl] at hafter ⊢
        by_cases ha : a = pv - xHeapStructSize + xHeapStructSize
        · simp [ha] at hafter
        · rw [Function.update_of_ne ha]
      · cases hfree
        rfl

/-- The objects whose memory a step from this program point of task `t` may change. -/
def Pc.footprint (nextThread : ThreadId) (nextQueue : QueueId) (nextTask t : TaskId) (pc : Pc) :
    Owner → Prop
  | .desc h => match pc with
    | createMalloc _ _ => h = nextThread
    | join i _ (.free _) | exit (.free i) => h = i
    | _ => False
  | .queue q => match pc with
    | create _ .semaphore => q = nextQueue
    | join _ _ (.deleteSem _ sem) | exit (.deleteSem _ sem) => q = sem
    | _ => False
  | .stack u | .tcb u => match pc with
    | create _ (.task (.start _ _ _)) | task (.start _ _ _) => u = nextTask
    | freeStack w | freeTcb w => u = w
    | _ => False
  | .newStack c | .newTcb c => c = t ∨ c = nextTask
  | .block _ => False

/-- The objects whose memory a call may change. -/
def Call.footprint (nextQueue : QueueId) (t : TaskId) (c : Call α) : Owner → Prop
  | .queue q => match c with
    | newQueue _ => q = nextQueue
    | deleteQueue q' => q = q'
    | _ => False
  | .block pv => match c with
    | pvPortMalloc _ => True
    | vPortFree pv' => pv = pv'
    | _ => False
  | .newStack c | .newTcb c => c = t
  | _ => False

/-- The objects whose memory a step may change. -/
def Act.footprint (s : Sys α) : Act α → Owner → Prop
  | .tick, _ => False
  | .call t c, o => c.footprint s.kern.nextQueue t o
  | .run t, o =>
      s.frame t = none ∧ (s.pc t).footprint s.nextThread s.kern.nextQueue s.kern.nextTask t o

namespace Sys

variable {s s' s'' : Sys α} {t : TaskId} {sizes : Sizes} {act : Act α} {P : Owner → Prop}
  {n : QueueId}

/-- Only objects of `P` gain or lose memory, and only queues from `n` on are given to a
thread. -/
structure Keeps (n : QueueId) (P : Owner → Prop) (s s' : Sys α) : Prop where
  owned : ∀ o, ¬ P o → s'.owned o = s.owned o
  semOwner : ∀ q, q < n → s'.semOwner q = s.semOwner q
  nextThread : s.nextThread ≤ s'.nextThread

namespace Keeps

theorem trans (hfirst : Keeps n P s s') (hsecond : Keeps n P s' s'') : Keeps n P s s'' :=
  ⟨fun o ho => (hsecond.owned o ho).trans (hfirst.owned o ho),
    fun q hq => (hsecond.semOwner q hq).trans (hfirst.semOwner q hq),
    Nat.le_trans hfirst.nextThread hsecond.nextThread⟩

theorem modInfo (hstack : P (.newStack t)) (htcb : P (.newTcb t)) {f : Info → Info}
    (hf : ∀ I, (f I).tcb = I.tcb ∧ (f I).pxStack = I.pxStack ∧ (f I).stackLive = I.stackLive ∧
      (f I).tcbLive = I.tcbLive) : Keeps n P s (s.modInfo t f) := by
  refine ⟨fun o ho => ?_, fun _ _ => rfl, Nat.le_refl _⟩
  obtain ⟨h₁, h₂, h₃, h₄⟩ := hf (s.info t)
  cases o with
  | stack u => by_cases hu : u = t <;> simp [Sys.owned, Sys.modInfo, hu, h₂, h₃]
  | tcb u => by_cases hu : u = t <;> simp [Sys.owned, Sys.modInfo, hu, h₁, h₄]
  | newStack c =>
      have hne : c ≠ t := fun heq => ho (heq ▸ hstack)
      simp [Sys.owned, Sys.pc, Sys.modInfo, hne]
  | newTcb c =>
      have hne : c ≠ t := fun heq => ho (heq ▸ htcb)
      simp [Sys.owned, Sys.pc, Sys.modInfo, hne]
  | _ => rfl

theorem goto (hstack : P (.newStack t)) (htcb : P (.newTcb t)) (pc : Pc) :
    Keeps n P s (s.goto t pc) :=
  modInfo hstack htcb fun _ => ⟨rfl, rfl, rfl, rfl⟩

theorem returns (hstack : P (.newStack t)) (htcb : P (.newTcb t)) (ret : Ret) :
    Keeps n P s (s.returns t ret) :=
  modInfo hstack htcb fun _ => ⟨rfl, rfl, rfl, rfl⟩

theorem setHeap (heap : Heap4) : Keeps n P s { s with heap := heap } :=
  ⟨fun o _ => by cases o <;> rfl, fun _ _ => rfl, Nat.le_refl _⟩

theorem modPast (i : ThreadId) (f : Past → Past) : Keeps n P s (s.modPast i f) :=
  ⟨fun o _ => by cases o <;> rfl, fun _ _ => rfl, Nat.le_refl _⟩

theorem setLinks (head : Option ThreadId) (links : ThreadId → Option ThreadId) :
    Keeps n P s (s.setLinks head links) :=
  ⟨fun o _ => by cases o <;> rfl, fun _ _ => rfl, Nat.le_refl _⟩

theorem modDesc {i : ThreadId} {f : PosixThread → PosixThread}
    (hf : P (.desc i) ∨ ∀ D, (f D).live = D.live ∧ (f D).addr = D.addr) :
    Keeps n P s (s.modDesc i f) := by
  refine ⟨fun o ho => ?_, fun _ _ => rfl, Nat.le_refl _⟩
  cases o with
  | desc h =>
      by_cases hh : h = i
      · subst hh
        rcases hf with hP | hf
        · exact absurd hP ho
        · simp [Sys.owned, Sys.modDesc, hf]
      · simp [Sys.owned, Sys.modDesc, hh]
  | _ => rfl

theorem kern {k : State α} (hlive : ∀ q, ¬ P (.queue q) →
    (k.view.queue q).live = (s.kern.view.queue q).live) : Keeps n P s { s with kern := k } := by
  refine ⟨fun o ho => ?_, fun _ _ => rfl, Nat.le_refl _⟩
  cases o with
  | queue q => simp [Sys.owned, hlive q ho]
  | _ => rfl

theorem addThread (i : ThreadId) : Keeps n P s (s.addThread i) := by
  refine ⟨fun o _ => ?_, fun _ _ => rfl, Nat.le_refl _⟩
  cases o with
  | desc h => by_cases hh : h = i <;> simp [Sys.owned, Sys.addThread, Sys.modDesc, hh]
  | _ => rfl

/-- The queue `q` gets its address. -/
theorem setQueueAddr {q : QueueId} (hq : P (.queue q)) (hn : n ≤ q) (pv : Nat)
    (h : Option ThreadId) :
    Keeps n P s
      { s with
        queueAddr := Function.update s.queueAddr q pv
        semOwner := Function.update s.semOwner q h } := by
  have hne : ∀ q', ¬ P (.queue q') → q' ≠ q := fun q' hq' heq => hq' (heq ▸ hq)
  refine ⟨fun o ho => ?_, fun q' hq' =>
      Function.update_of_ne (Nat.ne_of_lt (Nat.lt_of_lt_of_le hq' hn)) ..,
    Nat.le_refl _⟩
  cases o with
  | queue q' => simp [Sys.owned, hne q' ho]
  | _ => rfl

theorem setAddr {q : QueueId} (hq : P (.queue q)) (pv : Nat) :
    Keeps n P s { s with queueAddr := Function.update s.queueAddr q pv } := by
  refine ⟨fun o ho => ?_, fun _ _ => rfl, Nat.le_refl _⟩
  cases o with
  | queue q' =>
      have hne : q' ≠ q := fun heq => ho (heq ▸ hq)
      simp [Sys.owned, hne]
  | _ => rfl

theorem setBlock {pv : Nat} (hpv : P (.block pv)) (value : Bool) :
    Keeps n P s { s with blocks := Function.update s.blocks pv value } := by
  refine ⟨fun o ho => ?_, fun _ _ => rfl, Nat.le_refl _⟩
  cases o with
  | block a =>
      have hne : a ≠ pv := fun heq => ho (heq ▸ hpv)
      simp [Sys.owned, hne]
  | _ => rfl

theorem newDesc (hdesc : P (.desc s.nextThread)) (addr : Nat) (c : TaskId) :
    Keeps n P s (s.newDesc addr c) := by
  refine ⟨fun o ho => ?_, fun _ _ => rfl, Nat.le_succ _⟩
  cases o with
  | desc h =>
      have hne : h ≠ s.nextThread := fun heq => ho (heq ▸ hdesc)
      simp [Sys.owned, Sys.newDesc, hne]
  | _ => rfl

/-- The idle task has freed a part of the task `u`. -/
theorem freeInfo {u : TaskId} (hstack : P (.stack u)) (htcb : P (.tcb u)) {f : Info → Info}
    (hf : ∀ I, (f I).pc = I.pc) : Keeps n P s (s.modInfo u f) := by
  refine ⟨fun o ho => ?_, fun _ _ => rfl, Nat.le_refl _⟩
  cases o with
  | stack w =>
      have hne : w ≠ u := fun heq => ho (heq ▸ hstack)
      simp [Sys.owned, Sys.modInfo, hne]
  | tcb w =>
      have hne : w ≠ u := fun heq => ho (heq ▸ htcb)
      simp [Sys.owned, Sys.modInfo, hne]
  | newStack c | newTcb c => by_cases hc : c = u <;> simp [Sys.owned, Sys.pc, Sys.modInfo, hc, hf]
  | _ => rfl

/-- The task `u` is new. -/
theorem newInfo {u : TaskId} (hnew : ∀ o ∈ [Owner.stack u, .tcb u, .newStack u, .newTcb u], P o)
    (I : Info) : Keeps n P s { s with info := Function.update s.info u I } := by
  have hne : ∀ w, w ≠ u → Function.update s.info u I w = s.info w :=
    fun w hw => Function.update_of_ne hw ..
  refine ⟨fun o ho => ?_, fun _ _ => rfl, Nat.le_refl _⟩
  have ho' : o ∉ [Owner.stack u, .tcb u, .newStack u, .newTcb u] := fun hmem => ho (hnew o hmem)
  simp only [List.mem_cons, List.not_mem_nil, or_false, not_or] at ho'
  cases o with
  | stack w | tcb w | newStack w | newTcb w =>
      have hw : w ≠ u := fun heq => by simp [heq] at ho'
      simp only [Sys.owned, Sys.pc, hne w hw]
  | _ => rfl

end Keeps

/-- A step with at most one call of the allocator that is about objects of `P`. -/
structure Footprint (n : QueueId) (P : Owner → Prop) (s s' : Sys α) : Prop where
  heap : HeapStep s.heap s'.heap
  keeps : Keeps n P s s'

namespace Footprint

theorem ofKeeps (hkeeps : Keeps n P s s') (hheap : s'.heap = s.heap) : Footprint n P s s' :=
  ⟨hheap ▸ .same, hkeeps⟩

/-- Something that leaves the heap alone comes first. -/
theorem after (hkeeps : Keeps n P s s') (hheap : s'.heap = s.heap) (hnext : Footprint n P s' s'') :
    Footprint n P s s'' :=
  ⟨hheap ▸ hnext.heap, hkeeps.trans hnext.keeps⟩

theorem halt (s : Sys α) (fault : Fault) : Footprint n P s (s.halt fault) :=
  ⟨.same, ⟨fun o _ => by cases o <;> rfl, fun _ _ => rfl, Nat.le_refl _⟩⟩

theorem touch {i : ThreadId} {next : Sys α} (hnext : Footprint n P s next) :
    Footprint n P s (s.touch i next) :=
  touch_elim (fun fault => halt s fault) hnext

theorem alloc {size : Nat} {next : Nat → Sys α → Sys α}
    (hkeeps : ∀ pv heap, Keeps n P s (next pv { s with heap := heap }))
    (hheap : ∀ pv heap, (next pv { s with heap := heap }).heap = heap) :
    Footprint n P s (s.alloc size next) := by
  unfold Sys.alloc
  split
  next pv heap hmalloc => exact ⟨.malloc size pv (by rw [hheap]; exact hmalloc), hkeeps pv heap⟩
  next => exact halt s _

theorem release {pv : Nat} {next : Sys α → Sys α}
    (hkeeps : ∀ heap, Keeps n P s (next { s with heap := heap }))
    (hheap : ∀ heap, (next { s with heap := heap }).heap = heap) :
    Footprint n P s (s.release pv next) := by
  unfold Sys.release
  split
  next heap hfree => exact ⟨.free pv (by rw [hheap]; exact hfree), hkeeps heap⟩
  next => exact halt s _

theorem removeThread {i : ThreadId} {next : Sys α → Sys α}
    (hnext : ∀ head links, Footprint n P s (next (s.setLinks head links))) :
    Footprint n P s (s.removeThread i next) :=
  removeThread_elim (fun fault => halt s fault) hnext

theorem readSem {i : ThreadId} {next : QueueId → Option (Sys α)}
    (hnext : ∀ q s', next q = some s' → Footprint n P s s') (hstep : s.readSem i next = some s') :
    Footprint n P s s' :=
  readSem_elim (motive := fun s' => Footprint n P s s') (fun fault => halt s fault) hnext hstep

theorem kernel {a : Kernel.Act α} {next : Sys α → Sys α}
    (hremakes : ∀ q, a.remakes s.kern.nextQueue = some q → P (.queue q))
    (hnext : ∀ k, Keeps n P s { s with kern := k } → Footprint n P s (next { s with kern := k }))
    (hstep : s.kernel a next = some s') : Footprint n P s s' := by
  obtain ⟨k, hk, hs'⟩ := kernel_cases hstep
  have hkeeps : Keeps n P s { s with kern := k } :=
    .kern fun q hq => (State.stepped_step hk).live fun heq => hq (hremakes q heq)
  rcases hs' with ⟨-, rfl⟩ | ⟨-, rfl⟩
  · exact hnext k hkeeps
  · exact .ofKeeps hkeeps rfl

theorem walkFault (s : Sys α) (fault : Lib.WalkFault ThreadId) :
    Footprint n P s (s.walkFault fault) := by
  cases fault <;> exact halt s _

/-- An allocation, a kernel call for the new object, and the code after them. -/
theorem allocKernel {a : Kernel.Act α} {next : Sys α → Sys α} {size pv : Nat} {heap : Heap4}
    (hmalloc : pvPortMalloc s.heap size = some (pv, heap))
    (hremakes : ∀ q, a.remakes s.kern.nextQueue = some q → P (.queue q))
    (hnext : ∀ k, Keeps n P s { s with heap := heap, kern := k } →
      Keeps n P s (next { s with heap := heap, kern := k }))
    (hheap : ∀ s : Sys α, (next s).heap = s.heap)
    (hstep : Sys.kernel { s with heap := heap } a next = some s') : Footprint n P s s' := by
  obtain ⟨k, hk, hs'⟩ := kernel_cases hstep
  have hkeeps : Keeps n P s { s with heap := heap, kern := k } :=
    Keeps.trans (.setHeap heap) (.kern fun q hq =>
      (State.stepped_step hk).live fun heq => hq (hremakes q heq))
  rcases hs' with ⟨-, rfl⟩ | ⟨-, rfl⟩
  · exact ⟨.malloc size pv (by rw [hheap]; exact hmalloc), hnext k hkeeps⟩
  · exact ⟨.malloc size pv hmalloc, hkeeps⟩

end Footprint

section Steps

variable (hstack : P (.newStack t)) (htcb : P (.newTcb t))
include hstack htcb

theorem deleteSem_footprint {i : ThreadId} {q : QueueId} {pc : Pc} (hqueue : P (.queue q))
    (hstep : s.deleteSem t i q pc = some s') : Footprint n P s s' := by
  unfold Sys.deleteSem at hstep
  refine .kernel (fun q' hq' => ?_) (fun k hk => .after hk rfl ?_) hstep
  · cases hq'
    exact hqueue
  · refine .release (fun heap => ?_) fun _ => rfl
    exact (Keeps.trans (.setHeap heap) (.modPast i _)).trans (.goto hstack htcb pc)

omit hstack htcb in
theorem freeDesc_footprint {i : ThreadId} {next : Sys α → Sys α} (hdesc : P (.desc i))
    (hnext : ∀ s : Sys α, Keeps n P s (next s)) (hheap : ∀ s : Sys α, (next s).heap = s.heap) :
    Footprint n P s (s.freeDesc i next) := by
  refine .touch (.release (fun heap => ?_) fun _ => hheap _)
  exact ((Keeps.trans (.setHeap heap) (.modDesc (.inl hdesc))).trans (.modPast i _)).trans (hnext _)

/-- A step of `pthread_join`. -/
theorem join_footprint {i : ThreadId} {retval : Bool} {pc : JoinPc}
    (hdesc : ∀ value, pc = .free value → P (.desc i))
    (hqueue : ∀ value q, pc = .deleteSem value q → P (.queue q))
    (hstep : s.join t i retval pc = some s') : Footprint n P s s' := by
  cases pc with
  | sem =>
      refine .readSem (fun q s' => .kernel (by simp [Kernel.Act.remakes]) fun k hk => ?_) hstep
      exact .ofKeeps (hk.trans (.goto hstack htcb _)) rfl
  | taken =>
      simp only [join] at hstep
      split at hstep <;> cases hstep
      · exact .ofKeeps (.goto hstack htcb _) rfl
      · exact .ofKeeps (Keeps.trans (.modPast i _) (.returns hstack htcb _)) rfl
  | retval =>
      simp only [join] at hstep
      split at hstep <;> cases hstep
      · exact .touch (.ofKeeps (.goto hstack htcb _) rfl)
      · exact .ofKeeps (.goto hstack htcb _) rfl
  | removeThread value =>
      cases hstep
      refine .removeThread fun head links => .ofKeeps ?_ rfl
      exact Keeps.trans (.setLinks head links) (.goto hstack htcb _)
  | readSem value =>
      refine .readSem (fun q s' hs' => ?_) hstep
      cases hs'
      exact .ofKeeps (.goto hstack htcb _) rfl
  | deleteSem value q => exact deleteSem_footprint hstack htcb (hqueue value q rfl) hstep
  | free value =>
      cases hstep
      refine freeDesc_footprint (hdesc value rfl) (fun s => ?_) fun _ => rfl
      exact Keeps.trans (.modPast i _) (.returns hstack htcb _)

/-- A step of `pthread_exit`. -/
theorem exit_footprint {pc : ExitPc} (hdesc : ∀ i, pc = .free i → P (.desc i))
    (hqueue : ∀ i q, pc = .deleteSem i q → P (.queue q)) (hstep : s.exit t pc = some s') :
    Footprint n P s s' := by
  cases pc with
  | findThread value =>
      simp only [exit] at hstep
      split at hstep <;> cases hstep
      · exact .ofKeeps (.goto hstack htcb _) rfl
      · exact .ofKeeps (.goto hstack htcb _) rfl
      · exact .walkFault s _
  | retval i value =>
      cases hstep
      exact .touch (.ofKeeps (Keeps.trans (.modDesc (.inr (by simp))) (.goto hstack htcb _)) rfl)
  | detached i =>
      cases hstep
      exact .touch (.ofKeeps (.goto hstack htcb _) rfl)
  | removeThread i =>
      cases hstep
      refine .removeThread fun head links => .ofKeeps ?_ rfl
      exact Keeps.trans (.setLinks head links) (.goto hstack htcb _)
  | readSem i =>
      refine .readSem (fun q s' hs' => ?_) hstep
      cases hs'
      exact .ofKeeps (.goto hstack htcb _) rfl
  | deleteSem i q => exact deleteSem_footprint hstack htcb (hqueue i q rfl) hstep
  | free i =>
      cases hstep
      refine freeDesc_footprint (hdesc i rfl) (fun s => ?_) fun _ => rfl
      exact Keeps.trans (.modPast i _) (.goto hstack htcb _)
  | sem i =>
      refine .readSem (fun q s' => .kernel (by simp [Kernel.Act.remakes]) fun k hk => ?_) hstep
      exact .ofKeeps (hk.trans (.goto hstack htcb _)) rfl
  | given i =>
      cases hstep
      exact .ofKeeps (.goto hstack htcb _) rfl
  | taskDelete =>
      simp only [exit] at hstep
      refine .kernel (by simp [Kernel.Act.remakes]) (fun k hk => ?_) hstep
      exact .ofKeeps (hk.trans (.goto hstack htcb _)) rfl

/-- A step of `xTaskCreate`. -/
theorem createTask_footprint {param : Option ThreadId} {at' : TaskPc → Pc} {done : Sys α → Sys α}
    {pc : TaskPc} (hnew : ∀ uxPriority pxStack pxNewTCB, pc = .start uxPriority pxStack pxNewTCB →
      ∀ o ∈ [Owner.stack s.kern.nextTask, .tcb s.kern.nextTask, .newStack s.kern.nextTask,
        .newTcb s.kern.nextTask], P o)
    (hdone : ∀ s : Sys α, Keeps n P s (done s)) (hheap : ∀ s : Sys α, (done s).heap = s.heap)
    (hstep : s.createTask sizes t param at' done pc = some s') : Footprint n P s s' := by
  cases pc with
  | stack uxPriority stackBytes =>
      cases hstep
      exact .alloc (fun pv heap => Keeps.trans (.setHeap heap) (.goto hstack htcb _)) fun _ _ => rfl
  | tcb uxPriority pxStack =>
      cases hstep
      exact .alloc (fun pv heap => Keeps.trans (.setHeap heap) (.goto hstack htcb _)) fun _ _ => rfl
  | start uxPriority pxStack pxNewTCB =>
      simp only [createTask] at hstep
      refine .kernel (by simp [Kernel.Act.remakes]) (fun k hk => ?_) hstep
      exact .ofKeeps ((hk.trans (.newInfo (hnew _ _ _ rfl) _)).trans (hdone _)) (hheap _)

/-- A step of `pthread_create`. -/
theorem create_footprint {i : ThreadId} {pc : CreatePc}
    (hn : n ≤ s.kern.nextQueue) (hqueue : pc = .semaphore → P (.queue s.kern.nextQueue))
    (hnew : ∀ uxPriority pxStack pxNewTCB, pc = .task (.start uxPriority pxStack pxNewTCB) →
      ∀ o ∈ [Owner.stack s.kern.nextTask, .tcb s.kern.nextTask, .newStack s.kern.nextTask,
        .newTcb s.kern.nextTask], P o)
    (hstep : s.create sizes t i pc = some s') : Footprint n P s s' := by
  have hfield : ∀ {s s' : Sys α} {f : PosixThread → PosixThread} {pc : Pc},
      (∀ D, (f D).live = D.live ∧ (f D).addr = D.addr) →
      some (s.touch i ((s.modDesc i f).goto t pc)) = some s' → Footprint n P s s' := by
    intro s s' f pc hf hs'
    cases hs'
    exact .touch (.ofKeeps (Keeps.trans (.modDesc (.inr hf)) (.goto hstack htcb _)) rfl)
  cases pc with
  | startRoutine startRoutine arg => exact hfield (by simp) hstep
  | arg arg => exact hfield (by simp) hstep
  | retval => exact hfield (by simp) hstep
  | detached => exact hfield (by simp) hstep
  | joinSem q => exact hfield (by simp) hstep
  | semaphore =>
      simp only [create] at hstep
      split at hstep
      · cases hstep
        exact .halt s _
      next pv heap hmalloc =>
        refine .allocKernel hmalloc (fun q hq => ?_) (fun k hk => ?_) (fun _ => ?_) hstep
        · cases hq
          exact hqueue rfl
        · exact (hk.trans (.setQueueAddr (hqueue rfl) hn pv (some i))).trans (.goto hstack htcb _)
        · rfl
  | suspendAll =>
      simp only [create] at hstep
      refine .kernel (by simp [Kernel.Act.remakes]) (fun k hk => ?_) hstep
      exact .ofKeeps (hk.trans (.goto hstack htcb _)) rfl
  | task pc =>
      simp only [create] at hstep
      refine createTask_footprint hstack htcb (fun _ _ _ hpc => ?_) (fun s => ?_)
        (fun _ => ?_) hstep
      · exact hnew _ _ _ (congrArg _ hpc)
      · exact (Keeps.trans (.modDesc (.inr (by simp))) (.modPast i _)).trans (.goto hstack htcb _)
      · rfl
  | addThread =>
      cases hstep
      refine .touch (.ofKeeps ?_ rfl)
      exact (Keeps.trans (.addThread i) (.modPast i _)).trans (.goto hstack htcb _)
  | store =>
      cases hstep
      exact .ofKeeps (Keeps.trans (.modPast i _) (.goto hstack htcb _)) rfl
  | resumeAll =>
      simp only [create] at hstep
      refine .kernel (by simp [Kernel.Act.remakes]) (fun k hk => ?_) hstep
      exact .ofKeeps (hk.trans (.returns hstack htcb _)) rfl

/-- A call of the application. -/
theorem begin_footprint {c : Call α} (hfoot : ∀ o, c.footprint s.kern.nextQueue t o → P o)
    (hstep : s.begin sizes t c = some s') : Footprint n P s s' := by
  cases c with
  | pthreadCreate thread startRoutine arg =>
      simp only [begin] at hstep
      split at hstep <;> cases hstep
      · exact .ofKeeps (.returns hstack htcb _) rfl
      · exact .ofKeeps (.goto hstack htcb _) rfl
  | pthreadJoin thread retval =>
      cases thread with
      | none =>
          cases hstep
          exact .ofKeeps (.returns hstack htcb _) rfl
      | some i =>
          cases hstep
          exact .ofKeeps (Keeps.trans (.modPast i _) (.goto hstack htcb _)) rfl
  | pthreadExit value =>
      cases hstep
      exact .ofKeeps (.modInfo hstack htcb (by simp)) rfl
  | pthreadDetach thread =>
      cases thread with
      | none =>
          cases hstep
          exact .ofKeeps (.returns hstack htcb _) rfl
      | some i =>
          cases hstep
          exact .ofKeeps (Keeps.trans (.modPast i _) (.goto hstack htcb _)) rfl
  | pthreadSelf =>
      cases hstep
      exact .ofKeeps (.goto hstack htcb _) rfl
  | xTaskCreate uxPriority stackBytes =>
      cases hstep
      exact .ofKeeps (.goto hstack htcb _) rfl
  | vTaskDelete =>
      cases hstep
      exact .ofKeeps (.goto hstack htcb _) rfl
  | blocking api => exact .kernel (by simp [Kernel.Act.remakes]) (fun k hk => .ofKeeps hk rfl) hstep
  | newQueue spec =>
      have hremakes : ∀ q, (Kernel.Act.create t spec : Kernel.Act α).remakes s.kern.nextQueue =
          some q → P (.queue q) := by
        intro q hq
        cases hq
        exact hfoot (.queue s.kern.nextQueue) rfl
      simp only [begin] at hstep
      split at hstep
      · split at hstep
        · cases hstep
          exact .halt s _
        next pv heap hmalloc =>
          refine .allocKernel hmalloc hremakes (fun k hk => ?_) (fun _ => ?_) hstep
          · exact hk.trans (.setAddr (hfoot (.queue s.kern.nextQueue) rfl) pv)
          · rfl
      · exact .kernel hremakes (fun k hk => .ofKeeps hk rfl) hstep
  | deleteQueue q =>
      simp only [begin] at hstep
      refine .kernel (fun q' hq' => ?_) (fun k hk => .after hk rfl ?_) hstep
      · cases hq'
        exact hfoot (.queue q) rfl
      · exact .release (fun heap => .setHeap heap) fun _ => rfl
  | vTaskDelay xTicksToDelay =>
      exact .kernel (by simp [Kernel.Act.remakes]) (fun k hk => .ofKeeps hk rfl) hstep
  | pvPortMalloc xWantedSize =>
      cases hstep
      refine .alloc (fun pv heap => ?_) fun _ _ => rfl
      exact (Keeps.trans (.setHeap heap) (.setBlock (hfoot (.block pv) trivial) true)).trans
        (.returns hstack htcb _)
  | vPortFree pv =>
      cases hstep
      refine .release (fun heap => ?_) fun _ => rfl
      exact Keeps.trans (.setHeap heap) (.setBlock (hfoot (.block pv) rfl) false)

/-- A step of the shim's own code. -/
theorem advance_footprint (hn : n ≤ s.kern.nextQueue)
    (hfoot : ∀ o, (s.pc t).footprint s.nextThread s.kern.nextQueue s.kern.nextTask t o → P o)
    (hstep : s.advance sizes t (s.pc t) = some s') : Footprint n P s s' := by
  -- making a task takes a stack and a control block under its number, and passes them through the
  -- registers of the caller
  have hnewTask : ∀ pc : Pc,
      (∀ o, pc.footprint s.nextThread s.kern.nextQueue s.kern.nextTask t o → P o) →
      (∀ u, u = s.kern.nextTask →
        pc.footprint s.nextThread s.kern.nextQueue s.kern.nextTask t (.stack u) ∧
        pc.footprint s.nextThread s.kern.nextQueue s.kern.nextTask t (.tcb u)) →
      ∀ o ∈ [Owner.stack s.kern.nextTask, .tcb s.kern.nextTask, .newStack s.kern.nextTask,
        .newTcb s.kern.nextTask], P o := by
    intro pc hpc hnew o ho
    simp only [List.mem_cons, List.not_mem_nil, or_false] at ho
    rcases ho with rfl | rfl | rfl | rfl
    · exact hpc _ (hnew _ rfl).1
    · exact hpc _ (hnew _ rfl).2
    · exact hpc (.newStack _) (.inr rfl)
    · exact hpc (.newTcb _) (.inr rfl)
  -- the first lines of a case find the objects that the program point names
  cases hpc : s.pc t with
  | app =>
      rw [hpc] at hstep
      simp only [advance] at hstep
      split at hstep
      · split at hstep
        · simp at hstep
        · refine .kernel (by simp [Kernel.Act.remakes]) (fun k hk => ?_) hstep
          exact .ofKeeps (hk.trans (.goto hstack htcb _)) rfl
      · simp at hstep
  | createMalloc startRoutine arg =>
      rw [hpc] at hstep hfoot
      cases hstep
      refine .alloc (fun pv heap => ?_) fun _ _ => rfl
      have hdesc : P (.desc s.nextThread) := hfoot (.desc s.nextThread) rfl
      exact (Keeps.trans (.setHeap heap) (.newDesc (by exact hdesc) pv t)).trans
        (.goto hstack htcb _)
  | create i pc =>
      rw [hpc] at hstep hfoot
      refine create_footprint hstack htcb hn (fun heq => ?_) (fun _ _ _ heq => ?_) hstep
      · subst heq
        exact hfoot (.queue s.kern.nextQueue) rfl
      · subst heq
        exact hnewTask _ hfoot fun u hu => ⟨hu, hu⟩
  | join i retval pc =>
      rw [hpc] at hstep hfoot
      refine join_footprint hstack htcb (fun value heq => ?_) (fun value q heq => ?_) hstep
      · subst heq
        exact hfoot (.desc i) rfl
      · subst heq
        exact hfoot (.queue q) rfl
  | exit pc =>
      rw [hpc] at hstep hfoot
      refine exit_footprint hstack htcb (fun i heq => ?_) (fun i q heq => ?_) hstep
      · subst heq
        exact hfoot (.desc i) rfl
      · subst heq
        exact hfoot (.queue q) rfl
  | detach i =>
      rw [hpc] at hstep
      cases hstep
      refine .touch (.ofKeeps ?_ rfl)
      exact (Keeps.trans (.modDesc (.inr (by simp))) (.modPast i _)).trans (.returns hstack htcb _)
  | self =>
      rw [hpc] at hstep
      simp only [advance] at hstep
      split at hstep <;> cases hstep
      · exact .ofKeeps (.returns hstack htcb _) rfl
      · exact .walkFault s _
  | task pc =>
      rw [hpc] at hstep hfoot
      simp only [advance] at hstep
      refine createTask_footprint hstack htcb (fun _ _ _ heq => ?_) (fun s => ?_)
        (fun _ => ?_) hstep
      · subst heq
        exact hnewTask _ hfoot fun u hu => ⟨hu, hu⟩
      · exact .returns hstack htcb _
      · rfl
  | wrapper i =>
      rw [hpc] at hstep
      cases hstep
      exact .touch (.ofKeeps (.goto hstack htcb _) rfl)
  | wrapperArg i =>
      rw [hpc] at hstep
      cases hstep
      exact .touch (.ofKeeps (.goto hstack htcb _) rfl)
  | freeStack u =>
      rw [hpc] at hstep hfoot
      cases hstep
      refine .release (fun heap => ?_) fun _ => rfl
      exact (Keeps.trans (.setHeap heap) (.freeInfo (hfoot (.stack u) rfl) (hfoot (.tcb u) rfl)
        (by simp))).trans (.goto hstack htcb _)
  | freeTcb u =>
      rw [hpc] at hstep hfoot
      cases hstep
      refine .release (fun heap => ?_) fun _ => rfl
      exact (Keeps.trans (.setHeap heap) (.freeInfo (hfoot (.stack u) rfl) (hfoot (.tcb u) rfl)
        (by simp))).trans (.goto hstack htcb _)
  | dead =>
      rw [hpc] at hstep
      simp [advance] at hstep

end Steps

/-- A step makes at most one call of the allocator, for the objects of its footprint. -/
theorem step_footprint (hstep : s.step sizes act = some s') :
    Footprint s.kern.nextQueue (act.footprint s) s s' := by
  rcases step_cases hstep with ⟨a, k, hk, rfl, hact⟩ | ⟨t, c, rfl, -, -, -, -, hbegin⟩ |
    ⟨t, rfl, -, hframe, hadvance⟩
  · have hnone : a.remakes s.kern.nextQueue = none := by
      rcases hact with ⟨rfl, -⟩ | ⟨t, f, rfl, -⟩ <;> rfl
    exact .ofKeeps (.kern fun q _ => (State.stepped_step hk).live (by
      rw [show s.kern.view.nextQueue = s.kern.nextQueue from rfl, hnone]
      simp)) rfl
  · have hswitch : Keeps s.kern.nextQueue ((Act.call t c).footprint s) s (s.switchTo t) :=
      .kern fun _ _ => rfl
    refine .after hswitch rfl (begin_footprint ?_ ?_ (fun o ho => ho) hbegin)
    · exact (rfl : t = t)
    · exact (rfl : t = t)
  · have hswitch : Keeps s.kern.nextQueue ((Act.run t).footprint s) s (s.switchTo t) :=
      .kern fun _ _ => rfl
    refine .after hswitch rfl (advance_footprint ?_ ?_ (Nat.le_refl _) (fun o ho => ⟨hframe, ho⟩)
        hadvance)
    · exact ⟨hframe, .inl rfl⟩
    · exact ⟨hframe, .inl rfl⟩

end Sys

/-! ## The shim as a user of the heap -/

/-- A call of the allocator in the shim is a step of a user of the heap, or none. -/
theorem HeapStep.users {heap heap' : Heap4} (hheap : HeapStep heap heap') {c : Users}
    {low high : Nat} (hinv : Users.Inv low high c) (hlow : xHeapStructSize ≤ low)
    (hc : c.heap = heap) :
    ∃ c', c'.heap = heap' ∧ (c' = c ∨ ∃ act, c.Ok act ∧ c.step act = some c') := by
  subst hc
  cases hheap with
  | same => exact ⟨c, rfl, .inl rfl⟩
  | malloc size pv hmalloc =>
      exact ⟨⟨heap', Function.update c.live pv (some size)⟩, rfl, .inr ⟨.alloc size, trivial, by
        simp only [Users.step, hmalloc]⟩⟩
  | free pv hfree =>
      by_cases hpv : pv = 0
      · have hsame : c.heap = heap' := by simpa [Heap.vPortFree, hpv] using hfree
        exact ⟨c, hsame, .inl rfl⟩
      · -- the block that is released lies in the heap, so there is a header before it
        have hused : ∃ size, c.heap.allocated (pv - xHeapStructSize) = some size := by
          simp only [Heap.vPortFree, ne_eq, hpv, not_false_eq_true, if_true] at hfree
          obtain ⟨size, hsize, -⟩ := Option.map_eq_some_iff.mp hfree
          exact ⟨size, hsize⟩
        obtain ⟨size, hsize⟩ := hused
        have hmem : c.heap.Holds (pv - xHeapStructSize) (pv - xHeapStructSize) :=
          ⟨size, hsize, Nat.le_refl _, Nat.lt_add_of_pos_right (hinv.sound.nonempty _ _ hsize)⟩
        have hregion := ((hinv.sound.region _).mp (.inr ⟨_, hmem⟩)).1
        have hlive : (c.live pv).isSome := by
          rw [hinv.held, Heap4.block, if_pos (by omega), hsize]
          rfl
        exact ⟨⟨heap', Function.update c.live pv none⟩, rfl, .inr ⟨.release pv, hlive, by
          simp [Users.step, hfree]⟩⟩

section Users

variable {sizes : Sizes} {ucHeap size uxPriority stackBytes : Nat} {s₀ s : Sys α}

/-- The law of the heap holds below the thread layer: its heap is that of users who
allocate and release, and every object of the system has a pointer that is in use. -/
theorem heap_law (hsize : 32 ≤ size) (haddr : 0 < ucHeap)
    (hboot : Sys.boot sizes (prvHeapInit ucHeap size) uxPriority stackBytes = some s₀)
    (hreach : Lib.Reach (Sys.step sizes) (fun s act => Act.Proper s act) s₀ s) :
    ∃ c : Users, Lib.Reach Users.step Users.Ok (Users.start ucHeap size) c ∧ c.heap = s.heap ∧
      HeapLaw (heapStart ucHeap) (heapEnd ucHeap size) c ∧
      ∀ o pv, s.owned o = some pv → (c.live pv).isSome := by
  have hlow : xHeapStructSize ≤ heapStart ucHeap := by
    simp only [heapStart, xHeapStructSize, portByteAlignment]
    omega
  have husers : ∀ {c : Users}, Lib.Reach Users.step Users.Ok (Users.start ucHeap size) c →
      Users.Inv (heapStart ucHeap) (heapEnd ucHeap size) c := fun hc =>
    hc.invariant _ (Users.start_inv hsize) fun _ _ _ hinv hok hstep => hinv.step hok hstep
  have hnext : ∀ {heap : Heap4} {c : Users},
      Lib.Reach Users.step Users.Ok (Users.start ucHeap size) c → HeapStep c.heap heap →
      ∃ c', Lib.Reach Users.step Users.Ok (Users.start ucHeap size) c' ∧ c'.heap = heap := by
    intro heap c hc hheap
    obtain ⟨c', hheap', rfl | ⟨act, hok, hstep⟩⟩ := hheap.users (husers hc) hlow rfl
    · exact ⟨c', hc, hheap'⟩
    · exact ⟨c', hc.tail ⟨act, hok, hstep⟩, hheap'⟩
  have hrun : ∃ c, Lib.Reach Users.step Users.Ok (Users.start ucHeap size) c ∧ c.heap = s.heap := by
    -- the heap is sound as long as each owner holds exactly the block it was given
    refine hreach.invariant (fun s =>
        ∃ c, Lib.Reach Users.step Users.Ok (Users.start ucHeap size) c ∧
      c.heap = s.heap) ?_ ?_
    · obtain ⟨-, heap', hstack, htcb⟩ := Sys.boot_blank hboot
      obtain ⟨c, hc, hheap⟩ := hnext .refl (.malloc _ _ hstack)
      subst hheap
      exact hnext hc (.malloc _ _ htcb)
    · rintro s act s' ⟨c, hc, hheap⟩ - hstep
      exact hnext hc (hheap ▸ (Sys.step_footprint hstep).heap)
  obtain ⟨c, hc, hheap⟩ := hrun
  obtain ⟨nodes, hinv⟩ := (Sys.boot_inv (prvHeapInit_sound_at hsize) hboot).reach hreach
  refine ⟨c, hc, hheap, (husers hc).law, fun o pv howned => ?_⟩
  rw [(husers hc).held, hheap]
  exact hinv.ledger.allocated o pv howned

end Users

end SimulatedLinux.Thread
