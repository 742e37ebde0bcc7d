import SimulatedLinux.Thread.Effect
import SimulatedLinux.Thread.End

/-! # The invariant of the thread layer in every run

One lemma per entry point, the step lemma, and the run lemma: the invariant holds in
every state that a run of proper calls reaches.
-/

namespace SimulatedLinux.Thread

open Kernel Heap

variable {α : Type}

instance (s : Sys α) (h : ThreadId) : Decidable (s.Published h) :=
  inferInstanceAs (Decidable (_ = _))

instance (s : Sys α) (t : TaskId) (c : Call α) : Decidable (c.Proper s t) :=
  match c with
  | .pthreadJoin (some _) _ | .pthreadDetach (some _) => inferInstanceAs (Decidable (_ ∧ _))
  | .pthreadExit _ => inferInstanceAs (Decidable (_ → _))
  | .vTaskDelete | .deleteQueue _ => inferInstanceAs (Decidable (_ = _))
  | .blocking api => inferInstanceAs (Decidable (∀ q, api.target = some q → _))
  | .vPortFree _ => inferInstanceAs (Decidable (_ = true))
  | .pthreadJoin none _ | .pthreadDetach none | .pthreadCreate _ _
      _ | .pthreadSelf | .xTaskCreate _ _
  | .newQueue _ | .vTaskDelay _ | .pvPortMalloc _ => .isTrue trivial

instance (s : Sys α) (act : Act α) : Decidable (act.Proper s) :=
  match act with
  | .call t c => inferInstanceAs (Decidable (c.Proper s t))
  | .tick | .run _ => .isTrue trivial

/-- The nodes of the registry after a step from this program point. -/
def Pc.relink : Pc → List ThreadId → List ThreadId
  | create i .addThread, nodes => i :: nodes
  | join i _ (.removeThread _), nodes | exit (.removeThread i), nodes => nodes.erase i
  | _, nodes => nodes

def Act.relink (s : Sys α) : Act α → List ThreadId → List ThreadId
  | .run t, nodes => (s.pc t).relink nodes
  | _, nodes => nodes

namespace Sys

variable {s s' : Sys α} {t : TaskId} {nodes : List ThreadId} {i : ThreadId}
  {base : Nat → Option Nat} {low high : Nat} {sizes : Sizes}

namespace Turn

variable (hturn : Turn base low high s t nodes)
include hturn

/-- A step of `xTaskCreate` by the application or by `pthread_create`. -/
theorem task_inv {param : Option ThreadId} {at' : TaskPc → Pc} {done : Sys α → Sys α} {pc : TaskPc}
    (hpc : s.pc t = at' pc)
    (hcaller : (∀ p, at' p = .task p) ∨ ∃ i, ∀ p, at' p = .create i (.task p))
    (hstart : ∀ uxPriority pxStack pxNewTCB, pc = .start uxPriority pxStack pxNewTCB →
      s'.Inv base low high nodes)
    (hstep : s.createTask sizes t param at' done pc = some s') : s'.Inv base low high nodes := by
  have hcases : ∀ p p', at' p = .task p ∧ at' p' = .task p' ∨
      ∃ i, at' p = .create i (.task p) ∧ at' p' = .create i (.task p') := by
    intro p p'
    rcases hcaller with hcaller | ⟨i, hcaller⟩
    · exact .inl ⟨hcaller p, hcaller p'⟩
    · exact .inr ⟨i, hcaller p, hcaller p'⟩
  cases pc with
  | stack uxPriority stackBytes =>
      simp only [createTask, Option.some.injEq] at hstep
      rcases alloc_cases s stackBytes fun pv s => s.goto t (at' (.tcb uxPriority pv)) with
        ⟨pv, heap, hmalloc, hnext⟩ | hfailed
      · rw [← hstep, hnext]
        exact hturn.taskAlloc hpc (hcases _ _) (.inl ⟨rfl, rfl, rfl⟩) hmalloc
      · rw [← hstep, hfailed]
        exact hturn.inv.mallocFailed
  | tcb uxPriority pxStack =>
      simp only [createTask, Option.some.injEq] at hstep
      rcases alloc_cases s sizes.tcb fun pv s => s.goto t (at' (.start uxPriority pxStack pv)) with
        ⟨pv, heap, hmalloc, hnext⟩ | hfailed
      · rw [← hstep, hnext]
        exact hturn.taskAlloc hpc (hcases _ _) (.inr ⟨rfl, pxStack, rfl, rfl⟩) hmalloc
      · rw [← hstep, hfailed]
        exact hturn.inv.mallocFailed
  | start uxPriority pxStack pxNewTCB => exact hstart uxPriority pxStack pxNewTCB rfl

/-- A step of `pthread_create`. -/
theorem create_inv {pc : CreatePc} (hpc : s.pc t = .create i pc)
    (hstep : s.create sizes t i pc = some s') : s'.Inv base low high ((s.pc t).relink nodes) := by
  rw [hpc]
  cases pc with
  | startRoutine startRoutine arg =>
      have hlive := (hturn.building hpc rfl).1
      simp only [create, touch, hlive.live, if_true, Option.some.injEq] at hstep
      subst hstep
      exact hturn.buildStep hpc ⟨rfl, rfl⟩ ⟨⟨rfl, rfl, by simp, by simp⟩, rfl, by simp, by simp⟩
        ⟨⟨rfl, rfl, rfl, rfl, rfl⟩, hlive.joinable⟩ ⟨rfl, rfl, by simp⟩ ⟨rfl, rfl⟩
  | arg arg =>
      have hlive := (hturn.building hpc rfl).1
      simp only [create, touch, hlive.live, if_true, Option.some.injEq] at hstep
      subst hstep
      exact hturn.buildStep hpc ⟨rfl, rfl⟩ ⟨⟨rfl, rfl, by simp, by simp⟩, rfl, by simp, by simp⟩
        ⟨⟨rfl, rfl, rfl, rfl, rfl⟩, hlive.joinable⟩ ⟨rfl, rfl, by simp⟩ ⟨rfl, rfl⟩
  | retval =>
      have hlive := (hturn.building hpc rfl).1
      simp only [create, touch, hlive.live, if_true, Option.some.injEq] at hstep
      subst hstep
      exact hturn.buildStep hpc ⟨rfl, rfl⟩ ⟨⟨rfl, rfl, by simp, by simp⟩, rfl, by simp, by simp⟩
        ⟨⟨rfl, rfl, rfl, rfl, rfl⟩, hlive.joinable⟩ ⟨rfl, rfl, by simp⟩ ⟨rfl, rfl⟩
  | detached =>
      have hlive := (hturn.building hpc rfl).1
      simp only [create, touch, hlive.live, if_true, Option.some.injEq] at hstep
      subst hstep
      exact hturn.buildStep hpc ⟨rfl, rfl⟩ ⟨⟨rfl, rfl, by simp, by simp⟩, rfl, by simp, by simp⟩
        ⟨⟨rfl, rfl, rfl, rfl, rfl⟩, rfl⟩ ⟨rfl, rfl, by simp⟩ ⟨rfl, rfl⟩
  | semaphore => exact hturn.createSemaphore hpc hstep
  | joinSem q =>
      have hlive := (hturn.building hpc rfl).1
      simp only [create, touch, hlive.live, if_true, Option.some.injEq] at hstep
      subst hstep
      exact hturn.storeSem hpc
  | suspendAll => exact hturn.createSuspend hpc hstep
  | task pc =>
      have htask := hstep
      simp only [create] at htask
      refine hturn.task_inv hpc (.inr ⟨i, fun _ => rfl⟩) ?_ htask
      rintro uxPriority pxStack pxNewTCB rfl
      exact hturn.createTaskStart hpc hstep
  | addThread => exact hturn.createAddThread hpc hstep
  | store =>
      simp only [create, Option.some.injEq] at hstep
      subst hstep
      exact hturn.storeHandle hpc
  | resumeAll => exact hturn.createResume hpc hstep

/-- A step of `pthread_join`. -/
theorem join_inv {retval : Bool} {pc : JoinPc} (hpc : s.pc t = .join i retval pc)
    (hstep : s.join t i retval pc = some s') : s'.Inv base low high ((s.pc t).relink nodes) := by
  rw [hpc]
  cases pc with
  | sem => exact hturn.joinSem hpc hstep
  | taken => exact hturn.joinTaken hpc hstep
  | retval => exact hturn.joinRetval hpc hstep
  | removeThread value => exact hturn.joinRemoveThread hpc hstep
  | readSem value => exact hturn.joinReadSem hpc hstep
  | deleteSem value q => exact hturn.joinDeleteSem hpc hstep
  | free value => exact hturn.joinFree hpc hstep

/-- A step of `pthread_exit`. -/
theorem exit_inv {pc : ExitPc} (hpc : s.pc t = .exit pc) (hstep : s.exit t pc = some s') :
    s'.Inv base low high ((s.pc t).relink nodes) := by
  rw [hpc]
  cases pc with
  | findThread value => exact hturn.exitFindThread hpc hstep
  | retval i value => exact hturn.exitRetval hpc hstep
  | detached i => exact hturn.exitDetached hpc hstep
  | removeThread i => exact hturn.exitRemoveThread hpc hstep
  | readSem i => exact hturn.exitReadSem hpc hstep
  | deleteSem i q => exact hturn.exitDeleteSem hpc hstep
  | free i => exact hturn.exitFree hpc hstep
  | sem i => exact hturn.exitSem hpc hstep
  | given i => exact hturn.exitGiven hpc hstep
  | taskDelete => exact hturn.exitTaskDelete hpc hstep

/-- A step of the shim's own code. -/
theorem advance_inv (hstep : s.advance sizes t (s.pc t) = some s') :
    s'.Inv base low high ((s.pc t).relink nodes) := by
  cases hpc : s.pc t with
  | app =>
      rw [hpc] at hstep
      simp only [advance] at hstep
      split at hstep
      next hidle =>
        subst hidle
        split at hstep
        · simp at hstep
        next u rest hlist => exact hturn.idleReap hpc hlist hstep
      next => simp at hstep
  | createMalloc startRoutine arg =>
      rw [hpc] at hstep
      simp only [advance, Option.some.injEq] at hstep
      rcases alloc_cases s sizes.posixThread fun pv s' => (s'.newDesc pv t).goto t
        (.create s'.nextThread (.startRoutine startRoutine arg)) with
        ⟨pv, heap, hmalloc, hnext⟩ | hfailed
      · rw [← hstep, hnext]
        exact hturn.createMalloc hpc hmalloc
      · rw [← hstep, hfailed]
        exact hturn.inv.mallocFailed
  | create i pc => exact hpc ▸ hturn.create_inv hpc (by rwa [hpc] at hstep)
  | join i retval pc => exact hpc ▸ hturn.join_inv hpc (by rwa [hpc] at hstep)
  | exit pc => exact hpc ▸ hturn.exit_inv hpc (by rwa [hpc] at hstep)
  | detach i =>
      rw [hpc] at hstep
      cases hstep
      exact hturn.detachWrite hpc
  | self =>
      rw [hpc] at hstep
      simp only [advance, hturn.inv.findThread_eq, Option.some.injEq] at hstep
      subst hstep
      exact hturn.selfReturns hpc _
  | task pc =>
      rw [hpc] at hstep
      simp only [advance] at hstep
      refine hturn.task_inv hpc (.inl fun _ => rfl) ?_ hstep
      rintro uxPriority pxStack pxNewTCB rfl
      exact hturn.taskStart hpc hstep
  | wrapper i =>
      rw [hpc] at hstep
      cases hstep
      exact hturn.wrapperRead (.inl ⟨hpc, rfl⟩)
  | wrapperArg i =>
      rw [hpc] at hstep
      cases hstep
      exact hturn.wrapperRead (.inr ⟨hpc, rfl⟩)
  | freeStack u =>
      have htasks := hturn.inv.tasks
      -- `prvDeleteTCB` frees the stack first, then the control block
      obtain ⟨rfl, hborn, hudead, hwait⟩ := htasks.frees t u (by rw [hpc]; rfl)
      have hui : u ≠ idleTask := by
        rintro rfl
        simp [hpc] at hudead
      have hlive : (s.info u).tcbLive :=
        (htasks.tcb u).mpr ⟨hborn, hui, .inr (.inr (by rw [hpc]; rfl))⟩
      rw [hpc] at hstep
      cases hstep
      exact hturn.idleFree .stack hpc (by rw [← hlive])
  | freeTcb u =>
      have htasks := hturn.inv.tasks
      obtain ⟨rfl, hborn, hudead, hwait⟩ := htasks.frees t u (by rw [hpc]; rfl)
      have hlive : (s.info u).stackLive = false := by
        refine Bool.eq_false_iff.mpr fun hlive => ?_
        have hcases := ((htasks.stack u).mp hlive).2.2
        simp [hudead, hwait, hpc] at hcases
      rw [hpc] at hstep
      cases hstep
      exact hturn.idleFree .tcb hpc (by rw [← hlive])
  | dead =>
      rw [hpc] at hstep
      simp [advance] at hstep

/-- A call of the application. -/
theorem begin_inv {c : Call α} (hpc : s.pc t = .app) (hidle : t ≠ idleTask) (hproper : c.Proper s t)
    (hstep : s.begin sizes t c = some s') : s'.Inv base low high nodes := by
  cases c with
  | pthreadCreate thread startRoutine arg =>
      simp only [begin] at hstep
      split at hstep <;> cases hstep
      · exact hturn.beginReturns hpc hidle _
      · exact hturn.beginGoto hpc hidle (.inl ⟨startRoutine, arg, rfl⟩)
  | pthreadJoin thread retval =>
      cases thread with
      | none =>
          cases hstep
          exact hturn.beginReturns hpc hidle _
      | some i =>
          cases hstep
          exact hturn.beginUse hpc hidle hproper.1 hproper.2 (.inl ⟨retval, rfl, rfl⟩)
  | pthreadExit value =>
      cases hstep
      exact hturn.beginExit hpc hidle value hproper
  | pthreadDetach thread =>
      cases thread with
      | none =>
          cases hstep
          exact hturn.beginReturns hpc hidle _
      | some i =>
          cases hstep
          exact hturn.beginUse hpc hidle hproper.1 hproper.2 (.inr ⟨rfl, rfl⟩)
  | pthreadSelf =>
      cases hstep
      exact hturn.beginGoto hpc hidle (.inr (.inl rfl))
  | xTaskCreate uxPriority stackBytes =>
      cases hstep
      exact hturn.beginGoto hpc hidle (.inr (.inr ⟨uxPriority, stackBytes, rfl⟩))
  | vTaskDelete =>
      cases hstep
      exact hturn.beginDelete hpc hidle hproper
  | blocking api => exact hturn.beginBlocking hpc hidle hproper hstep
  | newQueue spec => exact hturn.beginNewQueue hpc hidle hstep
  | deleteQueue q => exact hturn.beginDeleteQueue hpc hidle hproper hstep
  | vTaskDelay xTicksToDelay => exact hturn.beginDelay hpc hidle hstep
  | pvPortMalloc xWantedSize =>
      simp only [begin, Option.some.injEq] at hstep
      rcases alloc_cases s xWantedSize fun pv s =>
        returns { s with blocks := Function.update s.blocks pv true } t (.ptr pv) with
        ⟨pv, heap, hmalloc, hnext⟩ | hfailed
      · rw [← hstep, hnext]
        exact hturn.beginMalloc hpc hidle hmalloc
      · rw [← hstep, hfailed]
        exact hturn.inv.mallocFailed
  | vPortFree pv =>
      cases hstep
      exact hturn.beginFree hpc hidle hproper

end Turn

/-- Every step of a run of proper calls keeps the invariant. -/
theorem Inv.step {act : Act α} (hinv : s.Inv base low high nodes) (hproper : act.Proper s)
    (hstep : s.step sizes act = some s') : s'.Inv base low high (act.relink s nodes) := by
  have hfault : s.fault = none := by
    by_contra hne
    simp [Sys.step, hne] at hstep
  rcases step_cases hstep with ⟨a, k, hk, rfl, ⟨rfl, rfl⟩ | ⟨t, f, rfl, rfl, hframe⟩⟩ |
    ⟨t, c, rfl, hrun, hframe, hpc, hidle, hbegin⟩ | ⟨t, rfl, hrun, hframe, hadvance⟩
  · exact hinv.tick hk
  · -- a task in a blocking function is not at a point that changes the registry
    have hrelink : (s.pc t).relink nodes = nodes := by
      rcases hinv.sems.calls t f hframe with ⟨hpc, -⟩ | ⟨_, _, hpc, -⟩ | ⟨_, hpc, -⟩ <;>
        rw [hpc] <;> rfl
    rw [Act.relink, hrelink]
    exact hinv.run hframe hk
  · exact (Turn.start hinv hfault hrun hframe).begin_inv hpc hidle
      (by cases c <;> exact hproper) hbegin
  · exact (Turn.start hinv hfault hrun hframe).advance_inv hadvance

/-! ## Runs -/

/-- The system when the scheduler starts. The stack and the control block of the main
task come from the heap; those of the idle task are static. -/
def boot (sizes : Sizes) (heap : Heap4) (uxPriority stackBytes : Nat) : Option (Sys α) :=
  (pvPortMalloc heap stackBytes).bind fun (pxStack, heap) =>
    (pvPortMalloc heap sizes.tcb).map fun (pxNewTCB, heap) =>
      { kern := .boot uxPriority
        heap
        queueAddr := fun _ => 0
        desc := fun _ =>
          { live := false, addr := 0, xTask := 0, startRoutine := 0, arg := 0, retval := 0
            joinSem := none, detached := false, next := none }
        nextThread := 0
        gThreadList := none
        info := fun t =>
          if t = 1 then newInfo pxStack pxNewTCB none
          else { newInfo 0 0 none with stackLive := false, tcbLive := false }
        fault := none
        past := fun _ =>
          { creator := none, task := none, handle := none, use := .unused, selfFreed := false
            descFrees := 0, semFrees := 0 }
        semOwner := fun _ => none
        blocks := fun _ => false }

/-- When the scheduler starts, every task is in application code, and there is no thread. -/
structure Blank (s : Sys α) (uxPriority : Nat) : Prop where
  kern : s.kern = .boot uxPriority
  pc : ∀ t, s.pc t = .app
  param : ∀ t, (s.info t).param = none
  memory : ∀ t, ((s.info t).stackLive ↔ t = 1) ∧ ((s.info t).tcbLive ↔ t = 1)
  fault : s.fault = none
  list : s.gThreadList = none
  owner : ∀ q, s.semOwner q = none
  nextThread : s.nextThread = 0
  desc : ∀ i, (s.desc i).live = false ∧ (s.desc i).joinSem = none
  past : ∀ i, s.past i =
    { creator := none, task := none, handle := none, use := .unused, selfFreed := false
      descFrees := 0, semFrees := 0 }
  blocks : ∀ pv, s.blocks pv = false

namespace Blank

variable {uxPriority : Nat} (hblank : Blank s uxPriority)
include hblank

theorem frame (t : TaskId) : s.frame t = none := by
  simp [Sys.frame, hblank.kern, State.boot]

theorem core : s.Core := by
  refine ⟨by rw [hblank.kern]; exact State.boot_inv uxPriority, ⟨?_, ?_, ?_, ?_⟩, ?_, ?_,
    .inl hblank.fault, fun q _ => hblank.owner q⟩
  · simp [hblank.kern, State.view, State.boot]
  · simp [hblank.kern, State.view, State.boot]
  · simp [hblank.kern, State.view, State.boot]
  · simp [hblank.kern, State.view, State.boot]
  · simp [hblank.pc, Pc.inWindow]
  · simp [hblank.kern, State.cpu, State.boot]

theorem roles : s.Roles := by
  refine ⟨?_, ?_, ?_, ?_, ?_, ?_⟩
  · simp [Lib.Paired, hblank.past, hblank.pc, Pc.creates]
  · simp [Lib.Paired, hblank.past, hblank.pc, Pc.joins, Use.joiner]
  · simp [Lib.Paired, hblank.past, hblank.pc, Pc.detaches, Use.detacher]
  · simp [Lib.Paired, hblank.past, hblank.param]
  · simp [hblank.pc, Pc.own]
  · simp [hblank.pc, Pc.passes]

theorem tasks : s.Tasks := by
  have hview : s.kern.view.nextTask = 2 ∧ s.kern.view.xTasksWaitingTermination = [] := by
    rw [hblank.kern]
    exact ⟨rfl, rfl⟩
  have hmain : ∀ t : TaskId, t = 1 ↔ t < 2 ∧ t ≠ 0 := by
    intro t
    exact ⟨fun h => by subst h; decide, fun h => Nat.le_antisymm (Nat.le_of_lt_succ h.1)
      (Nat.one_le_iff_ne_zero.mpr h.2)⟩
  refine ⟨fun u _ => ⟨hblank.pc u, hblank.param u⟩, by simp [hview], ⟨by rw [hblank.pc]; rfl,
    hblank.param _⟩, by simp [hblank.pc, Pc.frees], fun u => ?_, fun u => ?_⟩
  · simp [hblank.memory, hview, hblank.pc, idleTask, hmain]
  · simp [hblank.memory, hview, hblank.pc, idleTask, hmain]

theorem sems : s.Sems := by
  refine ⟨by simp [hblank.frame], by simp [hblank.pc], by simp [hblank.pc, Pc.reads],
    by simp [hblank.desc], by simp [hblank.owner], by simp [hblank.owner]⟩

theorem thread (i : ThreadId) : s.ThreadOk [] i := by
  have hnot : ¬ s.Made i := by simp [Made, hblank.nextThread]
  refine ⟨?_, ?_, ?_, (absurd · hnot), (absurd · hnot), (absurd · hnot), (absurd · hnot), ?_, ?_,
    ?_⟩
  · simp [hblank.past, hblank.desc]
  · simp [hblank.past]
  · simp [hblank.pc]
  · simp [hblank.pc]
  · simp [hblank.past]
  · simp [hblank.past]

theorem owned_eq : s.owned = Function.update (Function.update (fun _ => none) (.stack 1)
    (some (s.info 1).pxStack)) (.tcb 1) (some (s.info 1).tcb) := by
  funext o
  cases o with
  | desc i => simp [owned, hblank.desc]
  | queue q => simp [owned, hblank.kern, State.view, State.boot, Queue.contents, Queue.none]
  | stack u =>
      by_cases hu : u = 1
      · simp [owned, hu, hblank.memory]
      · simp [owned, hu, hblank.memory]
  | tcb u =>
      by_cases hu : u = 1
      · simp [owned, hu, hblank.memory]
      · simp [owned, hu, hblank.memory]
  | newStack c => simp [owned, hblank.pc, Pc.memory]
  | newTcb c => simp [owned, hblank.pc, Pc.memory]
  | block pv => simp [owned, hblank.blocks]

end Blank

theorem boot_blank {heap : Heap4} {uxPriority stackBytes : Nat}
    (hboot : boot sizes heap uxPriority stackBytes = some s) :
    Blank s uxPriority ∧ ∃ heap', pvPortMalloc heap stackBytes = some ((s.info 1).pxStack, heap') ∧
      pvPortMalloc heap' sizes.tcb = some ((s.info 1).tcb, s.heap) := by
  obtain ⟨⟨pxStack, heap'⟩, hstack, hboot⟩ := Option.bind_eq_some_iff.mp hboot
  obtain ⟨⟨pxNewTCB, heap''⟩, htcb, rfl⟩ := Option.map_eq_some_iff.mp hboot
  refine ⟨⟨rfl, fun t => ?_, fun t => ?_, fun t => ?_, rfl, rfl, fun _ => rfl, rfl, fun _ =>
      ⟨rfl, rfl⟩,
    fun _ => rfl, fun _ => rfl⟩, heap', hstack, htcb⟩
  · simp only [Sys.pc]
    split <;> rfl
  · simp only
    split <;> rfl
  · simp only
    split <;> simp_all [newInfo]

/-- The invariant holds when the scheduler starts. -/
theorem boot_inv {heap : Heap4} {uxPriority stackBytes : Nat} (hsound : Sound heap low high)
    (hboot : boot sizes heap uxPriority stackBytes = some s) : s.Inv heap.block low high [] := by
  obtain ⟨hblank, heap', hstack, htcb⟩ := boot_blank hboot
  obtain ⟨hsound₁, hfresh₁, size₁, hblock₁⟩ := hsound.pvPortMalloc hstack
  obtain ⟨hsound₂, hfresh₂, size₂, hblock₂⟩ := hsound₁.pvPortMalloc htcb
  have hledger : Lib.Ledger heap.block s.heap.block s.owned := by
    have hstart := (Lib.Ledger.start heap.block).alloc (o := Owner.stack 1) rfl hfresh₁ size₁
    rw [← hblock₁] at hstart
    have hledger := hstart.alloc (o := .tcb 1) (by simp) hfresh₂ size₂
    rwa [← hblock₂, ← hblank.owned_eq] at hledger
  refine ⟨hblank.core, hblank.roles, hblank.tasks, hblank.sems, hblank.thread, ⟨?_, .nil, by simp⟩,
    hsound₂, hledger⟩
  rw [hblank.list]
  exact .nil

/-- The invariant holds in every state of a run of proper calls. -/
theorem Inv.reach {s₀ : Sys α} (hinv : s₀.Inv base low high nodes)
    (hreach : Lib.Reach (Sys.step sizes) (fun s act => Act.Proper s act) s₀ s) :
    ∃ nodes', s.Inv base low high nodes' :=
  hreach.invariant (fun s => ∃ nodes, s.Inv base low high nodes) ⟨nodes, hinv⟩
    fun _ _ _ ⟨_, hinv⟩ hproper hstep => ⟨_, hinv.step hproper hstep⟩

end Sys

/-! ## Concrete runs -/

/-- The sizes of the structures and the heap of the demo. -/
def demoSizes : Sizes := ⟨36, 80, 96⟩

def demoHeap : Heap4 := prvHeapInit 0x20000000 (100 * 1024)

theorem demoHeap_sound : ∃ low high, Sound demoHeap low high := prvHeapInit_sound (by decide)

/-- A run of the demo from the start, which checks the guard before every step. -/
def demoRun (guard : Sys Unit → Act Unit → Bool) (schedule : List (Act Unit)) : Option (Sys Unit) :=
  (Sys.boot demoSizes demoHeap 1 400).bind fun s₀ =>
    Lib.execute (Sys.step demoSizes) guard s₀ schedule

/-- One call of `pthread_create`. -/
def createSchedule (c : TaskId) (startRoutine : Ptr) : List (Act Unit) :=
  .call c (.pthreadCreate true startRoutine 0) :: List.replicate 14 (.run c)

theorem demoRun_reach {guard : Sys Unit → Act Unit → Bool} {ok : Sys Unit → Act Unit → Prop}
    (hguard : ∀ s act, guard s act = true → ok s act) {schedule : List (Act Unit)} {s : Sys Unit}
    (hrun : demoRun guard schedule = some s) :
    ∃ s₀, Sys.boot demoSizes demoHeap 1 400 = some s₀ ∧ Lib.Reach (Sys.step demoSizes) ok s₀ s := by
  obtain ⟨s₀, hboot, hrun⟩ := Option.bind_eq_some_iff.mp hrun
  exact ⟨s₀, hboot, Lib.execute_reach hguard schedule hrun⟩

end SimulatedLinux.Thread
