import SimulatedLinux.Thread.Identity
import SimulatedLinux.Thread.Join

/-! # Native tasks

The registry is searched by the address of a control block, and a thread that has
ended and is not joined keeps its node after the idle task has freed its control
block. A native task that is given this address is taken for that thread. When no
native task is created at such an address, none is ever found in the registry.
-/

namespace SimulatedLinux.Thread

open Kernel Heap

variable {α : Type}

def Act.isExit : Act α → Bool
  | .call _ (.pthreadExit _) => true
  | _ => false

/-- What the application promises, with no condition on `pthread_exit`. -/
def Act.Lawful (s : Sys α) (act : Act α) : Prop := act.isExit ∨ act.Proper s

/-- The control block of a native task that is about to be created. -/
def Pc.startsNative : Pc → Option Nat
  | task (.start _ _ pxNewTCB) => some pxNewTCB
  | _ => none

/-- No native task is created at the address of a node of the registry. -/
def Act.Unshared (s : Sys α) (act : Act α) : Prop :=
  act.Lawful s ∧ match act with
    | .run t => ∀ pxNewTCB, (s.pc t).startsNative = some pxNewTCB → s.findThread pxNewTCB = .ok none
    | _ => True

instance (s : Sys α) (act : Act α) : Decidable (act.Lawful s) :=
  inferInstanceAs (Decidable (_ ∨ _))

instance (s : Sys α) (act : Act α) : Decidable (act.Unshared s) :=
  match act with
  | .run _ | .tick | .call _ _ => inferInstanceAs (Decidable (_ ∧ _))

namespace Sys

variable {s s' : Sys α} {t u : TaskId} {nodes : List ThreadId} {i : ThreadId}
  {base : Nat → Option Nat} {low high : Nat} {sizes : Sizes} {act : Act α}

/-- No node of the registry has the control block of a native task. -/
def Untracked (s : Sys α) : Prop :=
  ∀ u, (s.info u).param = none → (s.info u).tcbLive → s.findThread (s.info u).tcb = .ok none

/-- Native tasks that are not tracked may call `pthread_exit`. -/
theorem Inv.proper (hinv : s.Inv base low high nodes) (huntracked : s.Untracked)
    (hlawful : act.Lawful s) (hstep : s.step sizes act = some s') : act.Proper s := by
  cases act with
  | tick => trivial
  | run t => trivial
  | call t c =>
      cases c with
      | pthreadExit value =>
          intro hparam
          cases step_effect hstep with
          | kernel a k _ _ hact => simp at hact
          | call t' c' hact hrun _ hpc hidle =>
              cases hact
              have hborn := hinv.core.kernel.wait.spawned hrun
              exact huntracked t hparam
                ((hinv.tasks.tcb t).mpr ⟨hborn, hidle, .inl (by simp [hpc])⟩)
          | run t' hact => cases hact
      | _ => exact hlawful.resolve_left (by simp [Act.isExit])

theorem mem_of_relink (hi : i ∈ act.relink s nodes) :
    i ∈ nodes ∨ ∃ t, act = .run t ∧ s.pc t = .create i .addThread := by
  cases act with
  | tick => exact .inl hi
  | call t c => exact .inl hi
  | run t =>
      simp only [Act.relink] at hi
      unfold Pc.relink at hi
      split at hi
      next j hpc =>
        rcases List.mem_cons.mp hi with rfl | hmem
        · exact .inr ⟨t, rfl, hpc⟩
        · exact .inl hmem
      · exact .inl (List.mem_of_mem_erase hi)
      · exact .inl (List.mem_of_mem_erase hi)
      · exact .inl hi

/-- The task of a thread that is put in the registry has not run. -/
theorem Inv.wrapper_of_added (hinv : s.Inv base low high nodes)
    (hstep : s.step sizes (.run t) = some s') (hpc : s.pc t = .create i .addThread)
    (htask : (s.past i).task = some u) : s'.pc u = .wrapper i := by
  obtain ⟨u', htask', hwrapper, -⟩ := ((hinv.threads i).building t _ hpc rfl).hasTask rfl
  obtain rfl : u' = u := Option.some.inj (htask'.symm.trans htask)
  cases step_effect hstep with
  | kernel a k _ hnext =>
      subst hnext
      exact hwrapper
  | call t' c hact => cases hact
  | run t' hact hrun _ _ heffect =>
      cases hact
      have hu : u' ≠ t := by
        rintro rfl
        simp [hpc] at hwrapper
      rcases heffect.pc_cases (hinv.core.kernel.wait.spawned hrun) hu with hsame | ⟨hnext, -⟩
      · rw [hsame, hwrapper]
      · exact absurd hnext (Nat.ne_of_lt (hinv.lt_of_task htask))

/-- Nobody who is in the registry and freed has the address of a native task, unless the
native task was created there. -/
theorem Inv.step_untracked (hinv : s.Inv base low high nodes) (huntracked : s.Untracked)
    (hunshared : act.Unshared s) (hstep : s.step sizes act = some s') : s'.Untracked := by
  have hinv' := hinv.step (hinv.proper huntracked hunshared.1 hstep) hstep
  intro u hparam hlive
  rw [hinv'.findThread_none]
  intro i hi heq
  obtain ⟨v, htask, hxTask⟩ := (hinv'.threads i).task (hinv'.made_of_mem hi)
  have hfreed : ¬ (s'.info v).tcbLive := by
    intro hvlive
    have hvu : v = u := by
      by_contra hne
      exact hinv'.tcb_ne hvlive hlive hne (hxTask ▸ heq)
    subst hvu
    simp [(hinv'.roles.tasks i v).mp htask] at hparam
  have hdead : s'.pc v = .dead := by
    by_contra hne
    exact hfreed (hinv'.tcbLive_of_task htask hne)
  obtain ⟨t, h, fresh, htouches, hspawns⟩ := (step_effect hstep).touches
  have hold : fresh ≠ some v := by
    intro hfresh
    obtain ⟨rfl, -, hrun, hspawn⟩ := hspawns v hfresh
    have hne := Nat.ne_of_lt (hinv.core.kernel.wait.spawned hrun)
    cases hspawn with
    | native uxPriority pxStack pxNewTCB _ hinfo => simp [Sys.pc, hinfo hne, newInfo] at hdead
    | thread j uxPriority pxStack pxNewTCB _ hinfo => simp [Sys.pc, hinfo hne, newInfo] at hdead
  have htask' : (s.past i).task = some v := by
    refine (hinv.roles.tasks i v).mpr ?_
    have hparam' : (s'.info v).param = some i := (hinv'.roles.tasks i v).mp htask
    rwa [(htouches.info v hold).2.2.1] at hparam'
  rcases mem_of_relink hi with hmem | ⟨c, rfl, hadd⟩
  · have hxTask' : (s.desc i).xTask = (s.info v).tcb := by
      obtain ⟨v', hv', hxTask'⟩ := (hinv.threads i).task (hinv.made_of_mem hmem)
      obtain rfl : v' = v := Option.some.inj (hv'.symm.trans htask')
      exact hxTask'
    rw [hxTask, (htouches.info v hold).1, ← hxTask'] at heq
    by_cases hnew : fresh = some u
    · obtain ⟨rfl, rfl, hrun, hspawn⟩ := hspawns u hnew
      have hne := Nat.ne_of_lt (hinv.core.kernel.wait.spawned hrun)
      cases hspawn with
      | native uxPriority pxStack pxNewTCB hpc hinfo =>
          have hnone := hunshared.2 pxNewTCB (by rw [hpc]; rfl)
          rw [hinfo hne] at heq
          exact hinv.findThread_none.mp hnone i hmem heq
      | thread j uxPriority pxStack pxNewTCB _ hinfo => simp [hinfo hne, newInfo] at hparam
    · obtain ⟨htcb, -, hparam', hlive'⟩ := htouches.info u hnew
      have hnone := huntracked u (hparam' ▸ hparam) (hlive' hlive)
      exact hinv.findThread_none.mp hnone i hmem (htcb ▸ heq)
  · simp [hinv.wrapper_of_added hstep hadd htask'] at hdead

/-- `pthread_self` returns NULL to a native task, its `pthread_exit` changes no descriptor
and gives no semaphore, and a join returns only what its target has passed. -/
def Invisible (sizes : Sizes) (s : Sys α) : Prop :=
  (∀ u s', (s.info u).param = none → s.pc u = .self → s.step sizes (.run u) = some s' →
    (s'.info u).ret = some (.handle none)) ∧
  (∀ u pc s', (s.info u).param = none → s.pc u = .exit pc → s.step sizes (.run u) = some s' →
    s'.desc = s.desc ∧ s'.gThreadList = s.gThreadList ∧ s'.kern.queue = s.kern.queue ∧
    s'.heap = s.heap) ∧
  ∀ h value, (s.past h).use = .joined (some value) →
    ∃ u, (s.past h).task = some u ∧ (s.info u).exited = some value

/-- `pthread_exit` of a native task. -/
theorem Inv.native_exit (hinv : s.Inv base low high nodes) (hparam : (s.info u).param = none)
    {pc : ExitPc} (hpc : s.pc u = .exit pc) (hstep : s.step sizes (.run u) = some s') :
    s'.desc = s.desc ∧ s'.gThreadList = s.gThreadList ∧ s'.kern.queue = s.kern.queue ∧
      s'.heap = s.heap := by
  -- it has found no thread, and never will
  have hthread : pc.thread = none := by
    by_contra hne
    obtain ⟨i, hi⟩ := Option.ne_none_iff_exists'.mp hne
    simp [hinv.roles.own u i (by simp [hpc, Pc.own, hi])] at hparam
  cases step_effect hstep with
  | kernel a k _ _ hact =>
      rcases hact with ⟨-, hact⟩ | ⟨t, f, -, hact, hframe⟩
      · cases hact
      · cases hact
        rcases hinv.sems.calls u f hframe with ⟨h, -⟩ | ⟨_, _, h, -⟩ | ⟨_, h, -⟩
        · simp [hpc] at h
        · simp [hpc] at h
        · rw [hpc] at h
          cases h
          simp [ExitPc.thread] at hthread
  | call t c hact => cases hact
  | run t hact hrun hframe hadvance =>
      cases hact
      rw [hpc] at hadvance
      cases pc with
      | findThread value =>
          have hnone : (s.switchTo u).findThread ((s.switchTo u).info u).tcb = .ok none :=
            hinv.findThread_none.mpr (hinv.registry.untracked u value hpc hparam)
          simp only [advance, exit, hnone, Option.some.injEq] at hadvance
          subst hadvance
          exact ⟨rfl, rfl, rfl, rfl⟩
      | taskDelete =>
          simp only [advance, exit] at hadvance
          obtain ⟨k, hk, hs'⟩ := kernel_cases hadvance
          have hqueue : k.queue = s.kern.queue := by
            have hframe' : ((s.switchTo u).kern.task u).frame = none := hframe
            obtain ⟨-, hperform⟩ := State.step_perform rfl hframe' hk
            cases hperform
            exact State.vTaskDelete_queue (hinv.core.kernel.wait.not_listed hframe)
          rcases hs' with ⟨-, rfl⟩ | ⟨-, rfl⟩
          · exact ⟨rfl, rfl, hqueue, rfl⟩
          · exact ⟨rfl, rfl, hqueue, rfl⟩
      | _ => simp [ExitPc.thread] at hthread

end Sys

variable {sizes : Sizes} {heap : Heap4} {low high uxPriority stackBytes : Nat} {s₀ s : Sys α}

/-- In a run in which no native task is created at the address of a node of the registry,
the registry does not see native tasks. -/
theorem unshared_invisible (hsound : Sound heap low high)
    (hboot : Sys.boot sizes heap uxPriority stackBytes = some s₀)
    (hreach : Lib.Reach (Sys.step sizes) (fun s act => Act.Unshared s act) s₀ s) :
    s.Invisible sizes := by
  have hinv : (∃ nodes, s.Inv heap.block low high nodes) ∧ s.Untracked := by
    -- no block on the list is at the address of a native task, as long as none shares one
    refine hreach.invariant (fun s => (∃ nodes, s.Inv heap.block low high nodes) ∧ s.Untracked)
      ⟨⟨[], Sys.boot_inv hsound hboot⟩, fun u _ _ => ?_⟩ ?_
    · rw [(Sys.boot_inv hsound hboot).findThread_none]
      simp
    · rintro s act s' ⟨⟨nodes, hinv⟩, huntracked⟩ hunshared hstep
      exact ⟨⟨_, hinv.step (hinv.proper huntracked hunshared.1 hstep) hstep⟩,
        hinv.step_untracked huntracked hunshared hstep⟩
  obtain ⟨⟨nodes, hinv⟩, huntracked⟩ := hinv
  refine ⟨fun u s' hparam hpc hstep => ?_, fun u pc s' hparam hpc hstep =>
      hinv.native_exit hparam hpc hstep,
    fun h value huse => ?_⟩
  · refine hinv.self_returns hpc (huntracked u hparam ((hinv.tasks.tcb u).mpr ⟨?_, ?_, ?_⟩)) hstep
    · by_contra hge
      simp [(hinv.tasks.unborn u (Nat.le_of_not_lt hge)).1] at hpc
    · rintro rfl
      have hidles := hinv.tasks.idle.1
      simp [hpc, Pc.idles] at hidles
    · exact .inl (by simp [hpc])
  · obtain ⟨-, -, -, u, v, htask, hexited, hvalue⟩ := hinv.joined huse
    exact ⟨u, htask, hvalue value rfl ▸ hexited⟩

/-- A thread has ended, and is not joined. -/
def endedSchedule : List (Act Unit) :=
  createSchedule 1 1 ++ [.run 2, .run 2, .call 2 (.pthreadExit 7)] ++ List.replicate 9 (.run 2)

/-- A native task is created before the idle task has freed the thread, and asks for
its handle. -/
def nativeSchedule : List (Act Unit) :=
  endedSchedule ++ [.call 1 (.xTaskCreate 1 4096), .run 1, .run 1, .run 1, .call 3 .pthreadSelf]

theorem unshared_invisible_schedule : ∃ s s' : Sys Unit,
    demoRun (fun s act => decide (act.Unshared s)) nativeSchedule = some s ∧
      s.step demoSizes (.run 3) = some s' ∧ (s'.info 3).ret = some (.handle none) := by
  have hrun : ((demoRun (fun s act => decide (act.Unshared s)) nativeSchedule).bind fun s =>
      (s.step demoSizes (.run 3)).map fun _ => decide ((s.info 3).param = none ∧ s.pc 3 = .self)) =
      some true := by
    decide +kernel
  obtain ⟨s, hs, hrest⟩ := Option.bind_eq_some_iff.mp hrun
  obtain ⟨s', hs', hvalues⟩ := Option.map_eq_some_iff.mp hrest
  obtain ⟨hparam, hpc⟩ := of_decide_eq_true hvalues
  obtain ⟨s₀, hboot, hreach⟩ := demoRun_reach (fun _ _ => of_decide_eq_true) hs
  obtain ⟨low, high, hsound⟩ := demoHeap_sound
  exact ⟨s, s', hs, hs', (unshared_invisible hsound hboot hreach).1 3 s' hparam hpc hs'⟩

/-- The native task is created after the idle task has freed the thread, and calls
`pthread_exit`. The thread is joined after that. -/
def sharedSchedule : List (Act Unit) :=
  endedSchedule ++ List.replicate 3 (.run 0) ++
    [.call 1 (.xTaskCreate 1 4096), .run 1, .run 1, .run 1, .call 3 (.pthreadExit 9), .run 3,
     .run 3, .call 1 (.pthreadJoin (some 0) true)] ++
    List.replicate 10 (.run 1)

/-- The join returns the value of the native task. -/
theorem shared_address_visible : ∃ s₀ s : Sys Unit, Sys.boot demoSizes demoHeap 1 400 = some s₀ ∧
    Lib.Reach (Sys.step demoSizes) (fun s act => Act.Lawful s act) s₀ s ∧
    (s.past 0).task = some 2 ∧ (s.info 2).exited = some 7 ∧ (s.past 0).use = .joined (some 9) ∧
    ¬ s.Invisible demoSizes := by
  have hrun : (demoRun (fun s act => decide (act.Lawful s)) sharedSchedule).map (fun s =>
      decide ((s.past 0).task = some 2 ∧ (s.info 2).exited = some 7 ∧
        (s.past 0).use = .joined (some 9))) = some true := by
    decide +kernel
  obtain ⟨s, hs, hvalues⟩ := Option.map_eq_some_iff.mp hrun
  obtain ⟨htask, hexited, huse⟩ := of_decide_eq_true hvalues
  obtain ⟨s₀, hboot, hreach⟩ := demoRun_reach (fun _ _ => of_decide_eq_true) hs
  refine ⟨s₀, s, hboot, hreach, htask, hexited, huse, fun hinvisible => ?_⟩
  obtain ⟨u, hu, hvalue⟩ := hinvisible.2.2 0 9 huse
  cases htask.symm.trans hu
  simp [hexited] at hvalue

end SimulatedLinux.Thread
