import SimulatedLinux.Kernel.OneQueue

/-! # Who runs after a step

The thread layer keeps the scheduler suspended over several kernel calls. What such
a call does to the processor is said here: only the two suspension calls change how
often the scheduler is suspended.
-/

namespace SimulatedLinux.Kernel

variable {α : Type}

/-- The suspension count after a call made outside of a blocking function. -/
def Act.suspension (suspended : Nat) : Act α → Nat
  | suspendAll _ => suspended + 1
  | resumeAll _ => suspended - 1
  | _ => suspended

namespace State

variable {k k' : State α} {t : TaskId} {act : Act α}

/-- What a step outside of a blocking function starts with. -/
theorem step_perform (hactor : act.actor = some t) (hframe : (k.task t).frame = none)
    (hstep : k.step act = some k') : k.canRun t ∧ (k.switchTo t).perform act = some k' := by
  unfold step at hstep
  simp only [hactor, hframe] at hstep
  split at hstep
  next hrun => exact ⟨hrun, hstep⟩
  next => simp at hstep

/-- The step by which a task enters a call. -/
theorem step_call {api : Api α} (hframe : (k.task t).frame = none)
    (hstep : k.step (.call t api) = some k') :
    k' = (k.switchTo t).enter t api := by
  have hperform := (step_perform rfl hframe hstep).2
  exact (Option.some.inj hperform).symm

/-- The only step of a task inside a call is one of its blocking function. -/
theorem step_inside {f : Frame α} (hframe : (k.task t).frame = some f) (hactor : act.actor = some t)
    (hstep : k.step act = some k') :
    k' = (k.switchTo t).runFrame t f := by
  unfold step at hstep
  rw [hactor] at hstep
  dsimp only at hstep
  split at hstep
  · split at hstep
    next frame _ hsome =>
      obtain rfl : frame = f := Option.some.inj (hsome.symm.trans hframe)
      exact (Option.some.inj hstep).symm
    next => simp at hstep
    next hnone =>
      rw [hframe] at hnone
      cases hnone
  · simp at hstep

theorem step_canRun (hactor : act.actor = some t) (hstep : k.step act = some k') : k.canRun t := by
  unfold step at hstep
  simp only [hactor] at hstep
  split at hstep
  next hrun => exact hrun
  next => simp at hstep

/-- Scheduling the caller first makes no difference. -/
theorem step_switchTo (hrun : k.canRun t) (hactor : act.actor = some t) :
    (k.switchTo t).step act = k.step act := by
  have hrun' : (k.switchTo t).canRun t := by
    simp only [canRun, switchTo, Bool.and_eq_true] at hrun ⊢
    refine ⟨hrun.1, ?_⟩
    split
    next hzero => exact decide_eq_true (by simpa [hzero] using hrun.2)
    next => simp
  unfold step
  simp only [hactor, hrun, hrun', if_true]
  rfl

/-- A task that deletes itself outside of a blocking function is in no wait list. -/
theorem vTaskDelete_queue (hevent : (k.task t).xEventList = none) :
    (k.vTaskDelete t).queue = k.queue := by
  have hremove : k.removeEventItem t = k := by simp [removeEventItem, hevent]
  simp only [vTaskDelete, hremove]
  split <;> rfl

theorem cpu_vTaskDelay (hinv : WaitInv k) (hframe : k.view.frame k.pxCurrentTCB = none)
    (xTicksToDelay : Nat) : (k.vTaskDelay xTicksToDelay).cpu = k.cpu := by
  unfold vTaskDelay
  split
  · rfl
  · obtain ⟨state, hsched⟩ : ∃ state,
        (k.vTaskSuspendAll.prvAddCurrentTaskToDelayedList xTicksToDelay false).sched =
          k.sched.setState k.pxCurrentTCB state :=
      ⟨_, sched_modTask_state k.vTaskSuspendAll _ (by split <;> rfl)⟩
    have hlists : Lists (k.vTaskSuspendAll.prvAddCurrentTaskToDelayedList xTicksToDelay
        false).sched k.view.frame k.view.nextTask := by
      rw [hsched]
      exact hinv.lists.setState hinv.window.current (hinv.not_listed hframe)
    obtain ⟨-, -, hcpu⟩ := xTaskResumeAll_lists hlists
    exact hcpu

/-- A call made outside of a blocking function leaves its caller running. -/
theorem step_cpu (hinv : KernelInv k) (hactor : act.actor = some t)
    (hframe : (k.task t).frame = none) (hstep : k.step act = some k') :
    k'.cpu = (act.suspension k.cpu.1, t) := by
  obtain ⟨hrun, hperform⟩ := step_perform hactor hframe hstep
  have hwait := hinv.wait.switchTo hrun (hinv.wait.spawned hrun)
  have hcpu : (k.switchTo t).cpu = (k.cpu.1, t) := rfl
  cases act with
  | tick => simp [perform] at hperform
  | run => simp [perform] at hperform
  | call u api =>
      cases hactor
      cases hperform
      rw [cpu_enter, hcpu]
      rfl
  | create u spec =>
      simp only [perform] at hperform
      split at hperform <;> cases hperform <;> exact hcpu
  | delete u q =>
      simp only [perform] at hperform
      split at hperform <;> cases hperform <;> exact hcpu
  | spawn u uxPriority =>
      simp only [perform] at hperform
      split at hperform <;> cases hperform <;> exact hcpu
  | exit u =>
      cases hactor
      cases hperform
      unfold vTaskDelete
      rw [hwait.removeEventItem_eq hframe]
      split <;> exact hcpu
  | reap u =>
      cases hperform
      unfold prvCheckTasksWaitingTermination
      split <;> exact hcpu
  | delay u xTicksToDelay =>
      simp only [perform] at hperform
      split at hperform <;> cases hperform
      · rw [cpu_vTaskDelay hwait hframe]
        exact hcpu
      · exact hcpu
  | suspendAll u =>
      cases hperform
      rfl
  | resumeAll u =>
      simp only [perform] at hperform
      split at hperform <;> cases hperform
      next hzero =>
        have hzero' : k.cpu.1 = 0 := hzero
        have hsame : ((k.switchTo t).halt .assertion).cpu = (k.cpu.1, t) := hcpu
        rw [hsame, hzero']
        rfl
      next =>
        obtain ⟨-, -, hresumed⟩ := xTaskResumeAll_lists hwait.lists
        exact hresumed

theorem step_suspendAll (hframe : (k.task t).frame = none)
    (hstep : k.step (.suspendAll t) = some k') : k'.view = k.view := by
  obtain ⟨-, hperform⟩ := step_perform rfl hframe hstep
  cases hperform
  rfl

theorem step_resumeAll (hframe : (k.task t).frame = none) (hne : k.uxSchedulerSuspended ≠ 0)
    (hstep : k.step (.resumeAll t) = some k') : k'.view = k.view := by
  obtain ⟨-, hperform⟩ := step_perform rfl hframe hstep
  simp only [perform] at hperform
  split at hperform <;> cases hperform
  next hzero => exact absurd hzero hne
  next => exact view_xTaskResumeAll (k.switchTo t)

theorem step_tick_cpu (hstep : k.step .tick = some k') : k'.cpu = k.cpu := by
  unfold step at hstep
  simp only [Act.actor] at hstep
  split at hstep
  · cases hstep
    rw [cpu_xTaskIncrementTick]
  · simp at hstep

/-- A step inside a blocking function leaves its caller running, and a call that is
over does not leave the scheduler suspended. -/
theorem step_run_cpu (hinv : KernelInv k) (hstep : k.step (.run t) = some k') :
    k'.cpu.2 = t ∧ ((k'.task t).frame = none → k'.cpu.1 = 0) := by
  have hrun := step_canRun rfl hstep
  obtain ⟨f, hframe, hran⟩ := step_run_ran hstep
  have hwait := hinv.wait.switchTo hrun (hinv.wait.spawned hrun)
  have hrunning : Running (k.switchTo t) t f :=
    ⟨hwait, rfl, hframe, ((k.canRun_iff t).mp hrun).2.1⟩
  have hk' := step_run hframe hstep
  refine ⟨by rw [hk']; exact hrunning.runFrame_current, fun hnone => ?_⟩
  have hleave : ∃ res, f.pc = .leave res := by
    have hframe' : k.view.frame t = some f := hframe
    have hnone' : k'.view.frame t = none := hnone
    generalize k'.view = v' at hran hnone'
    cases hran with
    | left res elapsed hpc => exact ⟨res, hpc⟩
    | halted => simp [hframe'] at hnone'
    | _ => simp [View.setFrame, View.complete] at hnone'
  obtain ⟨res, hpc⟩ := hleave
  have hzero := hrunning.suspended_eq
  rw [hpc, if_neg (by simp [Pc.inWindow])] at hzero
  have hleft : k'.cpu = (k.switchTo t).cpu := by
    rw [hk']
    unfold runFrame
    simp only [hpc, Pc.touchesQueue, Bool.false_and, Bool.false_eq_true, if_false]
    unfold leave
    cases f.api.locks <;> cases res <;> rfl
  rw [hleft]
  exact hzero

end State

/-- A call outside of a blocking function that stops the system changes nothing else. -/
theorem Stepped.of_fault {v v' : View α} {act : Act α} {t : TaskId} (hstepped : Stepped v act v')
    (hactor : act.actor = some t) (hframe : v.frame t = none) (hnone : v.fault = none)
    (hfault : v'.fault ≠ none) :
    v' = { v with fault := some .assertion } ∨ ∃ q, act = .delete t q ∧ (v.queue q).live = false ∧
      v' = { v with fault := some (.useAfterFree q) } := by
  cases hstepped with
  | scheduled => exact absurd hnone hfault
  | asserted => exact .inl rfl
  | freed u q hdead =>
      cases hactor
      exact .inr ⟨q, rfl, hdead, rfl⟩
  | ran hframe' =>
      cases hactor
      simp [hframe'] at hframe
  | called u api startTick =>
      rw [View.enter_fault] at hfault
      exact absurd hnone hfault
  | created => exact absurd hnone hfault
  | deleted => exact absurd hnone hfault
  | spawned => exact absurd hnone hfault
  | exited => exact absurd hnone hfault
  | reaped =>
      refine absurd ?_ hfault
      unfold View.reap
      split <;> exact hnone

/-! ## What a step inside a call leaves alone -/

namespace Contents

/-- What no operation on a queue changes. -/
structure Same (C C' : Contents α) : Prop where
  live : C'.live = C.live
  uxLength : C'.uxLength = C.uxLength
  uxItemSize : C'.uxItemSize = C.uxItemSize
  isMutex : C'.isMutex = C.isMutex

theorem Same.refl (C : Contents α) : C.Same C := ⟨rfl, rfl, rfl, rfl⟩

theorem same_sent (C : Contents α) (item : Option α) : C.Same (C.sent item) := by
  unfold sent
  split <;> exact ⟨rfl, rfl, rfl, rfl⟩

end Contents

namespace Ran

variable {v v' : View α} {t : TaskId} {frame : Frame α}

theorem queue_ne (hran : Ran v t frame v') {q : QueueId} (hq : q ≠ frame.xQueue) :
    v'.queue q = v.queue q := by
  have hreleased : (v.released t frame.xQueue).queue = v.queue := by
    unfold View.released
    split <;> rfl
  have hacquired : (v.acquired t frame.xQueue).queue = v.queue := by
    unfold View.acquired
    split <;> rfl
  cases hran with
  | sent => simp [View.complete, View.setFrame, View.setQueue, hq, hreleased]
  | received => simp [View.complete, View.setFrame, View.setQueue, hq]
  | taken => simp [View.complete, View.setFrame, View.setQueue, hq, hacquired]
  | left res elapsed hpc =>
      unfold View.leave
      cases frame.api.locks <;> cases res <;> rfl
  | _ => rfl

theorem queue_same (hran : Ran v t frame v') (q : QueueId) : (v.queue q).Same (v'.queue q) := by
  by_cases hq : q = frame.xQueue
  · subst hq
    cases hran with
    | sent item =>
        simp only [View.complete, View.setFrame, View.setQueue, Function.update_self]
        exact Contents.same_sent _ item
    | received =>
        simp only [View.complete, View.setFrame, View.setQueue, Function.update_self]
        exact ⟨rfl, rfl, rfl, rfl⟩
    | taken =>
        simp only [View.complete, View.setFrame, View.setQueue, Function.update_self]
        exact ⟨rfl, rfl, rfl, rfl⟩
    | left res elapsed hpc =>
        unfold View.leave
        cases frame.api.locks <;> cases res <;> exact .refl _
    | _ => exact .refl _
  · rw [hran.queue_ne hq]
    exact .refl _

theorem nextTask (hran : Ran v t frame v') : v'.nextTask = v.nextTask := by
  cases hran with
  | sent =>
      simp only [View.complete, View.setFrame, View.setQueue, View.released]
      split <;> rfl
  | taken =>
      simp only [View.complete, View.setFrame, View.setQueue, View.acquired]
      split <;> rfl
  | left res elapsed hpc =>
      unfold View.leave
      cases frame.api.locks <;> cases res <;> rfl
  | _ => rfl

theorem fault_cases (hran : Ran v t frame v') :
    v'.fault = v.fault ∨ ∃ fault, Faults v t frame fault ∧ v'.fault = some fault := by
  cases hran with
  | halted fault hfaults => exact .inr ⟨fault, hfaults, rfl⟩
  | sent =>
      simp only [View.complete, View.setFrame, View.setQueue, View.released]
      split <;> exact .inl rfl
  | taken =>
      simp only [View.complete, View.setFrame, View.setQueue, View.acquired]
      split <;> exact .inl rfl
  | left res elapsed hpc =>
      unfold View.leave
      cases frame.api.locks <;> cases res <;> exact .inl rfl
  | _ => exact .inl rfl

theorem ret_ne (hran : Ran v t frame v') {u : TaskId} (hu : u ≠ t) : v'.ret u = v.ret u := by
  cases hran with
  | sent =>
      simp only [View.complete, View.setFrame, View.setQueue, View.released]
      split <;> rfl
  | taken =>
      simp only [View.complete, View.setFrame, View.setQueue, View.acquired]
      split <;> rfl
  | left res elapsed hpc =>
      unfold View.leave
      cases frame.api.locks <;> cases res <;> simp [View.setRet, View.setFrame, hu]
  | _ => rfl

end Ran

theorem KernelInv.switchTo {k : State α} {t : TaskId} (hinv : KernelInv k) (hrun : k.canRun t) :
    KernelInv (k.switchTo t) :=
  ⟨hinv.wait.switchTo hrun (hinv.wait.spawned hrun), hinv.dying.switchTo hrun⟩

/-- The queue that an act makes or deletes. -/
def Act.remakes (nextQueue : QueueId) : Act α → Option QueueId
  | create _ _ => some nextQueue
  | delete _ q => some q
  | _ => none

/-- No other act makes or deletes a queue. -/
theorem Stepped.live {v v' : View α} {act : Act α} (hstepped : Stepped v act v') {q : QueueId}
    (hq : act.remakes v.nextQueue ≠ some q) : (v'.queue q).live = (v.queue q).live := by
  cases hstepped with
  | ran _ hran => exact (hran.queue_same q).live
  | called t api startTick =>
      rw [View.enter_queue]
  | created t spec Q =>
      have hne : q ≠ v.nextQueue := fun heq => hq (by rw [heq]; rfl)
      simp [View.addQueue, hne]
  | deleted t q' =>
      have hne : q ≠ q' := fun heq => hq (by rw [heq]; rfl)
      simp [View.setQueue, hne]
  | reaped t =>
      unfold View.reap
      split <;> rfl
  | _ => rfl

/-! ## The number of tasks -/

/-- What the kernel counts as tasks. -/
def View.tasks (v : View α) : Nat × Nat × List TaskId :=
  (v.nextTask, v.uxCurrentNumberOfTasks, v.xTasksWaitingTermination)

/-- The acts that create, end or remove a task. -/
def Act.counts : Act α → Bool
  | .spawn _ _ | .exit _ | .reap _ => true
  | _ => false

/-- No other act changes the number of tasks. -/
theorem Stepped.tasks {v v' : View α} {a : Act α} (hstepped : Stepped v a v')
    (hcounts : a.counts = false) : v'.tasks = v.tasks := by
  cases hstepped with
  | ran _ hran =>
      cases hran with
      | sent =>
          simp only [View.complete, View.setFrame, View.setQueue, View.released]
          split <;> rfl
      | taken =>
          simp only [View.complete, View.setFrame, View.setQueue, View.acquired]
          split <;> rfl
      | left res elapsed hpc =>
          unfold View.leave
          split <;> rfl
      | _ => rfl
  | called t api startTick =>
      rw [View.enter_eq]
      rfl
  | spawned => simp [Act.counts] at hcounts
  | exited => simp [Act.counts] at hcounts
  | reaped => simp [Act.counts] at hcounts
  | _ => rfl

/-- A task is made only by a spawn. -/
theorem Stepped.nextTask_cases {v v' : View α} {a : Act α} (hstepped : Stepped v a v') :
    v'.nextTask = v.nextTask ∨ (∃ c uxPriority, a = .spawn c uxPriority) ∧ v' = v.addTask := by
  cases hstepped with
  | spawned c uxPriority => exact .inr ⟨⟨c, uxPriority, rfl⟩, rfl⟩
  | ran _ hran => exact .inl hran.nextTask
  | called c api startTick => exact .inl (View.enter_nextTask v c api startTick)
  | reaped c =>
      refine .inl ?_
      unfold View.reap
      split <;> rfl
  | _ => exact .inl rfl

end SimulatedLinux.Kernel
