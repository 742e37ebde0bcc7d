import SimulatedLinux.Kernel.Invariant

/-! # The kernel invariant in every run

The step lemma and the run lemma: the invariant of the blocking functions holds in
every state that is reached by calls made with the scheduler running.
-/

namespace SimulatedLinux.Kernel

variable {α : Type}

namespace Ran

variable {v v' : View α} {t : TaskId} {frame : Frame α}

theorem frame_ne (hran : Ran v t frame v') {u : TaskId} (hu : u ≠ t) : v'.frame u = v.frame u := by
  cases hran <;> simp [View.setFrame, View.complete, View.setQueue, View.released, View.acquired,
    View.setHeld, View.leave, View.setRet, hu]
  · split <;> rfl
  · split <;> rfl
  · split <;> simp [hu]

theorem termination (hran : Ran v t frame v') :
    v'.xTasksWaitingTermination = v.xTasksWaitingTermination := by
  cases hran <;> simp [View.setFrame, View.complete, View.setQueue, View.released, View.acquired,
    View.setHeld, View.leave, View.setRet]
  · split <;> rfl
  · split <;> rfl
  · split <;> rfl

end Ran

theorem State.cpu_enter (k : State α) (t : TaskId) (api : Api α) : (k.enter t api).cpu = k.cpu := by
  unfold enter
  cases api.unlocks <;> cases api.request <;> rfl

theorem State.cpu_attempt (k : State α) (t : TaskId) (frame : Frame α) :
    (k.attempt t frame).cpu = k.cpu := by
  have hwake {k' : State α} (hcpu : k'.cpu = k.cpu) (list : EventList) (res : QueueResult α) :
      (((k'.retried t frame.waitList).wakeFirst list).complete t frame res).cpu = k.cpu :=
    (State.cpu_wakeFirst (k'.retried t frame.waitList) list).trans hcpu
  have hwait : (k.failOrWait t frame).cpu = k.cpu := by
    unfold State.failOrWait
    dsimp only
    split <;> rfl
  unfold State.attempt State.xQueueGenericSend State.xQueueReceive State.xQueueSemaphoreTake
  dsimp only
  split
  · split
    · split
      · rfl
      next hcopy => exact hwake (State.cpu_prvCopyDataToQueue k hcopy) _ _
    · exact hwait
  · split
    · refine hwake ?_ _ _
      rfl
    · exact hwait
  · split
    · exact hwake (State.cpu_takeCount k _) _ _
    · exact hwait

namespace Running

variable {k : State α} {t : TaskId} {frame : Frame α}

/-- A step that does not resume the scheduler ends with the same task running, and the scheduler
suspended if it was. -/
theorem runFrame_cpu (hrun : Running k t frame) (hpc : ∀ after, frame.pc ≠ .resumeAll after) :
    (k.runFrame t frame).cpu.2 = t ∧ k.cpu.1 ≤ (k.runFrame t frame).cpu.1 := by
  have hcurrent : k.cpu.2 = t := hrun.current
  have hsame {k' : State α} (hcpu : k'.cpu = k.cpu) : k'.cpu.2 = t ∧ k.cpu.1 ≤ k'.cpu.1 := by
    rw [hcpu]
    exact ⟨hcurrent, Nat.le_refl _⟩
  unfold State.runFrame
  dsimp only
  split
  next => exact hsame rfl
  next =>
    split
    next => split <;> exact hsame rfl
    next => exact hsame (k.cpu_attempt t frame)
    next => exact ⟨hcurrent, Nat.le_succ _⟩
    next => exact hsame rfl
    next => exact hsame rfl
    next =>
      split
      · split <;> exact hsame rfl
      · exact hsame rfl
    next => exact hsame (State.cpu_xTaskPriorityInherit k _)
    next => exact hsame (State.cpu_vTaskPlaceOnEventList k frame.waitList frame.xTicksToWait)
    next =>
      have hlock : (k.queue frame.xQueue).cTxLock ≤ 0 := (hrun.inv.lists.unlocked _).2
      rw [State.prvUnlockQueueTx, wakeLocked_eq _ _ hlock]
      exact hsame rfl
    next =>
      have hlock : (k.queue frame.xQueue).cRxLock ≤ 0 := (hrun.inv.lists.unlocked _).1
      rw [State.prvUnlockQueueRx, wakeLocked_eq _ _ hlock]
      exact hsame rfl
    next after hresume => exact absurd hresume (hpc after)
    next => split <;> exact hsame rfl
    next res _ =>
      unfold State.leave
      cases frame.api.locks <;> cases res <;> exact hsame rfl

/-- A step inside a blocking function ends with the same task running. -/
theorem runFrame_current (hrun : Running k t frame) : (k.runFrame t frame).cpu.2 = t := by
  by_cases hpc : ∃ after, frame.pc = .resumeAll after
  · obtain ⟨after, hpc⟩ := hpc
    obtain ⟨-, -, hcpu⟩ := State.xTaskResumeAll_lists hrun.inv.lists
    have hresumed : k.xTaskResumeAll.cpu.2 = t := (congrArg Prod.snd hcpu).trans hrun.current
    unfold State.runFrame State.afterResume
    simp only [hpc, Pc.touchesQueue, Bool.false_and, Bool.false_eq_true, if_false]
    split <;> exact hresumed
  · exact (hrun.runFrame_cpu (not_exists.mp hpc)).1

end Running

namespace Dying

variable {k k' : State α} {t : TaskId}

theorem alive_of_canRun (hdying : Dying k) (hrun : k.canRun t) : (k.sched.xStateList t).alive := by
  obtain ⟨-, hready, hcurrent⟩ := (k.canRun_iff t).mp hrun
  by_cases hzero : k.uxSchedulerSuspended = 0
  · rw [hready hzero]
    rfl
  · by_contra hdead
    exact hdying.stopped t hdead hzero (hcurrent hzero)

/-- A step of a task that is alive, which creates and ends none. -/
theorem settle (hdying : Dying k) (hsettles : k.sched.Settles k'.sched)
    (hlist : k'.view.xTasksWaitingTermination = k.view.xTasksWaitingTermination)
    (hframe : ∀ u, u ≠ t → k'.view.frame u = k.view.frame u)
    (halive : (k.sched.xStateList t).alive) (hcpu : k'.cpu.2 = t) : Dying k' := by
  have hdead : ∀ u, ¬ (k'.sched.xStateList u).alive →
      ¬ (k.sched.xStateList u).alive ∧ u ≠ t := by
    intro u hu
    rcases hsettles u with heq | ⟨-, halive'⟩
    · rw [heq] at hu
      exact ⟨hu, fun h => hu (h ▸ halive)⟩
    · exact absurd halive' hu
  refine ⟨hlist ▸ hdying.nodup, ?_, ?_, ?_⟩
  · intro u
    rw [hlist, hdying.listed u]
    rcases hsettles u with heq | ⟨hbefore, hafter⟩
    · rw [heq]
    · constructor <;> intro hstate
      · simp [hstate, StateList.alive] at hbefore
      · simp [hstate, StateList.alive] at hafter
  · intro u hu
    obtain ⟨hbefore, hne⟩ := hdead u hu
    rw [hframe u hne]
    exact hdying.idle u hbefore
  · intro u hu _
    rw [hcpu]
    exact fun heq => (hdead u hu).2 heq.symm

theorem halt (hdying : Dying k) (fault : Fault) : Dying (k.halt fault) :=
  ⟨hdying.nodup, hdying.listed, hdying.idle, hdying.stopped⟩

/-- No task is created or ends, and the same one runs. -/
theorem shrink (hdying : Dying k) (hview : k'.view = k.view) (hcpu : k'.cpu = k.cpu)
    (hshrinks : k.sched.Shrinks k'.sched) : Dying k' := by
  have hdead : ∀ u, ¬ (k'.sched.xStateList u).alive → ¬ (k.sched.xStateList u).alive := by
    intro u hu
    rcases hshrinks.settles u with heq | ⟨-, halive⟩
    · rwa [heq] at hu
    · exact absurd halive hu
  refine ⟨?_, ?_, ?_, ?_⟩
  · rw [hview]
    exact hdying.nodup
  · intro u
    rw [hview, hdying.listed u]
    rcases hshrinks.settles u with heq | ⟨hbefore, hafter⟩
    · rw [heq]
    · constructor <;> intro hstate
      · simp [hstate, StateList.alive] at hbefore
      · simp [hstate, StateList.alive] at hafter
  · intro u hu
    rw [hview]
    exact hdying.idle u (hdead u hu)
  · intro u hu
    rw [hcpu]
    exact hdying.stopped u (hdead u hu)

theorem tick (hdying : Dying k) (hinv : WaitInv k) : Dying k.xTaskIncrementTick := by
  obtain ⟨-, hshrinks⟩ := State.xTaskIncrementTick_lists hinv.lists
  exact hdying.shrink (State.view_xTaskIncrementTick k) (State.cpu_xTaskIncrementTick k) hshrinks

theorem switchTo (hdying : Dying k) (hrun : k.canRun t) : Dying (k.switchTo t) := by
  have halive := hdying.alive_of_canRun hrun
  exact hdying.settle (t := t) (.refl _) rfl (fun _ _ => rfl) halive rfl

theorem spawn (hdying : Dying k) (hinv : WaitInv k) (hcurrent : k.pxCurrentTCB = t)
    (halive : (k.sched.xStateList t).alive) (uxPriority : Nat) :
    Dying (k.prvAddNewTaskToReadyList uxPriority) := by
  have hview := State.view_prvAddNewTaskToReadyList k uxPriority
  have hstate (u : TaskId) : (k.prvAddNewTaskToReadyList uxPriority).sched.xStateList u =
      if u = k.nextTask then .ready else k.sched.xStateList u := by
    simp only [State.sched, State.prvAddNewTaskToReadyList, Function.update_apply]
    split <;> rfl
  have habsent := hinv.lists.unspawned k.nextTask (Nat.le_refl _)
  refine ⟨?_, ?_, ?_, ?_⟩
  · rw [hview]
    exact hdying.nodup
  · intro u
    rw [hview, hstate u]
    by_cases hu : u = k.nextTask
    · subst hu
      simp only [if_true, reduceCtorEq, iff_false]
      intro hmem
      have hterm := (hdying.listed k.nextTask).mp hmem
      simp [habsent] at hterm
    · rw [if_neg hu]
      exact hdying.listed u
  · intro u hu
    rw [hstate u] at hu
    rw [hview]
    by_cases hne : u = k.nextTask
    · simp [hne, StateList.alive] at hu
    · rw [if_neg hne] at hu
      have hne' : u ≠ k.view.nextTask := hne
      simpa [View.addTask, hne'] using hdying.idle u hu
  · intro u hu _
    rw [hstate u] at hu
    by_cases hne : u = k.nextTask
    · simp [hne, StateList.alive] at hu
    · rw [if_neg hne] at hu
      intro heq
      have heq' : t = u := hcurrent.symm.trans heq
      exact hu (heq' ▸ halive)

theorem exit (hdying : Dying k) (hinv : WaitInv k) (hframe : k.view.frame t = none)
    (halive : (k.sched.xStateList t).alive) : Dying (k.vTaskDelete t) := by
  unfold State.vTaskDelete
  split
  next hzero =>
    rw [hinv.removeEventItem_eq hframe]
    have hview := State.view_modTask_wait k t
      (f := fun T => { T with xStateList := .waitingTermination }) rfl rfl rfl
    have hsched := State.sched_modTask_state k t
      (f := fun T => { T with xStateList := .waitingTermination }) rfl
    have hfresh : t ∉ k.view.xTasksWaitingTermination := by
      intro hmem
      simp [(hdying.listed t).mp hmem, StateList.alive] at halive
    have hstate (u : TaskId) := congrFun (congrArg Sched.xStateList hsched) u
    have hother (u : TaskId) := congrFun (congrArg View.frame hview) u
    refine ⟨?_, ?_, ?_, ?_⟩
    · exact List.nodup_append.mpr ⟨hdying.nodup, by simp,
        fun u hu w hw huw => hfresh (List.mem_singleton.mp hw ▸ huw ▸ hu)⟩
    · intro u
      refine Iff.trans ?_ (Eq.congr_left (hstate u)).symm
      by_cases hu : u = t
      · subst hu
        simp [State.view, Sched.setState]
      · have hlisted := hdying.listed u
        simp only [State.view] at hlisted
        simp [State.view, Sched.setState, hu, hlisted]
    · intro u hu
      refine (hother u).trans ?_
      by_cases hut : u = t
      · subst hut
        exact hframe
      · refine hdying.idle u fun h => hu ?_
        refine (congrArg StateList.alive (hstate u)).trans ?_
        simpa [Sched.setState, hut] using h
    · intro u _ hne
      exact absurd hzero hne
  next => exact hdying.halt _

theorem reap (hdying : Dying k) : Dying k.prvCheckTasksWaitingTermination := by
  cases hlist : k.xTasksWaitingTermination with
  | nil =>
      rw [State.prvCheckTasksWaitingTermination, hlist]
      exact hdying
  | cons t rest =>
      have hsched := State.sched_modTask_state k t
        (f := fun T => { T with xStateList := .absent }) rfl
      have hview := State.view_modTask_wait k t
        (f := fun T => { T with xStateList := .absent }) rfl rfl rfl
      have hstate (u : TaskId) := congrFun (congrArg Sched.xStateList hsched) u
      have hother (u : TaskId) := congrFun (congrArg View.frame hview) u
      have hlisted (u : TaskId) : u ∈ t :: rest ↔ k.sched.xStateList u = .waitingTermination := by
        rw [← hlist]
        exact hdying.listed u
      have hnodup : (t :: rest).Nodup := by
        rw [← hlist]
        exact hdying.nodup
      have hdead (u : TaskId) (hu : ¬ ((k.sched.setState t .absent).xStateList u).alive) :
          ¬ (k.sched.xStateList u).alive := by
        by_cases hut : u = t
        · subst hut
          simp [(hlisted u).mp (by simp), StateList.alive]
        · simpa [Sched.setState, hut] using hu
      rw [State.prvCheckTasksWaitingTermination, hlist]
      refine ⟨(List.nodup_cons.mp hnodup).2, ?_, ?_, ?_⟩
      · intro u
        refine Iff.trans ?_ (Eq.congr_left (hstate u)).symm
        by_cases hut : u = t
        · subst hut
          simpa [State.view, Sched.setState] using (List.nodup_cons.mp hnodup).1
        · have hiff := hlisted u
          simp only [List.mem_cons, hut, false_or] at hiff
          simp [State.view, Sched.setState, hut, hiff]
      · intro u hu
        refine (hother u).trans (hdying.idle u (hdead u fun h => hu ?_))
        exact (congrArg StateList.alive (hstate u)).trans h
      · intro u hu
        refine hdying.stopped u (hdead u fun h => hu ?_)
        exact (congrArg StateList.alive (hstate u)).trans h

end Dying

theorem NewQueue.build_fresh {spec : NewQueue} {Q : Queue α} (hbuild : spec.build = some Q) :
    Q.xTasksWaitingToSend = [] ∧ Q.xTasksWaitingToReceive = [] ∧
      (Q.cRxLock ≤ 0 ∧ Q.cTxLock ≤ 0) ∧ Q.uxMessagesWaiting ≤ Q.uxLength := by
  have hunlocked : queueUnlocked ≤ 0 := by decide
  cases spec with
  | mutex =>
      cases hbuild
      exact ⟨rfl, rfl, ⟨hunlocked, hunlocked⟩, Nat.le_refl 1⟩
  | counting value =>
      simp only [build, xQueueCreateCountingSemaphore] at hbuild
      split at hbuild <;> cases hbuild
      next hle => exact ⟨rfl, rfl, ⟨hunlocked, hunlocked⟩, hle.2⟩
  | mailbox size =>
      simp only [build] at hbuild
      split at hbuild <;> cases hbuild
      exact ⟨rfl, rfl, ⟨hunlocked, hunlocked⟩, Nat.zero_le _⟩
  | binary =>
      cases hbuild
      exact ⟨rfl, rfl, ⟨hunlocked, hunlocked⟩, Nat.zero_le _⟩

/-- `vTaskDelay` blocks the caller and no one else. -/
theorem WaitInv.delay_settles {k : State α} {t : TaskId} (hinv : WaitInv k)
    (hcurrent : k.pxCurrentTCB = t) (hframe : k.view.frame t = none)
    (halive : (k.sched.xStateList t).alive) (xTicksToDelay : Nat) :
    k.sched.Settles (k.vTaskDelay xTicksToDelay).sched ∧
      (k.vTaskDelay xTicksToDelay).cpu.2 = t := by
  unfold State.vTaskDelay
  split
  · exact ⟨.refl _, hcurrent⟩
  · obtain ⟨state, hblocked, hsched⟩ :=
      k.vTaskSuspendAll.sched_prvAddCurrentTaskToDelayedList xTicksToDelay false
    rw [show k.vTaskSuspendAll.pxCurrentTCB = t from hcurrent] at hsched
    have hlists : Lists (k.vTaskSuspendAll.prvAddCurrentTaskToDelayedList xTicksToDelay
        false).sched k.view.frame k.view.nextTask := by
      rw [hsched]
      exact hinv.lists.setState (hcurrent ▸ hinv.window.current) (hinv.not_listed hframe)
    obtain ⟨-, hshrinks, hcpu⟩ := State.xTaskResumeAll_lists hlists
    refine ⟨Sched.Settles.trans ?_ hshrinks.settles, (congrArg Prod.snd hcpu).trans hcurrent⟩
    rw [hsched]
    exact .setState halive (StateList.alive_of_blocked hblocked) rfl

namespace KernelInv

variable {k k' : State α} {t : TaskId} {act : Act α}

theorem perform (hinv : KernelInv k) (hactor : act.actor = some t) (hcurrent : k.pxCurrentTCB = t)
    (hframe : k.view.frame t = none) (halive : (k.sched.xStateList t).alive)
    (hok : act.unsuspended k) (hstep : k.perform act = some k') : KernelInv k' := by
  have hwait := hinv.wait
  have hdying := hinv.dying
  have hspawned : t < k.nextTask := hcurrent ▸ hwait.window.current
  cases act with
  | tick => simp [State.perform] at hstep
  | run => simp [State.perform] at hstep
  | call u api =>
      cases hactor
      cases hstep
      have hsettles : k.sched.Settles (k.enter t api).sched := by
        rw [State.sched_enter]
        exact .refl _
      refine ⟨hwait.enter hcurrent hframe hok api, hdying.settle (t := t) hsettles ?_ ?_ halive ?_⟩
      · rw [State.view_enter]
        exact k.view.enter_termination t api _
      · intro w hw
        rw [State.view_enter]
        exact View.enter_frame_ne _ _ api _ hw
      · rw [State.cpu_enter]
        exact hcurrent
  | create u spec =>
      simp only [State.perform] at hstep
      split at hstep <;> cases hstep
      next Q hbuild =>
        obtain ⟨hsend, hreceive, hlocks, hcount⟩ := NewQueue.build_fresh hbuild
        exact ⟨hwait.addQueue hsend hreceive hlocks hcount,
          hdying.settle (t := t) (fun _ => .inl rfl) rfl (fun _ _ => rfl) halive hcurrent⟩
      next => exact ⟨hwait.halt _, hdying.halt _⟩
  | delete u q =>
      simp only [State.perform] at hstep
      split at hstep <;> cases hstep
      · exact ⟨hwait.delete q,
          hdying.settle (t := t) (fun _ => .inl rfl) rfl (fun _ _ => rfl) halive hcurrent⟩
      · exact ⟨hwait.halt _, hdying.halt _⟩
  | spawn u uxPriority =>
      simp only [State.perform] at hstep
      split at hstep <;> cases hstep
      · exact ⟨hwait.spawn uxPriority, hdying.spawn hwait hcurrent halive uxPriority⟩
      · exact ⟨hwait.halt _, hdying.halt _⟩
  | exit u =>
      cases hactor
      cases hstep
      exact ⟨hwait.exit hframe hspawned, hdying.exit hwait hframe halive⟩
  | reap u =>
      cases hstep
      exact ⟨hwait.reap hdying, hdying.reap⟩
  | delay u xTicksToDelay =>
      simp only [State.perform] at hstep
      split at hstep <;> cases hstep
      -- the scheduler is suspended and resumed within this step
      · obtain ⟨hsettles, hcpu⟩ := hwait.delay_settles hcurrent hframe halive xTicksToDelay
        refine ⟨hwait.delay hcurrent hframe xTicksToDelay,
          hdying.settle (t := t) hsettles ?_ ?_ halive hcpu⟩
        · rw [State.view_vTaskDelay]
        · rw [State.view_vTaskDelay]
          exact fun _ _ => rfl
      · exact ⟨hwait.halt _, hdying.halt _⟩
  | suspendAll u =>
      cases hstep
      exact ⟨hwait.suspendAll hcurrent hframe,
        hdying.settle (t := t) (.refl _) rfl (fun _ _ => rfl) halive hcurrent⟩
  | resumeAll u =>
      simp only [State.perform] at hstep
      split at hstep <;> cases hstep
      · exact ⟨hwait.halt _, hdying.halt _⟩
      · obtain ⟨-, hshrinks, hcpu⟩ := State.xTaskResumeAll_lists hwait.lists
        refine ⟨hwait.resumeAll hcurrent hframe,
          hdying.settle (t := t) hshrinks.settles ?_ ?_ halive (hcpu ▸ hcurrent)⟩
        · rw [State.view_xTaskResumeAll]
        · rw [State.view_xTaskResumeAll]
          exact fun _ _ => rfl

/-- The running task blocks, outside of any blocking function. -/
theorem addDelayed (hinv : KernelInv k) (hframe : k.view.frame k.pxCurrentTCB = none)
    (halive : (k.sched.xStateList k.pxCurrentTCB).alive) (xTicksToWait : Nat) (forever : Bool) :
    KernelInv (k.prvAddCurrentTaskToDelayedList xTicksToWait forever) := by
  obtain ⟨state, hblocked, hsched⟩ := k.sched_prvAddCurrentTaskToDelayedList xTicksToWait forever
  have hview := State.view_prvAddCurrentTaskToDelayedList k xTicksToWait forever
  have hsettles :
      k.sched.Settles (k.prvAddCurrentTaskToDelayedList xTicksToWait forever).sched := by
    rw [hsched]
    exact .setState halive (StateList.alive_of_blocked hblocked) rfl
  refine ⟨hinv.wait.addDelayed rfl hframe xTicksToWait forever,
    hinv.dying.settle (t := k.pxCurrentTCB) hsettles ?_ (fun u _ => ?_) halive rfl⟩
  · rw [hview]
  · rw [hview]

/-- A blocked task becomes ready. -/
theorem readyPended (hinv : KernelInv k) (hblocked : (k.sched.xStateList t).blocked) :
    KernelInv (k.readyPended t) := by
  have hview : (k.readyPended t).view = k.view := by
    rw [State.readyPended, State.view_prvAddTaskToReadyList, State.view_removeEventItem]
  have hcpu : (k.readyPended t).cpu = k.cpu := k.cpu_removeEventItem t
  have hlists := hinv.wait.lists
  have hunlisted := hlists.unlist (hlists.lt_of_blocked hblocked)
  have hshrinks : k.sched.Shrinks (k.sched.unlist t) :=
    ⟨fun l h => by simp [Sched.unlist, h], rfl, .unlist hblocked⟩
  rw [← State.sched_removeEventItem_ready hlists] at hunlisted hshrinks
  exact ⟨hinv.wait.shrink hview hcpu hunlisted hshrinks, hinv.dying.shrink hview hcpu hshrinks⟩

theorem foldl_readyPended {tasks : List TaskId} (hinv : KernelInv k) (hnodup : tasks.Nodup)
    (hblocked : ∀ u ∈ tasks, (k.sched.xStateList u).blocked) :
    KernelInv (tasks.foldl State.readyPended k) := by
  induction tasks generalizing k with
  | nil => exact hinv
  | cons t rest ih =>
      obtain ⟨hfresh, hrest⟩ := List.nodup_cons.mp hnodup
      refine ih (hinv.readyPended (hblocked t List.mem_cons_self)) hrest fun u hu => ?_
      have hne : u ≠ t := fun heq => hfresh (heq ▸ hu)
      rw [State.readyPended, State.sched_removeEventItem_ready hinv.wait.lists]
      simp only [Sched.unlist, Function.update_of_ne hne]
      exact hblocked u (List.mem_cons_of_mem t hu)

/-- Every step of the kernel keeps its invariant. -/
theorem step (hinv : KernelInv k) (hok : act.unsuspended k) (hstep : k.step act = some k') :
    KernelInv k' := by
  unfold State.step at hstep
  split at hstep
  next =>
    split at hstep
    · cases hstep
      exact ⟨hinv.wait.tick, hinv.dying.tick hinv.wait⟩
    · simp at hstep
  next t hactor =>
    split at hstep
    next hrun =>
      obtain ⟨-, hready, -⟩ := (k.canRun_iff t).mp hrun
      have halive := hinv.dying.alive_of_canRun hrun
      have hwait := hinv.wait.switchTo hrun (hinv.wait.spawned hrun)
      have hdying := hinv.dying.switchTo hrun
      split at hstep
      next frame u hframe =>
        cases hactor
        cases hstep
        have hrunning : Running (k.switchTo t) t frame := ⟨hwait, rfl, hframe, hready⟩
        have hran : Ran (k.switchTo t).view t frame ((k.switchTo t).runFrame t frame).view :=
          State.ran_runFrame rfl
        exact ⟨hrunning.runFrame, hdying.settle (t := t) (hrunning.settles halive)
          hran.termination (fun u hu => hran.frame_ne hu) halive hrunning.runFrame_current⟩
      next => simp at hstep
      next hframe => exact perform ⟨hwait, hdying⟩ hactor rfl hframe halive hok hstep
    next => simp at hstep

end KernelInv

/-- The kernel invariant holds in every reachable state. -/
theorem KernelInv.reach {k k₀ : State α} (hinit : KernelInv k₀)
    (hreach : Lib.Reach State.step (fun k act => Act.unsuspended k act) k₀ k) : KernelInv k :=
  Lib.Reach.invariant hreach KernelInv hinit fun _ _ _ hinv hok hstep => hinv.step hok hstep

end SimulatedLinux.Kernel
