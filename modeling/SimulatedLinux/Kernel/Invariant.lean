import SimulatedLinux.Lib.Run
import SimulatedLinux.Kernel.Critical

/-! # The kernel invariant

Every step of the kernel keeps the invariant of the blocking functions, provided
that no blocking function is entered while the scheduler is suspended. A task
that has deleted itself stays in the termination list until the idle task takes
it out, and never runs again.
-/

namespace SimulatedLinux.Kernel

variable {α : Type}

/-! ## Tasks that are not blocked keep their state -/

theorem Sched.Settles.wakeFirst {S : Sched} {frame : TaskId → Option (Frame α)} {n : Nat}
    (hlists : Lists S frame n) (list : EventList) : S.Settles (S.wakeFirst list) := by
  unfold Sched.wakeFirst
  split
  · exact .refl S
  next t rest hlist =>
    have hevent := (hlists.listed t list).mp (by simp [hlist])
    exact unlist (hlists.waiting t list hevent).1

namespace Running

variable {k : State α} {t : TaskId} {frame : Frame α}

theorem attempt_settles (hrun : Running k t frame) (hpc : frame.pc = .attempt) :
    k.sched.Settles (k.attempt t frame).sched := by
  have hwake {k' : State α} (hsched : k'.sched = k.sched) (hcpu : k'.cpu = k.cpu)
      (list : EventList) (res : QueueResult α) :
      k.sched.Settles (((k'.retried t frame.waitList).wakeFirst list).complete t frame
        res).sched := by
    have hzero : (k'.retried t frame.waitList).uxSchedulerSuspended = 0 :=
      (congrArg Prod.fst hcpu).trans (hrun.suspended_zero hpc)
    have hlists : Lists (k'.retried t frame.waitList).sched k.view.frame k.view.nextTask := by
      have hlists' : Lists k'.sched k.view.frame k.view.nextTask := hsched ▸ hrun.inv.lists
      exact hlists'.retried t frame.waitList
    have hstart : k.sched.Settles (k'.retried t frame.waitList).sched := by
      rw [← hsched]
      exact .refl _
    rw [State.sched_complete, State.sched_wakeFirst hlists hzero list]
    exact hstart.trans (.wakeFirst hlists list)
  have hwait : k.sched.Settles (k.failOrWait t frame).sched := by
    unfold State.failOrWait
    dsimp only
    split
    · rw [State.sched_complete]
      exact .refl _
    · rw [State.sched_setFrame]
      exact .refl _
  unfold State.attempt State.xQueueGenericSend State.xQueueReceive State.xQueueSemaphoreTake
  dsimp only
  split
  · split
    · split
      · exact .refl _
      next hcopy =>
        exact hwake (State.sched_prvCopyDataToQueue hcopy)
          (State.cpu_prvCopyDataToQueue k hcopy) _ _
    · exact hwait
  · split
    · obtain ⟨-, -, -, hsend, hreceive, hrx, htx⟩ :=
        prvCopyDataFromQueue_kept (k.queue frame.xQueue)
      exact hwake (State.sched_modQueue k _ hsend hreceive hrx htx) rfl _ _
    · exact hwait
  · split
    · exact hwake (State.sched_takeCount k _) (State.cpu_takeCount k _) _ _
    · exact hwait

/-- A step inside a blocking function creates and ends no task. -/
theorem settles (hrun : Running k t frame) (halive : (k.sched.xStateList t).alive) :
    k.sched.Settles (k.runFrame t frame).sched := by
  have hsame {k' : State α} (hsched : k'.sched = k.sched) : k.sched.Settles k'.sched := by
    rw [hsched]
    exact .refl _
  unfold State.runFrame
  dsimp only
  split
  next => exact .refl _
  next =>
    split
    next =>
      split
      · exact hsame (State.sched_setPc ..)
      · exact .refl _
    next hpc => exact hrun.attempt_settles hpc
    next => exact hsame (State.sched_setPc ..)
    next =>
      rw [State.sched_setPc, State.prvLockQueue, State.sched_modQueue_locks _ _ rfl rfl]
      exact .refl _
    next => exact hsame (State.sched_setFrame ..)
    next =>
      split
      · split <;> exact hsame (State.sched_setPc ..)
      · exact hsame (State.sched_setPc ..)
    next => exact hsame (by simp)
    next =>
      obtain ⟨tasks, state, -, hblocked, hsched⟩ :=
        State.sched_vTaskPlaceOnEventList k frame.waitList frame.xTicksToWait
      rw [State.sched_setPc, hsched, hrun.current]
      exact .setState halive (StateList.alive_of_blocked hblocked) rfl
    next =>
      have hlock : (k.queue frame.xQueue).cTxLock ≤ 0 := (hrun.inv.lists.unlocked _).2
      rw [State.sched_setPc, State.prvUnlockQueueTx, wakeLocked_eq _ _ hlock,
        State.sched_modQueue_locks _ _ rfl rfl]
      exact .refl _
    next =>
      have hlock : (k.queue frame.xQueue).cRxLock ≤ 0 := (hrun.inv.lists.unlocked _).1
      rw [State.sched_setPc, State.prvUnlockQueueRx, wakeLocked_eq _ _ hlock,
        State.sched_modQueue_locks _ _ rfl rfl]
      exact .refl _
    next after hpc =>
      obtain ⟨-, hshrinks, -⟩ := State.xTaskResumeAll_lists hrun.inv.lists
      unfold State.afterResume
      split
      · rw [State.sched_complete]
        exact hshrinks.settles
      · rw [State.sched_setPc]
        exact hshrinks.settles
      · rw [State.sched_setPc]
        exact hshrinks.settles
    next =>
      split
      · exact hsame (State.sched_complete ..)
      · exact hsame (State.sched_setPc ..)
    next => exact hsame (State.sched_leave ..)

/-- Every step inside a blocking function keeps the invariant. -/
theorem runFrame (hrun : Running k t frame) : WaitInv (k.runFrame t frame) := by
  unfold State.runFrame
  dsimp only
  split
  next => exact hrun.inv.halt _
  next hlive =>
    split
    next hpc =>
      have hlive' : (k.queue frame.xQueue).live := by simpa [hpc, Pc.touchesQueue] using hlive
      split
      · exact hrun.entry hpc hlive'
      · exact hrun.inv.halt _
    next hpc => exact hrun.attempt hpc
    next hpc => exact hrun.suspendAll hpc
    next hpc => exact hrun.lockQueue hpc
    next hpc =>
      refine hrun.checkTimeOut hpc rfl rfl ?_
      dsimp only
      split
      · exact .inl rfl
      · exact .inr rfl
    next hpc =>
      split
      next hmust =>
        split
        · exact hrun.checkBlock hpc (fun _ => hmust) (by split <;> rfl)
        · exact hrun.checkBlock hpc (fun _ => hmust) rfl
      next => exact hrun.checkBlock hpc (by simp [Pc.mustWait]) rfl
    next hpc => exact hrun.inherit hpc _
    next hpc => exact hrun.place hpc
    next after hpc => exact hrun.unlockTx hpc
    next after hpc => exact hrun.unlockRx hpc
    next after hpc => exact hrun.resumeAll hpc
    next hpc =>
      split
      · exact hrun.complete hpc .fail
      · exact hrun.recheck hpc
    next res hpc => exact hrun.leave hpc

end Running

/-! ## Steps outside of a blocking function -/

/-- Tasks that have deleted themselves, or do not exist, are in no call and never
run. -/
structure Dying (k : State α) : Prop where
  nodup : k.view.xTasksWaitingTermination.Nodup
  listed : ∀ t, t ∈ k.view.xTasksWaitingTermination ↔
    k.sched.xStateList t = .waitingTermination
  idle : ∀ t, ¬ (k.sched.xStateList t).alive → k.view.frame t = none
  stopped : ∀ t, ¬ (k.sched.xStateList t).alive → k.cpu.1 ≠ 0 → k.cpu.2 ≠ t

/-- The invariant of the kernel. -/
structure KernelInv (k : State α) : Prop where
  wait : WaitInv k
  dying : Dying k

theorem State.sched_enter (k : State α) (t : TaskId) (api : Api α) :
    (k.enter t api).sched = k.sched := by
  unfold enter
  cases api.unlocks <;> cases api.request <;> dsimp only <;> rw [sched_modTask _ _ rfl rfl]
  all_goals rfl

theorem State.canRun_iff (k : State α) (t : TaskId) :
    k.canRun t ↔ k.fault = none ∧
      (k.uxSchedulerSuspended = 0 → k.sched.xStateList t = .ready) ∧
      (k.uxSchedulerSuspended ≠ 0 → k.pxCurrentTCB = t) := by
  unfold canRun
  split <;> simp_all [sched]

namespace WaitInv

variable {k : State α} {t : TaskId}

/-- Tasks at most leave their wait lists, and nobody else runs. -/
theorem shrink (hinv : WaitInv k) {k' : State α} (hview : k'.view = k.view) (hcpu : k'.cpu = k.cpu)
    (hlists : Lists k'.sched k.view.frame k.view.nextTask) (hshrinks : k.sched.Shrinks k'.sched) :
    WaitInv k' := by
  refine ⟨?_, ?_, ?_⟩
  · rw [hview]
    exact hlists
  · rw [hview, hcpu]
    exact hinv.window
  · rw [hview]
    exact hinv.balanced.shrink hshrinks

theorem tick (hinv : WaitInv k) : WaitInv k.xTaskIncrementTick := by
  obtain ⟨hlists, hshrinks⟩ := State.xTaskIncrementTick_lists hinv.lists
  exact hinv.shrink (State.view_xTaskIncrementTick k) (State.cpu_xTaskIncrementTick k)
    hlists hshrinks

/-- Scheduling another task changes nothing while the scheduler is suspended. -/
theorem switchTo (hinv : WaitInv k) (hrun : k.canRun t) (hspawned : t < k.nextTask) :
    WaitInv (k.switchTo t) := by
  refine ⟨hinv.lists, ?_, hinv.balanced⟩
  by_cases hzero : k.uxSchedulerSuspended = 0
  · have hnot : ∀ u f, k.view.frame u = some f → ¬ f.pc.inWindow := by
      intro u f hf hin
      have hone := (hinv.window.window u f hf hin).1
      have hs : k.cpu.1 = 0 := hzero
      omega
    exact ⟨fun u f hf hin => absurd hin (hnot u f hf), fun hne => absurd hzero hne,
      hinv.window.blocks, hinv.window.born, hinv.window.unborn, hinv.window.unspawned, hspawned⟩
  · have hcurrent := ((k.canRun_iff t).mp hrun).2.2 hzero
    have hsame : k.switchTo t = k := by
      rw [← hcurrent]
      rfl
    rw [hsame]
    exact hinv.window

theorem spawned (hinv : WaitInv k) (hrun : k.canRun t) : t < k.nextTask := by
  by_cases hzero : k.uxSchedulerSuspended = 0
  · by_contra hge
    have habsent : (k.task t).xStateList = .absent :=
      hinv.lists.unspawned t (Nat.le_of_not_lt hge)
    simp [State.canRun, hzero, habsent] at hrun
  · have hcurrent := ((k.canRun_iff t).mp hrun).2.2 hzero
    rw [← hcurrent]
    exact hinv.window.current

theorem not_listed (hinv : WaitInv k) (hframe : k.view.frame t = none) :
    k.sched.xEventList t = none := by
  by_contra hne
  obtain ⟨list, hlist⟩ := Option.ne_none_iff_exists'.mp hne
  obtain ⟨-, f, hf, -⟩ := hinv.lists.waiting t list hlist
  simp [hframe] at hf

theorem not_woken (hinv : WaitInv k) (hframe : k.view.frame t = none) (list : EventList) :
    t ∉ k.sched.woken list := by
  intro hmem
  obtain ⟨-, f, hf, -⟩ := hinv.lists.awoken t list hmem
  simp [hframe] at hf

/-- A running task outside of any blocking function may change its state list
and how far the scheduler is suspended. -/
theorem outside (hinv : WaitInv k) (hcurrent : k.pxCurrentTCB = t)
    (hframe : k.view.frame t = none) {k' : State α} (hview : k'.view = k.view)
    (hlists : Lists k'.sched k.view.frame k.view.nextTask)
    (hnil : ∀ list, k.sched.eventList list = [] → k'.sched.eventList list = [])
    (hwoken : k'.sched.woken = k.sched.woken) (hcpu : k'.cpu.2 = t) : WaitInv k' where
  lists := hview ▸ hlists
  window := by
    have hwindow : Window k.view k.cpu.1 t := hcurrent ▸ hinv.window
    rw [hview, hcpu]
    exact hwindow.step none (by rw [← hframe, Function.update_eq_self]) rfl rfl (fun _ => id)
      (by simp) (by simp) (by simp)
  balanced := by
    rw [hview]
    refine ⟨hinv.balanced.count_le, fun q hne => ?_, fun q hne => ?_⟩
    · rw [hwoken]
      exact hinv.balanced.receive q fun h => hne (hnil _ h)
    · rw [hwoken]
      exact hinv.balanced.send q fun h => hne (hnil _ h)

theorem suspendAll (hinv : WaitInv k) (hcurrent : k.pxCurrentTCB = t)
    (hframe : k.view.frame t = none) : WaitInv k.vTaskSuspendAll :=
  hinv.outside hcurrent hframe rfl hinv.lists (fun _ h => h) rfl hcurrent

theorem resumeAll (hinv : WaitInv k) (hcurrent : k.pxCurrentTCB = t)
    (hframe : k.view.frame t = none) : WaitInv k.xTaskResumeAll := by
  obtain ⟨hlists, hshrinks, hcpu⟩ := State.xTaskResumeAll_lists hinv.lists
  exact hinv.outside hcurrent hframe (State.view_xTaskResumeAll k) hlists hshrinks.nil
    hshrinks.woken (hcpu ▸ hcurrent)

/-- A running task outside of any blocking function joins a delayed list or the suspended list. -/
theorem addDelayed (hinv : WaitInv k) (hcurrent : k.pxCurrentTCB = t)
    (hframe : k.view.frame t = none) (xTicksToWait : Nat) (forever : Bool) :
    WaitInv (k.prvAddCurrentTaskToDelayedList xTicksToWait forever) := by
  obtain ⟨state, -, hstate⟩ := k.sched_prvAddCurrentTaskToDelayedList xTicksToWait forever
  refine hinv.outside hcurrent hframe (State.view_prvAddCurrentTaskToDelayedList ..) ?_
    ?_ ?_ hcurrent
  · rw [hstate, hcurrent]
    exact hinv.lists.setState (hcurrent ▸ hinv.window.current) (hinv.not_listed hframe)
  · rw [hstate]
    exact fun _ h => h
  · rw [hstate]
    rfl

theorem delay (hinv : WaitInv k) (hcurrent : k.pxCurrentTCB = t)
    (hframe : k.view.frame t = none) (xTicksToDelay : Nat) :
    WaitInv (k.vTaskDelay xTicksToDelay) := by
  unfold State.vTaskDelay
  split
  · exact hinv
  · have hsuspended := hinv.suspendAll hcurrent hframe
    have hview := State.view_prvAddCurrentTaskToDelayedList k.vTaskSuspendAll xTicksToDelay false
    have hdelayed := hsuspended.addDelayed hcurrent hframe xTicksToDelay false
    exact hdelayed.resumeAll hcurrent (by rw [hview]; exact hframe)

theorem enter (hinv : WaitInv k) (hcurrent : k.pxCurrentTCB = t)
    (hframe : k.view.frame t = none) (hzero : k.uxSchedulerSuspended = 0) (api : Api α) :
    WaitInv (k.enter t api) := by
  have hwindow : Window k.view k.cpu.1 t := hcurrent ▸ hinv.window
  have hsched := State.sched_enter k t api
  have hcpu : (k.enter t api).cpu = (0, t) := by
    rw [← hcurrent, ← hzero]
    unfold State.enter
    cases api.unlocks <;> cases api.request <;> rfl
  have hview : ∃ f, k.view.Moved (k.enter t api).view t f ∧
      ∀ f', f = some f' → f'.pc = .entry := by
    rw [State.view_enter]
    unfold View.enter
    cases api.request with
    | none =>
        refine ⟨none, ?_, by simp⟩
        rw [← hframe]
        cases api.unlocks <;> exact ⟨(Function.update_eq_self t _).symm, rfl, rfl, rfl⟩
    | some request =>
        obtain ⟨op, q, xTicksToWait⟩ := request
        refine ⟨some { api, op, xQueue := q, xTicksToWait, xTimeOut := none
                       startTick := k.xTickCount, pc := .entry }, ?_, by rintro f' ⟨⟩; rfl⟩
        cases api.unlocks <;> exact ⟨rfl, rfl, rfl, rfl⟩
  obtain ⟨f, hmoved, hentry⟩ := hview
  refine ⟨?_, ?_, ?_⟩
  · rw [hsched, hmoved.frame, hmoved.nextTask]
    refine hinv.lists.setFrame f ?_ (hinv.not_woken hframe)
    simp [hinv.not_listed hframe]
  · rw [hcpu]
    refine hwindow.step f hmoved.frame hmoved.nextQueue hmoved.nextTask ?_ ?_ ?_ ?_
    · rw [hmoved.queue]
      exact fun _ => id
    · intro f' hf'
      simp [hentry f' hf', Pc.inWindow]
    · intro f' hf' hmust
      simp [hentry f' hf', Pc.mustWait] at hmust
    · intro f' hf' hpc
      exact absurd (hentry f' hf') hpc
  · rw [hsched, hmoved.queue]
    exact hinv.balanced

/-- Nobody waits for a queue that does not exist yet. -/
theorem unborn_nil (hinv : WaitInv k) {q : QueueId} (hq : k.nextQueue ≤ q) (op : Op α) :
    k.sched.eventList (op.waitList q) = [] := by
  by_contra hne
  obtain ⟨t, ht⟩ := List.exists_mem_of_ne_nil _ hne
  obtain ⟨-, f, hf, hwait, hplaced⟩ :=
    hinv.lists.waiting t _ ((hinv.lists.listed t _).mp ht)
  have hborn : f.xQueue < k.nextQueue := by
    refine hinv.window.born t f hf fun hentry => ?_
    simp [hentry, Pc.placed] at hplaced
  have hqueue : f.xQueue = q := by
    unfold Frame.waitList at hwait
    cases hfop : f.op <;> cases op <;> simp_all [Op.waitList]
  exact absurd hq (Nat.not_le_of_lt (hqueue ▸ hborn))

/-- A new queue has no waiters. -/
theorem eventList_addQueue (hinv : WaitInv k) {Q : Queue α} (hsend : Q.xTasksWaitingToSend = [])
    (hreceive : Q.xTasksWaitingToReceive = []) : (k.addQueue Q).eventList = k.eventList := by
  have hnil := hinv.unborn_nil (Nat.le_refl k.nextQueue)
  funext list
  cases list with
  | toSend p =>
      by_cases hp : p = k.nextQueue
      · subst hp
        have hempty : (k.queue k.nextQueue).xTasksWaitingToSend = [] := hnil (.genericSend none)
        simp [State.eventList, State.addQueue, hsend, hempty]
      · simp [State.eventList, State.addQueue, hp]
  | toReceive p =>
      by_cases hp : p = k.nextQueue
      · subst hp
        have hempty : (k.queue k.nextQueue).xTasksWaitingToReceive = [] := hnil .receive
        simp [State.eventList, State.addQueue, hreceive, hempty]
      · simp [State.eventList, State.addQueue, hp]
  | pendingReady => rfl

theorem addQueue (hinv : WaitInv k) {Q : Queue α} (hsend : Q.xTasksWaitingToSend = [])
    (hreceive : Q.xTasksWaitingToReceive = []) (hlocks : Q.cRxLock ≤ 0 ∧ Q.cTxLock ≤ 0)
    (hcount : Q.uxMessagesWaiting ≤ Q.uxLength) : WaitInv (k.addQueue Q) := by
  have hnil := hinv.unborn_nil (Nat.le_refl k.nextQueue)
  have hevents := hinv.eventList_addQueue hsend hreceive
  have hlists := hinv.lists
  have hsched : (k.addQueue Q).sched = { k.sched with
      cRxLock := fun q => ((k.addQueue Q).queue q).cRxLock
      cTxLock := fun q => ((k.addQueue Q).queue q).cTxLock } := by
    simp only [State.sched, hevents]
    rfl
  refine ⟨?_, ?_, ?_⟩
  · rw [State.view_addQueue, hsched]
    refine { hlists with unlocked := ?_ }
    intro q
    by_cases hq : q = k.nextQueue
    · subst hq
      simpa [State.addQueue] using hlocks
    · simpa [State.addQueue, hq, State.sched] using hlists.unlocked q
  · rw [State.view_addQueue]
    refine ⟨hinv.window.window, hinv.window.suspended, ?_, ?_, ?_, hinv.window.unspawned,
      hinv.window.current⟩
    · intro t f hf hmust
      have hborn := hinv.window.born t f hf fun hentry => by simp [hentry, Pc.mustWait] at hmust
      have hne : f.xQueue ≠ k.view.nextQueue := Nat.ne_of_lt hborn
      simpa [View.addQueue, hne] using hinv.window.blocks t f hf hmust
    · intro t f hf hpc
      exact Nat.lt_succ_of_lt (hinv.window.born t f hf hpc)
    · intro q hq
      have hne : q ≠ k.view.nextQueue := Nat.ne_of_gt hq
      simpa [View.addQueue, hne] using hinv.window.unborn q (Nat.le_of_succ_le hq)
  · rw [State.view_addQueue, hsched]
    refine ⟨?_, ?_, ?_⟩
    · intro q
      by_cases hq : q = k.view.nextQueue
      · subst hq
        simpa [View.addQueue, Queue.contents] using hcount
      · simpa [View.addQueue, hq] using hinv.balanced.count_le q
    · intro q hne
      have hq : q ≠ k.view.nextQueue := by
        rintro rfl
        exact hne (hnil .receive)
      simpa [View.addQueue, hq] using hinv.balanced.receive q hne
    · intro q hne
      have hq : q ≠ k.view.nextQueue := by
        rintro rfl
        exact hne (hnil (.genericSend none))
      simpa [View.addQueue, hq] using hinv.balanced.send q hne

theorem delete (hinv : WaitInv k) (q : QueueId) : WaitInv (k.vQueueDelete q) := by
  have hview := State.view_modQueue k q fun Q => { Q with live := false }
  have hsched := State.sched_modQueue k q (f := fun Q => { Q with live := false }) rfl rfl rfl rfl
  have hcontents : ∀ p, ((k.vQueueDelete q).view.queue p).uxMessagesWaiting =
        (k.view.queue p).uxMessagesWaiting ∧
      ((k.vQueueDelete q).view.queue p).uxLength = (k.view.queue p).uxLength ∧
      (((k.vQueueDelete q).view.queue p).live → (k.view.queue p).live) := by
    intro p
    rw [State.vQueueDelete, hview]
    by_cases hp : p = q
    · subst hp
      simp [View.setQueue, Queue.contents, State.view]
    · simp [View.setQueue, hp]
  refine ⟨?_, ?_, ?_⟩
  · rw [State.vQueueDelete, hview, hsched]
    exact hinv.lists
  · refine ⟨hinv.window.window, hinv.window.suspended, ?_, hinv.window.born, ?_,
      hinv.window.unspawned, hinv.window.current⟩
    · intro t f hf hmust
      have hblock := hinv.window.blocks t f hf hmust
      cases hop : f.op <;> simp only [hop, Op.blocked, hcontents] at hblock ⊢ <;> exact hblock
    · intro p hp
      have hdead := hinv.window.unborn p hp
      by_contra hl
      rw [Bool.not_eq_false] at hl
      simp [(hcontents p).2.2 hl] at hdead
  · rw [State.vQueueDelete, hsched]
    refine ⟨fun p => ?_, fun p hne => ?_, fun p hne => ?_⟩
    · have hle := hinv.balanced.count_le p
      rwa [← (hcontents p).1, ← (hcontents p).2.1] at hle
    · have hle := hinv.balanced.receive p hne
      rwa [← (hcontents p).1] at hle
    · have hle := hinv.balanced.send p hne
      rwa [← (hcontents p).1, ← (hcontents p).2.1] at hle

theorem spawn (hinv : WaitInv k) (uxPriority : Nat) :
    WaitInv (k.prvAddNewTaskToReadyList uxPriority) := by
  have hview := State.view_prvAddNewTaskToReadyList k uxPriority
  have hsched : (k.prvAddNewTaskToReadyList uxPriority).sched =
      { k.sched with
        xEventList := Function.update k.sched.xEventList k.nextTask none
        xStateList := Function.update k.sched.xStateList k.nextTask .ready } := by
    have hevents := Function.comp_update Task.xEventList k.task k.nextTask
    have hstates := Function.comp_update Task.xStateList k.task k.nextTask
    simp only [Function.comp_def] at hevents hstates
    simp only [State.sched, State.prvAddNewTaskToReadyList, hevents, hstates]
    rfl
  have hframe : k.view.frame k.nextTask = none := hinv.window.unspawned _ (Nat.le_refl _)
  have hevent := hinv.not_listed hframe
  have hevents : Function.update k.sched.xEventList k.nextTask none = k.sched.xEventList := by
    rw [← hevent, Function.update_eq_self]
  have hframes : Function.update k.view.frame k.view.nextTask none = k.view.frame := by
    rw [← hframe]
    exact Function.update_eq_self _ _
  have hlists := hinv.lists
  refine ⟨?_, ?_, ?_⟩
  · rw [hview, hsched, hevents]
    simp only [View.addTask, hframes]
    refine { hlists with waiting := ?_, unspawned := ?_ }
    · intro u list hu
      have hne : u ≠ k.nextTask := by
        rintro rfl
        have hu' : k.sched.xEventList k.nextTask = some list := hu
        simp [hevent] at hu'
      simpa [hne] using hlists.waiting u list hu
    · intro u hu
      have hne : u ≠ k.nextTask := Nat.ne_of_gt hu
      simpa [hne] using hlists.unspawned u (Nat.le_of_succ_le hu)
  · rw [hview]
    have hwindow := hinv.window
    simp only [View.addTask, hframes]
    exact ⟨hwindow.window, hwindow.suspended, hwindow.blocks, hwindow.born, hwindow.unborn,
      fun u hu => hwindow.unspawned u (Nat.le_of_succ_le hu), Nat.lt_succ_of_lt hwindow.current⟩
  · rw [hview, hsched]
    exact ⟨hinv.balanced.count_le, hinv.balanced.receive, hinv.balanced.send⟩

/-- A task outside of every wait list may be put in any state list. -/
theorem setState (hinv : WaitInv k) (hframe : k.view.frame t = none) (hspawned : t < k.nextTask)
    {k' : State α} (state : StateList) (hsched : k'.sched = k.sched.setState t state)
    (hview : ∃ count list, k'.view = { k.view with
      uxCurrentNumberOfTasks := count, xTasksWaitingTermination := list })
    (hcpu : k'.cpu = k.cpu) : WaitInv k' := by
  obtain ⟨count, list, hview⟩ := hview
  have hwindow := hinv.window
  refine ⟨?_, ?_, ?_⟩
  · rw [hsched, hview]
    exact hinv.lists.setState hspawned (hinv.not_listed hframe)
  · rw [hview, hcpu]
    exact ⟨hwindow.window, hwindow.suspended, hwindow.blocks, hwindow.born, hwindow.unborn,
      hwindow.unspawned, hwindow.current⟩
  · rw [hsched, hview]
    exact ⟨hinv.balanced.count_le, hinv.balanced.receive, hinv.balanced.send⟩

theorem removeEventItem_eq (hinv : WaitInv k) (hframe : k.view.frame t = none) :
    k.removeEventItem t = k := by
  have hevent : (k.task t).xEventList = none := hinv.not_listed hframe
  rw [State.removeEventItem, hevent]

theorem exit (hinv : WaitInv k) (hframe : k.view.frame t = none) (hspawned : t < k.nextTask) :
    WaitInv (k.vTaskDelete t) := by
  unfold State.vTaskDelete
  split
  · rw [hinv.removeEventItem_eq hframe]
    refine hinv.setState hframe hspawned .waitingTermination ?_
      ⟨k.uxCurrentNumberOfTasks, k.xTasksWaitingTermination ++ [t], ?_⟩ rfl
    · exact State.sched_modTask_state k t (f := fun T =>
        { T with xStateList := .waitingTermination }) rfl
    · have hview := State.view_modTask_wait k t
        (f := fun T => { T with xStateList := .waitingTermination }) rfl rfl rfl
      simp only [State.view, View.mk.injEq] at hview
      simp [State.view, hview]
  · exact hinv.halt _

theorem reap (hinv : WaitInv k) (hdying : Dying k) :
    WaitInv k.prvCheckTasksWaitingTermination := by
  cases hlist : k.xTasksWaitingTermination with
  | nil =>
      rw [State.prvCheckTasksWaitingTermination, hlist]
      exact hinv
  | cons t rest =>
      have hmem : t ∈ k.view.xTasksWaitingTermination := by simp [State.view, hlist]
      have hstate := (hdying.listed t).mp hmem
      have hframe := hdying.idle t (by simp [hstate, StateList.alive])
      have hspawned : t < k.nextTask := by
        by_contra hge
        have habsent := hinv.lists.unspawned t (Nat.le_of_not_lt hge)
        rw [hstate] at habsent
        cases habsent
      rw [State.prvCheckTasksWaitingTermination, hlist]
      refine hinv.setState hframe hspawned .absent ?_
        ⟨k.uxCurrentNumberOfTasks - 1, rest, ?_⟩ rfl
      · exact State.sched_modTask_state k t (f := fun T => { T with xStateList := .absent }) rfl
      have hview := State.view_modTask_wait k t
        (f := fun T => { T with xStateList := .absent }) rfl rfl rfl
      simp only [State.view, View.mk.injEq] at hview
      simp [State.view, hview]

end WaitInv

end SimulatedLinux.Kernel
