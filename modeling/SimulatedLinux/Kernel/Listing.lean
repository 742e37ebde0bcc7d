import SimulatedLinux.Kernel.Cpu

/-! # Wait lists in order

What one step does to the wait lists, order included. A task joins a list in one place
only, where `vListInsert` finds its position; a completed operation takes the head of the
list on the other side; in all other steps tasks at most leave.
-/

namespace SimulatedLinux.Kernel

variable {α : Type}

/-- The wait list that a completed operation wakes from. -/
def Op.wakes : Op α → QueueId → EventList
  | genericSend _, q => .toReceive q
  | receive, q | semaphoreTake, q => .toSend q

/-- Tasks at most leave their wait lists, none is woken for a queue, and the ready tasks but
`t` stay ready. -/
structure Sched.Fades (S S' : Sched) (t : Option TaskId) : Prop where
  sub : ∀ list, (S'.eventList list).Sublist (S.eventList list)
  woken : S'.woken = S.woken
  ready : ∀ u, t ≠ some u → S.xStateList u = .ready → S'.xStateList u = .ready

namespace Sched.Fades

variable {S S' S'' : Sched} {t : Option TaskId}

theorem refl (S : Sched) (t : Option TaskId) :
    S.Fades S t := ⟨fun _ => .refl _, rfl, fun _ _ h => h⟩

theorem trans (hfirst : S.Fades S' t) (hsecond : S'.Fades S'' t) : S.Fades S'' t :=
  ⟨fun list => (hsecond.sub list).trans (hfirst.sub list), hsecond.woken.trans hfirst.woken,
    fun u hu h => hsecond.ready u hu (hfirst.ready u hu h)⟩

theorem weaken (hfades : S.Fades S' none) (t : Option TaskId) : S.Fades S' t :=
  ⟨hfades.sub, hfades.woken, fun u _ h => hfades.ready u (by simp) h⟩

theorem unlist (S : Sched) (u : TaskId) : S.Fades (S.unlist u) none := by
  refine ⟨fun list => List.erase_sublist, rfl, fun w _ h => ?_⟩
  by_cases hw : w = u
  · simp [Sched.unlist, hw]
  · simpa [Sched.unlist, hw] using h

theorem setState (S : Sched) (u : TaskId) (state : StateList) :
    S.Fades (S.setState u state) (some u) := by
  refine ⟨fun _ => .refl _, rfl, fun w hw h => ?_⟩
  have hne : w ≠ u := fun heq => hw (by rw [heq])
  simpa [Sched.setState, hne] using h

end Sched.Fades

namespace State

variable {k : State α} {frame : TaskId → Option (Frame α)} {n : Nat}

theorem unblockDelayed_fades (hlists : Lists k.sched frame n) (t : TaskId) :
    k.sched.Fades (k.unblockDelayed t).sched none := by
  unfold unblockDelayed
  split
  · rw [sched_removeEventItem_ready hlists]
    exact .unlist k.sched t
  · exact .refl _ _

theorem xTaskIncrementTick_fades (hlists : Lists k.sched frame n) :
    k.sched.Fades k.xTaskIncrementTick.sched none := by
  have hfold (tasks : List TaskId) (k : State α) (hlists : Lists k.sched frame n) :
      k.sched.Fades (tasks.foldl unblockDelayed k).sched none := by
    induction tasks generalizing k with
    | nil => exact .refl _ _
    | cons t rest ih =>
        exact (unblockDelayed_fades hlists t).trans (ih _ (unblockDelayed_lists hlists t).1)
  unfold xTaskIncrementTick
  split
  · dsimp only
    split
    · have hlists' : Lists { k with xTickCount := (k.xTickCount + 1) % tickModulus }.sched
          frame n := hlists
      have hswitch : k.sched.Fades
          ({ k with xTickCount := (k.xTickCount + 1) % tickModulus }.taskSwitchDelayedLists).sched
          none := by
        refine ⟨fun _ => .refl _, rfl, fun u _ h => ?_⟩
        have hready : (k.task u).xStateList = .ready := h
        simp [sched, taskSwitchDelayedLists, hready]
      exact hswitch.trans (hfold _ _ (taskSwitchDelayedLists_lists hlists'))
    · have hfades :=
        hfold (List.range k.nextTask)
          { k with xTickCount := (k.xTickCount + 1) % tickModulus } hlists
      exact hfades
  · exact .refl _ _

theorem xTaskResumeAll_fades (hlists : Lists k.sched frame n) :
    k.sched.Fades k.xTaskResumeAll.sched none := by
  have hticks (m : Nat) (k : State α) (hlists : Lists k.sched frame n) :
      k.sched.Fades (xTaskIncrementTick^[m] k).sched none := by
    induction m generalizing k with
    | zero => exact .refl _ _
    | succ m ih =>
        exact (xTaskIncrementTick_fades hlists).trans (ih _ (xTaskIncrementTick_lists hlists).1)
  have hpending : k.xPendingReadyList.foldl readyPended
      { k with uxSchedulerSuspended := k.uxSchedulerSuspended - 1 } =
      { k with uxSchedulerSuspended := k.uxSchedulerSuspended - 1 } := by
    have hnil : k.xPendingReadyList = [] := hlists.noPending
    rw [hnil]
    rfl
  unfold xTaskResumeAll
  dsimp only
  split
  · rw [hpending]
    have hfades :=
      hticks k.xPendedTicks { k with uxSchedulerSuspended := k.uxSchedulerSuspended - 1 } hlists
    exact hfades
  · exact .refl _ _

/-- A task joins a wait list at the position of its value. -/
theorem eventList_vTaskPlaceOnEventList (k : State α) (list : EventList) (xTicksToWait : Nat) :
    (k.vTaskPlaceOnEventList list xTicksToWait).eventList = Function.update k.eventList list
      (vListInsert (fun u => (k.task u).xEventValue) k.pxCurrentTCB (k.eventList list)) :=
  eventList_setEventList k list _

theorem vTaskPlaceOnEventList_ready (k : State α) (list : EventList)
    (xTicksToWait : Nat) {u : TaskId} (hu : u ≠ k.pxCurrentTCB)
    (hready : (k.task u).xStateList = .ready) :
    ((k.vTaskPlaceOnEventList list xTicksToWait).task u).xStateList = .ready := by
  have hsame : (k.setEventList list (vListInsert (fun u => (k.task u).xEventValue) k.pxCurrentTCB
      (k.eventList list))).pxCurrentTCB = k.pxCurrentTCB ∧
      (k.setEventList list (vListInsert (fun u => (k.task u).xEventValue) k.pxCurrentTCB
        (k.eventList list))).task u = k.task u := by
    cases list <;> exact ⟨rfl, rfl⟩
  simp only [vTaskPlaceOnEventList, prvAddCurrentTaskToDelayedList, modTask, hsame.1, ne_eq, hu,
    not_false_eq_true, Function.update_of_ne, hsame.2]
  exact hready

theorem woken_vTaskPlaceOnEventList (k : State α) (list : EventList) (xTicksToWait : Nat) :
    (k.vTaskPlaceOnEventList list xTicksToWait).woken = k.woken := by
  cases list <;> rfl

end State

/-- What one step of the kernel does to the wait lists and the tasks woken from them. -/
inductive Relisted (k : State α) (act : Act α) (k' : State α) : Prop
  | same (hsched : k'.sched = k.sched)
      (hidle : ∀ t f, act = .run t → k.view.frame t = some f → f.pc = .attempt →
        k'.view.queue = k.view.queue ∧ k'.view.frame = k.view.frame)
  | fades (hfades : k.sched.Fades k'.sched act.actor)
      (hpc : ∀ t f, act = .run t → k.view.frame t = some f → f.pc ≠ .attempt)
  /-- A task joins the wait list of its call. -/
  | placed (t : TaskId) (f : Frame α) (hact : act = .run t) (hframe : k.view.frame t = some f)
      (hpc : f.pc = .place) (hlists : k'.eventList = Function.update k.eventList f.waitList
        (vListInsert (fun u => (k.task u).xEventValue) t (k.eventList f.waitList)))
      (hwoken : k'.woken = k.woken)
      (hready : ∀ u, u ≠ t → (k.task u).xStateList = .ready → (k'.task u).xStateList = .ready)
  /-- The critical section finds nothing to do. -/
  | refused (t : TaskId) (f : Frame α) (hact : act = .run t) (hframe : k.view.frame t = some f)
      (hpc : f.pc = .attempt) (hnot : ¬ f.op.ready (k.view.queue f.xQueue))
      (hsched : k'.sched = k.sched.setWoken f.waitList ((k.sched.woken f.waitList).erase t))
  /-- The critical section succeeds, and wakes the head of the list on the other side. -/
  | passed (t : TaskId) (f : Frame α) (hact : act = .run t) (hframe : k.view.frame t = some f)
      (hpc : f.pc = .attempt) (hready : f.op.ready (k.view.queue f.xQueue))
      (hsched : k'.sched =
        (k.sched.setWoken f.waitList ((k.sched.woken f.waitList).erase t)).wakeFirst
          (f.op.wakes f.xQueue))
      (hdone : ∃ item, k'.view.frame t = some { f with pc := .leave (.pass item) })

namespace Running

variable {k : State α} {t : TaskId} {frame : Frame α}

theorem relisted_attempt (hrun : Running k t frame) (hpc : frame.pc = .attempt) :
    Relisted k (.run t) (k.attempt t frame) := by
  have hwake {k' : State α} (hsched : k'.sched = k.sched) (hcpu : k'.cpu = k.cpu) (list : EventList)
      (res : QueueResult α) :
      (((k'.retried t frame.waitList).wakeFirst list).complete t frame res).sched =
        (k.sched.setWoken frame.waitList ((k.sched.woken frame.waitList).erase t)).wakeFirst
          list := by
    have hzero : (k'.retried t frame.waitList).uxSchedulerSuspended = 0 :=
      (congrArg Prod.fst hcpu).trans (hrun.suspended_zero hpc)
    have hretried : (k'.retried t frame.waitList).sched =
        k.sched.setWoken frame.waitList ((k.sched.woken frame.waitList).erase t) := by
      rw [← hsched]
      rfl
    have hlists : Lists (k'.retried t frame.waitList).sched k.view.frame k.view.nextTask := by
      rw [hretried]
      exact hrun.inv.lists.retried t frame.waitList
    rw [State.sched_complete, State.sched_wakeFirst hlists hzero list, hretried]
  have hwait : (k.failOrWait t frame).sched =
      k.sched.setWoken frame.waitList ((k.sched.woken frame.waitList).erase t) := by
    unfold State.failOrWait
    dsimp only
    split
    · exact State.sched_complete ..
    · exact State.sched_setFrame ..
  have hdone (k' : State α) (msg : Option α) :
      ∃ item, (k'.complete t frame (.pass msg)).view.frame t =
        some { frame with pc := .leave (.pass item) } := by
    refine ⟨msg, ?_⟩
    rw [State.view_complete]
    exact Function.update_self ..
  unfold State.attempt
  split
  next item hop =>
    unfold State.xQueueGenericSend
    dsimp only
    split
    next hspace =>
      split
      · exact .same rfl fun _ _ _ _ _ => ⟨rfl, rfl⟩
      next hcopy =>
        refine .passed t frame rfl hrun.frame hpc (by rw [hop]; exact hspace) ?_ (hdone _ _)
        rw [hop]
        exact hwake (State.sched_prvCopyDataToQueue hcopy)
          (State.cpu_prvCopyDataToQueue k hcopy) _ _
    next hspace => exact .refused t frame rfl hrun.frame hpc (by rw [hop]; exact hspace) hwait
  next hop =>
    unfold State.xQueueReceive
    dsimp only
    split
    next hcount =>
      refine .passed t frame rfl hrun.frame hpc (by rw [hop]; exact hcount) ?_ (hdone _ _)
      rw [hop]
      obtain ⟨-, -, -, hsend, hreceive, hrx, htx⟩ :=
        prvCopyDataFromQueue_kept (k.queue frame.xQueue)
      exact hwake (State.sched_modQueue k _ hsend hreceive hrx htx) rfl _ _
    next hcount => exact .refused t frame rfl hrun.frame hpc (by rw [hop]; exact hcount) hwait
  next hop =>
    unfold State.xQueueSemaphoreTake
    dsimp only
    split
    next hcount =>
      refine .passed t frame rfl hrun.frame hpc (by rw [hop]; exact hcount) ?_ (hdone _ _)
      rw [hop]
      exact hwake (State.sched_takeCount k _) (State.cpu_takeCount k _) _ _
    next hcount => exact .refused t frame rfl hrun.frame hpc (by rw [hop]; exact hcount) hwait

theorem relisted (hrun : Running k t frame) : Relisted k (.run t) (k.runFrame t frame) := by
  have hfades {k' : State α} (hfades : k.sched.Fades k'.sched (some t))
      (hpc : frame.pc ≠ .attempt) : Relisted k (.run t) k' := by
    refine .fades hfades fun u f hact hframe => ?_
    cases hact
    obtain rfl : f = frame := Option.some.inj (hframe.symm.trans hrun.frame)
    exact hpc
  have hsame {k' : State α} (hsched : k'.sched = k.sched) (hpc : frame.pc ≠ .attempt) :
      Relisted k (.run t) k' := by
    refine .same hsched fun u f hact hframe hattempt => ?_
    cases hact
    obtain rfl : f = frame := Option.some.inj (hframe.symm.trans hrun.frame)
    exact absurd hattempt hpc
  unfold State.runFrame
  dsimp only
  split
  next => exact .same rfl fun _ _ _ _ _ => ⟨rfl, rfl⟩
  next =>
    split
    next hpc =>
      split
      · exact hsame (State.sched_setPc ..) (by simp [hpc])
      · exact hsame rfl (by simp [hpc])
    -- the critical section of the call, which may wake a task that waits for the queue
    next hpc => exact hrun.relisted_attempt hpc
    next hpc => exact hsame (State.sched_setPc ..) (by simp [hpc])
    next hpc =>
      -- the locks of a queue are no part of the lists
      refine hfades ?_ (by simp [hpc])
      rw [State.sched_setPc, State.prvLockQueue, State.sched_modQueue_locks _ _ rfl rfl]
      exact ⟨fun _ => .refl _, rfl, fun _ _ h => h⟩
    next hpc => exact hsame (State.sched_setFrame ..) (by simp [hpc])
    next hpc =>
      split
      · split <;> exact hsame (State.sched_setPc ..) (by simp [hpc])
      · exact hsame (State.sched_setPc ..) (by simp [hpc])
    next hpc => exact hsame (by simp) (by simp [hpc])
    next hpc =>
      have hlists := State.eventList_vTaskPlaceOnEventList k frame.waitList frame.xTicksToWait
      rw [hrun.current] at hlists
      -- the task joins the wait list of its queue
      refine .placed t frame rfl hrun.frame hpc hlists
        (State.woken_vTaskPlaceOnEventList k _ frame.xTicksToWait) fun u hu hready => ?_
      have hready' := State.vTaskPlaceOnEventList_ready k frame.waitList frame.xTicksToWait
        (by rw [hrun.current]; exact hu) hready
      simpa [State.setPc, State.setFrame, State.modTask, hu] using hready'
    next hpc =>
      have hlock : (k.queue frame.xQueue).cTxLock ≤ 0 := (hrun.inv.lists.unlocked _).2
      -- the locks of a queue are no part of the lists
      refine hfades ?_ (by simp [hpc])
      rw [State.sched_setPc, State.prvUnlockQueueTx, wakeLocked_eq _ _ hlock,
        State.sched_modQueue_locks _ _ rfl rfl]
      exact ⟨fun _ => .refl _, rfl, fun _ _ h => h⟩
    next hpc =>
      have hlock : (k.queue frame.xQueue).cRxLock ≤ 0 := (hrun.inv.lists.unlocked _).1
      -- the locks of a queue are no part of the lists
      refine hfades ?_ (by simp [hpc])
      rw [State.sched_setPc, State.prvUnlockQueueRx, wakeLocked_eq _ _ hlock,
        State.sched_modQueue_locks _ _ rfl rfl]
      exact ⟨fun _ => .refl _, rfl, fun _ _ h => h⟩
    next after hpc =>
      have hresumed := (State.xTaskResumeAll_fades hrun.inv.lists).weaken (some t)
      refine hfades ?_ (by simp [hpc])
      unfold State.afterResume
      split
      · rw [State.sched_complete]
        exact hresumed
      · rw [State.sched_setPc]
        exact hresumed
      · rw [State.sched_setPc]
        exact hresumed
    next hpc =>
      split
      · exact hsame (State.sched_complete ..) (by simp [hpc])
      · exact hsame (State.sched_setPc ..) (by simp [hpc])
    next res hpc => exact hsame (State.sched_leave ..) (by simp [hpc])

end Running

namespace KernelInv

variable {k k' : State α} {t : TaskId} {act : Act α}

theorem fades_perform (hinv : KernelInv k) (hactor : act.actor = some t)
    (hcurrent : k.pxCurrentTCB = t) (hframe : k.view.frame t = none)
    (hstep : k.perform act = some k') : k.sched.Fades k'.sched (some t) := by
  have hspawned : t < k.nextTask := hcurrent ▸ hinv.wait.window.current
  have hsame {k' : State α} (hsched : k'.sched = k.sched) : k.sched.Fades k'.sched (some t) := by
    rw [hsched]
    exact .refl _ _
  cases act with
  | tick => simp [State.perform] at hstep
  | run => simp [State.perform] at hstep
  | call u api =>
      cases hstep
      exact hsame (State.sched_enter ..)
  | create u spec =>
      simp only [State.perform] at hstep
      split at hstep <;> cases hstep
      next Q hbuild =>
        obtain ⟨hsend, hreceive, -, -⟩ := NewQueue.build_fresh hbuild
        refine ⟨fun list => ?_, rfl, fun _ _ h => h⟩
        have hlists : (k.addQueue Q).sched.eventList = k.sched.eventList :=
          hinv.wait.eventList_addQueue hsend hreceive
        exact hlists ▸ .refl _
      next => exact hsame rfl
  | delete u q =>
      simp only [State.perform] at hstep
      split at hstep <;> cases hstep
      · exact hsame (State.sched_modQueue k q rfl rfl rfl rfl)
      · exact hsame rfl
  | spawn u uxPriority =>
      simp only [State.perform] at hstep
      split at hstep <;> cases hstep
      · refine ⟨fun _ => .refl _, rfl, fun w _ hready => ?_⟩
        by_cases hw : w = k.nextTask
        · simp [State.sched, State.prvAddNewTaskToReadyList, hw]
        · simpa [State.sched, State.prvAddNewTaskToReadyList, hw] using hready
      · exact hsame rfl
  | exit u =>
      cases hactor
      cases hstep
      unfold State.vTaskDelete
      split
      · rw [hinv.wait.removeEventItem_eq hframe]
        have hstate :=
          State.sched_modTask_state k t (f :=
            fun T => { T with xStateList := .waitingTermination }) rfl
        have hfades := Sched.Fades.setState k.sched t .waitingTermination
        rw [← hstate] at hfades
        exact hfades
      · exact hsame rfl
  | reap u =>
      cases hstep
      unfold State.prvCheckTasksWaitingTermination
      split
      · exact hsame rfl
      next w rest hlist =>
        have hdying : k.sched.xStateList w = .waitingTermination :=
          (hinv.dying.listed w).mp (by simp [State.view, hlist])
        refine ⟨fun _ => .refl _, rfl, fun x _ hready => ?_⟩
        have hne : x ≠ w := by
          rintro rfl
          rw [hdying] at hready
          cases hready
        simpa [State.sched, State.modTask, hne] using hready
  | delay u xTicksToDelay =>
      simp only [State.perform] at hstep
      split at hstep <;> cases hstep
      · unfold State.vTaskDelay
        split
        · exact hsame rfl
        · have hstate :
              ∃ state,
                (k.vTaskSuspendAll.prvAddCurrentTaskToDelayedList xTicksToDelay false).sched =
                  k.sched.setState t state := by
            rw [← hcurrent]
            exact ⟨_, State.sched_modTask_state k.vTaskSuspendAll _ (by split <;> rfl)⟩
          obtain ⟨state, hsched⟩ := hstate
          have hlists :
              Lists (k.vTaskSuspendAll.prvAddCurrentTaskToDelayedList xTicksToDelay false).sched
                k.view.frame k.view.nextTask := by
            rw [hsched]
            exact hinv.wait.lists.setState hspawned (hinv.wait.not_listed hframe)
          -- only the resumption at the end of the delay touches the lists of other tasks
          refine Sched.Fades.trans ?_ ((State.xTaskResumeAll_fades hlists).weaken (some t))
          rw [hsched]
          exact .setState k.sched t state
      · exact hsame rfl
  | suspendAll u =>
      cases hstep
      exact hsame rfl
  | resumeAll u =>
      simp only [State.perform] at hstep
      split at hstep <;> cases hstep
      · exact hsame rfl
      · exact (State.xTaskResumeAll_fades hinv.wait.lists).weaken (some t)

/-- Every step is one of the four. -/
theorem relisted (hinv : KernelInv k) (hstep : k.step act = some k') : Relisted k act k' := by
  have hswitched {t : TaskId} (h : Relisted (k.switchTo t) act k') : Relisted k act k' := by
    cases h with
    | same hsched hidle => exact .same hsched hidle
    | fades hfades hpc => exact .fades hfades hpc
    | placed t f hact hframe hpc hlists hwoken hready =>
        exact .placed t f hact hframe hpc hlists hwoken hready
    | refused t f hact hframe hpc hnot hsched => exact .refused t f hact hframe hpc hnot hsched
    | passed t f hact hframe hpc hready hsched hdone =>
        exact .passed t f hact hframe hpc hready hsched hdone
  unfold State.step at hstep
  split at hstep
  next hactor =>
    split at hstep <;> cases hstep
    exact .fades ((State.xTaskIncrementTick_fades hinv.wait.lists).weaken _)
      (by rintro t f rfl; cases hactor)
  next t hactor =>
    split at hstep
    next hrun =>
      obtain ⟨-, hready, -⟩ := (k.canRun_iff t).mp hrun
      have hinv' := hinv.switchTo hrun
      split at hstep
      next frame u hframe =>
        cases hactor
        cases hstep
        have hrunning : Running (k.switchTo t) t frame := ⟨hinv'.wait, rfl, hframe, hready⟩
        exact hswitched hrunning.relisted
      next => simp at hstep
      next hframe =>
        refine .fades ?_ ?_
        · rw [hactor]
          have hfades := hinv'.fades_perform hactor rfl hframe hstep
          exact hfades
        · rintro u f rfl -
          simp [State.perform] at hstep
    next => simp at hstep

/-- A task at its critical section runs with the scheduler, and is in no wait list. -/
theorem attempting (hinv : KernelInv k) {f : Frame α} (hact : act = .run t)
    (hframe : k.view.frame t = some f) (hpc : f.pc = .attempt) (hstep : k.step act = some k') :
    k.uxSchedulerSuspended = 0 ∧ ∀ list, t ∉ k.eventList list := by
  subst hact
  have hrun := State.step_canRun rfl hstep
  obtain ⟨-, hready, -⟩ := (k.canRun_iff t).mp hrun
  have hrunning : Running (k.switchTo t) t f := ⟨(hinv.switchTo hrun).wait, rfl, hframe, hready⟩
  refine ⟨hrunning.suspended_zero hpc, fun list hmem => ?_⟩
  have hnone : k.sched.xEventList t = none :=
    hrunning.not_listed (.inl (by simp [hpc, Pc.inWindow]))
  rw [(hinv.wait.lists.listed t list).mp hmem] at hnone
  cases hnone

/-- The tasks that wait for a queue after a step waited for it before, or have just joined. -/
theorem waiters (hinv : KernelInv k) (hstep : k.step act = some k') {list : EventList} {w : TaskId}
    (hmem : w ∈ k'.eventList list) :
    w ∈ k.eventList list ∨ ∃ f, act = .run w ∧ k.view.frame w = some f ∧ f.pc = .place ∧
      f.waitList = list := by
  cases hinv.relisted hstep with
  | same hsched =>
      have hlist : k'.eventList = k.eventList := congrArg Sched.eventList hsched
      exact .inl (hlist ▸ hmem)
  | fades hfades => exact .inl ((hfades.sub list).mem hmem)
  | placed t f hact hframe hpc hlists =>
      rw [hlists] at hmem
      by_cases hl : list = f.waitList
      · subst hl
        rw [Function.update_self] at hmem
        rcases List.mem_cons.mp ((vListInsert_perm _ t _).mem_iff.mp hmem) with rfl | hmem
        · exact .inr ⟨f, hact, hframe, hpc, rfl⟩
        · exact .inl hmem
      · rw [Function.update_of_ne hl] at hmem
        exact .inl hmem
  | refused t f hact hframe hpc hnot hsched =>
      have hlist : k'.eventList = k.eventList := congrArg Sched.eventList hsched
      exact .inl (hlist ▸ hmem)
  | passed t f hact hframe hpc hready hsched =>
      have hlist : k'.eventList = _ := congrArg Sched.eventList hsched
      rw [hlist] at hmem
      unfold Sched.wakeFirst at hmem
      split at hmem
      · exact .inl hmem
      · exact .inl (List.mem_of_mem_erase hmem)

end KernelInv

/-! ## Tasks that have been woken -/

theorem Sched.mem_of_mem_retried {S : Sched} {list l : EventList} {t u : TaskId}
    (hmem : u ∈ (S.setWoken list ((S.woken list).erase t)).woken l) : u ∈ S.woken l := by
  simp only [Sched.setWoken, Function.update_apply] at hmem
  split at hmem
  next hl =>
    subst hl
    exact List.mem_of_mem_erase hmem
  next => exact hmem

/-- A task inside a call does nothing but go on with it. -/
theorem State.act_run {k k' : State α} {act : Act α} {t : TaskId} {f : Frame α}
    (hframe : k.view.frame t = some f) (hactor : act.actor = some t)
    (hstep : k.step act = some k') : act = .run t := by
  have hsome : (k.task t).frame = some f := hframe
  unfold State.step at hstep
  simp only [hactor, hsome] at hstep
  split at hstep
  · cases act <;> simp_all [Act.actor]
  · simp at hstep

/-- The tasks that have been woken and have not run since are ready. -/
def State.WokenReady (k : State α) : Prop :=
  ∀ list t, t ∈ k.woken list → (k.task t).xStateList = .ready

theorem KernelInv.wokenReady_step {k k' : State α} {act : Act α} (hinv : KernelInv k)
    (hready₀ : k.WokenReady) (hstep : k.step act = some k') : k'.WokenReady := by
  intro list t hmem
  have hawoken := hinv.wait.lists.awoken t
  cases hinv.relisted hstep with
  | same hsched =>
      have hwoken : k'.woken = k.woken := congrArg Sched.woken hsched
      have hstate : (k'.task t).xStateList = (k.task t).xStateList :=
        congrFun (congrArg Sched.xStateList hsched) t
      rw [hwoken] at hmem
      rw [hstate]
      exact hready₀ list t hmem
  | fades hfades hpc =>
      have hwoken : k'.woken = k.woken := hfades.woken
      rw [hwoken] at hmem
      obtain ⟨-, f, hframe, -, hattempt⟩ := hawoken list hmem
      refine hfades.ready t (fun hactor => ?_) (hready₀ list t hmem)
      have hact := State.act_run hframe hactor hstep
      exact hpc t f hact hframe hattempt
  | placed u f hact hframe hpc hlists hwoken hready =>
      rw [hwoken] at hmem
      refine hready t ?_ (hready₀ list t hmem)
      rintro rfl
      obtain ⟨-, f', hframe', -, hattempt⟩ := hawoken list hmem
      obtain rfl : f' = f := Option.some.inj (hframe'.symm.trans hframe)
      simp [hpc] at hattempt
  | refused u f hact hframe hpc hnot hsched =>
      have hwoken : k'.woken = _ := congrArg Sched.woken hsched
      have hstate : (k'.task t).xStateList = (k.task t).xStateList :=
        congrFun (congrArg Sched.xStateList hsched) t
      rw [hstate]
      refine hready₀ list t ?_
      rw [hwoken] at hmem
      exact Sched.mem_of_mem_retried hmem
  | passed u f hact hframe hpc hready hsched =>
      have hstate : (k'.task t).xStateList = _ := congrFun (congrArg Sched.xStateList hsched) t
      have hwoken : k'.woken = _ := congrArg Sched.woken hsched
      rw [hwoken] at hmem
      rw [hstate]
      unfold Sched.wakeFirst at hmem ⊢
      split at hmem
      · exact hready₀ list t (Sched.mem_of_mem_retried hmem)
      next w rest hlist =>
        by_cases hw : t = w
        · simp [Sched.setWoken, Sched.unlist, hw]
        · have hold : t ∈
              (k.sched.setWoken f.waitList ((k.sched.woken f.waitList).erase u)).woken list := by
            simp only [Sched.setWoken, Sched.unlist] at hmem ⊢
            by_cases hl : list = f.op.wakes f.xQueue
            · subst hl
              simpa [hw] using hmem
            · simpa [hl] using hmem
          have hready : k.sched.xStateList t = .ready :=
            hready₀ list t (Sched.mem_of_mem_retried hold)
          simpa [Sched.setWoken, Sched.unlist, hw] using hready

theorem Booted.wokenReady {k : State α} (hbooted : Booted k) : k.WokenReady := by
  obtain ⟨uxMainPriority, hreach⟩ := hbooted
  have hinv : KernelInv k ∧ k.WokenReady := by
    -- a task is woken to the ready list, and it leaves the list of woken tasks before it blocks
    -- again
    refine hreach.invariant (fun k => KernelInv k ∧ k.WokenReady)
      ⟨State.boot_inv uxMainPriority, fun list t hmem => ?_⟩ ?_
    · cases hmem
    · rintro k act k' ⟨hinv, hready⟩ hvalid hstep
      exact ⟨hinv.step hvalid.unsuspended hstep, hinv.wokenReady_step hready hstep⟩
  exact hinv.2

end SimulatedLinux.Kernel
