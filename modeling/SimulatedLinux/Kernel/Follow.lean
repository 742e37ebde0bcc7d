import SimulatedLinux.Kernel.Ticks

/-! # The machine follows the kernel

Every function of the machine does to the kernel what the function of the same name does, and leaves
the lists in agreement with the tasks.
-/

namespace SimulatedLinux.Kernel

variable {α : Type}

namespace Machine

variable {M M' : Machine α} {k : State α} {t : TaskId}

/-- The machine has gone on from `M` to `M'`, and its kernel is `k`. -/
structure Follows (M M' : Machine α) (k : State α) : Prop where
  listed : M'.Listed
  kernel : M'.k = k
  aside : M'.aside = M.aside

namespace Follows

theorem refl (h : M.Listed) : Follows M M M.k := ⟨h, rfl, rfl⟩

/-- A function of the kernel that moves no state item. -/
theorem onKernel (h : Follows M M' k) {f : State α → State α} (hslot : (f k).slot = k.slot) :
    Follows M (M'.onKernel f) (f k) := by
  obtain ⟨hlisted, rfl, haside⟩ := h
  refine ⟨?_, rfl, haside⟩
  have hagrees : Agrees M' (f M'.k).slot := hslot ▸ hlisted
  exact hagrees.of_lists rfl rfl rfl rfl

theorem trans {M'' : Machine α} {k' : State α} (h : Follows M M' k) (h' : Follows M' M'' k') :
    Follows M M'' k' :=
  ⟨h'.listed, h'.kernel, h'.aside.trans h.aside⟩

end Follows

/-! ## Waking -/

theorem Listed.follows_wakeFirst (h : M.Listed) (list : EventList)
    (hbound : ∀ u, (M.k.slot u).priority < 32) (hzero : M.k.uxSchedulerSuspended = 0)
    (hwaiting : ∀ t ∈ M.k.eventList list, (M.k.slot t).state ≠ .ready) :
    Follows M (M.wakeFirst list) (M.k.wakeFirst list) := by
  unfold Machine.wakeFirst State.wakeFirst
  split
  next => exact .refl h
  next hne =>
    obtain ⟨t, rest, hlist⟩ := List.exists_cons_of_ne_nil hne
    have hlisted := h.xTaskRemoveFromEventList hlist (hwaiting t (by simp [hlist])) (hbound t)
    refine ⟨hlisted, ?_, ?_⟩
    · simp only [Machine.xTaskRemoveFromEventList, hlist]
      rw [if_pos hzero]
      rfl
    · simp only [Machine.xTaskRemoveFromEventList, hlist]
      rw [if_pos hzero]
      rfl

/-! ## Priorities -/

theorem aside_removeReady (M : Machine α) (t : TaskId) : (M.removeReady t).aside = M.aside := by
  unfold removeReady
  dsimp only
  split <;> rfl

/-- A ready task moves to the ready list of another priority. -/
theorem Listed.reprioritise (h : M.Listed) (hready : (M.k.slot t).state = .ready) {p : Nat}
    (hp : p < 32) (hslot : k.slot = Function.update M.k.slot t { M.k.slot t with priority := p }) :
    Follows M (recordReady { M.removeReady t with k := k } t) k := by
  have hremoved := (h.removeReady hready rfl).onKernel fun _ => k
  have hprio : (k.task t).uxPriority = p := by
    have hself := congrFun hslot t
    rw [Function.update_self] at hself
    exact congrArg Slot.priority hself
  have hrecorded :=
    hremoved.recordReady (t := t) (by simp [Slot.setState])
      (Nat.lt_of_le_of_lt (Nat.le_of_eq hprio) hp)
  have hnew : Function.update (Function.update M.k.slot t ((M.k.slot t).setState .absent)) t
      ⟨.ready, (Function.update M.k.slot t ((M.k.slot t).setState .absent) t).wake,
       (k.task t).uxPriority⟩ = k.slot := by
    rw [hslot, Function.update_idem, Function.update_self, hprio, ← hready]
    rfl
  refine ⟨?_, rfl, M.aside_removeReady t⟩
  have hagrees : Agrees (((M.removeReady t).onKernel fun _ => k).recordReady t) k.slot :=
    hnew ▸ hrecorded
  exact hagrees

/-- A task that is not ready may change its priority where it is. -/
theorem Listed.repriced (h : M.Listed) (hready : (M.k.slot t).state ≠ .ready) {p : Nat}
    (hslot : k.slot = Function.update M.k.slot t { M.k.slot t with priority := p }) :
    Follows M { M with k := k } k := by
  have hwake (u : TaskId) : (k.slot u).wake = (M.k.slot u).wake := by
    rw [hslot]
    exact wake_update M.k.slot t (s := { M.k.slot t with priority := p }) rfl u
  refine ⟨⟨h.sound, fun u => ?_, h.bitmap, fun second =>
      h.sorted_sublist (List.Sublist.refl _) hwake,
    fun u hu => ?_⟩, rfl, rfl⟩
  · refine (h.home u).trans ?_
    rw [hslot]
    by_cases hu : u = t
    · subst hu
      rw [Function.update_self]
      unfold Slot.home
      split <;> simp_all
    · rw [Function.update_of_ne hu]
  · rw [hwake]
    exact h.next u hu

theorem Listed.follows_xTaskPriorityInherit (h : M.Listed)
    (hbound : ∀ u, (M.k.slot u).priority < 32) (pxMutexHolder : Option TaskId) :
    Follows M (M.xTaskPriorityInherit pxMutexHolder) (M.k.xTaskPriorityInherit pxMutexHolder) := by
  cases pxMutexHolder with
  | none => exact .refl h
  | some holder =>
      have hslot := M.k.slot_xTaskPriorityInherit holder
      simp only [Machine.xTaskPriorityInherit]
      split
      next hlower =>
        rw [if_pos hlower] at hslot
        split
        next hcontainer =>
          rw [h.home] at hcontainer
          have hready := (Slot.home_ready.mp hcontainer).1
          have hfollows := h.reprioritise hready (hbound _) hslot
          unfold onKernel
          rwa [M.k_removeReady]
        next hcontainer =>
          refine h.repriced (fun hready => hcontainer ?_) hslot
          rw [h.home]
          exact Slot.home_ready.mpr ⟨hready, rfl⟩
      next hnot =>
        have hsame : M.k.xTaskPriorityInherit (some holder) = M.k := by
          simp only [State.xTaskPriorityInherit]
          rw [if_neg hnot]
        rw [hsame]
        exact .refl h

theorem Listed.follows_xTaskPriorityDisinherit (h : M.Listed)
    (hready : (M.k.slot M.k.pxCurrentTCB).state = .ready)
    (hbase : (M.k.task M.k.pxCurrentTCB).uxBasePriority < 32) {pxMutexHolder : Option TaskId}
    (hdone : M.xTaskPriorityDisinherit pxMutexHolder = some M') :
    Follows M M' M'.k ∧ ∀ u, (M.k.slot u).priority < 32 → (M'.k.slot u).priority < 32 := by
  obtain ⟨k, hk, hM'⟩ := Option.map_eq_some_iff.mp hdone
  cases pxMutexHolder with
  | none =>
      cases hk
      subst hM'
      exact ⟨.refl h, fun _ hu => hu⟩
  | some holder =>
      obtain ⟨rfl, hslot⟩ := State.slot_xTaskPriorityDisinherit hk
      dsimp only at hM'
      split at hM'
      next hlast =>
        subst hM'
        rw [if_pos hlast] at hslot
        refine ⟨h.reprioritise hready hbase hslot, fun u hu => ?_⟩
        change (k.slot u).priority < 32
        rw [hslot]
        by_cases hut : u = M.k.pxCurrentTCB
        · subst hut
          simpa using hbase
        · simpa [hut] using hu
      next hlast =>
        subst hM'
        rw [if_neg hlast] at hslot
        refine ⟨(Follows.refl h).onKernel (f := fun _ => k) hslot, fun u hu => ?_⟩
        change (k.slot u).priority < 32
        rwa [hslot]

theorem map_k_xTaskPriorityDisinherit (M : Machine α) (pxMutexHolder : Option TaskId) :
    (M.xTaskPriorityDisinherit pxMutexHolder).map Machine.k =
      M.k.xTaskPriorityDisinherit pxMutexHolder := by
  unfold Machine.xTaskPriorityDisinherit
  rw [Option.map_map]
  refine (Option.map_congr fun k _ => ?_).trans Option.map_id'
  cases pxMutexHolder with
  | none => rfl
  | some holder =>
      dsimp only [Function.comp]
      split <;> rfl

/-! ## Queues -/

theorem map_k_prvCopyDataToQueue (M : Machine α) (q : QueueId) (item : Option α) :
    (M.prvCopyDataToQueue q item).map Machine.k = M.k.prvCopyDataToQueue q item := by
  unfold Machine.prvCopyDataToQueue
  split
  next hmutex =>
    rw [State.prvCopyDataToQueue, if_pos hmutex.1, if_pos hmutex.2,
      ← M.map_k_xTaskPriorityDisinherit, Option.map_map, Option.map_map]
    rfl
  next =>
    rw [Option.map_map]
    exact Option.map_id'

theorem Listed.follows_prvCopyDataToQueue (h : M.Listed)
    (hready : (M.k.slot M.k.pxCurrentTCB).state = .ready)
    (hbase : (M.k.task M.k.pxCurrentTCB).uxBasePriority < 32) {q : QueueId} {item : Option α}
    (hcopy : M.prvCopyDataToQueue q item = some M') :
    Follows M M' M'.k ∧ ∀ u, (M.k.slot u).priority < 32 → (M'.k.slot u).priority < 32 := by
  unfold Machine.prvCopyDataToQueue at hcopy
  split at hcopy
  next =>
    obtain ⟨M₁, hdone, rfl⟩ := Option.map_eq_some_iff.mp hcopy
    obtain ⟨hfollows, hbound⟩ := h.follows_xTaskPriorityDisinherit hready hbase hdone
    exact ⟨hfollows.onKernel rfl, hbound⟩
  next hmutex =>
    obtain ⟨k, hk, rfl⟩ := Option.map_eq_some_iff.mp hcopy
    have hslot : k.slot = M.k.slot := by
      unfold State.prvCopyDataToQueue at hk
      split at hk
      next hsize =>
        rw [if_neg fun hisMutex => hmutex ⟨hsize, hisMutex⟩] at hk
        cases hk
        rfl
      next =>
        cases hk
        rfl
    refine ⟨(Follows.refl h).onKernel (f := fun _ => k) hslot, fun u hu => ?_⟩
    change (k.slot u).priority < 32
    rwa [hslot]

/-- The end of a critical section that has succeeded. -/
theorem Follows.pass {frame : Frame α} {frames : TaskId → Option (Frame α)} {n : Nat}
    (h : Follows M M' k) (hbound : ∀ u, (k.slot u).priority < 32) (hlists : Lists k.sched frames n)
    (hzero : k.uxSchedulerSuspended = 0) (t : TaskId) (list : EventList) (item : Option α) :
    Follows M (M'.pass t frame list item)
      (((k.retried t frame.waitList).wakeFirst list).complete t frame (.pass item)) := by
  have hretried : Follows M (M'.onKernel (·.retried t frame.waitList))
      (k.retried t frame.waitList) := h.onKernel rfl
  have hwoken := hretried.listed.follows_wakeFirst list (by rw [hretried.kernel]; exact hbound)
    (by rw [hretried.kernel]; exact hzero) fun u hu => by
      rw [hretried.kernel] at hu ⊢
      have hevent := (hlists.listed u list).mp hu
      have hblocked := (hlists.waiting u list hevent).1
      intro hready
      have hstate : k.sched.xStateList u = .ready := hready
      simp [hstate, StateList.blocked] at hblocked
  rw [hretried.kernel] at hwoken
  exact (hretried.trans hwoken).onKernel (State.slot_complete ..)

theorem bound_of_ranks (hranks : Ranks k) (u : TaskId) : (k.slot u).priority < 32 :=
  Nat.lt_trans (hranks.bound u) (by decide)

theorem Listed.follows_attempt {frame : Frame α} (h : M.Listed) (hranks : Ranks M.k)
    (hrun : Running M.k t frame) (hpc : frame.pc = .attempt) :
    Follows M (M.attempt t frame) (M.k.attempt t frame) := by
  have hzero : M.k.uxSchedulerSuspended = 0 := by
    rw [hrun.suspended_eq, hpc]
    rfl
  have hlists := hrun.inv.lists
  have hbound := bound_of_ranks hranks
  have hfail : Follows M (M.onKernel (·.failOrWait t frame)) (M.k.failOrWait t frame) :=
    (Follows.refl h).onKernel (State.slot_failOrWait ..)
  unfold Machine.attempt State.attempt
  cases frame.op with
  | genericSend item =>
    unfold Machine.xQueueGenericSend State.xQueueGenericSend
    dsimp only
    split
    next =>
      have hk := M.map_k_prvCopyDataToQueue frame.xQueue item
      cases hcopy : M.prvCopyDataToQueue frame.xQueue item with
      | none =>
          rw [hcopy] at hk
          rw [← hk]
          exact (Follows.refl h).onKernel rfl
      | some M' =>
          have hready : (M.k.slot M.k.pxCurrentTCB).state = .ready := by
            rw [hrun.current]
            exact hrun.ready hzero
          have hbase : (M.k.task M.k.pxCurrentTCB).uxBasePriority < 32 :=
            Nat.lt_of_le_of_lt (hranks.base _) (hbound _)
          obtain ⟨hfollows, hbound'⟩ := h.follows_prvCopyDataToQueue hready hbase hcopy
          rw [hcopy] at hk
          have hcpu := State.cpu_prvCopyDataToQueue M.k hk.symm
          have hsched := State.sched_prvCopyDataToQueue hk.symm
          rw [← hk]
          exact hfollows.pass (fun u => hbound' u (hbound u)) (hsched ▸ hlists)
            ((congrArg Prod.fst hcpu).trans hzero) t _ _
    next => exact hfail
  | receive =>
    unfold Machine.xQueueReceive State.xQueueReceive
    dsimp only
    split
    next =>
      have hreceived : Follows M (M.onKernel (·.modQueue frame.xQueue fun _ =>
          { (prvCopyDataFromQueue (M.k.queue frame.xQueue)).1 with
            uxMessagesWaiting :=
              (prvCopyDataFromQueue (M.k.queue frame.xQueue)).1.uxMessagesWaiting - 1 })) _ :=
        (Follows.refl h).onKernel rfl
      have hsched := M.k.sched_modQueue frame.xQueue
        (f := fun _ => { (prvCopyDataFromQueue (M.k.queue frame.xQueue)).1 with
          uxMessagesWaiting := (prvCopyDataFromQueue (M.k.queue frame.xQueue)).1.uxMessagesWaiting -
            1 })
        (by unfold prvCopyDataFromQueue; split <;> rfl)
        (by unfold prvCopyDataFromQueue; split <;> rfl)
        (by unfold prvCopyDataFromQueue; split <;> rfl)
        (by unfold prvCopyDataFromQueue; split <;> rfl)
      exact hreceived.pass hbound (hsched ▸ hlists) hzero t _ _
    next => exact hfail
  | semaphoreTake =>
    unfold Machine.xQueueSemaphoreTake State.xQueueSemaphoreTake
    dsimp only
    split
    next =>
      have hslot := M.k.slot_takeCount frame.xQueue
      have htaken : Follows M (M.onKernel (·.takeCount frame.xQueue))
          (M.k.takeCount frame.xQueue) :=
        (Follows.refl h).onKernel hslot
      refine htaken.pass (fun u => ?_) (State.sched_takeCount M.k _ ▸ hlists) ?_ t _ _
      · rw [hslot]
        exact hbound u
      · exact (congrArg Prod.fst (State.cpu_takeCount M.k _)).trans hzero
    next => exact hfail

/-! ## Blocking -/

theorem Listed.follows_prvAddCurrentTaskToDelayedList (h : M.Listed)
    (hready : (M.k.slot M.k.pxCurrentTCB).state = .ready) (xTicksToWait : Nat) (forever : Bool) :
    Follows M (M.prvAddCurrentTaskToDelayedList xTicksToWait forever)
      (M.k.prvAddCurrentTaskToDelayedList xTicksToWait forever) := by
  refine ⟨h.prvAddCurrentTaskToDelayedList hready xTicksToWait forever, ?_, ?_⟩
  · unfold Machine.prvAddCurrentTaskToDelayedList
    dsimp only [onKernel]
    rw [M.k_removeReady]
    split
    · rfl
    · split <;> rfl
  · have haside := M.aside_removeReady M.k.pxCurrentTCB
    unfold Machine.prvAddCurrentTaskToDelayedList
    dsimp only
    split
    · exact haside
    · split <;> exact haside

theorem Listed.follows_vTaskPlaceOnEventList (h : M.Listed)
    (hready : (M.k.slot M.k.pxCurrentTCB).state = .ready) (list : EventList) (xTicksToWait : Nat) :
    Follows M (M.vTaskPlaceOnEventList list xTicksToWait)
      (M.k.vTaskPlaceOnEventList list xTicksToWait) := by
  have hlisted : Follows M (M.onKernel fun k => k.setEventList list
      (vListInsert (fun u => (k.task u).xEventValue) M.k.pxCurrentTCB (k.eventList list))) _ :=
    (Follows.refl h).onKernel (State.slot_setEventList ..)
  have hmarked := hlisted.onKernel
    (f := (·.modTask M.k.pxCurrentTCB fun T => { T with xEventList := some list }))
    (State.slot_modTask_same _ _ rfl)
  have hslot {tasks : List TaskId} : ((M.k.setEventList list tasks).modTask M.k.pxCurrentTCB
      fun T => { T with xEventList := some list }).slot = M.k.slot :=
    (State.slot_modTask_same _ _ rfl).trans (State.slot_setEventList ..)
  have hcurrent {tasks : List TaskId} : ((M.k.setEventList list tasks).modTask M.k.pxCurrentTCB
      fun T => { T with xEventList := some list }).pxCurrentTCB = M.k.pxCurrentTCB :=
    congrArg Prod.snd (M.k.cpu_setEventList list tasks)
  refine hmarked.trans (hmarked.listed.follows_prvAddCurrentTaskToDelayedList ?_ xTicksToWait true)
  rw [hmarked.kernel, hslot, hcurrent]
  exact hready

/-- Tasks are woken only for items that moved while the queue was locked. -/
theorem wakeLocked_unlocked (M : Machine α) (list : EventList) {lock : Int} (hlock : lock ≤ 0) :
    M.wakeLocked list lock.toNat = M := by
  rw [Int.toNat_of_nonpos hlock]
  rfl

/-- What a step of a blocking function needs to know of the machine. -/
structure FrameReady (M : Machine α) (t : TaskId) (frame : Frame α) : Prop where
  tick : M.TickReady
  ranks : Ranks M.k
  run : Running M.k t frame
  /-- The task is in its ready list until it is placed. -/
  ready : frame.pc = .place → (M.k.slot t).state = .ready
  nodup : M.xPendingReadyList.Nodup
  pended : frame.pc.inWindow → ∀ u ∈ M.xPendingReadyList, (M.k.slot u).state = .suspended

/-- A step of a blocking function that does not resume the scheduler. -/
theorem FrameReady.follows {frame : Frame α} (h : M.FrameReady t frame)
    (hpc : ∀ after, frame.pc ≠ .resumeAll after) :
    Follows M (M.runFrame t frame) (M.k.runFrame t frame) := by
  have hlisted := h.tick.listed
  have hrun := h.run
  have hstill (hstill : frame.pc.still) :
      Follows M (M.onKernel (·.runFrame t frame)) (M.k.runFrame t frame) :=
    (Follows.refl hlisted).onKernel (State.slot_runFrame_still _ _ hstill)
  by_cases hfreed : frame.pc.touchesQueue && !(M.k.queue frame.xQueue).live
  · unfold Machine.runFrame State.runFrame
    dsimp only
    rw [if_pos hfreed, if_pos hfreed]
    exact (Follows.refl hlisted).onKernel rfl
  · unfold Machine.runFrame
    dsimp only
    rw [if_neg hfreed]
    cases hcase : frame.pc with
    | attempt =>
        have hfollows := hlisted.follows_attempt h.ranks hrun hcase
        unfold State.runFrame
        simp only [hcase] at hfreed ⊢
        rw [if_neg hfreed]
        exact hfollows
    | inherit =>
        have hfollows := hlisted.follows_xTaskPriorityInherit (bound_of_ranks h.ranks)
          (M.k.queue frame.xQueue).xMutexHolder
        unfold State.runFrame
        simp only [hcase] at hfreed ⊢
        rw [if_neg hfreed]
        exact hfollows.onKernel (State.slot_setPc ..)
    | place =>
        have hready : (M.k.slot M.k.pxCurrentTCB).state = .ready := by
          rw [hrun.current]
          exact h.ready hcase
        have hfollows :=
          hlisted.follows_vTaskPlaceOnEventList hready frame.waitList frame.xTicksToWait
        unfold State.runFrame
        simp only [hcase] at hfreed ⊢
        rw [if_neg hfreed]
        exact hfollows.onKernel (State.slot_setPc ..)
    | unlockTx after =>
        have hlock : (M.k.queue frame.xQueue).cTxLock ≤ 0 := (hrun.inv.lists.unlocked _).2
        unfold State.runFrame Machine.prvUnlockQueueTx State.prvUnlockQueueTx
        simp only [hcase] at hfreed ⊢
        rw [if_neg hfreed, wakeLocked_unlocked _ _ hlock, Running.wakeLocked_eq _ _ hlock]
        exact ((Follows.refl hlisted).onKernel rfl).onKernel (State.slot_setPc ..)
    | unlockRx after =>
        have hlock : (M.k.queue frame.xQueue).cRxLock ≤ 0 := (hrun.inv.lists.unlocked _).1
        unfold State.runFrame Machine.prvUnlockQueueRx State.prvUnlockQueueRx
        simp only [hcase] at hfreed ⊢
        rw [if_neg hfreed, wakeLocked_unlocked _ _ hlock, Running.wakeLocked_eq _ _ hlock]
        exact ((Follows.refl hlisted).onKernel rfl).onKernel (State.slot_setPc ..)
    | resumeAll after => exact absurd hcase (hpc after)
    | _ => exact hstill (by simp [hcase, Pc.still])

theorem runFrame_resumeAll {frame : Frame α} {after : AfterUnlock}
    (hpc : frame.pc = .resumeAll after) :
    M.runFrame t frame = M.xTaskResumeAll.onKernel (·.afterResume t frame after) := by
  unfold Machine.runFrame
  simp only [hpc, Pc.touchesQueue, Bool.false_and, Bool.false_eq_true, if_false]

/-- The step that resumes the scheduler. -/
theorem FrameReady.resumes {frame : Frame α} (h : M.FrameReady t frame) {after : AfterUnlock}
    (hpc : frame.pc = .resumeAll after) :
    (M.runFrame t frame).TickReady ∧ (M.runFrame t frame).k = M.roused.runFrame t frame ∧
      (M.runFrame t frame).aside =
        (if M.k.uxSchedulerSuspended - 1 = 0 then [] else M.xPendingReadyList, M.aside.2) := by
  obtain ⟨hready, hk, haside⟩ := h.tick.xTaskResumeAll h.nodup
    (h.pended (by simp [hpc, Pc.inWindow])) h.run.inv.lists.noPending
  have hfollows : Follows M.xTaskResumeAll (M.runFrame t frame)
      (M.xTaskResumeAll.k.afterResume t frame after) := by
    rw [runFrame_resumeAll hpc]
    exact (Follows.refl hready.listed).onKernel (State.slot_afterResume ..)
  have hslot := State.slot_afterResume M.xTaskResumeAll.k t frame after
  have hrest : (M.xTaskResumeAll.k.afterResume t frame after).nextTask =
      M.xTaskResumeAll.k.nextTask ∧ (M.xTaskResumeAll.k.afterResume t frame after).xTickCount =
        M.xTaskResumeAll.k.xTickCount := by
    unfold State.afterResume
    split <;> exact ⟨rfl, rfl⟩
  refine ⟨⟨hfollows.listed, ?_, ?_, ?_, ?_⟩, ?_, hfollows.aside.trans haside⟩
  · rw [hfollows.kernel, hslot]
    exact hready.bound
  · rw [hfollows.kernel, hslot, hrest.1]
    exact hready.unspawned
  · rw [hfollows.kernel, State.ClockOk, hrest.2]
    exact hready.clock
  · rw [hfollows.kernel, hslot, hrest.2]
    exact hready.timely
  · rw [hfollows.kernel, hk]
    unfold State.runFrame
    simp only [hpc, Pc.touchesQueue, Bool.false_and, Bool.false_eq_true, if_false]

/-! ## Tasks -/

theorem Listed.follows_prvAddNewTaskToReadyList (h : M.Listed)
    (habsent : (M.k.slot M.k.nextTask).state = .absent) {uxPriority : Nat} (hlt : uxPriority < 32) :
    Follows M (M.prvAddNewTaskToReadyList uxPriority)
      (M.k.prvAddNewTaskToReadyList uxPriority) := by
  have hprio : ((M.k.prvAddNewTaskToReadyList uxPriority).task M.k.nextTask).uxPriority =
      uxPriority := by
    simp [State.prvAddNewTaskToReadyList]
  have hcleared :=
    (h.absent habsent (s := ⟨.absent, 0, 0⟩) rfl).onKernel (·.prvAddNewTaskToReadyList uxPriority)
  have hrecorded :=
    hcleared.recordReady (t := M.k.nextTask) (by simp) (Nat.lt_of_le_of_lt (Nat.le_of_eq hprio) hlt)
  have hslot : Function.update (Function.update M.k.slot M.k.nextTask ⟨.absent, 0, 0⟩) M.k.nextTask
      ⟨.ready, (Function.update M.k.slot M.k.nextTask ⟨.absent, 0, 0⟩ M.k.nextTask).wake,
        ((M.k.prvAddNewTaskToReadyList uxPriority).task M.k.nextTask).uxPriority⟩ =
      (M.k.prvAddNewTaskToReadyList uxPriority).slot := by
    rw [Function.update_idem, Function.update_self, hprio]
    funext u
    by_cases hu : u = M.k.nextTask
    · subst hu
      simp [State.slot, State.prvAddNewTaskToReadyList, Task.slot]
    · simp [State.slot, State.prvAddNewTaskToReadyList, hu]
  have hagrees : Agrees (M.prvAddNewTaskToReadyList uxPriority)
      (M.k.prvAddNewTaskToReadyList uxPriority).slot :=
    hslot ▸ hrecorded
  exact ⟨hagrees, rfl, rfl⟩

theorem Listed.follows_vTaskDelete (h : M.Listed) (hready : (M.k.slot t).state = .ready) :
    Follows M (M.vTaskDelete t) (M.k.vTaskDelete t) := by
  unfold Machine.vTaskDelete
  split
  next hzero =>
    have hslot : (M.k.vTaskDelete t).slot =
        Function.update M.k.slot t ((M.k.slot t).setState .waitingTermination) := by
      have hmod := (M.k.removeEventItem t).slot_modTask t fun T =>
        { T with xStateList := .waitingTermination }
      rw [State.slot_removeEventItem] at hmod
      rw [State.vTaskDelete, if_pos hzero]
      refine hmod.trans (congrArg _ ?_)
      have htask := congrFun (M.k.slot_removeEventItem t) t
      rw [← htask]
      rfl
    have hcontainer : M.lists.container t = some (.ready (M.k.task t).uxPriority) := by
      rw [h.home]
      exact Slot.home_ready.mpr ⟨hready, rfl⟩
    have hremoveReady :
        (if (M.uxListRemove t).2 = 0 ∧ (M.uxListRemove t).1.items (.ready (M.k.task t).uxPriority) =
          [] then
        (M.uxListRemove t).1.portResetReadyPriority (M.k.task t).uxPriority
          else (M.uxListRemove t).1) =
        M.removeReady t := by
      have hempty : (M.uxListRemove t).2 =
          ((M.uxListRemove t).1.items (.ready (M.k.task t).uxPriority)).length := by
        simp only [uxListRemove, hcontainer]
      refine if_congr (and_iff_left_of_imp fun hzero => ?_) rfl rfl
      exact List.length_eq_zero_iff.mp (hempty.symm.trans hzero)
    dsimp only
    rw [hremoveReady]
    have hremoved := h.removeReady hready rfl
    have hput := hremoved.putEnd .waitingTermination (t := t) (by simp [Slot.setState])
      (s := (M.k.slot t).setState .waitingTermination) rfl (by simp) (by simp)
    rw [Function.update_idem, ← hslot] at hput
    exact ⟨hput.of_lists rfl rfl rfl rfl, rfl, M.aside_removeReady t⟩
  next hne =>
    refine (Follows.refl h).onKernel ?_
    rw [State.vTaskDelete, if_neg hne]
    rfl

theorem Listed.follows_prvCheckTasksWaitingTermination (h : M.Listed)
    (hdead : ∀ t ∈ M.k.xTasksWaitingTermination, (M.k.slot t).state = .waitingTermination) :
    Follows M M.prvCheckTasksWaitingTermination M.k.prvCheckTasksWaitingTermination := by
  unfold Machine.prvCheckTasksWaitingTermination
  split
  next hnil =>
    rw [State.prvCheckTasksWaitingTermination, hnil]
    exact .refl h
  next t rest hlist =>
    have hstate := hdead t (by simp [hlist])
    have hslot : M.k.prvCheckTasksWaitingTermination.slot =
        Function.update M.k.slot t ((M.k.slot t).setState .absent) := by
      rw [State.prvCheckTasksWaitingTermination, hlist]
      exact M.k.slot_modTask t fun T => { T with xStateList := .absent }
    have hremoved := h.removeStateItem (t := t) (by simp [hstate])
    rw [← hslot] at hremoved
    exact ⟨hremoved.of_lists rfl rfl rfl rfl, rfl, rfl⟩

end Machine

end SimulatedLinux.Kernel
