import SimulatedLinux.Kernel.Loop

/-! # The critical section keeps the invariant

A completed operation moves one item or one slot, and pays for it by waking one
waiter on the other side; a task that finds nothing owes nothing.
-/

namespace SimulatedLinux.Kernel

variable {α : Type}

namespace Balanced

variable {queue D : QueueId → Contents α} {S : Sched} {q : QueueId} {t : TaskId}

theorem length_erase_le (tasks : List TaskId) (t : TaskId) :
    tasks.length ≤ (tasks.erase t).length + 1 := by
  rw [List.length_erase]
  split <;> omega

theorem wakeFirst_nil (S : Sched) (list l : EventList) (hnil : S.eventList l = []) :
    (S.wakeFirst list).eventList l = [] := by
  unfold Sched.wakeFirst
  split
  · exact hnil
  · simp [Sched.setWoken, Sched.unlist, hnil]

theorem wakeFirst_woken_ne (S : Sched) {list l : EventList} (hne : l ≠ list) :
    (S.wakeFirst list).woken l = S.woken l := by
  unfold Sched.wakeFirst
  split
  · rfl
  · simp [Sched.setWoken, Sched.unlist, hne]

/-- Waking pays for one item, unless nobody waits any more. -/
theorem wakeFirst_woken (S : Sched) {list : EventList}
    (hne : (S.wakeFirst list).eventList list ≠ []) :
    ((S.wakeFirst list).woken list).length = (S.woken list).length + 1 := by
  unfold Sched.wakeFirst at hne ⊢
  split at hne
  next hnil => exact absurd hnil hne
  next => simp [Sched.setWoken]

/-- The task that retries may find nothing: then nobody is owed anything on its side. -/
theorem retried_blocked (hbal : Balanced queue S) {op : Op α} (hblock : ¬ op.ready (queue q)) :
    Balanced queue (S.setWoken (op.waitList q) ((S.woken (op.waitList q)).erase t)) := by
  refine ⟨hbal.count_le, ?_, ?_⟩
  · intro p hne
    by_cases hlist : EventList.toReceive p = op.waitList q
    · have hzero : (queue p).uxMessagesWaiting = 0 := by
        cases op <;> simp only [Op.waitList, reduceCtorEq, EventList.toReceive.injEq] at hlist <;>
          simp only [Op.ready, ← hlist, Nat.pos_iff_ne_zero, ne_eq, not_not] at hblock <;>
          exact hblock
      omega
    · simpa [Sched.setWoken, hlist] using hbal.receive p hne
  · intro p hne
    by_cases hlist : EventList.toSend p = op.waitList q
    · have hfull : (queue p).uxLength ≤ (queue p).uxMessagesWaiting := by
        cases op <;> simp only [Op.waitList, reduceCtorEq, EventList.toSend.injEq] at hlist
        simpa only [Op.ready, ← hlist, Nat.not_lt] using hblock
      omega
    · simpa [Sched.setWoken, hlist] using hbal.send p hne

/-- A receive or a take uses one item up, and frees one slot. -/
theorem taken (hbal : Balanced queue S) (hother : ∀ p, p ≠ q → D p = queue p)
    (hlength : (D q).uxLength = (queue q).uxLength)
    (hcount : (D q).uxMessagesWaiting + 1 = (queue q).uxMessagesWaiting) :
    Balanced D ((S.setWoken (.toReceive q) ((S.woken (.toReceive q)).erase t)).wakeFirst
      (.toSend q)) := by
  have hle := hbal.count_le q
  refine ⟨?_, ?_, ?_⟩
  · intro p
    by_cases hp : p = q
    · subst hp
      omega
    · simpa [hother p hp] using hbal.count_le p
  · intro p hne
    have hbefore := hbal.receive p fun hnil => hne (wakeFirst_nil _ _ _ hnil)
    rw [wakeFirst_woken_ne _ (by simp)]
    by_cases hp : p = q
    · subst hp
      have herase := length_erase_le (S.woken (.toReceive p)) t
      simp only [Sched.setWoken, Function.update_self]
      omega
    · simpa [Sched.setWoken, hp, hother p hp] using hbefore
  · intro p hne
    have hbefore := hbal.send p fun hnil => hne (wakeFirst_nil _ _ _ hnil)
    by_cases hp : p = q
    · subst hp
      rw [wakeFirst_woken _ hne]
      simp only [Sched.setWoken, ne_eq, reduceCtorEq, not_false_eq_true, Function.update_of_ne]
      omega
    · rw [wakeFirst_woken_ne _ (by simpa using hp), hother p hp]
      simpa [Sched.setWoken] using hbefore

/-- A send uses one slot up, and adds one item. -/
theorem sent (hbal : Balanced queue S) (hother : ∀ p, p ≠ q → D p = queue p)
    (hlength : (D q).uxLength = (queue q).uxLength)
    (hcount : (D q).uxMessagesWaiting = (queue q).uxMessagesWaiting + 1)
    (hspace : (queue q).uxMessagesWaiting < (queue q).uxLength) :
    Balanced D ((S.setWoken (.toSend q) ((S.woken (.toSend q)).erase t)).wakeFirst
      (.toReceive q)) := by
  refine ⟨?_, ?_, ?_⟩
  · intro p
    by_cases hp : p = q
    · subst hp
      omega
    · simpa [hother p hp] using hbal.count_le p
  · intro p hne
    have hbefore := hbal.receive p fun hnil => hne (wakeFirst_nil _ _ _ hnil)
    by_cases hp : p = q
    · subst hp
      rw [wakeFirst_woken _ hne]
      simp only [Sched.setWoken, ne_eq, reduceCtorEq, not_false_eq_true, Function.update_of_ne]
      omega
    · rw [wakeFirst_woken_ne _ (by simpa using hp), hother p hp]
      simpa [Sched.setWoken] using hbefore
  · intro p hne
    have hbefore := hbal.send p fun hnil => hne (wakeFirst_nil _ _ _ hnil)
    rw [wakeFirst_woken_ne _ (by simp)]
    by_cases hp : p = q
    · subst hp
      have herase := length_erase_le (S.woken (.toSend p)) t
      simp only [Sched.setWoken, Function.update_self]
      omega
    · simpa [Sched.setWoken, hp, hother p hp] using hbefore

end Balanced

namespace Contents

variable (C : Contents α) (item : Option α) (t : TaskId)

@[simp] theorem sent_live : (C.sent item).live = C.live := by
  unfold sent
  split <;> rfl

@[simp] theorem sent_length : (C.sent item).uxLength = C.uxLength := by
  unfold sent
  split <;> rfl

@[simp] theorem sent_count : (C.sent item).uxMessagesWaiting = C.uxMessagesWaiting + 1 := by
  unfold sent
  split <;> rfl

end Contents

theorem View.released_moved (v : View α) (t : TaskId) (q : QueueId) :
    v.Moved (v.released t q) t (v.frame t) := by
  unfold View.released
  split <;> exact ⟨by simp [View.setHeld], rfl, rfl, rfl⟩

theorem View.acquired_moved (v : View α) (t : TaskId) (q : QueueId) :
    v.Moved (v.acquired t q) t (v.frame t) := by
  unfold View.acquired
  split <;> exact ⟨by simp [View.setHeld], rfl, rfl, rfl⟩

theorem State.cpu_takeCount (k : State α) (q : QueueId) : (k.takeCount q).cpu = k.cpu := by
  unfold takeCount
  dsimp only
  split <;> rfl

theorem State.sched_takeCount (k : State α) (q : QueueId) : (k.takeCount q).sched = k.sched := by
  unfold takeCount
  dsimp only
  split
  · rw [sched_modQueue _ _ rfl rfl rfl rfl, pvTaskIncrementMutexHeldCount,
      sched_modTask _ _ rfl rfl, sched_modQueue _ _ rfl rfl rfl rfl]
  · rw [sched_modQueue _ _ rfl rfl rfl rfl]

theorem State.sched_prvCopyDataToQueue {k k' : State α} {q : QueueId} {item : Option α}
    (hcopy : k.prvCopyDataToQueue q item = some k') : k'.sched = k.sched := by
  have hdisinherit {k k' : State α} {holder : Option TaskId}
      (hdone : k.xTaskPriorityDisinherit holder = some k') : k'.sched = k.sched := by
    unfold xTaskPriorityDisinherit at hdone
    split at hdone
    · cases hdone
      rfl
    · split at hdone
      · dsimp only at hdone
        split at hdone <;> cases hdone
        · rw [sched_modTask _ _ rfl rfl, sched_modTask _ _ rfl rfl]
        · rw [sched_modTask _ _ rfl rfl]
      · simp at hdone
  unfold prvCopyDataToQueue at hcopy
  split at hcopy
  · split at hcopy
    · obtain ⟨k₁, hdone, rfl⟩ := Option.map_eq_some_iff.mp hcopy
      rw [sched_modQueue _ _ rfl rfl rfl rfl, hdisinherit hdone]
    · cases hcopy
      rw [sched_modQueue _ _ rfl rfl rfl rfl]
  · cases hcopy
    rw [sched_modQueue _ _ rfl rfl rfl rfl]

/-- Copying an item out changes nothing but the read position. -/
theorem prvCopyDataFromQueue_kept (Q : Queue α) :
    (prvCopyDataFromQueue Q).1.live = Q.live ∧ (prvCopyDataFromQueue Q).1.uxLength = Q.uxLength ∧
      (prvCopyDataFromQueue Q).1.uxMessagesWaiting = Q.uxMessagesWaiting ∧
      (prvCopyDataFromQueue Q).1.xTasksWaitingToSend = Q.xTasksWaitingToSend ∧
      (prvCopyDataFromQueue Q).1.xTasksWaitingToReceive = Q.xTasksWaitingToReceive ∧
      (prvCopyDataFromQueue Q).1.cRxLock = Q.cRxLock ∧
      (prvCopyDataFromQueue Q).1.cTxLock = Q.cTxLock := by
  unfold prvCopyDataFromQueue
  split <;> exact ⟨rfl, rfl, rfl, rfl, rfl, rfl, rfl⟩

theorem live_of_update {queue queue' : QueueId → Contents α} {q : QueueId} {C : Contents α}
    (hqueue : queue' = Function.update queue q C) (hlive : C.live = (queue q).live) (p : QueueId) :
    (queue' p).live → (queue p).live := by
  rw [hqueue]
  by_cases hp : p = q
  · subst hp
    simp [hlive]
  · simp [hp]

namespace Running

variable {k : State α} {t : TaskId} {frame : Frame α}

/-- What is left of the invariant once the critical section has changed the queue. -/
theorem finish (hrun : Running k t frame) (hpc : frame.pc = .attempt) {k' : State α} {f : Frame α}
    (hframe : k'.view.frame = Function.update k.view.frame t (some f))
    (hqueue : k'.view.nextQueue = k.view.nextQueue) (htask : k'.view.nextTask = k.view.nextTask)
    (hlive : ∀ q, (k'.view.queue q).live → (k.view.queue q).live)
    (hf : f.xQueue = frame.xQueue) (hin : ¬ f.pc.inWindow)
    (hlists : Lists k'.sched k.view.frame k.view.nextTask)
    (hlisted : k'.sched.xEventList t = none) (hwoken : ∀ list, t ∉ k'.sched.woken list)
    (hbal : Balanced k'.view.queue k'.sched) (hcpu : k'.cpu = k.cpu) : WaitInv k' where
  lists := by
    rw [hframe, htask]
    exact hlists.setFrame (some f) (by simp [hlisted]) hwoken
  window := by
    have hwindow : Window k.view k.cpu.1 t := hrun.current ▸ hrun.inv.window
    have hmust : ¬ f.pc.mustWait := by
      intro h
      cases hfpc : f.pc <;> simp_all [Pc.mustWait, Pc.inWindow]
    rw [hcpu, hrun.cpu_eq]
    refine hwindow.step (some f) hframe hqueue htask hlive ?_ ?_ ?_
    · rintro f' ⟨⟩
      rw [if_neg hin]
      simp [hpc, Pc.inWindow]
    · rintro f' ⟨⟩ h
      exact absurd h hmust
    · rintro f' ⟨⟩ -
      rw [hf]
      exact hrun.inv.window.born t frame hrun.frame (by simp [hpc])
  balanced := hbal

theorem wakeFirst_not_listed {S : Sched} {list : EventList} (hnone : S.xEventList t = none) :
    (S.wakeFirst list).xEventList t = none := by
  unfold Sched.wakeFirst
  split
  · exact hnone
  next u _ _ =>
    by_cases htu : t = u
    · simp [Sched.setWoken, Sched.unlist, htu]
    · simpa [Sched.setWoken, Sched.unlist, htu] using hnone

theorem wakeFirst_not_woken {S : Sched} {frame : TaskId → Option (Frame α)} {n : Nat}
    (hlists : Lists S frame n) {list : EventList} (hnone : S.xEventList t = none)
    (hwoken : ∀ l, t ∉ S.woken l) (l : EventList) : t ∉ (S.wakeFirst list).woken l := by
  unfold Sched.wakeFirst
  split
  · exact hwoken l
  next u rest hlist =>
    have htu : t ≠ u := by
      rintro rfl
      simp [(hlists.listed t list).mp (by simp [hlist])] at hnone
    by_cases hl : l = list
    · subst hl
      simp [Sched.setWoken, hwoken l, htu]
    · simpa [Sched.setWoken, Sched.unlist, hl] using hwoken l

theorem suspended_zero (hrun : Running k t frame) (hpc : frame.pc = .attempt) :
    k.uxSchedulerSuspended = 0 := by
  simpa [hpc, Pc.inWindow] using hrun.suspended_eq

theorem retried_lists (hrun : Running k t frame) :
    Lists (k.retried t frame.waitList).sched k.view.frame k.view.nextTask :=
  hrun.inv.lists.retried t frame.waitList

theorem retried_not_woken (hrun : Running k t frame) (list : EventList) :
    t ∉ (k.retried t frame.waitList).sched.woken list := by
  intro hmem
  by_cases hlist : list = frame.waitList
  · subst hlist
    simp only [State.sched, State.retried, Function.update_self] at hmem
    exact (hrun.inv.lists.nodupWoken frame.waitList).not_mem_erase hmem
  · simp only [State.sched, State.retried, ne_eq, hlist, not_false_eq_true,
      Function.update_of_ne] at hmem
    obtain ⟨-, f, hf, hwait, -⟩ := hrun.inv.lists.awoken t list hmem
    obtain rfl : f = frame := Option.some.inj (hf.symm.trans hrun.frame)
    exact hlist hwait.symm

/-- The critical section found nothing to do: the call gives up or goes on to block. -/
theorem failOrWait (hrun : Running k t frame) (hpc : frame.pc = .attempt)
    (hready : ¬ frame.op.ready (k.view.queue frame.xQueue)) :
    WaitInv (k.failOrWait t frame) := by
  have hbal := hrun.inv.balanced.retried_blocked (t := t) hready
  have hlisted := hrun.not_listed (.inl (by simp [hpc, Pc.inWindow]))
  have hdone {k' : State α} {f : Frame α} (hview : k.view.Moved k'.view t (some f))
      (hsched : k'.sched = (k.retried t frame.waitList).sched) (hf : f.xQueue = frame.xQueue)
      (hin : ¬ f.pc.inWindow) (hcpu : k'.cpu = k.cpu) : WaitInv k' := by
    refine hrun.finish hpc hview.frame hview.nextQueue hview.nextTask ?_ hf hin ?_ ?_ ?_ ?_ hcpu
    · rw [hview.queue]
      exact fun _ => id
    · rw [hsched]
      exact hrun.retried_lists
    · rw [hsched]
      exact hlisted
    · rw [hsched]
      exact hrun.retried_not_woken
    · rw [hsched, hview.queue]
      exact hbal
  unfold State.failOrWait
  dsimp only
  split
  · have hview := View.Moved.complete k.view t frame .fail
    rw [← State.view_retried k t frame.waitList, ← State.view_complete] at hview
    exact hdone hview (State.sched_complete ..) rfl (by simp [Pc.inWindow]) rfl
  · have hview := View.Moved.setFrame k.view t (some
      { frame with
        xTimeOut := some (frame.xTimeOut.getD k.vTaskInternalSetTimeOutState)
        pc := .suspendAll })
    rw [← State.view_retried k t frame.waitList, ← State.view_setFrame] at hview
    exact hdone hview (State.sched_setFrame ..) rfl (by simp [Pc.inWindow]) rfl

/-- The critical section changed the queue and wakes a waiter on its other side. -/
theorem passed (hrun : Running k t frame) (hpc : frame.pc = .attempt) {k' : State α} {v : View α}
    {C : Contents α} (hmoved : k.view.Moved v t (k.view.frame t))
    (hview : k'.view = v.setQueue frame.xQueue C)
    (hlive : C.live = (k.view.queue frame.xQueue).live) (hsched : k'.sched = k.sched)
    (hcpu : k'.cpu = k.cpu) (list : EventList) (res : QueueResult α)
    (hbal : Balanced (Function.update k.view.queue frame.xQueue C)
      ((k.retried t frame.waitList).sched.wakeFirst list)) :
    WaitInv (((k'.retried t frame.waitList).wakeFirst list).complete t frame res) := by
  have hframe : k'.view.frame = k.view.frame := by
    rw [hview]
    exact hmoved.frame.trans (Function.update_eq_self t _)
  have hqueue : k'.view.queue = Function.update k.view.queue frame.xQueue C := by
    rw [hview, View.setQueue, hmoved.queue]
  have hsched' : (k'.retried t frame.waitList).sched = (k.retried t frame.waitList).sched := by
    have hretry (k : State α) : (k.retried t frame.waitList).sched =
      k.sched.setWoken frame.waitList ((k.sched.woken frame.waitList).erase t) := rfl
    rw [hretry, hretry, hsched]
  have hzero : (k'.retried t frame.waitList).uxSchedulerSuspended = 0 :=
    (congrArg Prod.fst hcpu).trans (hrun.suspended_zero hpc)
  have hlists : Lists (k'.retried t frame.waitList).sched k.view.frame k.view.nextTask :=
    hsched' ▸ hrun.retried_lists
  have hwake := State.sched_wakeFirst hlists hzero list
  rw [hsched'] at hwake
  have hattempt : ∀ u f, k.view.frame u = some f → f.pc.placed → f.pc = .attempt := by
    intro u f hf hplaced
    have hnot : ¬ f.pc.inWindow := by
      intro hin
      have hone := (hrun.inv.window.window u f hf hin).1
      have hs : k.cpu.1 = 0 := hrun.suspended_zero hpc
      omega
    cases hfpc : f.pc <;> simp_all [Pc.placed, Pc.inWindow]
  have hlisted := hrun.not_listed (.inl (by simp [hpc, Pc.inWindow]))
  have hcpu' : (((k'.retried t frame.waitList).wakeFirst list).complete t frame res).cpu = k.cpu :=
    (State.cpu_wakeFirst (k'.retried t frame.waitList) list).trans hcpu
  refine hrun.finish hpc (f := { frame with pc := .leave res }) ?_ ?_ ?_ ?_ rfl
    (by simp [Pc.inWindow]) ?_ ?_ ?_ ?_ hcpu' <;>
    simp only [State.view_complete, State.sched_complete, State.view_wakeFirst,
      State.view_retried, hwake]
  · exact congrArg (Function.update · t _) hframe
  · rw [hview]
    exact hmoved.nextQueue
  · rw [hview]
    exact hmoved.nextTask
  · exact live_of_update hqueue hlive
  · exact hrun.retried_lists.wakeFirst hattempt
  · exact wakeFirst_not_listed hlisted
  · exact wakeFirst_not_woken hrun.retried_lists hlisted hrun.retried_not_woken
  · exact (congrArg (Balanced · _) hqueue).mpr hbal

theorem genericSend (hrun : Running k t frame) (hpc : frame.pc = .attempt) {item : Option α}
    (hop : frame.op = .genericSend item) : WaitInv (k.xQueueGenericSend t frame item) := by
  have hlist : frame.waitList = .toSend frame.xQueue := by simp [Frame.waitList, hop, Op.waitList]
  unfold State.xQueueGenericSend
  dsimp only
  split
  next hspace =>
    split
    next => exact hrun.inv.halt _
    next k' hcopy =>
      obtain ⟨hview, -⟩ := State.view_prvCopyDataToQueue hrun.current hcopy
      refine hrun.passed hpc (View.released_moved k.view t frame.xQueue) hview
        (Contents.sent_live _ _) (State.sched_prvCopyDataToQueue hcopy)
        (State.cpu_prvCopyDataToQueue k hcopy) _ _ ?_
      have hbal := hrun.inv.balanced.sent (t := t) (q := frame.xQueue)
        (D := Function.update k.view.queue frame.xQueue
          ((k.view.queue frame.xQueue).sent item))
        (fun p hp => by simp [hp]) (by simp) (by simp) hspace
      rw [← hlist] at hbal
      exact hbal
  next hspace => exact hrun.failOrWait hpc (by rw [hop]; exact hspace)

/-- A receive and a take both use one item up. -/
theorem consumed (hrun : Running k t frame) (hpc : frame.pc = .attempt)
    (hlist : frame.waitList = .toReceive frame.xQueue) {k' : State α} {v : View α} {C : Contents α}
    (hmoved : k.view.Moved v t (k.view.frame t)) (hview : k'.view = v.setQueue frame.xQueue C)
    (hlive : C.live = (k.view.queue frame.xQueue).live)
    (hlength : C.uxLength = (k.view.queue frame.xQueue).uxLength)
    (hcount : C.uxMessagesWaiting + 1 = (k.view.queue frame.xQueue).uxMessagesWaiting)
    (hsched : k'.sched = k.sched) (hcpu : k'.cpu = k.cpu) (res : QueueResult α) :
    WaitInv (((k'.retried t frame.waitList).wakeFirst (.toSend frame.xQueue)).complete t frame
      res) := by
  refine hrun.passed hpc hmoved hview hlive hsched hcpu _ _ ?_
  have hbal := hrun.inv.balanced.taken (t := t) (q := frame.xQueue)
    (D := Function.update k.view.queue frame.xQueue C) (fun p hp => by simp [hp])
    (by simpa using hlength) (by simpa using hcount)
  rw [← hlist] at hbal
  exact hbal

theorem receive (hrun : Running k t frame) (hpc : frame.pc = .attempt)
    (hop : frame.op = .receive) : WaitInv (k.xQueueReceive t frame) := by
  have hlist : frame.waitList = .toReceive frame.xQueue := by
    simp [Frame.waitList, hop, Op.waitList]
  unfold State.xQueueReceive
  dsimp only
  split
  next hcount =>
    obtain ⟨hlive, hlength, hkept, hsend, hreceive, hrx, htx⟩ :=
      prvCopyDataFromQueue_kept (k.queue frame.xQueue)
    have hview := State.view_modQueue k frame.xQueue fun _ =>
      { (prvCopyDataFromQueue (k.queue frame.xQueue)).1 with
        uxMessagesWaiting :=
          (prvCopyDataFromQueue (k.queue frame.xQueue)).1.uxMessagesWaiting - 1 }
    refine hrun.consumed hpc hlist (.refl k.view t) hview hlive hlength ?_
      (State.sched_modQueue k _ hsend hreceive hrx htx) rfl _
    have hpos : 0 < (k.view.queue frame.xQueue).uxMessagesWaiting := hcount
    have hcopy : (prvCopyDataFromQueue (k.queue frame.xQueue)).1.uxMessagesWaiting =
        (k.view.queue frame.xQueue).uxMessagesWaiting := hkept
    simp only [Queue.contents, hcopy]
    omega
  next hcount => exact hrun.failOrWait hpc (by rw [hop]; exact hcount)

theorem semaphoreTake (hrun : Running k t frame) (hpc : frame.pc = .attempt)
    (hop : frame.op = .semaphoreTake) : WaitInv (k.xQueueSemaphoreTake t frame) := by
  have hlist : frame.waitList = .toReceive frame.xQueue := by
    simp [Frame.waitList, hop, Op.waitList]
  unfold State.xQueueSemaphoreTake
  dsimp only
  split
  next hcount =>
    exact hrun.consumed hpc hlist (View.acquired_moved k.view t frame.xQueue)
      (State.view_takeCount hrun.current frame.xQueue) rfl rfl (Nat.sub_add_cancel hcount)
      (State.sched_takeCount k _) (State.cpu_takeCount k _) _
  next hcount => exact hrun.failOrWait hpc (by rw [hop]; exact hcount)

theorem attempt (hrun : Running k t frame) (hpc : frame.pc = .attempt) :
    WaitInv (k.attempt t frame) := by
  unfold State.attempt
  split
  next item hop => exact hrun.genericSend hpc hop
  next hop => exact hrun.receive hpc hop
  next hop => exact hrun.semaphoreTake hpc hop

end Running

end SimulatedLinux.Kernel
