import SimulatedLinux.Kernel.Wait

/-! # The loop of a blocking function keeps the invariant

One lemma for each program point of the loop outside of its critical section.
-/

namespace SimulatedLinux.Kernel

variable {α : Type}

namespace Running

variable {k : State α} {t : TaskId} {frame : Frame α}

theorem born (hrun : Running k t frame) (hlive : (k.queue frame.xQueue).live) :
    frame.xQueue < k.nextQueue := by
  by_contra hge
  have hdead := hrun.inv.window.unborn frame.xQueue (Nat.le_of_not_lt hge)
  exact Bool.false_ne_true (hdead.symm.trans hlive)

theorem cpu_eq (hrun : Running k t frame) :
    k.cpu = (if frame.pc.inWindow then 1 else 0, t) := by
  rw [← hrun.suspended_eq, ← hrun.current]
  rfl

/-- Locking and unlocking moves no task: the lock counters never pass zero. -/
theorem relock (hrun : Running k t frame) {f : Queue α → Queue α}
    (hcontents : ∀ Q, (f Q).contents = Q.contents)
    (hsend : ∀ Q, (f Q).xTasksWaitingToSend = Q.xTasksWaitingToSend)
    (hreceive : ∀ Q, (f Q).xTasksWaitingToReceive = Q.xTasksWaitingToReceive)
    (hlocks : ∀ Q, Q.cRxLock ≤ 0 ∧ Q.cTxLock ≤ 0 → (f Q).cRxLock ≤ 0 ∧ (f Q).cTxLock ≤ 0) :
    Running (k.modQueue frame.xQueue f) t frame := by
  have hview := State.view_modQueue_wait k frame.xQueue (hcontents _)
  have hsched := State.sched_modQueue_locks k frame.xQueue (hsend _) (hreceive _)
  refine ⟨⟨?_, ?_, ?_⟩, hrun.current, ?_, ?_⟩
  · rw [hview, hsched]
    refine { hrun.inv.lists with unlocked := ?_ }
    intro q
    by_cases hq : q = frame.xQueue
    · subst hq
      simpa using hlocks _ (hrun.inv.lists.unlocked frame.xQueue)
    · simpa [hq] using hrun.inv.lists.unlocked q
  · rw [hview]
    exact hrun.inv.window
  · rw [hview, hsched]
    exact ⟨hrun.inv.balanced.count_le, hrun.inv.balanced.receive, hrun.inv.balanced.send⟩
  · rw [hview]
    exact hrun.frame
  · rw [hsched]
    exact hrun.ready

theorem wakeLocked_eq (k : State α) (list : EventList) {lock : Int} (hlock : lock ≤ 0) :
    k.wakeLocked list lock.toNat = k := by
  rw [Int.toNat_of_nonpos hlock]
  rfl

theorem lockQueue (hrun : Running k t frame) (hpc : frame.pc = .lockQueue) :
    WaitInv ((k.prvLockQueue frame.xQueue).setPc t frame .checkTimeOut) := by
  have hlocked : Running (k.prvLockQueue frame.xQueue) t frame := by
    refine hrun.relock (fun _ => rfl) (fun _ => rfl) (fun _ => rfl) ?_
    intro Q hQ
    constructor <;> dsimp only <;> split <;> simp [queueLockedUnmodified, hQ]
  refine hlocked.setPc (by simp [hpc]) (State.view_setPc ..) (State.sched_setPc ..) ?_ rfl rfl
    (.inr (by simp [hpc, Pc.placed])) (by simp [Pc.mustWait]) (by simp [hpc])
  exact hlocked.cpu_eq.trans (by simp [hpc, Pc.inWindow])

theorem unlockTx (hrun : Running k t frame) {after : AfterUnlock}
    (hpc : frame.pc = .unlockTx after) :
    WaitInv ((k.prvUnlockQueueTx frame.xQueue).setPc t frame (.unlockRx after)) := by
  have hunlocked : Running (k.prvUnlockQueueTx frame.xQueue) t frame := by
    have hlock : (k.queue frame.xQueue).cTxLock ≤ 0 := (hrun.inv.lists.unlocked _).2
    rw [State.prvUnlockQueueTx, wakeLocked_eq _ _ hlock]
    exact hrun.relock (fun _ => rfl) (fun _ => rfl) (fun _ => rfl)
      fun Q hQ => ⟨hQ.1, by simp [queueUnlocked]⟩
  refine hunlocked.setPc (by simp [hpc]) (State.view_setPc ..) (State.sched_setPc ..) ?_ rfl rfl
    (by cases after <;> simp [hpc, Pc.placed]) (by simp [Pc.mustWait]) (by simp [hpc])
  exact hunlocked.cpu_eq.trans (by simp [hpc, Pc.inWindow])

theorem unlockRx (hrun : Running k t frame) {after : AfterUnlock}
    (hpc : frame.pc = .unlockRx after) :
    WaitInv ((k.prvUnlockQueueRx frame.xQueue).setPc t frame (.resumeAll after)) := by
  have hunlocked : Running (k.prvUnlockQueueRx frame.xQueue) t frame := by
    have hlock : (k.queue frame.xQueue).cRxLock ≤ 0 := (hrun.inv.lists.unlocked _).1
    rw [State.prvUnlockQueueRx, wakeLocked_eq _ _ hlock]
    exact hrun.relock (fun _ => rfl) (fun _ => rfl) (fun _ => rfl)
      fun Q hQ => ⟨by simp [queueUnlocked], hQ.2⟩
  refine hunlocked.setPc (by simp [hpc]) (State.view_setPc ..) (State.sched_setPc ..) ?_ rfl rfl
    (by cases after <;> simp [hpc, Pc.placed]) (by simp [Pc.mustWait]) (by simp [hpc])
  exact hunlocked.cpu_eq.trans (by simp [hpc, Pc.inWindow])

theorem checkBlock (hrun : Running k t frame) (hpc : frame.pc = .checkBlock) {pc : Pc α}
    (hmust : pc.mustWait → frame.op.mustBlock (k.queue frame.xQueue)) (hin : pc.inWindow) :
    WaitInv (k.setPc t frame pc) := by
  refine hrun.setPc (by simp [hpc]) (State.view_setPc ..) (State.sched_setPc ..) ?_ rfl rfl
    (.inr (by simp [hpc, Pc.placed])) (fun h => Op.blocked_of_mustBlock (hmust h)) (by simp [hpc])
  rw [if_pos hin]
  exact hrun.cpu_eq.trans (by simp [hpc, Pc.inWindow])

theorem inherit (hrun : Running k t frame) (hpc : frame.pc = .inherit) (holder : Option TaskId) :
    WaitInv ((k.xTaskPriorityInherit holder).setPc t frame .place) := by
  refine hrun.setPc (f := { frame with pc := .place }) (by simp [hpc]) (by simp) (by simp)
    ?_ rfl rfl (.inr (by simp [hpc, Pc.placed]))
    (fun _ => hrun.inv.window.blocks t frame hrun.frame (by simp [hpc, Pc.mustWait]))
    (by simp [hpc])
  have hcpu := hrun.cpu_eq
  rw [← State.cpu_xTaskPriorityInherit k holder] at hcpu
  exact hcpu.trans (by simp [hpc, Pc.inWindow])

theorem entry (hrun : Running k t frame) (hpc : frame.pc = .entry)
    (hlive : (k.queue frame.xQueue).live) : WaitInv (k.setPc t frame .attempt) := by
  refine hrun.setPc (by simp [hpc]) (State.view_setPc ..) (State.sched_setPc ..) ?_ rfl rfl
    (.inl rfl) (by simp [Pc.mustWait]) (fun _ => hrun.born hlive)
  exact hrun.cpu_eq.trans (by simp [hpc, Pc.inWindow])

theorem suspendAll (hrun : Running k t frame) (hpc : frame.pc = .suspendAll) :
    WaitInv (k.vTaskSuspendAll.setPc t frame .lockQueue) := by
  refine hrun.setPc (by simp [hpc]) (State.view_setPc ..) (State.sched_setPc ..) ?_ rfl rfl
    (.inr (by simp [hpc, Pc.placed])) (by simp [Pc.mustWait]) (by simp [hpc])
  have hcpu := hrun.cpu_eq
  simp only [hpc, Pc.inWindow, State.cpu, Prod.mk.injEq] at hcpu
  simp [State.cpu, State.vTaskSuspendAll, State.setPc, State.setFrame, State.modTask, hcpu,
    Pc.inWindow]

theorem checkTimeOut (hrun : Running k t frame) (hpc : frame.pc = .checkTimeOut) {f : Frame α}
    (hop : f.op = frame.op) (hqueue : f.xQueue = frame.xQueue)
    (hf : f.pc = .unlockTx .timedOut ∨ f.pc = .checkBlock) : WaitInv (k.setFrame t f) := by
  have hin : f.pc.inWindow ∧ ¬ f.pc.mustWait := by
    rcases hf with hf | hf <;> simp [hf, Pc.inWindow, Pc.mustWait]
  refine hrun.setPc (by simp [hpc]) (State.view_setFrame ..) (State.sched_setFrame ..) ?_ hop hqueue
    (.inr (by simp [hpc, Pc.placed])) (fun h => absurd h hin.2) (by simp [hpc])
  rw [if_pos hin.1]
  exact hrun.cpu_eq.trans (by simp [hpc, Pc.inWindow])

theorem complete (hrun : Running k t frame) (hpc : frame.pc = .recheck) (res : QueueResult α) :
    WaitInv (k.complete t frame res) := by
  have hview := View.Moved.complete k.view t frame res
  rw [← State.view_complete] at hview
  refine hrun.goto (by simp [hpc]) hview
    (State.sched_complete k t frame res ▸ hrun.inv.lists)
    (State.sched_complete k t frame res ▸ .refl _) (.inr (by simp [hpc, Pc.placed]))
    (n := 0) ?_ ?_ ?_ ?_
  · exact hrun.cpu_eq.trans (by simp [hpc, Pc.inWindow])
  · rintro f' ⟨⟩
    rfl
  · rintro f' ⟨⟩ hmust
    simp [Pc.mustWait] at hmust
  · rintro f' ⟨⟩ -
    exact hrun.inv.window.born t frame hrun.frame (by simp [hpc])

theorem recheck (hrun : Running k t frame) (hpc : frame.pc = .recheck) :
    WaitInv (k.setPc t frame .attempt) := by
  refine hrun.setPc (by simp [hpc]) (State.view_setPc ..) (State.sched_setPc ..) ?_ rfl rfl
    (.inl rfl) (by simp [Pc.mustWait]) (by simp [hpc])
  exact hrun.cpu_eq.trans (by simp [hpc, Pc.inWindow])

theorem leave (hrun : Running k t frame) {res : QueueResult α} (hpc : frame.pc = .leave res) :
    WaitInv (k.leave t frame res) := by
  have hsched := State.sched_leave k t frame res
  have hcpu : (k.leave t frame res).cpu = k.cpu := by
    unfold State.leave
    cases frame.api.locks <;> cases res <;> rfl
  have hview : k.view.Moved (k.leave t frame res).view t none := by
    rw [State.view_leave]
    exact .leave ..
  exact hrun.goto (by simp [hpc]) hview (hsched ▸ hrun.inv.lists) (hsched ▸ .refl _)
    (.inr (by simp [hpc, Pc.placed])) (n := if frame.pc.inWindow then 1 else 0)
    (hcpu.trans hrun.cpu_eq) (by simp) (by simp) (by simp)

theorem place (hrun : Running k t frame) (hpc : frame.pc = .place) :
    WaitInv ((k.vTaskPlaceOnEventList frame.waitList frame.xTicksToWait).setPc t frame
      (.unlockTx .blocked)) := by
  obtain ⟨tasks, state, hperm, hblocked, hsched⟩ :=
    State.sched_vTaskPlaceOnEventList k frame.waitList frame.xTicksToWait
  rw [hrun.current] at hperm hsched
  have hblock := hrun.inv.window.blocks t frame hrun.frame (by simp [hpc, Pc.mustWait])
  have hwindow : Window k.view k.cpu.1 t := hrun.current ▸ hrun.inv.window
  have hbal := hrun.inv.balanced
  refine ⟨?_, ?_, ?_⟩
  · rw [State.sched_setPc, hsched, State.view_setPc, State.view_vTaskPlaceOnEventList]
    refine hrun.inv.lists.place (f := { frame with pc := .unlockTx .blocked }) hrun.spawned
      (hrun.not_listed (.inr (by simp [hpc, Pc.placed]))) ?_ hperm hblocked rfl rfl
      (hrun.not_woken (by simp [hpc]))
    unfold Frame.waitList
    cases frame.op <;> simp [Op.waitList]
  · have hcpu : ((k.vTaskPlaceOnEventList frame.waitList frame.xTicksToWait).setPc t frame
        (.unlockTx .blocked)).cpu = (1, t) :=
      (State.cpu_vTaskPlaceOnEventList k frame.waitList frame.xTicksToWait).trans
        (hrun.cpu_eq.trans (by simp [hpc, Pc.inWindow]))
    rw [hcpu, State.view_setPc, State.view_vTaskPlaceOnEventList]
    refine hwindow.step (some { frame with pc := .unlockTx .blocked }) rfl rfl rfl (fun _ => id)
      (by rintro f' ⟨⟩; rfl) ?_ ?_
    · rintro f' ⟨⟩ hmust
      simp [Pc.mustWait] at hmust
    · rintro f' ⟨⟩ -
      exact hrun.inv.window.born t frame hrun.frame (by simp [hpc])
  · rw [State.sched_setPc, hsched, State.view_setPc, State.view_vTaskPlaceOnEventList]
    refine ⟨hbal.count_le, ?_, ?_⟩
    · intro q hne
      by_cases hlist : EventList.toReceive q = frame.waitList
      · have hzero : (k.view.queue q).uxMessagesWaiting = 0 := by
          unfold Frame.waitList at hlist
          cases hop : frame.op <;> simp only [hop, Op.waitList, reduceCtorEq,
            EventList.toReceive.injEq] at hlist <;> simp only [hop, Op.blocked, ← hlist]
            at hblock <;>
            exact hblock
        exact Nat.le_trans (Nat.le_of_eq hzero) (Nat.zero_le _)
      · simp only [Sched.place, ne_eq, hlist, not_false_eq_true, Function.update_of_ne] at hne ⊢
        exact hbal.receive q hne
    · intro q hne
      by_cases hlist : EventList.toSend q = frame.waitList
      · have hfull : (k.view.queue q).uxMessagesWaiting = (k.view.queue q).uxLength := by
          unfold Frame.waitList at hlist
          cases hop : frame.op <;> simp only [hop, Op.waitList, reduceCtorEq,
            EventList.toSend.injEq] at hlist
          simp only [hop, Op.blocked, ← hlist] at hblock
          exact hblock
        exact Nat.sub_le_of_le_add (Nat.le_trans (Nat.le_of_eq hfull.symm) (Nat.le_add_left _ _))
      · simp only [Sched.place, ne_eq, hlist, not_false_eq_true, Function.update_of_ne] at hne ⊢
        exact hbal.send q hne

theorem resumeAll (hrun : Running k t frame) {after : AfterUnlock}
    (hpc : frame.pc = .resumeAll after) : WaitInv (k.xTaskResumeAll.afterResume t frame after) := by
  obtain ⟨hlists, hshrinks, hcpu⟩ := State.xTaskResumeAll_lists hrun.inv.lists
  have hview := State.view_xTaskResumeAll k
  have hcpu' : k.xTaskResumeAll.cpu = (0, t) := by
    have hs := hrun.suspended_eq
    simp only [hpc, Pc.inWindow, if_true] at hs
    rw [hcpu, hs, hrun.current]
  have hattempt : frame.pc ≠ .attempt := by simp [hpc]
  have hborn := hrun.inv.window.born t frame hrun.frame (by simp [hpc])
  have hgoto (pc : Pc α) (hin : pc.inWindow = false) (hplaced : pc.placed ∨ ¬ frame.pc.placed) :
      WaitInv (k.xTaskResumeAll.setPc t frame pc) := by
    have hmust : ¬ pc.mustWait := by
      cases pc <;> simp_all [Pc.mustWait, Pc.inWindow]
    refine hrun.goto hattempt (f := some { frame with pc := pc }) ?_
      (by rw [State.sched_setPc]; exact hlists) (by rw [State.sched_setPc]; exact hshrinks)
      (hplaced.imp_left fun h => ⟨_, rfl, rfl, h⟩) (n := 0) hcpu' ?_ ?_ ?_
    · rw [State.view_setPc, hview]
      exact .setFrame ..
    · rintro f' ⟨⟩
      simp [hin]
    · rintro f' ⟨⟩ h
      exact absurd h hmust
    · rintro f' ⟨⟩ -
      exact hborn
  have hcomplete (hplaced : ¬ frame.pc.placed) :
      WaitInv (k.xTaskResumeAll.complete t frame .fail) := by
    refine hrun.goto hattempt (f := some { frame with pc := .leave .fail }) ?_
      (by rw [State.sched_complete]; exact hlists) (by rw [State.sched_complete]; exact hshrinks)
      (.inr hplaced) (n := 0) hcpu' ?_ ?_ ?_
    · rw [State.view_complete, hview]
      exact .complete ..
    · rintro f' ⟨⟩
      rfl
    · rintro f' ⟨⟩ h
      simp [Pc.mustWait] at h
    · rintro f' ⟨⟩ -
      exact hborn
  unfold State.afterResume
  split
  · exact hcomplete (by simp [hpc, Pc.placed])
  · exact hgoto _ rfl (.inr (by simp [hpc, Pc.placed]))
  · exact hgoto _ rfl (.inl rfl)

end Running

end SimulatedLinux.Kernel
