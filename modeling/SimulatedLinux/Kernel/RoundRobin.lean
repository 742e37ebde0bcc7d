import Mathlib.Data.List.Chain
import SimulatedLinux.Kernel.Placement
import SimulatedLinux.Lib.Turns

/-! # Taking turns on the processor

`vTaskSwitchContext` walks around the ready list of the highest priority. Whatever else happens
between two context switches, two tasks that stay in the same ready list keep their order in it, so
they are chosen in turn.
-/

namespace SimulatedLinux.Kernel

variable {α : Type}

def ListName.IsReady : ListName → Prop
  | ready _ => True
  | _ => False

/-- State items of tasks of `W` are moved between lists, and those that come to a ready list go to
its end. -/
abbrev Machine.Edited (W : TaskId → Prop) (M M' : Machine α) : Prop :=
  Lib.Shelf.Edits W ListName.IsReady M.lists M'.lists

namespace Machine

variable {M M' : Machine α} {W : TaskId → Prop} {t : TaskId}

theorem lists_removeReady (M : Machine α) (t : TaskId) :
    (M.removeReady t).lists = M.lists.remove t := by
  unfold removeReady
  dsimp only
  split <;> rfl

/-- A task goes to the end of another list. -/
theorem Edited.move {n : ListName} (hlists : M'.lists = (M.lists.remove t).putEnd n t) (hW : W t) :
    M.Edited W M' := by
  rw [Edited, hlists]
  refine .trans (.take _ hW) (.putEnd n ?_)
  rw [Lib.Shelf.container_remove, Function.update_self]

/-! ## Time -/

/-- The tasks that a tick may wake. -/
def Asleep (M : Machine α) (W : TaskId → Prop) :
    Prop := ∀ second, ∀ t ∈ M.items (.delayedTask second), W t

/-- A change after which no further task sleeps. -/
structure Calm (W : TaskId → Prop) (M M' : Machine α) : Prop where
  edited : M.Edited W M'
  asleep : ∀ second, M'.items (.delayedTask second) ⊆ M.items (.delayedTask second)

theorem Calm.of_lists (hlists : M'.lists = M.lists) : Calm W M M' := by
  refine ⟨?_, fun second => ?_⟩
  · rw [Edited, hlists]
    exact .refl _
  · rw [items, items, hlists]
    exact List.Subset.refl _

theorem Calm.trans {M'' : Machine α} (h : Calm W M M') (h' : Calm W M' M'') : Calm W M M'' :=
  ⟨.trans h.edited h'.edited, fun second _ ht => h.asleep second (h'.asleep second ht)⟩

theorem Asleep.calm (h : M.Asleep W) (hcalm : Calm W M M') : M'.Asleep W :=
  fun second t ht => h second t (hcalm.asleep second ht)

theorem calm_makeReady {p : Nat} (hlists : M'.lists = (M.lists.remove t).putEnd (.ready p) t)
    (hW : W t) : Calm W M M' := by
  refine ⟨.move hlists hW, fun second u hu => ?_⟩
  rw [items, hlists, Lib.Shelf.putEnd, Lib.Shelf.items_put_ne (by simp)] at hu
  unfold Lib.Shelf.remove at hu
  split at hu
  · exact hu
  next name _ =>
    by_cases hname : ListName.delayedTask second = name
    · subst hname
      simp only [Function.update_self] at hu
      exact List.mem_of_mem_erase hu
    · simpa [items, hname] using hu

theorem calm_unblock (M : Machine α) (hW : W t) : Calm W M (M.unblock t) :=
  calm_makeReady (p := ((M.k.removeEventItem t).task t).uxPriority) rfl hW

theorem calm_unblockLoop (h : M.Asleep W) (count : Nat) : Calm W M (M.unblockLoop count) := by
  -- a task that is unblocked was in no ready list, so it comes to the end of one
  induction count generalizing M with
  | zero => exact .of_lists rfl
  | succ count ih =>
      unfold unblockLoop
      split
      · exact .of_lists rfl
      next t rest hitems =>
        split
        · exact .of_lists rfl
        · have hcalm :=
            M.calm_unblock
              (h _ t (by rw [delayedName] at hitems; rw [hitems]; exact List.mem_cons_self))
          exact hcalm.trans (ih (h.calm hcalm))

theorem calm_checkUnblockTime (h : M.Asleep W) : Calm W M M.checkUnblockTime := by
  unfold checkUnblockTime
  split
  · exact calm_unblockLoop h _
  · exact .of_lists rfl

theorem calm_xTaskIncrementTick (h : M.Asleep W) : Calm W M M.xTaskIncrementTick := by
  unfold xTaskIncrementTick
  split
  · dsimp only
    split
    · split
      · have hswitched : Calm W M (taskSwitchDelayedLists
            (M.onKernel fun k => { k with xTickCount := (k.xTickCount + 1) % tickModulus })) :=
          .of_lists rfl
        exact hswitched.trans (calm_checkUnblockTime (h.calm hswitched))
      · exact .of_lists rfl
    · have hcounted :
          Calm W M (M.onKernel fun k =>
            { k with xTickCount := (k.xTickCount + 1) % tickModulus }) :=
        .of_lists rfl
      exact hcounted.trans (calm_checkUnblockTime (h.calm hcounted))
  · exact .of_lists rfl

theorem calm_ticks (h : M.Asleep W) (n : Nat) : Calm W M (xTaskIncrementTick^[n] M) := by
  induction n generalizing M with
  | zero => exact .of_lists rfl
  | succ n ih =>
      have hcalm := calm_xTaskIncrementTick h
      exact hcalm.trans (ih (h.calm hcalm))

theorem calm_foldl_unblock (tasks : List TaskId) (hW : ∀ t ∈ tasks, W t) :
    Calm W M (tasks.foldl unblock M) := by
  induction tasks generalizing M with
  | nil => exact .of_lists rfl
  | cons t rest ih =>
      have hcalm := M.calm_unblock (hW t List.mem_cons_self)
      exact hcalm.trans (ih fun u hu => hW u (List.mem_cons_of_mem _ hu))

/-- A resumption moves the tasks that are pended and those that sleep. -/
theorem calm_xTaskResumeAll (h : M.Asleep W) (hpended : ∀ t ∈ M.xPendingReadyList, W t) :
    Calm W M M.xTaskResumeAll := by
  unfold xTaskResumeAll
  dsimp only
  split
  · have hready (N : Machine α) (hW : ∀ t ∈ N.xPendingReadyList, W t) :
        Calm W N N.readyAllPended := by
      unfold readyAllPended
      split
      · exact .of_lists rfl
      next => exact (calm_foldl_unblock N.xPendingReadyList hW).trans (.of_lists rfl)
    have hcalm :
        Calm W M (M.onKernel fun k =>
          { k with uxSchedulerSuspended := k.uxSchedulerSuspended - 1 }).readyAllPended := by
      have hresumed :
          Calm W M (M.onKernel fun k =>
            { k with uxSchedulerSuspended := k.uxSchedulerSuspended - 1 }) :=
        .of_lists rfl
      exact hresumed.trans (hready _ hpended)
    exact hcalm.trans ((calm_ticks (h.calm hcalm) _).trans (.of_lists rfl))
  · exact .of_lists rfl

/-! ## Blocking and waking -/

theorem edited_wakeFirst (M : Machine α) (list : EventList) (hW : ∀ t ∈ M.k.eventList list, W t) :
    M.Edited W (M.wakeFirst list) := by
  unfold wakeFirst
  split
  · exact .refl _
  · unfold xTaskRemoveFromEventList
    split
    · exact .refl _
    next t rest hlist =>
      dsimp only
      split
      · exact .move (n := .ready ((M.k.xTaskRemoveFromEventList list).task t).uxPriority) rfl
          (hW t (by rw [hlist]; exact List.mem_cons_self))
      · exact .refl _

theorem edited_prvAddCurrentTaskToDelayedList (M : Machine α) (xTicksToWait : Nat) (forever : Bool)
    (hW : W M.k.pxCurrentTCB) :
    M.Edited W (M.prvAddCurrentTaskToDelayedList xTicksToWait forever) := by
  have htaken : M.Edited W (M.removeReady M.k.pxCurrentTCB) := by
    rw [Edited, lists_removeReady]
    exact .take _ hW
  have hfree : (M.removeReady M.k.pxCurrentTCB).lists.container M.k.pxCurrentTCB = none := by
    rw [lists_removeReady, Lib.Shelf.container_remove, Function.update_self]
  have hdelayed (second : Bool) (items : List TaskId)
      (hperm : items.Perm (M.k.pxCurrentTCB ::
        (M.removeReady M.k.pxCurrentTCB).items (.delayedTask second))) :
      Lib.Shelf.Edits W ListName.IsReady M.lists
        ((M.removeReady M.k.pxCurrentTCB).lists.put (.delayedTask second) M.k.pxCurrentTCB items) :=
    .trans htaken (.put hfree hperm id)
  unfold prvAddCurrentTaskToDelayedList
  dsimp only
  split
  · exact .trans htaken (.putEnd _ hfree)
  · split
    · exact hdelayed _ _ (vListInsert_perm ..)
    · exact hdelayed _ _ (vListInsert_perm ..)

theorem edited_vTaskPlaceOnEventList (M : Machine α) (list : EventList) (xTicksToWait : Nat)
    (hW : W M.k.pxCurrentTCB) :
    M.Edited W (M.vTaskPlaceOnEventList list xTicksToWait) := by
  refine edited_prvAddCurrentTaskToDelayedList
    ((M.onKernel fun k => k.setEventList list
      (vListInsert (fun u => (k.task u).xEventValue) M.k.pxCurrentTCB (k.eventList list))).onKernel
      (·.modTask M.k.pxCurrentTCB fun T => { T with xEventList := some list })) xTicksToWait true ?_
  have hcurrent (tasks : List TaskId) :
      (M.k.setEventList list tasks).pxCurrentTCB = M.k.pxCurrentTCB :=
    congrArg Prod.snd (M.k.cpu_setEventList list tasks)
  change W (M.k.setEventList list _).pxCurrentTCB
  rw [hcurrent]
  exact hW

theorem edited_xTaskPriorityInherit (M : Machine α) (holder : Option TaskId)
    (hW : ∀ t, holder = some t → (M.k.task t).uxPriority < (M.k.task M.k.pxCurrentTCB).uxPriority →
      W t) :
    M.Edited W (M.xTaskPriorityInherit holder) := by
  unfold xTaskPriorityInherit
  split
  · exact .refl _
  next t =>
    split
    next hlower =>
      split
      · refine .move (n :=
            .ready (((M.removeReady t).k.xTaskPriorityInherit (some t)).task t).uxPriority) ?_
              (hW t rfl hlower)
        rw [← M.lists_removeReady]
        rfl
      · exact .refl _
    · exact .refl _

theorem edited_prvCopyDataToQueue {q : QueueId} {item : Option α}
    (hcopy : M.prvCopyDataToQueue q item = some M')
    (hW : ∀ t, (M.k.queue q).xMutexHolder = some t →
      (M.k.slot t).priority ≠ (M'.k.slot t).priority → W t) :
    M.Edited W M' := by
  unfold prvCopyDataToQueue at hcopy
  split at hcopy
  · obtain ⟨M₁, hdone, rfl⟩ := Option.map_eq_some_iff.mp hcopy
    obtain ⟨k, hk, rfl⟩ := Option.map_eq_some_iff.mp hdone
    cases hholder : (M.k.queue q).xMutexHolder with
    | none => exact .refl _
    | some t =>
        rw [hholder] at hk hW
        obtain ⟨-, hslot⟩ := State.slot_xTaskPriorityDisinherit hk
        dsimp only at hW ⊢
        split
        next hlast =>
          rw [if_pos hlast] at hslot hW
          refine .move (n := .ready (k.task t).uxPriority) ?_ (hW t rfl ?_)
          · rw [← M.lists_removeReady]
            rfl
          · change (M.k.slot t).priority ≠ (k.slot t).priority
            rw [hslot, Function.update_self]
            exact hlast.1
        · exact .refl _
  · obtain ⟨k, hk, rfl⟩ := Option.map_eq_some_iff.mp hcopy
    exact .refl _

theorem k_wakeFirst (M : Machine α) (list : EventList) :
    (M.wakeFirst list).k = M.k.wakeFirst list := by
  unfold wakeFirst State.wakeFirst xTaskRemoveFromEventList
  split
  · rfl
  next hne =>
    split
    next hnil => exact absurd hnil hne
    next =>
      dsimp only
      split <;> rfl

theorem edited_pass {frames : TaskId → Option (Frame α)} {n : Nat}
    (hlists : Lists M.k.sched frames n) (t : TaskId) (frame : Frame α) (list : EventList)
    (item : Option α) (hW : ∀ u, (M.k.slot u).state ≠ .ready → W u) :
    M.Edited W (M.pass t frame list item) := by
  refine edited_wakeFirst (M.onKernel (·.retried t frame.waitList)) list fun u hu =>
    hW u fun hready => ?_
  have hblocked := (hlists.waiting u list ((hlists.listed u list).mp hu)).1
  have hstate : M.k.sched.xStateList u = .ready := hready
  simp [hstate, StateList.blocked] at hblocked

theorem priority_pass (M : Machine α) (t : TaskId) (frame : Frame α) (list : EventList)
    (item : Option α) (u : TaskId) :
    ((M.pass t frame list item).k.slot u).priority = (M.k.slot u).priority := by
  have hwoken (k : State α) : ((k.wakeFirst list).slot u).priority = (k.slot u).priority := by
    unfold State.wakeFirst
    split
    · rfl
    next hne =>
      obtain ⟨w, rest, hlist⟩ := List.exists_cons_of_ne_nil hne
      rw [State.slot_xTaskRemoveFromEventList k w hlist]
      split
      · by_cases hu : u = w
        · subst hu
          rw [Function.update_self]
          rfl
        · rw [Function.update_of_ne hu]
      · rfl
  have hslot : (M.pass t frame list item).k.slot =
      ((M.k.retried t frame.waitList).wakeFirst list).slot := by
    refine (State.slot_complete ..).trans ?_
    exact congrArg State.slot (k_wakeFirst ..)
  rw [hslot]
  exact hwoken _

end Machine

/-! ## Steps -/

theorem State.delayedSlot_ne_ready (k : State α) (slot : Slot) (xTicksToWait : Nat)
    (forever : Bool) :
    (k.delayedSlot slot xTicksToWait forever).state ≠ .ready := by
  unfold delayedSlot
  split
  · simp [Slot.setState]
  · dsimp only
    split <;> simp

/-- The task is in the same ready list before and after. -/
def Machine.Steady (M M' : Machine α) (t : TaskId) : Prop :=
  ∃ p, M.lists.container t = some (.ready p) ∧ M'.lists.container t = some (.ready p)

namespace MachineInv

variable {M M' : Machine α} {t u : TaskId}

/-- A task that is ready before and after has the same priority. -/
theorem steady_iff (h : M.Listed) (h' : M'.Listed) : M.Steady M' u ↔
    (M.k.slot u).state = .ready ∧ (M'.k.slot u).state = .ready ∧
      (M'.k.slot u).priority = (M.k.slot u).priority := by
  unfold Machine.Steady
  constructor
  · rintro ⟨p, hbefore, hafter⟩
    rw [h.home, Slot.home_ready] at hbefore
    rw [h'.home, Slot.home_ready] at hafter
    exact ⟨hbefore.1, hafter.1, hafter.2.trans hbefore.2.symm⟩
  · rintro ⟨hbefore, hafter, hpriority⟩
    refine ⟨(M.k.slot u).priority, ?_, ?_⟩
    · rw [h.home, Slot.home_ready]
      exact ⟨hbefore, rfl⟩
    · rw [h'.home, Slot.home_ready]
      exact ⟨hafter, hpriority⟩

/-- No task that sleeps is steady. -/
theorem asleep_unsteady (h : M.Listed) : M.Asleep fun t => ¬ M.Steady M' t := by
  rintro second t ht ⟨p, hbefore, -⟩
  rw [(h.sound.mem _ t).mp ht] at hbefore
  cases hbefore

theorem resumeAll_edited (h : MachineInv M) (hroutine : M.routine M.k.pxCurrentTCB ≠ .notifyAdd) :
    M.Edited (fun t => ¬ M.Steady M' t) M.xTaskResumeAll := by
  refine (Machine.calm_xTaskResumeAll (asleep_unsteady h.listed) fun u hu => ?_).edited
  rintro ⟨p, hbefore, -⟩
  rw [h.listed.home, Slot.home_ready, h.pended_suspended hroutine u hu] at hbefore
  cases hbefore.1

/-- A task that is not ready before the step. -/
theorem unsteady (h : MachineInv M) (hne : (M.k.slot u).state ≠ .ready) : ¬ M.Steady M' u := by
  rintro ⟨p, hbefore, -⟩
  rw [h.listed.home, Slot.home_ready] at hbefore
  exact hne hbefore.1

theorem attempt_edited (h : MachineInv M) {frame : Frame α} (hrun : Running M.k t frame)
    (hM' : M.attempt t frame = M') (h' : M'.Listed) : M.Edited (fun t => ¬ M.Steady M' t) M' := by
  have hlists := hrun.inv.lists
  unfold Machine.attempt at hM'
  cases hop : frame.op with
  | genericSend item =>
      simp only [hop, Machine.xQueueGenericSend] at hM'
      split at hM'
      next =>
        have hk := M.map_k_prvCopyDataToQueue frame.xQueue item
        cases hcopy : M.prvCopyDataToQueue frame.xQueue item with
        | none =>
            rw [hcopy] at hM'
            subst hM'
            exact .refl _
        | some M₁ =>
            rw [hcopy] at hM' hk
            subst hM'
            have hsched := State.sched_prvCopyDataToQueue hk.symm
            refine .trans (Machine.edited_prvCopyDataToQueue hcopy fun w _ hne hsteady => hne ?_)
              (Machine.edited_pass (hsched ▸ hlists) t frame _ _ fun w hne => h.unsteady ?_)
            · rw [steady_iff h.listed h', Machine.priority_pass] at hsteady
              exact hsteady.2.2.symm
            · have hstate : (M₁.k.slot w).state = (M.k.slot w).state :=
                congrFun (congrArg Sched.xStateList hsched) w
              rwa [← hstate]
      next =>
        subst hM'
        exact .refl _
  | receive =>
      simp only [hop, Machine.xQueueReceive] at hM'
      split at hM'
      next =>
        subst hM'
        have hsched := M.k.sched_modQueue frame.xQueue
          (f := fun _ => { (prvCopyDataFromQueue (M.k.queue frame.xQueue)).1 with
            uxMessagesWaiting :=
              (prvCopyDataFromQueue (M.k.queue frame.xQueue)).1.uxMessagesWaiting - 1 })
          (by unfold prvCopyDataFromQueue; split <;> rfl)
          (by unfold prvCopyDataFromQueue; split <;> rfl)
          (by unfold prvCopyDataFromQueue; split <;> rfl)
          (by unfold prvCopyDataFromQueue; split <;> rfl)
        exact Machine.edited_pass (M := M.onKernel (·.modQueue frame.xQueue fun _ =>
          { (prvCopyDataFromQueue (M.k.queue frame.xQueue)).1 with
            uxMessagesWaiting :=
              (prvCopyDataFromQueue (M.k.queue frame.xQueue)).1.uxMessagesWaiting - 1 }))
          (hsched ▸ hlists) t frame _ _ fun w hne => h.unsteady hne
      next =>
        subst hM'
        exact .refl _
  | semaphoreTake =>
      simp only [hop, Machine.xQueueSemaphoreTake] at hM'
      split at hM'
      next =>
        subst hM'
        have hslot := M.k.slot_takeCount frame.xQueue
        refine Machine.edited_pass (M := M.onKernel (·.takeCount frame.xQueue))
          (State.sched_takeCount M.k _ ▸ hlists) t frame _ _ fun w hne => h.unsteady fun hready =>
            hne ?_
        exact (congrArg Slot.state (congrFun hslot w)).trans hready
      next =>
        subst hM'
        exact .refl _

theorem runFrame_edited (h : MachineInv M) (hrun : M.k.canRun t) (hcurrent : M.k.pxCurrentTCB = t)
    {frame : Frame α} (hframe : (M.k.task t).frame = some frame) (hM' : M.runFrame t frame = M')
    (h' : M'.Listed) :
    M.Edited (fun t => ¬ M.Steady M' t) M' := by
  have hrunning := h.running hrun hcurrent hframe
  by_cases hfreed : frame.pc.touchesQueue && !(M.k.queue frame.xQueue).live
  · rw [Machine.runFrame, if_pos hfreed] at hM'
    subst hM'
    exact .refl _
  · rw [Machine.runFrame, if_neg hfreed] at hM'
    cases hpc : frame.pc with
    | attempt =>
        simp only [hpc] at hM'
        exact h.attempt_edited hrunning hM' h'
    | inherit =>
        simp only [hpc] at hM'
        subst hM'
        refine Machine.edited_xTaskPriorityInherit M _ fun w hholder hlower hsteady => ?_
        rw [steady_iff h.listed h'] at hsteady
        have hfollows := h.listed.follows_xTaskPriorityInherit (Machine.bound_of_ranks h.ranks)
          (M.k.queue frame.xQueue).xMutexHolder
        have hslot := M.k.slot_xTaskPriorityInherit w
        rw [if_pos hlower] at hslot
        have hraised :
            (((M.xTaskPriorityInherit (M.k.queue frame.xQueue).xMutexHolder).k.setPc t frame
              .place).slot w).priority = (M.k.task M.k.pxCurrentTCB).uxPriority := by
          rw [State.slot_setPc, hfollows.kernel, hholder, hslot, Function.update_self]
        have hsame : (M.k.task M.k.pxCurrentTCB).uxPriority = (M.k.task w).uxPriority :=
          hraised.symm.trans hsteady.2.2
        omega
    | place =>
        simp only [hpc] at hM'
        subst hM'
        have hready : (M.k.slot M.k.pxCurrentTCB).state = .ready := by
          rw [hcurrent]
          exact (h.tasks t).unplaced frame hframe (by rw [hpc]; rfl)
        have hfollows :=
          h.listed.follows_vTaskPlaceOnEventList hready frame.waitList frame.xTicksToWait
        refine M.edited_vTaskPlaceOnEventList _ _ fun hsteady => ?_
        rw [steady_iff h.listed h'] at hsteady
        refine M.k.delayedSlot_ne_ready (M.k.slot M.k.pxCurrentTCB) frame.xTicksToWait true ?_
        rw [← hsteady.2.1, Machine.onKernel, State.slot_setPc, hfollows.kernel,
          State.slot_vTaskPlaceOnEventList, Function.update_self]
    | unlockTx after =>
        have hlock : (M.k.queue frame.xQueue).cTxLock ≤ 0 := (hrunning.inv.lists.unlocked _).2
        simp only [hpc, Machine.prvUnlockQueueTx, Machine.wakeLocked_unlocked _ _ hlock] at hM'
        subst hM'
        exact .refl _
    | unlockRx after =>
        have hlock : (M.k.queue frame.xQueue).cRxLock ≤ 0 := (hrunning.inv.lists.unlocked _).1
        simp only [hpc, Machine.prvUnlockQueueRx, Machine.wakeLocked_unlocked _ _ hlock] at hM'
        subst hM'
        exact .refl _
    | resumeAll after =>
        simp only [hpc] at hM'
        subst hM'
        refine h.resumeAll_edited ?_
        rw [hcurrent, h.routine_outside hframe]
        simp
    | _ =>
        simp only [hpc] at hM'
        subst hM'
        exact .refl _

namespace Idle

theorem exit_edited (h : Idle M t) (hM' : M.vTaskDelete t = M') (h' : M'.Listed) :
    M.Edited (fun t => ¬ M.Steady M' t) M' := by
  by_cases hzero : M.k.uxSchedulerSuspended = 0
  · have hfollows := h.inv.listed.follows_vTaskDelete (h.ready hzero)
    refine .move (t := t) (n := .waitingTermination) ?_ fun hsteady => ?_
    · rw [← hM', Machine.vTaskDelete, if_pos hzero]
      dsimp only
      split <;> rfl
    · have hstate : (M'.k.slot t).state = .waitingTermination := by
        rw [← hM', hfollows.kernel, State.slot, h.task_vTaskDelete hzero, if_pos rfl]
        rfl
      rw [steady_iff h.inv.listed h', hstate] at hsteady
      cases hsteady.2.1
  · rw [Machine.vTaskDelete, if_neg hzero] at hM'
    subst hM'
    exact .refl _

theorem block_edited (h : Idle M t) (hready : (M.k.slot t).state = .ready) (xTicksToWait : Nat)
    (forever : Bool) (routine : Routine)
    (h' : ((M.prvAddCurrentTaskToDelayedList xTicksToWait forever).setRoutine t routine).Listed) :
    M.Edited
      (fun u =>
        ¬ M.Steady ((M.prvAddCurrentTaskToDelayedList xTicksToWait forever).setRoutine t routine) u)
      ((M.prvAddCurrentTaskToDelayedList xTicksToWait forever).setRoutine t routine) := by
  have hfollows := h.inv.listed.follows_prvAddCurrentTaskToDelayedList (h.current ▸ hready)
    xTicksToWait forever
  refine M.edited_prvAddCurrentTaskToDelayedList _ _ fun hsteady => ?_
  rw [steady_iff h.inv.listed h'] at hsteady
  refine M.k.delayedSlot_ne_ready (M.k.slot M.k.pxCurrentTCB) xTicksToWait forever ?_
  rw [← hsteady.2.1, h.current, Machine.k_setRoutine, hfollows.kernel,
    State.slot_prvAddCurrentTaskToDelayedList, h.current, Function.update_self]

theorem perform_edited {a : Act α} (h : Idle M t) (hroutine : M.routine t = .outside)
    (hactor : a.actor = some t) (hstep : M.perform a = some M') (h' : M'.Listed) :
    M.Edited (fun t => ¬ M.Steady M' t) M' := by
  cases a with
  | tick => simp [Machine.perform, State.perform] at hstep
  | run w => simp [Machine.perform, State.perform] at hstep
  | call w api =>
      cases hstep
      exact .refl _
  | create w spec =>
      simp only [Machine.perform, State.perform] at hstep
      split at hstep <;> cases hstep <;> exact .refl _
  | delete w q =>
      simp only [Machine.perform, State.perform] at hstep
      split at hstep <;> cases hstep <;> exact .refl _
  | spawn w uxPriority =>
      simp only [Machine.perform] at hstep
      split at hstep <;> cases hstep
      · refine .putEnd _ ?_
        rw [h.inv.listed.home, Slot.home_absent]
        exact h.inv.kernel.wait.lists.unspawned _ (Nat.le_refl _)
      · exact .refl _
  | exit w =>
      cases hactor
      exact h.exit_edited (Option.some.inj hstep) h'
  | reap w =>
      cases hstep
      unfold Machine.prvCheckTasksWaitingTermination
      split
      · exact .refl _
      next w rest hlist =>
        refine .take _ (h.inv.unsteady ?_)
        have hstate : (M.k.slot w).state = .waitingTermination := by
          have hmem : w ∈ M.k.xTasksWaitingTermination := by
            rw [hlist]
            exact List.mem_cons_self
          exact (h.inv.kernel.dying.listed w).mp hmem
        simp [hstate]
  | delay w xTicksToDelay =>
      simp only [Machine.perform] at hstep
      split at hstep
      · split at hstep <;> cases hstep <;> exact .refl _
      · cases hstep
        exact .refl _
  | suspendAll w =>
      cases hstep
      exact .refl _
  | resumeAll w =>
      simp only [Machine.perform] at hstep
      split at hstep <;> cases hstep
      · exact .refl _
      · refine h.inv.resumeAll_edited ?_
        rw [h.current, hroutine]
        simp

theorem goOn_edited (h : Idle M t) (hstep : M.goOn t = some M') (h' : M'.Listed) :
    M.Edited (fun t => ¬ M.Steady M' t) M' := by
  have htask := h.inv.tasks t
  have hresume (hadd : M.routine t ≠ .notifyAdd) (M' : Machine α) :
      M.Edited (fun t => ¬ M.Steady M' t) M.xTaskResumeAll := by
    refine h.inv.resumeAll_edited ?_
    rwa [h.current]
  unfold Machine.goOn at hstep
  split at hstep
  next => cases hstep
  next hroutine =>
    cases hstep
    exact h.block_edited (htask.awake (by rw [hroutine]; rfl)) _ _ _ h'
  next hroutine =>
    cases hstep
    exact hresume (by simp [hroutine]) _
  next => split at hstep <;> cases hstep <;> exact .refl _
  next hroutine =>
    cases hstep
    exact h.block_edited (htask.awake (by rw [hroutine]; rfl)) _ _ _ h'
  next hroutine =>
    cases hstep
    exact hresume (by simp [hroutine]) _
  next =>
    cases hstep
    exact .refl _

end Idle

theorem notify_edited (h : MachineInv M) (t : TaskId) (M' : Machine α) :
    M.Edited (fun t => ¬ M.Steady M' t) (M.vTaskNotifyGiveFromIsr t) := by
  unfold Machine.vTaskNotifyGiveFromIsr
  dsimp only
  split
  next hwait =>
    split
    · exact .refl _
    · split
      next hzero =>
        refine .move (t := t) (n := .ready (M.k.task t).uxPriority) rfl (h.unsteady ?_)
        rcases (h.tasks t).listens (.inl hwait) with hadd | ⟨-, hstate⟩
        · have hone := ((h.tasks t).window (by rw [hadd]; rfl)).1
          rw [hzero] at hone
          cases hone
        · simp [hstate]
      · exact .refl _
  · exact .refl _

/-- No step but a context switch changes the order of tasks that stay in a ready list. -/
theorem step_edited {act : MachineAct α} (h : MachineInv M) (hok : act.Promised M)
    (hact : act ≠ .switchContext) (hstep : M.step act = some M') :
    M.Edited (fun t => ¬ M.Steady M' t) M' := by
  have h' : M'.Listed := (h.step hok hstep).listed
  have hidle {t : TaskId} (hrun : M.k.canRun t) (hframe : (M.k.task t).frame = none) :
      Idle (M.onKernel (·.switchTo t)) t := ⟨h.switchTo hrun, canRun_switchTo hrun, rfl, hframe⟩
  cases act with
  | act a =>
      simp only [Machine.step] at hstep
      split at hstep
      next =>
        split at hstep <;> cases hstep
        exact (Machine.calm_xTaskIncrementTick (asleep_unsteady h.listed)).edited
      next t hactor =>
        split at hstep
        next hrun =>
          obtain ⟨hrun, hroutine⟩ := hrun
          split at hstep
          next frame w hframe =>
            cases hactor
            have hedited := (h.switchTo hrun).runFrame_edited (canRun_switchTo hrun) rfl hframe
              (Option.some.inj hstep) h'
            exact hedited
          next => cases hstep
          next hframe =>
            have hedited := (hidle hrun hframe).perform_edited hroutine hactor hstep h'
            exact hedited
        next => cases hstep
  | goOn t =>
      simp only [Machine.step] at hstep
      split at hstep
      next hrun =>
        by_cases hroutine : M.routine t = .outside
        · have hnone : (M.onKernel (·.switchTo t)).goOn t = none := by
            unfold Machine.goOn
            rw [show (M.onKernel (·.switchTo t)).routine t = .outside from hroutine]
          rw [hnone] at hstep
          cases hstep
        · have hedited := (hidle hrun ((h.tasks t).frameless hroutine)).goOn_edited hstep h'
          exact hedited
      next => cases hstep
  | notifyTake t =>
      simp only [Machine.step] at hstep
      split at hstep
      next =>
        cases hstep
        unfold Machine.ulTaskNotifyTake
        split <;> exact .refl _
      next => cases hstep
  | notifyGive t =>
      simp only [Machine.step] at hstep
      split at hstep <;> cases hstep
      exact h.notify_edited t _
  | switchContext => exact absurd rfl hact

end MachineInv

/-! ## Context switches -/

/-- What a context switch does: nothing, or it stops at an assertion, or it takes the first in
turn. -/
theorem Machine.vTaskSwitchContext_cases {M : Machine α} (h : M.lists.Walkable)
    (hfault : M.k.fault = none) :
    (M.k.uxSchedulerSuspended ≠ 0 ∧ M.vTaskSwitchContext = M) ∨
      (M.vTaskSwitchContext.k.fault ≠ none ∧ M.vTaskSwitchContext.lists = M.lists) ∨
      ∃ p w rest, M.k.uxSchedulerSuspended = 0 ∧ (M.lists.list (.ready p)).turns = w :: rest ∧
        M.vTaskSwitchContext.lists = M.lists.advance (.ready p) ∧
        M.vTaskSwitchContext.k.pxCurrentTCB = w ∧ M.vTaskSwitchContext.k.fault = none := by
  unfold vTaskSwitchContext
  split
  next hsuspended => exact .inl ⟨hsuspended, rfl⟩
  next hzero =>
    dsimp only
    split
    next => exact .inr (.inl ⟨by simp [onKernel, State.halt], rfl⟩)
    next w hnext =>
      rw [(h.lists _).next_eq] at hnext
      obtain ⟨rest, hturns⟩ := List.head?_eq_some_iff.mp hnext
      exact .inr (.inr ⟨_, w, rest, not_not.mp hzero, hturns, rfl, rfl, hfault⟩)

theorem MachineInv.walkable_step {M M' : Machine α} {act : MachineAct α} (h : MachineInv M)
    (hok : act.Promised M) (hstep : M.step act = some M') (hwalkable : M.lists.Walkable) :
    M'.lists.Walkable := by
  by_cases hact : act = .switchContext
  · subst hact
    simp only [Machine.step] at hstep
    split at hstep <;> cases hstep
    next hfault =>
      rcases Machine.vTaskSwitchContext_cases hwalkable (Option.isNone_iff_eq_none.mp hfault) with
        ⟨-, hsame⟩ | ⟨-, hlists⟩ | ⟨p, w, rest, -, -, hlists, -⟩
      · rwa [hsame]
      · rwa [hlists]
      · rw [hlists]
        exact hwalkable.advance _
  · exact hwalkable.edits (h.step_edited hok hact hstep)

theorem Machine.boot_walkable (uxMainPriority : Nat) :
    (Machine.boot uxMainPriority : Machine α).lists.Walkable := by
  have hempty : (Machine.initialised (State.boot uxMainPriority : State α)).lists.Walkable := by
    refine ⟨⟨fun _ => List.nodup_nil, fun n t => ?_⟩, fun n => ⟨List.nodup_nil, fun i hi => ?_⟩⟩
    · simp [initialised]
    · cases hi
  have hone := hempty.put (n := .ready ((State.boot uxMainPriority : State α).task 1).uxPriority)
    (x := 1) rfl (Lib.Circular.atEnd_perm _ _)
  refine hone.put (n := .ready ((State.boot uxMainPriority : State α).task 0).uxPriority) (x := 0)
    ?_ (Lib.Circular.atEnd_perm _ _)
  rfl

/-! ## Runs -/

/-- The machine, and the tasks that its context switches have chosen, the last one first. -/
structure Rota (α : Type) where
  machine : Machine α
  chosen : List TaskId

/-- The tasks chosen after a step to the machine `M`. -/
def Rota.record (r : Rota α) (M : Machine α) : MachineAct α → List TaskId
  | .switchContext =>
      if r.machine.k.uxSchedulerSuspended = 0 ∧ M.k.fault = none then M.k.pxCurrentTCB :: r.chosen
      else r.chosen
  | _ => r.chosen

def Rota.step (r : Rota α) (act : MachineAct α) : Option (Rota α) :=
  (r.machine.step act).map fun M => ⟨M, r.record M act⟩

/-- Two tasks stay in one ready list. -/
def Rota.Stay (t u : TaskId) (p : Nat) (r : Rota α) (act : MachineAct α) : Prop :=
  act.Promised r.machine ∧ r.machine.lists.container t = some (.ready p) ∧
    r.machine.lists.container u = some (.ready p)

/-- The choices that fell on one of two tasks. -/
def Rota.among (r : Rota α) (t u : TaskId) : List TaskId := r.chosen.filter fun w => w = t ∨ w = u

/-- The one of the two tasks that was chosen last comes after the other. -/
structure RotaInv (t u : TaskId) (p : Nat) (r : Rota α) : Prop where
  machine : MachineInv r.machine
  walkable : r.machine.lists.Walkable
  alternates : (r.among t u).IsChain (· ≠ ·)
  order : r.machine.lists.container t = some (.ready p) →
    r.machine.lists.container u = some (.ready p) →
    ((r.among t u).head? = some t → [u, t].Sublist (r.machine.lists.list (.ready p)).turns) ∧
    ((r.among t u).head? = some u → [t, u].Sublist (r.machine.lists.list (.ready p)).turns)

namespace RotaInv

variable {t u : TaskId} {p : Nat} {r : Rota α}

theorem among_cons (M : Machine α) (chosen : List TaskId) (w : TaskId) :
    (⟨M, w :: chosen⟩ : Rota α).among t u =
      if w = t ∨ w = u then w :: (⟨M, chosen⟩ : Rota α).among t u else
      (⟨M, chosen⟩ : Rota α).among t u := by
  simp [Rota.among, List.filter_cons]

/-- A context switch that takes the first in turn. -/
theorem turn (h : RotaInv t u p r) (hne : t ≠ u)
    (ht : r.machine.lists.container t = some (.ready p))
    (hu : r.machine.lists.container u = some (.ready p)) {q : Nat} {w : TaskId} {rest : List TaskId}
    {M : Machine α} (hturns : (r.machine.lists.list (.ready q)).turns = w :: rest)
    (hlists : M.lists = r.machine.lists.advance (.ready q)) (hM : MachineInv M) :
    RotaInv t u p ⟨M, w :: r.chosen⟩ := by
  have hsound := h.walkable.lists (.ready q)
  have hcontainer : r.machine.lists.container w = some (.ready q) := by
    rw [← h.walkable.sound.mem, ← hsound.turns_perm.mem_iff, hturns]
    exact List.mem_cons_self
  obtain ⟨horder_t, horder_u⟩ := h.order ht hu
  have hwalkable : M.lists.Walkable := hlists ▸ h.walkable.advance _
  -- a choice from another ready list moves no index of this one
  by_cases hpq : q = p
  · subst hpq
    have hself : M.lists.list (.ready q) = (r.machine.lists.list (.ready q)).advance := by
      rw [hlists]
      simp [Lib.Shelf.advance]
    have hmem (a : TaskId) (ha : r.machine.lists.container a = some (.ready q)) :
        a ∈ (r.machine.lists.list (.ready q)).items :=
      (h.walkable.sound.mem _ a).mpr ha
    by_cases hwt : w = t
    · subst hwt
      -- the index has just passed the first task, so the second comes before it
      obtain ⟨hbefore, hafter⟩ := hsound.turn_taken hne hturns (hmem u hu)
      have hamong : (⟨M, w :: r.chosen⟩ : Rota α).among w u = w :: r.among w u := by
        rw [among_cons, if_pos (.inl rfl)]
        rfl
      refine ⟨hM, hwalkable, ?_, fun _ _ => ⟨fun _ => ?_, fun hhead => ?_⟩⟩
      · rw [hamong, List.isChain_cons]
        refine ⟨fun a ha heq => hbefore (horder_t ?_), h.alternates⟩
        exact heq ▸ ha
      · rw [hself]
        exact hafter
      · rw [hamong, List.head?_cons] at hhead
        exact absurd (Option.some.inj hhead) hne
    · by_cases hwu : w = u
      · subst hwu
        obtain ⟨hbefore, hafter⟩ := hsound.turn_taken hne.symm hturns (hmem t ht)
        have hamong : (⟨M, w :: r.chosen⟩ : Rota α).among t w = w :: r.among t w := by
          rw [among_cons, if_pos (.inr rfl)]
          rfl
        refine ⟨hM, hwalkable, ?_, fun _ _ => ⟨fun hhead => ?_, fun _ => ?_⟩⟩
        · rw [hamong, List.isChain_cons]
          refine ⟨fun a ha heq => hbefore (horder_u ?_), h.alternates⟩
          exact heq ▸ ha
        · rw [hamong, List.head?_cons] at hhead
          exact absurd (Option.some.inj hhead).symm hne
        · rw [hself]
          exact hafter
      · have hamong : (⟨M, w :: r.chosen⟩ : Rota α).among t u = r.among t u := by
          rw [among_cons, if_neg (by simp [hwt, hwu])]
          rfl
        refine ⟨hM, hwalkable, ?_, fun _ _ => ⟨fun hhead => ?_, fun hhead => ?_⟩⟩
        · rw [hamong]
          exact h.alternates
        · rw [hself]
          rw [hamong] at hhead
          exact hsound.turn_other hturns (Ne.symm hwu) (horder_t hhead)
        · rw [hself]
          rw [hamong] at hhead
          exact hsound.turn_other hturns (Ne.symm hwt) (horder_u hhead)
  · -- another ready list
    have hother : M.lists.list (.ready p) = r.machine.lists.list (.ready p) := by
      rw [hlists]
      simp [Lib.Shelf.advance, Ne.symm hpq]
    have hnot (a : TaskId) (ha : r.machine.lists.container a = some (.ready p)) : w ≠ a := by
      rintro rfl
      rw [hcontainer] at ha
      exact hpq (ListName.ready.inj (Option.some.inj ha))
    have hamong : (⟨M, w :: r.chosen⟩ : Rota α).among t u = r.among t u := by
      rw [among_cons, if_neg (by simp [hnot t ht, hnot u hu])]
      rfl
    refine ⟨hM, hwalkable, ?_, fun _ _ => ?_⟩
    · rw [hamong]
      exact h.alternates
    · rw [hamong, hother]
      exact ⟨horder_t, horder_u⟩

theorem step {r' : Rota α} {act : MachineAct α} (h : RotaInv t u p r) (hne : t ≠ u)
    (hok : r.Stay t u p act) (hstep : r.step act = some r') : RotaInv t u p r' := by
  obtain ⟨hpromised, ht, hu⟩ := hok
  obtain ⟨M, hM, rfl⟩ := Option.map_eq_some_iff.mp hstep
  have hmachine := h.machine.step hpromised hM
  have hwalkable := h.machine.walkable_step hpromised hM h.walkable
  obtain ⟨horder_t, horder_u⟩ := h.order ht hu
  have hkeep (hlists : M.lists = r.machine.lists) : RotaInv t u p ⟨M, r.chosen⟩ := by
    refine ⟨hmachine, hwalkable, h.alternates, fun _ _ => ?_⟩
    rw [hlists]
    exact ⟨horder_t, horder_u⟩
  by_cases hact : act = .switchContext
  · subst hact
    simp only [Machine.step] at hM
    split at hM <;> cases hM
    next hfault =>
      rw [Rota.record]
      rcases Machine.vTaskSwitchContext_cases h.walkable (Option.isNone_iff_eq_none.mp hfault) with
        ⟨hsuspended, hsame⟩ | ⟨hhalted, hlists⟩ | ⟨q, w, rest, hzero, hturns, hlists, hcurrent,
          hfault'⟩
      · rw [if_neg fun hzero => hsuspended hzero.1]
        exact hkeep (by rw [hsame])
      · rw [if_neg fun hnone => hhalted hnone.2]
        exact hkeep hlists
      · rw [if_pos ⟨hzero, hfault'⟩, hcurrent]
        exact h.turn hne ht hu hturns hlists hmachine
  · have hchosen : r.record M act = r.chosen := by
      cases act with
      | switchContext => exact absurd rfl hact
      | _ => rfl
    have hedited := h.machine.step_edited hpromised hact hM
    rw [hchosen]
    refine ⟨hmachine, hwalkable, h.alternates, fun ht' hu' => ?_⟩
    have hready : (ListName.ready p).IsReady := trivial
    have hsteady : ¬ ¬ r.machine.Steady M t := not_not.mpr ⟨p, ht, ht'⟩
    have hsteady' : ¬ ¬ r.machine.Steady M u := not_not.mpr ⟨p, hu, hu'⟩
    exact ⟨fun hhead => hedited.order h.walkable hready hsteady' hsteady (horder_t hhead),
      fun hhead => hedited.order h.walkable hready hsteady hsteady' (horder_u hhead)⟩

end RotaInv

/-- From any reachable state on, two tasks that stay in one ready list are chosen in turn, whatever
the other tasks and the interrupts do. -/
theorem equal_priorities_alternate {uxMainPriority : Nat}
    (hmain : uxMainPriority < configMaxPriorities) {M : Machine α}
    (hreach : Lib.Reach Machine.step (fun M act => act.Promised M) (Machine.boot uxMainPriority) M)
    {t u : TaskId} {p : Nat} (hne : t ≠ u) {r : Rota α}
    (hrun : Lib.Reach Rota.step (Rota.Stay t u p) ⟨M, []⟩ r) :
    (r.chosen.filter fun w => w = t ∨ w = u).IsChain (· ≠ ·) := by
  have hwalkable : M.lists.Walkable := by
    -- before the two tasks are watched only the machine and its index fields matter
    refine (hreach.invariant (fun M => MachineInv M ∧ M.lists.Walkable)
        ⟨.boot hmain, Machine.boot_walkable _⟩ ?_).2
    intro M act M' hinv hok hstep
    exact ⟨hinv.1.step hok hstep, hinv.1.walkable_step hok hstep hinv.2⟩
  have hstart : RotaInv t u p ⟨M, []⟩ := by
    refine ⟨.reach hmain hreach, hwalkable, .nil, fun _ _ => ⟨fun hhead => ?_, fun hhead => ?_⟩⟩
    · cases hhead
    · cases hhead
  exact (hrun.invariant (RotaInv t u p) hstart fun _ _ _ hinv hok hstep =>
      hinv.step hne hok hstep).alternates

/-- Two tasks are created beside the main task, with its priority. -/
def threeTasks : List (MachineAct Unit) := [.act (.spawn 1 1), .act (.spawn 1 1)]

/-- Context switches between them while the main task sleeps and wakes. -/
def rotaSchedule : List (MachineAct Unit) :=
  [.switchContext, .switchContext, .act (.delay 1 1), .goOn 1, .goOn 1, .switchContext,
    .switchContext, .act .tick, .switchContext, .switchContext, .switchContext]

def Rota.check (r : Rota Unit) (act : MachineAct Unit) : Bool :=
  machineCheck r.machine act && r.machine.lists.container 2 = some (.ready 1) &&
    r.machine.lists.container 3 = some (.ready 1)

theorem Rota.check_stay (r : Rota Unit) (act : MachineAct Unit) (hcheck : r.check act) :
    r.Stay 2 3 1 act := by
  simp only [check, Bool.and_eq_true, decide_eq_true_eq] at hcheck
  exact ⟨machineCheck_promised r.machine act hcheck.1.1, hcheck.1.2, hcheck.2⟩

theorem equal_priorities_alternate_schedule :
    ∃ (M : Machine Unit) (r : Rota Unit),
      Lib.execute Machine.step machineCheck (Machine.boot 1) threeTasks = some M ∧
      Lib.execute Rota.step Rota.check ⟨M, []⟩ rotaSchedule = some r ∧
      r.chosen = [2, 1, 3, 2, 3, 2, 1] ∧
      (r.chosen.filter fun w => w = 2 ∨ w = 3).IsChain (· ≠ ·) := by
  have hrun : ((Lib.execute Machine.step machineCheck (Machine.boot 1) threeTasks).bind fun M =>
      (Lib.execute Rota.step Rota.check ⟨M, []⟩ rotaSchedule)).map Rota.chosen =
        some [2, 1, 3, 2, 3, 2, 1] := by
    decide +kernel
  obtain ⟨r, hr, hchosen⟩ := Option.map_eq_some_iff.mp hrun
  obtain ⟨M, hM, hr⟩ := Option.bind_eq_some_iff.mp hr
  have hreach := Lib.execute_reach machineCheck_promised threeTasks hM
  have hstay := Lib.execute_reach Rota.check_stay rotaSchedule hr
  refine ⟨M, r, hM, hr, hchosen, equal_priorities_alternate ?_ hreach ?_ hstay⟩
  · decide
  · decide

end SimulatedLinux.Kernel
