import Mathlib.Data.List.TakeWhile
import SimulatedLinux.Kernel.Agree
import SimulatedLinux.Kernel.Clock
import SimulatedLinux.Kernel.Rouse

/-! # Ticks on the lists

The loop of `xTaskIncrementTick` stops at the first task of the delayed list that is not due, and
`xNextTaskUnblockTime` keeps it from being entered at all. Both lose nothing: the kernel after the
loop is the kernel after a walk over all tasks. At a wrap of the tick count the delayed list
is empty, and the two delayed lists change roles.
-/

namespace SimulatedLinux.Kernel

variable {α : Type}

namespace Agrees

variable {M M' : Machine α} {slot slot' : TaskId → Slot}

/-- The cached time may be any that no task of the delayed list is due before. -/
theorem setNext (h : Agrees M slot) (xNextTaskUnblockTime : Nat)
    (hnext : ∀ u ∈ M.items M.delayedName, xNextTaskUnblockTime ≤ (slot u).wake) :
    Agrees { M with xNextTaskUnblockTime } slot :=
  ⟨h.sound, h.home, h.bitmap, h.sorted, hnext⟩

/-- The first task of the delayed list is the first that is due. -/
theorem head_le (h : Agrees M slot) {t : TaskId} {rest : List TaskId}
    (hitems : M.items M.delayedName = t :: rest) :
    ∀ u ∈ M.items M.delayedName, (slot t).wake ≤ (slot u).wake := by
  intro u hu
  have hsorted := h.sorted M.pxDelayedTaskList
  change (M.items M.delayedName).Pairwise _ at hsorted
  rw [hitems] at hsorted hu
  rcases List.mem_cons.mp hu with rfl | hu
  · exact Nat.le_refl _
  · exact (List.pairwise_cons.mp hsorted).1 u hu

theorem mem_delayed (h : Agrees M slot) {t : TaskId} :
    t ∈ M.items M.delayedName ↔ (slot t).state = .delayed := by
  rw [h.mem]
  exact Slot.home_delayed

end Agrees

namespace Machine

variable {M : Machine α} {t : TaskId}

/-- What ticks leave alone. -/
def aside (M : Machine α) :
    List TaskId × (TaskId → NotifyState) × (TaskId → Nat) × (TaskId → Routine) :=
  (M.xPendingReadyList, M.ucNotifyState, M.ulNotifiedValue, M.routine)

/-- The tasks of the delayed list that are due. -/
def due (M : Machine α) : List TaskId :=
  (M.items M.delayedName).takeWhile fun t => (M.k.task t).xWakeTime ≤ M.k.xTickCount

theorem Listed.items_unblock (h : M.Listed) {rest : List TaskId}
    (hitems : M.items M.delayedName = t :: rest) :
    (M.unblock t).items (M.unblock t).delayedName = rest := by
  have hremoved : ((M.lists.remove t).list M.delayedName).items = rest := by
    rw [h.sound.items_remove]
    change (M.items M.delayedName).erase t = rest
    rw [hitems, List.erase_cons_head]
  rw [← hremoved]
  exact Lib.Shelf.items_put_ne (by simp [delayedName])

/-- The loop readies the tasks that are due, and leaves the others in order. -/
theorem Listed.unblockLoop (h : M.Listed) (hbound : ∀ u, (M.k.slot u).priority < 32) {count : Nat}
    (hcount : (M.items M.delayedName).length = count) :
    (M.unblockLoop count).Listed ∧ (M.unblockLoop count).k = M.due.foldl State.readyPended M.k ∧
      (M.unblockLoop count).aside = M.aside := by
  -- on the length of the delayed list; it is sorted, so the loop may stop at the first task that is
  -- not due
  induction count generalizing M with
  | zero =>
      have hnil := List.length_eq_zero_iff.mp hcount
      refine ⟨h.setNext _ (by simp [hnil]), ?_, rfl⟩
      rw [due, hnil]
      rfl
  | succ count ih =>
      obtain ⟨t, rest, hitems⟩ := List.exists_cons_of_length_eq_add_one hcount
      simp only [Machine.unblockLoop, hitems]
      split
      next hlater =>
        refine ⟨h.setNext _ (h.head_le hitems), ?_, rfl⟩
        rw [due, hitems, List.takeWhile_cons_of_neg (by simpa using hlater)]
        rfl
      next hdue =>
        have hmem : t ∈ M.items M.delayedName := by simp [hitems]
        have hstate : (M.k.slot t).state ≠ .ready := by
          rw [h.mem_delayed.mp hmem]
          simp
        have hlisted := h.unblock hstate (hbound t)
        have hk : (M.unblock t).k = M.k.readyPended t := rfl
        have hrest := h.items_unblock hitems
        have hslot := M.k.slot_readyPended t
        have hbound' (u : TaskId) : ((M.unblock t).k.slot u).priority < 32 := by
          rw [hk, hslot]
          by_cases hu : u = t
          · subst hu
            simpa [Slot.setState] using hbound u
          · simpa [hu] using hbound u
        obtain ⟨hdone, hk', haside⟩ :=
          ih hlisted hbound' (by rw [hrest]; simpa [hitems] using hcount)
        refine ⟨hdone, ?_, haside⟩
        have hwake (u : TaskId) : ((M.k.readyPended t).task u).xWakeTime =
            (M.k.task u).xWakeTime := by
          have hwake := wake_update M.k.slot t (s := (M.k.slot t).setState .ready) rfl u
          rw [← hslot] at hwake
          exact hwake
        rw [hk', due, due, hrest, hitems, List.takeWhile_cons_of_pos (by simpa using hdue),
          List.foldl_cons, hk]
        simp only [hwake, (M.k.readyPended_rest t).2.2.1]

theorem Listed.checkUnblockTime (h : M.Listed) (hbound : ∀ u, (M.k.slot u).priority < 32) :
    M.checkUnblockTime.Listed ∧ M.checkUnblockTime.k = M.due.foldl State.readyPended M.k ∧
      M.checkUnblockTime.aside = M.aside := by
  unfold Machine.checkUnblockTime
  split
  next => exact h.unblockLoop hbound rfl
  next hlater =>
    refine ⟨h, ?_, rfl⟩
    have hnone : M.due = [] := by
      unfold due
      rw [List.takeWhile_eq_nil_iff]
      intro hpos hle
      rw [decide_eq_true_eq] at hle
      have hnext : M.xNextTaskUnblockTime ≤ _ := h.next _ (List.getElem_mem hpos)
      exact hlater (Nat.le_trans hnext hle)
    rw [hnone]
    rfl

/-- The tasks at the head of the delayed list that are due are all that are due. -/
theorem Listed.due_perm (h : M.Listed)
    (hunspawned : ∀ t, M.k.nextTask ≤ t → (M.k.slot t).state = .absent) :
    M.due.Perm ((List.range M.k.nextTask).filter M.k.isDue) := by
  have hnodup : M.due.Nodup := (h.sound.nodup M.delayedName).sublist (List.takeWhile_sublist _)
  rw [List.perm_ext_iff_of_nodup hnodup (List.nodup_range.filter _)]
  intro t
  have hdue : M.k.isDue t ↔ t ∈ M.items M.delayedName ∧
      (M.k.task t).xWakeTime ≤ M.k.xTickCount := by
    rw [h.mem_delayed]
    exact decide_eq_true_iff
  have hborn (hmem : t ∈ M.items M.delayedName) : t < M.k.nextTask := by
    by_contra hge
    have habsent := hunspawned t (Nat.le_of_not_lt hge)
    rw [h.mem_delayed.mp hmem] at habsent
    cases habsent
  rw [List.mem_filter, List.mem_range, hdue]
  refine ⟨fun hmem => ?_, fun hmem => ?_⟩
  · have hitem := (List.takeWhile_sublist _).mem hmem
    exact ⟨hborn hitem, hitem, by simpa using List.mem_takeWhile_imp hmem⟩
  · -- a due task behind one that is not due would be out of order
    obtain ⟨-, hitem, hle⟩ := hmem
    rw [← List.takeWhile_append_dropWhile (p := fun t => (M.k.task t).xWakeTime ≤ M.k.xTickCount)
      (l := M.items M.delayedName)] at hitem
    refine (List.mem_append.mp hitem).resolve_right fun hdrop => ?_
    have hlater :
        ∀ u ∈ (M.items M.delayedName).dropWhile fun t => (M.k.task t).xWakeTime ≤ M.k.xTickCount,
          M.k.xTickCount < (M.k.task u).xWakeTime :=
      forall_mem_dropWhile (h.sorted M.pxDelayedTaskList) (fun u hu => by simpa using hu)
        fun u w hu hle => by
        rw [decide_eq_true_eq, Nat.not_le] at hu
        exact Nat.lt_of_lt_of_le hu hle
    exact Nat.not_le_of_lt (hlater t hdrop) hle

theorem Listed.checkUnblockTime_eq (h : M.Listed) (hbound : ∀ u, (M.k.slot u).priority < 32)
    (hunspawned : ∀ t, M.k.nextTask ≤ t → (M.k.slot t).state = .absent) :
    M.checkUnblockTime.k = (List.range M.k.nextTask).foldl State.unblockDelayed M.k := by
  rw [(h.checkUnblockTime hbound).2.1, State.foldl_unblockDelayed _ List.nodup_range]
  exact State.foldl_readyPended_perm _ (h.due_perm hunspawned)

/-! ## The tick count -/

/-- The lists change their names with the states of their tasks. -/
theorem home_switched (slot : Slot) (second : Bool) :
    slot.switched.home (!second) = slot.home second := by
  obtain ⟨state, wake, priority⟩ := slot
  cases state <;> simp [Slot.switched, Slot.setState, Slot.home]

theorem Listed.taskSwitchDelayedLists (h : M.Listed) : M.taskSwitchDelayedLists.Listed := by
  have hwake (t : TaskId) : (M.k.slot t).switched.wake = (M.k.slot t).wake := rfl
  have hswitched :
      Agrees
        { M with
          k := M.k.taskSwitchDelayedLists
          pxDelayedTaskList := !M.pxDelayedTaskList
          xNextTaskUnblockTime := 0 }
        M.k.taskSwitchDelayedLists.slot := by
    rw [State.slot_taskSwitchDelayedLists]
    refine ⟨h.sound, fun t => ?_, h.bitmap, h.sorted, fun _ _ => Nat.zero_le _⟩
    rw [home_switched]
    exact h.home t
  refine hswitched.setNext _ fun u hu => ?_
  split
  next hnil =>
    have hnot : u ∈ ([] : List TaskId) := hnil ▸ hu
    simp at hnot
  next t rest hitems => exact hswitched.head_le hitems u hu

/-- What a tick needs to know of the machine. -/
structure TickReady (M : Machine α) : Prop where
  listed : M.Listed
  bound : ∀ u, (M.k.slot u).priority < 32
  unspawned : ∀ t, M.k.nextTask ≤ t → (M.k.slot t).state = .absent
  clock : M.k.ClockOk
  timely : ∀ t, (M.k.slot t).Timely M.k.xTickCount

/-- The tick count goes up by one. -/
def counted (M : Machine α) : Machine α :=
  M.onKernel fun k => { k with xTickCount := (k.xTickCount + 1) % tickModulus }

theorem xTaskIncrementTick_unpended (hzero : M.k.uxSchedulerSuspended = 0) :
    M.xTaskIncrementTick =
      if (M.k.xTickCount + 1) % tickModulus = 0 then
        if M.items M.delayedName = [] then M.counted.taskSwitchDelayedLists.checkUnblockTime
        else M.counted.onKernel (·.halt .assertion)
      else M.counted.checkUnblockTime := by
  rw [Machine.xTaskIncrementTick, if_pos hzero]
  rfl

/-- A tick on the lists is a tick of the kernel. The assertion of `taskSWITCH_DELAYED_LISTS`
does not fail. -/
theorem TickReady.xTaskIncrementTick_eq (h : M.TickReady) :
    M.xTaskIncrementTick.Listed ∧ M.xTaskIncrementTick.k = M.k.xTaskIncrementTick ∧
      M.xTaskIncrementTick.aside = M.aside := by
  by_cases hzero : M.k.uxSchedulerSuspended = 0
  · have hlisted : M.counted.Listed := h.listed.onKernel _
    rw [xTaskIncrementTick_unpended hzero, State.xTaskIncrementTick, if_pos hzero]
    rcases tick_cases h.clock with ⟨hlast, hmod⟩ | ⟨-, hmod⟩
    · have hempty : M.items M.delayedName = [] := by
        rw [List.eq_nil_iff_forall_not_mem]
        intro t ht
        exact (h.timely t).not_last hlast (h.listed.mem_delayed.mp ht)
      rw [if_pos hmod, if_pos hempty]
      dsimp only
      rw [if_pos hmod]
      have hswitched := hlisted.taskSwitchDelayedLists
      obtain ⟨hdone, -, haside⟩ := hswitched.checkUnblockTime fun u => h.bound u
      refine ⟨hdone, ?_, haside⟩
      refine hswitched.checkUnblockTime_eq (fun u => h.bound u) fun t ht => ?_
      have habsent := h.unspawned t ht
      change (M.k.slot t).switched.state = .absent
      rw [Slot.switched, habsent]
      rfl
    · have hne : (M.k.xTickCount + 1) % tickModulus ≠ 0 := by
        rw [hmod]
        exact Nat.succ_ne_zero _
      rw [if_neg hne]
      dsimp only
      rw [if_neg hne]
      obtain ⟨hdone, -, haside⟩ := hlisted.checkUnblockTime h.bound
      exact ⟨hdone, hlisted.checkUnblockTime_eq h.bound h.unspawned, haside⟩
  · rw [Machine.xTaskIncrementTick, if_neg hzero, State.xTaskIncrementTick, if_neg hzero]
    exact ⟨h.listed.onKernel _, rfl, rfl⟩

theorem TickReady.xTaskIncrementTick (h : M.TickReady) : M.xTaskIncrementTick.TickReady := by
  obtain ⟨hlisted, hk, -⟩ := h.xTaskIncrementTick_eq
  have hnext : M.k.xTaskIncrementTick.nextTask = M.k.nextTask :=
    congrArg View.nextTask (State.view_xTaskIncrementTick M.k)
  by_cases hzero : M.k.uxSchedulerSuspended = 0
  · have hslot := State.slot_xTaskIncrementTick h.unspawned hzero
    have htick := State.tickCount_xTaskIncrementTick hzero
    have hcases (u : TaskId) := Slot.ticked_cases h.clock (h.timely u)
    refine ⟨hlisted, fun u => ?_, fun t ht => ?_, ?_, fun t => ?_⟩
    · rw [hk, hslot]
      dsimp only [Slot.ticked]
      split <;> split <;> exact h.bound u
    · rw [hk, hnext] at ht
      rw [hk, hslot, hcases, h.unspawned t ht]
      exact h.unspawned t ht
    · rw [hk]
      exact (State.time_xTaskIncrementTick h.clock).1
    · rw [hk, hslot, htick]
      exact (h.timely t).ticked h.clock
  · have hpended : M.xTaskIncrementTick = M.onKernel fun k =>
        { k with xPendedTicks := k.xPendedTicks + 1 } := by
      rw [Machine.xTaskIncrementTick, if_neg hzero]
    rw [hpended]
    exact ⟨h.listed.onKernel _, h.bound, h.unspawned, h.clock, h.timely⟩

/-- The time after a tick that is not pended. -/
theorem time_tick {k : State α} (hclock : k.ClockOk) (hzero : k.uxSchedulerSuspended = 0) :
    k.xTaskIncrementTick.time = k.time + 1 := by
  rw [State.xTaskIncrementTick, if_pos hzero]
  dsimp only
  rw [State.time_of_clock (State.clock_foldl _ State.clock_unblockDelayed _)]
  rcases tick_cases hclock with ⟨hlast, hmod⟩ | ⟨-, hmod⟩
  · rw [if_pos hmod]
    simp only [State.time, State.taskSwitchDelayedLists, hmod, Nat.succ_mul]
    omega
  · rw [if_neg (by rw [hmod]; exact Nat.succ_ne_zero _)]
    simp only [State.time, hmod]
    omega

theorem suspended_tick (k : State α) :
    k.xTaskIncrementTick.uxSchedulerSuspended = k.uxSchedulerSuspended :=
  congrArg Prod.fst k.cpu_xTaskIncrementTick

/-- What a number of ticks does to the slot of a task. -/
theorem TickReady.iterate_slot (h : M.TickReady) (hzero : M.k.uxSchedulerSuspended = 0) (n : Nat)
    (u : TaskId) :
    (Machine.xTaskIncrementTick^[n] M).k.slot u = (M.k.slot u).elapsed M.k.xTickCount n ∧
      (Machine.xTaskIncrementTick^[n] M).k.xTickCount = (M.k.xTickCount + n) % tickModulus ∧
      (Machine.xTaskIncrementTick^[n] M).k.time = M.k.time + n := by
  -- one replayed tick after the other
  induction n generalizing M with
  | zero =>
      rw [Function.iterate_zero_apply, Nat.add_zero, Nat.add_zero, Nat.mod_eq_of_lt h.clock]
      exact ⟨rfl, rfl, rfl⟩
  | succ n ih =>
      obtain ⟨-, hk, -⟩ := h.xTaskIncrementTick_eq
      have hslot := State.slot_xTaskIncrementTick h.unspawned hzero u
      have htick := State.tickCount_xTaskIncrementTick hzero
      have htime := time_tick h.clock hzero
      rw [← hk] at hslot htick htime
      obtain ⟨hslot', htick', htime'⟩ :=
        ih h.xTaskIncrementTick (by rw [hk, suspended_tick]; exact hzero)
      rw [Function.iterate_succ_apply]
      refine ⟨?_, ?_, ?_⟩
      · rw [hslot', hslot, htick]
        rfl
      · rw [htick', htick, Nat.mod_add_mod]
        congr 1
        omega
      · rw [htime', htime]
        omega

/-! ## The end of a suspension -/

theorem Listed.foldl_unblock {tasks : List TaskId} (h : M.Listed)
    (hbound : ∀ u, (M.k.slot u).priority < 32) (hnodup : tasks.Nodup)
    (hstate : ∀ t ∈ tasks, (M.k.slot t).state ≠ .ready) :
    (tasks.foldl Machine.unblock M).Listed ∧ (tasks.foldl Machine.unblock M).k =
      tasks.foldl State.readyPended M.k ∧
      (tasks.foldl Machine.unblock M).aside = M.aside := by
  induction tasks generalizing M with
  | nil => exact ⟨h, rfl, rfl⟩
  | cons t rest ih =>
      obtain ⟨hfresh, hrest⟩ := List.nodup_cons.mp hnodup
      have hlisted := h.unblock (hstate t List.mem_cons_self) (hbound t)
      have hslot : (M.unblock t).k.slot =
          Function.update M.k.slot t ((M.k.slot t).setState .ready) :=
        M.k.slot_readyPended t
      refine ih hlisted (fun u => ?_) hrest fun u hu => ?_
      · rw [hslot]
        by_cases hut : u = t
        · subst hut
          simpa [Slot.setState] using hbound u
        · simpa [hut] using hbound u
      · have hne : u ≠ t := fun heq => hfresh (heq ▸ hu)
        rw [hslot, Function.update_of_ne hne]
        exact hstate u (List.mem_cons_of_mem t hu)

/-- The kernel that a resumption starts from: the pended tasks are ready if it is the last one. -/
def roused (M : Machine α) : State α :=
  if M.k.uxSchedulerSuspended - 1 = 0 then M.xPendingReadyList.foldl State.readyPended M.k else M.k

/-- One suspension less, with the pended tasks ready if it was the last. -/
def unsuspended (M : Machine α) : Machine α :=
  let M := M.onKernel fun k => { k with uxSchedulerSuspended := k.uxSchedulerSuspended - 1 }
  if M.k.uxSchedulerSuspended = 0 then M.readyAllPended else M

theorem TickReady.readyAllPended (h : M.TickReady) (hnodup : M.xPendingReadyList.Nodup)
    (hstate : ∀ t ∈ M.xPendingReadyList, (M.k.slot t).state = .suspended) :
    M.readyAllPended.TickReady ∧
      M.readyAllPended.k = M.xPendingReadyList.foldl State.readyPended M.k ∧
      M.readyAllPended.aside = ([], M.aside.2) := by
  unfold Machine.readyAllPended
  split
  next hnil =>
    refine ⟨h, ?_, ?_⟩
    · rw [hnil]
      rfl
    · rw [aside, hnil]
  next hne =>
    obtain ⟨hlisted, hk, haside⟩ := h.listed.foldl_unblock h.bound hnodup fun t ht => by
      simp [hstate t ht]
    have hslot := M.k.slot_foldl_readyPended M.xPendingReadyList
    have hk' : ({ M.xPendingReadyList.foldl Machine.unblock M with
        xPendingReadyList := [] }.prvResetNextTaskUnblockTime).k =
          M.xPendingReadyList.foldl State.readyPended M.k := hk
    obtain ⟨-, hnext, htick, -⟩ := M.k.foldl_readyPended_rest M.xPendingReadyList
    refine ⟨⟨?_, fun u => ?_, fun t ht => ?_, ?_, fun t => ?_⟩, hk, ?_⟩
    · have hcleared :
          Agrees { M.xPendingReadyList.foldl Machine.unblock M with xPendingReadyList := [] } _ :=
        hlisted.of_lists rfl rfl rfl rfl
      refine hcleared.setNext _ fun u hu => ?_
      split
      next hempty =>
        rw [hempty] at hu
        simp at hu
      next t rest hitems => exact hcleared.head_le hitems u hu
    · rw [hk', hslot]
      dsimp only
      split <;> exact h.bound u
    · rw [hk', hnext] at ht
      rw [hk', hslot]
      have habsent := h.unspawned t ht
      have hnot : t ∉ M.xPendingReadyList := fun hmem => by simp [hstate t hmem] at habsent
      simpa [hnot] using habsent
    · rw [hk', State.ClockOk, htick]
      exact h.clock
    · rw [hk', htick, hslot]
      dsimp only
      split
      next => exact .of_ready rfl
      next => exact h.timely t
    · simp only [aside, Prod.mk.injEq] at haside ⊢
      exact ⟨rfl, haside.2⟩

theorem TickReady.iterate (h : M.TickReady) (n : Nat) :
    (Machine.xTaskIncrementTick^[n] M).TickReady ∧
      (Machine.xTaskIncrementTick^[n] M).k = State.xTaskIncrementTick^[n] M.k ∧
      (Machine.xTaskIncrementTick^[n] M).aside = M.aside := by
  induction n generalizing M with
  | zero => exact ⟨h, rfl, rfl⟩
  | succ n ih =>
      obtain ⟨-, hk, haside⟩ := h.xTaskIncrementTick_eq
      obtain ⟨hready, hk', haside'⟩ := ih h.xTaskIncrementTick
      rw [Function.iterate_succ_apply, Function.iterate_succ_apply, ← hk]
      exact ⟨hready, hk', haside'.trans haside⟩

/-- The start of a resumption, and the ticks that it replays. -/
theorem xTaskResumeAll_eq (M : Machine α) :
    M.xTaskResumeAll =
      if M.k.uxSchedulerSuspended - 1 = 0 then
        (Machine.xTaskIncrementTick^[M.unsuspended.k.xPendedTicks] M.unsuspended).onKernel
          fun k => { k with xPendedTicks := 0 }
      else M.unsuspended := by
  unfold Machine.xTaskResumeAll unsuspended
  dsimp only [onKernel]
  split <;> rfl

theorem TickReady.unsuspended (h : M.TickReady) (hnodup : M.xPendingReadyList.Nodup)
    (hstate : ∀ t ∈ M.xPendingReadyList, (M.k.slot t).state = .suspended) :
    M.unsuspended.TickReady ∧
      M.unsuspended.k = { M.roused with uxSchedulerSuspended := M.k.uxSchedulerSuspended - 1 } ∧
      M.unsuspended.aside =
        (if M.k.uxSchedulerSuspended - 1 = 0 then [] else M.xPendingReadyList, M.aside.2) := by
  have hless :
      (M.onKernel fun k =>
        { k with uxSchedulerSuspended := k.uxSchedulerSuspended - 1 }).TickReady :=
    ⟨h.listed.onKernel _, h.bound, h.unspawned, h.clock, h.timely⟩
  unfold Machine.unsuspended roused
  dsimp only [onKernel]
  split
  next hzero =>
    rw [← State.foldl_readyPended_suspended]
    exact hless.readyAllPended hnodup hstate
  next => exact ⟨hless, rfl, rfl⟩

theorem roused_slot (M : Machine α) (u : TaskId) :
    M.roused.slot u =
      if M.k.uxSchedulerSuspended - 1 = 0 ∧ u ∈ M.xPendingReadyList then
      (M.k.slot u).setState .ready
      else M.k.slot u := by
  unfold roused
  split
  next hzero =>
    rw [State.slot_foldl_readyPended]
    simp only [hzero, true_and]
  next hne => simp only [hne, false_and, if_false]

theorem roused_clock (M : Machine α) : M.roused.clock = M.k.clock := by
  have hready (k : State α) (t : TaskId) : (k.readyPended t).clock = k.clock :=
    k.clock_removeEventItem t
  unfold roused
  split
  · exact State.clock_foldl _ hready _
  · rfl

theorem roused_suspended (M : Machine α) :
    M.roused.uxSchedulerSuspended = M.k.uxSchedulerSuspended := by
  unfold roused
  split
  · exact (M.k.foldl_readyPended_rest _).1
  · rfl

/-- A resumption on the lists is one of the kernel in which the pended tasks are ready. -/
theorem TickReady.xTaskResumeAll (h : M.TickReady) (hnodup : M.xPendingReadyList.Nodup)
    (hstate : ∀ t ∈ M.xPendingReadyList, (M.k.slot t).state = .suspended)
    (hnil : M.k.xPendingReadyList = []) :
    M.xTaskResumeAll.TickReady ∧ M.xTaskResumeAll.k = M.roused.xTaskResumeAll ∧
      M.xTaskResumeAll.aside =
        (if M.k.uxSchedulerSuspended - 1 = 0 then [] else M.xPendingReadyList, M.aside.2) := by
  obtain ⟨hready, hk, haside⟩ := h.unsuspended hnodup hstate
  have hpending : M.roused.xPendingReadyList = [] := by
    unfold roused
    split
    · exact M.k.foldl_readyPended_pending hnil
    · exact hnil
  rw [xTaskResumeAll_eq, State.xTaskResumeAll_of_nil hpending, roused_suspended]
  split
  next hzero =>
    obtain ⟨hdone, hk', haside'⟩ := hready.iterate M.unsuspended.k.xPendedTicks
    refine ⟨⟨hdone.listed.onKernel _, hdone.bound, hdone.unspawned, hdone.clock, hdone.timely⟩, ?_,
      ?_⟩
    · change { (Machine.xTaskIncrementTick^[_] M.unsuspended).k with xPendedTicks := 0 } = _
      rw [hk', hk]
    · rw [if_pos hzero] at haside
      exact haside'.trans haside
  next hne =>
    rw [if_neg hne] at haside
    exact ⟨hready, hk, haside⟩

/-- The slot of a task after a resumption: ticks were replayed. -/
theorem TickReady.xTaskResumeAll_slot (h : M.TickReady) (hnodup : M.xPendingReadyList.Nodup)
    (hstate : ∀ t ∈ M.xPendingReadyList, (M.k.slot t).state = .suspended) (u : TaskId) :
    ∃ n, M.xTaskResumeAll.k.slot u = (M.roused.slot u).elapsed M.k.xTickCount n ∧
      M.xTaskResumeAll.k.xTickCount = (M.k.xTickCount + n) % tickModulus ∧
      M.xTaskResumeAll.k.time = M.k.time + n := by
  obtain ⟨hready, hk, -⟩ := h.unsuspended hnodup hstate
  have hslot : M.unsuspended.k.slot u = M.roused.slot u := by rw [hk]; rfl
  have hclock : M.unsuspended.k.clock = M.k.clock := by
    rw [hk]
    exact M.roused_clock
  have htick : M.unsuspended.k.xTickCount = M.k.xTickCount := congrArg Prod.fst hclock
  have htime := State.time_of_clock hclock
  rw [xTaskResumeAll_eq]
  split
  next hzero =>
    obtain ⟨hslot', htick', htime'⟩ :=
      hready.iterate_slot (by rw [hk]; exact hzero) M.unsuspended.k.xPendedTicks u
    refine ⟨M.unsuspended.k.xPendedTicks, ?_, ?_, ?_⟩
    · rw [← hslot, ← htick]
      exact hslot'
    · rw [← htick]
      exact htick'
    · rw [← htime]
      exact htime'
  next =>
    refine ⟨0, ?_, ?_, ?_⟩
    · rw [hslot]
      rfl
    · rw [htick, Nat.add_zero, Nat.mod_eq_of_lt h.clock]
    · rw [htime, Nat.add_zero]

end Machine

end SimulatedLinux.Kernel
