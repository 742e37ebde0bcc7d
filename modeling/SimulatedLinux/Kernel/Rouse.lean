import SimulatedLinux.Kernel.Slots

/-! # Many tasks become ready

A tick readies every task that is due, and the end of a suspension every task that was
pended. The order does not matter: a task leaves its own lists only. So the loop of
`xTaskIncrementTick`, which walks the delayed list, does what a walk over all tasks does.
-/

namespace SimulatedLinux.Kernel

variable {α : Type}

/-- The task is ready and waits for nothing. -/
def Task.readied (T : Task α) : Task α := { T with xEventList := none, xStateList := .ready }

/-- The slot of a task after a tick that leads to the given count. -/
def Slot.ticked (slot : Slot) (xTickCount : Nat) : Slot :=
  let slot := if xTickCount = 0 then slot.switched else slot
  if slot.state = .delayed ∧ slot.wake ≤ xTickCount then slot.setState .ready else slot

/-- The slot of a task after a number of ticks from the given count on. -/
def Slot.elapsed (slot : Slot) (xTickCount : Nat) : Nat → Slot
  | 0 => slot
  | n + 1 =>
      (slot.ticked ((xTickCount + 1) % tickModulus)).elapsed ((xTickCount + 1) % tickModulus) n

/-- A task that is in no delayed list is not moved by ticks. -/
theorem Slot.elapsed_still {slot : Slot} (hdelayed : slot.state ≠ .delayed)
    (hoverflow : slot.state ≠ .overflowDelayed) (xTickCount n : Nat) :
    slot.elapsed xTickCount n = slot := by
  induction n generalizing xTickCount with
  | zero => rfl
  | succ n ih =>
      have hticked : slot.ticked ((xTickCount + 1) % tickModulus) = slot := by
        obtain ⟨state, wake, priority⟩ := slot
        unfold ticked
        cases state <;> simp_all [switched, setState]
      rw [elapsed, hticked]
      exact ih _

/-- A task in a delayed list is there for a time that is still to come, after a wrap of the tick
count when it is in the overflow list. -/
structure Slot.Timely (slot : Slot) (xTickCount : Nat) : Prop where
  delayed : slot.state = .delayed → xTickCount < slot.wake ∧ slot.wake < tickModulus
  overflow : slot.state = .overflowDelayed → slot.wake < xTickCount

theorem Slot.Timely.of_ready {slot : Slot} {xTickCount : Nat} (hstate : slot.state = .ready) :
    slot.Timely xTickCount := by
  constructor <;> simp [hstate]

/-- At the last tick count before a wrap no task is in the delayed list in use. -/
theorem Slot.Timely.not_last {slot : Slot} {xTickCount : Nat} (h : slot.Timely xTickCount)
    (hlast : xTickCount + 1 = tickModulus) : slot.state ≠ .delayed := by
  intro hdelayed
  obtain ⟨hlt, hwake⟩ := h.delayed hdelayed
  omega

theorem tick_cases {xTickCount : Nat} (hclock : xTickCount < tickModulus) :
    xTickCount + 1 = tickModulus ∧ (xTickCount + 1) % tickModulus = 0 ∨
      xTickCount + 1 < tickModulus ∧ (xTickCount + 1) % tickModulus = xTickCount + 1 := by
  rcases Nat.lt_or_ge (xTickCount + 1) tickModulus with hlt | hge
  · exact .inr ⟨hlt, Nat.mod_eq_of_lt hlt⟩
  · have heq : xTickCount + 1 = tickModulus := by omega
    exact .inl ⟨heq, by rw [heq, Nat.mod_self]⟩

/-- The slot after a tick, by the list it was in. -/
theorem Slot.ticked_cases {slot : Slot} {xTickCount : Nat} (hclock : xTickCount < tickModulus)
    (h : slot.Timely xTickCount) :
    slot.ticked ((xTickCount + 1) % tickModulus) =
      match slot.state with
      | .delayed => if slot.wake = xTickCount + 1 then slot.setState .ready else slot
      | .overflowDelayed =>
          if xTickCount + 1 = tickModulus then
            if slot.wake = 0 then slot.setState .ready else slot.setState .delayed
          else slot
      | _ => slot := by
  obtain ⟨state, wake, priority⟩ := slot
  rcases tick_cases hclock with ⟨hlast, hmod⟩ | ⟨hlt, hmod⟩
  · rw [hmod]
    cases state with
    | delayed => exact absurd rfl (h.not_last hlast)
    | overflowDelayed => simp [ticked, switched, setState, hlast]
    | _ => simp [ticked, switched, setState]
  · rw [hmod]
    cases state with
    | delayed =>
        have hle : wake ≤ xTickCount + 1 ↔ wake = xTickCount + 1 := by
          have hwake : xTickCount < wake := (h.delayed rfl).1
          omega
        simp only [ticked, Nat.add_eq_zero_iff, Nat.one_ne_zero, and_false, if_false, true_and, hle]
    | overflowDelayed => simp [ticked, Nat.ne_of_lt hlt]
    | _ => simp [ticked]

theorem Slot.Timely.ticked {slot : Slot} {xTickCount : Nat} (hclock : xTickCount < tickModulus)
    (h : slot.Timely xTickCount) :
    (slot.ticked ((xTickCount + 1) % tickModulus)).Timely ((xTickCount + 1) % tickModulus) := by
  rw [ticked_cases hclock h]
  have hcases := tick_cases hclock
  split
  next hstate =>
    split
    next => exact .of_ready rfl
    next hne =>
      obtain ⟨hlt, hwake⟩ := h.delayed hstate
      refine ⟨fun _ => ?_, by simp [hstate]⟩
      omega
  next hstate =>
    have hwake := h.overflow hstate
    split
    next hlast =>
      split
      next => exact .of_ready rfl
      next hne =>
        refine ⟨fun _ => ?_, by simp [setState]⟩
        have hpos : 0 < slot.wake := Nat.pos_of_ne_zero hne
        simp only [setState]
        omega
    next hnot =>
      refine ⟨by simp [hstate], fun _ => ?_⟩
      omega
  next hdelayed hoverflow =>
    exact ⟨fun hstate => absurd hstate hdelayed, fun hstate => absurd hstate hoverflow⟩

namespace State

variable (k : State α) (t u : TaskId)

/-! ## Two tasks -/

/-- `removeEventItem` for an item that is in the given list. -/
def eraseEvent (k : State α) (t : TaskId) : Option EventList → State α
  | none => k
  | some list => k.setEventList list ((k.eventList list).erase t)

theorem readyPended_eq :
    k.readyPended t = (k.eraseEvent t (k.task t).xEventList).modTask t Task.readied := by
  unfold readyPended removeEventItem
  split
  next hnone =>
    have hsame : { k.task t with xStateList := .ready } = Task.readied (k.task t) := by
      rw [Task.readied, ← hnone]
    rw [hnone]
    exact congrArg (fun T => { k with task := Function.update k.task t T }) hsame
  next list hlist =>
    rw [hlist]
    simp [eraseEvent, prvAddTaskToReadyList, modTask, Task.readied]

theorem modTask_comm {t u : TaskId} (hne : t ≠ u) (f g : Task α → Task α) :
    (k.modTask t f).modTask u g = (k.modTask u g).modTask t f := by
  simp only [modTask, Function.update_of_ne hne, Function.update_of_ne hne.symm]
  rw [Function.update_comm hne]

theorem modQueue_comm {f g : Queue α → Queue α} (hcomm : ∀ Q, f (g Q) = g (f Q)) (p q : QueueId) :
    (k.modQueue p f).modQueue q g = (k.modQueue q g).modQueue p f := by
  by_cases hpq : p = q
  · subst hpq
    simp [modQueue, hcomm]
  · simp only [modQueue, Function.update_of_ne hpq, Function.update_of_ne (Ne.symm hpq)]
    rw [Function.update_comm hpq]

theorem eraseEvent_modTask (f : Task α → Task α) (list : Option EventList) :
    (k.modTask u f).eraseEvent t list = (k.eraseEvent t list).modTask u f := by
  rcases list with _ | _ | _ | _ <;> rfl

theorem task_eraseEvent (list : Option EventList) : (k.eraseEvent t list).task = k.task := by
  rcases list with _ | _ | _ | _ <;> rfl

theorem eraseEvent_comm (list list' : Option EventList) :
    (k.eraseEvent t list).eraseEvent u list' = (k.eraseEvent u list').eraseEvent t list := by
  have hqueue (f g : Queue α → Queue α) (hcomm : ∀ Q, f (g Q) = g (f Q)) (p q : QueueId) :=
    k.modQueue_comm hcomm p q
  have herase (tasks : List TaskId) : (tasks.erase u).erase t = (tasks.erase t).erase u :=
    List.erase_comm u t
  rcases list with _ | p | p | _
  · rfl
  · rcases list' with _ | q | q | _
    · rfl
    · have hsend := hqueue (fun Q =>
          { Q with xTasksWaitingToSend := Q.xTasksWaitingToSend.erase t })
        (fun Q => { Q with xTasksWaitingToSend := Q.xTasksWaitingToSend.erase u })
        (by simp [herase]) p q
      exact hsend
    · have hsend := hqueue (fun Q =>
          { Q with xTasksWaitingToSend := Q.xTasksWaitingToSend.erase t })
        (fun Q => { Q with xTasksWaitingToReceive := Q.xTasksWaitingToReceive.erase u })
        (by simp) p q
      exact hsend
    · rfl
  · rcases list' with _ | q | q | _
    · rfl
    · have hreceive := hqueue (fun Q =>
          { Q with xTasksWaitingToReceive := Q.xTasksWaitingToReceive.erase t })
        (fun Q => { Q with xTasksWaitingToSend := Q.xTasksWaitingToSend.erase u }) (by simp) p q
      exact hreceive
    · have hreceive := hqueue (fun Q =>
          { Q with xTasksWaitingToReceive := Q.xTasksWaitingToReceive.erase t })
        (fun Q => { Q with xTasksWaitingToReceive := Q.xTasksWaitingToReceive.erase u })
        (by simp [herase]) p q
      exact hreceive
    · rfl
  · rcases list' with _ | q | q | _
    · rfl
    · rfl
    · rfl
    · simp [eraseEvent, setEventList, eventList, herase]

/-- The order in which two tasks become ready does not matter. -/
theorem readyPended_comm : (k.readyPended t).readyPended u = (k.readyPended u).readyPended t := by
  by_cases htu : t = u
  · rw [htu]
  have hother {t u : TaskId} (hne : t ≠ u) : (k.readyPended t).task u = k.task u := by
    rw [readyPended_eq]
    simp only [modTask, task_eraseEvent, Function.update_of_ne hne.symm]
  rw [readyPended_eq (k.readyPended t), readyPended_eq (k.readyPended u), hother htu,
    hother (Ne.symm htu), readyPended_eq k t, readyPended_eq k u, eraseEvent_modTask,
    eraseEvent_modTask, eraseEvent_comm, modTask_comm _ htu]

/-! ## Lists of tasks -/

theorem foldl_readyPended_perm {tasks tasks' : List TaskId} (hperm : tasks.Perm tasks') :
    tasks.foldl readyPended k = tasks'.foldl readyPended k := by
  apply hperm.foldl_eq'
  intro t _ u _ k
  exact readyPended_comm k t u

theorem slot_foldl_readyPended (tasks : List TaskId) :
    (tasks.foldl readyPended k).slot = fun u =>
      if u ∈ tasks then (k.slot u).setState .ready else k.slot u := by
  induction tasks generalizing k with
  | nil => simp
  | cons t rest ih =>
      rw [List.foldl_cons, ih, slot_readyPended]
      funext u
      by_cases hu : u = t
      · subst hu
        simp [Slot.setState]
      · simp [hu]

/-- What does not change when a task becomes ready. -/
theorem readyPended_rest : (k.readyPended t).uxSchedulerSuspended = k.uxSchedulerSuspended ∧
    (k.readyPended t).nextTask = k.nextTask ∧ (k.readyPended t).xTickCount = k.xTickCount ∧
    (k.readyPended t).xPendedTicks = k.xPendedTicks := by
  rw [readyPended_eq]
  generalize (k.task t).xEventList = list
  rcases list with _ | _ | _ | _ <;> exact ⟨rfl, rfl, rfl, rfl⟩

theorem isDue_readyPended {k : State α} {t u : TaskId} (hne : u ≠ t) :
    (k.readyPended t).isDue u = k.isDue u := by
  have hslot : (k.readyPended t).slot u = k.slot u := by
    rw [slot_readyPended, Function.update_of_ne hne]
  obtain ⟨-, -, htick, -⟩ := k.readyPended_rest t
  have hstate : ((k.readyPended t).task u).xStateList = (k.task u).xStateList :=
    congrArg Slot.state hslot
  have hwake : ((k.readyPended t).task u).xWakeTime = (k.task u).xWakeTime :=
    congrArg Slot.wake hslot
  rw [isDue, isDue, hstate, hwake, htick]

/-- A walk over different tasks readies those that are due. -/
theorem foldl_unblockDelayed {tasks : List TaskId} (hnodup : tasks.Nodup) :
    tasks.foldl unblockDelayed k = (tasks.filter k.isDue).foldl readyPended k := by
  -- the tasks are different, so unblocking one leaves the others as they were
  induction tasks generalizing k with
  | nil => rfl
  | cons t rest ih =>
      obtain ⟨hfresh, hrest⟩ := List.nodup_cons.mp hnodup
      rw [List.foldl_cons, ih _ hrest]
      by_cases hdue : k.isDue t
      · rw [List.filter_cons_of_pos hdue, List.foldl_cons, unblockDelayed, if_pos hdue]
        have hsame : rest.filter (k.readyPended t).isDue = rest.filter k.isDue := by
          apply List.filter_congr
          intro u hu
          exact isDue_readyPended fun heq => hfresh (heq ▸ hu)
        exact congrArg (fun due => due.foldl readyPended (k.readyPended t)) hsame
      · rw [List.filter_cons_of_neg hdue, unblockDelayed, if_neg hdue]

theorem foldl_readyPended_rest (tasks : List TaskId) :
    (tasks.foldl readyPended k).uxSchedulerSuspended = k.uxSchedulerSuspended ∧
      (tasks.foldl readyPended k).nextTask = k.nextTask ∧ (tasks.foldl readyPended k).xTickCount =
        k.xTickCount ∧
      (tasks.foldl readyPended k).xPendedTicks = k.xPendedTicks := by
  induction tasks generalizing k with
  | nil => exact ⟨rfl, rfl, rfl, rfl⟩
  | cons t rest ih =>
      obtain ⟨hsuspended, hnext, htick, hpended⟩ := k.readyPended_rest t
      have hrest := ih (k.readyPended t)
      rw [hsuspended, hnext, htick, hpended] at hrest
      exact hrest

theorem foldl_readyPended_pending {tasks : List TaskId} (hnil : k.xPendingReadyList = []) :
    (tasks.foldl readyPended k).xPendingReadyList = [] := by
  induction tasks generalizing k with
  | nil => exact hnil
  | cons t rest ih =>
      refine ih _ ?_
      rw [readyPended_eq]
      generalize (k.task t).xEventList = list
      rcases list with _ | _ | _ | _
      · exact hnil
      · exact hnil
      · exact hnil
      · simp [eraseEvent, setEventList, eventList, modTask, hnil]

/-- Tasks become ready in the same way at any depth of suspension. -/
theorem foldl_readyPended_suspended (tasks : List TaskId) (n : Nat) :
    tasks.foldl readyPended { k with uxSchedulerSuspended := n } =
      { tasks.foldl readyPended k with uxSchedulerSuspended := n } := by
  induction tasks generalizing k with
  | nil => rfl
  | cons t rest ih =>
      have hstep : readyPended { k with uxSchedulerSuspended := n } t =
          { k.readyPended t with uxSchedulerSuspended := n } := by
        rw [readyPended_eq, readyPended_eq]
        dsimp only
        generalize (k.task t).xEventList = list
        rcases list with _ | _ | _ | _ <;> rfl
      rw [List.foldl_cons, hstep, ih, List.foldl_cons]

/-- A resumption when no task waits in the pending list. -/
theorem xTaskResumeAll_of_nil {k : State α} (hnil : k.xPendingReadyList = []) :
    k.xTaskResumeAll =
      if k.uxSchedulerSuspended - 1 = 0 then
        { xTaskIncrementTick^[k.xPendedTicks] { k with
          uxSchedulerSuspended := k.uxSchedulerSuspended - 1 } with
          xPendedTicks := 0 }
      else { k with uxSchedulerSuspended := k.uxSchedulerSuspended - 1 } := by
  have hnone (tasks : List TaskId) (htasks : tasks = []) (k : State α) :
      tasks.foldl readyPended k = k := by
    rw [htasks]
    rfl
  unfold xTaskResumeAll
  dsimp only
  rw [hnone _ hnil]

/-- The slots after a tick that is not pended. -/
theorem slot_xTaskIncrementTick {k : State α}
    (hunspawned : ∀ t, k.nextTask ≤ t → (k.slot t).state = .absent)
    (hzero : k.uxSchedulerSuspended = 0) (u : TaskId) :
    k.xTaskIncrementTick.slot u = (k.slot u).ticked ((k.xTickCount + 1) % tickModulus) := by
  have hfold (k : State α) (hunspawned : ∀ t, k.nextTask ≤ t → (k.slot t).state = .absent)
      (u : TaskId) : ((List.range k.nextTask).foldl unblockDelayed k).slot u =
        if (k.slot u).state = .delayed ∧ (k.slot u).wake ≤ k.xTickCount then
          (k.slot u).setState .ready
        else k.slot u := by
    rw [foldl_unblockDelayed k List.nodup_range, slot_foldl_readyPended]
    refine if_congr ?_ rfl rfl
    simp only [List.mem_filter, List.mem_range, isDue, decide_eq_true_eq]
    refine ⟨fun hdue => hdue.2, fun hdue => ⟨?_, hdue⟩⟩
    by_contra hge
    have habsent := hunspawned u (Nat.le_of_not_lt hge)
    rw [hdue.1] at habsent
    cases habsent
  unfold xTaskIncrementTick Slot.ticked
  rw [if_pos hzero]
  dsimp only
  split
  next =>
    refine hfold _ (fun t ht => ?_) u
    rw [slot_taskSwitchDelayedLists]
    simp only [Slot.switched, Slot.setState]
    have habsent :
        (State.slot { k with xTickCount := (k.xTickCount + 1) % tickModulus } t).state = .absent :=
      hunspawned t ht
    rw [habsent]
  next => exact hfold { k with xTickCount := (k.xTickCount + 1) % tickModulus } hunspawned u

theorem tickCount_xTaskIncrementTick {k : State α} (hzero : k.uxSchedulerSuspended = 0) :
    k.xTaskIncrementTick.xTickCount = (k.xTickCount + 1) % tickModulus := by
  rw [xTaskIncrementTick, if_pos hzero]
  dsimp only
  rw [foldl_unblockDelayed _ List.nodup_range, (foldl_readyPended_rest _ _).2.2.1]
  split <;> rfl

end State

end SimulatedLinux.Kernel
