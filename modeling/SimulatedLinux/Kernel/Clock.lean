import SimulatedLinux.Kernel.Calls

/-! # The clock

`xTickCount` wraps and `xNumOfOverflows` counts how often. Together they are the time
since the scheduler was started, which only ticks move.
-/

namespace SimulatedLinux.Kernel

variable {α : Type}

namespace State

/-- The tick count, and how often it has wrapped. -/
def clock (k : State α) : Nat × Nat := (k.xTickCount, k.xNumOfOverflows)

/-- The number of ticks since the scheduler was started. -/
def time (k : State α) : Nat := k.xNumOfOverflows * tickModulus + k.xTickCount

variable (k : State α) (t : TaskId)

theorem time_of_clock {k k' : State α} (hclock : k'.clock = k.clock) : k'.time = k.time := by
  simp only [clock, Prod.mk.injEq] at hclock
  rw [time, time, hclock.1, hclock.2]

@[simp] theorem clock_setEventList (list : EventList) (tasks : List TaskId) :
    (k.setEventList list tasks).clock = k.clock := by
  cases list <;> rfl

@[simp] theorem clock_removeEventItem : (k.removeEventItem t).clock = k.clock := by
  unfold removeEventItem
  split
  · rfl
  · exact clock_setEventList k _ _

@[simp] theorem clock_xTaskRemoveFromEventList (list : EventList) :
    (k.xTaskRemoveFromEventList list).clock = k.clock := by
  unfold xTaskRemoveFromEventList
  split
  · rfl
  · dsimp only
    split <;> exact clock_setEventList k _ _

@[simp] theorem clock_wakeFirst (list : EventList) : (k.wakeFirst list).clock = k.clock := by
  unfold wakeFirst
  split
  · rfl
  · exact clock_xTaskRemoveFromEventList k list

@[simp] theorem clock_wakeLocked (list : EventList) (count : Nat) :
    (k.wakeLocked list count).clock = k.clock := by
  induction count generalizing k with
  | zero => rfl
  | succ count ih =>
      unfold wakeLocked
      split
      · rfl
      · rw [ih, clock_xTaskRemoveFromEventList]

theorem clock_foldl {f : State α → TaskId → State α} (hf : ∀ k t, (f k t).clock = k.clock)
    (tasks : List TaskId) : (tasks.foldl f k).clock = k.clock := by
  induction tasks generalizing k with
  | nil => rfl
  | cons t rest ih => rw [List.foldl_cons, ih, hf]

theorem clock_unblockDelayed : (k.unblockDelayed t).clock = k.clock := by
  unfold unblockDelayed
  split
  · exact clock_removeEventItem k t
  · rfl

@[simp] theorem clock_xTaskPriorityInherit (holder : Option TaskId) :
    (k.xTaskPriorityInherit holder).clock = k.clock := by
  unfold xTaskPriorityInherit
  split
  · rfl
  · dsimp only
    split <;> rfl

@[simp] theorem clock_vTaskPlaceOnEventList (list : EventList) (xTicksToWait : Nat) :
    (k.vTaskPlaceOnEventList list xTicksToWait).clock = k.clock :=
  clock_setEventList k list _

theorem clock_xTaskPriorityDisinherit {k' : State α} {holder : Option TaskId}
    (hdone : k.xTaskPriorityDisinherit holder = some k') : k'.clock = k.clock := by
  unfold xTaskPriorityDisinherit at hdone
  split at hdone
  · cases hdone
    rfl
  · split at hdone
    · dsimp only at hdone
      split at hdone <;> cases hdone <;> rfl
    · simp at hdone

theorem clock_prvCopyDataToQueue {k' : State α} {q : QueueId} {item : Option α}
    (hcopy : k.prvCopyDataToQueue q item = some k') : k'.clock = k.clock := by
  unfold prvCopyDataToQueue at hcopy
  split at hcopy
  · split at hcopy
    · obtain ⟨k₁, hdone, rfl⟩ := Option.map_eq_some_iff.mp hcopy
      have hclock := clock_xTaskPriorityDisinherit k hdone
      exact hclock
    · cases hcopy
      rfl
  · cases hcopy
    rfl

theorem clock_takeCount (q : QueueId) : (k.takeCount q).clock = k.clock := by
  unfold takeCount
  dsimp only
  split <;> rfl

theorem clock_failOrWait (frame : Frame α) : (k.failOrWait t frame).clock = k.clock := by
  unfold failOrWait
  dsimp only
  split <;> rfl

theorem clock_attempt (frame : Frame α) : (k.attempt t frame).clock = k.clock := by
  unfold attempt
  split
  · unfold xQueueGenericSend
    dsimp only
    split
    · split
      · rfl
      next hcopy =>
        have hclock := clock_prvCopyDataToQueue k hcopy
        exact (clock_wakeFirst _ _).trans hclock
    · exact clock_failOrWait k t frame
  · unfold xQueueReceive
    dsimp only
    split
    · exact clock_wakeFirst _ _
    · exact clock_failOrWait k t frame
  · unfold xQueueSemaphoreTake
    dsimp only
    split
    · exact (clock_wakeFirst _ _).trans (clock_takeCount k _)
    · exact clock_failOrWait k t frame

theorem clock_enter (api : Api α) : (k.enter t api).clock = k.clock := by
  unfold enter
  cases api.unlocks <;> cases api.request <;> rfl

theorem clock_afterResume (frame : Frame α) (after : AfterUnlock) :
    (k.afterResume t frame after).clock = k.clock := by
  unfold afterResume
  split <;> rfl

/-! ## Ticks -/

/-- The tick count has 32 bits. -/
def ClockOk (k : State α) : Prop := k.xTickCount < tickModulus

theorem clockOk_of_clock {k k' : State α} (hclock : k'.clock = k.clock) (hok : k.ClockOk) :
    k'.ClockOk := by
  simp only [clock, Prod.mk.injEq] at hclock
  rw [ClockOk, hclock.1]
  exact hok

/-- The time after a tick that is not pended. -/
theorem time_xTaskIncrementTick {k : State α} (hok : k.ClockOk) :
    k.xTaskIncrementTick.ClockOk ∧ k.time ≤ k.xTaskIncrementTick.time := by
  unfold xTaskIncrementTick
  split
  · dsimp only
    have hfold (k : State α) : ((List.range k.nextTask).foldl unblockDelayed k).clock = k.clock :=
      clock_foldl k clock_unblockDelayed _
    split
    next hzero =>
      refine ⟨clockOk_of_clock (hfold _) (Nat.mod_lt _ (by decide)), ?_⟩
      rw [time_of_clock (hfold _)]
      have hlast : k.xTickCount + 1 = tickModulus := by
        rw [ClockOk] at hok
        by_contra hne
        rw [Nat.mod_eq_of_lt (by omega)] at hzero
        omega
      simp only [time, taskSwitchDelayedLists, hzero, Nat.succ_mul]
      omega
    next hne =>
      refine ⟨clockOk_of_clock (hfold _) (Nat.mod_lt _ (by decide)), ?_⟩
      rw [time_of_clock (hfold _)]
      have hlt : k.xTickCount + 1 < tickModulus := by
        rw [ClockOk] at hok
        by_contra hge
        exact hne (by rw [show k.xTickCount + 1 = tickModulus by omega, Nat.mod_self])
      simp only [time, Nat.mod_eq_of_lt hlt]
      omega
  · exact ⟨hok, Nat.le_refl _⟩

theorem time_xTaskResumeAll {k : State α} (hok : k.ClockOk) :
    k.xTaskResumeAll.ClockOk ∧ k.time ≤ k.xTaskResumeAll.time := by
  have hticks (n : Nat) (k : State α) (hok : k.ClockOk) :
      (xTaskIncrementTick^[n] k).ClockOk ∧ k.time ≤ (xTaskIncrementTick^[n] k).time := by
    induction n generalizing k with
    | zero => exact ⟨hok, Nat.le_refl _⟩
    | succ n ih =>
        obtain ⟨hok', hle⟩ := time_xTaskIncrementTick hok
        obtain ⟨hok'', hle'⟩ := ih _ hok'
        exact ⟨hok'', Nat.le_trans hle hle'⟩
  have hready (k : State α) (t : TaskId) : (k.readyPended t).clock = k.clock :=
    clock_removeEventItem k t
  unfold xTaskResumeAll
  dsimp only
  split
  · have hclock := clock_foldl { k with uxSchedulerSuspended := k.uxSchedulerSuspended - 1 } hready
      k.xPendingReadyList
    obtain ⟨hok', hle⟩ := hticks _ _ (clockOk_of_clock hclock hok)
    refine ⟨hok', ?_⟩
    rw [time_of_clock hclock] at hle
    exact hle
  · exact ⟨hok, Nat.le_refl _⟩

/-- Only a step that resumes the scheduler moves the clock. -/
theorem clock_runFrame (frame : Frame α) (hpc : ∀ after, frame.pc ≠ .resumeAll after) :
    (k.runFrame t frame).clock = k.clock := by
  unfold runFrame
  dsimp only
  split
  · rfl
  · split
    next => split <;> rfl
    next => exact clock_attempt k t frame
    next => rfl
    next => rfl
    next => rfl
    next =>
      split
      · split <;> rfl
      · rfl
    next => exact clock_xTaskPriorityInherit k _
    next => exact clock_vTaskPlaceOnEventList k frame.waitList frame.xTicksToWait
    next => exact clock_wakeLocked k _ _
    next => exact clock_wakeLocked k _ _
    next after hresume => exact absurd hresume (hpc after)
    next => split <;> rfl
    next res _ =>
      unfold leave
      cases frame.api.locks <;> cases res <;> rfl

theorem time_runFrame {k : State α} (hok : k.ClockOk) (t : TaskId) (frame : Frame α) :
    (k.runFrame t frame).ClockOk ∧ k.time ≤ (k.runFrame t frame).time := by
  by_cases hpc : ∃ after, frame.pc = .resumeAll after
  · obtain ⟨after, hpc⟩ := hpc
    obtain ⟨hok', hle⟩ := time_xTaskResumeAll hok
    unfold runFrame afterResume
    simp only [hpc, Pc.touchesQueue, Bool.false_and, Bool.false_eq_true, if_false]
    split <;> exact ⟨hok', hle⟩
  · have hclock := clock_runFrame k t frame (not_exists.mp hpc)
    exact ⟨clockOk_of_clock hclock hok, Nat.le_of_eq (time_of_clock hclock).symm⟩

theorem time_perform {k k' : State α} {act : Act α} (hok : k.ClockOk)
    (hstep : k.perform act = some k') :
    k'.ClockOk ∧ k.time ≤ k'.time := by
  have hsame {k' : State α} (hclock : k'.clock = k.clock) : k'.ClockOk ∧ k.time ≤ k'.time :=
    ⟨clockOk_of_clock hclock hok, Nat.le_of_eq (time_of_clock hclock).symm⟩
  unfold perform at hstep
  split at hstep
  next => simp at hstep
  next => simp at hstep
  next t api =>
    cases hstep
    unfold enter
    cases api.unlocks <;> cases api.request <;> exact hsame rfl
  next => split at hstep <;> cases hstep <;> exact hsame rfl
  next => split at hstep <;> cases hstep <;> exact hsame rfl
  next => split at hstep <;> cases hstep <;> exact hsame rfl
  next t =>
    cases hstep
    unfold vTaskDelete
    split
    · exact hsame (clock_removeEventItem k t)
    · exact hsame rfl
  next =>
    cases hstep
    unfold prvCheckTasksWaitingTermination
    split <;> exact hsame rfl
  next t n =>
    split at hstep <;> cases hstep
    · unfold vTaskDelay
      split
      · exact hsame rfl
      · have hok' : (k.vTaskSuspendAll.prvAddCurrentTaskToDelayedList n false).ClockOk := hok
        exact time_xTaskResumeAll hok'
    · exact hsame rfl
  next =>
    cases hstep
    exact hsame rfl
  next =>
    split at hstep <;> cases hstep
    · exact hsame rfl
    · exact time_xTaskResumeAll hok

/-- No step turns the clock back. -/
theorem time_step {k k' : State α} {act : Act α} (hok : k.ClockOk) (hstep : k.step act = some k') :
    k'.ClockOk ∧ k.time ≤ k'.time := by
  unfold step at hstep
  split at hstep
  · split at hstep <;> cases hstep
    exact time_xTaskIncrementTick hok
  next t _ =>
    have hswitched : (k.switchTo t).ClockOk := hok
    split at hstep
    · split at hstep
      next =>
        cases hstep
        exact ⟨(time_runFrame hswitched t _).1, (time_runFrame hswitched t _).2⟩
      next => simp at hstep
      next =>
        have hperform := time_perform hswitched hstep
        exact hperform
    · simp at hstep

end State

theorem Booted.clockOk {k : State α} (hbooted : Booted k) : k.ClockOk := by
  obtain ⟨uxMainPriority, hreach⟩ := hbooted
  refine hreach.invariant State.ClockOk (Nat.two_pow_pos 32) fun _ _ _ hok _ hstep =>
    (State.time_step hok hstep).1

end SimulatedLinux.Kernel
