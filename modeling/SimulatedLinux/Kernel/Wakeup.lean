import SimulatedLinux.Kernel.Placement

/-! # Sleeping tasks wake on time

A task that enters `vTaskDelay` for `n` ticks is ready from the `n`-th increment of the tick count
on, and not before, however often the count wraps and however many ticks were pended while the
scheduler was suspended. The task enters `vTaskDelay` when it suspends the scheduler there: an
interrupt that comes between the call and that store is one before the call.
-/

namespace SimulatedLinux.Kernel

variable {α : Type}

/-! ## One sleeper -/

/-- The slot of a task that sleeps until the time `d`. A wake time in the overflow list is one of
the next round of the tick count. -/
def Slot.Due (slot : Slot) (xTickCount time d : Nat) : Prop :=
  time < d ∧ (slot.state = .delayed ∧ d + xTickCount = time + slot.wake ∨
    slot.state = .overflowDelayed ∧ d + xTickCount = time + slot.wake + tickModulus) ∨
  d ≤ time ∧ slot.state = .ready

namespace Slot

variable {slot slot' : Slot} {xTickCount time d : Nat}

theorem Due.rests (h : slot.Due xTickCount time d) (hrests : slot.Rests slot') :
    slot'.Due xTickCount time d := by
  unfold Due
  rw [hrests.state, hrests.wake]
  exact h

theorem Due.ticked (h : slot.Due xTickCount time d) (hclock : xTickCount < tickModulus)
    (htimely : slot.Timely xTickCount) :
    (slot.ticked ((xTickCount + 1) % tickModulus)).Due ((xTickCount + 1) % tickModulus)
      (time + 1) d := by
  have hcases := tick_cases hclock
  rw [ticked_cases hclock htimely]
  rcases h with ⟨hlt, ⟨hstate, hdue⟩ | ⟨hstate, hdue⟩⟩ | ⟨hle, hstate⟩
  · obtain ⟨hlater, hwake⟩ := htimely.delayed hstate
    simp only [hstate]
    split
    next heq => exact .inr ⟨by omega, rfl⟩
    next hne => exact .inl ⟨by omega, .inl ⟨hstate, by omega⟩⟩
  · have hwake := htimely.overflow hstate
    simp only [hstate]
    split
    next hlast =>
      split
      next hzero => exact .inr ⟨by omega, rfl⟩
      next hpos => exact .inl ⟨by omega, .inl ⟨rfl, by simp only [setState]; omega⟩⟩
    next hnot => exact .inl ⟨by omega, .inr ⟨hstate, by omega⟩⟩
  · simp only [hstate]
    exact .inr ⟨by omega, hstate⟩

theorem Due.elapsed (h : slot.Due xTickCount time d) (hclock : xTickCount < tickModulus)
    (htimely : slot.Timely xTickCount) (n : Nat) :
    (slot.elapsed xTickCount n).Due ((xTickCount + n) % tickModulus) (time + n) d := by
  -- each of the ticks counts by itself, also where the count wraps in the middle
  induction n generalizing slot xTickCount time with
  | zero =>
      rw [Nat.add_zero, Nat.mod_eq_of_lt hclock]
      exact h
  | succ n ih =>
      have hnext := ih (h.ticked hclock htimely) (Nat.mod_lt _ (Nat.two_pow_pos 32))
        (htimely.ticked hclock)
      rw [Nat.mod_add_mod, Nat.add_right_comm, Nat.add_assoc, Nat.add_right_comm, Nat.add_assoc]
        at hnext
      exact hnext

/-- A task in the overflow list has been there since the last wrap of the tick count. -/
theorem elapsed_overflow (hclock : xTickCount < tickModulus) (htimely : slot.Timely xTickCount)
    (n : Nat) (hstate : (slot.elapsed xTickCount n).state = .overflowDelayed) :
    slot.state = .overflowDelayed ∧ (slot.elapsed xTickCount n).wake = slot.wake := by
  induction n generalizing slot xTickCount with
  | zero => exact ⟨hstate, rfl⟩
  | succ n ih =>
      obtain ⟨hticked, hwake⟩ :=
        ih (Nat.mod_lt _ (Nat.two_pow_pos 32)) (htimely.ticked hclock) hstate
      rw [Slot.elapsed, hwake]
      rw [ticked_cases hclock htimely] at hticked ⊢
      split at hticked
      next hdelayed =>
        split at hticked
        · cases hticked
        · cases hdelayed.symm.trans hticked
      next hoverflow =>
        refine ⟨hoverflow, ?_⟩
        split
        · split <;> rfl
        · rfl
      next => exact ⟨hticked, rfl⟩

end Slot

/-- The slot of a task that has just blocked for a number of ticks. -/
theorem State.delayedSlot_due {k : State α} (hclock : k.ClockOk) (slot : Slot) {n : Nat}
    (hpos : 0 < n) (hlt : n < tickModulus) :
    (k.delayedSlot slot n false).Due k.xTickCount k.time (k.time + n) := by
  have hclock : k.xTickCount < tickModulus := hclock
  unfold delayedSlot
  rw [if_neg (by simp)]
  dsimp only
  rcases Nat.lt_or_ge (k.xTickCount + n) tickModulus with hfits | hwraps
  · rw [Nat.mod_eq_of_lt hfits, if_neg (by omega)]
    exact .inl ⟨by omega, .inl ⟨rfl, by dsimp only; omega⟩⟩
  · rw [Nat.mod_eq_sub_mod hwraps, Nat.mod_eq_of_lt (by omega), if_pos (by omega)]
    exact .inl ⟨by omega, .inr ⟨rfl, by dsimp only; omega⟩⟩

/-! ## Runs -/

/-- The two lists of tasks that wait for a time. -/
def StateList.asleep : StateList → Bool
  | delayed | overflowDelayed => true
  | _ => false

/-- The machine with what an observer of the sleeping tasks writes down: the time at which each of
them is to wake, and the tick count at which it was put in a delayed list. -/
structure Sleepers (α : Type) where
  machine : Machine α
  deadline : TaskId → Option Nat
  inserted : TaskId → Nat

/-- The deadline of a task that has just made a step outside of any routine: it may have entered
`vTaskDelay`, by the store to `uxSchedulerSuspended`. -/
def Machine.entered (M : Machine α) (t : TaskId) : Option Nat :=
  match M.routine t with
  | .delayAdd xTicksToDelay => some (M.k.time + xTicksToDelay)
  | _ => none

/-- The deadlines after a step that led to the given machine. -/
def Sleepers.deadlines (w : Sleepers α) (act : MachineAct α) (M : Machine α) :
    TaskId → Option Nat :=
  match act with
  | .act a =>
      match a.actor with
      | some t => Function.update w.deadline t (M.entered t)
      | none => w.deadline
  | .notifyTake t => Function.update w.deadline t none
  | _ => w.deadline

def Sleepers.step (w : Sleepers α) (act : MachineAct α) : Option (Sleepers α) :=
  (w.machine.step act).map fun M =>
    { machine := M
      deadline := w.deadlines act M
      inserted := fun t =>
        if (M.k.task t).xStateList.asleep && !(w.machine.k.task t).xStateList.asleep then
          M.k.xTickCount
        else w.inserted t }

/-- What is known of a task with a deadline. -/
structure Sleeping (M : Machine α) (t : TaskId) (d : Nat) : Prop where
  frame : (M.k.task t).frame = none
  /-- The task has entered `vTaskDelay` and is not in a delayed list yet, or it has been. -/
  phase : (∃ n, M.routine t = .delayAdd n ∧ d = M.k.time + n) ∨
    (M.routine t = .delayResume ∨ M.routine t = .outside) ∧
    (M.k.slot t).Due M.k.xTickCount M.k.time d

structure SleepersInv (w : Sleepers α) : Prop where
  machine : MachineInv w.machine
  sleeping : ∀ t d, w.deadline t = some d → Sleeping w.machine t d
  inserted : ∀ t, (w.machine.k.slot t).state = .overflowDelayed →
    (w.machine.k.slot t).wake < w.inserted t

/-- While the scheduler is suspended, time stands still unless the running task makes a step. -/
theorem Machine.clock_of_suspended {M M' : Machine α} {act : MachineAct α}
    (hne : M.k.uxSchedulerSuspended ≠ 0) (hactor : act.actor ≠ some M.k.pxCurrentTCB)
    (hstep : M.step act = some M') : M'.k.clock = M.k.clock := by
  have hruns {t : TaskId} (hrun : M.k.canRun t) : M.k.pxCurrentTCB = t :=
    ((M.k.canRun_iff t).mp hrun).2.2 hne
  cases act with
  | act a =>
      simp only [step] at hstep
      split at hstep
      next =>
        split at hstep <;> cases hstep
        rw [xTaskIncrementTick, if_neg hne]
        rfl
      next t ha =>
        split at hstep
        next hrun => exact absurd (hruns hrun.1 ▸ ha) hactor
        next => cases hstep
  | goOn t =>
      simp only [step] at hstep
      split at hstep
      next hrun => exact absurd (congrArg some (hruns hrun).symm) hactor
      next => cases hstep
  | notifyTake t =>
      simp only [step] at hstep
      split at hstep
      next hrun => exact absurd (congrArg some (hruns hrun.1).symm) hactor
      next => cases hstep
  | notifyGive t =>
      simp only [step] at hstep
      split at hstep <;> cases hstep
      unfold vTaskNotifyGiveFromIsr
      dsimp only
      split
      · split <;> rfl
      · rfl
  | switchContext =>
      simp only [step] at hstep
      split at hstep <;> cases hstep
      rw [vTaskSwitchContext, if_pos hne]

namespace Sleeping

variable {M M' : Machine α} {act : MachineAct α} {t : TaskId} {d : Nat}

/-- Only time wakes a task that sleeps. -/
theorem not_awaits (h : Sleeping M t d) (hinv : MachineInv M) : ¬ M.Awaits t := by
  have hdeaf : M.ucNotifyState t ≠ .waiting ∧ t ∉ M.xPendingReadyList := by
    rcases h.phase with ⟨n, hroutine, -⟩ | ⟨hroutine | hroutine, -⟩
    all_goals exact (hinv.tasks t).deaf (by simp [hroutine]) (by rw [hroutine]; rfl)
  rintro (⟨f, hf⟩ | hwait | hmem)
  · cases h.frame.symm.trans hf
  · exact hdeaf.1 hwait
  · exact hdeaf.2 hmem

theorem state (h : Sleeping M t d) (hinv : MachineInv M) :
    (M.k.slot t).state = .ready ∨ (M.k.slot t).state = .delayed ∨
      (M.k.slot t).state = .overflowDelayed := by
  rcases h.phase with ⟨n, hroutine, -⟩ | ⟨-, ⟨-, ⟨hstate, -⟩ | ⟨hstate, -⟩⟩ | ⟨-, hstate⟩⟩
  · exact .inl ((hinv.tasks t).awake (by rw [hroutine]; rfl))
  · exact .inr (.inl hstate)
  · exact .inr (.inr hstate)
  · exact .inl hstate

/-- The next stretch of `vTaskDelay`. -/
theorem goOn (h : Sleeping M t d) (hinv : MachineInv M) (hstep : M.step (.goOn t) = some M') :
    Sleeping M' t d := by
  have hframe := ((hinv.step_on hstep t).frame (by simp [MachineAct.caller])).trans h.frame
  refine ⟨hframe, ?_⟩
  simp only [Machine.step] at hstep
  split at hstep
  next hrun =>
    have hidle : MachineInv.Idle (M.onKernel (·.switchTo t)) t :=
      ⟨hinv.switchTo hrun, MachineInv.canRun_switchTo hrun, rfl, h.frame⟩
    rcases h.phase with ⟨n, hroutine, rfl⟩ | ⟨hroutine | hroutine, hdue⟩
    · have hgo : (M.onKernel (·.switchTo t)).goOn t =
          some (((M.onKernel (·.switchTo t)).prvAddCurrentTaskToDelayedList n false).setRoutine t
              .delayResume) := by
        unfold Machine.goOn
        rw [show (M.onKernel (·.switchTo t)).routine t = .delayAdd n from hroutine]
      rw [hgo] at hstep
      cases hstep
      have hready : (M.k.slot t).state = .ready := (hinv.tasks t).awake (by rw [hroutine]; rfl)
      obtain ⟨hpos, hlt⟩ := (hinv.tasks t).delay n hroutine
      have hk := (hidle.inv.listed.follows_prvAddCurrentTaskToDelayedList hready n false).kernel
      refine .inr ⟨.inl (Machine.routine_setRoutine_self ..), ?_⟩
      rw [Machine.k_setRoutine, hk]
      have hslot := (M.k.switchTo t).slot_prvAddCurrentTaskToDelayedList n false
      change Slot.Due (((M.k.switchTo t).prvAddCurrentTaskToDelayedList n false).slot t)
        M.k.xTickCount M.k.time _
      rw [hslot, show (M.k.switchTo t).pxCurrentTCB = t from rfl, Function.update_self]
      exact State.delayedSlot_due (k := M.k.switchTo t) hinv.clock _ hpos hlt
    · have hgo : (M.onKernel (·.switchTo t)).goOn t =
          some ((M.onKernel (·.switchTo t)).xTaskResumeAll.setRoutine t .outside) := by
        unfold Machine.goOn
        rw [show (M.onKernel (·.switchTo t)).routine t = .delayResume from hroutine]
      rw [hgo] at hstep
      cases hstep
      have hadd : (M.onKernel (·.switchTo t)).routine t ≠ .notifyAdd := by
        change M.routine t ≠ .notifyAdd
        simp [hroutine]
      refine .inr ⟨.inr (Machine.routine_setRoutine_self ..), ?_⟩
      rcases hidle.inv.resumeAll_slot hadd t with ⟨-, hawaits⟩ | ⟨n, hslot, htick, htime⟩
      · exact absurd hawaits (h.not_awaits hinv)
      · rw [Machine.k_setRoutine, hslot, htick, htime]
        exact hdue.elapsed hinv.clock (hinv.timely t) n
    · have hnone : (M.onKernel (·.switchTo t)).goOn t = none := by
        unfold Machine.goOn
        rw [show (M.onKernel (·.switchTo t)).routine t = .outside from hroutine]
      rw [hnone] at hstep
      cases hstep
  next => cases hstep

/-- A step of another task, or of an interrupt. -/
theorem other (h : Sleeping M t d) (hinv : MachineInv M) (hactor : act.actor ≠ some t)
    (hstep : M.step act = some M') : Sleeping M' t d := by
  have hon := hinv.step_on hstep t
  have hcaller : act.caller ≠ some t := by
    cases act with
    | act a => exact hactor
    | _ => simp [MachineAct.caller]
  have hroutine := hon.routine hactor
  refine ⟨(hon.frame hcaller).trans h.frame, ?_⟩
  rw [hroutine]
  rcases h.phase with ⟨n, hadd, rfl⟩ | ⟨hphase, hdue⟩
  · refine .inl ⟨n, hadd, ?_⟩
    obtain ⟨hone, hcurrent⟩ := (hinv.tasks t).window (by rw [hadd]; rfl)
    rw [State.time_of_clock (Machine.clock_of_suspended (by omega) (hcurrent.symm ▸ hactor) hstep)]
  · refine .inr ⟨hphase, ?_⟩
    have hstate := h.state hinv
    cases hon.moved with
    | rests hrests hclock =>
        rw [State.time_of_clock hclock, show M'.k.xTickCount = M.k.xTickCount
            from congrArg Prod.fst hclock]
        exact hdue.rests hrests
    | elapsed n hslot htick htime =>
        rw [hslot, htick, htime]
        exact hdue.elapsed hinv.clock (hinv.timely t) n
    | woken _ hawaits => exact absurd hawaits (h.not_awaits hinv)
    | blocked hact => exact absurd hact hactor
    | spawned hnew =>
        have habsent : (M.k.slot t).state = .absent :=
          hinv.kernel.wait.lists.unspawned t (Nat.le_of_eq hnew.symm)
        simp [habsent] at hstate
    | ended hact => exact absurd (congrArg MachineAct.actor hact) hactor
    | freed _ hfirst =>
        have hdead : (M.k.slot t).state = .waitingTermination :=
          (hinv.kernel.dying.listed t).mp (List.mem_of_mem_take hfirst)
        simp [hdead] at hstate

end Sleeping

namespace SleepersInv

variable {w w' : Sleepers α} {act : MachineAct α}

theorem boot {uxMainPriority : Nat} (hmain : uxMainPriority < configMaxPriorities) :
    SleepersInv (⟨Machine.boot uxMainPriority, fun _ => none, fun _ => 0⟩ : Sleepers α) := by
  have hinv : MachineInv (Machine.boot uxMainPriority : Machine α) := .boot hmain
  refine ⟨hinv, fun t d hd => (by cases hd), fun t hstate => ?_⟩
  exact absurd ((hinv.timely t).overflow hstate) (Nat.not_lt_zero _)

theorem step (h : SleepersInv w) (hok : act.Promised w.machine) (hstep : w.step act = some w') :
    SleepersInv w' := by
  obtain ⟨M, hM, rfl⟩ := Option.map_eq_some_iff.mp hstep
  have hmachine := h.machine.step hok hM
  refine ⟨hmachine, fun t d hd => ?_, fun t hstate => ?_⟩
  · have hstay (hdeadline : w.deadline t = some d) (hactor : act.actor ≠ some t) : Sleeping M t d :=
      (h.sleeping t d hdeadline).other h.machine hactor hM
    cases act with
    | act a =>
        simp only [Sleepers.deadlines] at hd
        cases hu : a.actor with
        | some u =>
          rw [hu] at hd
          dsimp only at hd
          by_cases htu : t = u
          · subst htu
            rw [Function.update_self, Machine.entered] at hd
            split at hd
            next n hroutine =>
              cases hd
              exact ⟨(hmachine.tasks t).frameless (by simp [hroutine]), .inl ⟨n, hroutine, rfl⟩⟩
            next => cases hd
          · rw [Function.update_of_ne htu] at hd
            refine hstay hd fun heq => htu ?_
            exact Option.some.inj (heq.symm.trans hu)
        | none =>
          rw [hu] at hd
          exact hstay hd (by simp [MachineAct.actor, hu])
    | goOn u =>
        by_cases htu : t = u
        · subst htu
          exact (h.sleeping t d hd).goOn h.machine hM
        · exact hstay hd fun heq => htu (Option.some.inj heq).symm
    | notifyTake u =>
        simp only [Sleepers.deadlines] at hd
        by_cases htu : t = u
        · subst htu
          rw [Function.update_self] at hd
          cases hd
        · rw [Function.update_of_ne htu] at hd
          exact hstay hd fun heq => htu (Option.some.inj heq).symm
    | notifyGive u => exact hstay hd (by simp [MachineAct.actor])
    | switchContext => exact hstay hd (by simp [MachineAct.actor])
  · dsimp only at hstate ⊢
    have hasleep : (M.k.task t).xStateList = .overflowDelayed := hstate
    have hkept (hbefore : (w.machine.k.slot t).state = .overflowDelayed)
        (hwake : (M.k.slot t).wake = (w.machine.k.slot t).wake) : (M.k.slot t).wake <
          (if (M.k.task t).xStateList.asleep && !(w.machine.k.task t).xStateList.asleep then
            M.k.xTickCount
          else w.inserted t) := by
      have hold : (w.machine.k.task t).xStateList = .overflowDelayed := hbefore
      rw [hasleep, hold, hwake]
      exact h.inserted t hbefore
    cases (h.machine.step_on hM t).moved with
    | rests hrests => exact hkept (hrests.state.symm.trans hstate) hrests.wake
    | elapsed n hslot =>
        rw [hslot] at hstate
        obtain ⟨hbefore, hwake⟩ :=
          Slot.elapsed_overflow h.machine.clock (h.machine.timely t) n hstate
        exact hkept hbefore (by rw [hslot]; exact hwake)
    | woken hready => cases hready.symm.trans hstate
    | blocked _ hready n forever hslot hclock =>
        have hold : (w.machine.k.task t).xStateList = .ready := hready
        rw [hasleep, hold]
        exact (hmachine.timely t).overflow hstate
    | spawned _ hready => cases hready.symm.trans hstate
    | ended _ _ hdead => cases hdead.symm.trans hstate
    | freed _ _ habsent => cases habsent.symm.trans hstate

end SleepersInv

/-- What holds of the tasks that sleep, in one state. -/
structure Machine.WakeLaw (M : Machine α) (deadline : TaskId → Option Nat)
    (inserted : TaskId → Nat) : Prop where
  /-- A task that has blocked in `vTaskDelay` is in a delayed list until its deadline, and then in
  its ready list. -/
  wakes : ∀ t d, deadline t = some d → (∀ n, M.routine t ≠ .delayAdd n) →
    ((∃ second, t ∈ M.items (.delayedTask second)) ↔ M.k.time < d) ∧
      (t ∈ M.items (.ready (M.k.task t).uxPriority) ↔ d ≤ M.k.time)
  sorted : ∀ second, (M.items (.delayedTask second)).Pairwise fun t u =>
    (M.k.task t).xWakeTime ≤ (M.k.task u).xWakeTime
  later : ∀ t ∈ M.items M.delayedName, M.k.xTickCount < (M.k.task t).xWakeTime
  overflow : ∀ t ∈ M.items M.overflowName, (M.k.task t).xWakeTime < inserted t
  /-- The assertion of `taskSWITCH_DELAYED_LISTS`. -/
  wraps : M.k.xTickCount + 1 = tickModulus → M.items M.delayedName = []

theorem Machine.TickReady.wakeLaw {M : Machine α} (h : M.TickReady) {deadline : TaskId → Option Nat}
    {inserted : TaskId → Nat}
    (hdue : ∀ t d, deadline t = some d → (∀ n, M.routine t ≠ .delayAdd n) →
      (M.k.slot t).Due M.k.xTickCount M.k.time d)
    (hinserted : ∀ t, (M.k.slot t).state = .overflowDelayed → (M.k.slot t).wake < inserted t) :
    M.WakeLaw deadline inserted := by
  have hmem (t : TaskId) : (∃ second, t ∈ M.items (.delayedTask second)) ↔
      (M.k.slot t).state = .delayed ∨ (M.k.slot t).state = .overflowDelayed := by
    constructor
    · rintro ⟨second, hsecond⟩
      have hhome := h.listed.mem.mp hsecond
      by_cases huse : second = M.pxDelayedTaskList
      · subst huse
        exact .inl (Slot.home_delayed.mp hhome)
      · obtain rfl : second = !M.pxDelayedTaskList := Bool.eq_not.mpr huse
        exact .inr (Slot.home_overflow.mp hhome)
    · rintro (hstate | hstate)
      · exact ⟨_, h.listed.mem.mpr (Slot.home_delayed.mpr hstate)⟩
      · exact ⟨_, h.listed.mem.mpr (Slot.home_overflow.mpr hstate)⟩
  have hready (t : TaskId) : t ∈ M.items (.ready (M.k.task t).uxPriority) ↔
      (M.k.slot t).state = .ready :=
    h.listed.mem.trans (Slot.home_ready.trans (and_iff_left rfl))
  refine ⟨fun t d hd hroutine => ?_, h.listed.sorted, fun t ht => ?_, fun t ht => ?_,
    fun hlast => ?_⟩
  · rw [hmem, hready]
    rcases hdue t d hd hroutine with ⟨hlt, hstate⟩ | ⟨hle, hstate⟩
    · refine ⟨iff_of_true (hstate.imp And.left And.left) hlt, iff_of_false ?_ (Nat.not_le.mpr hlt)⟩
      rcases hstate with ⟨hstate, -⟩ | ⟨hstate, -⟩ <;> simp [hstate]
    · refine ⟨iff_of_false ?_ (Nat.not_lt.mpr hle), iff_of_true hstate hle⟩
      simp [hstate]
  · exact ((h.timely t).delayed (h.listed.mem_delayed.mp ht)).1
  · exact hinserted t (Slot.home_overflow.mp (h.listed.mem.mp ht))
  · rw [List.eq_nil_iff_forall_not_mem]
    intro t ht
    exact (h.timely t).not_last hlast (h.listed.mem_delayed.mp ht)

/-- The ticks of a state in which the scheduler is not suspended. -/
theorem Machine.TickReady.wakeLaw_iterate {M : Machine α} (h : M.TickReady)
    (hzero : M.k.uxSchedulerSuspended = 0) {deadline : TaskId → Option Nat}
    {inserted : TaskId → Nat}
    (hdue : ∀ t d, deadline t = some d → (∀ n, M.routine t ≠ .delayAdd n) →
      (M.k.slot t).Due M.k.xTickCount M.k.time d)
      (hinserted : ∀ t, (M.k.slot t).state = .overflowDelayed → (M.k.slot t).wake < inserted t)
      (n : Nat) :
    (Machine.xTaskIncrementTick^[n] M).WakeLaw deadline inserted := by
  obtain ⟨hready, -, haside⟩ := h.iterate n
  simp only [Machine.aside, Prod.mk.injEq] at haside
  refine hready.wakeLaw (fun t d hd hroutine => ?_) fun t hstate => ?_
  · obtain ⟨hslot, htick, htime⟩ := h.iterate_slot hzero n t
    rw [haside.2.2.2] at hroutine
    rw [hslot, htick, htime]
    exact (hdue t d hd hroutine).elapsed h.clock (h.timely t) n
  · obtain ⟨hslot, -, -⟩ := h.iterate_slot hzero n t
    rw [hslot] at hstate ⊢
    obtain ⟨hbefore, hwake⟩ := Slot.elapsed_overflow h.clock (h.timely t) n hstate
    rw [hwake]
    exact hinserted t hbefore

/-- A number of ticks are counted, and the sleeping tasks are as they should be after them. -/
structure Machine.Counts (M : Machine α) (deadline : TaskId → Option Nat) (inserted : TaskId → Nat)
    (n : Nat) : Prop where
  law : (Machine.xTaskIncrementTick^[n] M).WakeLaw deadline inserted
  time : (Machine.xTaskIncrementTick^[n] M).k.time = M.k.time + n
  /-- No assertion fails. -/
  fault : (Machine.xTaskIncrementTick^[n] M).k.fault = M.k.fault

theorem Machine.TickReady.counts {M : Machine α} (h : M.TickReady)
    (hzero : M.k.uxSchedulerSuspended = 0) {deadline : TaskId → Option Nat}
    {inserted : TaskId → Nat}
    (hdue : ∀ t d, deadline t = some d → (∀ n, M.routine t ≠ .delayAdd n) →
      (M.k.slot t).Due M.k.xTickCount M.k.time d)
      (hinserted : ∀ t, (M.k.slot t).state = .overflowDelayed → (M.k.slot t).wake < inserted t)
      (n : Nat) :
    M.Counts deadline inserted n := by
  refine ⟨h.wakeLaw_iterate hzero hdue hinserted n, (h.iterate_slot hzero n 0).2.2, ?_⟩
  have hview (k : State α) : (State.xTaskIncrementTick^[n] k).view = k.view := by
    induction n generalizing k with
    | zero => rfl
    | succ n ih => rw [Function.iterate_succ_apply, ih, State.view_xTaskIncrementTick]
  rw [(h.iterate n).2.1]
  exact congrArg View.fault (hview M.k)

/-- Every tick that is counted, now or when the scheduler resumes, leaves the sleeping tasks as they
should be. -/
structure Sleepers.Law (w : Sleepers α) : Prop where
  now : w.machine.WakeLaw w.deadline w.inserted
  ticks : w.machine.k.uxSchedulerSuspended = 0 → ∀ n, w.machine.Counts w.deadline w.inserted n
  /-- The ticks that `xTaskResumeAll` replays, one after the other. -/
  replayed : w.machine.k.uxSchedulerSuspended = 1 →
    w.machine.routine w.machine.k.pxCurrentTCB ≠ .notifyAdd → w.machine.unsuspended.k.time =
      w.machine.k.time ∧ ∀ n, w.machine.unsuspended.Counts w.deadline w.inserted n

namespace SleepersInv

variable {w : Sleepers α}

theorem due (h : SleepersInv w) {t : TaskId} {d : Nat} (hd : w.deadline t = some d)
    (hroutine : ∀ n, w.machine.routine t ≠ .delayAdd n) :
    (w.machine.k.slot t).Due w.machine.k.xTickCount w.machine.k.time d := by
  rcases (h.sleeping t d hd).phase with ⟨n, hadd, -⟩ | ⟨-, hdue⟩
  · exact absurd hadd (hroutine n)
  · exact hdue

theorem law (h : SleepersInv w) : w.Law := by
  have hready := h.machine.tickReady
  refine ⟨hready.wakeLaw (fun t d hd => h.due hd) h.inserted, fun hzero => ?_, fun hone hadd => ?_⟩
  · exact hready.counts hzero (fun t d hd => h.due hd) h.inserted
  · obtain ⟨hready', hk, haside⟩ :=
      hready.unsuspended h.machine.nodup (h.machine.pended_suspended hadd)
    simp only [Machine.aside, Prod.mk.injEq] at haside
    have hclock : w.machine.unsuspended.k.clock = w.machine.k.clock := by
      rw [hk]
      exact w.machine.roused_clock
    have hslot (t : TaskId) : w.machine.unsuspended.k.slot t = w.machine.roused.slot t := by
      rw [hk]
      rfl
    have htime := State.time_of_clock hclock
    refine ⟨htime, hready'.counts ?_ (fun t d hd hroutine => ?_) fun t hstate => ?_⟩
    · rw [hk]
      change w.machine.k.uxSchedulerSuspended - 1 = 0
      rw [hone]
    · have hfree : t ∉ w.machine.xPendingReadyList :=
        fun hmem => (h.sleeping t d hd).not_awaits h.machine (.inr (.inr hmem))
      rw [hslot, w.machine.roused_slot, if_neg fun hmem => hfree hmem.2, htime,
        show w.machine.unsuspended.k.xTickCount = w.machine.k.xTickCount
          from congrArg Prod.fst hclock]
      refine h.due hd fun n => ?_
      rw [← haside.2.2.2]
      exact hroutine n
    · rw [hslot, w.machine.roused_slot] at hstate ⊢
      split at hstate
      next => cases hstate
      next hnot =>
        rw [if_neg hnot]
        exact h.inserted t hstate

end SleepersInv

/-- Sleeping tasks wake exactly at their deadline. -/
theorem sleepers_wake_exactly {w : Sleepers α} {uxMainPriority : Nat}
    (hmain : uxMainPriority < configMaxPriorities)
    (hreach : Lib.Reach Sleepers.step (fun w act => act.Promised w.machine)
      ⟨Machine.boot uxMainPriority, fun _ => none, fun _ => 0⟩ w) : w.Law := by
  have hinv : SleepersInv w :=
    hreach.invariant SleepersInv (.boot hmain) fun _ _ _ hinv hok hstep => hinv.step hok hstep
  exact hinv.law

/-- Two tasks sleep, one of them until the tick count has wrapped. A tick is pended when the other
resumes the scheduler. -/
def sleepSchedule : List (MachineAct Unit) :=
  [.act .tick, .act (.spawn 1 2), .act (.delay 2 (2 ^ 32 - 1)), .goOn 2, .goOn 2, .act (.delay 1 3),
    .goOn 1, .act .tick, .goOn 1, .act .tick, .act .tick]

def Sleepers.check (w : Sleepers Unit) (act : MachineAct Unit) : Bool := machineCheck w.machine act

theorem Sleepers.check_promised (w : Sleepers Unit) (act : MachineAct Unit) (hcheck : w.check act) :
    act.Promised w.machine :=
  machineCheck_promised w.machine act hcheck

theorem sleepers_wake_exactly_schedule :
    ∃ w : Sleepers Unit,
      Lib.execute Sleepers.step Sleepers.check ⟨Machine.boot 1, fun _ => none, fun _ => 0⟩
        sleepSchedule = some w ∧
        (w.machine.k.time, w.deadline 1, w.deadline 2, w.machine.items (.ready 1),
          w.machine.items w.machine.overflowName) =
          (4, some 4, some (2 ^ 32), [1], [2]) ∧ w.Law := by
  have hrun :
      (Lib.execute Sleepers.step Sleepers.check ⟨Machine.boot 1, fun _ => none, fun _ => 0⟩
        sleepSchedule).map (fun w =>
          (w.machine.k.time, w.deadline 1, w.deadline 2, w.machine.items (.ready 1),
            w.machine.items w.machine.overflowName)) =
              some (4, some 4, some (2 ^ 32), [1], [2]) := by
    decide +kernel
  obtain ⟨w, hw, hend⟩ := Option.map_eq_some_iff.mp hrun
  refine ⟨w, hw, hend,
    sleepers_wake_exactly ?_ (Lib.execute_reach Sleepers.check_promised sleepSchedule hw)⟩
  decide

end SimulatedLinux.Kernel
