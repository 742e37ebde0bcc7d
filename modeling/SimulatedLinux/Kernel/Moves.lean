import SimulatedLinux.Kernel.MachineStep

/-! # What a step does to a task

Between two of its own steps a task can only be woken or see time pass. Every result about a task
over a whole run rests on the cases listed here.
-/

namespace SimulatedLinux.Kernel

variable {α : Type}

/-- The task that makes a step. -/
def MachineAct.actor : MachineAct α → Option TaskId
  | act a => a.actor
  | goOn t | notifyTake t => some t
  | notifyGive _ | switchContext => none

/-- The task that may enter or leave a blocking function. -/
def MachineAct.caller : MachineAct α → Option TaskId
  | act a => a.actor
  | _ => none

/-- A task that something else than the passing of time may wake. -/
def Machine.Awaits (M : Machine α) (u : TaskId) : Prop :=
  (∃ f, (M.k.task u).frame = some f) ∨ M.ucNotifyState u = .waiting ∨ u ∈ M.xPendingReadyList

/-- What a step does to the state item of a task, and to the time. -/
inductive Moved (M M' : Machine α) (act : MachineAct α) (u : TaskId) : Prop
  | rests (hrests : (M.k.slot u).Rests (M'.k.slot u)) (hclock : M'.k.clock = M.k.clock)
  | elapsed (n : Nat) (hslot : M'.k.slot u = (M.k.slot u).elapsed M.k.xTickCount n)
      (htick : M'.k.xTickCount = (M.k.xTickCount + n) % tickModulus)
      (htime : M'.k.time = M.k.time + n)
  | woken (hstate : (M'.k.slot u).state = .ready) (hawaits : M.Awaits u)
  | blocked (hactor : act.actor = some u) (hready : (M.k.slot u).state = .ready)
    (xTicksToWait : Nat) (forever : Bool)
      (hslot : M'.k.slot u = M.k.delayedSlot (M.k.slot u) xTicksToWait forever)
      (hclock : M'.k.clock = M.k.clock)
  | spawned (hnew : u = M.k.nextTask) (hstate : (M'.k.slot u).state = .ready)
  | ended (hact : act = .act (.exit u)) (hready : (M.k.slot u).state = .ready)
      (hstate : (M'.k.slot u).state = .waitingTermination)
  | freed {t : TaskId} (hact : act = .act (.reap t))
    (hfirst : u ∈ M.k.xTasksWaitingTermination.take 1)
      (hstate : (M'.k.slot u).state = .absent)

/-- What a step does to a task. -/
structure StepOn (M M' : Machine α) (act : MachineAct α) (u : TaskId) : Prop where
  moved : Moved M M' act u
  frame : act.caller ≠ some u → (M'.k.task u).frame = (M.k.task u).frame
  routine : act.actor ≠ some u → M'.routine u = M.routine u
  born : M'.k.nextTask = M.k.nextTask ∨
    M'.k.nextTask = M.k.nextTask + 1 ∧ (u = M.k.nextTask → (M'.k.slot u).state = .ready)

namespace StepOn

variable {M M' : Machine α} {act : MachineAct α} {t u : TaskId}

theorem of_switchTo (h : StepOn (M.onKernel (·.switchTo t)) M' act u) : StepOn M M' act u := by
  refine ⟨?_, h.frame, h.routine, h.born⟩
  cases h.moved with
  | rests hrests hclock => exact .rests hrests hclock
  | elapsed n hslot htick htime => exact .elapsed n hslot htick htime
  | woken hstate hawaits => exact .woken hstate hawaits
  | blocked hactor hready n forever hslot hclock =>
      exact .blocked hactor hready n forever hslot hclock
  | spawned hnew hstate => exact .spawned hnew hstate
  | ended hact hready hstate => exact .ended hact hready hstate
  | freed hact hfirst hstate => exact .freed hact hfirst hstate

/-- The tasks and the time stay as they are. -/
theorem of_task (htask : M'.k.task u = M.k.task u) (hclock : M'.k.clock = M.k.clock)
    (hnext : M'.k.nextTask = M.k.nextTask)
    (hroutine : act.actor ≠ some u → M'.routine u = M.routine u) : StepOn M M' act u :=
  ⟨.rests (.of_eq (congrArg Task.slot htask)) hclock, fun _ => by rw [htask], hroutine, .inl hnext⟩

end StepOn

namespace MachineInv

variable {M M' : Machine α} {t : TaskId}

/-! ## Interrupts -/

theorem tick_on (h : MachineInv M) (act : MachineAct α) (u : TaskId) :
    StepOn M M.xTaskIncrementTick act u := by
  have hready := h.tickReady
  obtain ⟨-, hk, haside⟩ := hready.xTaskIncrementTick_eq
  simp only [Machine.aside, Prod.mk.injEq] at haside
  have hview := State.view_xTaskIncrementTick M.k
  rw [← hk] at hview
  refine ⟨?_, fun _ => congrFun (congrArg View.frame hview) u, fun _ => congrFun haside.2.2.2 u,
    .inl (congrArg View.nextTask hview)⟩
  · by_cases hzero : M.k.uxSchedulerSuspended = 0
    · obtain ⟨hslot, htick, htime⟩ := hready.iterate_slot hzero 1 u
      exact .elapsed 1 hslot htick htime
    · rw [Machine.xTaskIncrementTick, if_neg hzero]
      exact .rests (.refl _) rfl

theorem notifies_on (M : Machine α) (t : TaskId) (act : MachineAct α) (u : TaskId) :
    StepOn M (M.vTaskNotifyGiveFromIsr t) act u := by
  unfold Machine.vTaskNotifyGiveFromIsr
  dsimp only
  split
  next hwait =>
    split
    next => exact .of_task rfl rfl rfl fun _ => rfl
    next =>
      split
      next hzero =>
        have hslot := M.k.slot_prvAddTaskToReadyList t
        have hview : (M.k.prvAddTaskToReadyList t).view = M.k.view :=
          State.view_prvAddTaskToReadyList ..
        refine ⟨?_, fun _ => congrFun (congrArg View.frame hview) u, fun _ => rfl,
          .inl (congrArg View.nextTask hview)⟩
        by_cases hu : u = t
        · subst hu
          refine .woken ?_ (.inr (.inl hwait))
          change ((M.k.prvAddTaskToReadyList u).slot u).state = .ready
          rw [hslot, Function.update_self]
          rfl
        · refine .rests (.of_eq ?_) rfl
          change (M.k.prvAddTaskToReadyList t).slot u = M.k.slot u
          rw [hslot, Function.update_of_ne hu]
      next => exact .of_task rfl rfl rfl fun _ => rfl
  next => exact .of_task rfl rfl rfl fun _ => rfl

theorem switches_on (M : Machine α) (act : MachineAct α) (u : TaskId) :
    StepOn M M.vTaskSwitchContext act u := by
  unfold Machine.vTaskSwitchContext
  split
  next => exact .of_task rfl rfl rfl fun _ => rfl
  next =>
    dsimp only
    split <;> exact .of_task rfl rfl rfl fun _ => rfl

/-! ## Steps of a blocking function -/

/-- A resumption wakes a task that is pended, and replays ticks. -/
theorem resumeAll_slot (h : MachineInv M) (hroutine : M.routine M.k.pxCurrentTCB ≠ .notifyAdd)
    (u : TaskId) :
    (M.xTaskResumeAll.k.slot u).state = .ready ∧ M.Awaits u ∨
      ∃ n, M.xTaskResumeAll.k.slot u = (M.k.slot u).elapsed M.k.xTickCount n ∧
        M.xTaskResumeAll.k.xTickCount = (M.k.xTickCount + n) % tickModulus ∧
        M.xTaskResumeAll.k.time = M.k.time + n := by
  obtain ⟨n, hslot, htick, htime⟩ :=
    h.tickReady.xTaskResumeAll_slot h.nodup (h.pended_suspended hroutine) u
  rw [M.roused_slot] at hslot
  split at hslot
  next hmem =>
    rw [Slot.elapsed_still (by simp [Slot.setState]) (by simp [Slot.setState])] at hslot
    exact .inl ⟨by rw [hslot]; rfl, .inr (.inr hmem.2)⟩
  next => exact .inr ⟨n, hslot, htick, htime⟩

theorem runFrame_on (h : MachineInv M) (hrun : M.k.canRun t) (hcurrent : M.k.pxCurrentTCB = t)
    {frame : Frame α} (hframe : (M.k.task t).frame = some frame) (u : TaskId) :
    StepOn M (M.runFrame t frame) (.act (.run t)) u := by
  have hready := h.frameReady hrun hcurrent hframe
  have hroutine := h.routine_outside hframe
  have hout : M.routine M.k.pxCurrentTCB ≠ .notifyAdd := by
    rw [hcurrent, hroutine]
    simp
  by_cases hpc : ∃ after, frame.pc = .resumeAll after
  · obtain ⟨after, hpc⟩ := hpc
    obtain ⟨-, hk, haside⟩ := hready.resumes hpc
    simp only [Machine.aside, Prod.mk.injEq] at haside
    obtain ⟨-, -, hview, hcpu⟩ := h.roused hout
    have hran : Ran M.roused.view t frame (M.roused.runFrame t frame).view :=
      State.ran_runFrame ((congrArg Prod.snd hcpu).trans hcurrent)
    refine ⟨?_, fun hne => ?_, fun _ => congrFun haside.2.2.2 u, .inl ?_⟩
    · have hslot : (M.runFrame t frame).k.slot u = M.xTaskResumeAll.k.slot u := by
        rw [Machine.runFrame_resumeAll hpc]
        exact congrFun (State.slot_afterResume ..) u
      have hclock : (M.runFrame t frame).k.clock = M.xTaskResumeAll.k.clock := by
        rw [Machine.runFrame_resumeAll hpc]
        exact State.clock_afterResume ..
      rcases h.resumeAll_slot hout u with ⟨hstate, hawaits⟩ | ⟨n, hslot', htick, htime⟩
      · exact .woken (by rw [hslot]; exact hstate) hawaits
      · exact .elapsed n (hslot.trans hslot') ((congrArg Prod.fst hclock).trans htick)
          ((State.time_of_clock hclock).trans htime)
    · rw [hk]
      exact (hran.frame_ne fun heq => hne (congrArg some heq.symm)).trans
        (congrFun (congrArg View.frame hview) u)
    · rw [hk]
      exact hran.nextTask.trans (congrArg View.nextTask hview)
  · have hpc := not_exists.mp hpc
    obtain ⟨-, hk, haside⟩ := hready.follows hpc
    simp only [Machine.aside, Prod.mk.injEq] at haside
    have hran : Ran M.k.view t frame (M.k.runFrame t frame).view := State.ran_runFrame hcurrent
    refine ⟨?_, fun hne => ?_, fun _ => congrFun haside.2.2.2 u, .inl ?_⟩
    · have hclock : (M.runFrame t frame).k.clock = M.k.clock := by
        rw [hk]
        exact M.k.clock_runFrame t frame hpc
      rcases State.rests_runFrame (h.running hrun hcurrent hframe) hpc u with
        (hrest | ⟨hwoken, hframe'⟩) | ⟨rfl, hplace, hslot⟩
      · exact .rests (by rw [hk]; exact hrest) hclock
      · exact .woken (by rw [hk]; exact hwoken) (.inl hframe')
      · refine .blocked rfl ((h.tasks u).unplaced frame hframe (by rw [hplace]; rfl))
          frame.xTicksToWait true ?_ hclock
        rw [hk]
        exact hslot
    · rw [hk]
      exact hran.frame_ne fun heq => hne (congrArg some heq.symm)
    · rw [hk]
      exact hran.nextTask

/-! ## Steps outside of a blocking function -/

namespace Idle

theorem enters_on (M : Machine α) (t : TaskId) (api : Api α) (u : TaskId) :
    StepOn M (M.onKernel (·.enter t api)) (.act (.call t api)) u := by
  refine ⟨.rests (.of_eq (congrFun (State.slot_enter ..) u)) (M.k.clock_enter t api), fun hne => ?_,
    fun _ => rfl, .inl ?_⟩
  · have hview := congrArg View.frame (State.view_enter M.k t api)
    exact (congrFun hview u).trans
      (View.enter_frame_ne _ _ api _ fun heq => hne (congrArg some heq.symm))
  · have hview := congrArg View.nextTask (State.view_enter M.k t api)
    exact hview.trans (View.enter_nextTask M.k.view t api _)

theorem spawns_on (h : Idle M t) (uxPriority : Nat) (act : MachineAct α) (u : TaskId) :
    StepOn M (M.prvAddNewTaskToReadyList uxPriority) act u := by
  have hnone : (M.k.task M.k.nextTask).frame = none :=
    h.inv.kernel.wait.window.unspawned _ (Nat.le_refl _)
  by_cases hu : u = M.k.nextTask
  · subst hu
    have hstate : ((M.k.prvAddNewTaskToReadyList uxPriority).slot M.k.nextTask).state = .ready := by
      simp [State.slot, State.prvAddNewTaskToReadyList, Task.slot]
    refine ⟨.spawned rfl hstate, fun _ => ?_, fun _ => rfl, .inr ⟨rfl, fun _ => hstate⟩⟩
    change ((M.k.prvAddNewTaskToReadyList uxPriority).task M.k.nextTask).frame = _
    rw [hnone]
    simp [State.prvAddNewTaskToReadyList]
  · have htask : (M.k.prvAddNewTaskToReadyList uxPriority).task u = M.k.task u :=
      Function.update_of_ne hu _ _
    exact ⟨.rests (.of_eq (congrArg Task.slot htask)) rfl, fun _ => congrArg Task.frame htask,
      fun _ => rfl, .inr ⟨rfl, fun heq => absurd heq hu⟩⟩

theorem exits_on (h : Idle M t) (u : TaskId) : StepOn M (M.vTaskDelete t) (.act (.exit t)) u := by
  by_cases hzero : M.k.uxSchedulerSuspended = 0
  · obtain ⟨-, hk, haside⟩ := h.inv.listed.follows_vTaskDelete (h.ready hzero)
    simp only [Machine.aside, Prod.mk.injEq] at haside
    have htask := h.task_vTaskDelete hzero u
    rw [← hk] at htask
    have hnext : (M.vTaskDelete t).k.nextTask = M.k.nextTask := by
      rw [hk, h.vTaskDelete_eq hzero]
      rfl
    by_cases hu : u = t
    · subst hu
      rw [if_pos rfl] at htask
      exact ⟨.ended rfl (h.ready hzero) (congrArg Task.xStateList htask), fun hne => absurd rfl hne,
        fun hne => absurd rfl hne, .inl hnext⟩
    · rw [if_neg hu] at htask
      refine .of_task htask ?_ hnext fun _ => congrFun haside.2.2.2 u
      rw [hk, h.vTaskDelete_eq hzero]
      rfl
  · rw [Machine.vTaskDelete, if_neg hzero, Machine.onKernel, State.vTaskDelete, if_neg hzero]
    exact .of_task rfl rfl rfl fun _ => rfl

theorem reaps_on (M : Machine α) (t u : TaskId) :
    StepOn M M.prvCheckTasksWaitingTermination (.act (.reap t)) u := by
  unfold Machine.prvCheckTasksWaitingTermination
  split
  next => exact .of_task rfl rfl rfl fun _ => rfl
  next w rest hlist =>
    have htask := task_reap hlist u
    have hnext : M.k.prvCheckTasksWaitingTermination.nextTask = M.k.nextTask := by
      rw [reap_eq hlist]
      rfl
    by_cases hu : u = w
    · subst hu
      rw [if_pos rfl] at htask
      have hfirst : u ∈ M.k.xTasksWaitingTermination.take 1 := by simp [hlist]
      exact ⟨.freed rfl hfirst (congrArg Task.xStateList htask), fun _ =>
          (congrArg Task.frame htask).trans rfl, fun _ => rfl, .inl hnext⟩
    · rw [if_neg hu] at htask
      refine .of_task htask ?_ hnext fun _ => rfl
      change M.k.prvCheckTasksWaitingTermination.clock = M.k.clock
      rw [reap_eq hlist]
      rfl

theorem blocks_on (h : Idle M t) (hready : (M.k.slot t).state = .ready) (xTicksToWait : Nat)
    (forever : Bool) (routine : Routine) (u : TaskId) :
    StepOn M ((M.prvAddCurrentTaskToDelayedList xTicksToWait forever).setRoutine t routine)
      (.goOn t) u := by
  obtain ⟨-, hk, haside⟩ :=
    h.inv.listed.follows_prvAddCurrentTaskToDelayedList (h.current ▸ hready) xTicksToWait forever
  simp only [Machine.aside, Prod.mk.injEq] at haside
  have hslot := M.k.slot_prvAddCurrentTaskToDelayedList xTicksToWait forever
  rw [h.current] at hslot
  have hclock : (M.prvAddCurrentTaskToDelayedList xTicksToWait forever).k.clock = M.k.clock := by
    rw [hk]
    rfl
  refine ⟨?_, fun _ => ?_, fun hne => ?_, .inl ?_⟩
  · by_cases hu : u = t
    · subst hu
      refine .blocked rfl hready xTicksToWait forever ?_ hclock
      rw [Machine.k_setRoutine, hk, hslot, Function.update_self]
    · refine .rests (.of_eq ?_) hclock
      rw [Machine.k_setRoutine, hk, hslot, Function.update_of_ne hu]
  · rw [Machine.k_setRoutine, hk]
    exact congrFun (congrArg View.frame (State.view_prvAddCurrentTaskToDelayedList ..)) u
  · rw [Machine.routine_setRoutine_ne _ fun heq => hne (congrArg some heq.symm), haside.2.2.2]
  · rw [Machine.k_setRoutine, hk]
    exact congrArg View.nextTask (M.k.view_prvAddCurrentTaskToDelayedList xTicksToWait forever)

theorem resumes_on (h : Idle M t) (hadd : M.routine t ≠ .notifyAdd)
    (hne : M.k.uxSchedulerSuspended ≠ 0) (act : MachineAct α) (u : TaskId) :
    StepOn M M.xTaskResumeAll act u := by
  have hresumed := h.resumed hadd hne
  refine ⟨?_, fun _ => congrFun (congrArg View.frame hresumed.view) u, fun _ =>
      congrFun hresumed.routines u,
    .inl (congrArg View.nextTask hresumed.view)⟩
  rcases h.inv.resumeAll_slot (h.current ▸ hadd) u with ⟨hstate, hawaits⟩ | ⟨n, hslot, htick, htime⟩
  · exact .woken hstate hawaits
  · exact .elapsed n hslot htick htime

theorem performs_on {a : Act α} (h : Idle M t) (hroutine : M.routine t = .outside)
    (hactor : a.actor = some t) (hstep : M.perform a = some M') (u : TaskId) :
    StepOn M M' (.act a) u := by
  cases a with
  | tick => simp [Machine.perform, State.perform] at hstep
  | run w => simp [Machine.perform, State.perform] at hstep
  | call w api =>
      cases hactor
      cases hstep
      exact enters_on M _ api u
  | create w spec =>
      simp only [Machine.perform, State.perform] at hstep
      split at hstep <;> cases hstep <;> exact .of_task rfl rfl rfl fun _ => rfl
  | delete w q =>
      simp only [Machine.perform, State.perform] at hstep
      split at hstep <;> cases hstep <;> exact .of_task rfl rfl rfl fun _ => rfl
  | spawn w uxPriority =>
      simp only [Machine.perform] at hstep
      split at hstep <;> cases hstep
      · exact h.spawns_on uxPriority _ u
      · exact .of_task rfl rfl rfl fun _ => rfl
  | exit w =>
      cases hactor
      cases hstep
      exact h.exits_on u
  | reap w =>
      cases hactor
      cases hstep
      exact reaps_on M _ u
  | delay w xTicksToDelay =>
      cases hactor
      simp only [Machine.perform] at hstep
      split at hstep
      next =>
        split at hstep <;> cases hstep
        · exact .of_task rfl rfl rfl fun _ => rfl
        · exact .of_task rfl rfl rfl fun hne =>
            Machine.routine_setRoutine_ne _ (fun heq => hne (congrArg some heq.symm)) _
      next =>
        cases hstep
        exact .of_task rfl rfl rfl fun _ => rfl
  | suspendAll w =>
      cases hstep
      exact .of_task rfl rfl rfl fun _ => rfl
  | resumeAll w =>
      simp only [Machine.perform] at hstep
      split at hstep
      next =>
        cases hstep
        exact .of_task rfl rfl rfl fun _ => rfl
      next hne =>
        cases hstep
        exact h.resumes_on (by simp [hroutine]) hne _ u

theorem goesOn_on (h : Idle M t) (hstep : M.goOn t = some M') (u : TaskId) :
    StepOn M M' (.goOn t) u := by
  have htask := h.inv.tasks t
  have hset (N : Machine α) (routine : Routine)
      (hne : (MachineAct.goOn t : MachineAct α).actor ≠ some u) :
      (N.setRoutine t routine).routine u = N.routine u :=
    Machine.routine_setRoutine_ne _ (fun heq => hne (congrArg some heq.symm)) _
  have hresume (routine : Routine) (hwindow : (M.routine t).inWindow)
      (hadd : M.routine t ≠ .notifyAdd) :
      StepOn M (M.xTaskResumeAll.setRoutine t routine) (.goOn t) u := by
    have hone := (htask.window hwindow).1
    obtain ⟨hmoved, hframe, hroutine, hborn⟩ := h.resumes_on hadd (by omega) (.goOn t) u
    refine ⟨?_, hframe, fun hne => (hset _ _ hne).trans (hroutine hne), hborn⟩
    cases hmoved with
    | rests hrests hclock => exact .rests hrests hclock
    | elapsed n hslot htick htime => exact .elapsed n hslot htick htime
    | woken hstate hawaits => exact .woken hstate hawaits
    | blocked hactor hready n forever hslot hclock =>
        exact .blocked hactor hready n forever hslot hclock
    | spawned hnew hstate => exact .spawned hnew hstate
    | ended hact => cases hact
    | freed hact => cases hact
  unfold Machine.goOn at hstep
  split at hstep
  next => cases hstep
  next n hroutine =>
    cases hstep
    exact h.blocks_on (htask.awake (by rw [hroutine]; rfl)) n false .delayResume u
  next hroutine =>
    cases hstep
    exact hresume _ (by rw [hroutine]; rfl) (by simp [hroutine])
  next hroutine => split at hstep <;> cases hstep <;> exact .of_task rfl rfl rfl (hset _ _)
  next hroutine =>
    cases hstep
    exact h.blocks_on (htask.awake (by rw [hroutine]; rfl)) portMaxDelay true .notifyResume u
  next hroutine =>
    cases hstep
    exact hresume _ (by rw [hroutine]; rfl) (by simp [hroutine])
  next hroutine =>
    cases hstep
    exact .of_task rfl rfl rfl (hset _ _)

end Idle

/-- What any step does to any task. -/
theorem step_on {act : MachineAct α} (h : MachineInv M) (hstep : M.step act = some M')
    (u : TaskId) :
    StepOn M M' act u := by
  have hidle {t : TaskId} (hrun : M.k.canRun t) (hframe : (M.k.task t).frame = none) :
      Idle (M.onKernel (·.switchTo t)) t := ⟨h.switchTo hrun, canRun_switchTo hrun, rfl, hframe⟩
  cases act with
  | act a =>
      simp only [Machine.step] at hstep
      split at hstep
      next =>
        split at hstep <;> cases hstep
        exact h.tick_on _ u
      next t hactor =>
        split at hstep
        next hrun =>
          obtain ⟨hrun, hroutine⟩ := hrun
          split at hstep
          next frame w hframe =>
            cases hactor
            cases hstep
            exact .of_switchTo ((h.switchTo hrun).runFrame_on (t := t) (canRun_switchTo hrun) rfl
                hframe u)
          next => cases hstep
          next hframe =>
            exact .of_switchTo ((hidle hrun hframe).performs_on hroutine hactor hstep u)
        next => cases hstep
  | goOn t =>
      simp only [Machine.step] at hstep
      split at hstep
      next hrun =>
        by_cases hroutine : M.routine t = .outside
        · have hnone : (M.onKernel (·.switchTo t)).goOn t = none := by
            unfold Machine.goOn
            rw [show (M.onKernel (·.switchTo t)).routine t = .outside from hroutine]
          rw [hnone] at hstep
          cases hstep
        · exact .of_switchTo ((hidle hrun ((h.tasks t).frameless hroutine)).goesOn_on hstep u)
      next => cases hstep
  | notifyTake t =>
      simp only [Machine.step] at hstep
      split at hstep
      next hrun =>
        cases hstep
        unfold Machine.ulTaskNotifyTake
        have hset (N : Machine α) (routine : Routine)
            (hne : (MachineAct.notifyTake t : MachineAct α).actor ≠ some u) :
            (N.setRoutine t routine).routine u = N.routine u :=
          Machine.routine_setRoutine_ne _ (fun heq => hne (congrArg some heq.symm)) _
        split <;> exact .of_task rfl rfl rfl (hset _ _)
      next => cases hstep
  | notifyGive t =>
      simp only [Machine.step] at hstep
      split at hstep <;> cases hstep
      exact notifies_on M t _ u
  | switchContext =>
      simp only [Machine.step] at hstep
      split at hstep <;> cases hstep
      exact switches_on M _ u

end MachineInv

end SimulatedLinux.Kernel
