import SimulatedLinux.Kernel.MachineInv
import SimulatedLinux.Kernel.TimedWait

/-! # Every step of the machine keeps the invariant -/

namespace SimulatedLinux.Kernel

variable {α : Type}

/-! ## Promises -/

/-- `xTicksToWait` is a `TickType_t`. -/
def Api.typed : Api α → Prop
  | xSemaphoreTake _ xTicksToWait => xTicksToWait < tickModulus
  | _ => True

theorem Api.request_lt {api : Api α} (htyped : api.typed) {op : Op α} {q : QueueId}
    {xTicksToWait : Nat} (hrequest : api.request = some (op, q, xTicksToWait)) :
    xTicksToWait < tickModulus := by
  have hmax : portMaxDelay < tickModulus := by decide
  have hzero : 0 < tickModulus := by decide
  cases api <;> simp only [request, Option.map_eq_some_iff, Option.some.injEq, Prod.mk.injEq]
    at hrequest
  case sysArchSemWait => exact hrequest.2.2 ▸ timeoutTicks_lt _
  case sysArchMboxFetch => exact hrequest.2.2 ▸ timeoutTicks_lt _
  case xSemaphoreTake => exact hrequest.2.2 ▸ htyped
  case sysMboxPost => exact hrequest.2.2 ▸ hmax
  case sysMboxTrypost => exact hrequest.2.2 ▸ hzero
  case sysArchMboxTryfetch => exact hrequest.2.2 ▸ hzero
  case xSemaphoreGive => exact hrequest.2.2 ▸ hzero
  all_goals
    obtain ⟨-, -, -, -, rfl⟩ := hrequest
    first | exact hmax | exact hzero

/-- What the callers keep to: a number of ticks fits its type, and nobody blocks while the scheduler
is suspended. -/
def MachineAct.Promised (M : Machine α) : MachineAct α → Prop
  | act (.call _ api) => M.k.uxSchedulerSuspended = 0 ∧ api.typed
  | act (.delay _ xTicksToDelay) => xTicksToDelay < tickModulus
  | notifyTake _ => M.k.uxSchedulerSuspended = 0
  | _ => True

namespace MachineInv

variable {M M' : Machine α} {t : TaskId} {k : State α}

/-- A step of a task outside of any routine that moves no state item of a task that listens. -/
theorem of_follows (act : Act α) (h : MachineInv M) (hrun : M.k.canRun t)
    (hcurrent : M.k.pxCurrentTCB = t) (hroutine : M.routine t = .outside)
    (hfollows : Machine.Follows M M' k) (hok : act.unsuspended M.k) (hstep : M.k.step act = some k)
    (hclock : k.clock = M.k.clock) (hcpu : k.pxCurrentTCB = t)
    (hsuspended : M.k.uxSchedulerSuspended ≤ k.uxSchedulerSuspended)
    (hmoves : ∀ u, (M.k.slot u).Rests (k.slot u) ∨ (k.slot u).state ≠ .delayed ∧
      (k.slot u).state ≠ .overflowDelayed ∧ (u ≠ t → (M.k.slot u).state ≠ .suspended))
    (hframes : ∀ u, u ≠ t → (k.task u).frame = (M.k.task u).frame)
    (hframe : ∀ f, (k.task t).frame = some f → f.xTicksToWait < tickModulus ∧ f.pc = .entry) :
    MachineInv M' := by
  obtain ⟨hkernel, hranks, hclock'⟩ := stepped act h.kernel h.ranks h.clock hok hstep
  have hk := hfollows.kernel
  have haside := hfollows.aside
  simp only [Machine.aside, Prod.mk.injEq] at haside
  obtain ⟨hpended, hnotify, -, hroutines⟩ := haside
  have hdeaf := (h.tasks t).deaf (by simp [hroutine]) (by rw [hroutine]; rfl)
  have htick : k.xTickCount = M.k.xTickCount := congrArg Prod.fst hclock
  refine ⟨hk ▸ hkernel, hk ▸ hranks, hk ▸ hclock', hfollows.listed, fun u => ?_, hpended ▸ h.nodup,
    fun u => ?_⟩
  · rw [hk, htick]
    rcases hmoves u with hrest | ⟨hdelayed, hoverflow, -⟩
    · exact hrest.timely (h.timely u)
    · exact ⟨fun hstate => absurd hstate hdelayed, fun hstate => absurd hstate hoverflow⟩
  · by_cases hu : u = t
    · subst hu
      refine .outside (by rw [hroutines]; exact hroutine) (by rw [hnotify]; exact hdeaf.1)
        (by rw [hpended]; exact hdeaf.2) fun f hf => ?_
      rw [hk] at hf
      obtain ⟨hlt, hpc⟩ := hframe f hf
      exact ⟨hlt, by simp [hpc, Pc.waits], by simp [hpc, Pc.unplaced]⟩
    · refine (h.tasks u).other h.kernel (fun _ heq => hu (heq.symm.trans hcurrent))
        (fun _ heq => ?_) (by rw [hroutines]) ?_ (by rw [hnotify]) ?_ ?_
      · rw [hk] at heq
        exact hu (heq.symm.trans hcpu)
      · rw [hk]
        exact hframes u hu
      · rw [hpended, hk]
        intro hmem
        have hne := ((h.tasks u).pended hmem).2
        exact ⟨hmem, by omega⟩
      · rw [hk]
        intro hstate _ _
        rcases hmoves u with hrest | ⟨-, -, hnot⟩
        · exact hrest.state.trans hstate
        · exact absurd hstate (hnot hu)

/-- The system stops. -/
theorem halt (h : MachineInv M) (fault : Fault) : MachineInv (M.onKernel (·.halt fault)) :=
  ⟨⟨h.kernel.wait.halt fault, h.kernel.dying.halt fault⟩,
    ⟨h.ranks.bound, h.ranks.value, h.ranks.base⟩, h.clock, h.listed.onKernel _, h.timely, h.nodup,
    fun u => (h.tasks u).same rfl rfl rfl rfl rfl id id⟩

/-! ## Steps outside of a blocking function -/

/-- What is known of the task that makes a step outside of any blocking function. -/
structure Idle (M : Machine α) (t : TaskId) : Prop where
  inv : MachineInv M
  run : M.k.canRun t
  current : M.k.pxCurrentTCB = t
  frame : (M.k.task t).frame = none

namespace Idle

theorem step_eq {act : Act α} (h : Idle M t) (hactor : act.actor = some t) :
    M.k.step act = M.k.perform act := by
  have hsame : M.k.switchTo t = M.k := by
    rw [← h.current]
    rfl
  simp only [State.step, hactor, if_pos h.run, h.frame, hsame]

theorem enters (h : Idle M t) (hroutine : M.routine t = .outside) {api : Api α}
    (hzero : M.k.uxSchedulerSuspended = 0) (htyped : api.typed) :
    MachineInv (M.onKernel (·.enter t api)) := by
  have hfollows : Machine.Follows M (M.onKernel (·.enter t api)) (M.k.enter t api) :=
    (Machine.Follows.refl h.inv.listed).onKernel (State.slot_enter ..)
  have hcpu := M.k.cpu_enter t api
  refine h.inv.of_follows (.call t api) h.run h.current hroutine hfollows hzero (h.step_eq rfl) ?_
    ?_ ?_ ?_ ?_ ?_
  · exact M.k.clock_enter t api
  · exact (congrArg Prod.snd hcpu).trans h.current
  · exact Nat.le_of_eq (congrArg Prod.fst hcpu).symm
  · exact fun u => .inl (.of_eq (congrFun (State.slot_enter ..) u))
  · intro u hu
    have hview := congrArg View.frame (State.view_enter M.k t api)
    exact (congrFun hview u).trans (View.enter_frame_ne _ _ api _ hu)
  · intro f hf
    unfold State.enter at hf
    cases hrequest : api.request with
    | none =>
        rw [hrequest] at hf
        have hframe := h.frame
        cases hunlocks : api.unlocks <;> simp [hunlocks, State.modTask, hframe] at hf
    | some request =>
        obtain ⟨op, q, xTicksToWait⟩ := request
        have hlt := Api.request_lt htyped hrequest
        rw [hrequest] at hf
        cases hunlocks : api.unlocks <;> simp [hunlocks, State.modTask] at hf <;> rw [← hf] <;>
          exact ⟨hlt, rfl⟩

/-- A step that moves no state item and no call. -/
theorem still (act : Act α) {f : State α → State α} (h : Idle M t)
    (hroutine : M.routine t = .outside) (hok : act.unsuspended M.k)
    (hstep : M.k.step act = some (f M.k)) (htask : (f M.k).task = M.k.task)
    (hclock : (f M.k).clock = M.k.clock) (hcurrent : (f M.k).pxCurrentTCB = M.k.pxCurrentTCB)
    (hsuspended : M.k.uxSchedulerSuspended ≤ (f M.k).uxSchedulerSuspended) :
    MachineInv (M.onKernel f) := by
  have hslot : (f M.k).slot = M.k.slot := by
    funext u
    rw [State.slot, State.slot, htask]
  refine h.inv.of_follows act h.run h.current hroutine
    ((Machine.Follows.refl h.inv.listed).onKernel hslot) hok hstep hclock (hcurrent.trans h.current)
    hsuspended (fun u => .inl (.of_eq (congrFun hslot u))) (fun u _ => ?_) fun frame hf => ?_
  · rw [htask]
  · rw [htask, h.frame] at hf
    cases hf

theorem spawns (h : Idle M t) (hroutine : M.routine t = .outside) {uxPriority : Nat}
    (hlt : uxPriority < configMaxPriorities) :
    MachineInv (M.prvAddNewTaskToReadyList uxPriority) := by
  have habsent : (M.k.slot M.k.nextTask).state = .absent :=
    h.inv.kernel.wait.lists.unspawned _ (Nat.le_refl _)
  have hborn : t < M.k.nextTask := h.current ▸ h.inv.kernel.wait.window.current
  have hnone : (M.k.task M.k.nextTask).frame = none :=
    h.inv.kernel.wait.window.unspawned _ (Nat.le_refl _)
  have hfollows :=
    h.inv.listed.follows_prvAddNewTaskToReadyList habsent (Nat.lt_trans hlt (by decide))
  have htask (u : TaskId) (hu : u ≠ M.k.nextTask) :
      (M.k.prvAddNewTaskToReadyList uxPriority).task u = M.k.task u :=
    Function.update_of_ne hu _ _
  refine h.inv.of_follows (.spawn t uxPriority) h.run h.current hroutine hfollows trivial ?_
    rfl h.current (Nat.le_refl _) (fun u => ?_) (fun u _ => ?_) fun f hf => ?_
  · rw [h.step_eq rfl, State.perform, if_pos hlt]
  · by_cases hu : u = M.k.nextTask
    · subst hu
      have hstate : ((M.k.prvAddNewTaskToReadyList uxPriority).slot M.k.nextTask).state =
          .ready := by
        simp [State.slot, State.prvAddNewTaskToReadyList, Task.slot]
      exact .inr ⟨by simp [hstate], by simp [hstate], fun _ => by simp [habsent]⟩
    · exact .inl (.of_eq (congrArg Task.slot (htask u hu)))
  · by_cases hu : u = M.k.nextTask
    · subst hu
      rw [hnone]
      simp [State.prvAddNewTaskToReadyList]
    · rw [htask u hu]
  · rw [htask t (Nat.ne_of_lt hborn), h.frame] at hf
    cases hf

theorem ready (h : Idle M t) (hzero : M.k.uxSchedulerSuspended = 0) : (M.k.slot t).state = .ready :=
  ((M.k.canRun_iff t).mp h.run).2.1 hzero

theorem vTaskDelete_eq (h : Idle M t) (hzero : M.k.uxSchedulerSuspended = 0) :
    M.k.vTaskDelete t = { M.k.modTask t fun T => { T with xStateList := .waitingTermination } with
      xTasksWaitingTermination := M.k.xTasksWaitingTermination ++ [t] } := by
  rw [State.vTaskDelete, if_pos hzero, h.inv.kernel.wait.removeEventItem_eq h.frame]

theorem task_vTaskDelete (h : Idle M t) (hzero : M.k.uxSchedulerSuspended = 0) (u : TaskId) :
    (M.k.vTaskDelete t).task u =
      if u = t then { M.k.task t with xStateList := .waitingTermination } else M.k.task u := by
  rw [h.vTaskDelete_eq hzero]
  exact Function.update_apply ..

theorem exits (h : Idle M t) (hroutine : M.routine t = .outside) :
    MachineInv (M.vTaskDelete t) := by
  by_cases hzero : M.k.uxSchedulerSuspended = 0
  · have hfollows := h.inv.listed.follows_vTaskDelete (h.ready hzero)
    have hk := h.vTaskDelete_eq hzero
    have htask := h.task_vTaskDelete hzero
    refine h.inv.of_follows (.exit t) h.run h.current hroutine hfollows trivial
      (h.step_eq rfl) ?_ ?_ ?_ (fun u => ?_) (fun u hu => ?_) fun f hf => ?_
    · rw [hk]
      rfl
    · rw [hk]
      exact h.current
    · rw [hk]
      exact Nat.le_refl _
    · by_cases hu : u = t
      · subst hu
        have hstate : ((M.k.vTaskDelete u).slot u).state = .waitingTermination := by
          rw [State.slot, htask, if_pos rfl]
          rfl
        exact .inr ⟨by simp [hstate], by simp [hstate], fun hne => absurd rfl hne⟩
      · refine .inl (.of_eq ?_)
        rw [State.slot, htask, if_neg hu]
        rfl
    · rw [htask, if_neg hu]
    · rw [htask, if_pos rfl, h.frame] at hf
      cases hf
  · have hhalt : M.vTaskDelete t = M.onKernel (·.halt .assertion) := by
      rw [Machine.vTaskDelete, if_neg hzero, Machine.onKernel, State.vTaskDelete, if_neg hzero]
      rfl
    rw [hhalt]
    exact h.inv.halt _

theorem reap_eq {w : TaskId} {rest : List TaskId}
    (hlist : M.k.xTasksWaitingTermination = w :: rest) :
    M.k.prvCheckTasksWaitingTermination =
      { M.k.modTask w fun T => { T with xStateList := .absent } with
      xTasksWaitingTermination := rest
      uxCurrentNumberOfTasks := M.k.uxCurrentNumberOfTasks - 1 } := by
  rw [State.prvCheckTasksWaitingTermination, hlist]

theorem task_reap {w : TaskId} {rest : List TaskId}
    (hlist : M.k.xTasksWaitingTermination = w :: rest) (u : TaskId) :
    M.k.prvCheckTasksWaitingTermination.task u =
      if u = w then { M.k.task w with xStateList := .absent } else M.k.task u := by
  rw [reap_eq hlist]
  exact Function.update_apply ..

theorem reaps (h : Idle M t) (hroutine : M.routine t = .outside) :
    MachineInv M.prvCheckTasksWaitingTermination := by
  have hdead (u : TaskId) (hu : u ∈ M.k.xTasksWaitingTermination) :
      (M.k.slot u).state = .waitingTermination :=
    (h.inv.kernel.dying.listed u).mp hu
  have hfollows := h.inv.listed.follows_prvCheckTasksWaitingTermination hdead
  cases hlist : M.k.xTasksWaitingTermination with
  | nil =>
      rw [Machine.prvCheckTasksWaitingTermination, hlist]
      exact h.inv
  | cons w rest =>
      have hstate := hdead w (by simp [hlist])
      have hk := reap_eq hlist
      have htask := task_reap hlist
      have hframe (u : TaskId) :
          (M.k.prvCheckTasksWaitingTermination.task u).frame = (M.k.task u).frame := by
        rw [htask]
        split
        next heq => rw [heq]
        next => rfl
      refine h.inv.of_follows (.reap t) h.run h.current hroutine hfollows trivial
        (h.step_eq rfl) ?_ ?_ ?_ (fun u => ?_) (fun u _ => hframe u) fun f hf => ?_
      · rw [hk]
        rfl
      · rw [hk]
        exact h.current
      · rw [hk]
        exact Nat.le_refl _
      · by_cases hu : u = w
        · subst hu
          have habsent : (M.k.prvCheckTasksWaitingTermination.slot u).state = .absent := by
            rw [State.slot, htask, if_pos rfl]
            rfl
          exact .inr ⟨by simp [habsent], by simp [habsent], fun _ => by simp [hstate]⟩
        · refine .inl (.of_eq ?_)
          rw [State.slot, htask, if_neg hu]
          rfl
      · rw [hframe, h.frame] at hf
        cases hf

/-! ## Routines -/

theorem not_current (h : Idle M t) {u : TaskId} (hu : u ≠ t) (_ : M.k.uxSchedulerSuspended = 1) :
    M.k.pxCurrentTCB ≠ u :=
  fun heq => hu (heq.symm.trans h.current)

/-- A routine begins with the suspension of the scheduler. -/
theorem suspends (h : Idle M t) (hroutine : M.routine t = .outside)
    (hzero : M.k.uxSchedulerSuspended = 0) {routine : Routine} (hawake : routine.awake)
    (hdelay : ∀ n, routine = .delayAdd n → 0 < n ∧ n < tickModulus) :
    MachineInv ((M.onKernel (·.vTaskSuspendAll)).setRoutine t routine) := by
  have hstep : M.k.step (.suspendAll t) = some M.k.vTaskSuspendAll := h.step_eq rfl
  obtain ⟨hkernel, hranks, hclock⟩ :=
    stepped (.suspendAll t) h.inv.kernel h.inv.ranks h.inv.clock trivial hstep
  have hdeaf := (h.inv.tasks t).deaf (by simp [hroutine]) (by rw [hroutine]; rfl)
  have hnil := h.inv.pended_nil hzero
  have hone : M.k.uxSchedulerSuspended + 1 = 1 := by rw [hzero]
  refine ⟨hkernel, hranks, hclock, h.inv.listed.of_lists rfl rfl rfl rfl, h.inv.timely, h.inv.nodup,
    fun u => ?_⟩
  by_cases hu : u = t
  · subst hu
    refine .inRoutine h.frame (fun _ => ⟨hone, h.current⟩) ?_ (fun _ => h.ready hzero) ?_ ?_ ?_
    · rw [Machine.routine_setRoutine_self]
      intro htake
      rw [htake] at hawake
      cases hawake
    · rw [Machine.routine_setRoutine_self]
      exact hdelay
    · rintro (hwait | hmem)
      · exact absurd hwait hdeaf.1
      · exact absurd hmem hdeaf.2
    · exact fun hmem => absurd hmem hdeaf.2
  · refine (h.inv.tasks u).other h.inv.kernel (h.not_current hu)
      (fun _ heq => hu (heq.symm.trans h.current)) (Function.update_of_ne hu _ _) rfl rfl
      (fun hmem => ?_) fun hstate _ _ => hstate
    have hnot : u ∈ ([] : List TaskId) := hnil ▸ hmem
    cases hnot

/-- The running task blocks inside a routine. -/
theorem blocks (h : Idle M t) (hready : (M.k.slot t).state = .ready) {xTicksToWait : Nat}
    (hpos : 0 < xTicksToWait) (hlt : xTicksToWait < tickModulus) {forever : Bool}
    {routine : Routine}
    (hown : TaskOk ((M.prvAddCurrentTaskToDelayedList xTicksToWait forever).setRoutine t routine)
      t) :
    MachineInv ((M.prvAddCurrentTaskToDelayedList xTicksToWait forever).setRoutine t routine) := by
  have hready' : (M.k.slot M.k.pxCurrentTCB).state = .ready := h.current ▸ hready
  have hframe' : M.k.view.frame M.k.pxCurrentTCB = none := by
    rw [h.current]
    exact h.frame
  have halive : (M.k.sched.xStateList M.k.pxCurrentTCB).alive := by
    have hstate : M.k.sched.xStateList M.k.pxCurrentTCB = .ready := hready'
    rw [hstate]
    rfl
  have hfollows := h.inv.listed.follows_prvAddCurrentTaskToDelayedList hready' xTicksToWait forever
  have hk := hfollows.kernel
  have haside := hfollows.aside
  simp only [Machine.aside, Prod.mk.injEq] at haside
  obtain ⟨hpended, hnotify, -, hroutines⟩ := haside
  have hslot := M.k.slot_prvAddCurrentTaskToDelayedList xTicksToWait forever
  rw [h.current] at hslot
  refine ⟨?_, ?_, ?_, hfollows.listed.of_lists rfl rfl rfl rfl, fun u => ?_, ?_, fun u => ?_⟩
  · rw [Machine.k_setRoutine, hk]
    exact h.inv.kernel.addDelayed hframe' halive xTicksToWait forever
  · rw [Machine.k_setRoutine, hk]
    exact h.inv.ranks.of_prios fun u =>
      .inl (congrFun (State.prios_prvAddCurrentTaskToDelayedList ..) u)
  · rw [Machine.k_setRoutine, hk]
    exact h.inv.clock
  · rw [Machine.k_setRoutine, hk, hslot]
    by_cases hu : u = t
    · subst hu
      rw [Function.update_self]
      exact delayedSlot_timely h.inv.clock _ hpos hlt forever
    · rw [Function.update_of_ne hu]
      exact h.inv.timely u
  · rw [Machine.xPendingReadyList_setRoutine, hpended]
    exact h.inv.nodup
  · by_cases hu : u = t
    · subst hu
      exact hown
    · refine (h.inv.tasks u).other h.inv.kernel (h.not_current hu) (fun _ heq => ?_) ?_ ?_ ?_ ?_ ?_
      · rw [Machine.k_setRoutine, hk] at heq
        exact hu (heq.symm.trans h.current)
      · rw [Machine.routine_setRoutine_ne _ hu, hroutines]
      · rw [Machine.k_setRoutine, hk]
        exact congrFun (congrArg View.frame (State.view_prvAddCurrentTaskToDelayedList ..)) u
      · rw [Machine.ucNotifyState_setRoutine, hnotify]
      · rw [Machine.xPendingReadyList_setRoutine, Machine.k_setRoutine, hpended, hk]
        exact fun hmem => ⟨hmem, ((h.inv.tasks u).pended hmem).2⟩
      · rw [Machine.k_setRoutine, hk, hslot, Function.update_of_ne hu]
        exact fun hstate _ _ => hstate

/-- What a resumption does to the machine. -/
structure Resumed (M M' : Machine α) (t : TaskId) : Prop where
  tick : M'.TickReady
  kernel : KernelInv M'.k
  ranks : Ranks M'.k
  view : M'.k.view = M.k.view
  cpu : M'.k.cpu = (M.k.uxSchedulerSuspended - 1, t)
  notify : M'.ucNotifyState = M.ucNotifyState
  routines : M'.routine = M.routine
  pended :
    M'.xPendingReadyList =
      if M.k.uxSchedulerSuspended - 1 = 0 then [] else M.xPendingReadyList
  stays : ∀ u, (M.k.slot u).state = .suspended →
    (u ∈ M.xPendingReadyList → u ∈ M'.xPendingReadyList) → (M'.k.slot u).state = .suspended

theorem resumed (h : Idle M t) (hadd : M.routine t ≠ .notifyAdd)
    (hne : M.k.uxSchedulerSuspended ≠ 0) :
    Resumed M M.xTaskResumeAll t := by
  have hout : M.routine M.k.pxCurrentTCB ≠ .notifyAdd := h.current ▸ hadd
  have hpended := h.inv.pended_suspended hout
  obtain ⟨htick, hk, haside⟩ :=
    h.inv.tickReady.xTaskResumeAll h.inv.nodup hpended h.inv.kernel.wait.lists.noPending
  simp only [Machine.aside, Prod.mk.injEq] at haside
  obtain ⟨hpending, hnotify, -, hroutines⟩ := haside
  obtain ⟨hkernel, hranks, hview, hcpu⟩ := h.inv.roused hout
  have hcurrent : M.roused.pxCurrentTCB = t := (congrArg Prod.snd hcpu).trans h.current
  have hrun : M.roused.canRun t := by
    refine (M.roused.canRun_iff t).mpr ⟨?_, fun hzero => ?_, fun _ => hcurrent⟩
    · exact (congrArg View.fault hview).trans ((M.k.canRun_iff t).mp h.run).1
    · rw [M.roused_suspended] at hzero
      exact absurd hzero hne
  have hframe : (M.roused.task t).frame = none :=
    (congrFun (congrArg View.frame hview) t).trans h.frame
  have hstep : M.roused.step (.resumeAll t) = some M.roused.xTaskResumeAll := by
    have hsame : M.roused.switchTo t = M.roused := by
      rw [← hcurrent]
      rfl
    have hne' : ¬ M.roused.uxSchedulerSuspended = 0 := by
      rw [M.roused_suspended]
      exact hne
    simp only [State.step, Act.actor, if_pos hrun, hframe, hsame, State.perform, if_neg hne']
  obtain ⟨hkernel', hranks', -⟩ := stepped (.resumeAll t) hkernel hranks
    (State.clockOk_of_clock M.roused_clock h.inv.clock) trivial hstep
  obtain ⟨-, -, hcpu'⟩ := State.xTaskResumeAll_lists hkernel.wait.lists
  refine ⟨htick, hk ▸ hkernel', hk ▸ hranks', ?_, ?_, hnotify, hroutines, hpending,
    fun u hstate hstays => ?_⟩
  · rw [hk, State.view_xTaskResumeAll, hview]
  · rw [hk, hcpu', M.roused_suspended, hcurrent]
  · obtain ⟨n, hslot, -⟩ := h.inv.tickReady.xTaskResumeAll_slot h.inv.nodup hpended u
    rw [M.roused_slot, if_neg] at hslot
    · rw [hslot, Slot.elapsed_still (by simp [hstate]) (by simp [hstate])]
      exact hstate
    · rintro ⟨hzero, hmem⟩
      rw [hpending, if_pos hzero] at hstays
      cases hstays hmem

theorem resumes (h : Idle M t) (hadd : M.routine t ≠ .notifyAdd)
    (hne : M.k.uxSchedulerSuspended ≠ 0) {routine : Routine}
    (hown : TaskOk (M.xTaskResumeAll.setRoutine t routine) t) :
    MachineInv (M.xTaskResumeAll.setRoutine t routine) := by
  have hresumed := h.resumed hadd hne
  have hcurrent : M.xTaskResumeAll.k.pxCurrentTCB = t := congrArg Prod.snd hresumed.cpu
  have hsuspended : M.xTaskResumeAll.k.uxSchedulerSuspended = M.k.uxSchedulerSuspended - 1 :=
    congrArg Prod.fst hresumed.cpu
  refine ⟨hresumed.kernel, hresumed.ranks, hresumed.tick.clock,
    hresumed.tick.listed.of_lists rfl rfl rfl rfl, hresumed.tick.timely, ?_, fun u => ?_⟩
  · rw [Machine.xPendingReadyList_setRoutine, hresumed.pended]
    split
    · exact List.nodup_nil
    · exact h.inv.nodup
  · by_cases hu : u = t
    · subst hu
      exact hown
    · refine (h.inv.tasks u).other h.inv.kernel (h.not_current hu)
        (fun _ heq => hu (heq.symm.trans hcurrent)) ?_ ?_ ?_ ?_ ?_
      · rw [Machine.routine_setRoutine_ne _ hu, hresumed.routines]
      · exact congrFun (congrArg View.frame hresumed.view) u
      · rw [Machine.ucNotifyState_setRoutine, hresumed.notify]
      · rw [Machine.xPendingReadyList_setRoutine, hresumed.pended, Machine.k_setRoutine, hsuspended]
        split
        · simp
        next hlast => exact fun hmem => ⟨hmem, hlast⟩
      · exact fun hstate _ hstays => hresumed.stays u hstate hstays

/-- The task has resumed the scheduler and is in no routine. -/
theorem returns (h : Idle M t) (hadd : M.routine t ≠ .notifyAdd)
    (hlistens : (M.routine t).listens = false) (hne : M.k.uxSchedulerSuspended ≠ 0) :
    MachineInv (M.xTaskResumeAll.setRoutine t .outside) := by
  have hresumed := h.resumed hadd hne
  have hdeaf := (h.inv.tasks t).deaf hadd hlistens
  refine h.resumes hadd hne (.outside (Machine.routine_setRoutine_self ..) ?_ ?_ fun f hf => ?_)
  · rw [Machine.ucNotifyState_setRoutine, hresumed.notify]
    exact hdeaf.1
  · rw [Machine.xPendingReadyList_setRoutine, hresumed.pended]
    split
    · simp
    · exact hdeaf.2
  · cases h.frame.symm.trans ((congrFun (congrArg View.frame hresumed.view) t).symm.trans hf)

theorem performs {act : Act α} (h : Idle M t) (hroutine : M.routine t = .outside)
    (hactor : act.actor = some t) (hok : (MachineAct.act act).Promised M)
    (hstep : M.perform act = some M') : MachineInv M' := by
  -- either a fault stops the machine, or one of the lemmas above applies
  cases act with
  | tick => simp [Machine.perform, State.perform] at hstep
  | run u => simp [Machine.perform, State.perform] at hstep
  | call u api =>
      cases hactor
      cases hstep
      exact h.enters hroutine hok.1 hok.2
  | create u spec =>
      have hstate := h.step_eq hactor
      simp only [Machine.perform, State.perform] at hstep hstate
      split at hstep
      next Q hbuild =>
        rw [hbuild] at hstate
        cases hstep
        exact h.still (.create u spec) (f := (·.addQueue Q)) hroutine trivial hstate rfl rfl rfl
          (Nat.le_refl _)
      next =>
        cases hstep
        exact h.inv.halt _
  | delete u q =>
      have hstate := h.step_eq hactor
      simp only [Machine.perform, State.perform] at hstep hstate
      split at hstep
      next hlive =>
        rw [if_pos hlive] at hstate
        cases hstep
        exact h.still (.delete u q) (f := (·.vQueueDelete q)) hroutine trivial hstate rfl rfl rfl
          (Nat.le_refl _)
      next =>
        cases hstep
        exact h.inv.halt _
  | spawn u uxPriority =>
      simp only [Machine.perform] at hstep
      split at hstep
      next hlt =>
        cases hstep
        exact h.spawns hroutine hlt
      next =>
        cases hstep
        exact h.inv.halt _
  | exit u =>
      cases hactor
      cases hstep
      exact h.exits hroutine
  | reap u =>
      cases hstep
      exact h.reaps hroutine
  | delay u xTicksToDelay =>
      cases hactor
      simp only [Machine.perform] at hstep
      split at hstep
      next hzero =>
        split at hstep
        next =>
          cases hstep
          exact h.inv
        next hne =>
          cases hstep
          refine h.suspends hroutine hzero rfl ?_
          rintro n ⟨⟩
          exact ⟨Nat.pos_of_ne_zero hne, hok⟩
      next =>
        cases hstep
        exact h.inv.halt _
  | suspendAll u =>
      cases hstep
      exact h.still (.suspendAll u) (f := (·.vTaskSuspendAll)) hroutine trivial
        (h.step_eq hactor) rfl rfl rfl (Nat.le_succ _)
  | resumeAll u =>
      simp only [Machine.perform] at hstep
      split at hstep
      next =>
        cases hstep
        exact h.inv.halt _
      next hne =>
        cases hstep
        have hadd : M.routine t ≠ .notifyAdd := by simp [hroutine]
        have hreturned := h.returns hadd (by rw [hroutine]; rfl) hne
        have hsame : M.xTaskResumeAll.setRoutine t .outside = M.xTaskResumeAll := by
          have hself : M.xTaskResumeAll.routine t = .outside := by
            rw [(h.resumed hadd hne).routines]
            exact hroutine
          rw [Machine.setRoutine, ← hself, Function.update_eq_self]
        rwa [hsame] at hreturned

/-- The slot of a task that has blocked for ever. -/
theorem suspended_forever (h : Idle M t) (hready : (M.k.slot t).state = .ready) :
    ((M.prvAddCurrentTaskToDelayedList portMaxDelay true).k.slot t).state = .suspended := by
  have hfollows := h.inv.listed.follows_prvAddCurrentTaskToDelayedList (h.current ▸ hready)
    portMaxDelay true
  rw [hfollows.kernel, State.slot_prvAddCurrentTaskToDelayedList, h.current, Function.update_self,
    State.delayedSlot, if_pos ⟨rfl, rfl⟩]
  rfl

/-- Only fields of the notification change, and the routine of the task. -/
theorem marks (h : Idle M t) (ucNotifyState : TaskId → NotifyState) (ulNotifiedValue : TaskId → Nat)
    {routine : Routine} (hnotify : ∀ u, u ≠ t → ucNotifyState u = M.ucNotifyState u)
    (hown : TaskOk ({ M with ucNotifyState, ulNotifiedValue }.setRoutine t routine) t) :
    MachineInv ({ M with ucNotifyState, ulNotifiedValue }.setRoutine t routine) := by
  refine ⟨h.inv.kernel, h.inv.ranks, h.inv.clock, h.inv.listed.of_lists rfl rfl rfl rfl,
    h.inv.timely, h.inv.nodup, fun u => ?_⟩
  by_cases hu : u = t
  · subst hu
    exact hown
  · refine (h.inv.tasks u).same rfl rfl rfl rfl (Function.update_of_ne hu ..) ?_ id
    intro hwait
    exact (hnotify u hu).symm.trans hwait

theorem goesOn_delayAdd (h : Idle M t) {n : Nat} (hroutine : M.routine t = .delayAdd n) :
    MachineInv ((M.prvAddCurrentTaskToDelayedList n false).setRoutine t .delayResume) := by
  have htask := h.inv.tasks t
  have hdeaf := htask.deaf (by simp [hroutine]) (by rw [hroutine]; rfl)
  have hready := htask.awake (by rw [hroutine]; rfl)
  obtain ⟨hone, -⟩ := htask.window (by rw [hroutine]; rfl)
  obtain ⟨hpos, hlt⟩ := htask.delay n hroutine
  obtain ⟨-, hk, haside⟩ :=
    h.inv.listed.follows_prvAddCurrentTaskToDelayedList (h.current ▸ hready) n false
  simp only [Machine.aside, Prod.mk.injEq] at haside
  refine h.blocks hready hpos hlt (.inRoutine ?_ (fun _ => ?_) ?_ ?_ ?_ ?_ ?_)
  · rw [Machine.k_setRoutine, hk]
    exact (congrFun (congrArg View.frame (State.view_prvAddCurrentTaskToDelayedList ..)) t).trans
      h.frame
  · rw [Machine.k_setRoutine, hk]
    exact ⟨hone, h.current⟩
  · simp
  · simp [Routine.awake]
  · simp
  · rw [Machine.ucNotifyState_setRoutine, Machine.xPendingReadyList_setRoutine, haside.1,
      haside.2.1]
    rintro (hwait | hmem)
    · exact absurd hwait hdeaf.1
    · exact absurd hmem hdeaf.2
  · rw [Machine.xPendingReadyList_setRoutine, haside.1]
    exact fun hmem => absurd hmem hdeaf.2

theorem goesOn_notifyAdd (h : Idle M t) (hroutine : M.routine t = .notifyAdd) :
    MachineInv
      ((M.prvAddCurrentTaskToDelayedList portMaxDelay true).setRoutine t .notifyResume) := by
  have htask := h.inv.tasks t
  have hready := htask.awake (by rw [hroutine]; rfl)
  obtain ⟨hone, -⟩ := htask.window (by rw [hroutine]; rfl)
  have hstate := h.suspended_forever hready
  obtain ⟨-, hk, haside⟩ := h.inv.listed.follows_prvAddCurrentTaskToDelayedList (h.current ▸ hready)
    portMaxDelay true
  simp only [Machine.aside, Prod.mk.injEq] at haside
  refine h.blocks hready (by decide) (by decide)
    (.inRoutine ?_ (fun _ => ?_) ?_ ?_ ?_ (fun _ => ?_) ?_)
  · rw [Machine.k_setRoutine, hk]
    exact (congrFun (congrArg View.frame (State.view_prvAddCurrentTaskToDelayedList ..)) t).trans
      h.frame
  · rw [Machine.k_setRoutine, hk]
    exact ⟨hone, h.current⟩
  · simp
  · simp [Routine.awake]
  · simp
  · exact .inr ⟨by simp [Routine.listens], hstate⟩
  · rw [Machine.xPendingReadyList_setRoutine, Machine.ucNotifyState_setRoutine,
      Machine.k_setRoutine, hk, haside.1, haside.2.1]
    exact htask.pended

theorem goesOn_notifyMark (h : Idle M t) (hroutine : M.routine t = .notifyMark) :
    MachineInv
      ({ M with ucNotifyState := Function.update M.ucNotifyState t .waiting }.setRoutine t
        .notifyAdd) ∧
      MachineInv (M.setRoutine t .notifyResume) := by
  have htask := h.inv.tasks t
  have hdeaf := htask.deaf (by simp [hroutine]) (by rw [hroutine]; rfl)
  have hready := htask.awake (by rw [hroutine]; rfl)
  have hwindow := htask.window (by rw [hroutine]; rfl)
  refine ⟨h.marks _ M.ulNotifiedValue (fun u hu => Function.update_of_ne hu ..) ?_,
    h.marks M.ucNotifyState M.ulNotifiedValue (fun _ _ => rfl) ?_⟩
  · refine .inRoutine h.frame (fun _ => hwindow) (by simp) (fun _ => hready) (by simp)
      (fun _ => .inl (by simp)) ?_
    exact fun hmem => absurd hmem hdeaf.2
  · refine .inRoutine h.frame (fun _ => hwindow) (by simp) (by simp [Routine.awake]) (by simp) ?_ ?_
    · rintro (hwait | hmem)
      · exact absurd hwait hdeaf.1
      · exact absurd hmem hdeaf.2
    · exact fun hmem => absurd hmem hdeaf.2

theorem goesOn_notifyResume (h : Idle M t) (hroutine : M.routine t = .notifyResume) :
    MachineInv (M.xTaskResumeAll.setRoutine t .notifyTake) := by
  have htask := h.inv.tasks t
  obtain ⟨hone, -⟩ := htask.window (by rw [hroutine]; rfl)
  have hadd : M.routine t ≠ .notifyAdd := by simp [hroutine]
  have hne : M.k.uxSchedulerSuspended ≠ 0 := by omega
  have hresumed := h.resumed hadd hne
  have hpended : M.xTaskResumeAll.xPendingReadyList = [] := by
    rw [hresumed.pended, hone]
    rfl
  have hzero : M.xTaskResumeAll.k.uxSchedulerSuspended = 0 := by
    have hcpu := congrArg Prod.fst hresumed.cpu
    rw [hone] at hcpu
    exact hcpu
  refine h.resumes hadd hne
    (.inRoutine ((congrFun (congrArg View.frame hresumed.view) t).trans h.frame) ?_ (fun _ => hzero)
      ?_ ?_ ?_ ?_)
  · simp [Routine.inWindow]
  · simp [Routine.awake]
  · simp
  · rw [Machine.ucNotifyState_setRoutine, Machine.xPendingReadyList_setRoutine, hpended,
      hresumed.notify]
    rintro (hwait | hmem)
    · refine .inr ⟨by simp [Routine.listens], ?_⟩
      have hstate := ((htask.listens (.inl hwait)).resolve_left hadd).2
      exact hresumed.stays t hstate fun hmem => absurd hwait (htask.pended hmem).1
    · cases hmem
  · rw [Machine.xPendingReadyList_setRoutine, hpended]
    simp

theorem goesOn_notifyTake (h : Idle M t) (hroutine : M.routine t = .notifyTake) :
    MachineInv ({ M with
      ulNotifiedValue := Function.update M.ulNotifiedValue t 0
      ucNotifyState := Function.update M.ucNotifyState t .notWaiting }.setRoutine t .outside) := by
  have htask := h.inv.tasks t
  have hzero : M.k.uxSchedulerSuspended = 0 := by
    by_contra hne
    exact htask.free hroutine hne h.current
  have hnil := h.inv.pended_nil hzero
  refine h.marks _ _ (fun u hu => Function.update_of_ne hu ..)
    (.outside (by simp) (by simp) ?_ fun f hf => ?_)
  · rw [Machine.xPendingReadyList_setRoutine]
    simp [hnil]
  · cases h.frame.symm.trans hf

theorem goesOn (h : Idle M t) (hstep : M.goOn t = some M') : MachineInv M' := by
  unfold Machine.goOn at hstep
  split at hstep
  next => cases hstep
  next n hroutine =>
    cases hstep
    exact h.goesOn_delayAdd hroutine
  next hroutine =>
    cases hstep
    obtain ⟨hone, -⟩ := (h.inv.tasks t).window (by rw [hroutine]; rfl)
    exact h.returns (by simp [hroutine]) (by rw [hroutine]; rfl) (by omega)
  next hroutine =>
    obtain ⟨hmarked, hskipped⟩ := h.goesOn_notifyMark hroutine
    split at hstep <;> cases hstep
    · exact hmarked
    · exact hskipped
  next hroutine =>
    cases hstep
    exact h.goesOn_notifyAdd hroutine
  next hroutine =>
    cases hstep
    exact h.goesOn_notifyResume hroutine
  next hroutine =>
    cases hstep
    exact h.goesOn_notifyTake hroutine

/-- `ulTaskNotifyTake`, outside of any routine. -/
theorem takes (h : Idle M t) (hroutine : M.routine t = .outside)
    (hzero : M.k.uxSchedulerSuspended = 0) :
    MachineInv (M.ulTaskNotifyTake t) := by
  have hdeaf := (h.inv.tasks t).deaf (by simp [hroutine]) (by rw [hroutine]; rfl)
  unfold Machine.ulTaskNotifyTake
  split
  next => exact h.suspends hroutine hzero rfl (by simp)
  next =>
    refine h.marks M.ucNotifyState M.ulNotifiedValue (fun _ _ => rfl)
      (.inRoutine h.frame (by simp [Routine.inWindow]) (fun _ => hzero) (by simp [Routine.awake])
        (by simp) ?_ ?_)
    · rintro (hwait | hmem)
      · exact absurd hwait hdeaf.1
      · exact absurd hmem hdeaf.2
    · exact fun hmem => absurd hmem hdeaf.2

end Idle

/-! ## Interrupts -/

/-- A notification is recorded. -/
theorem notified (h : MachineInv M) (t : TaskId) (ulNotifiedValue : TaskId → Nat) :
    MachineInv
      { M with ucNotifyState := Function.update M.ucNotifyState t .received, ulNotifiedValue } := by
  refine ⟨h.kernel, h.ranks, h.clock, h.listed.of_lists rfl rfl rfl rfl, h.timely, h.nodup,
    fun u => ?_⟩
  refine (h.tasks u).same rfl rfl rfl rfl rfl ?_ id
  by_cases hu : u = t
  · subst hu
    simp
  · simp [hu]

/-- A notification wakes the task that waits for it. -/
theorem notifies_ready (h : MachineInv M) {ulNotifiedValue : TaskId → Nat}
    (hwait : M.ucNotifyState t = .waiting) (hzero : M.k.uxSchedulerSuspended = 0) :
    MachineInv (({ M with ucNotifyState := Function.update M.ucNotifyState t .received
                          ulNotifiedValue }.removeStateItem t).prvAddTaskToReadyList t) := by
  have htask := h.tasks t
  have hwindow : ¬ (M.routine t).inWindow := fun hin => by
    have hone := (htask.window hin).1
    omega
  obtain ⟨hlistens, hstate⟩ : (M.routine t).listens ∧ (M.k.slot t).state = .suspended := by
    refine (htask.listens (.inl hwait)).resolve_left fun hadd => hwindow ?_
    rw [hadd]
    rfl
  have hframe : (M.k.task t).frame = none := htask.frameless fun hout => by
    rw [hout] at hlistens
    cases hlistens
  have hk : M.k.prvAddTaskToReadyList t = M.k.readyPended t := by
    rw [State.readyPended, h.kernel.wait.removeEventItem_eq hframe]
  have hslot := M.k.slot_prvAddTaskToReadyList t
  have hview : (M.k.prvAddTaskToReadyList t).view = M.k.view := State.view_prvAddTaskToReadyList ..
  have hblocked : (M.k.sched.xStateList t).blocked := by
    have hsched : M.k.sched.xStateList t = .suspended := hstate
    rw [hsched]
    rfl
  have hready :=
    h.listed.makeReady (t := t) (by simp [hstate]) (Machine.bound_of_ranks h.ranks t) rfl hslot
  have hnil := h.pended_nil hzero
  refine ⟨?_, ?_, h.clock, hready.of_lists rfl rfl rfl rfl, fun u => ?_, h.nodup, fun u => ?_⟩
  · change KernelInv (M.k.prvAddTaskToReadyList t)
    rw [hk]
    exact h.kernel.readyPended hblocked
  · exact h.ranks.of_prios fun u => .inl (congrFun (State.prios_prvAddTaskToReadyList ..) u)
  · change ((M.k.prvAddTaskToReadyList t).slot u).Timely M.k.xTickCount
    rw [hslot]
    by_cases hu : u = t
    · subst hu
      rw [Function.update_self]
      exact .of_ready rfl
    · rw [Function.update_of_ne hu]
      exact h.timely u
  · by_cases hu : u = t
    · subst hu
      refine .inRoutine ((congrFun (congrArg View.frame hview) u).trans hframe)
        (fun hin => absurd hin hwindow) (fun _ => hzero)
        (fun hawake => absurd (Routine.inWindow_of_awake hawake) hwindow) htask.delay ?_ ?_
      · rintro (hwaits | hmem)
        · exact absurd ((Function.update_self ..).symm.trans hwaits) (by simp)
        · have hnot : u ∈ ([] : List TaskId) := hnil ▸ hmem
          cases hnot
      · intro hmem
        have hnot : u ∈ ([] : List TaskId) := hnil ▸ hmem
        cases hnot
    · refine (h.tasks u).other h.kernel (fun hone => by omega) (fun hne => absurd hzero hne) rfl
        (congrFun (congrArg View.frame hview) u) (Function.update_of_ne hu ..) (fun hmem => ?_)
        fun hsuspended _ _ => ?_
      · have hnot : u ∈ ([] : List TaskId) := hnil ▸ hmem
        cases hnot
      · change ((M.k.prvAddTaskToReadyList t).slot u).state = .suspended
        rw [hslot, Function.update_of_ne hu]
        exact hsuspended

theorem notifies (h : MachineInv M) (t : TaskId) : MachineInv (M.vTaskNotifyGiveFromIsr t) := by
  have hnotified :=
    h.notified t (Function.update M.ulNotifiedValue t ((M.ulNotifiedValue t + 1) % 2 ^ 32))
  have htask := h.tasks t
  unfold Machine.vTaskNotifyGiveFromIsr
  dsimp only
  split
  next hwait =>
    split
    next => exact hnotified.halt _
    next hfree =>
      rw [not_or, not_not] at hfree
      split
      next hzero => exact h.notifies_ready hwait hzero
      next hne =>
        refine ⟨h.kernel, h.ranks, h.clock, h.listed.of_lists rfl rfl rfl rfl, h.timely, ?_,
          fun u => ?_⟩
        · exact List.nodup_append.mpr
            ⟨h.nodup, by simp, fun u hu w hw huw => hfree.2 (List.mem_singleton.mp hw ▸ huw ▸ hu)⟩
        · by_cases hu : u = t
          · subst hu
            exact ⟨htask.frameless, htask.window, htask.free, htask.awake, htask.delay,
              htask.unplaced, htask.ticks, fun _ => htask.listens (.inl hwait), fun _ =>
                ⟨by simp, hne⟩⟩
          · refine (hnotified.tasks u).same rfl rfl rfl rfl rfl id fun hmem => ?_
            exact (List.mem_append.mp hmem).resolve_right (by simpa using hu)
  next => exact hnotified

theorem switches (h : MachineInv M) (hfault : M.k.fault = none) :
    MachineInv M.vTaskSwitchContext := by
  unfold Machine.vTaskSwitchContext
  split
  next => exact h
  next hzero =>
    rw [not_not] at hzero
    dsimp only
    split
    next => exact h.halt _
    next t hnext =>
      have hmem : t ∈ M.items (.ready (portGetHighestPriority M.uxTopReadyPriority)) :=
        Lib.Circular.mem_of_next hnext
      have hready : (M.k.slot t).state = .ready := (Slot.home_ready.mp (h.listed.mem.mp hmem)).1
      have hrun : M.k.canRun t :=
        (M.k.canRun_iff t).mpr ⟨hfault, fun _ => hready, fun hne => absurd hzero hne⟩
      have hswitched := h.switchTo hrun
      refine ⟨hswitched.kernel, hswitched.ranks, hswitched.clock, ?_, hswitched.timely,
        hswitched.nodup, fun u => (hswitched.tasks u).same rfl rfl rfl rfl rfl id id⟩
      have hadvanced := h.listed.advance (.ready (portGetHighestPriority M.uxTopReadyPriority))
      exact hadvanced.of_lists rfl rfl rfl rfl

/-! ## The step lemma -/

theorem canRun_switchTo {k : State α} (hrun : k.canRun t) : (k.switchTo t).canRun t := by
  obtain ⟨hfault, hready, -⟩ := (k.canRun_iff t).mp hrun
  exact ((k.switchTo t).canRun_iff t).mpr ⟨hfault, hready, fun _ => rfl⟩

theorem step {act : MachineAct α} (h : MachineInv M) (hok : act.Promised M)
    (hstep : M.step act = some M') :
    MachineInv M' := by
  have hidle {t : TaskId} (hrun : M.k.canRun t) (hframe : (M.k.task t).frame = none) :
      Idle (M.onKernel (·.switchTo t)) t := ⟨h.switchTo hrun, canRun_switchTo hrun, rfl, hframe⟩
  have hpromised {a : Act α} (t : TaskId) (hok : (MachineAct.act a).Promised M) :
      (MachineAct.act a).Promised (M.onKernel (·.switchTo t)) := by cases a <;> exact hok
  cases act with
  | act a =>
      simp only [Machine.step] at hstep
      split at hstep
      next =>
        split at hstep <;> cases hstep
        exact h.tick
      next t hactor =>
        split at hstep
        next hrun =>
          obtain ⟨hrun, hroutine⟩ := hrun
          split at hstep
          next frame u hframe =>
            cases hactor
            cases hstep
            exact (h.switchTo hrun).runFrame (t := t) (canRun_switchTo hrun) rfl hframe
          next => cases hstep
          next hframe =>
            exact (hidle hrun hframe).performs hroutine hactor (hpromised t hok) hstep
        next => cases hstep
  | goOn t =>
      simp only [Machine.step] at hstep
      split at hstep
      next hrun =>
        by_cases hroutine : M.routine t = .outside
        · have hnone : (M.onKernel (·.switchTo t)).goOn t = none := by
            unfold Machine.goOn
            rw [show (M.onKernel (·.switchTo t)).routine t = .outside from hroutine]
          rw [hnone] at hstep
          cases hstep
        · exact (hidle hrun ((h.tasks t).frameless hroutine)).goesOn hstep
      next => cases hstep
  | notifyTake t =>
      simp only [Machine.step] at hstep
      split at hstep
      next hrun =>
        obtain ⟨hrun, hroutine, hframe⟩ := hrun
        cases hstep
        exact (hidle hrun (Option.isNone_iff_eq_none.mp hframe)).takes hroutine hok
      next => cases hstep
  | notifyGive t =>
      simp only [Machine.step] at hstep
      split at hstep <;> cases hstep
      exact h.notifies t
  | switchContext =>
      simp only [Machine.step] at hstep
      split at hstep
      next hfault =>
        cases hstep
        exact h.switches (Option.isNone_iff_eq_none.mp hfault)
      next => cases hstep

end MachineInv

end SimulatedLinux.Kernel
