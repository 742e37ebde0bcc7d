import SimulatedLinux.Kernel.Follow
import SimulatedLinux.Kernel.Rests

/-! # The invariant of the lists

The lists agree with the tasks in every run. Along the way one has to know where in its code each
task is that does not run: a task that has suspended the scheduler is in its ready list until it
blocks, and a task that waits for a notification is in the suspended list.
-/

namespace SimulatedLinux.Kernel

variable {α : Type}

/-- The points at which the routine has suspended the scheduler. -/
def Routine.inWindow : Routine → Bool
  | outside | notifyTake => false
  | _ => true

/-- The points at which a task that has suspended the scheduler is still in its ready list. -/
def Routine.awake : Routine → Bool
  | delayAdd _ | notifyMark | notifyAdd => true
  | _ => false

/-- The points at which a task may be in the suspended list. -/
def Routine.listens : Routine → Bool
  | notifyResume | notifyTake => true
  | _ => false

theorem add_mod_ne {m n M : Nat} (hm : m < M) (hpos : 0 < n) (hn : n < M) : (m + n) % M ≠ m := by
  rcases Nat.lt_or_ge (m + n) M with hlt | hge
  · rw [Nat.mod_eq_of_lt hlt]
    omega
  · rw [Nat.mod_eq_sub_mod hge, Nat.mod_eq_of_lt (by omega)]
    omega

/-- What is known of one task. -/
structure TaskOk (M : Machine α) (t : TaskId) : Prop where
  frameless : M.routine t ≠ .outside → (M.k.task t).frame = none
  window : (M.routine t).inWindow → M.k.uxSchedulerSuspended = 1 ∧ M.k.pxCurrentTCB = t
  free : M.routine t = .notifyTake → M.k.uxSchedulerSuspended ≠ 0 → M.k.pxCurrentTCB ≠ t
  awake : (M.routine t).awake → (M.k.slot t).state = .ready
  delay : ∀ n, M.routine t = .delayAdd n → 0 < n ∧ n < tickModulus
  unplaced : ∀ f, (M.k.task t).frame = some f → f.pc.unplaced → (M.k.slot t).state = .ready
  ticks : ∀ f, (M.k.task t).frame = some f → f.xTicksToWait < tickModulus ∧
    (f.pc.waits → 0 < f.xTicksToWait)
  /-- A task that waits for a notification is about to block, or it has. -/
  listens : M.ucNotifyState t = .waiting ∨ t ∈ M.xPendingReadyList →
    M.routine t = .notifyAdd ∨ (M.routine t).listens ∧ (M.k.slot t).state = .suspended
  pended : t ∈ M.xPendingReadyList → M.ucNotifyState t ≠ .waiting ∧ M.k.uxSchedulerSuspended ≠ 0

/-- The invariant of the machine. -/
structure MachineInv (M : Machine α) : Prop where
  kernel : KernelInv M.k
  ranks : Ranks M.k
  clock : M.k.ClockOk
  listed : M.Listed
  timely : ∀ t, (M.k.slot t).Timely M.k.xTickCount
  nodup : M.xPendingReadyList.Nodup
  tasks : ∀ t, TaskOk M t

theorem Pc.inWindow_of_unplaced {pc : Pc α} (h : pc.unplaced) : pc.inWindow := by
  cases pc <;> simp_all [unplaced, inWindow]

theorem Pc.waits_cases {pc : Pc α} (h : pc.waits) : pc.unplaced ∨ pc = .suspendAll := by
  cases pc <;> simp_all [unplaced, waits]

theorem Routine.inWindow_of_awake {routine : Routine} (h : routine.awake) : routine.inWindow := by
  cases routine <;> simp_all [awake, inWindow]

namespace TaskOk

variable {M M' : Machine α} {t u : TaskId}

/-- A task waits for a notification at few points only. -/
theorem deaf (h : TaskOk M t) (hadd : M.routine t ≠ .notifyAdd)
    (hlistens : (M.routine t).listens = false) :
    M.ucNotifyState t ≠ .waiting ∧ t ∉ M.xPendingReadyList := by
  rw [← not_or]
  intro hwaits
  rcases h.listens hwaits with hroutine | ⟨hroutine, -⟩
  · exact hadd hroutine
  · rw [hlistens] at hroutine
    cases hroutine

/-- A task that has not suspended the scheduler while others run. -/
theorem other (h : TaskOk M u) (hkernel : KernelInv M.k)
    (hnot : M.k.uxSchedulerSuspended = 1 → M.k.pxCurrentTCB ≠ u)
    (hnot' : M'.k.uxSchedulerSuspended ≠ 0 → M'.k.pxCurrentTCB ≠ u)
    (hroutine : M'.routine u = M.routine u) (hframe : (M'.k.task u).frame = (M.k.task u).frame)
    (hnotify : M'.ucNotifyState u = M.ucNotifyState u)
    (hpended : u ∈ M'.xPendingReadyList → u ∈ M.xPendingReadyList ∧ M'.k.uxSchedulerSuspended ≠ 0)
    (hstate : (M.k.slot u).state = .suspended → (M.k.task u).frame = none →
      (u ∈ M.xPendingReadyList → u ∈ M'.xPendingReadyList) → (M'.k.slot u).state = .suspended) :
    TaskOk M' u := by
  have hwindow : ¬ (M.routine u).inWindow := fun hin => hnot (h.window hin).1 (h.window hin).2
  refine ⟨?_, ?_, fun _ => hnot', ?_, ?_, ?_, ?_, ?_, ?_⟩
  · rw [hroutine, hframe]
    exact h.frameless
  · rw [hroutine]
    exact fun hin => absurd hin hwindow
  · rw [hroutine]
    exact fun hawake => absurd (Routine.inWindow_of_awake hawake) hwindow
  · rw [hroutine]
    exact h.delay
  · rw [hframe]
    intro f hf hpc
    obtain ⟨hone, hcurrent⟩ := hkernel.wait.window.window u f hf (Pc.inWindow_of_unplaced hpc)
    exact absurd hcurrent (hnot hone)
  · rw [hframe]
    exact h.ticks
  · rw [hroutine, hnotify]
    intro hlistens
    rcases h.listens (hlistens.imp_right fun hmem => (hpended hmem).1) with
      hadd | ⟨hlisten, hsuspended⟩
    · exact .inl hadd
    · refine .inr ⟨hlisten, hstate hsuspended (h.frameless fun hout => ?_) fun hmem => ?_⟩
      · rw [hout] at hlisten
        cases hlisten
      · exact hlistens.resolve_left (h.pended hmem).1
  · intro hmem
    rw [hnotify]
    exact ⟨(h.pended (hpended hmem).1).1, (hpended hmem).2⟩

/-- The running task, when it is in no routine and waits for no notification. -/
theorem outside (hroutine : M'.routine t = .outside) (hwaiting : M'.ucNotifyState t ≠ .waiting)
    (hnot : t ∉ M'.xPendingReadyList)
    (hframe : ∀ f, (M'.k.task t).frame = some f → f.xTicksToWait < tickModulus ∧
      (f.pc.waits → 0 < f.xTicksToWait) ∧ (f.pc.unplaced → (M'.k.slot t).state = .ready)) :
    TaskOk M' t := by
  refine ⟨?_, ?_, ?_, ?_, ?_, fun f hf => (hframe f hf).2.2, fun f hf =>
      ⟨(hframe f hf).1, (hframe f hf).2.1⟩, ?_, ?_⟩
  · exact fun hout => absurd hroutine hout
  · simp [hroutine, Routine.inWindow]
  · simp [hroutine]
  · simp [hroutine, Routine.awake]
  · simp [hroutine]
  · rintro (hwait | hmem)
    · exact absurd hwait hwaiting
    · exact absurd hmem hnot
  · exact fun hmem => absurd hmem hnot

/-- A task that is in no blocking function. -/
theorem inRoutine (hframe : (M'.k.task t).frame = none)
    (hwindow : (M'.routine t).inWindow → M'.k.uxSchedulerSuspended = 1 ∧ M'.k.pxCurrentTCB = t)
    (hfree : M'.routine t = .notifyTake → M'.k.uxSchedulerSuspended = 0)
    (hawake : (M'.routine t).awake → (M'.k.slot t).state = .ready)
    (hdelay : ∀ n, M'.routine t = .delayAdd n → 0 < n ∧ n < tickModulus)
    (hlistens : M'.ucNotifyState t = .waiting ∨ t ∈ M'.xPendingReadyList →
      M'.routine t = .notifyAdd ∨ (M'.routine t).listens ∧ (M'.k.slot t).state = .suspended)
    (hpended : t ∈ M'.xPendingReadyList → M'.ucNotifyState t ≠ .waiting ∧
      M'.k.uxSchedulerSuspended ≠ 0) :
    TaskOk M' t := by
  refine ⟨fun _ => hframe, hwindow, fun htake hne => absurd (hfree htake) hne, hawake, hdelay,
    fun f hf => ?_, fun f hf => ?_, hlistens, hpended⟩
  · cases hframe.symm.trans hf
  · cases hframe.symm.trans hf

/-- Nothing that is known of a task has changed. -/
theorem same (h : TaskOk M t) (hk : M'.k.uxSchedulerSuspended = M.k.uxSchedulerSuspended)
    (hcurrent : M'.k.pxCurrentTCB = M.k.pxCurrentTCB)
    (hframe : (M'.k.task t).frame = (M.k.task t).frame) (hslot : M'.k.slot t = M.k.slot t)
    (hroutine : M'.routine t = M.routine t)
    (hnotify : M'.ucNotifyState t = .waiting → M.ucNotifyState t = .waiting)
    (hpended : t ∈ M'.xPendingReadyList → t ∈ M.xPendingReadyList) : TaskOk M' t := by
  refine ⟨?_, ?_, ?_, ?_, ?_, ?_, ?_, ?_, ?_⟩
  · rw [hroutine, hframe]
    exact h.frameless
  · rw [hroutine, hk, hcurrent]
    exact h.window
  · rw [hroutine, hk, hcurrent]
    exact h.free
  · rw [hroutine, hslot]
    exact h.awake
  · rw [hroutine]
    exact h.delay
  · rw [hframe, hslot]
    exact h.unplaced
  · rw [hframe]
    exact h.ticks
  · rw [hroutine, hslot]
    exact fun hlistens => h.listens (hlistens.imp hnotify hpended)
  · rw [hk]
    exact fun hmem => ⟨fun hwait => (h.pended (hpended hmem)).1 (hnotify hwait),
      (h.pended (hpended hmem)).2⟩

end TaskOk

namespace MachineInv

variable {M M' : Machine α} {t : TaskId}

theorem tickReady (h : MachineInv M) : M.TickReady :=
  ⟨h.listed, Machine.bound_of_ranks h.ranks, h.kernel.wait.lists.unspawned, h.clock, h.timely⟩

/-- The pended tasks are in the suspended list, unless the running task is about to block. -/
theorem pended_suspended (h : MachineInv M) (hroutine : M.routine M.k.pxCurrentTCB ≠ .notifyAdd) :
    ∀ u ∈ M.xPendingReadyList, (M.k.slot u).state = .suspended := by
  intro u hu
  rcases (h.tasks u).listens (.inr hu) with hadd | ⟨-, hstate⟩
  · have hcurrent := ((h.tasks u).window (by rw [hadd]; rfl)).2
    rw [hcurrent] at hroutine
    exact absurd hadd hroutine
  · exact hstate

/-- Nothing is pended while the scheduler runs. -/
theorem pended_nil (h : MachineInv M) (hzero : M.k.uxSchedulerSuspended = 0) :
    M.xPendingReadyList = [] := by
  rw [List.eq_nil_iff_forall_not_mem]
  exact fun u hu => ((h.tasks u).pended hu).2 hzero

theorem tick (h : MachineInv M) : MachineInv M.xTaskIncrementTick := by
  have hready := h.tickReady
  obtain ⟨hlisted, hk, haside⟩ := hready.xTaskIncrementTick_eq
  have hready' := hready.xTaskIncrementTick
  have hview := State.view_xTaskIncrementTick M.k
  have hcpu := State.cpu_xTaskIncrementTick M.k
  simp only [Machine.aside, Prod.mk.injEq] at haside
  obtain ⟨hpended, hnotify, -, hroutine⟩ := haside
  refine ⟨?_, ?_, hready'.clock, hlisted, hready'.timely, ?_, fun u => ?_⟩
  · rw [hk]
    exact ⟨h.kernel.wait.tick, h.kernel.dying.tick h.kernel.wait⟩
  · rw [hk]
    exact h.ranks.of_prios fun u => .inl (congrFun (State.prios_xTaskIncrementTick M.k) u)
  · rw [hpended]
    exact h.nodup
  · by_cases hzero : M.k.uxSchedulerSuspended = 0
    · refine (h.tasks u).other h.kernel (fun hone => by omega) (fun hne => absurd ?_ hne)
        ?_ ?_ ?_ ?_ ?_
      · rw [hk, Machine.suspended_tick]
        exact hzero
      · rw [hroutine]
      · rw [hk]
        exact congrFun (congrArg View.frame hview) u
      · rw [hnotify]
      · rw [hpended, h.pended_nil hzero]
        simp
      · intro hstate _ _
        rw [hk, State.slot_xTaskIncrementTick hready.unspawned hzero,
          Slot.ticked_cases h.clock (h.timely u), hstate]
        exact hstate
    · rw [Machine.xTaskIncrementTick, if_neg hzero]
      exact (h.tasks u).same rfl rfl rfl rfl rfl id id

/-- The task that runs next. -/
theorem switchTo (h : MachineInv M) (hrun : M.k.canRun t) :
    MachineInv (M.onKernel (·.switchTo t)) := by
  refine ⟨h.kernel.switchTo hrun, ⟨h.ranks.bound, h.ranks.value, h.ranks.base⟩, h.clock,
    h.listed.onKernel _, h.timely, h.nodup, fun u => ?_⟩
  have htask := h.tasks u
  refine ⟨htask.frameless, fun hin => ?_, fun htake hne => ?_, htask.awake, htask.delay,
    htask.unplaced, htask.ticks, htask.listens, htask.pended⟩
  · obtain ⟨hone, hcurrent⟩ := htask.window hin
    have ht := ((M.k.canRun_iff t).mp hrun).2.2 (by omega)
    exact ⟨hone, ht.symm.trans hcurrent⟩
  · have ht := ((M.k.canRun_iff t).mp hrun).2.2 hne
    exact fun heq => htask.free htake hne (ht.trans heq)

/-! ## Steps of a blocking function -/

/-- The kernel a resumption starts from. -/
theorem roused (h : MachineInv M) (hroutine : M.routine M.k.pxCurrentTCB ≠ .notifyAdd) :
    KernelInv M.roused ∧ Ranks M.roused ∧ M.roused.view = M.k.view ∧ M.roused.cpu = M.k.cpu := by
  have hready (k : State α) (t : TaskId) : (k.readyPended t).view = k.view ∧
      (k.readyPended t).cpu = k.cpu ∧ (k.readyPended t).prios = k.prios := by
    refine ⟨?_, k.cpu_removeEventItem t, ?_⟩
    · rw [State.readyPended, State.view_prvAddTaskToReadyList, State.view_removeEventItem]
    · rw [State.readyPended, State.prios_prvAddTaskToReadyList, State.prios_removeEventItem]
  have hpended := h.pended_suspended hroutine
  unfold Machine.roused
  split
  next =>
    have hcpu (tasks : List TaskId) (k : State α) :
        (tasks.foldl State.readyPended k).cpu = k.cpu := by
      -- on the tasks that were pended, which are readied one by one
      induction tasks generalizing k with
      | nil => rfl
      | cons t rest ih => rw [List.foldl_cons, ih, (hready k t).2.1]
    have hprios := State.prios_foldl M.k (fun k t => (hready k t).2.2) M.xPendingReadyList
    refine ⟨h.kernel.foldl_readyPended h.nodup fun u hu => ?_, ?_, ?_, hcpu _ _⟩
    · have hstate : M.k.sched.xStateList u = .suspended := hpended u hu
      rw [hstate]
      rfl
    · exact h.ranks.of_prios fun u => .inl (congrFun hprios u)
    · exact State.view_foldl M.k (fun k t => (hready k t).1) _
  next => exact ⟨h.kernel, h.ranks, rfl, rfl⟩

theorem step_run_eq {k : State α} {frame : Frame α} (hrun : k.canRun t)
    (hcurrent : k.pxCurrentTCB = t) (hframe : (k.task t).frame = some frame) :
    k.step (.run t) = some (k.runFrame t frame) := by
  have hsame : k.switchTo t = k := by
    rw [← hcurrent]
    rfl
  simp only [State.step, Act.actor, if_pos hrun, hframe, hsame]

variable {frame : Frame α}

theorem running (h : MachineInv M) (hrun : M.k.canRun t) (hcurrent : M.k.pxCurrentTCB = t)
    (hframe : (M.k.task t).frame = some frame) : Running M.k t frame :=
  ⟨h.kernel.wait, hcurrent, hframe, ((M.k.canRun_iff t).mp hrun).2.1⟩

theorem routine_outside (h : MachineInv M) (hframe : (M.k.task t).frame = some frame) :
    M.routine t = .outside := by
  by_contra hne
  have hnone := (h.tasks t).frameless hne
  rw [hframe] at hnone
  cases hnone

theorem frameReady (h : MachineInv M) (hrun : M.k.canRun t) (hcurrent : M.k.pxCurrentTCB = t)
    (hframe : (M.k.task t).frame = some frame) : M.FrameReady t frame := by
  refine ⟨h.tickReady, h.ranks, h.running hrun hcurrent hframe, fun hpc => ?_, h.nodup, fun _ => ?_⟩
  · exact (h.tasks t).unplaced frame hframe (by rw [hpc]; rfl)
  · refine h.pended_suspended ?_
    rw [hcurrent, h.routine_outside hframe]
    simp

/-- A step of the kernel, as far as it does not concern the lists. -/
theorem stepped {k k' : State α} (act : Act α) (hkernel : KernelInv k) (hranks : Ranks k)
    (hclock : k.ClockOk) (hok : act.unsuspended k) (hstep : k.step act = some k') :
    KernelInv k' ∧ Ranks k' ∧ k'.ClockOk :=
  ⟨hkernel.step hok hstep, hranks.step (State.reprioritised_step hstep),
    (State.time_step hclock hstep).1⟩

theorem delayedSlot_timely {k : State α} (hclock : k.ClockOk) (slot : Slot) {xTicksToWait : Nat}
    (hpos : 0 < xTicksToWait) (hlt : xTicksToWait < tickModulus) (forever : Bool) :
    (k.delayedSlot slot xTicksToWait forever).Timely k.xTickCount := by
  unfold State.delayedSlot
  split
  next => constructor <;> simp [Slot.setState]
  next =>
    have hwake := add_mod_ne hclock hpos hlt
    have hmod := Nat.mod_lt (k.xTickCount + xTicksToWait) (Nat.two_pow_pos 32)
    dsimp only
    split
    next hwrap => exact ⟨by simp, fun _ => hwrap⟩
    next hlater =>
      exact ⟨fun _ => ⟨Nat.lt_of_le_of_ne (Nat.le_of_not_lt hlater) (Ne.symm hwake), hmod⟩, by simp⟩

section RunFrame

variable (h : MachineInv M) (hrun : M.k.canRun t) (hcurrent : M.k.pxCurrentTCB = t)
  (hframe : (M.k.task t).frame = some frame)
include h hrun hcurrent hframe

/-- The step that resumes the scheduler, which is one of the roused kernel. -/
theorem runFrame_resumes {after : AfterUnlock} (hpc : frame.pc = .resumeAll after) :
    MachineInv (M.runFrame t frame) := by
  have hready := h.frameReady hrun hcurrent hframe
  have hrunning := h.running hrun hcurrent hframe
  have hroutine := h.routine_outside hframe
  have hout : M.routine M.k.pxCurrentTCB ≠ .notifyAdd := by
    rw [hcurrent, hroutine]
    simp
  have hdeaf := (h.tasks t).deaf (by simp [hroutine]) (by rw [hroutine]; rfl)
  obtain ⟨htick, hk, haside⟩ := hready.resumes hpc
  obtain ⟨hkernel, hranks, hview, hcpu⟩ := h.roused hout
  have hone : M.k.uxSchedulerSuspended = 1 := by
    rw [hrunning.suspended_eq, hpc]
    rfl
  have hcurrent' : M.roused.pxCurrentTCB = t := (congrArg Prod.snd hcpu).trans hcurrent
  have hrouse : M.roused.canRun t := by
    refine (M.roused.canRun_iff t).mpr ⟨?_, fun hzero => ?_, fun _ => hcurrent'⟩
    · exact (congrArg View.fault hview).trans ((M.k.canRun_iff t).mp hrun).1
    · rw [M.roused_suspended, hone] at hzero
      cases hzero
  have hframe' : (M.roused.task t).frame = some frame :=
    (congrFun (congrArg View.frame hview) t).trans hframe
  obtain ⟨hkernel', hranks', -⟩ := stepped (.run t) hkernel hranks
    (State.clockOk_of_clock M.roused_clock h.clock) trivial (step_run_eq hrouse hcurrent' hframe')
  have hrunning' : Running M.roused t frame :=
    ⟨hkernel.wait, hcurrent', hframe', ((M.roused.canRun_iff t).mp hrouse).2.1⟩
  simp only [Machine.aside, Prod.mk.injEq, hone] at haside
  obtain ⟨hpended, hnotify, -, hroutines⟩ := haside
  have hran : Ran M.roused.view t frame (M.roused.runFrame t frame).view :=
    State.ran_runFrame hcurrent'
  refine ⟨hk ▸ hkernel', hk ▸ hranks', htick.clock, htick.listed, htick.timely, by simp [hpended],
    fun u => ?_⟩
  by_cases hu : u = t
  · subst hu
    refine .outside (by rw [hroutines]; exact hroutine) (by rw [hnotify]; exact hdeaf.1)
      (by simp [hpended]) fun f hf => ?_
    rw [hk] at hf
    obtain ⟨hlt, hpos⟩ := (h.tasks u).ticks frame hframe
    rcases State.nextFrame_runFrame hframe' hf with ⟨rfl, -⟩ | hnext
    · exact ⟨hlt, hpos, by simp [hpc, Pc.unplaced]⟩
    · refine ⟨Nat.lt_of_le_of_lt hnext.ticks hlt, fun hwaits => ?_, fun hunplaced => ?_⟩
      · exact (hnext.waits hwaits).resolve_right (by simp [hpc, Pc.waits])
      · have hwaits := (hnext.unplaced hunplaced).1
        simp [hpc, Pc.waits] at hwaits
  · refine (h.tasks u).other h.kernel (fun _ heq => hu (heq.symm.trans hcurrent))
      (fun _ heq => ?_) (by rw [hroutines]) ?_ (by rw [hnotify]) (by simp [hpended]) ?_
    · rw [hk] at heq
      exact hu (heq.symm.trans hrunning'.runFrame_current)
    · rw [hk]
      exact (hran.frame_ne hu).trans (congrFun (congrArg View.frame hview) u)
    · intro hstate _ hstays
      have hfresh : u ∉ M.xPendingReadyList := fun hmem => by simpa [hpended] using hstays hmem
      obtain ⟨n, hslot, -⟩ :=
        h.tickReady.xTaskResumeAll_slot h.nodup (h.pended_suspended hout) u
      rw [M.roused_slot, if_neg fun hmem => hfresh hmem.2,
        Slot.elapsed_still (by simp [hstate]) (by simp [hstate])] at hslot
      rw [Machine.runFrame_resumeAll hpc]
      change (State.slot (M.xTaskResumeAll.k.afterResume t frame after) u).state = .suspended
      rw [State.slot_afterResume, hslot]
      exact hstate

/-- The task that runs, at any other step. -/
theorem runFrame_task (hpc : ∀ after, frame.pc ≠ .resumeAll after) :
    TaskOk (M.runFrame t frame) t := by
  have hready := h.frameReady hrun hcurrent hframe
  have hrunning := h.running hrun hcurrent hframe
  have hroutine := h.routine_outside hframe
  have hdeaf := (h.tasks t).deaf (by simp [hroutine]) (by rw [hroutine]; rfl)
  have hfollows := hready.follows hpc
  have hk := hfollows.kernel
  have haside := hfollows.aside
  simp only [Machine.aside, Prod.mk.injEq] at haside
  obtain ⟨hpended, hnotify, -, hroutines⟩ := haside
  have hrests := State.rests_runFrame hrunning hpc
  have htask := h.tasks t
  refine .outside (by rw [hroutines]; exact hroutine) (by rw [hnotify]; exact hdeaf.1)
    (by rw [hpended]; exact hdeaf.2) fun f hf => ?_
  rw [hk] at hf ⊢
  obtain ⟨hlt, hpos⟩ := htask.ticks frame hframe
  rcases State.nextFrame_runFrame hframe hf with ⟨rfl, hslot⟩ | hnext
  · rw [hslot]
    exact ⟨hlt, hpos, htask.unplaced f hframe⟩
  · refine ⟨Nat.lt_of_le_of_lt hnext.ticks hlt, fun hwaits => ?_, fun hunplaced => ?_⟩
    · rcases hnext.waits hwaits with hpos' | ⟨hbefore, heq⟩
      · exact hpos'
      · rw [heq]
        exact hpos hbefore
    · obtain ⟨hwaits, hplace⟩ := hnext.unplaced hunplaced
      have hawake : (M.k.slot t).state = .ready := by
        rcases Pc.waits_cases hwaits with hbefore | hsuspend
        · exact htask.unplaced frame hframe hbefore
        · refine hrunning.ready ?_
          rw [hrunning.suspended_eq, hsuspend]
          rfl
      rcases hrests t with (hrest | ⟨hwoken, -⟩) | ⟨-, hplaced, -⟩
      · exact hrest.state.trans hawake
      · exact hwoken
      · exact absurd hplaced hplace

/-- The other tasks, at such a step. -/
theorem runFrame_other (hpc : ∀ after, frame.pc ≠ .resumeAll after) {u : TaskId} (hu : u ≠ t) :
    TaskOk (M.runFrame t frame) u := by
  have hrunning := h.running hrun hcurrent hframe
  have hfollows := (h.frameReady hrun hcurrent hframe).follows hpc
  have hk := hfollows.kernel
  have haside := hfollows.aside
  simp only [Machine.aside, Prod.mk.injEq] at haside
  obtain ⟨hpended, hnotify, -, hroutines⟩ := haside
  have hran : Ran M.k.view t frame (M.k.runFrame t frame).view := State.ran_runFrame hcurrent
  refine (h.tasks u).other h.kernel (fun _ heq => hu (heq.symm.trans hcurrent)) (fun _ heq => ?_)
    (by rw [hroutines]) ?_ (by rw [hnotify]) ?_ ?_
  · rw [hk] at heq
    exact hu (heq.symm.trans hrunning.runFrame_current)
  · rw [hk]
    exact hran.frame_ne hu
  · rw [hpended, hk]
    intro hmem
    have hle : M.k.uxSchedulerSuspended ≤ (M.k.runFrame t frame).uxSchedulerSuspended :=
      (hrunning.runFrame_cpu hpc).2
    have hne := ((h.tasks u).pended hmem).2
    exact ⟨hmem, by omega⟩
  · rw [hk]
    intro hstate hnone _
    rcases State.rests_runFrame hrunning hpc u with (hrest | ⟨-, f, hf⟩) | ⟨heq, -⟩
    · exact hrest.state.trans hstate
    · have hf' : (M.k.task u).frame = some f := hf
      rw [hnone] at hf'
      cases hf'
    · exact absurd heq hu

theorem runFrame : MachineInv (M.runFrame t frame) := by
  by_cases hpc : ∃ after, frame.pc = .resumeAll after
  · obtain ⟨after, hpc⟩ := hpc
    exact h.runFrame_resumes hrun hcurrent hframe hpc
  have hpc := not_exists.mp hpc
  have hrunning := h.running hrun hcurrent hframe
  have hfollows := (h.frameReady hrun hcurrent hframe).follows hpc
  have hk := hfollows.kernel
  obtain ⟨hkernel, hranks, hclock⟩ := stepped (.run t) h.kernel h.ranks h.clock trivial
    (step_run_eq hrun hcurrent hframe)
  have htick : (M.k.runFrame t frame).xTickCount = M.k.xTickCount :=
    congrArg Prod.fst (M.k.clock_runFrame t frame hpc)
  refine ⟨hk ▸ hkernel, hk ▸ hranks, hk ▸ hclock, hfollows.listed, fun u => ?_, ?_, fun u => ?_⟩
  · rw [hk, htick]
    rcases State.rests_runFrame hrunning hpc u with (hrest | ⟨hwoken, -⟩) | ⟨rfl, hplace, hslot⟩
    · exact hrest.timely (h.timely u)
    · exact .of_ready hwoken
    · rw [hslot]
      obtain ⟨hlt, hpos⟩ := (h.tasks u).ticks frame hframe
      exact delayedSlot_timely h.clock _ (hpos (by rw [hplace]; rfl)) hlt true
  · have haside := hfollows.aside
    simp only [Machine.aside, Prod.mk.injEq] at haside
    rw [haside.1]
    exact h.nodup
  · by_cases hu : u = t
    · subst hu
      exact h.runFrame_task hrun hcurrent hframe hpc
    · exact h.runFrame_other hrun hcurrent hframe hpc hu

end RunFrame

end MachineInv

end SimulatedLinux.Kernel
