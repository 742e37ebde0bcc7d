import SimulatedLinux.Kernel.Placement

/-! # No notification is lost

`EthernetISR` gives a notification with `vTaskNotifyGiveFromISR`, and the task it is for takes all
of them with `ulTaskNotifyTake`. The task looks at its count twice before it blocks, and the
interrupt may come between any two steps, also while the scheduler is suspended. No task ever sleeps
while its count is not zero.
-/

namespace SimulatedLinux.Kernel

variable {α : Type}

/-- A change that concerns no notification: a task that was pended still is, or it has become
ready. -/
structure Heeds (M M' : Machine α) : Prop where
  state : M'.ucNotifyState = M.ucNotifyState
  value : M'.ulNotifiedValue = M.ulNotifiedValue
  pended : ∀ u ∈ M.xPendingReadyList, u ∈ M'.xPendingReadyList ∨
    (M.k.slot u).state = .suspended ∧ (M'.k.slot u).state = .ready

namespace Heeds

variable {M M' : Machine α} {t : TaskId}

theorem of_aside (haside : M'.aside = M.aside) : Heeds M M' := by
  simp only [Machine.aside, Prod.mk.injEq] at haside
  refine ⟨haside.2.1, haside.2.2.1, fun u hu => .inl ?_⟩
  rw [haside.1]
  exact hu

end Heeds

namespace MachineInv

variable {M M' : Machine α} {t u : TaskId}

theorem resumeAll_heeds (h : MachineInv M) (hroutine : M.routine M.k.pxCurrentTCB ≠ .notifyAdd) :
    Heeds M M.xTaskResumeAll ∧ M.xTaskResumeAll.routine = M.routine := by
  have hpended := h.pended_suspended hroutine
  obtain ⟨-, -, haside⟩ := h.tickReady.xTaskResumeAll h.nodup hpended h.kernel.wait.lists.noPending
  simp only [Machine.aside, Prod.mk.injEq] at haside
  refine ⟨⟨haside.2.1, haside.2.2.1, fun u hu => ?_⟩, haside.2.2.2⟩
  rw [haside.1]
  split
  next hzero =>
    obtain ⟨n, hslot, -⟩ := h.tickReady.xTaskResumeAll_slot h.nodup hpended u
    rw [M.roused_slot, if_pos ⟨hzero, hu⟩,
      Slot.elapsed_still (by simp [Slot.setState]) (by simp [Slot.setState])] at hslot
    rw [hslot]
    exact .inr ⟨hpended u hu, rfl⟩
  next => exact .inl hu

theorem runFrame_heeds (h : MachineInv M) (hrun : M.k.canRun t) (hcurrent : M.k.pxCurrentTCB = t)
    {frame : Frame α} (hframe : (M.k.task t).frame = some frame) :
    Heeds M (M.runFrame t frame) ∧ (M.runFrame t frame).routine = M.routine := by
  have hready := h.frameReady hrun hcurrent hframe
  by_cases hpc : ∃ after, frame.pc = .resumeAll after
  · obtain ⟨after, hpc⟩ := hpc
    obtain ⟨⟨hstate, hvalue, hpended⟩, hroutine⟩ :=
      h.resumeAll_heeds (by rw [hcurrent, h.routine_outside hframe]; simp)
    rw [Machine.runFrame_resumeAll hpc]
    refine ⟨⟨hstate, hvalue, fun u hu => (hpended u hu).imp_right fun hwoken => ⟨hwoken.1, ?_⟩⟩,
      hroutine⟩
    rw [Machine.onKernel, State.slot_afterResume]
    exact hwoken.2
  · have haside := (hready.follows (not_exists.mp hpc)).aside
    refine ⟨.of_aside haside, ?_⟩
    simp only [Machine.aside, Prod.mk.injEq] at haside
    exact haside.2.2.2

/-- Outside of a blocking function a task enters at most `vTaskDelay`. -/
theorem Idle.perform_heeds {a : Act α} (h : Idle M t) (hroutine : M.routine t = .outside)
    (hactor : a.actor = some t) (hstep : M.perform a = some M') :
    Heeds M M' ∧
      (M'.routine = M.routine ∨ ∃ n, M'.routine = Function.update M.routine t (.delayAdd n)) := by
  have hrest (haside : M'.aside = M.aside) :
      Heeds M M' ∧ (M'.routine = M.routine ∨
        ∃ n, M'.routine = Function.update M.routine t (.delayAdd n)) := by
    refine ⟨.of_aside haside, .inl ?_⟩
    simp only [Machine.aside, Prod.mk.injEq] at haside
    exact haside.2.2.2
  cases a with
  | tick => simp [Machine.perform, State.perform] at hstep
  | run w => simp [Machine.perform, State.perform] at hstep
  | call w api =>
      cases hstep
      exact hrest rfl
  | create w spec =>
      simp only [Machine.perform, State.perform] at hstep
      split at hstep <;> cases hstep <;> exact hrest rfl
  | delete w q =>
      simp only [Machine.perform, State.perform] at hstep
      split at hstep <;> cases hstep <;> exact hrest rfl
  | spawn w uxPriority =>
      simp only [Machine.perform] at hstep
      split at hstep <;> cases hstep <;> exact hrest rfl
  | exit w =>
      cases hactor
      cases hstep
      by_cases hzero : M.k.uxSchedulerSuspended = 0
      · exact hrest (h.inv.listed.follows_vTaskDelete (h.ready hzero)).aside
      · refine hrest ?_
        rw [Machine.vTaskDelete, if_neg hzero]
        rfl
  | reap w =>
      cases hstep
      refine hrest ?_
      unfold Machine.prvCheckTasksWaitingTermination
      split <;> rfl
  | delay w xTicksToDelay =>
      cases hactor
      simp only [Machine.perform] at hstep
      split at hstep
      next =>
        split at hstep <;> cases hstep
        · exact hrest rfl
        · exact ⟨⟨rfl, rfl, fun _ hu => .inl hu⟩, .inr ⟨_, rfl⟩⟩
      next =>
        cases hstep
        exact hrest rfl
  | suspendAll w =>
      cases hstep
      exact hrest rfl
  | resumeAll w =>
      simp only [Machine.perform] at hstep
      split at hstep <;> cases hstep
      · exact hrest rfl
      · obtain ⟨hheeds, hsame⟩ := h.inv.resumeAll_heeds (by rw [h.current, hroutine]; simp)
        exact ⟨hheeds, .inl hsame⟩

end MachineInv

/-! ## A task that waits -/

/-- What is known of a task and its notifications. -/
structure Attentive (M : Machine α) (t : TaskId) : Prop where
  silent : M.ucNotifyState t = .waiting → M.ulNotifiedValue t = 0
  /-- A task that has blocked, or is about to, waits, unless it will be woken when the scheduler is
  resumed. -/
  heard : M.routine t = .notifyAdd ∨ (M.routine t).listens ∧ (M.k.slot t).state = .suspended →
    M.ucNotifyState t = .waiting ∨ t ∈ M.xPendingReadyList

namespace Attentive

variable {M M' : Machine α} {t u : TaskId} {act : MachineAct α}

theorem deaf (hadd : M.routine t ≠ .notifyAdd) (hlistens : (M.routine t).listens = false)
    (hsilent : M.ucNotifyState t = .waiting → M.ulNotifiedValue t = 0) : Attentive M t := by
  refine ⟨hsilent, ?_⟩
  rintro (hroutine | ⟨hroutine, -⟩)
  · exact absurd hroutine hadd
  · rw [hlistens] at hroutine
    cases hroutine

/-- A step that concerns no notification. -/
theorem heeds (h : Attentive M u) (hok : TaskOk M u)
    (hstate : M'.ucNotifyState u = M.ucNotifyState u)
    (hvalue : M'.ulNotifiedValue u = M.ulNotifiedValue u)
    (hpended : u ∈ M.xPendingReadyList → u ∈ M'.xPendingReadyList ∨
      (M.k.slot u).state = .suspended ∧ (M'.k.slot u).state = .ready)
    (hadd : M'.routine u = .notifyAdd → M.routine u = .notifyAdd)
    (hlistens : (M'.routine u).listens → (M'.k.slot u).state = .suspended →
      M.routine u = .notifyAdd ∨ (M.routine u).listens ∧ (M.k.slot u).state = .suspended) :
    Attentive M' u := by
  refine ⟨?_, fun hroutine => ?_⟩
  · rw [hstate, hvalue]
    exact h.silent
  · have hbefore : M.routine u = .notifyAdd ∨ (M.routine u).listens ∧
        (M.k.slot u).state = .suspended :=
      hroutine.elim (fun hroutine => .inl (hadd hroutine)) fun hroutine =>
        hlistens hroutine.1 hroutine.2
    rw [hstate]
    refine (h.heard hbefore).imp_right fun hmem => (hpended hmem).resolve_right ?_
    rintro ⟨hsuspended, hready⟩
    rcases hroutine with hroutine | ⟨-, hsuspended'⟩
    · rw [hok.awake (by rw [hadd hroutine]; rfl)] at hsuspended
      cases hsuspended
    · rw [hready] at hsuspended'
      cases hsuspended'

end Attentive

/-- No tick brings a task into the suspended list. -/
theorem Slot.elapsed_suspended {slot : Slot} {xTickCount : Nat} (n : Nat)
    (h : (slot.elapsed xTickCount n).state = .suspended) : slot.state = .suspended := by
  induction n generalizing slot xTickCount with
  | zero => exact h
  | succ n ih =>
      have hticked := ih h
      obtain ⟨state, wake, priority⟩ := slot
      simp only [ticked] at hticked
      cases state <;> split at hticked <;> split at hticked <;> simp_all [switched, setState]

/-- Only its own step brings a task into the suspended list. -/
theorem StepOn.suspended {M M' : Machine α} {act : MachineAct α} {u : TaskId}
    (h : StepOn M M' act u) (hactor : act.actor ≠ some u)
    (hstate : (M'.k.slot u).state = .suspended) : (M.k.slot u).state = .suspended := by
  cases h.moved with
  | rests hrests => exact hrests.state.symm.trans hstate
  | elapsed n hslot =>
      rw [hslot] at hstate
      exact Slot.elapsed_suspended n hstate
  | woken hready =>
      rw [hready] at hstate
      cases hstate
  | blocked hblocked => exact absurd hblocked hactor
  | spawned _ hready =>
      rw [hready] at hstate
      cases hstate
  | ended _ _ hended =>
      rw [hended] at hstate
      cases hstate
  | freed _ _ habsent =>
      rw [habsent] at hstate
      cases hstate

namespace MachineInv

variable {M M' : Machine α} {t u : TaskId} {act : MachineAct α}

/-- A step of another task. -/
theorem attentive_other (h : MachineInv M) (hall : ∀ u, Attentive M u)
    (hstep : M.step act = some M') (hactor : act.actor ≠ some u)
    (hstate : M'.ucNotifyState u = M.ucNotifyState u)
    (hvalue : M'.ulNotifiedValue u = M.ulNotifiedValue u)
    (hpended : u ∈ M.xPendingReadyList → u ∈ M'.xPendingReadyList ∨
      (M.k.slot u).state = .suspended ∧ (M'.k.slot u).state = .ready) : Attentive M' u := by
  have hon := h.step_on hstep u
  have hroutine := hon.routine hactor
  refine (hall u).heeds (h.tasks u) hstate hvalue hpended (fun hadd => hroutine ▸ hadd)
    fun hlistens hsuspended => .inr ?_
  exact ⟨hroutine ▸ hlistens, hon.suspended hactor hsuspended⟩

theorem attentive_act {a : Act α} (h : MachineInv M) (hall : ∀ u, Attentive M u)
    (hstep : M.step (.act a) = some M') :
    (∀ u, Attentive M' u) ∧ M'.ulNotifiedValue = M.ulNotifiedValue := by
  suffices hheeds : Heeds M M' ∧ ∀ t, a.actor = some t → M'.routine t = .outside ∨
      ∃ n, M'.routine t = .delayAdd n by
    obtain ⟨hheeds, hroutine⟩ := hheeds
    refine ⟨fun u => ?_, hheeds.value⟩
    by_cases hactor : a.actor = some u
    · have hsilent : M'.ucNotifyState u = .waiting → M'.ulNotifiedValue u = 0 := by
        rw [hheeds.state, hheeds.value]
        exact (hall u).silent
      rcases hroutine u hactor with hout | ⟨n, hdelay⟩
      · exact .deaf (by simp [hout]) (by rw [hout]; rfl) hsilent
      · exact .deaf (by simp [hdelay]) (by rw [hdelay]; rfl) hsilent
    · exact h.attentive_other hall hstep hactor (congrFun hheeds.state u) (congrFun hheeds.value u)
        (hheeds.pended u)
  simp only [Machine.step] at hstep
  split at hstep
  next hnone =>
    split at hstep <;> cases hstep
    obtain ⟨-, -, haside⟩ := h.tickReady.xTaskIncrementTick_eq
    refine ⟨.of_aside haside, fun t hactor => ?_⟩
    rw [hnone] at hactor
    cases hactor
  next t hactor =>
    have hself {w : TaskId} (hw : a.actor = some w) : w = t :=
      Option.some.inj (hw.symm.trans hactor)
    split at hstep
    next hrun =>
      obtain ⟨hrun, hroutine⟩ := hrun
      split at hstep
      next frame w hframe =>
        cases hactor
        cases hstep
        obtain ⟨hheeds, hsame⟩ := (h.switchTo hrun).runFrame_heeds (canRun_switchTo hrun) rfl hframe
        refine ⟨⟨hheeds.state, hheeds.value, hheeds.pended⟩, fun u hu => .inl ?_⟩
        rw [hsame, hself hu]
        exact hroutine
      next => cases hstep
      next hframe =>
        have hidle : Idle (M.onKernel (·.switchTo t)) t :=
          ⟨h.switchTo hrun, canRun_switchTo hrun, rfl, hframe⟩
        obtain ⟨hheeds, hafter⟩ := hidle.perform_heeds hroutine hactor hstep
        refine ⟨⟨hheeds.state, hheeds.value, hheeds.pended⟩, fun u hu => ?_⟩
        rw [hself hu]
        rcases hafter with hsame | ⟨n, hdelay⟩
        · rw [hsame]
          exact .inl hroutine
        · rw [hdelay]
          exact .inr ⟨n, Function.update_self ..⟩
    next => cases hstep

/-- A notification that comes while the task waits for it. -/
theorem unlisted (h : MachineInv M) (hwait : M.ucNotifyState t = .waiting) :
    (M.k.task t).xEventList = none ∧ t ∉ M.xPendingReadyList := by
  have htask := h.tasks t
  refine ⟨?_, fun hmem => (htask.pended hmem).1 hwait⟩
  have hframe : (M.k.task t).frame = none := by
    refine htask.frameless fun hout => ?_
    rcases htask.listens (.inl hwait) with hadd | ⟨hlistens, -⟩
    · rw [hout] at hadd
      cases hadd
    · rw [hout] at hlistens
      cases hlistens
  exact h.kernel.wait.not_listed hframe

/-- What a notification does. It never comes to the assertion. -/
theorem notifyGive_cases (h : MachineInv M) (t : TaskId) :
    (M.vTaskNotifyGiveFromIsr t).ucNotifyState = Function.update M.ucNotifyState t .received ∧
      (M.vTaskNotifyGiveFromIsr t).ulNotifiedValue =
        Function.update M.ulNotifiedValue t ((M.ulNotifiedValue t + 1) % 2 ^ 32) ∧
      (M.vTaskNotifyGiveFromIsr t).routine = M.routine ∧
      (M.ucNotifyState t ≠ .waiting ∧ (M.vTaskNotifyGiveFromIsr t).xPendingReadyList =
        M.xPendingReadyList ∧
          (M.vTaskNotifyGiveFromIsr t).k = M.k ∨
        M.k.uxSchedulerSuspended = 0 ∧ (M.vTaskNotifyGiveFromIsr t).xPendingReadyList =
          M.xPendingReadyList ∧
          (M.vTaskNotifyGiveFromIsr t).k = M.k.prvAddTaskToReadyList t ∨
        (M.vTaskNotifyGiveFromIsr t).xPendingReadyList = M.xPendingReadyList ++ [t] ∧
          (M.vTaskNotifyGiveFromIsr t).k = M.k) := by
  unfold Machine.vTaskNotifyGiveFromIsr
  dsimp only
  split
  next hwait =>
    obtain ⟨hevent, hpended⟩ := h.unlisted hwait
    rw [if_neg (by simp [hevent, hpended])]
    split
    next hzero => exact ⟨rfl, rfl, rfl, .inr (.inl ⟨hzero, rfl, rfl⟩)⟩
    next => exact ⟨rfl, rfl, rfl, .inr (.inr ⟨rfl, rfl⟩)⟩
  next hwait => exact ⟨rfl, rfl, rfl, .inl ⟨hwait, rfl, rfl⟩⟩

theorem attentive_notifyGive (h : MachineInv M) (hall : ∀ u, Attentive M u)
    (hstep : M.step (.notifyGive t) = some M') :
    (∀ u, Attentive M' u) ∧
      M'.ulNotifiedValue =
        Function.update M.ulNotifiedValue t ((M.ulNotifiedValue t + 1) % 2 ^ 32) := by
  have hM' : M.vTaskNotifyGiveFromIsr t = M' := by
    simp only [Machine.step] at hstep
    split at hstep <;> cases hstep
    rfl
  obtain ⟨hstate, hvalue, hroutine, hcases⟩ := h.notifyGive_cases t
  rw [hM'] at hstate hvalue hroutine hcases
  have hpended {u : TaskId} (hu : u ∈ M.xPendingReadyList) : u ∈ M'.xPendingReadyList := by
    rcases hcases with ⟨-, hsame, -⟩ | ⟨-, hsame, -⟩ | ⟨happended, -⟩
    · rwa [hsame]
    · rwa [hsame]
    · rw [happended]
      exact List.mem_append_left _ hu
  refine ⟨fun u => ?_, hvalue⟩
  by_cases hu : u = t
  · subst hu
    refine ⟨fun hwait => ?_, fun hheard => .inr ?_⟩
    · rw [hstate, Function.update_self] at hwait
      cases hwait
    · rw [hroutine] at hheard
      rcases hcases with ⟨hwait, -, hk⟩ | ⟨hzero, -, hk⟩ | ⟨happended, -⟩
      · rw [hk] at hheard
        exact hpended (((hall u).heard hheard).resolve_left hwait)
      · rcases hheard with hadd | ⟨-, hsuspended⟩
        · have hone := ((h.tasks u).window (by rw [hadd]; rfl)).1
          omega
        · rw [hk, State.slot_prvAddTaskToReadyList, Function.update_self] at hsuspended
          cases hsuspended
      · rw [happended]
        exact List.mem_append_right _ (List.mem_singleton_self u)
  · refine h.attentive_other hall hstep (by simp [MachineAct.actor]) ?_ ?_ fun hmem =>
      .inl (hpended hmem)
    · rw [hstate, Function.update_of_ne hu]
    · rw [hvalue, Function.update_of_ne hu]

theorem attentive_notifyTake (h : MachineInv M) (hall : ∀ u, Attentive M u)
    (hzero : M.k.uxSchedulerSuspended = 0) (hstep : M.step (.notifyTake t) = some M') :
    (∀ u, Attentive M' u) ∧ M'.ulNotifiedValue = M.ulNotifiedValue := by
  have hstep' := hstep
  simp only [Machine.step] at hstep
  split at hstep
  next hrun =>
    cases hstep
    have hready : (M.k.slot t).state = .ready := ((M.k.canRun_iff t).mp hrun.1).2.1 hzero
    obtain ⟨hstate, hvalue, hpended⟩ :
        Heeds M ((M.onKernel (·.switchTo t)).ulTaskNotifyTake t) := by
      unfold Machine.ulTaskNotifyTake
      split <;> exact ⟨rfl, rfl, fun _ hu => .inl hu⟩
    refine ⟨fun u => ?_, hvalue⟩
    by_cases hu : u = t
    · subst hu
      have hsame : (((M.onKernel (·.switchTo u)).ulTaskNotifyTake u).k.slot u).state = .ready := by
        unfold Machine.ulTaskNotifyTake
        split <;> exact hready
      refine (hall u).heeds (h.tasks u) (congrFun hstate u) (congrFun hvalue u) (hpended u)
        (fun hadd => ?_) fun _ hsuspended => ?_
      · unfold Machine.ulTaskNotifyTake at hadd
        split at hadd
        · rw [Machine.routine_setRoutine_self] at hadd
          cases hadd
        · rw [Machine.routine_setRoutine_self] at hadd
          cases hadd
      · rw [hsame] at hsuspended
        cases hsuspended
    · refine h.attentive_other hall hstep' ?_ (congrFun hstate u) (congrFun hvalue u) (hpended u)
      simpa [MachineAct.actor] using Ne.symm hu
  next => cases hstep

theorem attentive_switchContext (h : MachineInv M) (hall : ∀ u, Attentive M u)
    (hstep : M.step .switchContext = some M') :
    (∀ u, Attentive M' u) ∧ M'.ulNotifiedValue = M.ulNotifiedValue := by
  have hheeds : Heeds M M' := by
    simp only [Machine.step] at hstep
    split at hstep <;> cases hstep
    unfold Machine.vTaskSwitchContext
    split
    · exact .of_aside rfl
    · dsimp only
      split <;> exact .of_aside rfl
  refine ⟨fun u => ?_, hheeds.value⟩
  exact h.attentive_other hall hstep (by simp [MachineAct.actor]) (congrFun hheeds.state u)
    (congrFun hheeds.value u) (hheeds.pended u)

theorem attentive_goOn (h : MachineInv M) (hall : ∀ u, Attentive M u)
    (hstep : M.step (.goOn t) = some M') :
    (∀ u, Attentive M' u) ∧ M'.ulNotifiedValue =
      if M.routine t = .notifyTake then Function.update M.ulNotifiedValue t 0
      else M.ulNotifiedValue := by
  -- a task other than the one that goes on keeps what it had
  have hfinish (hstate : ∀ u, u ≠ t → M'.ucNotifyState u = M.ucNotifyState u)
      (hvalue : ∀ u, u ≠ t → M'.ulNotifiedValue u = M.ulNotifiedValue u)
      (hpended : ∀ u ∈ M.xPendingReadyList, u ∈ M'.xPendingReadyList ∨
        (M.k.slot u).state = .suspended ∧
        (M'.k.slot u).state = .ready) (hown : Attentive M' t) (u : TaskId) :
      Attentive M' u := by
    by_cases hu : u = t
    · subst hu
      exact hown
    · refine h.attentive_other hall hstep ?_ (hstate u hu) (hvalue u hu) (hpended u)
      simpa [MachineAct.actor] using Ne.symm hu
  have hown := hall t
  have htask := h.tasks t
  have hgoes := hstep
  simp only [Machine.step] at hgoes
  split at hgoes
  next hrun =>
    have hswitched := h.switchTo hrun
    -- three kinds of continuation: the task blocks, it resumes the scheduler, or it leaves
    have hblocks (hawake : (M.routine t).awake) (n : Nat) (forever : Bool) :
        Heeds M ((M.onKernel (·.switchTo t)).prvAddCurrentTaskToDelayedList n forever) :=
      .of_aside (hswitched.listed.follows_prvAddCurrentTaskToDelayedList (htask.awake hawake) n
          forever).aside
    have hresumes (hadd : M.routine t ≠ .notifyAdd) :
        Heeds M (M.onKernel (·.switchTo t)).xTaskResumeAll ∧
        ((((M.onKernel (·.switchTo t)).xTaskResumeAll).k.slot t).state =
          .suspended → (M.k.slot t).state = .suspended) := by
      obtain ⟨⟨hstate, hvalue, hpended⟩, -⟩ := hswitched.resumeAll_heeds hadd
      refine ⟨⟨hstate, hvalue, hpended⟩, fun hsuspended => ?_⟩
      rcases hswitched.resumeAll_slot hadd t with ⟨hready, -⟩ | ⟨n, hslot, -⟩
      · rw [hready] at hsuspended
        cases hsuspended
      · rw [hslot] at hsuspended
        exact Slot.elapsed_suspended n hsuspended
    have hheeds (routine : Routine) (hsilence : routine ≠ .notifyAdd ∧ routine.listens = false)
        {N : Machine α} (hheeds : Heeds M N) (hM' : N.setRoutine t routine = M') :
        (∀ u, Attentive M' u) ∧ M'.ulNotifiedValue = M.ulNotifiedValue := by
      subst hM'
      refine ⟨hfinish (fun u _ => congrFun hheeds.state u) (fun u _ => congrFun hheeds.value u)
          hheeds.pended ?_, hheeds.value⟩
      refine .deaf ?_ ?_ fun hwait => ?_
      · rw [Machine.routine_setRoutine_self]
        exact hsilence.1
      · rw [Machine.routine_setRoutine_self]
        exact hsilence.2
      · exact (congrFun hheeds.value t).trans
          (hown.silent ((congrFun hheeds.state t).symm.trans hwait))
    unfold Machine.goOn at hgoes
    split at hgoes
    next => cases hgoes
    next n hroutine =>
      have hroutine : M.routine t = .delayAdd n := hroutine
      rw [if_neg (by simp [hroutine])]
      exact hheeds .delayResume (by simp [Routine.listens])
        (hblocks (by rw [hroutine]; rfl) n false) (Option.some.inj hgoes)
    next hroutine =>
      have hroutine : M.routine t = .delayResume := hroutine
      rw [if_neg (by simp [hroutine])]
      exact hheeds .outside (by simp [Routine.listens]) (hresumes (by simp [hroutine])).1
        (Option.some.inj hgoes)
    next hroutine =>
      have hroutine : M.routine t = .notifyMark := hroutine
      rw [if_neg (by simp [hroutine])]
      split at hgoes
      -- the value is tested and the task marked in one critical section
      next hzero =>
        cases hgoes
        refine ⟨hfinish (fun u hu => Function.update_of_ne hu ..) (fun _ _ => rfl)
            (fun u hu => .inl hu) ⟨fun _ => hzero,
          fun _ => .inl ?_⟩, rfl⟩
        exact Function.update_self ..
      next =>
        cases hgoes
        refine ⟨hfinish (fun _ _ => rfl) (fun _ _ => rfl) (fun u hu => .inl hu)
          (hown.heeds htask rfl rfl .inl (fun hadd => ?_) fun _ hsuspended => ?_), rfl⟩
        · rw [Machine.routine_setRoutine_self] at hadd
          cases hadd
        · have hready : (M.k.slot t).state = .ready := htask.awake (by rw [hroutine]; rfl)
          have hsuspended : (M.k.slot t).state = .suspended := hsuspended
          rw [hready] at hsuspended
          cases hsuspended
    next hroutine =>
      have hroutine : M.routine t = .notifyAdd := hroutine
      rw [if_neg (by simp [hroutine])]
      cases hgoes
      obtain ⟨hstate, hvalue, hpended⟩ := hblocks (by rw [hroutine]; rfl) portMaxDelay true
      refine ⟨hfinish (fun u _ => congrFun hstate u) (fun u _ => congrFun hvalue u) hpended
        (hown.heeds htask (congrFun hstate t) (congrFun hvalue t) (hpended t) (fun _ => hroutine)
          fun _ _ => .inl hroutine), hvalue⟩
    next hroutine =>
      have hroutine : M.routine t = .notifyResume := hroutine
      rw [if_neg (by simp [hroutine])]
      cases hgoes
      obtain ⟨⟨hstate, hvalue, hpended⟩, hstays⟩ := hresumes (by simp [hroutine])
      refine ⟨hfinish (fun u _ => congrFun hstate u) (fun u _ => congrFun hvalue u) hpended
        (hown.heeds htask (congrFun hstate t) (congrFun hvalue t) (hpended t) (fun hadd => ?_)
          fun _ hsuspended => .inr ?_), hvalue⟩
      · rw [Machine.routine_setRoutine_self] at hadd
        cases hadd
      · exact ⟨by rw [hroutine]; rfl, hstays hsuspended⟩
    next hroutine =>
      have hroutine : M.routine t = .notifyTake := hroutine
      rw [if_pos hroutine]
      cases hgoes
      refine ⟨hfinish (fun u hu => Function.update_of_ne hu ..)
          (fun u hu => Function.update_of_ne hu ..) (fun u hu => .inl hu)
        (.deaf ?_ ?_ fun _ => Function.update_self ..), rfl⟩
      · rw [Machine.routine_setRoutine_self]
        simp
      · rw [Machine.routine_setRoutine_self]
        rfl
  next => cases hgoes

end MachineInv

/-! ## Runs -/

/-- The machine, and how many notifications each task has been given since it last took them. -/
structure Bell (α : Type) where
  machine : Machine α
  given : TaskId → Nat

/-- The counts after a step. `ulTaskNotifyTake` clears the count in its last stretch. -/
def Bell.count (b : Bell α) : MachineAct α → TaskId → Nat
  | .notifyGive t => Function.update b.given t (b.given t + 1)
  | .goOn t => if b.machine.routine t = .notifyTake then Function.update b.given t 0 else b.given
  | _ => b.given

def Bell.step (b : Bell α) (act : MachineAct α) : Option (Bell α) :=
  (b.machine.step act).map fun M => ⟨M, b.count act⟩

structure BellInv (b : Bell α) : Prop where
  machine : MachineInv b.machine
  attentive : ∀ t, Attentive b.machine t
  value : ∀ t, b.machine.ulNotifiedValue t = b.given t % 2 ^ 32

theorem BellInv.step {b b' : Bell α} {act : MachineAct α} (h : BellInv b)
    (hok : act.Promised b.machine) (hstep : b.step act = some b') : BellInv b' := by
  obtain ⟨M, hM, rfl⟩ := Option.map_eq_some_iff.mp hstep
  have hmachine := h.machine.step hok hM
  have hkept (hnotified : (∀ u, Attentive M u) ∧ M.ulNotifiedValue = b.machine.ulNotifiedValue) :
      BellInv ⟨M, b.given⟩ := by
    refine ⟨hmachine, hnotified.1, fun t => ?_⟩
    rw [hnotified.2]
    exact h.value t
  cases act with
  | act a => exact hkept (h.machine.attentive_act h.attentive hM)
  | notifyTake t => exact hkept (h.machine.attentive_notifyTake h.attentive hok hM)
  | switchContext => exact hkept (h.machine.attentive_switchContext h.attentive hM)
  | notifyGive t =>
      obtain ⟨hattentive, hvalue⟩ := h.machine.attentive_notifyGive h.attentive hM
      refine ⟨hmachine, hattentive, fun u => ?_⟩
      rw [hvalue, Bell.count]
      dsimp only
      by_cases hu : u = t
      · subst hu
        rw [Function.update_self, Function.update_self, h.value, Nat.mod_add_mod]
      · rw [Function.update_of_ne hu, Function.update_of_ne hu, h.value]
  | goOn t =>
      obtain ⟨hattentive, hvalue⟩ := h.machine.attentive_goOn h.attentive hM
      refine ⟨hmachine, hattentive, fun u => ?_⟩
      rw [hvalue, Bell.count]
      dsimp only
      split
      · by_cases hu : u = t
        · subst hu
          rw [Function.update_self, Function.update_self, Nat.zero_mod]
        · rw [Function.update_of_ne hu, Function.update_of_ne hu, h.value]
      · exact h.value u

/-- The count of a task says how many notifications it has not taken yet. While the scheduler runs,
a task that has blocked in `ulTaskNotifyTake` has none, and one that is pended is about to be
woken. -/
theorem no_notification_lost {uxMainPriority : Nat} (hmain : uxMainPriority < configMaxPriorities)
    {b : Bell α}
    (hreach : Lib.Reach Bell.step (fun b act => act.Promised b.machine)
      ⟨Machine.boot uxMainPriority, fun _ => 0⟩ b) (t : TaskId) :
    b.machine.ulNotifiedValue t = b.given t % 2 ^ 32 ∧
      ((b.machine.routine t).listens → t ∈ b.machine.items .suspended →
        b.given t % 2 ^ 32 = 0 ∨ t ∈ b.machine.xPendingReadyList ∧
        b.machine.k.uxSchedulerSuspended ≠ 0) := by
  have hboot : BellInv (⟨Machine.boot uxMainPriority, fun _ => 0⟩ : Bell α) := by
    refine ⟨.boot hmain, fun t => .deaf ?_ rfl ?_, fun _ => rfl⟩
    · intro hadd
      cases hadd
    · intro hwait
      cases hwait
  have hinv : BellInv b := hreach.invariant BellInv hboot fun _ _ _ hinv hok hstep =>
    hinv.step hok hstep
  refine ⟨hinv.value t, fun hlistens hmem => ?_⟩
  have hsuspended : (b.machine.k.slot t).state = .suspended := by
    have hhome := hinv.machine.listed.mem.mp hmem
    unfold Slot.home at hhome
    split at hhome <;> first | assumption | cases hhome
  rcases (hinv.attentive t).heard (.inr ⟨hlistens, hsuspended⟩) with hwait | hpended
  · rw [← hinv.value]
    exact .inl ((hinv.attentive t).silent hwait)
  · exact .inr ⟨hpended, ((hinv.machine.tasks t).pended hpended).2⟩

/-- A notification comes before the task has marked that it waits, a second one after that, and then
none. -/
def bellSchedule : List (MachineAct Unit) :=
  [.notifyTake 1, .notifyGive 1, .goOn 1, .goOn 1, .goOn 1, .notifyTake 1, .goOn 1, .notifyGive 1,
    .goOn 1, .goOn 1, .goOn 1, .notifyTake 1, .goOn 1, .goOn 1, .goOn 1]

def Bell.check (b : Bell Unit) (act : MachineAct Unit) : Bool := machineCheck b.machine act

theorem Bell.check_promised (b : Bell Unit) (act : MachineAct Unit) (hcheck : b.check act) :
    act.Promised b.machine :=
  machineCheck_promised b.machine act hcheck

theorem no_notification_lost_schedule :
    ∃ b : Bell Unit,
      Lib.execute Bell.step Bell.check ⟨Machine.boot 1, fun _ => 0⟩ bellSchedule = some b ∧
        (b.machine.routine 1, b.machine.items .suspended, b.machine.k.uxSchedulerSuspended) =
          (.notifyTake, [1], 0) ∧
        b.machine.ulNotifiedValue 1 = b.given 1 % 2 ^ 32 ∧
        ((b.machine.routine 1).listens → 1 ∈ b.machine.items .suspended →
          b.given 1 % 2 ^ 32 = 0 ∨ 1 ∈ b.machine.xPendingReadyList ∧
          b.machine.k.uxSchedulerSuspended ≠ 0) := by
  have hrun : (Lib.execute Bell.step Bell.check ⟨Machine.boot 1, fun _ => 0⟩ bellSchedule).map
      (fun b =>
        (b.machine.routine 1, b.machine.items .suspended, b.machine.k.uxSchedulerSuspended)) =
      some (.notifyTake, [1], 0) := by
    decide +kernel
  obtain ⟨b, hb, hend⟩ := Option.map_eq_some_iff.mp hrun
  have hreach := Lib.execute_reach Bell.check_promised bellSchedule hb
  refine ⟨b, hb, hend, no_notification_lost ?_ hreach 1⟩
  decide

end SimulatedLinux.Kernel
