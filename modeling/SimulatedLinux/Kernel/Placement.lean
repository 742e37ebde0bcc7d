import SimulatedLinux.Kernel.Moves

/-! # No task is lost

From boot on, every task is in exactly one list until the idle task takes it off the
waiting-termination list to free it, its event item is in at most one wait list, the bitmap names
the ready lists that are not empty, and a context switch chooses a ready task of highest priority.
-/

namespace SimulatedLinux.Kernel

variable {α : Type}

/-! ## Boot -/

/-- The lists after `prvInitialiseTaskLists`. -/
def Machine.initialised (k : State α) : Machine α where
  k := k
  lists := { list := fun _ => ⟨[], none⟩, container := fun _ => none }
  pxDelayedTaskList := false
  uxTopReadyPriority := 0#32
  xNextTaskUnblockTime := portMaxDelay
  xPendingReadyList := []
  ucNotifyState := fun _ => .notWaiting
  ulNotifiedValue := fun _ => 0
  routine := fun _ => .outside

/-- The first task has been created and the scheduler has been started, which creates the idle
task. -/
def Machine.boot (uxMainPriority : Nat) : Machine α :=
  ((Machine.initialised (State.boot uxMainPriority)).recordReady 1).recordReady 0

theorem Machine.initialised_agrees (k : State α) :
    Agrees (Machine.initialised k) fun t => ⟨.absent, 0, (k.task t).uxPriority⟩ := by
  refine ⟨⟨fun _ => List.nodup_nil, fun name t => ?_⟩, fun t => rfl, fun p => ?_, fun second =>
      List.Pairwise.nil, ?_⟩
  · simp [initialised]
  · simp [initialised, items]
  · simp [initialised, items]

theorem State.slot_boot (uxMainPriority : Nat) :
    (State.boot uxMainPriority : State α).slot =
      Function.update
        (Function.update (fun t =>
          ⟨.absent, 0, ((State.boot uxMainPriority : State α).task t).uxPriority⟩) 1
          ⟨.ready, 0, uxMainPriority⟩) 0 ⟨.ready, 0, 0⟩ := by
  funext t
  by_cases hzero : t = 0
  · subst hzero
    rfl
  · by_cases hone : t = 1
    · subst hone
      rfl
    · have hnot : ¬ t < 2 := fun hlt =>
        (Nat.lt_succ_iff_lt_or_eq.mp hlt).elim (fun h => hzero (Nat.lt_one_iff.mp h)) hone
      rw [Function.update_of_ne hzero, Function.update_of_ne hone]
      change (⟨if t < 2 then .ready else .absent, 0, _⟩ : Slot) = _
      rw [if_neg hnot]

theorem MachineInv.boot {uxMainPriority : Nat} (hmain : uxMainPriority < configMaxPriorities) :
    MachineInv (Machine.boot uxMainPriority : Machine α) := by
  have hranks : Ranks (State.boot uxMainPriority : State α) := (Inheritance.boot hmain).ranks
  have hbound := Machine.bound_of_ranks hranks
  have hlisted : (Machine.boot uxMainPriority : Machine α).Listed := by
    have hone := (Machine.initialised_agrees (State.boot uxMainPriority : State α)).recordReady
      (t := 1) rfl (hbound 1)
    have hboth := hone.recordReady (t := 0) rfl (hbound 0)
    change Agrees _ (State.boot uxMainPriority).slot
    rw [State.slot_boot]
    exact hboth
  have hidle (t : TaskId) : ((State.boot uxMainPriority : State α).slot t).Timely 0 := by
    rw [State.slot_boot]
    unfold Function.update
    constructor <;> split <;> (try split) <;> simp
  refine ⟨State.boot_inv uxMainPriority, hranks, Nat.two_pow_pos 32, hlisted, hidle, List.nodup_nil,
    fun t => ?_⟩
  refine .outside rfl (fun hwait => ?_) (fun hmem => ?_) fun f hf => ?_
  · cases hwait
  · cases hmem
  · cases hf

theorem MachineInv.reach {uxMainPriority : Nat} (hmain : uxMainPriority < configMaxPriorities)
    {M : Machine α}
    (hreach : Lib.Reach Machine.step (fun M act => act.Promised M) (Machine.boot uxMainPriority)
      M) : MachineInv M :=
  hreach.invariant MachineInv (.boot hmain) fun _ _ _ hinv hok hstep => hinv.step hok hstep

/-! ## The highest priority -/

/-- The machine, the tasks that the idle task has taken off the waiting-termination list, and those
of them whose memory has been freed. -/
structure Roll (α : Type) where
  machine : Machine α
  takenOff : List TaskId
  freed : List TaskId

/-- `prvCheckTasksWaitingTermination` leaves its critical section before `prvDeleteTCB` frees the
task. -/
inductive RollAct (α : Type)
  | machine (act : MachineAct α)
  | prvDeleteTCB (t : TaskId)

def RollAct.Promised (r : Roll α) : RollAct α → Prop
  | .machine act => act.Promised r.machine
  | .prvDeleteTCB _ => True

def Roll.step (r : Roll α) : RollAct α → Option (Roll α)
  | .machine act =>
      (r.machine.step act).map fun M =>
        { machine := M
          takenOff :=
            match act with
            | .act (.reap _) => r.machine.k.xTasksWaitingTermination.take 1 ++ r.takenOff
            | _ => r.takenOff
          freed := r.freed }
  | .prvDeleteTCB t =>
      if t ∈ r.takenOff ∧ t ∉ r.freed then some { r with freed := t :: r.freed } else none

/-- What is known of every state of a run. -/
structure RollInv (r : Roll α) : Prop where
  machine : MachineInv r.machine
  /-- A task that is in no list has been taken off the waiting-termination list. -/
  kept : ∀ t, t < r.machine.k.nextTask → t ∉ r.takenOff → (r.machine.k.slot t).state ≠ .absent

/-- No tick takes a task out of the lists. -/
theorem Slot.elapsed_absent {slot : Slot} {xTickCount : Nat} (n : Nat)
    (h : (slot.elapsed xTickCount n).state = .absent) : slot.state = .absent := by
  induction n generalizing slot xTickCount with
  | zero => exact h
  | succ n ih =>
      have hticked := ih h
      obtain ⟨state, wake, priority⟩ := slot
      simp only [ticked] at hticked
      cases state <;> split at hticked <;> split at hticked <;> simp_all [switched, setState]

theorem RollInv.machine_step {r r' : Roll α} {act : MachineAct α} (h : RollInv r)
    (hok : act.Promised r.machine) (hstep : r.step (.machine act) = some r') : RollInv r' := by
  obtain ⟨M, hM, rfl⟩ := Option.map_eq_some_iff.mp hstep
  refine ⟨h.machine.step hok hM, fun t hborn htaken habsent => ?_⟩
  have hon := h.machine.step_on hM t
  have hsame (hstate : (r.machine.k.slot t).state = .absent) : False := by
    have hold : t ∉ r.takenOff := by
      intro hmem
      apply htaken
      dsimp only
      split
      · exact List.mem_append_right _ hmem
      · exact hmem
    refine h.kept t ?_ hold hstate
    rcases hon.born with hnext | ⟨hnext, hready⟩
    · rw [← hnext]
      exact hborn
    · refine Nat.lt_of_le_of_ne ?_ fun heq => ?_
      · dsimp only at hborn
        rw [hnext] at hborn
        exact Nat.le_of_lt_succ hborn
      · rw [hready heq] at habsent
        cases habsent
  cases hon.moved with
  | rests hrests => exact hsame (hrests.state.symm.trans habsent)
  | elapsed n hslot =>
      dsimp only at habsent
      rw [hslot] at habsent
      exact hsame (Slot.elapsed_absent n habsent)
  | woken hstate => cases hstate.symm.trans habsent
  | blocked _ _ n forever hslot =>
      dsimp only at habsent
      rw [hslot, State.delayedSlot] at habsent
      split at habsent
      next => cases habsent
      next =>
        dsimp only at habsent
        split at habsent <;> cases habsent
  | spawned _ hstate => cases hstate.symm.trans habsent
  | ended _ _ hstate => cases hstate.symm.trans habsent
  | freed hact hfirst =>
      subst hact
      exact htaken (List.mem_append_left _ hfirst)

theorem RollInv.step {r r' : Roll α} {act : RollAct α} (h : RollInv r) (hok : act.Promised r)
    (hstep : r.step act = some r') : RollInv r' := by
  cases act with
  | machine act => exact h.machine_step hok hstep
  | prvDeleteTCB t =>
      simp only [Roll.step] at hstep
      split at hstep
      next =>
        cases hstep
        exact ⟨h.machine, h.kept⟩
      next => cases hstep

theorem RollInv.boot {uxMainPriority : Nat} (hmain : uxMainPriority < configMaxPriorities) :
    RollInv (⟨Machine.boot uxMainPriority, [], []⟩ : Roll α) := by
  refine ⟨.boot hmain, fun t hborn _ => ?_⟩
  have hlt : t < 2 := hborn
  change (if t < 2 then StateList.ready else .absent) ≠ .absent
  rw [if_pos hlt]
  simp

theorem RollInv.reach {uxMainPriority : Nat} (hmain : uxMainPriority < configMaxPriorities)
    {r : Roll α}
    (hreach : Lib.Reach Roll.step (fun r act => act.Promised r)
      ⟨Machine.boot uxMainPriority, [], []⟩ r) : RollInv r :=
  hreach.invariant RollInv (.boot hmain) fun _ _ _ hinv hok hstep => hinv.step hok hstep

namespace MachineInv

variable {M : Machine α}

end MachineInv

/-- The guard of the schedules. -/
def machineCheck (M : Machine Unit) : MachineAct Unit → Bool
  | .act (.call _ (.xSemaphoreTake _ xTicksToWait)) => M.k.uxSchedulerSuspended = 0 &&
    xTicksToWait < tickModulus
  | .act (.call _ _) => false
  | .act (.delay _ xTicksToDelay) => xTicksToDelay < tickModulus
  | .notifyTake _ => M.k.uxSchedulerSuspended = 0
  | _ => true

theorem machineCheck_promised (M : Machine Unit) (act : MachineAct Unit)
    (hcheck : machineCheck M act) :
    act.Promised M := by
  cases act with
  | act a =>
      cases a with
      | call t api => cases api <;> simp_all [machineCheck, MachineAct.Promised, Api.typed]
      | delay t xTicksToDelay => simpa [machineCheck, MachineAct.Promised] using hcheck
      | _ => trivial
  | notifyTake t => simpa [machineCheck, MachineAct.Promised] using hcheck
  | _ => trivial

def Roll.check (r : Roll Unit) : RollAct Unit → Bool
  | .machine act => machineCheck r.machine act
  | .prvDeleteTCB _ => true

theorem Roll.check_promised (r : Roll Unit) (act : RollAct Unit) (hcheck : r.check act) :
    act.Promised r := by
  cases act with
  | machine act => exact machineCheck_promised r.machine act hcheck
  | prvDeleteTCB t => trivial

end SimulatedLinux.Kernel
