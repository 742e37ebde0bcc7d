import SimulatedLinux.Kernel.Invariant
import SimulatedLinux.Kernel.Rouse

/-! # Who moves in a step

A step of a blocking function makes at most one other task ready, which is in a wait list, and
blocks at most the task that makes it. Every other task stays where it is.
-/

namespace SimulatedLinux.Kernel

variable {α : Type}

/-- The task stays in its list, maybe with another priority. -/
structure Slot.Rests (slot slot' : Slot) : Prop where
  state : slot'.state = slot.state
  wake : slot'.wake = slot.wake

namespace Slot

variable {slot slot' slot'' : Slot}

theorem Rests.refl (slot : Slot) : slot.Rests slot := ⟨rfl, rfl⟩

theorem Rests.of_eq (h : slot' = slot) : slot.Rests slot' := h ▸ .refl slot

theorem Rests.timely (h : slot.Rests slot') {xTickCount : Nat} (htimely : slot.Timely xTickCount) :
    slot'.Timely xTickCount := by
  constructor
  · rw [h.state, h.wake]
    exact htimely.delayed
  · rw [h.state, h.wake]
    exact htimely.overflow

end Slot

/-- The program points from the first failed look at the queue to the wait list. -/
def Pc.waits : Pc α → Bool
  | suspendAll | lockQueue | checkTimeOut | checkBlock | inherit | place => true
  | _ => false

/-- The program points with the scheduler suspended at which the task is still in its ready list. -/
def Pc.unplaced : Pc α → Bool
  | lockQueue | checkTimeOut | checkBlock | inherit | place => true
  | _ => false

namespace State

variable {k : State α} {t : TaskId} {frame : Frame α}

/-! ## Slots -/

/-- The task stays in its list, or it was in a wait list and is ready now. -/
def RestsOrWoken (k k' : State α) (u : TaskId) : Prop :=
  (k.slot u).Rests (k'.slot u) ∨ (k'.slot u).state = .ready ∧ ∃ f, k.view.frame u = some f

theorem rests_update {s : Slot} (hrests : (k.slot t).Rests s) (u : TaskId) :
    (k.slot u).Rests (Function.update k.slot t s u) := by
  by_cases hu : u = t
  · subst hu
    rw [Function.update_self]
    exact hrests
  · rw [Function.update_of_ne hu]
    exact .refl _

theorem rests_xTaskPriorityInherit (k : State α) (holder : Option TaskId) (u : TaskId) :
    (k.slot u).Rests ((k.xTaskPriorityInherit holder).slot u) := by
  cases holder with
  | none => exact .refl _
  | some h =>
      rw [slot_xTaskPriorityInherit]
      split
      · refine rests_update ?_ u
        exact ⟨rfl, rfl⟩
      · exact .refl _

theorem rests_prvCopyDataToQueue {k' : State α} {q : QueueId} {item : Option α}
    (hcopy : k.prvCopyDataToQueue q item = some k') (u : TaskId) :
    (k.slot u).Rests (k'.slot u) := by
  unfold prvCopyDataToQueue at hcopy
  split at hcopy
  · split at hcopy
    · obtain ⟨k₁, hdone, rfl⟩ := Option.map_eq_some_iff.mp hcopy
      cases hholder : (k.queue q).xMutexHolder with
      | none =>
          rw [hholder] at hdone
          cases hdone
          exact .refl _
      | some h =>
          rw [hholder] at hdone
          have hslot := (slot_xTaskPriorityDisinherit hdone).2
          have hrests : (k.slot u).Rests (k₁.slot u) := by
            rw [hslot]
            split
            · refine rests_update ?_ u
              exact ⟨rfl, rfl⟩
            · exact .refl _
          exact hrests
    · cases hcopy
      exact .refl _
  · cases hcopy
    exact .refl _

theorem rests_pass (hlists : Lists k.sched k.view.frame k.view.nextTask)
    (hzero : k.uxSchedulerSuspended = 0) {k₁ : State α} (hrests : ∀ u, (k.slot u).Rests (k₁.slot u))
    (hsched : k₁.sched = k.sched) (hcpu : k₁.cpu = k.cpu) (t : TaskId) (frame : Frame α)
    (list : EventList) (res : QueueResult α) (u : TaskId) :
    k.RestsOrWoken (((k₁.retried t frame.waitList).wakeFirst list).complete t frame res) u := by
  have hslot : (k₁.retried t frame.waitList).slot = k₁.slot := rfl
  unfold RestsOrWoken
  rw [slot_complete]
  unfold wakeFirst
  split
  next => exact .inl (hrests u)
  next hne =>
    obtain ⟨w, rest, hlist⟩ := List.exists_cons_of_ne_nil hne
    have hzero₁ : (k₁.retried t frame.waitList).uxSchedulerSuspended = 0 :=
      (congrArg Prod.fst hcpu).trans hzero
    rw [slot_xTaskRemoveFromEventList _ w hlist, if_pos hzero₁, hslot]
    by_cases hu : u = w
    · subst hu
      have hmem : u ∈ k₁.sched.eventList list := by
        change u ∈ (k₁.retried t frame.waitList).eventList list
        rw [hlist]
        exact List.mem_cons_self
      rw [hsched] at hmem
      obtain ⟨-, f, hf, -⟩ := hlists.waiting u list ((hlists.listed u list).mp hmem)
      refine .inr ⟨?_, f, hf⟩
      rw [Function.update_self]
      rfl
    · rw [Function.update_of_ne hu]
      exact .inl (hrests u)

theorem rests_attempt (hrun : Running k t frame) (hpc : frame.pc = .attempt) (u : TaskId) :
    k.RestsOrWoken (k.attempt t frame) u := by
  have hzero : k.uxSchedulerSuspended = 0 := by
    rw [hrun.suspended_eq, hpc]
    rfl
  have hpass {k₁ : State α} (hrests : ∀ u, (k.slot u).Rests (k₁.slot u))
      (hsched : k₁.sched = k.sched) (hcpu : k₁.cpu = k.cpu) (list : EventList)
      (res : QueueResult α) :=
    rests_pass hrun.inv.lists hzero hrests hsched hcpu t frame list res u
  have hfail : k.RestsOrWoken (k.failOrWait t frame) u :=
    .inl (.of_eq (congrFun (slot_failOrWait k t frame) u))
  unfold attempt
  cases frame.op with
  | genericSend item =>
      unfold xQueueGenericSend
      dsimp only
      split
      · split
        · exact .inl (.refl _)
        next hcopy =>
          exact hpass (rests_prvCopyDataToQueue hcopy) (sched_prvCopyDataToQueue hcopy)
            (cpu_prvCopyDataToQueue k hcopy) _ _
      · exact hfail
  | receive =>
      unfold xQueueReceive
      dsimp only
      split
      · refine hpass (fun _ => ?_) ?_ ?_ _ _
        · exact .refl _
        · rw [sched_modQueue]
          all_goals
            unfold prvCopyDataFromQueue
            split <;> rfl
        · rfl
      · exact hfail
  | semaphoreTake =>
      unfold xQueueSemaphoreTake
      dsimp only
      split
      · refine hpass (fun u => .of_eq (congrFun (slot_takeCount k _) u)) (sched_takeCount k _)
          (cpu_takeCount k _) _ _
      · exact hfail

theorem slot_vTaskPlaceOnEventList (k : State α) (list : EventList) (xTicksToWait : Nat) :
    (k.vTaskPlaceOnEventList list xTicksToWait).slot = Function.update k.slot k.pxCurrentTCB
      (k.delayedSlot (k.slot k.pxCurrentTCB) xTicksToWait true) := by
  have hslot {tasks : List TaskId} : ((k.setEventList list tasks).modTask k.pxCurrentTCB
      fun T => { T with xEventList := some list }).slot = k.slot :=
    (slot_modTask_same _ _ rfl).trans (slot_setEventList ..)
  have hcpu {tasks : List TaskId} : ((k.setEventList list tasks).modTask k.pxCurrentTCB
      fun T => { T with xEventList := some list }).pxCurrentTCB = k.pxCurrentTCB :=
    congrArg Prod.snd (k.cpu_setEventList list tasks)
  have htick {tasks : List TaskId} : ((k.setEventList list tasks).modTask k.pxCurrentTCB
      fun T => { T with xEventList := some list }).xTickCount = k.xTickCount := by
    cases list <;> rfl
  unfold vTaskPlaceOnEventList
  dsimp only
  rw [slot_prvAddCurrentTaskToDelayedList, hslot, hcpu, delayedSlot, delayedSlot, htick]

/-- The tasks other than the one that blocks, in a step that does not resume the scheduler. -/
theorem rests_runFrame (hrun : Running k t frame) (hpc : ∀ after, frame.pc ≠ .resumeAll after)
    (u : TaskId) :
    k.RestsOrWoken (k.runFrame t frame) u ∨ u = t ∧ frame.pc = .place ∧
      (k.runFrame t frame).slot t = k.delayedSlot (k.slot t) frame.xTicksToWait true := by
  have hstill (hstill : frame.pc.still) : k.RestsOrWoken (k.runFrame t frame) u :=
    .inl (.of_eq (congrFun (slot_runFrame_still k t hstill) u))
  by_cases hfreed : frame.pc.touchesQueue && !(k.queue frame.xQueue).live
  · unfold runFrame
    dsimp only
    rw [if_pos hfreed]
    exact .inl (.inl (.refl _))
  · cases hcase : frame.pc with
    | attempt =>
        have hrests := rests_attempt hrun hcase u
        simp only [hcase] at hfreed
        simp only [runFrame, hcase]
        rw [if_neg hfreed]
        exact .inl hrests
    | inherit =>
        simp only [hcase] at hfreed
        simp only [runFrame, hcase]
        rw [if_neg hfreed]
        refine .inl (.inl ?_)
        rw [slot_setPc]
        exact rests_xTaskPriorityInherit k _ u
    | place =>
        simp only [hcase] at hfreed
        simp only [runFrame, hcase, RestsOrWoken]
        rw [if_neg hfreed, slot_setPc, slot_vTaskPlaceOnEventList, hrun.current]
        by_cases hu : u = t
        · exact .inr ⟨hu, trivial, Function.update_self ..⟩
        · rw [Function.update_of_ne hu]
          exact .inl (.inl (.refl _))
    | unlockTx after =>
        have hlock : (k.queue frame.xQueue).cTxLock ≤ 0 := (hrun.inv.lists.unlocked _).2
        simp only [hcase] at hfreed
        simp only [runFrame, hcase, prvUnlockQueueTx]
        rw [if_neg hfreed, Running.wakeLocked_eq _ _ hlock]
        refine .inl (.inl ?_)
        rw [slot_setPc]
        exact .refl _
    | unlockRx after =>
        have hlock : (k.queue frame.xQueue).cRxLock ≤ 0 := (hrun.inv.lists.unlocked _).1
        simp only [hcase] at hfreed
        simp only [runFrame, hcase, prvUnlockQueueRx]
        rw [if_neg hfreed, Running.wakeLocked_eq _ _ hlock]
        refine .inl (.inl ?_)
        rw [slot_setPc]
        exact .refl _
    | resumeAll after => exact absurd hcase (hpc after)
    | _ => exact .inl (hstill (by simp [hcase, Pc.still]))

/-! ## Locals -/

theorem xTaskCheckForTimeOut_ticks {timeOut timeOut' : TimeOut} {xTicksToWait left : Nat}
    {expired : Bool}
    (hcheck : k.xTaskCheckForTimeOut timeOut xTicksToWait = (expired, timeOut', left)) :
    left ≤ xTicksToWait ∧ (expired = false → 0 < left) := by
  have hmax : 0 < portMaxDelay := by decide
  unfold xTaskCheckForTimeOut at hcheck
  dsimp only at hcheck
  split at hcheck
  next hforever =>
    cases hcheck
    exact ⟨Nat.le_refl _, fun _ => hforever ▸ hmax⟩
  next =>
    split at hcheck
    · cases hcheck
      simp
    · split at hcheck
      · cases hcheck
        exact ⟨Nat.sub_le .., fun _ => by omega⟩
      · cases hcheck
        simp

/-- The locals of the running call after a step. -/
structure NextFrame (frame frame' : Frame α) : Prop where
  ticks : frame'.xTicksToWait ≤ frame.xTicksToWait
  waits : frame'.pc.waits → 0 < frame'.xTicksToWait ∨ frame.pc.waits ∧
    frame'.xTicksToWait = frame.xTicksToWait
  unplaced : frame'.pc.unplaced → frame.pc.waits ∧ frame.pc ≠ .place

theorem nextFrame_setPc {k' : State α} {frame' : Frame α} (pc : Pc α)
    (hf' : (k'.setPc t frame pc).view.frame t = some frame') (hwaits : pc.waits → frame.pc.waits)
    (hplace : pc.unplaced → frame.pc ≠ .place) : NextFrame frame frame' := by
  rw [view_setPc] at hf'
  have heq : { frame with pc := pc } = frame' := by simpa [View.setFrame] using hf'
  subst heq
  have hunplaced : pc.unplaced → pc.waits := by
    cases pc <;> simp [Pc.unplaced, Pc.waits]
  exact ⟨Nat.le_refl _, fun h => .inr ⟨hwaits h, rfl⟩, fun h => ⟨hwaits (hunplaced h), hplace h⟩⟩

theorem nextFrame_failOrWait {frame' : Frame α}
    (hf' : (k.failOrWait t frame).view.frame t = some frame') :
    NextFrame frame frame' := by
  unfold failOrWait at hf'
  dsimp only at hf'
  split at hf'
  next => exact nextFrame_setPc (.leave .fail) hf' (by simp [Pc.waits]) (by simp [Pc.unplaced])
  next hticks =>
    rw [view_setFrame] at hf'
    simp only [View.setFrame, Function.update_self, Option.some.injEq] at hf'
    subst hf'
    exact ⟨Nat.le_refl _, fun _ => .inl (Nat.pos_of_ne_zero hticks), by simp [Pc.unplaced]⟩

theorem nextFrame_attempt {frame' : Frame α} (hframe : k.view.frame t = some frame)
    (hf' : (k.attempt t frame).view.frame t = some frame') :
    frame' = frame ∧ (k.attempt t frame).slot = k.slot ∨ NextFrame frame frame' := by
  have hcomplete {k' : State α} {res : QueueResult α}
      (hf' : (k'.complete t frame res).view.frame t = some frame') : NextFrame frame frame' :=
    nextFrame_setPc (.leave res) hf' (by simp [Pc.waits]) (by simp [Pc.unplaced])
  unfold attempt at hf' ⊢
  cases hop : frame.op with
  | genericSend item =>
      rw [hop] at hf'
      unfold xQueueGenericSend at hf' ⊢
      dsimp only at hf' ⊢
      split at hf'
      · split at hf'
        next hcopy =>
          rw [if_pos ‹_›]
          refine .inl ⟨?_, rfl⟩
          exact Option.some.inj (hf'.symm.trans hframe)
        next => exact .inr (hcomplete hf')
      · exact .inr (nextFrame_failOrWait hf')
  | receive =>
      rw [hop] at hf'
      unfold xQueueReceive at hf'
      dsimp only at hf'
      split at hf'
      · exact .inr (hcomplete hf')
      · exact .inr (nextFrame_failOrWait hf')
  | semaphoreTake =>
      rw [hop] at hf'
      unfold xQueueSemaphoreTake at hf'
      dsimp only at hf'
      split at hf'
      · exact .inr (hcomplete hf')
      · exact .inr (nextFrame_failOrWait hf')

/-- A step of a blocking function halts the system, or moves the call on. -/
theorem nextFrame_runFrame {frame' : Frame α} (hframe : k.view.frame t = some frame)
    (hf' : (k.runFrame t frame).view.frame t = some frame') :
    frame' = frame ∧ (k.runFrame t frame).slot = k.slot ∨ NextFrame frame frame' := by
  have hhalt (hf' : k.view.frame t = some frame') : frame' = frame :=
    Option.some.inj (hf'.symm.trans hframe)
  by_cases hfreed : frame.pc.touchesQueue && !(k.queue frame.xQueue).live
  · have hhalted : k.runFrame t frame = k.halt (.useAfterFree frame.xQueue) := by
      unfold runFrame
      dsimp only
      rw [if_pos hfreed]
    rw [hhalted] at hf' ⊢
    exact .inl ⟨hhalt hf', rfl⟩
  · unfold runFrame at hf' ⊢
    dsimp only at hf' ⊢
    rw [if_neg hfreed] at hf' ⊢
    cases hpc : frame.pc with
    | entry =>
        simp only [hpc] at hf' ⊢
        split at hf'
        next => exact .inr (nextFrame_setPc _ hf' (by simp [Pc.waits]) (by simp [Pc.unplaced]))
        next hasserts =>
          rw [if_neg hasserts]
          exact .inl ⟨hhalt hf', rfl⟩
    | attempt =>
        simp only [hpc] at hf' ⊢
        exact nextFrame_attempt hframe hf'
    | checkTimeOut =>
        simp only [hpc] at hf'
        obtain ⟨expired, timeOut, left, hcheck⟩ : ∃ expired timeOut left, k.xTaskCheckForTimeOut
            (frame.xTimeOut.getD k.vTaskInternalSetTimeOutState) frame.xTicksToWait =
            (expired, timeOut, left) :=
          ⟨_, _, _, rfl⟩
        obtain ⟨hle, hpos⟩ := xTaskCheckForTimeOut_ticks hcheck
        rw [hcheck, view_setFrame] at hf'
        simp only [View.setFrame, Function.update_self, Option.some.injEq] at hf'
        subst hf'
        refine .inr ⟨hle, fun hwaits => .inl (hpos ?_), fun _ => by simp [hpc, Pc.waits]⟩
        cases expired with
        | false => rfl
        | true => simp [Pc.waits] at hwaits
    | checkBlock =>
        simp only [hpc] at hf'
        refine .inr ?_
        split at hf'
        · split at hf'
          · exact nextFrame_setPc _ hf' (by simp [hpc, Pc.waits]) (by simp [hpc])
          · exact nextFrame_setPc _ hf' (by simp [hpc, Pc.waits]) (by simp [hpc])
        · exact nextFrame_setPc _ hf' (by simp [Pc.waits]) (by simp [Pc.unplaced])
    | resumeAll after =>
        simp only [hpc] at hf'
        refine .inr ?_
        unfold afterResume at hf'
        split at hf'
        · exact nextFrame_setPc (.leave .fail) hf' (by simp [Pc.waits]) (by simp [Pc.unplaced])
        · exact nextFrame_setPc _ hf' (by simp [Pc.waits]) (by simp [Pc.unplaced])
        · exact nextFrame_setPc _ hf' (by simp [Pc.waits]) (by simp [Pc.unplaced])
    | recheck =>
        simp only [hpc] at hf'
        refine .inr ?_
        split at hf'
        · exact nextFrame_setPc (.leave .fail) hf' (by simp [Pc.waits]) (by simp [Pc.unplaced])
        · exact nextFrame_setPc _ hf' (by simp [Pc.waits]) (by simp [Pc.unplaced])
    | leave res =>
        simp only [hpc] at hf'
        rw [view_leave] at hf'
        rw [(View.Moved.leave ..).frame, Function.update_self] at hf'
        cases hf'
    | _ =>
        simp only [hpc] at hf'
        exact .inr (nextFrame_setPc _ hf' (by simp [hpc, Pc.waits]) (by simp [hpc, Pc.unplaced]))

end State

end SimulatedLinux.Kernel
