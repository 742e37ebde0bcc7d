import SimulatedLinux.Kernel.View

/-! # The effect of one step

What one step of a blocking function, and one step of the kernel, can do to the
view. The results about single kinds of queue are derived from these two
relations, without a look at the scheduler.
-/

namespace SimulatedLinux.Kernel

variable {α : Type}

/-! ## The effect of one step of a blocking function -/

/-- The operation can be completed at once. -/
def Op.ready : Op α → Contents α → Prop
  | genericSend _, C => C.uxMessagesWaiting < C.uxLength
  | receive, C | semaphoreTake, C => 0 < C.uxMessagesWaiting

/-- The program points inside the loop, other than its critical section. -/
def Pc.looping : Pc α → Bool
  | entry | attempt | leave _ => false
  | _ => true

/-- The program points after a time-out. -/
def Pc.expired : Pc α → Bool
  | unlockTx .timedOut | unlockRx .timedOut | resumeAll .timedOut | recheck => true
  | _ => false

/-- The call waits for ever, and has not timed out. -/
def Frame.Patient (f : Frame α) : Prop :=
  f.xTicksToWait = portMaxDelay ∧ f.pc.expired = false

/-- The holder count after a give: `xTaskPriorityDisinherit` lowers it for a
mutex that has a holder. -/
def View.released (v : View α) (t : TaskId) (q : QueueId) : View α :=
  if (v.queue q).uxItemSize = 0 ∧ (v.queue q).isMutex ∧ (v.queue q).xMutexHolder = some t then
    v.setHeld t (v.held t - 1)
  else v

/-- The holder count after a take. -/
def View.acquired (v : View α) (t : TaskId) (q : QueueId) : View α :=
  if (v.queue q).isMutex then v.setHeld t (v.held t + 1) else v

/-- Why a step inside a blocking function can stop the system: the queue has been
freed, an assertion at the head of the function fails, or a mutex is given by a
task that does not hold it. -/
inductive Faults (v : View α) (t : TaskId) (frame : Frame α) : Fault → Prop
  | freed (hpc : frame.pc.touchesQueue) (hdead : (v.queue frame.xQueue).live = false) :
      Faults v t frame (.useAfterFree frame.xQueue)
  | asserted (hpc : frame.pc = .entry) : Faults v t frame .assertion
  | notHolder (hpc : frame.pc = .attempt) (hmutex : (v.queue frame.xQueue).isMutex)
      (holder : TaskId) (hholder : (v.queue frame.xQueue).xMutexHolder = some holder)
      (hheld : holder ≠ t ∨ v.held holder = 0) : Faults v t frame .assertion

/-- What one step of task `t` inside a blocking function does to the view. -/
inductive Ran (v : View α) (t : TaskId) (frame : Frame α) : View α → Prop
  | halted (fault : Fault) (hfaults : Faults v t frame fault) :
      Ran v t frame { v with fault := some fault }
  | entered (hpc : frame.pc = .entry) :
      Ran v t frame (v.setFrame t (some { frame with pc := .attempt }))
  | waits (timeOut : TimeOut) (hpc : frame.pc = .attempt) (hticks : frame.xTicksToWait ≠ 0)
      (hready : ¬ frame.op.ready (v.queue frame.xQueue)) :
      Ran v t frame (v.setFrame t
        (some { frame with xTimeOut := some timeOut, pc := .suspendAll }))
  | moved (frame' : Frame α) (hpc : frame.pc.looping)
    (hpc' : frame'.pc.looping ∨ frame'.pc = .attempt)
      (hapi : frame'.api = frame.api) (hop : frame'.op = frame.op)
      (hqueue : frame'.xQueue = frame.xQueue) (hpatient : frame.Patient → frame'.Patient) :
      Ran v t frame (v.setFrame t (some frame'))
  | gaveUp (hpc : frame.pc = .attempt) (hticks : frame.xTicksToWait = 0)
      (hready : ¬ frame.op.ready (v.queue frame.xQueue)) :
      Ran v t frame (v.complete t frame .fail)
  | timedOut (hpc : frame.pc.looping) (hpatient : ¬ frame.Patient) :
      Ran v t frame (v.complete t frame .fail)
  | sent (item : Option α) (hpc : frame.pc = .attempt) (hop : frame.op = .genericSend item)
      (hlive : (v.queue frame.xQueue).live) (hready : frame.op.ready (v.queue frame.xQueue))
      (hholder : (v.queue frame.xQueue).uxItemSize = 0 → (v.queue frame.xQueue).isMutex →
        (v.queue frame.xQueue).xMutexHolder = none ∨
          (v.queue frame.xQueue).xMutexHolder = some t ∧ 0 < v.held t) :
      Ran v t frame (((v.released t frame.xQueue).setQueue frame.xQueue
        ((v.queue frame.xQueue).sent item)).complete t frame (.pass none))
  | received (hpc : frame.pc = .attempt) (hop : frame.op = .receive)
      (hlive : (v.queue frame.xQueue).live) (hready : frame.op.ready (v.queue frame.xQueue)) :
      Ran v t frame ((v.setQueue frame.xQueue (v.queue frame.xQueue).received).complete t frame
        (.pass (v.queue frame.xQueue).front))
  | taken (hpc : frame.pc = .attempt) (hop : frame.op = .semaphoreTake)
      (hlive : (v.queue frame.xQueue).live) (hready : frame.op.ready (v.queue frame.xQueue)) :
      Ran v t frame (((v.acquired t frame.xQueue).setQueue frame.xQueue
        ((v.queue frame.xQueue).taken t)).complete t frame (.pass none))
  | left (res : QueueResult α) (elapsed : Nat) (hpc : frame.pc = .leave res) :
      Ran v t frame (v.leave t frame.api res (frame.api.result res elapsed))

theorem Ran.setPc {v : View α} {t : TaskId} {frame : Frame α} {pc : Pc α}
    (hpc : frame.pc.looping) (hpc' : pc.looping ∨ pc = .attempt)
    (hexpired : frame.pc.expired = false → pc.expired = false) :
    Ran v t frame (v.setFrame t (some { frame with pc := pc })) :=
  .moved _ hpc hpc' rfl rfl rfl fun hpatient => ⟨hpatient.1, hexpired hpatient.2⟩

namespace State

variable {k : State α} {t : TaskId} {frame : Frame α}

theorem ran_failOrWait (hpc : frame.pc = .attempt)
    (hready : ¬ frame.op.ready (k.view.queue frame.xQueue)) :
    Ran k.view t frame (k.failOrWait t frame).view := by
  rcases view_failOrWait k t frame with ⟨hticks, hview⟩ | ⟨hticks, timeOut, hview⟩
  · rw [hview]
    exact .gaveUp hpc hticks hready
  · rw [hview]
    exact .waits timeOut hpc hticks hready

theorem view_prvCopyDataToQueue (hcurrent : k.pxCurrentTCB = t) {q : QueueId} {item : Option α}
    {k' : State α} (hcopy : k.prvCopyDataToQueue q item = some k') :
    k'.view = (k.view.released t q).setQueue q ((k.view.queue q).sent item) ∧
      ((k.view.queue q).uxItemSize = 0 → (k.view.queue q).isMutex →
        (k.view.queue q).xMutexHolder = none ∨
          (k.view.queue q).xMutexHolder = some t ∧ 0 < k.view.held t) := by
  unfold prvCopyDataToQueue at hcopy
  split at hcopy
  next hsize =>
    split at hcopy
    next hmutex =>
      obtain ⟨k₁, hdone, rfl⟩ := Option.map_eq_some_iff.mp hcopy
      rcases view_xTaskPriorityDisinherit k hdone with ⟨hholder, rfl⟩ | ⟨hholder, hheld, hview⟩
      · refine ⟨?_, fun _ _ => .inl hholder⟩
        rw [view_modQueue]
        simp [view_queue, View.released, Queue.contents, Contents.sent, hsize, hmutex, hholder]
      · rw [hcurrent] at hholder hheld hview
        refine ⟨?_, fun _ _ => .inr ⟨hholder, hheld⟩⟩
        have hqueue : (k₁.queue q).contents = (k.queue q).contents :=
          congrFun (congrArg View.queue hview) q
        rw [view_modQueue, hview]
        simp only [Queue.contents, Contents.mk.injEq] at hqueue
        simp [view_queue, View.released, Queue.contents, Contents.sent, hsize, hmutex, hholder,
          hqueue]
    next hmutex =>
      cases hcopy
      refine ⟨?_, fun _ h => absurd h hmutex⟩
      rw [view_modQueue]
      simp [view_queue, View.released, Queue.contents, Contents.sent, hsize, hmutex]
  next hsize =>
    cases hcopy
    refine ⟨?_, fun h => absurd h hsize⟩
    rw [view_modQueue]
    simp only [View.released, Queue.contents, Contents.sent, view_queue, hsize, if_false, false_and]
    rfl

/-- A give stops the system only when the giver does not hold the mutex. -/
theorem prvCopyDataToQueue_none (hcurrent : k.pxCurrentTCB = t) {q : QueueId} {item : Option α}
    (hcopy : k.prvCopyDataToQueue q item = none) :
    (k.view.queue q).isMutex ∧ ∃ holder, (k.view.queue q).xMutexHolder = some holder ∧
      (holder ≠ t ∨ k.view.held holder = 0) := by
  unfold prvCopyDataToQueue at hcopy
  split at hcopy
  · split at hcopy
    next hmutex =>
      rw [Option.map_eq_none_iff] at hcopy
      unfold xTaskPriorityDisinherit at hcopy
      split at hcopy
      · simp at hcopy
      next holder hholder =>
        refine ⟨hmutex, holder, hholder, ?_⟩
        split at hcopy
        · dsimp only at hcopy
          split at hcopy <;> simp at hcopy
        next hnot =>
          rw [hcurrent] at hnot
          exact not_and_or.mp hnot |>.imp id fun h => not_not.mp h
    · simp at hcopy
  · simp at hcopy

theorem ran_xQueueGenericSend (hcurrent : k.pxCurrentTCB = t) (hpc : frame.pc = .attempt)
    (hlive : (k.view.queue frame.xQueue).live) {item : Option α}
    (hop : frame.op = .genericSend item) :
    Ran k.view t frame (k.xQueueGenericSend t frame item).view := by
  unfold xQueueGenericSend
  dsimp only
  split
  next hspace =>
    split
    next hcopy =>
      obtain ⟨hmutex, holder, hholder, hheld⟩ := prvCopyDataToQueue_none hcurrent hcopy
      exact .halted _ (.notHolder hpc hmutex holder hholder hheld)
    next k' hcopy =>
      obtain ⟨hview, hholder⟩ := view_prvCopyDataToQueue hcurrent hcopy
      rw [view_complete, view_wakeFirst, view_retried, hview]
      exact .sent item hpc hop hlive (by rw [hop]; exact hspace) hholder
  next hspace => exact ran_failOrWait hpc (by rw [hop]; exact hspace)

theorem ran_xQueueReceive (hpc : frame.pc = .attempt) (hlive : (k.view.queue frame.xQueue).live)
    (hop : frame.op = .receive) : Ran k.view t frame (k.xQueueReceive t frame).view := by
  unfold xQueueReceive
  dsimp only
  split
  next hcount =>
    have hafter : ({ (prvCopyDataFromQueue (k.queue frame.xQueue)).1 with
          uxMessagesWaiting :=
            (prvCopyDataFromQueue (k.queue frame.xQueue)).1.uxMessagesWaiting - 1 } :
          Queue α).contents = (k.view.queue frame.xQueue).received ∧
        (prvCopyDataFromQueue (k.queue frame.xQueue)).2 = (k.view.queue frame.xQueue).front := by
      unfold prvCopyDataFromQueue
      split
      next hsize => simp [view_queue, Queue.contents, Contents.received, Contents.front, hsize]
      next hsize =>
        simp only [Queue.contents, Contents.received, Contents.front, view_queue, hsize, if_false]
        exact ⟨rfl, rfl⟩
    rw [view_complete, view_wakeFirst, view_retried, view_modQueue, hafter.1, hafter.2]
    exact .received hpc hop hlive (by rw [hop]; exact hcount)
  next hcount => exact ran_failOrWait hpc (by rw [hop]; exact hcount)

theorem view_takeCount (hcurrent : k.pxCurrentTCB = t) (q : QueueId) :
    (k.takeCount q).view =
      (k.view.acquired t q).setQueue q ((k.view.queue q).taken t) := by
  unfold takeCount
  dsimp only
  cases hmutex : (k.queue q).isMutex with
  | false =>
      rw [if_neg (by simp [modQueue, hmutex]), view_modQueue]
      simp [view_queue, View.acquired, Contents.taken, Queue.contents, hmutex]
  | true =>
      rw [if_pos (by simp [modQueue, hmutex]), view_modQueue, pvTaskIncrementMutexHeldCount,
        view_modHeld _ _ (· + 1), view_modQueue]
      simp [view_queue, View.acquired, Contents.taken, Queue.contents, hmutex, View.setQueue,
        View.setHeld, modQueue, modTask, hcurrent]

theorem ran_xQueueSemaphoreTake (hcurrent : k.pxCurrentTCB = t) (hpc : frame.pc = .attempt)
    (hlive : (k.view.queue frame.xQueue).live) (hop : frame.op = .semaphoreTake) :
    Ran k.view t frame (k.xQueueSemaphoreTake t frame).view := by
  unfold xQueueSemaphoreTake
  dsimp only
  split
  next hcount =>
    rw [view_complete, view_wakeFirst, view_retried, view_takeCount hcurrent]
    exact .taken hpc hop hlive (by rw [hop]; exact hcount)
  next hcount => exact ran_failOrWait hpc (by rw [hop]; exact hcount)

theorem ran_attempt (hcurrent : k.pxCurrentTCB = t) (hpc : frame.pc = .attempt)
    (hlive : (k.view.queue frame.xQueue).live) : Ran k.view t frame (k.attempt t frame).view := by
  unfold attempt
  split
  next item hop => exact ran_xQueueGenericSend hcurrent hpc hlive hop
  next hop => exact ran_xQueueReceive hpc hlive hop
  next hop => exact ran_xQueueSemaphoreTake hcurrent hpc hlive hop

theorem ran_afterResume {after : AfterUnlock} (hpc : frame.pc = .resumeAll after) :
    Ran k.view t frame (k.afterResume t frame after).view := by
  have hlooping : frame.pc.looping := by rw [hpc]; rfl
  unfold afterResume
  split
  · rw [view_complete]
    exact .timedOut hlooping fun hpatient => by simp [Frame.Patient, hpc, Pc.expired] at hpatient
  · rw [view_setPc]
    exact .setPc hlooping (.inl rfl) fun hexpired => by simp [hpc, Pc.expired] at hexpired
  · rw [view_setPc]
    exact .setPc hlooping (.inr rfl) fun _ => rfl

theorem view_leave (res : QueueResult α) :
    (k.leave t frame res).view = k.view.leave t frame.api res (frame.api.result res
      ((k.xTickCount + tickModulus - frame.startTick) % tickModulus)) := by
  unfold leave View.leave
  dsimp only
  rw [← view_setFrameRet]
  cases frame.api.locks <;> cases res <;> rfl

theorem ran_leave {res : QueueResult α} (hpc : frame.pc = .leave res) :
    Ran k.view t frame (k.leave t frame res).view := by
  rw [view_leave]
  exact .left res _ hpc

/-- One step inside a blocking function is one of the cases of `Ran`. -/
theorem ran_runFrame (hcurrent : k.pxCurrentTCB = t) :
    Ran k.view t frame (k.runFrame t frame).view := by
  unfold runFrame
  dsimp only
  split
  next hdead =>
    simp only [Bool.and_eq_true, Bool.not_eq_true'] at hdead
    exact .halted _ (.freed hdead.1 hdead.2)
  next hlive =>
    split
    next hpc =>
      split
      · rw [view_setPc]
        exact .entered hpc
      · exact .halted _ (.asserted hpc)
    next hpc =>
      have hlive' : (k.queue frame.xQueue).live := by simpa [hpc, Pc.touchesQueue] using hlive
      exact ran_attempt hcurrent hpc hlive'
    next hpc => simpa using Ran.setPc (by rw [hpc]; rfl) (.inl rfl) fun _ => rfl
    next hpc => simpa using Ran.setPc (by rw [hpc]; rfl) (.inl rfl) fun _ => rfl
    next hpc =>
      rw [view_setFrame]
      refine .moved _ (by rw [hpc]; rfl) (.inl (by dsimp only; split <;> rfl)) rfl rfl rfl ?_
      intro hpatient
      -- `xTaskCheckForTimeOut` never expires for `portMAX_DELAY`
      simp [Frame.Patient, hpatient.1, xTaskCheckForTimeOut, Pc.expired]
    next hpc =>
      split
      · split <;> rw [view_setPc]
        · exact .setPc (by rw [hpc]; rfl) (.inl (by split <;> rfl)) fun _ => by split <;> rfl
        · exact .setPc (by rw [hpc]; rfl) (.inl rfl) fun _ => rfl
      · rw [view_setPc]
        exact .setPc (by rw [hpc]; rfl) (.inl rfl) fun _ => rfl
    next hpc => simpa using Ran.setPc (by rw [hpc]; rfl) (.inl rfl) fun _ => rfl
    next hpc => simpa using Ran.setPc (by rw [hpc]; rfl) (.inl rfl) fun _ => rfl
    next after hpc =>
      have hexpired : frame.pc.expired = false → (Pc.unlockRx after : Pc α).expired = false := by
        rw [hpc]
        cases after <;> exact id
      simpa using Ran.setPc (by rw [hpc]; rfl) (.inl rfl) hexpired
    next after hpc =>
      have hexpired : frame.pc.expired = false → (Pc.resumeAll after : Pc α).expired = false := by
        rw [hpc]
        cases after <;> exact id
      simpa using Ran.setPc (by rw [hpc]; rfl) (.inl rfl) hexpired
    next after hpc =>
      rw [← view_xTaskResumeAll k]
      exact ran_afterResume hpc
    next hpc =>
      split
      · rw [view_complete]
        refine .timedOut (by rw [hpc]; rfl) fun hpatient => ?_
        simp [Frame.Patient, hpc, Pc.expired] at hpatient
      · rw [view_setPc]
        exact .setPc (by rw [hpc]; rfl) (.inr rfl) fun _ => rfl
    next res hpc => exact ran_leave hpc

end State

/-! ## The effect of one step of the kernel -/

namespace View

/-- Task `t` enters an entry point of the shim. -/
def enter (v : View α) (t : TaskId) (api : Api α) (startTick : Nat) : View α :=
  let v :=
    match api.unlocks with
    | some q => { v with locked := Function.update v.locked t ((v.locked t).erase q) }
    | none => v
  match api.request with
  | none => v.setRet t (some api.nullResult)
  | some (op, q, xTicksToWait) =>
      (v.setFrame t (some
        { api, op, xQueue := q, xTicksToWait, xTimeOut := none, startTick
          pc := .entry })).setRet t none

section Enter

variable (v : View α) (t : TaskId) (api : Api α) (startTick : Nat)

/-- Entering a blocking function touches no queue, and of the tasks only the caller. -/
theorem enter_eq : v.enter t api startTick = { v with
    frame := (v.enter t api startTick).frame
    ret := (v.enter t api startTick).ret
    locked := (v.enter t api startTick).locked } := by
  unfold enter
  cases api.unlocks <;> cases api.request <;> rfl

@[simp] theorem enter_queue : (v.enter t api startTick).queue = v.queue := by rw [enter_eq]

@[simp] theorem enter_held : (v.enter t api startTick).held = v.held := by rw [enter_eq]

@[simp] theorem enter_nextQueue : (v.enter t api startTick).nextQueue = v.nextQueue := by
  rw [enter_eq]

@[simp] theorem enter_nextTask : (v.enter t api startTick).nextTask = v.nextTask := by rw [enter_eq]

@[simp] theorem enter_fault : (v.enter t api startTick).fault = v.fault := by rw [enter_eq]

@[simp] theorem enter_trace : (v.enter t api startTick).trace = v.trace := by rw [enter_eq]

@[simp] theorem enter_termination :
    (v.enter t api startTick).xTasksWaitingTermination = v.xTasksWaitingTermination := by
  rw [enter_eq]

theorem enter_frame_ne {u : TaskId} (hu : u ≠ t) :
    (v.enter t api startTick).frame u = v.frame u := by
  unfold enter
  cases api.unlocks <;> cases api.request <;> simp [setRet, setFrame, hu]

theorem enter_ret_ne {u : TaskId} (hu : u ≠ t) : (v.enter t api startTick).ret u = v.ret u := by
  unfold enter
  cases api.unlocks <;> cases api.request <;> simp [setRet, setFrame, hu]

/-- The frame of the call, if it is made. -/
theorem enter_frame_self (hframe : v.frame t = none) :
    (api.request = none ∧ (v.enter t api startTick).frame t = none) ∨
      ∃ f, (v.enter t api startTick).frame t = some f ∧ f.api = api ∧ f.pc = .entry ∧
        api.request = some (f.op, f.xQueue, f.xTicksToWait) := by
  unfold enter
  cases hrequest : api.request with
  | none => cases api.unlocks <;> exact .inl ⟨rfl, hframe⟩
  | some request =>
      obtain ⟨op, q, xTicksToWait⟩ := request
      cases api.unlocks <;> exact .inr ⟨_, Function.update_self .., rfl, rfl, rfl⟩

/-- A frame was there before, or is that of the call. -/
theorem enter_frame_cases (hframe : v.frame t = none) {u : TaskId} {f : Frame α}
    (hf : (v.enter t api startTick).frame u = some f) : v.frame u = some f ∨
      u = t ∧ f.api = api ∧ f.pc = .entry ∧
        api.request = some (f.op, f.xQueue, f.xTicksToWait) := by
  by_cases hu : u = t
  · subst hu
    rcases v.enter_frame_self u api startTick hframe with ⟨-, hnone⟩ | ⟨g, hg, hentry⟩
    · simp [hnone] at hf
    · obtain rfl : g = f := Option.some.inj (hg.symm.trans hf)
      exact .inr ⟨rfl, hentry⟩
  · rw [enter_frame_ne v t api startTick hu] at hf
    exact .inl hf

/-- The mutexes a task holds once it has entered: one that is unlocked is not its own any more. -/
theorem enter_locked (u : TaskId) :
    ((v.enter t api startTick).locked u).Sublist (v.locked u) := by
  unfold enter
  by_cases hu : u = t
  · subst hu
    cases api.unlocks <;> cases api.request <;>
      simp [setRet, setFrame, List.erase_sublist, List.Sublist.refl]
  · cases api.unlocks <;> cases api.request <;> simp [setRet, setFrame, hu, List.Sublist.refl]

theorem enter_locked_ne {u : TaskId} (hu : u ≠ t) :
    (v.enter t api startTick).locked u = v.locked u := by
  unfold enter
  cases api.unlocks <;> cases api.request <;> simp [setRet, setFrame, hu]

theorem enter_locked_self {q : QueueId} (hunlocks : api.unlocks = some q) :
    (v.enter t api startTick).locked t = (v.locked t).erase q := by
  unfold enter
  rw [hunlocks]
  cases api.request <;> simp [setRet, setFrame]

end Enter

def addQueue (v : View α) (C : Contents α) : View α :=
  { v with queue := Function.update v.queue v.nextQueue C, nextQueue := v.nextQueue + 1 }

def addTask (v : View α) : View α :=
  { v with
    nextTask := v.nextTask + 1
    uxCurrentNumberOfTasks := v.uxCurrentNumberOfTasks + 1
    held := Function.update v.held v.nextTask 0
    frame := Function.update v.frame v.nextTask none
    ret := Function.update v.ret v.nextTask none }

def terminate (v : View α) (t : TaskId) : View α :=
  { v with xTasksWaitingTermination := v.xTasksWaitingTermination ++ [t] }

def reap (v : View α) : View α :=
  match v.xTasksWaitingTermination with
  | [] => v
  | _ :: rest =>
      { v with
        xTasksWaitingTermination := rest
        uxCurrentNumberOfTasks := v.uxCurrentNumberOfTasks - 1 }

end View

/-- The acts that only schedule. -/
def Act.schedules : Act α → Bool
  | tick | delay _ _ | suspendAll _ | resumeAll _ => true
  | _ => false

/-- What one step of the kernel does to the view. -/
inductive Stepped (v : View α) : Act α → View α → Prop
  | scheduled (act : Act α) (hact : act.schedules) : Stepped v act v
  | asserted (act : Act α) : Stepped v act { v with fault := some .assertion }
  | freed (t : TaskId) (q : QueueId) (hdead : (v.queue q).live = false) :
      Stepped v (.delete t q) { v with fault := some (.useAfterFree q) }
  | ran {t : TaskId} {frame : Frame α} {v' : View α} (hframe : v.frame t = some frame)
      (hran : Ran v t frame v') : Stepped v (.run t) v'
  | called (t : TaskId) (api : Api α) (startTick : Nat) (hframe : v.frame t = none) :
      Stepped v (.call t api) (v.enter t api startTick)
  | created (t : TaskId) (spec : NewQueue) (Q : Queue α) (hbuild : spec.build = some Q) :
      Stepped v (.create t spec) (v.addQueue Q.contents)
  | deleted (t : TaskId) (q : QueueId) (hlive : (v.queue q).live) :
      Stepped v (.delete t q) (v.setQueue q { v.queue q with live := false })
  | spawned (t : TaskId) (uxPriority : Nat) : Stepped v (.spawn t uxPriority) v.addTask
  | exited (t : TaskId) (hframe : v.frame t = none) : Stepped v (.exit t) (v.terminate t)
  | reaped (t : TaskId) : Stepped v (.reap t) v.reap

namespace State

theorem view_enter (k : State α) (t : TaskId) (api : Api α) :
    (k.enter t api).view = k.view.enter t api k.xTickCount := by
  unfold enter View.enter
  dsimp only
  cases api.request with
  | none =>
      cases api.unlocks <;> exact view_modRet _ t _
  | some request =>
      obtain ⟨op, q, xTicksToWait⟩ := request
      cases api.unlocks <;> exact view_setFrameRet _ t _ _

theorem view_addQueue (k : State α) (Q : Queue α) :
    (k.addQueue Q).view = k.view.addQueue Q.contents := by
  simp only [view, addQueue, View.addQueue, View.mk.injEq, and_true]
  exact Function.comp_update Queue.contents k.queue k.nextQueue Q

theorem view_prvAddNewTaskToReadyList (k : State α) (uxPriority : Nat) :
    (k.prvAddNewTaskToReadyList uxPriority).view = k.view.addTask := by
  simp only [view, prvAddNewTaskToReadyList, View.addTask, View.mk.injEq, and_true, true_and]
  exact ⟨Function.comp_update Task.uxMutexesHeld k.task k.nextTask _,
    Function.comp_update Task.frame k.task k.nextTask _,
    Function.comp_update Task.ret k.task k.nextTask _⟩

theorem view_prvCheckTasksWaitingTermination (k : State α) :
    k.prvCheckTasksWaitingTermination.view = k.view.reap := by
  unfold prvCheckTasksWaitingTermination View.reap
  cases hlist : k.xTasksWaitingTermination with
  | nil => simp [view, hlist]
  | cons t rest =>
      have hview :=
        view_modTask_wait k t (f := fun T => { T with xStateList := .absent }) rfl rfl rfl
      simp only [view, View.mk.injEq] at hview
      simp [view, hlist, hview]

theorem view_vTaskDelete (k : State α) (t : TaskId) :
    (k.vTaskDelete t).view = k.view.terminate t ∨
      (k.vTaskDelete t).view = { k.view with fault := some .assertion } := by
  unfold vTaskDelete
  split
  · refine .inl ?_
    have hview := (view_modTask_wait (k.removeEventItem t) t
      (f := fun T => { T with xStateList := .waitingTermination }) rfl rfl rfl).trans
      (view_removeEventItem k t)
    simp only [view, View.mk.injEq] at hview
    simp [view, View.terminate, hview]
  · exact .inr rfl

theorem stepped_perform {k k' : State α} {t : TaskId} {act : Act α} (hactor : act.actor = some t)
    (hframe : (k.task t).frame = none) (hstep : k.perform act = some k') :
    Stepped k.view act k'.view := by
  cases act with
  | tick => simp [perform] at hstep
  | run => simp [perform] at hstep
  | call u api =>
      cases hactor
      cases hstep
      rw [view_enter]
      exact .called _ api _ hframe
  | create u spec =>
      simp only [perform] at hstep
      split at hstep <;> cases hstep
      next Q hbuild =>
        rw [view_addQueue]
        exact .created u spec Q hbuild
      next => exact .asserted _
  | delete u q =>
      simp only [perform] at hstep
      split at hstep <;> cases hstep
      next hlive =>
        rw [vQueueDelete, view_modQueue]
        exact .deleted u q hlive
      next hdead => exact .freed u q (Bool.eq_false_iff.mpr hdead)
  | spawn u uxPriority =>
      simp only [perform] at hstep
      split at hstep <;> cases hstep
      · rw [view_prvAddNewTaskToReadyList]
        exact .spawned u uxPriority
      · exact .asserted _
  | exit u =>
      cases hactor
      cases hstep
      rcases view_vTaskDelete k t with hview | hview <;> rw [hview]
      · exact .exited _ hframe
      · exact .asserted _
  | reap u =>
      cases hstep
      rw [view_prvCheckTasksWaitingTermination]
      exact .reaped u
  | delay u xTicksToDelay =>
      simp only [perform] at hstep
      split at hstep <;> cases hstep
      · rw [view_vTaskDelay]
        exact .scheduled _ rfl
      · exact .asserted _
  | suspendAll u =>
      cases hstep
      exact .scheduled _ rfl
  | resumeAll u =>
      simp only [perform] at hstep
      split at hstep <;> cases hstep
      · exact .asserted _
      · rw [view_xTaskResumeAll]
        exact .scheduled _ rfl

/-- Every step of the kernel is one of the cases of `Stepped`. -/
theorem stepped_step {k k' : State α} {act : Act α} (hstep : k.step act = some k') :
    Stepped k.view act k'.view := by
  unfold step at hstep
  split at hstep
  next hactor =>
    have hact : act.schedules := by cases act <;> simp_all [Act.actor, Act.schedules]
    split at hstep
    · cases hstep
      rw [view_xTaskIncrementTick]
      exact .scheduled act hact
    · simp at hstep
  next t hactor =>
    split at hstep
    next =>
      split at hstep
      next frame hframe =>
        cases hactor
        cases hstep
        exact .ran hframe (ran_runFrame (k := k.switchTo t) (t := t) rfl)
      next => simp at hstep
      next hframe => exact stepped_perform (k := k.switchTo t) hactor hframe hstep
    next => simp at hstep

end State

end SimulatedLinux.Kernel
