import SimulatedLinux.Kernel.Effect
import SimulatedLinux.Kernel.Sched

/-! # No lost wake-up

The invariant of the blocking functions: whenever a task waits on a side of a
queue, the items (or free slots) it waits for are at most the number of tasks
that have been woken from that side and have still to run their critical section.
It rests on the window in which a blocking function keeps the scheduler suspended
between its last look at the queue and the moment it is on the wait list.
-/

namespace SimulatedLinux.Kernel

variable {α : Type}

/-- The program points at which the task has decided to block. -/
def Pc.mustWait : Pc α → Bool
  | inherit | place => true
  | _ => false

/-- `Op.mustBlock`, for the contents of the queue. -/
def Op.blocked : Op α → Contents α → Prop
  | genericSend _, C => C.uxMessagesWaiting = C.uxLength
  | receive, C | semaphoreTake, C => C.uxMessagesWaiting = 0

theorem Op.blocked_of_mustBlock {op : Op α} {Q : Queue α} (hblock : op.mustBlock Q) :
    op.blocked Q.contents := by
  cases op <;> simp only [Op.mustBlock, prvIsQueueFull, prvIsQueueEmpty, decide_eq_true_eq]
    at hblock <;>
    exact hblock

/-- The scheduler is suspended exactly for the task that is inside the window of
its blocking function, or by an application that is in no blocking function. -/
structure Window (v : View α) (suspended : Nat) (current : TaskId) : Prop where
  window : ∀ t f, v.frame t = some f → f.pc.inWindow → suspended = 1 ∧ current = t
  suspended : suspended ≠ 0 → ∀ f, v.frame current = some f → f.pc.inWindow
  blocks : ∀ t f, v.frame t = some f → f.pc.mustWait → f.op.blocked (v.queue f.xQueue)
  born : ∀ t f, v.frame t = some f → f.pc ≠ .entry → f.xQueue < v.nextQueue
  unborn : ∀ q, v.nextQueue ≤ q → (v.queue q).live = false
  unspawned : ∀ t, v.nextTask ≤ t → v.frame t = none
  current : current < v.nextTask

/-- The count of a queue against its waiters and the tasks woken for it. -/
structure Balanced (queue : QueueId → Contents α) (S : Sched) : Prop where
  count_le : ∀ q, (queue q).uxMessagesWaiting ≤ (queue q).uxLength
  receive : ∀ q, S.eventList (.toReceive q) ≠ [] →
    (queue q).uxMessagesWaiting ≤ (S.woken (.toReceive q)).length
  send : ∀ q, S.eventList (.toSend q) ≠ [] →
    (queue q).uxLength - (queue q).uxMessagesWaiting ≤ (S.woken (.toSend q)).length

/-! ## The running task -/

namespace State

/-- Who runs, and how often it has suspended the scheduler. -/
def cpu (k : State α) : Nat × TaskId := (k.uxSchedulerSuspended, k.pxCurrentTCB)

variable (k : State α) (t : TaskId)

@[simp] theorem cpu_setEventList (list : EventList) (tasks : List TaskId) :
    (k.setEventList list tasks).cpu = k.cpu := by
  cases list <;> rfl

@[simp] theorem cpu_removeEventItem : (k.removeEventItem t).cpu = k.cpu := by
  unfold removeEventItem
  split
  · rfl
  · exact cpu_setEventList k _ _

@[simp] theorem cpu_wakeFirst (list : EventList) : (k.wakeFirst list).cpu = k.cpu := by
  unfold wakeFirst xTaskRemoveFromEventList
  split
  · rfl
  · split
    · rfl
    · dsimp only
      split <;> exact cpu_setEventList k _ _

@[simp] theorem cpu_unblockDelayed : (k.unblockDelayed t).cpu = k.cpu := by
  unfold unblockDelayed
  split
  · exact cpu_removeEventItem k t
  · rfl

@[simp] theorem cpu_xTaskIncrementTick : k.xTaskIncrementTick.cpu = k.cpu := by
  have hfold (tasks : List TaskId) (k : State α) :
      (tasks.foldl unblockDelayed k).cpu = k.cpu := by
    induction tasks generalizing k with
    | nil => rfl
    | cons t rest ih => rw [List.foldl_cons, ih, cpu_unblockDelayed]
  unfold xTaskIncrementTick
  split
  · dsimp only
    rw [hfold]
    split <;> rfl
  · rfl

@[simp] theorem cpu_xTaskPriorityInherit (holder : Option TaskId) :
    (k.xTaskPriorityInherit holder).cpu = k.cpu := by
  unfold xTaskPriorityInherit
  split
  · rfl
  · dsimp only
    split <;> rfl

@[simp] theorem cpu_vTaskPlaceOnEventList (list : EventList) (xTicksToWait : Nat) :
    (k.vTaskPlaceOnEventList list xTicksToWait).cpu = k.cpu :=
  cpu_setEventList k list _

theorem cpu_xTaskPriorityDisinherit {k' : State α} {holder : Option TaskId}
    (hdone : k.xTaskPriorityDisinherit holder = some k') : k'.cpu = k.cpu := by
  unfold xTaskPriorityDisinherit at hdone
  split at hdone
  · cases hdone
    rfl
  · split at hdone
    · dsimp only at hdone
      split at hdone <;> cases hdone <;> rfl
    · simp at hdone

theorem cpu_prvCopyDataToQueue {k' : State α} {q : QueueId} {item : Option α}
    (hcopy : k.prvCopyDataToQueue q item = some k') : k'.cpu = k.cpu := by
  unfold prvCopyDataToQueue at hcopy
  split at hcopy
  · split at hcopy
    · obtain ⟨k₁, hdone, rfl⟩ := Option.map_eq_some_iff.mp hcopy
      have hcpu := cpu_xTaskPriorityDisinherit k hdone
      exact hcpu
    · cases hcopy
      rfl
  · cases hcopy
    rfl

end State

/-- The invariant of the blocking functions. -/
structure WaitInv (k : State α) : Prop where
  lists : Lists k.sched k.view.frame k.view.nextTask
  window : Window k.view k.cpu.1 k.cpu.2
  balanced : Balanced k.view.queue k.sched

theorem WaitInv.halt {k : State α} (hinv : WaitInv k) (fault : Fault) : WaitInv (k.halt fault) :=
  ⟨hinv.lists, ⟨hinv.window.window, hinv.window.suspended, hinv.window.blocks, hinv.window.born,
    hinv.window.unborn, hinv.window.unspawned, hinv.window.current⟩, hinv.balanced⟩

/-- What the callers promise: no blocking function is entered while the
scheduler is suspended. -/
def Act.unsuspended (k : State α) : Act α → Prop
  | .call _ _ => k.uxSchedulerSuspended = 0
  | _ => True

/-! ## Ticks -/

/-- No task is created or ends: the others may become ready or blocked. -/
def Sched.Settles (S S' : Sched) : Prop :=
  ∀ t, S'.xStateList t = S.xStateList t ∨ (S.xStateList t).alive ∧ (S'.xStateList t).alive

namespace Sched.Settles

theorem refl (S : Sched) : S.Settles S := fun _ => .inl rfl

theorem trans {S S' S'' : Sched} (hfirst : S.Settles S') (hsecond : S'.Settles S'') :
    S.Settles S'' := by
  intro t
  rcases hfirst t, hsecond t with ⟨heq | ⟨halive, halive'⟩, heq' | ⟨hsecond', halive''⟩⟩
  · exact .inl (heq'.trans heq)
  · exact .inr ⟨heq ▸ hsecond', halive''⟩
  · exact .inr ⟨halive, heq' ▸ halive'⟩
  · exact .inr ⟨halive, halive''⟩

theorem setState {S : Sched} {t : TaskId} {state : StateList} (halive : (S.xStateList t).alive)
    (hstate : state.alive) {S' : Sched}
    (hS' : S'.xStateList = Function.update S.xStateList t state) : S.Settles S' := by
  intro u
  rw [hS']
  by_cases hu : u = t
  · subst hu
    simp [halive, hstate]
  · simp [hu]

theorem unlist {S : Sched} {t : TaskId} (hblocked : (S.xStateList t).blocked) :
    S.Settles (S.unlist t) :=
  setState (StateList.alive_of_blocked hblocked) rfl rfl

end Sched.Settles

/-- Tasks only leave their wait lists, and none is woken for a queue. -/
structure Sched.Shrinks (S S' : Sched) : Prop where
  nil : ∀ list, S.eventList list = [] → S'.eventList list = []
  woken : S'.woken = S.woken
  settles : S.Settles S'

theorem Sched.Shrinks.refl (S : Sched) : S.Shrinks S := ⟨fun _ h => h, rfl, .refl S⟩

theorem Sched.Shrinks.trans {S S' S'' : Sched} (hfirst : S.Shrinks S') (hsecond : S'.Shrinks S'') :
    S.Shrinks S'' :=
  ⟨fun list h => hsecond.nil list (hfirst.nil list h), hsecond.woken.trans hfirst.woken,
    hfirst.settles.trans hsecond.settles⟩

theorem Balanced.shrink {queue : QueueId → Contents α} {S S' : Sched}
    (hbal : Balanced queue S) (hle : S.Shrinks S') : Balanced queue S' where
  count_le := hbal.count_le
  receive := fun q hne => by
    rw [hle.woken]
    exact hbal.receive q fun hnil => hne (hle.nil _ hnil)
  send := fun q hne => by
    rw [hle.woken]
    exact hbal.send q fun hnil => hne (hle.nil _ hnil)

namespace State

variable {k : State α} {frame : TaskId → Option (Frame α)} {n : Nat}

theorem unblockDelayed_lists (hlists : Lists k.sched frame n) (t : TaskId) :
    Lists (k.unblockDelayed t).sched frame n ∧ k.sched.Shrinks (k.unblockDelayed t).sched := by
  unfold unblockDelayed
  split
  next hdue =>
    have hblocked : (k.sched.xStateList t).blocked := by
      simp only [isDue, Bool.decide_and, Bool.and_eq_true, decide_eq_true_eq] at hdue
      simp [sched, hdue.1, StateList.blocked]
    rw [sched_removeEventItem_ready hlists]
    exact ⟨hlists.unlist (hlists.lt_of_blocked hblocked), fun l h => by simp [Sched.unlist, h],
      rfl, .unlist hblocked⟩
  next => exact ⟨hlists, .refl _⟩

theorem taskSwitchDelayedLists_lists (hlists : Lists k.sched frame n) :
    Lists k.taskSwitchDelayedLists.sched frame n := by
  refine { hlists with waiting := ?_, unspawned := ?_ }
  · intro t list hlist
    obtain ⟨hblocked, hframe⟩ := hlists.waiting t list hlist
    refine ⟨?_, hframe⟩
    simp only [sched] at hblocked
    simp only [sched, taskSwitchDelayedLists]
    split <;> simp_all [StateList.blocked]
  · intro t ht
    have habsent := hlists.unspawned t ht
    simp only [sched] at habsent
    simp [sched, taskSwitchDelayedLists, habsent]

theorem xTaskIncrementTick_lists (hlists : Lists k.sched frame n) :
    Lists k.xTaskIncrementTick.sched frame n ∧ k.sched.Shrinks k.xTaskIncrementTick.sched := by
  have hfold (tasks : List TaskId) (k : State α) (hlists : Lists k.sched frame n) :
      Lists (tasks.foldl unblockDelayed k).sched frame n ∧
        k.sched.Shrinks (tasks.foldl unblockDelayed k).sched := by
    -- on the loop over the tasks; each of them leaves at most its own place
    induction tasks generalizing k with
    | nil => exact ⟨hlists, .refl _⟩
    | cons t rest ih =>
        obtain ⟨hstep, hle⟩ := unblockDelayed_lists hlists t
        obtain ⟨hrest, hle'⟩ := ih (k.unblockDelayed t) hstep
        exact ⟨hrest, hle.trans hle'⟩
  unfold xTaskIncrementTick
  split
  · dsimp only
    split
    · have hswitch := taskSwitchDelayedLists_lists
        (k := { k with xTickCount := (k.xTickCount + 1) % tickModulus }) hlists
      obtain ⟨hdone, hle⟩ := hfold _ _ hswitch
      refine ⟨hdone, fun l h => hle.nil l h, hle.woken, Sched.Settles.trans ?_ hle.settles⟩
      intro t
      simp only [sched, taskSwitchDelayedLists]
      split <;> simp_all [StateList.alive]
    · exact hfold _ _ hlists
  · exact ⟨hlists, .refl _⟩

theorem xTaskResumeAll_lists (hlists : Lists k.sched frame n) :
    Lists k.xTaskResumeAll.sched frame n ∧ k.sched.Shrinks k.xTaskResumeAll.sched ∧
      k.xTaskResumeAll.cpu = (k.uxSchedulerSuspended - 1, k.pxCurrentTCB) := by
  have hticks (m : Nat) (k : State α) (hlists : Lists k.sched frame n) :
      Lists (xTaskIncrementTick^[m] k).sched frame n ∧
        k.sched.Shrinks (xTaskIncrementTick^[m] k).sched ∧
        (xTaskIncrementTick^[m] k).cpu = k.cpu := by
    -- on the ticks that were pended
    induction m generalizing k with
    | zero => exact ⟨hlists, .refl _, rfl⟩
    | succ m ih =>
        obtain ⟨hstep, hle⟩ := xTaskIncrementTick_lists hlists
        obtain ⟨hrest, hle', hcpu⟩ := ih _ hstep
        rw [Function.iterate_succ_apply]
        exact ⟨hrest, hle.trans hle', hcpu.trans (cpu_xTaskIncrementTick k)⟩
  have hpending : k.xPendingReadyList.foldl readyPended
      { k with uxSchedulerSuspended := k.uxSchedulerSuspended - 1 } =
      { k with uxSchedulerSuspended := k.uxSchedulerSuspended - 1 } := by
    have hnil : k.xPendingReadyList = [] := hlists.noPending
    rw [hnil]
    rfl
  unfold xTaskResumeAll
  dsimp only
  split
  · rw [hpending]
    obtain ⟨hdone, hle, hcpu⟩ :=
      hticks k.xPendedTicks { k with uxSchedulerSuspended := k.uxSchedulerSuspended - 1 } hlists
    exact ⟨hdone, hle, hcpu⟩
  · exact ⟨hlists, .refl _, rfl⟩

end State

/-! ## One step of a blocking function -/

namespace Window

variable {v v' : View α} {suspended suspended' : Nat} {t : TaskId}

/-- A step of the running task `t`, which may change its own call, any queue and
whether the scheduler is suspended. -/
theorem step (hwindow : Window v suspended t) (f : Option (Frame α))
    (hframe : v'.frame = Function.update v.frame t f) (hqueue : v'.nextQueue = v.nextQueue)
    (htask : v'.nextTask = v.nextTask) (hlive : ∀ q, (v'.queue q).live → (v.queue q).live)
    (hsuspended : ∀ f', f = some f' → suspended' = if f'.pc.inWindow then 1 else 0)
    (hblocks : ∀ f', f = some f' → f'.pc.mustWait → f'.op.blocked (v'.queue f'.xQueue))
    (hborn : ∀ f', f = some f' → f'.pc ≠ .entry → f'.xQueue < v.nextQueue) :
    Window v' suspended' t := by
  -- Only the running task can be inside its window, so nothing is known to be lost.
  have hother : ∀ u f', u ≠ t → v.frame u = some f' → ¬ f'.pc.inWindow :=
    fun u f' hu hf' hin => hu (hwindow.window u f' hf' hin).2.symm
  have hmust : ∀ pc : Pc α, pc.mustWait → pc.inWindow := by
    intro pc hpc
    cases pc <;> simp_all [Pc.mustWait, Pc.inWindow]
  refine ⟨?_, ?_, ?_, ?_, ?_, ?_, htask ▸ hwindow.current⟩
  · intro u f' hf' hin
    by_cases hu : u = t
    · subst hu
      simp only [hframe, Function.update_self] at hf'
      simpa [hin] using hsuspended f' hf'
    · simp only [hframe, ne_eq, hu, not_false_eq_true, Function.update_of_ne] at hf'
      exact absurd hin (hother u f' hu hf')
  · intro hne f' hf'
    simp only [hframe, Function.update_self] at hf'
    have hs := hsuspended f' hf'
    by_contra hin
    simp [hin] at hs
    exact hne hs
  · intro u f' hf' hpc
    by_cases hu : u = t
    · subst hu
      simp only [hframe, Function.update_self] at hf'
      exact hblocks f' hf' hpc
    · simp only [hframe, ne_eq, hu, not_false_eq_true, Function.update_of_ne] at hf'
      exact absurd (hmust _ hpc) (hother u f' hu hf')
  · intro u f' hf' hpc
    rw [hqueue]
    by_cases hu : u = t
    · subst hu
      simp only [hframe, Function.update_self] at hf'
      exact hborn f' hf' hpc
    · simp only [hframe, ne_eq, hu, not_false_eq_true, Function.update_of_ne] at hf'
      exact hwindow.born u f' hf' hpc
  · intro q hq
    have hdead := hwindow.unborn q (hqueue ▸ hq)
    by_contra hl
    rw [Bool.not_eq_false] at hl
    simp [hlive q hl] at hdead
  · intro u hu
    have hne : u ≠ t := Nat.ne_of_gt (Nat.lt_of_lt_of_le hwindow.current (htask ▸ hu))
    simpa [hframe, hne] using hwindow.unspawned u (htask ▸ hu)

end Window

/-- The step changed nothing of the view but the call of `t`, its result and the
history. -/
structure View.Moved (v v' : View α) (t : TaskId) (f : Option (Frame α)) : Prop where
  frame : v'.frame = Function.update v.frame t f
  queue : v'.queue = v.queue
  nextQueue : v'.nextQueue = v.nextQueue
  nextTask : v'.nextTask = v.nextTask

theorem View.Moved.refl (v : View α) (t : TaskId) : v.Moved v t (v.frame t) :=
  ⟨(Function.update_eq_self t _).symm, rfl, rfl, rfl⟩

theorem View.Moved.setFrame (v : View α) (t : TaskId) (f : Option (Frame α)) :
    v.Moved (v.setFrame t f) t f := ⟨rfl, rfl, rfl, rfl⟩

theorem View.Moved.complete (v : View α) (t : TaskId) (frame : Frame α) (res : QueueResult α) :
    v.Moved (v.complete t frame res) t (some { frame with pc := .leave res }) :=
  ⟨rfl, rfl, rfl, rfl⟩

theorem View.Moved.leave (v : View α) (t : TaskId) (api : Api α) (res : QueueResult α)
    (ret : Ret α) : v.Moved (v.leave t api res ret) t none := by
  unfold View.leave
  cases api.locks <;> cases res <;> exact ⟨rfl, rfl, rfl, rfl⟩

/-- What is known when task `t` runs the code of `frame`. -/
structure Running (k : State α) (t : TaskId) (frame : Frame α) : Prop where
  inv : WaitInv k
  current : k.pxCurrentTCB = t
  frame : k.view.frame t = some frame
  ready : k.uxSchedulerSuspended = 0 → k.sched.xStateList t = .ready

namespace Running

variable {k : State α} {t : TaskId} {frame : Frame α}

theorem spawned (hrun : Running k t frame) : t < k.nextTask :=
  hrun.current ▸ hrun.inv.window.current

theorem suspended_eq (hrun : Running k t frame) :
    k.uxSchedulerSuspended = if frame.pc.inWindow then 1 else 0 := by
  split
  next hin => exact (hrun.inv.window.window t frame hrun.frame hin).1
  next hin =>
    by_contra hne
    have hframe : k.view.frame k.cpu.2 = some frame := by
      rw [← hrun.frame, ← hrun.current]
      rfl
    exact hin (hrun.inv.window.suspended hne frame hframe)

theorem not_listed (hrun : Running k t frame) (hpc : ¬ frame.pc.inWindow ∨ ¬ frame.pc.placed) :
    k.sched.xEventList t = none := by
  by_contra hne
  obtain ⟨list, hlist⟩ := Option.ne_none_iff_exists'.mp hne
  obtain ⟨hblocked, f, hf, -, hplaced⟩ := hrun.inv.lists.waiting t list hlist
  obtain rfl : f = frame := Option.some.inj (hf.symm.trans hrun.frame)
  rcases hpc with hin | hnot
  · have hs := hrun.suspended_eq
    rw [if_neg hin] at hs
    simp [hrun.ready hs, StateList.blocked] at hblocked
  · exact hnot hplaced

theorem not_woken (hrun : Running k t frame) (hpc : frame.pc ≠ .attempt) (list : EventList) :
    t ∉ k.sched.woken list := by
  intro hmem
  obtain ⟨-, f, hf, -, hattempt⟩ := hrun.inv.lists.awoken t list hmem
  obtain rfl : f = frame := Option.some.inj (hf.symm.trans hrun.frame)
  exact hpc hattempt

/-- The invariant after a step that leaves the queues alone. -/
theorem moved (hrun : Running k t frame) {k' : State α} {f : Option (Frame α)}
    (hview : k.view.Moved k'.view t f) (hlists : Lists k'.sched k'.view.frame k'.view.nextTask)
    (hshrinks : k.sched.Shrinks k'.sched) {suspended : Nat} (hcpu : k'.cpu = (suspended, t))
    (hsuspended : ∀ f', f = some f' → suspended = if f'.pc.inWindow then 1 else 0)
    (hblocks : ∀ f', f = some f' → f'.pc.mustWait → f'.op.blocked (k.view.queue f'.xQueue))
    (hborn : ∀ f', f = some f' → f'.pc ≠ .entry → f'.xQueue < k.nextQueue) : WaitInv k' where
  lists := hlists
  window := by
    have hwindow : Window k.view k.cpu.1 t := hrun.current ▸ hrun.inv.window
    rw [hcpu]
    exact hwindow.step f hview.frame hview.nextQueue hview.nextTask
      (fun q => by rw [hview.queue]; exact id) hsuspended
      (fun f' hf' hpc => by rw [hview.queue]; exact hblocks f' hf' hpc) hborn
  balanced := hview.queue ▸ hrun.inv.balanced.shrink hshrinks

/-- The invariant after a step outside of the critical section, in which tasks
at most leave their wait lists. -/
theorem goto (hrun : Running k t frame) (hpc : frame.pc ≠ .attempt) {k' : State α}
    {f : Option (Frame α)} (hview : k.view.Moved k'.view t f)
    (hlists : Lists k'.sched k.view.frame k.view.nextTask) (hshrinks : k.sched.Shrinks k'.sched)
    (hplaced : (∃ f', f = some f' ∧ f'.waitList = frame.waitList ∧ f'.pc.placed) ∨
      ¬ frame.pc.placed)
    {n : Nat} (hcpu : k'.cpu = (n, t))
    (hsuspended : ∀ f', f = some f' → n = if f'.pc.inWindow then 1 else 0)
    (hblocks : ∀ f', f = some f' → f'.pc.mustWait → f'.op.blocked (k.view.queue f'.xQueue))
    (hborn : ∀ f', f = some f' → f'.pc ≠ .entry → f'.xQueue < k.nextQueue) : WaitInv k' := by
  refine hrun.moved hview ?_ hshrinks hcpu hsuspended hblocks hborn
  rw [hview.frame, hview.nextTask]
  refine hlists.setFrame f ?_ ?_
  · intro list hlist
    obtain ⟨-, f', hf', rfl, hpl⟩ := hlists.waiting t list hlist
    obtain rfl : f' = frame := Option.some.inj (hf'.symm.trans hrun.frame)
    exact hplaced.resolve_right fun h => h hpl
  · intro list
    rw [hshrinks.woken]
    exact hrun.not_woken hpc list

/-- The running task moves to another program point, outside of its critical section. -/
theorem setPc (hrun : Running k t frame) (hpc : frame.pc ≠ .attempt) {k' : State α} {f : Frame α}
    (hview : k'.view = k.view.setFrame t (some f)) (hsched : k'.sched = k.sched)
    (hcpu : k'.cpu = (if f.pc.inWindow then 1 else 0, t))
    (hop : f.op = frame.op) (hqueue : f.xQueue = frame.xQueue)
    (hplaced : f.pc.placed ∨ ¬ frame.pc.placed)
    (hblocks : f.pc.mustWait → f.op.blocked (k.view.queue f.xQueue))
    (hborn : frame.pc = .entry → frame.xQueue < k.nextQueue) : WaitInv k' := by
  have hwait : f.waitList = frame.waitList := by simp [Frame.waitList, hop, hqueue]
  refine hrun.goto hpc (f := some f) (hview ▸ .setFrame _ _ _) (hsched ▸ hrun.inv.lists)
    (hsched ▸ .refl _) (hplaced.imp_left fun h => ⟨f, rfl, hwait, h⟩) hcpu
    (by rintro f' ⟨⟩; rfl) (by rintro f' ⟨⟩; exact hblocks) ?_
  rintro f' ⟨⟩ -
  rw [hqueue]
  by_cases hentry : frame.pc = .entry
  · exact hborn hentry
  · exact hrun.inv.window.born t frame hrun.frame hentry

end Running

end SimulatedLinux.Kernel
