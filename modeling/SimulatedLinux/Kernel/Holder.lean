import SimulatedLinux.Kernel.Cpu
import SimulatedLinux.Kernel.Mutex

/-! # Holders that are gone

`xMutexHolder` is read by every later lock of the mutex, which raises the priority of the
task it names. Nothing clears it when that task ends. Here it names a task that exists in
every run in which no task ends with a mutex.
-/

namespace SimulatedLinux.Kernel

variable {α : Type}

theorem Sched.Settles.alive {S S' : Sched} (hsettles : S.Settles S') {u : TaskId}
    (halive : (S.xStateList u).alive) : (S'.xStateList u).alive := by
  rcases hsettles u with heq | ⟨-, halive'⟩
  · rwa [heq]
  · exact halive'

namespace KernelInv

variable {k k' : State α} {act : Act α} {t u : TaskId}

theorem perform_alive (hinv : KernelInv k) (hactor : act.actor = some t)
    (hcurrent : k.pxCurrentTCB = t) (hframe : k.view.frame t = none)
    (hrunner : (k.sched.xStateList t).alive) (hstep : k.perform act = some k')
    (halive : (k.sched.xStateList u).alive) (hexit : act ≠ .exit u) :
    (k'.sched.xStateList u).alive := by
  have hwait := hinv.wait
  cases act with
  | tick => simp [State.perform] at hstep
  | run => simp [State.perform] at hstep
  | call w api =>
      cases hstep
      rw [State.sched_enter]
      exact halive
  | create w spec =>
      simp only [State.perform] at hstep
      split at hstep <;> cases hstep <;> exact halive
  | delete w q =>
      simp only [State.perform] at hstep
      split at hstep <;> cases hstep <;> exact halive
  | spawn w uxPriority =>
      simp only [State.perform] at hstep
      split at hstep <;> cases hstep
      · simp only [State.sched, State.prvAddNewTaskToReadyList, Function.update_apply]
        split
        · rfl
        · exact halive
      · exact halive
  | exit w =>
      cases hactor
      cases hstep
      have hne : u ≠ t := by
        rintro rfl
        exact hexit rfl
      unfold State.vTaskDelete
      split
      · rw [hwait.removeEventItem_eq hframe]
        simpa [State.sched, State.modTask, hne] using halive
      · exact halive
  | reap w =>
      cases hstep
      unfold State.prvCheckTasksWaitingTermination
      split
      · exact halive
      next dead rest hlist =>
        have hmem : dead ∈ k.view.xTasksWaitingTermination := by simp [State.view, hlist]
        have hne : u ≠ dead := by
          rintro rfl
          simp [(hinv.dying.listed u).mp hmem, StateList.alive] at halive
        simpa [State.sched, State.modTask, hne] using halive
  | delay w xTicksToDelay =>
      simp only [State.perform] at hstep
      split at hstep <;> cases hstep
      · exact (hwait.delay_settles hcurrent hframe hrunner xTicksToDelay).1.alive halive
      · exact halive
  | suspendAll w =>
      cases hstep
      exact halive
  | resumeAll w =>
      simp only [State.perform] at hstep
      split at hstep <;> cases hstep
      · exact halive
      · exact (State.xTaskResumeAll_lists hwait.lists).2.1.settles.alive halive

/-- A task lives on through every step but its own end. -/
theorem step_alive (hinv : KernelInv k) (hstep : k.step act = some k')
    (halive : (k.sched.xStateList u).alive) (hexit : act ≠ .exit u) :
    (k'.sched.xStateList u).alive := by
  unfold State.step at hstep
  split at hstep
  next =>
    split at hstep
    · cases hstep
      exact (State.xTaskIncrementTick_lists hinv.wait.lists).2.settles.alive halive
    · simp at hstep
  next t hactor =>
    split at hstep
    next hrun =>
      obtain ⟨-, hready, -⟩ := (k.canRun_iff t).mp hrun
      have hrunner := hinv.dying.alive_of_canRun hrun
      have hswitched := hinv.switchTo hrun
      split at hstep
      next frame w hframe =>
        cases hactor
        cases hstep
        have hrunning : Running (k.switchTo t) t frame := ⟨hswitched.wait, rfl, hframe, hready⟩
        exact (hrunning.settles hrunner).alive halive
      next => simp at hstep
      next hframe => exact hswitched.perform_alive hactor rfl hframe hrunner hstep halive hexit
    next => simp at hstep

end KernelInv

/-- A step inside a call makes nobody but its task the holder of a mutex. -/
theorem Ran.holder {v v' : View α} {t : TaskId} {frame : Frame α} (hran : Ran v t frame v')
    {q : QueueId} {u : TaskId} (hholder : (v'.queue q).xMutexHolder = some u) :
    (v.queue q).xMutexHolder = some u ∨ u = t := by
  by_cases hq : q = frame.xQueue
  · subst hq
    cases hran with
    | sent item =>
        simp only [View.complete, View.setFrame, View.setQueue, Function.update_self, Contents.sent]
          at hholder
        split at hholder
        · simp only at hholder
          split at hholder
          · simp at hholder
          · exact .inl hholder
        · exact .inl hholder
    | received =>
        simp only [View.complete, View.setFrame, View.setQueue, Function.update_self] at hholder
        exact .inl hholder
    | taken =>
        simp only [View.complete, View.setFrame, View.setQueue, Function.update_self,
          Contents.taken] at hholder
        split at hholder
        · exact .inr (Option.some.inj hholder).symm
        · exact .inl hholder
    | left res elapsed hpc =>
        refine .inl ?_
        revert hholder
        unfold View.leave
        cases frame.api.locks <;> cases res <;> exact id
    | _ => exact .inl hholder
  · rw [hran.queue_ne hq] at hholder
    exact .inl hholder

theorem NewQueue.build_holder {spec : NewQueue} {Q : Queue α} (hbuild : spec.build = some Q) :
    Q.xMutexHolder = none := by
  cases spec with
  | mutex => cases hbuild; rfl
  | counting value =>
      simp only [build, xQueueCreateCountingSemaphore] at hbuild
      split at hbuild <;> cases hbuild
      rfl
  | mailbox size =>
      simp only [build] at hbuild
      split at hbuild <;> cases hbuild
      rfl
  | binary => cases hbuild; rfl

/-- The mutex exists and is held by the task. -/
structure View.Holds (v : View α) (t : TaskId) (q : QueueId) : Prop where
  live : (v.queue q).live
  isMutex : (v.queue q).isMutex
  holder : (v.queue q).xMutexHolder = some t

/-- A task that holds a mutex after a step held it before, or has just run. -/
theorem Stepped.holds {v v' : View α} {act : Act α} (hstepped : Stepped v act v')
    {q : QueueId} {u : TaskId} (hholds : v'.Holds u q) : v.Holds u q ∨ act = .run u := by
  have hsame (hqueue : v'.queue q = v.queue q) : v.Holds u q ∨ act = .run u := by
    obtain ⟨hlive, hmutex, hholder⟩ := hholds
    rw [hqueue] at hlive hmutex hholder
    exact .inl ⟨hlive, hmutex, hholder⟩
  cases hstepped with
  | scheduled => exact hsame rfl
  | asserted => exact hsame rfl
  | freed => exact hsame rfl
  | ran hframe hran =>
      obtain ⟨hlive, hmutex, hholder⟩ := hholds
      have hq := hran.queue_same q
      rw [hq.live] at hlive
      rw [hq.isMutex] at hmutex
      rcases hran.holder hholder with hholder | rfl
      · exact .inl ⟨hlive, hmutex, hholder⟩
      · exact .inr rfl
  | called t api startTick hframe => exact hsame (congrFun (v.enter_queue t api startTick) q)
  | created t spec Q hbuild =>
      by_cases hq : q = v.nextQueue
      · have hholder := hholds.holder
        simp [hq, View.addQueue, Queue.contents, NewQueue.build_holder hbuild] at hholder
      · exact hsame (by simp [View.addQueue, hq])
  | deleted t p hlive =>
      by_cases hq : q = p
      · have hdead := hholds.live
        simp [hq, View.setQueue] at hdead
      · exact hsame (by simp [View.setQueue, hq])
  | spawned => exact hsame rfl
  | exited => exact hsame rfl
  | reaped =>
      refine hsame ?_
      unfold View.reap
      split <;> rfl

/-! ## Runs -/

/-- No task ends while it holds a mutex. -/
structure Act.EndsClean (k : State α) (act : Act α) : Prop where
  valid : act.valid k
  exit : ∀ t, act = .exit t → ∀ q, ¬ k.view.Holds t q

/-- The holder of every mutex that exists is a task that has not been freed. -/
def State.HoldersExist (k : State α) : Prop :=
  ∀ q t, (k.queue q).live → (k.queue q).isMutex → (k.queue q).xMutexHolder = some t →
    (k.task t).xStateList ≠ .absent

/-- In every run in which no task ends while it holds a mutex, no mutex refers to a task
that has been freed. -/
theorem mutex_holders_exist {k : State α} {uxMainPriority : Nat}
    (hreach : Lib.Reach State.step (fun k act => act.EndsClean k) (State.boot uxMainPriority) k) :
    k.HoldersExist := by
  -- a holder is neither freed nor waiting for it
  have hinv : Booted k ∧ ∀ q t, k.view.Holds t q → (k.sched.xStateList t).alive := by
    -- a holder is alive; a task that ends cleanly holds nothing at that moment
    refine hreach.invariant (fun k => Booted k ∧ ∀ q t, k.view.Holds t q →
        (k.sched.xStateList t).alive)
      ⟨⟨uxMainPriority, .refl⟩, fun q t hholds => ?_⟩ ?_
    · have hlive := hholds.live
      simp [State.view, State.boot, Queue.none, Queue.contents] at hlive
    · rintro k act k' ⟨hbooted, halive⟩ hclean hstep
      refine ⟨hbooted.step hclean.valid hstep, fun q t hholds => ?_⟩
      rcases (State.stepped_step hstep).holds hholds with hheld | rfl
      · refine hbooted.inv.step_alive hstep (halive q t hheld) ?_
        rintro rfl
        exact hclean.exit t rfl q hheld
      · have hrunner := hbooted.inv.dying.alive_of_canRun (State.step_canRun rfl hstep)
        exact hbooted.inv.step_alive hstep hrunner (by simp)
  intro q t hlive hmutex hholder habsent
  have halive : (k.task t).xStateList.alive := hinv.2 q t ⟨hlive, hmutex, hholder⟩
  simp [habsent, StateList.alive] at halive

/-- A second task locks a mutex, unlocks it, ends and is freed. -/
def cleanEnd : List (Act Unit) :=
  [.create 1 .mutex, .spawn 1 1, .call 2 (.pthreadMutexLock (some 0)), .run 2, .run 2, .run 2,
    .call 2 (.pthreadMutexUnlock (some 0)), .run 2, .run 2, .run 2, .exit 2, .reap 0,
    .call 1 (.pthreadMutexLock (some 0)), .run 1, .run 1, .run 1]

/-- The guard of `cleanEnd`: there is one mutex, which nobody holds when a task ends. -/
def cleanEndCheck (k : State Unit) (act : Act Unit) : Bool :=
  validCheck k act &&
    match act with
    | .exit _ => k.nextQueue = 1 && (k.queue 0).xMutexHolder = none
    | _ => true

theorem mutex_holders_exist_cleanEnd :
    ∃ k : State Unit, Lib.execute State.step cleanEndCheck (State.boot 1) cleanEnd = some k ∧
      ((k.queue 0).xMutexHolder, (k.task 2).xStateList) = (some 1, .absent) ∧ k.HoldersExist := by
  have hrun : (Lib.execute State.step cleanEndCheck (State.boot 1) cleanEnd).map
      (fun k => ((k.queue 0).xMutexHolder, (k.task 2).xStateList)) = some (some 1, .absent) := by
    decide +kernel
  obtain ⟨k, hk, hend⟩ := Option.map_eq_some_iff.mp hrun
  have hbooted {k : State Unit}
      (hreach : Lib.Reach State.step (fun k act => cleanEndCheck k act) (State.boot 1) k) :
      Booted k :=
    hreach.invariant Booted ⟨1, .refl⟩ fun _ _ _ hbooted hcheck hstep =>
      hbooted.step (validCheck_valid _ _ (Bool.and_elim_left hcheck)) hstep
  have hreach := Lib.execute_reach (fun _ _ hcheck => hcheck) cleanEnd hk
  refine ⟨k, hk, hend, mutex_holders_exist (hreach.weaken hbooted fun k act hbooted hcheck => ?_)⟩
  refine ⟨validCheck_valid k act (Bool.and_elim_left hcheck), ?_⟩
  rintro t rfl q hholds
  simp only [cleanEndCheck, validCheck, Bool.true_and, Bool.and_eq_true, decide_eq_true_eq]
    at hcheck
  cases q with
  | zero =>
      have hholder := hholds.holder
      simp [State.view, Queue.contents, hcheck.2] at hholder
  | succ q =>
      have hdead := hbooted.inv.wait.window.unborn (q + 1) (by simp [State.view, hcheck.1])
      exact Bool.false_ne_true (hdead.symm.trans hholds.live)

/-- A second task locks a mutex, ends without unlocking it and is freed. -/
def lockedEnd : List (Act Unit) :=
  [.create 1 .mutex, .spawn 1 1, .call 2 (.pthreadMutexLock (some 0)), .run 2, .run 2, .run 2,
    .exit 2, .reap 0]

/-- The mutex still names the task that is gone. -/
theorem mutex_holder_freed : ∃ k : State Unit,
    Lib.Reach State.step (fun k act => Act.valid k act) (State.boot 1) k ∧ ¬ k.HoldersExist := by
  have hrun : (Lib.execute State.step validCheck (State.boot 1) lockedEnd).map
      (fun k => ((k.queue 0).live, (k.queue 0).isMutex, (k.queue 0).xMutexHolder,
        (k.task 2).xStateList)) =
        some (true, true, some 2, .absent) := by
    decide +kernel
  obtain ⟨k, hk, hend⟩ := Option.map_eq_some_iff.mp hrun
  simp only [Prod.mk.injEq] at hend
  obtain ⟨hlive, hmutex, hholder, habsent⟩ := hend
  exact ⟨k, Lib.execute_reach validCheck_valid lockedEnd hk, fun hexist =>
      hexist 0 2 hlive hmutex hholder habsent⟩

end SimulatedLinux.Kernel
