import SimulatedLinux.Thread.Memory

/-! # What one step of the system touches

A step is made by one task, is about at most one thread, and leaves all other tasks
and threads as they are. The second half says where in its code the task goes.
-/

namespace SimulatedLinux.Thread

open Kernel Heap

variable {α : Type}

/-- The thread that a program point is about. -/
def Pc.about : Pc → Option ThreadId
  | create h _ | join h _ _ | detach h | wrapper h | wrapperArg h => some h
  | exit pc => pc.thread
  | _ => none

/-- The thread that a call is about. -/
def Call.about : Call α → Option ThreadId
  | .pthreadJoin thread _ | .pthreadDetach thread => thread
  | _ => none

/-- The moves inside `pthread_join`; `stored` is the value in the descriptor. -/
inductive JoinPc.Next (retval : Bool) (stored : Ptr) : JoinPc → JoinPc → Prop
  | sem : Next retval stored .sem .taken
  | taken : Next retval stored .taken .retval
  | retval : Next retval stored .retval (.removeThread (if retval then some stored else none))
  | removeThread (value : Option Ptr) : Next retval stored (.removeThread value) (.readSem value)
  | readSem (value : Option Ptr) (q : QueueId) :
      Next retval stored (.readSem value) (.deleteSem value q)
  | deleteSem (value : Option Ptr) (q : QueueId) :
    Next retval stored (.deleteSem value q) (.free value)

/-- The moves inside `pthread_exit`; `found` is what `find_thread` returns. -/
inductive ExitPc.Next (found : Except (Lib.WalkFault ThreadId) (Option ThreadId))
    (detached : ThreadId → Bool) : ExitPc → ExitPc → Prop
  | tracked (value : Ptr) (i : ThreadId) (hfound : found = .ok (some i)) :
      Next found detached (.findThread value) (.retval i value)
  | untracked (value : Ptr) (hfound : found = .ok none) :
      Next found detached (.findThread value) .taskDelete
  | retval (i : ThreadId) (value : Ptr) : Next found detached (.retval i value) (.detached i)
  | reclaims (i : ThreadId) (hdetached : detached i = true) :
      Next found detached (.detached i) (.removeThread i)
  | gives (i : ThreadId) (hdetached : detached i = false) :
    Next found detached (.detached i) (.sem i)
  | removeThread (i : ThreadId) : Next found detached (.removeThread i) (.readSem i)
  | readSem (i : ThreadId) (q : QueueId) : Next found detached (.readSem i) (.deleteSem i q)
  | deleteSem (i : ThreadId) (q : QueueId) : Next found detached (.deleteSem i q) (.free i)
  | free (i : ThreadId) : Next found detached (.free i) .taskDelete
  | sem (i : ThreadId) : Next found detached (.sem i) (.given i)
  | given (i : ThreadId) : Next found detached (.given i) .taskDelete

/-- The thread whose handle `pthread_create` is about to store. -/
def Pc.stores : Pc → Option ThreadId
  | create h .store => some h
  | _ => none

/-- The task is in `pthread_exit`, or past it. -/
def Pc.exits : Pc → Bool
  | exit _ | dead => true
  | _ => false

namespace Sys

variable {s s' s'' : Sys α} {t : TaskId} {h : Option ThreadId} {sizes : Sizes} {act : Act α}

/-- From `s` to `s'`, only task `t`, the new task, thread `h` and a new thread have changed,
apart from the links of the registry and the memory of dead tasks. -/
structure Touches (s s' : Sys α) (t : TaskId) (h : Option ThreadId) (fresh : Option TaskId) :
    Prop where
  pc : ∀ u, u ≠ t → fresh ≠ some u → s'.pc u = s.pc u ∧ (s'.info u).exited = (s.info u).exited
  info : ∀ u, fresh ≠ some u → (s'.info u).tcb = (s.info u).tcb ∧
    (s'.info u).pxStack = (s.info u).pxStack ∧ (s'.info u).param = (s.info u).param ∧
    ((s'.info u).tcbLive → (s.info u).tcbLive)
  desc : ∀ i, h ≠ some i → i ≠ s.nextThread → s'.desc i = { s.desc i with next := (s'.desc i).next }
  past : ∀ i, h ≠ some i → i ≠ s.nextThread → s'.past i = s.past i

/-- The last step of `xTaskCreate`. -/
inductive Spawns (s s' : Sys α) (t : TaskId) : Prop
  | native (uxPriority pxStack pxNewTCB : Nat)
    (hpc : s.pc t = .task (.start uxPriority pxStack pxNewTCB))
      (hinfo : t ≠ s.kern.nextTask → s'.info s.kern.nextTask = newInfo pxStack pxNewTCB none)
      (hpast : s'.past = s.past)
  | thread (i : ThreadId) (uxPriority pxStack pxNewTCB : Nat)
      (hpc : s.pc t = .create i (.task (.start uxPriority pxStack pxNewTCB)))
      (hinfo : t ≠ s.kern.nextTask → s'.info s.kern.nextTask = newInfo pxStack pxNewTCB (some i))
      (hpast : s'.past i = { s.past i with task := some s.kern.nextTask })

theorem Local.touches (hlocal : Local s s' t h) : Touches s s' t h none where
  pc := fun u hu _ => ⟨hlocal.pc_ne hu, by rw [hlocal.info u hu]⟩
  info := fun u _ => by
    by_cases hu : u = t
    · exact hu ▸ ⟨hlocal.tcb, hlocal.pxStack, hlocal.param, fun h => hlocal.tcbLive ▸ h⟩
    · rw [hlocal.info u hu]
      exact ⟨rfl, rfl, rfl, id⟩
  desc := fun i hi _ => hlocal.desc i hi
  past := fun i hi _ => hlocal.past i hi

/-- What one step of task `t` touches. -/
def Effect (s s' : Sys α) (t : TaskId) (h : Option ThreadId) : Prop :=
  ∃ fresh, Touches s s' t h fresh ∧ ∀ u, fresh = some u → u = s.kern.nextTask ∧ Spawns s s' t

theorem Local.effect (hlocal : Local s s' t h) : Effect s s' t h := ⟨none, hlocal.touches, by simp⟩

namespace Local

theorem refl (s : Sys α) (t : TaskId) : Local s s t h := .ofEq t rfl rfl rfl rfl

theorem kern (s : Sys α) (t : TaskId) (k : State α) : Local s { s with kern := k } t h :=
  .ofEq t rfl rfl rfl rfl

theorem heap (s : Sys α) (t : TaskId) (heap : Heap4) : Local s { s with heap := heap } t h :=
  .ofEq t rfl rfl rfl rfl

theorem halt (s : Sys α) (t : TaskId) (fault : Fault) : Local s (s.halt fault) t h :=
  .ofEq t rfl rfl rfl rfl

theorem ite {c : Prop} [Decidable c] (hthen : Local s s' t h) (helse : Local s s'' t h) :
    Local s (if c then s' else s'') t h := by
  split
  · exact hthen
  · exact helse

theorem touch {i : ThreadId} {next : Sys α} (hnext : Local s next t h) :
    Local s (s.touch i next) t h :=
  .ite hnext (.ofEq t rfl rfl rfl rfl)

theorem alloc {size : Nat} {next : Nat → Sys α → Sys α}
    (hnext : ∀ pv heap, Local { s with heap := heap } (next pv { s with heap := heap }) t h) :
    Local s (s.alloc size next) t h := by
  unfold Sys.alloc
  split
  · exact (Local.heap s t _).trans (hnext _ _)
  · exact .ofEq t rfl rfl rfl rfl

theorem release {pv : Nat} {next : Sys α → Sys α}
    (hnext : ∀ heap, Local { s with heap := heap } (next { s with heap := heap }) t h) :
    Local s (s.release pv next) t h := by
  unfold Sys.release
  split
  · exact (Local.heap s t _).trans (hnext _)
  · exact .ofEq t rfl rfl rfl rfl

theorem kernel {a : Kernel.Act α} {next : Sys α → Sys α}
    (hnext : ∀ k, Local { s with kern := k } (next { s with kern := k }) t h)
    (hstep : s.kernel a next = some s') : Local s s' t h := by
  obtain ⟨k, -, ⟨-, rfl⟩ | ⟨-, rfl⟩⟩ := kernel_cases hstep
  · exact (kern s t k).trans (hnext k)
  · exact kern s t k

theorem walkFault (s : Sys α) (t : TaskId) (fault : Lib.WalkFault ThreadId) :
    Local s (s.walkFault fault) t h := by
  cases fault <;> exact .ofEq t rfl rfl rfl rfl

theorem removeThread {i : ThreadId} {next : Sys α → Sys α}
    (hnext : ∀ head links, Local (s.setLinks head links) (next (s.setLinks head links)) t h) :
    Local s (s.removeThread i next) t h := by
  unfold Sys.removeThread
  split
  · exact (setLinks s t _ _).trans (hnext _ _)
  · exact walkFault s t _

theorem readSem {i : ThreadId} {next : QueueId → Option (Sys α)}
    (hnext : ∀ q s', next q = some s' → Local s s' t h) (hstep : s.readSem i next = some s') :
    Local s s' t h := by
  unfold Sys.readSem at hstep
  split at hstep
  · split at hstep
    · exact hnext _ _ hstep
    · cases hstep
      exact .ofEq t rfl rfl rfl rfl
  · cases hstep
    exact .ofEq t rfl rfl rfl rfl

theorem deleteSem {i : ThreadId} {q : QueueId} {pc : Pc} (hstep : s.deleteSem t i q pc = some s') :
    Local s s' t (some i) :=
  kernel (fun k => release fun heap => (modPast _ t i (by rfl)).trans (goto _ t pc)) hstep

theorem freeDesc {i : ThreadId} {next : Sys α → Sys α}
    (hnext : ∀ s : Sys α, Local s (next s) t (some i)) : Local s (s.freeDesc i next) t (some i) :=
  touch (release fun _ => ((modDesc _ t i _).trans (modPast _ t i (by rfl))).trans (hnext _))

end Local

/-- The step function, by what makes the step. -/
theorem step_cases (hstep : s.step sizes act = some s') :
    (∃ a k, s.kern.step a = some k ∧ s' = { s with kern := k } ∧
      (a = .tick ∧ act = .tick ∨ ∃ t f, a = .run t ∧ act = .run t ∧ s.frame t = some f)) ∨
    (∃ t c, act = .call t c ∧ s.kern.canRun t ∧ s.frame t = none ∧ s.pc t = .app ∧ t ≠ idleTask ∧
      (s.switchTo t).begin sizes t c = some s') ∨
    ∃ t, act = .run t ∧ s.kern.canRun t ∧ s.frame t = none ∧
      (s.switchTo t).advance sizes t (s.pc t) = some s' := by
  unfold Sys.step at hstep
  split at hstep
  next =>
    cases act with
    | tick =>
        obtain ⟨k, hk, ⟨-, rfl⟩ | ⟨-, rfl⟩⟩ := kernel_cases hstep <;>
          exact .inl ⟨_, k, hk, rfl, .inl ⟨rfl, rfl⟩⟩
    | call t c =>
        simp only at hstep
        split at hstep
        next hready =>
          obtain ⟨hrun, hframe, hpc, hidle⟩ := hready
          exact .inr (.inl ⟨t, c, rfl, hrun, Option.isNone_iff_eq_none.mp hframe, hpc, hidle,
              hstep⟩)
        next => simp at hstep
    | run t =>
        simp only at hstep
        split at hstep
        next hrun =>
          split at hstep
          next f hframe =>
            obtain ⟨k, hk, ⟨-, rfl⟩ | ⟨-, rfl⟩⟩ := kernel_cases hstep <;>
              exact .inl ⟨_, k, hk, rfl, .inr ⟨t, f, rfl, rfl, hframe⟩⟩
          next hframe => exact .inr (.inr ⟨t, rfl, hrun, hframe, hstep⟩)
        next => simp at hstep
  next => simp at hstep

/-- A call of the application is about the thread it names. -/
theorem begin_local {c : Call α} (hstep : s.begin sizes t c = some s') : Local s s' t c.about := by
  cases c with
  | pthreadCreate thread startRoutine arg =>
      simp only [begin] at hstep
      split at hstep <;> cases hstep
      · exact .returns s t _
      · exact .goto s t _
  | pthreadJoin thread retval =>
      cases thread with
      | none =>
          cases hstep
          exact .returns s t _
      | some i =>
          cases hstep
          exact (Local.modPast s t i (by rfl)).trans (.goto _ t _)
  | pthreadExit value =>
      cases hstep
      exact .modInfo s t _ _ _ rfl
  | pthreadDetach thread =>
      cases thread with
      | none =>
          cases hstep
          exact .returns s t _
      | some i =>
          cases hstep
          exact (Local.modPast s t i (by rfl)).trans (.goto _ t _)
  | pthreadSelf =>
      cases hstep
      exact .goto s t _
  | xTaskCreate uxPriority stackBytes =>
      cases hstep
      exact .goto s t _
  | vTaskDelete =>
      cases hstep
      exact .goto s t _
  | blocking api => exact .kernel (fun k => .refl _ t) hstep
  | newQueue spec =>
      simp only [begin] at hstep
      split at hstep
      · split at hstep
        · cases hstep
          exact .ofEq t rfl rfl rfl rfl
        · exact (Local.heap s t _).trans (.kernel (fun k => .ofEq t rfl rfl rfl rfl) hstep)
      · exact .kernel (fun k => .refl _ t) hstep
  | deleteQueue q =>
      simp only [begin] at hstep
      exact .kernel (fun k => .release fun heap => .refl _ t) hstep
  | vTaskDelay xTicksToDelay => exact .kernel (fun k => .refl _ t) hstep
  | pvPortMalloc xWantedSize =>
      cases hstep
      refine .alloc fun pv heap => ?_
      have hblocks : Local { s with heap := heap }
          { s with heap := heap, blocks := Function.update s.blocks pv true } t none :=
        .ofEq t rfl rfl rfl rfl
      exact hblocks.trans (.returns _ t _)
  | vPortFree pv =>
      cases hstep
      exact .release fun heap => .ofEq t rfl rfl rfl rfl

/-- A step of `pthread_join` is about the thread that is joined. -/
theorem join_local {i : ThreadId} {retval : Bool} {pc : JoinPc}
    (hstep : s.join t i retval pc = some s') :
    Local s s' t (some i) := by
  cases pc with
  | sem => exact .readSem (fun q s' => .kernel fun k => .goto _ t _) hstep
  | taken =>
      simp only [join] at hstep
      split at hstep <;> cases hstep
      · exact .goto s t _
      · exact (Local.modPast s t i (by rfl)).trans (.returns _ t _)
  | retval =>
      simp only [join] at hstep
      split at hstep <;> cases hstep
      · exact .touch (.goto s t _)
      · exact .goto s t _
  | removeThread value =>
      cases hstep
      exact .removeThread fun head links => .goto _ t _
  | readSem value =>
      refine .readSem (fun q s' hs' => ?_) hstep
      cases hs'
      exact .goto s t _
  | deleteSem value q => exact .deleteSem hstep
  | free value =>
      cases hstep
      exact .freeDesc fun s => (Local.modPast s t i (by rfl)).trans (.returns _ t _)

/-- A step of `pthread_exit` is about the thread that was found. -/
theorem exit_local {pc : ExitPc} (hstep : s.exit t pc = some s') : Local s s' t pc.thread := by
  cases pc with
  | findThread value =>
      simp only [exit] at hstep
      split at hstep <;> cases hstep
      · exact .goto s t _
      · exact .goto s t _
      · exact .walkFault s t _
  | retval i value =>
      cases hstep
      exact .touch ((Local.modDesc s t i _).trans (.goto _ t _))
  | detached i =>
      cases hstep
      exact .touch (.goto s t _)
  | removeThread i =>
      cases hstep
      exact .removeThread fun head links => .goto _ t _
  | readSem i =>
      refine .readSem (fun q s' hs' => ?_) hstep
      cases hs'
      exact .goto s t _
  | deleteSem i q => exact .deleteSem hstep
  | free i =>
      cases hstep
      exact .freeDesc fun s => (Local.modPast s t i (by rfl)).trans (.goto _ t _)
  | sem i => exact .readSem (fun q s' => .kernel fun k => .goto _ t _) hstep
  | given i =>
      cases hstep
      exact .goto s t _
  | taskDelete =>
      simp only [exit] at hstep
      exact .kernel (fun k => .goto _ t _) hstep

/-- A task that does not run stays where it is, or is new. -/
theorem Effect.pc_cases (heffect : Effect s s' t h) (hborn : t < s.kern.nextTask) {u : TaskId}
    (hu : u ≠ t) :
    s'.pc u = s.pc u ∨ u = s.kern.nextTask ∧ (s'.pc u = .app ∨ ∃ i, s'.pc u = .wrapper i) := by
  obtain ⟨fresh, htouches, hspawns⟩ := heffect
  by_cases hfresh : fresh = some u
  · obtain ⟨rfl, hspawns⟩ := hspawns u hfresh
    refine .inr ⟨rfl, ?_⟩
    cases hspawns with
    | native uxPriority pxStack pxNewTCB hpc hinfo _ =>
        exact .inl (by rw [Sys.pc, hinfo (Nat.ne_of_lt hborn)]; rfl)
    | thread i uxPriority pxStack pxNewTCB hpc hinfo _ =>
        exact .inr ⟨i, by rw [Sys.pc, hinfo (Nat.ne_of_lt hborn)]; rfl⟩
  · exact .inl (htouches.pc u hu hfresh).1

/-- The task of a thread was its task before, or is new. -/
theorem Effect.task_cases (heffect : Effect s s' t h) (hborn : t < s.kern.nextTask)
    (hroles : s.Roles) (hroles' : s'.Roles) {i : ThreadId} {u : TaskId}
    (htask : (s'.past i).task = some u) :
    (s.past i).task = some u ∨ u = s.kern.nextTask ∧ u ≠ t ∧ s'.pc u = .wrapper i := by
  obtain ⟨fresh, htouches, hspawns⟩ := heffect
  have hparam : (s'.info u).param = some i := (hroles'.tasks i u).mp htask
  by_cases hfresh : fresh = some u
  · obtain ⟨rfl, hspawns⟩ := hspawns u hfresh
    cases hspawns with
    | native uxPriority pxStack pxNewTCB hpc hinfo _ =>
        simp [hinfo (Nat.ne_of_lt hborn), newInfo] at hparam
    | thread j uxPriority pxStack pxNewTCB hpc hinfo _ =>
        rw [hinfo (Nat.ne_of_lt hborn)] at hparam
        obtain rfl : j = i := Option.some.inj hparam
        exact .inr ⟨rfl, Nat.ne_of_gt hborn, by rw [Sys.pc, hinfo (Nat.ne_of_lt hborn)]; rfl⟩
  · rw [(htouches.info u hfresh).2.2.1] at hparam
    exact .inl ((hroles.tasks i u).mpr hparam)

theorem Effect.ofSwitch (heffect : Effect (s.switchTo t) s' t h) : Effect s s' t h := by
  obtain ⟨fresh, htouches, hspawns⟩ := heffect
  refine ⟨fresh, ⟨htouches.pc, htouches.info, htouches.desc, htouches.past⟩, fun u hu => ?_⟩
  obtain ⟨hnext, hspawns⟩ := hspawns u hu
  refine ⟨hnext, ?_⟩
  cases hspawns with
  | native uxPriority pxStack pxNewTCB hpc hinfo hpast =>
      exact .native uxPriority pxStack pxNewTCB hpc hinfo hpast
  | thread i uxPriority pxStack pxNewTCB hpc hinfo hpast =>
      exact .thread i uxPriority pxStack pxNewTCB hpc hinfo hpast

/-- A step of `xTaskCreate` before the task exists. -/
theorem createTask_local {param : Option ThreadId} {at' : TaskPc → Pc} {done : Sys α → Sys α}
    {pc : TaskPc} (hpc : ∀ uxPriority pxStack pxNewTCB, pc ≠ .start uxPriority pxStack pxNewTCB)
    (hstep : s.createTask sizes t param at' done pc = some s') : Local s s' t h := by
  cases pc with
  | stack uxPriority stackBytes =>
      cases hstep
      exact .alloc fun pv heap => .goto _ t _
  | tcb uxPriority pxStack =>
      cases hstep
      exact .alloc fun pv heap => .goto _ t _
  | start uxPriority pxStack pxNewTCB => exact absurd rfl (hpc _ _ _)

/-- A step of `pthread_create` is about the thread that is created. -/
theorem create_effect {i : ThreadId} {pc : CreatePc} (hold : s.pc t = .create i pc)
    (hstep : s.create sizes t i pc = some s') :
    Effect s s' t (some i) := by
  cases pc with
  | startRoutine startRoutine arg =>
      cases hstep
      exact (Local.touch ((Local.modDesc s t i _).trans (.goto _ t _))).effect
  | arg arg =>
      cases hstep
      exact (Local.touch ((Local.modDesc s t i _).trans (.goto _ t _))).effect
  | retval =>
      cases hstep
      exact (Local.touch ((Local.modDesc s t i _).trans (.goto _ t _))).effect
  | detached =>
      cases hstep
      exact (Local.touch ((Local.modDesc s t i _).trans (.goto _ t _))).effect
  | semaphore =>
      simp only [create] at hstep
      split at hstep
      · cases hstep
        exact (Local.halt s t _).effect
      · refine ((Local.heap s t _).trans (.kernel (fun k => ?_) hstep)).effect
        refine Local.trans
          (?_ : Local _ { s with heap := _, kern := k, queueAddr := _, semOwner := _ } t _)
          (.goto _ t _)
        exact .ofEq t rfl rfl rfl rfl
  | joinSem q =>
      cases hstep
      exact (Local.touch ((Local.modDesc s t i _).trans (.goto _ t _))).effect
  | suspendAll =>
      simp only [create] at hstep
      exact (Local.kernel (fun k => .goto _ t _) hstep).effect
  | task pc =>
      by_cases hpc : ∀ uxPriority pxStack pxNewTCB, pc ≠ .start uxPriority pxStack pxNewTCB
      · simp only [create] at hstep
        exact (createTask_local hpc hstep).effect
      · simp only [not_forall, not_not] at hpc
        obtain ⟨uxPriority, pxStack, pxNewTCB, rfl⟩ := hpc
        simp only [create, createTask] at hstep
        obtain ⟨k, -, ⟨-, rfl⟩ | ⟨-, rfl⟩⟩ := kernel_cases hstep
        · refine ⟨some s.kern.nextTask, ⟨fun u hu hnew => ?_, fun u hnew => ?_, fun j hj _ => ?_,
            fun j hj _ => ?_⟩, fun u hu =>
              ⟨(Option.some.inj hu).symm, .thread i _ _ _ hold (fun ht => ?_) ?_⟩⟩
          · rw [ne_eq, Option.some.injEq] at hnew
            simp [Sys.pc, goto, modInfo, modPast, modDesc, hu, Ne.symm hnew]
          · rw [ne_eq, Option.some.injEq] at hnew
            by_cases hu : u = t
            · subst hu
              simp [goto, modInfo, modPast, modDesc, Ne.symm hnew]
            · simp [goto, modInfo, modPast, modDesc, hu, Ne.symm hnew]
          · have hne : j ≠ i := fun heq => hj (congrArg some heq.symm)
            simp [goto, modInfo, modPast, modDesc, hne]
          · have hne : j ≠ i := fun heq => hj (congrArg some heq.symm)
            simp [goto, modInfo, modPast, modDesc, hne]
          · simp [goto, modInfo, modPast, modDesc, Ne.symm ht]
          · simp [goto, modInfo, modPast, modDesc]
        · exact (Local.kern s t k).effect
  | addThread =>
      cases hstep
      refine (Local.touch (Local.trans ?_ (.goto _ t _))).effect
      refine Local.trans ?_ (.modPast _ t i (by rfl))
      exact (Local.modDesc s t i fun D => { D with next := s.gThreadList }).trans
        (.ofEq t rfl rfl rfl rfl)
  | store =>
      cases hstep
      exact ((Local.modPast s t i (by rfl)).trans (.goto _ t _)).effect
  | resumeAll =>
      simp only [create] at hstep
      exact (Local.kernel (fun k => .returns _ t _) hstep).effect

/-- The idle task frees memory of a dead task. -/
theorem Effect.reaps {pv : Nat} {u : TaskId} {f : Info → Info} {pc : Pc}
    (hpc : ∀ I, (f I).pc = I.pc ∧ (f I).exited = I.exited)
    (hinfo : ∀ I, (f I).tcb = I.tcb ∧ (f I).pxStack = I.pxStack ∧ (f I).param = I.param)
    (hlive : ∀ I, (f I).tcbLive → I.tcbLive) :
    Effect s (s.release pv fun s => (s.modInfo u f).goto t pc) t h := by
  unfold Sys.release
  split
  · refine ⟨none, ⟨fun w hw _ => ?_, fun w _ => ?_, fun _ _ _ => rfl, fun _ _ _ => rfl⟩, by simp⟩
    · by_cases hwu : w = u
      · subst hwu
        simp [Sys.pc, goto, modInfo, hw, hpc]
      · simp [Sys.pc, goto, modInfo, hw, hwu]
    · have hkept := hlive (s.info w)
      by_cases hw : w = t <;> by_cases hwu : w = u
      · subst hw hwu
        simpa [goto, modInfo, hinfo] using hkept
      · subst hw
        simp [goto, modInfo, hwu]
      · subst hwu
        simpa [goto, modInfo, hw, hinfo] using hkept
      · simp [goto, modInfo, hw, hwu]
  · exact (Local.halt s t _).effect

/-- A step of the shim's own code. -/
theorem advance_effect (hstep : s.advance sizes t (s.pc t) = some s') :
    Effect s s' t (s.pc t).about := by
  cases hpc : s.pc t with
  | app =>
      rw [hpc] at hstep
      simp only [advance] at hstep
      split at hstep
      · split at hstep
        · simp at hstep
        · exact (Local.kernel (fun k => .goto _ t _) hstep).effect
      · simp at hstep
  | createMalloc startRoutine arg =>
      rw [hpc] at hstep
      simp only [advance, Option.some.injEq] at hstep
      rcases alloc_cases s sizes.posixThread fun pv s' => (s'.newDesc pv t).goto t
        (.create s'.nextThread (.startRoutine startRoutine arg)) with ⟨pv, heap, -, hnext⟩ | hfailed
      · rw [← hstep, hnext]
        refine ⟨none, ⟨fun u hu _ => ?_, fun u _ => ?_, fun j _ hj => ?_, fun j _ hj => ?_⟩, by
            simp⟩
        · simp [Sys.pc, goto, modInfo, newDesc, hu]
        · by_cases hu : u = t
          · subst hu
            simp [goto, modInfo, newDesc]
          · simp [goto, modInfo, newDesc, hu]
        · simp [goto, modInfo, newDesc, hj]
        · simp [goto, modInfo, newDesc, hj]
      · rw [← hstep, hfailed]
        exact (Local.halt s t _).effect
  | create i pc => exact create_effect hpc (by rwa [hpc] at hstep)
  | join i retval pc => exact (join_local (by rwa [hpc] at hstep)).effect
  | exit pc => exact (exit_local (by rwa [hpc] at hstep)).effect
  | detach i =>
      rw [hpc] at hstep
      cases hstep
      exact (Local.touch (((Local.modDesc s t i _).trans (.modPast _ t i (by rfl))).trans
        (.returns _ t _))).effect
  | self =>
      rw [hpc] at hstep
      simp only [advance] at hstep
      split at hstep <;> cases hstep
      · exact (Local.returns s t _).effect
      · exact (Local.walkFault s t _).effect
  | task pc =>
      rw [hpc] at hstep
      simp only [advance] at hstep
      by_cases hstart : ∀ uxPriority pxStack pxNewTCB, pc ≠ .start uxPriority pxStack pxNewTCB
      · exact (createTask_local hstart hstep).effect
      · simp only [not_forall, not_not] at hstart
        obtain ⟨uxPriority, pxStack, pxNewTCB, rfl⟩ := hstart
        simp only [createTask] at hstep
        obtain ⟨k, -, ⟨-, rfl⟩ | ⟨-, rfl⟩⟩ := kernel_cases hstep
        · refine ⟨some s.kern.nextTask, ⟨fun u hu hnew => ?_, fun u hnew => ?_, fun _ _ _ => rfl,
            fun _ _ _ => rfl⟩, fun u hu =>
              ⟨(Option.some.inj hu).symm, .native _ _ _ hpc (fun ht => ?_) rfl⟩⟩
          · rw [ne_eq, Option.some.injEq] at hnew
            simp [Sys.pc, returns, modInfo, hu, Ne.symm hnew]
          · rw [ne_eq, Option.some.injEq] at hnew
            by_cases hu : u = t
            · subst hu
              simp [returns, modInfo, Ne.symm hnew]
            · simp [returns, modInfo, hu, Ne.symm hnew]
          · simp [returns, modInfo, Ne.symm ht]
        · exact (Local.kern s t k).effect
  | wrapper i =>
      rw [hpc] at hstep
      cases hstep
      exact (Local.touch (.goto s t _)).effect
  | wrapperArg i =>
      rw [hpc] at hstep
      cases hstep
      exact (Local.touch (.goto s t _)).effect
  | freeStack u =>
      rw [hpc] at hstep
      cases hstep
      exact .reaps (fun _ => ⟨rfl, rfl⟩) (fun _ => ⟨rfl, rfl, rfl⟩) (by simp)
  | freeTcb u =>
      rw [hpc] at hstep
      cases hstep
      exact .reaps (fun _ => ⟨rfl, rfl⟩) (fun _ => ⟨rfl, rfl, rfl⟩) (by simp)
  | dead =>
      rw [hpc] at hstep
      simp [advance] at hstep

/-! ## Control flow -/

section Eliminators

variable {motive : Sys α → Prop}

/-- An access to a descriptor goes on, or stops the system. -/
@[elab_as_elim]
theorem touch_elim {i : ThreadId} {next : Sys α} (hhalt : ∀ fault, motive (s.halt fault))
    (hnext : motive next) : motive (s.touch i next) := by
  unfold touch
  split
  · exact hnext
  · exact hhalt _

@[elab_as_elim]
theorem release_elim {pv : Nat} {next : Sys α → Sys α} (hhalt : ∀ fault, motive (s.halt fault))
    (hnext : ∀ heap, motive (next { s with heap := heap })) : motive (s.release pv next) := by
  unfold release
  split
  · exact hnext _
  · exact hhalt _

@[elab_as_elim]
theorem removeThread_elim {i : ThreadId} {next : Sys α → Sys α}
    (hhalt : ∀ fault, motive (s.halt fault))
    (hnext : ∀ head links, motive (next (s.setLinks head links))) :
    motive (s.removeThread i next) := by
  unfold removeThread
  split
  · exact hnext _ _
  · unfold walkFault
    split <;> exact hhalt _

theorem kernel_elim {a : Kernel.Act α} {next : Sys α → Sys α}
    (hhalt : ∀ k, motive { s with kern := k }) (hnext : ∀ k, motive (next { s with kern := k }))
    (hstep : s.kernel a next = some s') : motive s' := by
  obtain ⟨k, -, ⟨-, rfl⟩ | ⟨-, rfl⟩⟩ := kernel_cases hstep
  · exact hnext k
  · exact hhalt k

theorem readSem_elim {i : ThreadId} {next : QueueId → Option (Sys α)}
    (hhalt : ∀ fault, motive (s.halt fault)) (hnext : ∀ q s', next q = some s' → motive s')
    (hstep : s.readSem i next = some s') : motive s' := by
  unfold readSem at hstep
  split at hstep
  · split at hstep
    · exact hnext _ _ hstep
    · cases hstep
      exact hhalt _
  · cases hstep
    exact hhalt _

end Eliminators

/-- The history of every thread is the same, apart from the counts. -/
structure SamePast (s s' : Sys α) : Prop where
  creator : ∀ i, (s'.past i).creator = (s.past i).creator
  task : ∀ i, (s'.past i).task = (s.past i).task
  handle : ∀ i, (s'.past i).handle = (s.past i).handle
  use : ∀ i, (s'.past i).use = (s.past i).use
  selfFreed : ∀ i, (s'.past i).selfFreed = (s.past i).selfFreed

theorem SamePast.ofEq (hpast : s'.past = s.past) : SamePast s s' := by
  constructor <;> simp [hpast]

theorem SamePast.semFrees {i : ThreadId}
    (hpast : s'.past = (s.modPast i fun P => { P with semFrees := P.semFrees + 1 }).past) :
    SamePast s s' := by
  constructor <;> intro j <;> rw [hpast] <;> by_cases hj : j = i <;> simp [Sys.modPast, hj]

/-- Where a step of `pthread_join` leads. -/
inductive JoinMoves (s s' : Sys α) (t : TaskId) (i : ThreadId) (retval : Bool) (pc : JoinPc) : Prop
  | stays (hpc : s'.pc t = s.pc t) (hpast : SamePast s s')
  | next (pc' : JoinPc) (hnext : pc.Next retval (s.desc i).retval pc')
      (hpc : s'.pc t = .join i retval pc') (hpast : SamePast s s')
  | failed (hold : pc = .taken) (hpc : s'.pc t = .app) (hret : (s'.info t).ret = some (.int (-1)))
      (huse : (s'.past i).use = .failed) (hself : (s'.past i).selfFreed = (s.past i).selfFreed)
      (hpast : ∀ j, j ≠ i → s'.past j = s.past j)
  | returns (value : Option Ptr) (hold : pc = .free value) (hpc : s'.pc t = .app)
      (hret : (s'.info t).ret = some (.int 0)) (huse : (s'.past i).use = .joined value)
      (hself : (s'.past i).selfFreed = (s.past i).selfFreed)
      (hpast : ∀ j, j ≠ i → s'.past j = s.past j)

theorem join_moves {i : ThreadId} {retval : Bool} {pc : JoinPc}
    (hstep : s.join t i retval pc = some s') :
    JoinMoves s s' t i retval pc := by
  cases pc with
  | sem =>
      refine readSem_elim (motive := fun s' => JoinMoves s s' t i retval .sem)
        (fun _ => .stays rfl (.ofEq rfl)) (fun q s' hs' => ?_) hstep
      refine kernel_elim (motive := fun s' => JoinMoves s s' t i retval .sem)
        (fun _ => .stays rfl (.ofEq rfl)) (fun k => ?_) hs'
      exact .next _ .sem (by simp [Sys.pc, goto, modInfo]) (.ofEq rfl)
  | taken =>
      simp only [join] at hstep
      split at hstep <;> cases hstep
      · exact .next _ .taken (by simp [Sys.pc, goto, modInfo]) (.ofEq rfl)
      · exact .failed rfl (by simp [Sys.pc, returns, modInfo]) (by simp [returns, modInfo])
          (by simp [returns, modInfo, modPast]) (by simp [returns, modInfo, modPast])
          fun j hj => by simp [returns, modInfo, modPast, hj]
  | retval =>
      simp only [join] at hstep
      split at hstep <;> cases hstep
      next hretval =>
        refine touch_elim (fun _ => .stays rfl (.ofEq rfl)) (.next _ .retval ?_ (.ofEq rfl))
        simp [Sys.pc, goto, modInfo, hretval]
      next hretval => exact .next _ .retval (by simp [Sys.pc, goto, modInfo, hretval]) (.ofEq rfl)
  | removeThread value =>
      cases hstep
      refine removeThread_elim (fun _ => .stays rfl (.ofEq rfl)) fun head links => ?_
      exact .next _ (.removeThread value) (by simp [Sys.pc, goto, modInfo]) (.ofEq rfl)
  | readSem value =>
      refine readSem_elim (motive := fun s' => JoinMoves s s' t i retval (.readSem value))
        (fun _ => .stays rfl (.ofEq rfl)) (fun q s' hs' => ?_) hstep
      cases hs'
      exact .next _ (.readSem value q) (by simp [Sys.pc, goto, modInfo]) (.ofEq rfl)
  | deleteSem value q =>
      simp only [join, deleteSem] at hstep
      refine kernel_elim (motive := fun s' => JoinMoves s s' t i retval (.deleteSem value q))
        (fun _ => .stays rfl (.ofEq rfl)) (fun k => ?_) hstep
      refine release_elim (fun _ => .stays rfl (.ofEq rfl)) fun heap => ?_
      exact .next _ (.deleteSem value q) (by simp [Sys.pc, goto, modInfo])
        (.semFrees rfl)
  | free value =>
      cases hstep
      unfold freeDesc
      refine touch_elim (fun _ => .stays rfl (.ofEq rfl)) ?_
      refine release_elim (fun _ => .stays rfl (.ofEq rfl)) fun heap => ?_
      exact .returns value rfl (by simp [Sys.pc, Sys.returns, modInfo])
        (by simp [Sys.returns, modInfo]) (by simp [Sys.returns, modInfo, modPast])
        (by simp [Sys.returns, modInfo, modPast, modDesc]) fun j hj => by
          simp [Sys.returns, modInfo, modPast, modDesc, hj]

/-- Where a step of `pthread_exit` leads. -/
inductive ExitMoves (s s' : Sys α) (t : TaskId) (pc : ExitPc) : Prop
  | stays (hpc : s'.pc t = s.pc t) (hpast : SamePast s s')
  | next (pc' : ExitPc)
      (hnext : pc.Next (s.findThread (s.info t).tcb) (fun i => (s.desc i).detached) pc')
      (hpc : s'.pc t = .exit pc') (hpast : (∀ i, pc ≠ .free i) → SamePast s s')
      (hfree : ∀ i, pc = .free i → (s'.past i).selfFreed ∧ (s'.past i).use = (s.past i).use ∧
        ∀ j, j ≠ i → s'.past j = s.past j)
  | deletes (hold : pc = .taskDelete) (hpc : s'.pc t = .dead) (hpast : SamePast s s')

theorem exit_moves {pc : ExitPc} (hstep : s.exit t pc = some s') : ExitMoves s s' t pc := by
  cases pc with
  | findThread value =>
      simp only [exit] at hstep
      split at hstep <;> cases hstep
      next i hfound =>
        exact .next _ (.tracked value i hfound) (by simp [Sys.pc, goto, modInfo])
          (fun _ => .ofEq rfl) (by simp)
      next hfound =>
        exact .next _ (.untracked value hfound) (by simp [Sys.pc, goto, modInfo])
          (fun _ => .ofEq rfl) (by simp)
      next fault hfound => cases fault <;> exact .stays rfl (.ofEq rfl)
  | retval i value =>
      cases hstep
      refine touch_elim (fun _ => .stays rfl (.ofEq rfl)) ?_
      exact .next _ (.retval i value) (by simp [Sys.pc, goto, modInfo])
        (fun _ => .ofEq rfl) (by simp)
  | detached i =>
      cases hstep
      refine touch_elim (fun _ => .stays rfl (.ofEq rfl)) ?_
      cases hdetached : (s.desc i).detached with
      | true =>
          exact .next _ (.reclaims i hdetached) (by simp [Sys.pc, goto, modInfo])
            (fun _ => .ofEq rfl) (by simp)
      | false =>
          exact .next _ (.gives i hdetached) (by simp [Sys.pc, goto, modInfo])
            (fun _ => .ofEq rfl) (by simp)
  | removeThread i =>
      cases hstep
      refine removeThread_elim (fun _ => .stays rfl (.ofEq rfl)) fun head links => ?_
      exact .next _ (.removeThread i) (by simp [Sys.pc, goto, modInfo])
        (fun _ => .ofEq rfl) (by simp)
  | readSem i =>
      refine readSem_elim (motive := fun s' => ExitMoves s s' t (.readSem i))
        (fun _ => .stays rfl (.ofEq rfl)) (fun q s' hs' => ?_) hstep
      cases hs'
      exact .next _ (.readSem i q) (by simp [Sys.pc, goto, modInfo]) (fun _ => .ofEq rfl) (by simp)
  | deleteSem i q =>
      simp only [exit, deleteSem] at hstep
      refine kernel_elim (motive := fun s' => ExitMoves s s' t (.deleteSem i q))
        (fun _ => .stays rfl (.ofEq rfl)) (fun k => ?_) hstep
      refine release_elim (fun _ => .stays rfl (.ofEq rfl)) fun heap => ?_
      exact .next _ (.deleteSem i q) (by simp [Sys.pc, goto, modInfo])
        (fun _ => .semFrees rfl) (by simp)
  | free i =>
      cases hstep
      unfold freeDesc
      refine touch_elim (fun _ => .stays rfl (.ofEq rfl)) ?_
      refine release_elim (fun _ => .stays rfl (.ofEq rfl)) fun heap => ?_
      refine .next _ (.free i) (by simp [Sys.pc, goto, modInfo]) (fun hne => absurd rfl (hne i)) ?_
      rintro j hj
      cases hj
      refine ⟨?_, ?_, fun k hk => ?_⟩
      · simp [goto, modInfo, modPast, modDesc]
      · simp [goto, modInfo, modPast, modDesc]
      · simp [goto, modInfo, modPast, modDesc, hk]
  | sem i =>
      refine readSem_elim (motive := fun s' => ExitMoves s s' t (.sem i))
        (fun _ => .stays rfl (.ofEq rfl)) (fun q s' hs' => ?_) hstep
      refine kernel_elim (motive := fun s' => ExitMoves s s' t (.sem i))
        (fun _ => .stays rfl (.ofEq rfl)) (fun k => ?_) hs'
      exact .next _ (.sem i) (by simp [Sys.pc, goto, modInfo]) (fun _ => .ofEq rfl) (by simp)
  | given i =>
      cases hstep
      exact .next _ (.given i) (by simp [Sys.pc, goto, modInfo]) (fun _ => .ofEq rfl) (by simp)
  | taskDelete =>
      simp only [exit] at hstep
      refine kernel_elim (motive := fun s' => ExitMoves s s' t .taskDelete)
        (fun _ => .stays rfl (.ofEq rfl)) (fun k => ?_) hstep
      exact .deletes rfl (by simp [Sys.pc, goto, modInfo]) (.ofEq rfl)

/-- Where a step of the other functions leads. -/
structure OtherMoves (s s' : Sys α) (t : TaskId) : Prop where
  pc : (s'.pc t).joins = none ∧ (s'.pc t).exits = false
  stores : ∀ i, (s'.pc t).stores = some i → s.pc t = .create i .addThread
  past : ∀ i, (s'.past i).selfFreed = (s.past i).selfFreed ∧ ((s'.past i).use = (s.past i).use ∨
      s.pc t = .detach i ∧ (s'.past i).use = .detached) ∨
    i = s.nextThread ∧ (s'.past i).use = .unused

namespace OtherMoves

theorem plain (hpc : (s'.pc t).joins = none ∧ (s'.pc t).exits = false ∧ (s'.pc t).stores = none)
    (hpast : ∀ i, (s'.past i).selfFreed = (s.past i).selfFreed ∧ (s'.past i).use = (s.past i).use) :
    OtherMoves s s' t :=
  ⟨⟨hpc.1, hpc.2.1⟩, by simp [hpc.2.2], fun i => .inl ⟨(hpast i).1, .inl (hpast i).2⟩⟩

theorem stays (hpc : (s.pc t).joins = none ∧ (s.pc t).exits = false ∧ (s.pc t).stores = none)
    (hinfo : s'.info = s.info) (hpast : s'.past = s.past) : OtherMoves s s' t := by
  refine plain ?_ fun i => by simp [hpast]
  rwa [Sys.pc, hinfo]

end OtherMoves

/-- A step of `xTaskCreate`, with what its caller does after it. -/
theorem createTask_moves {param : Option ThreadId} {at' : TaskPc → Pc} {done : Sys α → Sys α}
    {pc : TaskPc} (hold : s.pc t = at' pc)
    (hat : ∀ pc, (at' pc).joins = none ∧ (at' pc).exits = false ∧ (at' pc).stores = none)
    (hdone : ∀ s : Sys α, (((done s).pc t).joins = none ∧ ((done s).pc t).exits = false ∧
        ((done s).pc t).stores = none) ∧
      ∀ i, ((done s).past i).selfFreed = (s.past i).selfFreed ∧
      ((done s).past i).use = (s.past i).use)
    (hstep : s.createTask sizes t param at' done pc = some s') : OtherMoves s s' t := by
  cases pc with
  | stack uxPriority stackBytes =>
      simp only [createTask, Option.some.injEq] at hstep
      rcases alloc_cases s stackBytes fun pv s => s.goto t (at' (.tcb uxPriority pv)) with
        ⟨pv, heap, -, hnext⟩ | hfailed
      · rw [← hstep, hnext]
        exact .plain (by simpa [Sys.pc, goto, modInfo] using hat _) fun _ => ⟨rfl, rfl⟩
      · rw [← hstep, hfailed]
        exact .stays (hold ▸ hat _) rfl rfl
  | tcb uxPriority pxStack =>
      simp only [createTask, Option.some.injEq] at hstep
      rcases alloc_cases s sizes.tcb fun pv s => s.goto t (at' (.start uxPriority pxStack pv)) with
        ⟨pv, heap, -, hnext⟩ | hfailed
      · rw [← hstep, hnext]
        exact .plain (by simpa [Sys.pc, goto, modInfo] using hat _) fun _ => ⟨rfl, rfl⟩
      · rw [← hstep, hfailed]
        exact .stays (hold ▸ hat _) rfl rfl
  | start uxPriority pxStack pxNewTCB =>
      simp only [createTask] at hstep
      refine kernel_elim (motive := fun s' => OtherMoves s s' t)
        (fun _ => .stays (hold ▸ hat _) rfl rfl) (fun k => ?_) hstep
      obtain ⟨hpc, hpast⟩ := hdone
        { s with
          kern := k
          info := Function.update s.info s.kern.nextTask (newInfo pxStack pxNewTCB param) }
      exact .plain hpc hpast

/-- A step of `pthread_create`. -/
theorem create_moves {i : ThreadId} {pc : CreatePc} (hold : s.pc t = .create i pc)
    (hstep : s.create sizes t i pc = some s') : OtherMoves s s' t := by
  have hother : pc ≠ .store → (s.pc t).joins = none ∧ (s.pc t).exits = false ∧
      (s.pc t).stores = none := by
    intro hne
    cases pc <;> simp_all [Pc.joins, Pc.exits, Pc.stores]
  cases pc with
  | startRoutine startRoutine arg =>
      cases hstep
      refine touch_elim (fun _ => .stays (hother (by simp)) rfl rfl) (.plain ?_ fun _ => ⟨rfl, rfl⟩)
      simp [Sys.pc, goto, modInfo, Pc.joins, Pc.exits, Pc.stores]
  | arg arg =>
      cases hstep
      refine touch_elim (fun _ => .stays (hother (by simp)) rfl rfl) (.plain ?_ fun _ => ⟨rfl, rfl⟩)
      simp [Sys.pc, goto, modInfo, Pc.joins, Pc.exits, Pc.stores]
  | retval =>
      cases hstep
      refine touch_elim (fun _ => .stays (hother (by simp)) rfl rfl) (.plain ?_ fun _ => ⟨rfl, rfl⟩)
      simp [Sys.pc, goto, modInfo, Pc.joins, Pc.exits, Pc.stores]
  | detached =>
      cases hstep
      refine touch_elim (fun _ => .stays (hother (by simp)) rfl rfl) (.plain ?_ fun _ => ⟨rfl, rfl⟩)
      simp [Sys.pc, goto, modInfo, Pc.joins, Pc.exits, Pc.stores]
  | semaphore =>
      simp only [create] at hstep
      split at hstep
      · cases hstep
        exact .stays (hother (by simp)) rfl rfl
      · refine kernel_elim (motive := fun s' => OtherMoves s s' t) ?_ (fun k => .plain ?_ ?_) hstep
        · exact fun _ => .stays (hother (by simp)) rfl rfl
        · simp [Sys.pc, goto, modInfo, Pc.joins, Pc.exits, Pc.stores]
        · exact fun _ => ⟨rfl, rfl⟩
  | joinSem q =>
      cases hstep
      refine touch_elim (fun _ => .stays (hother (by simp)) rfl rfl) (.plain ?_ fun _ => ⟨rfl, rfl⟩)
      simp [Sys.pc, goto, modInfo, Pc.joins, Pc.exits, Pc.stores]
  | suspendAll =>
      simp only [create] at hstep
      refine kernel_elim (motive := fun s' => OtherMoves s s' t)
        (fun _ => .stays (hother (by simp)) rfl rfl) (fun k => .plain ?_ fun _ => ⟨rfl, rfl⟩) hstep
      simp [Sys.pc, goto, modInfo, Pc.joins, Pc.exits, Pc.stores]
  | task pc =>
      simp only [create] at hstep
      refine createTask_moves hold (by simp [Pc.joins, Pc.exits, Pc.stores])
        (fun s' => ⟨?_, fun j => ?_⟩) hstep
      · simp [Sys.pc, goto, modInfo, Pc.joins, Pc.exits, Pc.stores]
      · by_cases hj : j = i <;> simp [goto, modInfo, modPast, modDesc, hj]
  | addThread =>
      cases hstep
      refine touch_elim (fun _ => .stays (hother (by simp)) rfl rfl) ⟨?_, fun j hj => ?_, fun j =>
          .inl ⟨?_, .inl ?_⟩⟩
      · simp [Sys.pc, goto, modInfo, Pc.joins, Pc.exits]
      · simp only [Sys.pc, goto, modInfo, Function.update_self, Pc.stores, Option.some.injEq] at hj
        exact hj ▸ hold
      · by_cases hj : j = i <;> simp [goto, modInfo, modPast, Sys.addThread, modDesc, hj]
      · by_cases hj : j = i <;> simp [goto, modInfo, modPast, Sys.addThread, modDesc, hj]
  | store =>
      cases hstep
      refine .plain ?_ fun j => ?_
      · simp [Sys.pc, goto, modInfo, Pc.joins, Pc.exits, Pc.stores]
      · by_cases hj : j = i <;> simp [goto, modInfo, modPast, hj]
  | resumeAll =>
      simp only [create] at hstep
      refine kernel_elim (motive := fun s' => OtherMoves s s' t)
        (fun _ => .stays (hother (by simp)) rfl rfl) (fun k => .plain ?_ fun _ => ⟨rfl, rfl⟩) hstep
      simp [Sys.pc, returns, modInfo, Pc.joins, Pc.exits, Pc.stores]

/-- A step of the other functions of the shim. -/
theorem other_moves (hjoins : (s.pc t).joins = none) (hexits : (s.pc t).exits = false)
    (hstep : s.advance sizes t (s.pc t) = some s') : OtherMoves s s' t := by
  have hother : (s.pc t).stores = none →
      (s.pc t).joins = none ∧ (s.pc t).exits = false ∧ (s.pc t).stores = none :=
    fun hstores => ⟨hjoins, hexits, hstores⟩
  cases hpc : s.pc t with
  | app =>
      rw [hpc] at hstep
      simp only [advance] at hstep
      split at hstep
      · split at hstep
        · simp at hstep
        · refine kernel_elim (motive := fun s' => OtherMoves s s' t)
            (fun _ => .stays (hother (by rw [hpc]; rfl)) rfl rfl) (fun k => .plain ?_ fun _ =>
              ⟨rfl, rfl⟩) hstep
          simp [Sys.pc, goto, modInfo, Pc.joins, Pc.exits, Pc.stores]
      · simp at hstep
  | createMalloc startRoutine arg =>
      rw [hpc] at hstep
      simp only [advance, Option.some.injEq] at hstep
      rcases alloc_cases s sizes.posixThread fun pv s' => (s'.newDesc pv t).goto t
        (.create s'.nextThread (.startRoutine startRoutine arg)) with ⟨pv, heap, -, hnext⟩ | hfailed
      · rw [← hstep, hnext]
        refine ⟨?_, ?_, fun j => ?_⟩
        · simp [Sys.pc, goto, modInfo, Pc.joins, Pc.exits]
        · simp [Sys.pc, goto, modInfo, Pc.stores]
        · by_cases hj : j = s.nextThread
          · exact .inr ⟨hj, by simp [goto, modInfo, newDesc, hj]⟩
          · exact .inl (by simp [goto, modInfo, newDesc, hj])
      · rw [← hstep, hfailed]
        exact .stays (hother (by rw [hpc]; rfl)) rfl rfl
  | create i pc => exact create_moves hpc (by rwa [hpc] at hstep)
  | join i retval pc => simp [hpc, Pc.joins] at hjoins
  | exit pc => simp [hpc, Pc.exits] at hexits
  | detach i =>
      rw [hpc] at hstep
      cases hstep
      refine touch_elim (fun _ => .stays (hother (by rw [hpc]; rfl)) rfl rfl)
        ⟨?_, ?_, fun j => .inl ⟨?_, ?_⟩⟩
      · simp [Sys.pc, returns, modInfo, Pc.joins, Pc.exits]
      · simp [Sys.pc, returns, modInfo, Pc.stores]
      · by_cases hj : j = i <;> simp [returns, modInfo, modPast, modDesc, hj]
      · by_cases hj : j = i
        · subst hj
          exact .inr ⟨hpc, by simp [returns, modInfo, modPast, modDesc]⟩
        · exact .inl (by simp [returns, modInfo, modPast, modDesc, hj])
  | self =>
      rw [hpc] at hstep
      simp only [advance] at hstep
      split at hstep <;> cases hstep
      · exact .plain (by simp [Sys.pc, returns, modInfo, Pc.joins, Pc.exits, Pc.stores]) fun _ =>
          ⟨rfl, rfl⟩
      next fault _ => cases fault <;> exact .stays (hother (by rw [hpc]; rfl)) rfl rfl
  | task pc =>
      rw [hpc] at hstep
      simp only [advance] at hstep
      refine createTask_moves hpc (by simp [Pc.joins, Pc.exits, Pc.stores])
        (fun s' => ⟨?_, fun _ => ?_⟩) hstep
      · simp [Sys.pc, returns, modInfo, Pc.joins, Pc.exits, Pc.stores]
      · exact ⟨rfl, rfl⟩
  | wrapper i =>
      rw [hpc] at hstep
      cases hstep
      refine touch_elim (fun _ => .stays (hother (by rw [hpc]; rfl)) rfl rfl)
        (.plain ?_ fun _ => ⟨rfl, rfl⟩)
      simp [Sys.pc, goto, modInfo, Pc.joins, Pc.exits, Pc.stores]
  | wrapperArg i =>
      rw [hpc] at hstep
      cases hstep
      refine touch_elim (fun _ => .stays (hother (by rw [hpc]; rfl)) rfl rfl)
        (.plain ?_ fun _ => ⟨rfl, rfl⟩)
      simp [Sys.pc, goto, modInfo, Pc.joins, Pc.exits, Pc.stores]
  | freeStack u =>
      rw [hpc] at hstep
      cases hstep
      refine release_elim (fun _ => .stays (hother (by rw [hpc]; rfl)) rfl rfl) fun heap =>
        .plain ?_ fun _ => ⟨rfl, rfl⟩
      simp [Sys.pc, goto, modInfo, Pc.joins, Pc.exits, Pc.stores]
  | freeTcb u =>
      rw [hpc] at hstep
      cases hstep
      refine release_elim (fun _ => .stays (hother (by rw [hpc]; rfl)) rfl rfl) fun heap =>
        .plain ?_ fun _ => ⟨rfl, rfl⟩
      simp [Sys.pc, goto, modInfo, Pc.joins, Pc.exits, Pc.stores]
  | dead => simp [hpc, Pc.exits] at hexits

/-- Where a step of the shim's own code leads. -/
inductive Moves (s s' : Sys α) (t : TaskId) : Prop
  | join (i : ThreadId) (retval : Bool) (pc : JoinPc) (hpc : s.pc t = .join i retval pc)
      (hmoves : JoinMoves s s' t i retval pc)
  | exit (pc : ExitPc) (hpc : s.pc t = .exit pc) (hmoves : ExitMoves s s' t pc)
  | other (hjoins : (s.pc t).joins = none) (hexits : (s.pc t).exits = false)
    (hmoves : OtherMoves s s' t)

theorem advance_moves (hstep : s.advance sizes t (s.pc t) = some s') : Moves s s' t := by
  cases hpc : s.pc t with
  | join i retval pc => exact .join i retval pc hpc (join_moves (by rwa [hpc] at hstep))
  | exit pc => exact .exit pc hpc (exit_moves (by rwa [hpc] at hstep))
  | dead =>
      rw [hpc] at hstep
      simp [advance] at hstep
  | _ =>
      have hjoins : (s.pc t).joins = none := by rw [hpc]; rfl
      have hexits : (s.pc t).exits = false := by rw [hpc]; rfl
      exact .other hjoins hexits (other_moves hjoins hexits hstep)

theorem SamePast.ofSwitch (hpast : SamePast (s.switchTo t) s') : SamePast s s' :=
  ⟨hpast.creator, hpast.task, hpast.handle, hpast.use, hpast.selfFreed⟩

theorem Moves.ofSwitch (hmoves : Moves (s.switchTo t) s' t) : Moves s s' t := by
  cases hmoves with
  | join i retval pc hpc hmoves =>
      refine .join i retval pc hpc ?_
      cases hmoves with
      | stays hpc hpast => exact .stays hpc hpast.ofSwitch
      | next pc' hnext hpc hpast => exact .next pc' hnext hpc hpast.ofSwitch
      | failed hold hpc hret huse hself hpast => exact .failed hold hpc hret huse hself hpast
      | returns value hold hpc hret huse hself hpast =>
          exact .returns value hold hpc hret huse hself hpast
  | exit pc hpc hmoves =>
      refine .exit pc hpc ?_
      cases hmoves with
      | stays hpc hpast => exact .stays hpc hpast.ofSwitch
      | next pc' hnext hpc hpast hfree =>
          exact .next pc' hnext hpc (fun hne => (hpast hne).ofSwitch) hfree
      | deletes hold hpc hpast => exact .deletes hold hpc hpast.ofSwitch
  | other hjoins hexits hmoves => exact .other hjoins hexits ⟨hmoves.pc, hmoves.stores, hmoves.past⟩

/-- Where a call of the application leads. -/
structure BeginMoves (s s' : Sys α) (t : TaskId) (c : Call α) : Prop where
  joins : ∀ i retval pc, s'.pc t = .join i retval pc → pc = .sem
  stores : (s'.pc t).stores = none
  exits : (s'.pc t).exits → (∃ value, s'.pc t = .exit (.findThread value)) ∨ c = .vTaskDelete
  selfFreed : ∀ i, (s'.past i).selfFreed = (s.past i).selfFreed
  use : ∀ i, (s'.past i).use = (s.past i).use ∨ (s'.past i).use = .joining t ∨
    (s'.past i).use = .detaching t

namespace BeginMoves

variable {c : Call α}

theorem plain (hpc : (s'.pc t).joins = none ∧ (s'.pc t).exits = false ∧ (s'.pc t).stores = none)
    (hpast : s'.past = s.past) : BeginMoves s s' t c := by
  refine ⟨fun i retval pc hjoin => ?_,
    hpc.2.2, by simp [hpc.2.1], fun _ => by rw [hpast], fun _ => .inl (by rw [hpast])⟩
  simp [hjoin, Pc.joins] at hpc

end BeginMoves

theorem begin_moves {c : Call α} (hpc : s.pc t = .app) (hstep : s.begin sizes t c = some s') :
    BeginMoves s s' t c := by
  have hother : (s.pc t).joins = none ∧ (s.pc t).exits = false ∧ (s.pc t).stores = none := by
    simp [hpc, Pc.joins, Pc.exits, Pc.stores]
  cases c with
  | pthreadCreate thread startRoutine arg =>
      simp only [begin] at hstep
      split at hstep <;> cases hstep
      · exact .plain (by simp [Sys.pc, returns, modInfo, Pc.joins, Pc.exits, Pc.stores]) rfl
      · exact .plain (by simp [Sys.pc, goto, modInfo, Pc.joins, Pc.exits, Pc.stores]) rfl
  | pthreadJoin thread retval =>
      cases thread with
      | none =>
          cases hstep
          exact .plain (by simp [Sys.pc, returns, modInfo, Pc.joins, Pc.exits, Pc.stores]) rfl
      | some i =>
          cases hstep
          refine ⟨?_, ?_, ?_, fun j => ?_, fun j => ?_⟩
          · simp +contextual [Sys.pc, goto, modInfo]
          · simp [Sys.pc, goto, modInfo, Pc.stores]
          · simp [Sys.pc, goto, modInfo, Pc.exits]
          · by_cases hj : j = i <;> simp [goto, modInfo, modPast, hj]
          · by_cases hj : j = i <;> simp [goto, modInfo, modPast, hj]
  | pthreadExit value =>
      cases hstep
      refine ⟨?_, ?_, fun _ => .inl ⟨value, ?_⟩, fun _ => rfl, fun _ => .inl rfl⟩
      · simp [Sys.pc, modInfo]
      · simp [Sys.pc, modInfo, Pc.stores]
      · simp [Sys.pc, modInfo]
  | pthreadDetach thread =>
      cases thread with
      | none =>
          cases hstep
          exact .plain (by simp [Sys.pc, returns, modInfo, Pc.joins, Pc.exits, Pc.stores]) rfl
      | some i =>
          cases hstep
          refine ⟨?_, ?_, ?_, fun j => ?_, fun j => ?_⟩
          · simp [Sys.pc, goto, modInfo]
          · simp [Sys.pc, goto, modInfo, Pc.stores]
          · simp [Sys.pc, goto, modInfo, Pc.exits]
          · by_cases hj : j = i <;> simp [goto, modInfo, modPast, hj]
          · by_cases hj : j = i <;> simp [goto, modInfo, modPast, hj]
  | pthreadSelf =>
      cases hstep
      exact .plain (by simp [Sys.pc, goto, modInfo, Pc.joins, Pc.exits, Pc.stores]) rfl
  | xTaskCreate uxPriority stackBytes =>
      cases hstep
      exact .plain (by simp [Sys.pc, goto, modInfo, Pc.joins, Pc.exits, Pc.stores]) rfl
  | vTaskDelete =>
      cases hstep
      refine ⟨?_, ?_, fun _ => .inr rfl, fun _ => rfl, fun _ => .inl rfl⟩
      · simp [Sys.pc, goto, modInfo]
      · simp [Sys.pc, goto, modInfo, Pc.stores]
  | blocking api =>
      exact kernel_elim (motive := fun s' => BeginMoves s s' t _) (fun _ => .plain hother rfl)
        (fun _ => .plain hother rfl) hstep
  | newQueue spec =>
      simp only [begin] at hstep
      split at hstep
      · split at hstep
        · cases hstep
          exact .plain hother rfl
        · refine kernel_elim (motive := fun s' => BeginMoves s s' t _) (fun _ => ?_)
            (fun _ => ?_) hstep
          · exact .plain hother rfl
          · exact .plain hother rfl
      · exact kernel_elim (motive := fun s' => BeginMoves s s' t _) (fun _ => .plain hother rfl)
          (fun _ => .plain hother rfl) hstep
  | deleteQueue q =>
      simp only [begin] at hstep
      refine kernel_elim (motive := fun s' => BeginMoves s s' t _) (fun _ => .plain hother rfl)
        (fun k => ?_) hstep
      exact release_elim (fun _ => .plain hother rfl) fun _ => .plain hother rfl
  | vTaskDelay xTicksToDelay =>
      exact kernel_elim (motive := fun s' => BeginMoves s s' t _) (fun _ => .plain hother rfl)
        (fun _ => .plain hother rfl) hstep
  | pvPortMalloc xWantedSize =>
      simp only [begin, Option.some.injEq] at hstep
      rcases alloc_cases s xWantedSize fun pv s =>
        returns { s with blocks := Function.update s.blocks pv true } t (.ptr pv) with
        ⟨pv, heap, -, hnext⟩ | hfailed
      · rw [← hstep, hnext]
        exact .plain (by simp [Sys.pc, returns, modInfo, Pc.joins, Pc.exits, Pc.stores]) rfl
      · rw [← hstep, hfailed]
        exact .plain hother rfl
  | vPortFree pv =>
      cases hstep
      exact release_elim (fun _ => .plain hother rfl) fun _ => .plain hother rfl

/-- A step of the system is made by one task, and is about at most one thread. -/
inductive StepEffect (sizes : Sizes) (s s' : Sys α) (act : Act α) : Prop
  /-- A tick, or a step of a blocking function. -/
  | kernel (a : Kernel.Act α) (k : State α) (hstep : s.kern.step a = some k)
      (hnext : s' = { s with kern := k })
      (hact : a = .tick ∧ act = .tick ∨ ∃ t f, a = .run t ∧ act = .run t ∧ s.frame t = some f)
  | call (t : TaskId) (c : Call α) (hact : act = .call t c) (hrun : s.kern.canRun t)
      (hframe : s.frame t = none) (hpc : s.pc t = .app) (hidle : t ≠ idleTask)
      (hbegin : (s.switchTo t).begin sizes t c = some s') (hlocal : Local s s' t c.about)
      (hmoves : BeginMoves s s' t c)
  | run (t : TaskId) (hact : act = .run t) (hrun : s.kern.canRun t) (hframe : s.frame t = none)
      (hadvance : (s.switchTo t).advance sizes t (s.pc t) = some s')
      (heffect : Effect s s' t (s.pc t).about) (hmoves : Moves s s' t)

theorem step_effect (hstep : s.step sizes act = some s') : StepEffect sizes s s' act := by
  rcases step_cases hstep with
    ⟨a, k, hk, hnext, hact⟩ | ⟨t, c, hact, hrun, hframe, hpc, hidle, hbegin⟩ | ⟨t, hact, hrun,
     hframe, hadvance⟩
  · exact .kernel a k hk hnext hact
  · have hswitch : Local s (s.switchTo t) t c.about := .ofEq t rfl rfl rfl rfl
    have hmoves := begin_moves (s := s.switchTo t) hpc hbegin
    exact .call t c hact hrun hframe hpc hidle hbegin (hswitch.trans (begin_local hbegin))
      ⟨hmoves.joins, hmoves.stores, hmoves.exits, hmoves.selfFreed, hmoves.use⟩
  · have heffect : Effect (s.switchTo t) s' t (s.pc t).about := advance_effect hadvance
    have hmoves : Moves (s.switchTo t) s' t := advance_moves hadvance
    exact .run t hact hrun hframe hadvance heffect.ofSwitch hmoves.ofSwitch

/-- What any step touches. -/
theorem StepEffect.touches (heffect : StepEffect sizes s s' act) :
    ∃ t h fresh, Touches s s' t h fresh ∧
      ∀ u, fresh = some u → u = s.kern.nextTask ∧ act = .run t ∧ s.kern.canRun t ∧
      Spawns s s' t := by
  cases heffect with
  | kernel a k _ hnext =>
      subst hnext
      exact ⟨idleTask, none, none, (Local.kern s _ k).touches, by simp⟩
  | call t c _ _ _ _ _ _ hlocal => exact ⟨t, _, none, hlocal.touches, by simp⟩
  | run t hact hrun _ _ heffect =>
      obtain ⟨fresh, htouches, hspawns⟩ := heffect
      exact ⟨t, _, fresh, htouches, fun u hu => ⟨(hspawns u hu).1, hact, hrun, (hspawns u hu).2⟩⟩

end Sys

end SimulatedLinux.Thread
