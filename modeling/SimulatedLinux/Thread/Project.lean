import SimulatedLinux.Thread.Effect

/-! # The kernel below the thread layer

Every step of the thread layer makes at most one step of the kernel, which is
determined by the program point of the task or by the call of the application.
-/

namespace SimulatedLinux.Thread

open Kernel Heap

variable {α : Type}

/-- The kernel call that task `t` makes at a program point. `joinSem` gives the semaphore
of a thread. -/
inductive Pc.Asks (joinSem : ThreadId → Option QueueId) (t : TaskId) : Pc → Kernel.Act α → Prop
  | semaphore (h : ThreadId) : Asks joinSem t (.create h .semaphore) (.create t .binary)
  | suspendAll (h : ThreadId) : Asks joinSem t (.create h .suspendAll) (.suspendAll t)
  | thread (h : ThreadId) (uxPriority pxStack pxNewTCB : Nat) :
      Asks joinSem t (.create h (.task (.start uxPriority pxStack pxNewTCB))) (.spawn t uxPriority)
  | resumeAll (h : ThreadId) : Asks joinSem t (.create h .resumeAll) (.resumeAll t)
  | native (uxPriority pxStack pxNewTCB : Nat) :
      Asks joinSem t (.task (.start uxPriority pxStack pxNewTCB)) (.spawn t uxPriority)
  | take (h : ThreadId) (retval : Bool) (q : QueueId) (hsem : joinSem h = some q) :
      Asks joinSem t (.join h retval .sem) (.call t (.xSemaphoreTake q portMaxDelay))
  | joinDelete (h : ThreadId) (retval : Bool) (value : Option Ptr) (q : QueueId) :
      Asks joinSem t (.join h retval (.deleteSem value q)) (.delete t q)
  | give (h : ThreadId) (q : QueueId) (hsem : joinSem h = some q) :
      Asks joinSem t (.exit (.sem h)) (.call t (.xSemaphoreGive q))
  | exitDelete (h : ThreadId) (q : QueueId) : Asks joinSem t (.exit (.deleteSem h q)) (.delete t q)
  | exit : Asks joinSem t (.exit .taskDelete) (.exit t)
  | reap (hidle : t = idleTask) : Asks joinSem t .app (.reap t)

theorem Pc.Asks.actor {joinSem : ThreadId → Option QueueId} {t : TaskId} {pc : Pc}
    {a : Kernel.Act α} (hasks : pc.Asks joinSem t a) : a.actor = some t := by
  cases hasks <;> rfl

/-- The kernel call behind a call of the application. -/
def Call.asks (t : TaskId) : Call α → Option (Kernel.Act α)
  | .blocking api => some (.call t api)
  | .newQueue spec => some (.create t spec)
  | .deleteQueue q => some (.delete t q)
  | .vTaskDelay xTicksToDelay => some (.delay t xTicksToDelay)
  | _ => none

/-- The kernel step behind a step. -/
inductive Act.Asks (s : Sys α) : Act α → Kernel.Act α → Prop
  | tick : Asks s .tick .tick
  | inside (t : TaskId) (f : Frame α) (hframe : s.frame t = some f) : Asks s (.run t) (.run t)
  | call (t : TaskId) (c : Call α) (a : Kernel.Act α) (hframe : s.frame t = none)
      (hasks : c.asks t = some a) : Asks s (.call t c) a
  | shim (t : TaskId) (a : Kernel.Act α) (hframe : s.frame t = none)
      (hasks : (s.pc t).Asks (fun h => (s.desc h).joinSem) t a) : Asks s (.run t) a

/-- The task that makes a step. -/
def Act.task : Act α → Option TaskId
  | .tick => none
  | .call t _ | .run t => some t

theorem Act.Asks.actor {s : Sys α} {act : Act α} {a : Kernel.Act α} (hasks : act.Asks s a) :
    a.actor = act.task := by
  cases hasks with
  | tick => rfl
  | inside => rfl
  | call t c a _ hasks => cases c <;> cases hasks <;> rfl
  | shim t a _ hasks => exact hasks.actor

namespace Sys

variable {s s' : Sys α} {t : TaskId} {sizes : Sizes} {act : Act α}

@[simp] theorem kern_goto (s : Sys α) (t : TaskId) (pc : Pc) : (s.goto t pc).kern = s.kern := rfl

@[simp] theorem kern_walkFault (s : Sys α) (fault : Lib.WalkFault ThreadId) :
    (s.walkFault fault).kern = s.kern := by
  cases fault <;> rfl

theorem kern_touch {i : ThreadId} {next : Sys α} (hnext : next.kern = s.kern) :
    (s.touch i next).kern = s.kern :=
  touch_elim (motive := fun s' => s'.kern = s.kern) (fun _ => rfl) hnext

theorem kern_release {pv : Nat} {next : Sys α → Sys α}
    (hnext : ∀ s : Sys α, (next s).kern = s.kern) :
    (s.release pv next).kern = s.kern :=
  release_elim (motive := fun s' => s'.kern = s.kern) (fun _ => rfl) fun _ => hnext _

theorem kern_alloc {size : Nat} {next : Nat → Sys α → Sys α}
    (hnext : ∀ pv (s : Sys α), (next pv s).kern = s.kern) : (s.alloc size next).kern = s.kern := by
  rcases alloc_cases s size next with ⟨pv, heap, -, hok⟩ | hfailed
  · rw [hok, hnext]
  · rw [hfailed]
    rfl

theorem kern_removeThread {i : ThreadId} {next : Sys α → Sys α}
    (hnext : ∀ s : Sys α, (next s).kern = s.kern) : (s.removeThread i next).kern = s.kern :=
  removeThread_elim (motive := fun s' => s'.kern = s.kern) (fun _ => rfl) fun _ _ => hnext _

/-- At most one kernel step is made, one of `A`. -/
def Kernels (A : Kernel.Act α → Prop) (s s' : Sys α) : Prop :=
  s'.kern = s.kern ∨ ∃ a, A a ∧ s.kern.step a = some s'.kern

variable {A : Kernel.Act α → Prop}

namespace Kernels

theorem kernel {a : Kernel.Act α} {next : Sys α → Sys α} (ha : A a)
    (hstep : s.kernel a next = some s') (hnext : ∀ s : Sys α, (next s).kern = s.kern) :
    Kernels A s s' := by
  obtain ⟨k, hk, ⟨-, rfl⟩ | ⟨-, rfl⟩⟩ := kernel_cases hstep
  · exact .inr ⟨a, ha, by rw [hnext]; exact hk⟩
  · exact .inr ⟨a, ha, hk⟩

theorem readSem {i : ThreadId} {next : QueueId → Option (Sys α)}
    (hstep : s.readSem i next = some s')
    (hnext : ∀ q, (s.desc i).joinSem = some q → next q = some s' → Kernels A s s') :
    Kernels A s s' := by
  unfold Sys.readSem at hstep
  split at hstep
  · split at hstep
    next q hsem => exact hnext q hsem hstep
    next =>
      cases hstep
      exact .inl rfl
  · cases hstep
    exact .inl rfl

end Kernels

theorem deleteSem_kernels {i : ThreadId} {q : QueueId} {pc : Pc} (ha : A (.delete t q))
    (hstep : s.deleteSem t i q pc = some s') : Kernels A s s' :=
  .kernel ha hstep fun _ => kern_release fun _ => rfl

theorem freeDesc_kern {i : ThreadId} {next : Sys α → Sys α}
    (hnext : ∀ s : Sys α, (next s).kern = s.kern) :
    (s.freeDesc i next).kern = s.kern :=
  kern_touch (kern_release fun _ => hnext _)

theorem join_kernels {i : ThreadId} {retval : Bool} {pc : JoinPc}
    (hasks : ∀ a, Pc.Asks (fun h => (s.desc h).joinSem) t (.join i retval pc) a → A a)
    (hstep : s.join t i retval pc = some s') : Kernels A s s' := by
  cases pc with
  | sem =>
      exact .readSem hstep fun q hq hnext => .kernel (hasks _ (.take i retval q hq)) hnext fun _ =>
        rfl
  | taken =>
      simp only [join] at hstep
      split at hstep <;> cases hstep <;> exact .inl rfl
  | retval =>
      simp only [join] at hstep
      split at hstep <;> cases hstep
      · exact .inl (kern_touch rfl)
      · exact .inl rfl
  | removeThread value =>
      cases hstep
      exact .inl (kern_removeThread fun _ => rfl)
  | readSem value =>
      refine .readSem hstep fun q _ hs' => ?_
      cases hs'
      exact .inl rfl
  | deleteSem value q => exact deleteSem_kernels (hasks _ (.joinDelete i retval value q)) hstep
  | free value =>
      cases hstep
      exact .inl (freeDesc_kern fun _ => rfl)

theorem exit_kernels {pc : ExitPc}
    (hasks : ∀ a, Pc.Asks (fun h => (s.desc h).joinSem) t (.exit pc) a → A a)
    (hstep : s.exit t pc = some s') : Kernels A s s' := by
  cases pc with
  | findThread value =>
      simp only [exit] at hstep
      split at hstep <;> cases hstep
      · exact .inl rfl
      · exact .inl rfl
      · exact .inl (kern_walkFault ..)
  | retval i value =>
      cases hstep
      exact .inl (kern_touch rfl)
  | detached i =>
      cases hstep
      exact .inl (kern_touch rfl)
  | removeThread i =>
      cases hstep
      exact .inl (kern_removeThread fun _ => rfl)
  | readSem i =>
      refine .readSem hstep fun q _ hs' => ?_
      cases hs'
      exact .inl rfl
  | deleteSem i q => exact deleteSem_kernels (hasks _ (.exitDelete i q)) hstep
  | free i =>
      cases hstep
      exact .inl (freeDesc_kern fun _ => rfl)
  | sem i =>
      exact .readSem hstep fun q hq hnext => .kernel (hasks _ (.give i q hq)) hnext fun _ => rfl
  | given i =>
      cases hstep
      exact .inl rfl
  | taskDelete =>
      simp only [exit] at hstep
      exact .kernel (hasks _ .exit) hstep fun _ => rfl

theorem createTask_kernels {param : Option ThreadId} {at' : TaskPc → Pc} {done : Sys α → Sys α}
    {pc : TaskPc} (hasks : ∀ uxPriority pxStack pxNewTCB, pc = .start uxPriority pxStack pxNewTCB →
      A (.spawn t uxPriority)) (hdone : ∀ s : Sys α, (done s).kern = s.kern)
    (hstep : s.createTask sizes t param at' done pc = some s') : Kernels A s s' := by
  cases pc with
  | stack uxPriority stackBytes =>
      cases hstep
      exact .inl (kern_alloc fun _ _ => rfl)
  | tcb uxPriority pxStack =>
      cases hstep
      exact .inl (kern_alloc fun _ _ => rfl)
  | start uxPriority pxStack pxNewTCB =>
      simp only [createTask] at hstep
      exact .kernel (hasks _ _ _ rfl) hstep fun s => by rw [hdone]

theorem create_kernels {i : ThreadId} {pc : CreatePc}
    (hasks : ∀ a, Pc.Asks (fun h => (s.desc h).joinSem) t (.create i pc) a → A a)
    (hstep : s.create sizes t i pc = some s') : Kernels A s s' := by
  cases pc with
  | semaphore =>
      simp only [create] at hstep
      split at hstep
      · cases hstep
        exact .inl rfl
      next pv heap _ =>
        -- the allocation comes first, and leaves the kernel alone
        have hkern : Kernels A { s with heap := heap } s' :=
          .kernel (hasks _ (.semaphore i)) hstep fun _ => rfl
        exact hkern
  | suspendAll =>
      simp only [create] at hstep
      exact .kernel (hasks _ (.suspendAll i)) hstep fun _ => rfl
  | task pc =>
      simp only [create] at hstep
      refine createTask_kernels (fun uxPriority pxStack pxNewTCB hpc => ?_) (fun _ => ?_) hstep
      · subst hpc
        exact hasks _ (.thread i uxPriority pxStack pxNewTCB)
      · rfl
  | store =>
      cases hstep
      exact .inl rfl
  | resumeAll =>
      simp only [create] at hstep
      exact .kernel (hasks _ (.resumeAll i)) hstep fun _ => rfl
  | _ =>
      cases hstep
      exact .inl (kern_touch rfl)

theorem advance_kernels (hasks : ∀ a, (s.pc t).Asks (fun h => (s.desc h).joinSem) t a → A a)
    (hstep : s.advance sizes t (s.pc t) = some s') : Kernels A s s' := by
  cases hpc : s.pc t with
  | app =>
      rw [hpc] at hstep hasks
      simp only [advance] at hstep
      split at hstep
      next hidle =>
        split at hstep
        · simp at hstep
        · exact .kernel (hasks _ (.reap hidle)) hstep fun _ => rfl
      next => simp at hstep
  | createMalloc startRoutine arg =>
      rw [hpc] at hstep
      cases hstep
      exact .inl (kern_alloc fun _ _ => rfl)
  | create i pc => exact create_kernels (by rwa [hpc] at hasks) (by rwa [hpc] at hstep)
  | join i retval pc => exact join_kernels (by rwa [hpc] at hasks) (by rwa [hpc] at hstep)
  | exit pc => exact exit_kernels (by rwa [hpc] at hasks) (by rwa [hpc] at hstep)
  | detach i =>
      rw [hpc] at hstep
      cases hstep
      exact .inl (kern_touch rfl)
  | self =>
      rw [hpc] at hstep
      simp only [advance] at hstep
      split at hstep <;> cases hstep
      · exact .inl rfl
      · exact .inl (kern_walkFault ..)
  | task pc =>
      rw [hpc] at hstep hasks
      simp only [advance] at hstep
      refine createTask_kernels (fun uxPriority pxStack pxNewTCB hpc => ?_) (fun _ => ?_) hstep
      · subst hpc
        exact hasks _ (.native uxPriority pxStack pxNewTCB)
      · rfl
  | wrapper i =>
      rw [hpc] at hstep
      cases hstep
      exact .inl (kern_touch rfl)
  | wrapperArg i =>
      rw [hpc] at hstep
      cases hstep
      exact .inl (kern_touch rfl)
  | freeStack u =>
      rw [hpc] at hstep
      cases hstep
      exact .inl (kern_release fun _ => rfl)
  | freeTcb u =>
      rw [hpc] at hstep
      cases hstep
      exact .inl (kern_release fun _ => rfl)
  | dead =>
      rw [hpc] at hstep
      simp [advance] at hstep

theorem begin_kernels {c : Call α} (hasks : ∀ a, c.asks t = some a → A a)
    (hstep : s.begin sizes t c = some s') : Kernels A s s' := by
  cases c with
  | pthreadCreate thread startRoutine arg =>
      simp only [begin] at hstep
      split at hstep <;> cases hstep <;> exact .inl rfl
  | pthreadJoin thread retval => cases thread <;> cases hstep <;> exact .inl rfl
  | pthreadDetach thread => cases thread <;> cases hstep <;> exact .inl rfl
  | blocking api => exact .kernel (hasks _ rfl) hstep fun _ => rfl
  | newQueue spec =>
      simp only [begin] at hstep
      split at hstep
      · split at hstep
        · cases hstep
          exact .inl rfl
        next pv heap _ =>
          have hkern : Kernels A { s with heap := heap } s' :=
            .kernel (hasks _ rfl) hstep fun _ => rfl
          exact hkern
      · exact .kernel (hasks _ rfl) hstep fun _ => rfl
  | deleteQueue q =>
      simp only [begin] at hstep
      exact .kernel (hasks _ rfl) hstep fun _ => kern_release fun _ => rfl
  | vTaskDelay xTicksToDelay => exact .kernel (hasks _ rfl) hstep fun _ => rfl
  | pvPortMalloc xWantedSize =>
      cases hstep
      exact .inl (kern_alloc fun _ _ => rfl)
  | vPortFree pv =>
      cases hstep
      exact .inl (kern_release fun _ => rfl)
  | _ =>
      cases hstep
      exact .inl rfl

/-- A step of the thread layer schedules a task, or makes one step of the kernel. -/
theorem step_kern (hstep : s.step sizes act = some s') :
    (∃ t, s.kern.canRun t ∧ s'.kern = s.kern.switchTo t) ∨
      ∃ a, act.Asks s a ∧ s.kern.step a = some s'.kern := by
  have hswitch : ∀ {t : TaskId} {a : Kernel.Act α}, s.kern.canRun t → a.actor = some t →
      (s.switchTo t).kern.step a = some s'.kern → s.kern.step a = some s'.kern := by
    intro t a hrun hactor hk
    rwa [switchTo, State.step_switchTo hrun hactor] at hk
  rcases step_cases hstep with ⟨a, k, hk, rfl, ⟨rfl, rfl⟩ | ⟨t, f, rfl, rfl, hframe⟩⟩ |
    ⟨t, c, rfl, hrun, hframe, hpc, -, hbegin⟩ | ⟨t, rfl, hrun, hframe, hadvance⟩
  · exact .inr ⟨_, .tick, hk⟩
  · exact .inr ⟨_, .inside t f hframe, hk⟩
  · rcases begin_kernels (A := fun a => c.asks t = some a) (fun _ ha => ha) hbegin with
      hsame | ⟨a, ha, hk⟩
    · exact .inl ⟨t, hrun, hsame⟩
    · refine .inr ⟨a, .call t c a hframe ha, hswitch hrun ?_ hk⟩
      cases c <;> cases ha <;> rfl
  · rcases advance_kernels (s := s.switchTo t)
      (A := fun a => (s.pc t).Asks (fun h => (s.desc h).joinSem) t a) (fun _ ha => ha) hadvance with
      hsame | ⟨a, ha, hk⟩
    · exact .inl ⟨t, hrun, hsame⟩
    · exact .inr ⟨a, .shim t a hframe ha, hswitch hrun ha.actor hk⟩

end Sys

end SimulatedLinux.Thread
