import SimulatedLinux.Thread.Effect

/-! # The flow of control in the shim

Where the code of a task can go from each program point. Every step of a task either
stops the system and leaves its program point alone, or follows one of these edges.
-/

namespace SimulatedLinux.Thread

open Kernel Heap

variable {α : Type}

/-- The moves inside `pthread_create`. -/
inductive CreatePc.Next : CreatePc → CreatePc → Prop
  | startRoutine (startRoutine arg : Ptr) : Next (.startRoutine startRoutine arg) (.arg arg)
  | arg (arg : Ptr) : Next (.arg arg) .retval
  | retval : Next .retval .detached
  | detached : Next .detached .semaphore
  | semaphore (sem : QueueId) : Next .semaphore (.joinSem sem)
  | joinSem (sem : QueueId) : Next (.joinSem sem) .suspendAll
  | suspendAll : Next .suspendAll (.task (.stack threadPriority threadStackBytes))
  | task (pc pc' : TaskPc) : Next (.task pc) (.task pc')
  | spawned (pc : TaskPc) : Next (.task pc) .addThread
  | addThread : Next .addThread .store
  | store : Next .store .resumeAll

/-- The moves of a task. -/
inductive Pc.Next : Pc → Pc → Prop
  | reap (u : TaskId) : Next .app (.freeStack u)
  | createMalloc (startRoutine arg : Ptr) (h : ThreadId) :
      Next (.createMalloc startRoutine arg) (.create h (.startRoutine startRoutine arg))
  | create (h : ThreadId) (pc pc' : CreatePc) (hnext : pc.Next pc') :
    Next (.create h pc) (.create h pc')
  | created (h : ThreadId) : Next (.create h .resumeAll) .app
  | join (h : ThreadId) (retval : Bool) (pc pc' : JoinPc) :
    Next (.join h retval pc) (.join h retval pc')
  | joined (h : ThreadId) (retval : Bool) (pc : JoinPc) : Next (.join h retval pc) .app
  | exit (pc pc' : ExitPc) : Next (.exit pc) (.exit pc')
  | dead : Next (.exit .taskDelete) .dead
  | detach (h : ThreadId) : Next (.detach h) .app
  | self : Next .self .app
  | task (pc pc' : TaskPc) : Next (.task pc) (.task pc')
  | spawned (pc : TaskPc) : Next (.task pc) .app
  | wrapper (h : ThreadId) : Next (.wrapper h) (.wrapperArg h)
  | wrapperArg (h : ThreadId) : Next (.wrapperArg h) .app
  | freeStack (u : TaskId) : Next (.freeStack u) (.freeTcb u)
  | freeTcb (u : TaskId) : Next (.freeTcb u) .app

/-- The program points at which a call of the application can begin; a call that is made
in one step stays at `app`. -/
inductive Pc.Begins : Pc → Prop
  | app : Begins .app
  | createMalloc (startRoutine arg : Ptr) : Begins (.createMalloc startRoutine arg)
  | join (h : ThreadId) (retval : Bool) : Begins (.join h retval .sem)
  | exit (value : Ptr) : Begins (.exit (.findThread value))
  | detach (h : ThreadId) : Begins (.detach h)
  | self : Begins .self
  | task (uxPriority stackBytes : Nat) : Begins (.task (.stack uxPriority stackBytes))
  | taskDelete : Begins (.exit .taskDelete)

namespace Sys

variable {s s' : Sys α} {t : TaskId} {sizes : Sizes} {old new : Pc}

/-- The task stays where it was, or follows an edge. -/
def Goes (t : TaskId) (old : Pc) (s' : Sys α) : Prop := s'.pc t = old ∨ old.Next (s'.pc t)

namespace Goes

theorem goto (hnext : old.Next new) (s : Sys α) : Goes t old (s.goto t new) :=
  .inr (by rwa [pc_goto])

theorem returns (hnext : old.Next .app) (s : Sys α) (ret : Ret) : Goes t old (s.returns t ret) :=
  .inr (by rwa [pc_returns])

variable (hpc : s.pc t = old)
include hpc

theorem touch {i : ThreadId} {next : Sys α} (hnext : Goes t old next) :
    Goes t old (s.touch i next) :=
  touch_elim (motive := fun s' => Goes t old s') (fun _ => .inl hpc) hnext

theorem release {pv : Nat} {next : Sys α → Sys α} (hnext : ∀ s, Goes t old (next s)) :
    Goes t old (s.release pv next) :=
  release_elim (motive := fun s' => Goes t old s') (fun _ => .inl hpc) fun _ => hnext _

theorem alloc {size : Nat} {next : Nat → Sys α → Sys α} (hnext : ∀ pv s, Goes t old (next pv s)) :
    Goes t old (s.alloc size next) := by
  rcases alloc_cases s size next with ⟨pv, heap, -, hok⟩ | hfailed
  · rw [hok]
    exact hnext _ _
  · rw [hfailed]
    exact .inl hpc

theorem kernel {a : Kernel.Act α} {next : Sys α → Sys α} (hstep : s.kernel a next = some s')
    (hnext : ∀ s, Goes t old (next s)) : Goes t old s' :=
  kernel_elim (motive := fun s' => Goes t old s') (fun _ => .inl hpc) (fun _ => hnext _) hstep

end Goes

theorem createTask_goes {param : Option ThreadId} {f : TaskPc → Pc} {done : Sys α → Sys α}
    {pc : TaskPc} (hpc : s.pc t = f pc) (hnext : ∀ pc', (f pc).Next (f pc'))
    (hdone : ∀ s, Goes t (f pc) (done s))
    (hstep : s.createTask sizes t param f done pc = some s') : Goes t (f pc) s' := by
  cases pc with
  | stack uxPriority stackBytes =>
      cases hstep
      exact .alloc hpc fun _ _ => .goto (hnext _) _
  | tcb uxPriority pxStack =>
      cases hstep
      exact .alloc hpc fun _ _ => .goto (hnext _) _
  | start uxPriority pxStack pxNewTCB =>
      simp only [createTask] at hstep
      exact .kernel hpc hstep fun _ => hdone _

theorem create_goes {i : ThreadId} {pc : CreatePc} (hpc : s.pc t = .create i pc)
    (hstep : s.create sizes t i pc = some s') : Goes t (.create i pc) s' := by
  have hgoto : ∀ {pc' : CreatePc} (s : Sys α), pc.Next pc' →
      Goes t (.create i pc) (s.goto t (.create i pc')) :=
    fun s hnext => .goto (.create i _ _ hnext) s
  cases pc with
  | startRoutine startRoutine arg =>
      cases hstep
      exact .touch hpc (hgoto _ (.startRoutine ..))
  | arg arg =>
      cases hstep
      exact .touch hpc (hgoto _ (.arg ..))
  | retval =>
      cases hstep
      exact .touch hpc (hgoto _ .retval)
  | detached =>
      cases hstep
      exact .touch hpc (hgoto _ .detached)
  | semaphore =>
      simp only [create] at hstep
      split at hstep
      · cases hstep
        exact .inl hpc
      next pv heap _ =>
        have hsame : ({ s with heap := heap } : Sys α).pc t = .create i .semaphore := hpc
        exact .kernel hsame hstep fun _ => hgoto _ (.semaphore _)
  | joinSem q =>
      cases hstep
      exact .touch hpc (hgoto _ (.joinSem q))
  | suspendAll =>
      simp only [create] at hstep
      exact .kernel hpc hstep fun _ => hgoto _ .suspendAll
  | task pc =>
      simp only [create] at hstep
      exact createTask_goes (f := fun pc => .create i (.task pc)) hpc
        (fun pc' => .create i _ _ (.task pc pc')) (fun _ => hgoto _ (.spawned pc)) hstep
  | addThread =>
      cases hstep
      exact .touch hpc (hgoto _ .addThread)
  | store =>
      cases hstep
      exact hgoto _ .store
  | resumeAll =>
      simp only [create] at hstep
      exact .kernel hpc hstep fun _ => .returns (.created i) _ _

/-- Every step of the shim's own code follows an edge. -/
theorem advance_goes (hstep : s.advance sizes t (s.pc t) = some s') : Goes t (s.pc t) s' := by
  have hmoves := advance_moves hstep
  cases hmoves with
  | join i retval pc hpc hmoves =>
      rw [hpc]
      cases hmoves with
      | stays hsame _ => exact .inl (hsame.trans hpc)
      | next pc' _ hnew _ => exact .inr (by rw [hnew]; exact .join i retval pc pc')
      | failed _ hnew => exact .inr (by rw [hnew]; exact .joined i retval pc)
      | returns value _ hnew => exact .inr (by rw [hnew]; exact .joined i retval pc)
  | exit pc hpc hmoves =>
      rw [hpc]
      cases hmoves with
      | stays hsame _ => exact .inl (hsame.trans hpc)
      | next pc' _ hnew => exact .inr (by rw [hnew]; exact .exit pc pc')
      | deletes hold hnew => exact .inr (by rw [hnew, hold]; exact .dead)
  | other hjoins hexits _ =>
      cases hpc : s.pc t with
      | join i retval pc => simp [hpc, Pc.joins] at hjoins
      | exit pc => simp [hpc, Pc.exits] at hexits
      | dead => simp [hpc, Pc.exits] at hexits
      | create i pc => exact create_goes hpc (by rwa [hpc] at hstep)
      | app =>
          rw [hpc] at hstep
          simp only [advance] at hstep
          split at hstep
          · split at hstep
            · simp at hstep
            · exact .kernel hpc hstep fun _ => .goto (.reap _) _
          · simp at hstep
      | createMalloc startRoutine arg =>
          rw [hpc] at hstep
          cases hstep
          exact .alloc hpc fun _ _ => .goto (.createMalloc startRoutine arg _) _
      | detach i =>
          rw [hpc] at hstep
          cases hstep
          exact .touch hpc (.returns (.detach i) _ _)
      | self =>
          rw [hpc] at hstep
          simp only [advance] at hstep
          split at hstep <;> cases hstep
          · exact .returns .self _ _
          · unfold walkFault
            split <;> exact .inl hpc
      | task pc =>
          rw [hpc] at hstep
          simp only [advance] at hstep
          exact createTask_goes (f := Pc.task) hpc (fun pc' => .task pc pc')
            (fun _ => .returns (.spawned pc) _ _) hstep
      | wrapper i =>
          rw [hpc] at hstep
          cases hstep
          exact .touch hpc (.goto (.wrapper i) _)
      | wrapperArg i =>
          rw [hpc] at hstep
          cases hstep
          exact .touch hpc (.goto (.wrapperArg i) _)
      | freeStack u =>
          rw [hpc] at hstep
          cases hstep
          exact .release hpc fun _ => .goto (.freeStack u) _
      | freeTcb u =>
          rw [hpc] at hstep
          cases hstep
          exact .release hpc fun _ => .goto (.freeTcb u) _

theorem begin_begins {c : Call α} (hpc : s.pc t = .app) (hstep : s.begin sizes t c = some s') :
    (s'.pc t).Begins := by
  have happ : ∀ {s : Sys α}, s.pc t = .app → (s.pc t).Begins := fun hpc => by rw [hpc]; exact .app
  have hgoto : ∀ {pc : Pc} (s : Sys α), pc.Begins → ((s.goto t pc).pc t).Begins :=
    fun s hpc => by rwa [pc_goto]
  cases c with
  | pthreadCreate thread startRoutine arg =>
      simp only [begin] at hstep
      split at hstep <;> cases hstep
      · exact happ (pc_returns ..)
      · exact hgoto _ (.createMalloc startRoutine arg)
  | pthreadJoin thread retval =>
      cases thread with
      | none =>
          cases hstep
          exact happ (pc_returns ..)
      | some h =>
          cases hstep
          exact hgoto _ (.join h retval)
  | pthreadExit value =>
      cases hstep
      rw [pc_modInfo]
      exact .exit value
  | pthreadDetach thread =>
      cases thread with
      | none =>
          cases hstep
          exact happ (pc_returns ..)
      | some h =>
          cases hstep
          exact hgoto _ (.detach h)
  | pthreadSelf =>
      cases hstep
      exact hgoto _ .self
  | xTaskCreate uxPriority stackBytes =>
      cases hstep
      exact hgoto _ (.task uxPriority stackBytes)
  | vTaskDelete =>
      cases hstep
      exact hgoto _ .taskDelete
  | blocking api | vTaskDelay xTicksToDelay =>
      exact happ (kernel_elim (motive := fun s' => s'.pc t = .app) (fun _ => hpc) (fun _ => hpc)
          hstep)
  | newQueue spec =>
      simp only [begin] at hstep
      split at hstep
      · split at hstep
        · cases hstep
          exact happ hpc
        · refine happ (kernel_elim (motive := fun s' => s'.pc t = .app) (fun _ => ?_) (fun _ => ?_)
              hstep)
          · exact hpc
          · exact hpc
      · exact happ (kernel_elim (motive := fun s' => s'.pc t = .app) (fun _ => hpc) (fun _ => hpc)
            hstep)
  | deleteQueue q =>
      simp only [begin] at hstep
      refine happ (kernel_elim (motive := fun s' => s'.pc t = .app) (fun _ => hpc) (fun k => ?_)
          hstep)
      exact release_elim (motive := fun s' => s'.pc t = .app) (fun _ => hpc) fun _ => hpc
  | pvPortMalloc xWantedSize =>
      simp only [begin, Option.some.injEq] at hstep
      rcases alloc_cases s xWantedSize fun pv s =>
        returns { s with blocks := Function.update s.blocks pv true } t (.ptr pv) with
        ⟨pv, heap, -, hnext⟩ | hfailed
      · rw [← hstep, hnext]
        exact happ (pc_returns ..)
      · rw [← hstep, hfailed]
        exact happ hpc
  | vPortFree pv =>
      cases hstep
      exact happ (release_elim (motive := fun s' => s'.pc t = .app) (fun _ => hpc) fun _ => hpc)

/-- No step of `pthread_exit` changes the value that it was called with. -/
theorem exit_exited {pc : ExitPc} (hstep : s.exit t pc = some s') :
    (s'.info t).exited = (s.info t).exited := by
  have hgoto : ∀ (s : Sys α) (pc : Pc), ((s.goto t pc).info t).exited = (s.info t).exited := by
    intro s pc
    simp [Sys.goto, modInfo]
  cases pc with
  | findThread value =>
      simp only [exit] at hstep
      split at hstep <;> cases hstep
      · exact hgoto _ _
      · exact hgoto _ _
      · unfold walkFault
        split <;> rfl
  | retval i value | detached i =>
      cases hstep
      exact touch_elim (motive := fun s' => (s'.info t).exited = (s.info t).exited)
        (fun _ => rfl) (hgoto _ _)
  | removeThread i =>
      cases hstep
      exact removeThread_elim (motive := fun s' => (s'.info t).exited = (s.info t).exited)
        (fun _ => rfl) fun _ _ => hgoto _ _
  | readSem i =>
      refine readSem_elim (motive := fun s' => (s'.info t).exited = (s.info t).exited)
        (fun _ => rfl) (fun q s' hs' => ?_) hstep
      cases hs'
      exact hgoto _ _
  | deleteSem i q =>
      simp only [exit, deleteSem] at hstep
      refine kernel_elim (motive := fun s' => (s'.info t).exited = (s.info t).exited) (fun _ => rfl)
        (fun k => ?_) hstep
      exact release_elim (motive := fun s' => (s'.info t).exited = (s.info t).exited) (fun _ => rfl)
        fun _ => hgoto _ _
  | free i =>
      cases hstep
      refine touch_elim (motive := fun s' => (s'.info t).exited = (s.info t).exited)
        (fun _ => rfl) ?_
      exact release_elim (motive := fun s' => (s'.info t).exited = (s.info t).exited) (fun _ => rfl)
        fun _ => hgoto _ _
  | sem i =>
      refine readSem_elim (motive := fun s' => (s'.info t).exited = (s.info t).exited)
        (fun _ => rfl) (fun q s' hs' => ?_) hstep
      exact kernel_elim (motive := fun s' => (s'.info t).exited = (s.info t).exited) (fun _ => rfl)
        (fun _ => hgoto _ _) hs'
  | given i =>
      cases hstep
      exact hgoto _ _
  | taskDelete =>
      simp only [exit] at hstep
      exact kernel_elim (motive := fun s' => (s'.info t).exited = (s.info t).exited) (fun _ => rfl)
        (fun _ => hgoto _ _) hstep

/-! ## The routine of a thread -/

/-- The routine of a thread is as it was. -/
def SameRoutine (i : ThreadId) (s s' : Sys α) : Prop :=
  (s'.desc i).startRoutine = (s.desc i).startRoutine

namespace SameRoutine

variable {i j : ThreadId}

theorem update {D : PosixThread} (hs' : s'.desc = Function.update s.desc j D)
    (hD : j = i → D.startRoutine = (s.desc j).startRoutine) : SameRoutine i s s' := by
  unfold SameRoutine
  rw [hs']
  by_cases hj : j = i
  · subst hj
    simpa using hD rfl
  · simp [Ne.symm hj]

theorem touch {next : Sys α} (hnext : SameRoutine i s next) : SameRoutine i s (s.touch j next) :=
  touch_elim (motive := fun s' => SameRoutine i s s') (fun _ => rfl) hnext

theorem release {pv : Nat} {next : Sys α → Sys α} (hnext : ∀ s, SameRoutine i s (next s)) :
    SameRoutine i s (s.release pv next) :=
  release_elim (motive := fun s' => SameRoutine i s s') (fun _ => rfl) fun _ => hnext _

theorem alloc {size : Nat} {next : Nat → Sys α → Sys α}
    (hnext : ∀ pv heap, SameRoutine i s (next pv { s with heap := heap })) :
    SameRoutine i s (s.alloc size next) := by
  rcases alloc_cases s size next with ⟨pv, heap, -, hok⟩ | hfailed
  · rw [hok]
    exact hnext _ _
  · rw [hfailed]
    rfl

theorem kernel {a : Kernel.Act α} {next : Sys α → Sys α} (hstep : s.kernel a next = some s')
    (hnext : ∀ k, SameRoutine i s (next { s with kern := k })) : SameRoutine i s s' :=
  kernel_elim (motive := fun s' => SameRoutine i s s') (fun _ => rfl) (fun _ => hnext _) hstep

theorem removeThread {next : Sys α → Sys α} (hnext : ∀ s, SameRoutine i s (next s)) :
    SameRoutine i s (s.removeThread j next) :=
  removeThread_elim (motive := fun s' => SameRoutine i s s') (fun _ => rfl) fun _ _ => hnext _

theorem readSem {next : QueueId → Option (Sys α)} (hstep : s.readSem j next = some s')
    (hnext : ∀ q s', next q = some s' → SameRoutine i s s') : SameRoutine i s s' :=
  readSem_elim (motive := fun s' => SameRoutine i s s') (fun _ => rfl) hnext hstep

theorem deleteSem {sem : QueueId} {pc : Pc} (hstep : s.deleteSem t j sem pc = some s') :
    SameRoutine i s s' :=
  kernel hstep fun _ => release fun _ => rfl

theorem freeDesc {next : Sys α → Sys α} (hnext : ∀ s : Sys α, (next s).desc = s.desc) :
    SameRoutine i s (s.freeDesc j next) := by
  refine touch (release fun s => update (hnext _) fun _ => rfl)

end SameRoutine

section Routine

variable {i : ThreadId}

theorem join_routine {h : ThreadId} {retval : Bool} {pc : JoinPc}
    (hstep : s.join t h retval pc = some s') :
    SameRoutine i s s' := by
  cases pc with
  | sem => exact .readSem hstep fun q s' hs' => .kernel hs' fun _ => rfl
  | taken =>
      simp only [join] at hstep
      split at hstep <;> cases hstep <;> rfl
  | retval =>
      simp only [join] at hstep
      split at hstep <;> cases hstep
      · exact .touch rfl
      · rfl
  | removeThread value =>
      cases hstep
      exact .removeThread fun _ => rfl
  | readSem value =>
      refine .readSem hstep fun q s' hs' => ?_
      cases hs'
      rfl
  | deleteSem value sem => exact .deleteSem hstep
  | free value =>
      cases hstep
      exact .freeDesc fun _ => rfl

theorem exit_routine {pc : ExitPc} (hstep : s.exit t pc = some s') : SameRoutine i s s' := by
  cases pc with
  | findThread value =>
      simp only [exit] at hstep
      split at hstep <;> cases hstep
      · rfl
      · rfl
      · unfold walkFault
        split <;> rfl
  | retval j value =>
      cases hstep
      exact .touch (.update rfl fun _ => rfl)
  | detached j =>
      cases hstep
      exact .touch rfl
  | removeThread j =>
      cases hstep
      exact .removeThread fun _ => rfl
  | readSem j =>
      refine .readSem hstep fun q s' hs' => ?_
      cases hs'
      rfl
  | deleteSem j q => exact .deleteSem hstep
  | free j =>
      cases hstep
      exact .freeDesc fun _ => rfl
  | sem j => exact .readSem hstep fun q s' hs' => .kernel hs' fun _ => rfl
  | given j =>
      cases hstep
      rfl
  | taskDelete =>
      simp only [exit] at hstep
      exact .kernel hstep fun _ => rfl

theorem createTask_routine {param : Option ThreadId} {at' : TaskPc → Pc} {done : Sys α → Sys α}
    {pc : TaskPc} (hdone : ∀ s, SameRoutine i s (done s))
    (hstep : s.createTask sizes t param at' done pc = some s') :
    SameRoutine i s s' := by
  cases pc with
  | stack uxPriority stackBytes | tcb uxPriority pxStack =>
      cases hstep
      exact .alloc fun _ _ => rfl
  | start uxPriority pxStack pxNewTCB =>
      simp only [createTask] at hstep
      exact .kernel hstep fun _ => hdone _

theorem create_routine {h : ThreadId} {pc : CreatePc}
    (hpc : h = i → ∀ startRoutine arg, pc ≠ .startRoutine startRoutine arg)
    (hstep : s.create sizes t h pc = some s') : SameRoutine i s s' := by
  cases pc with
  | startRoutine startRoutine arg =>
      cases hstep
      exact .touch (.update rfl fun heq => absurd rfl (hpc heq startRoutine arg))
  | arg arg | retval | detached | joinSem q =>
      cases hstep
      exact .touch (.update rfl fun _ => rfl)
  | semaphore =>
      simp only [create] at hstep
      split at hstep
      · cases hstep
        rfl
      next pv heap _ => exact SameRoutine.kernel (s := { s with heap := heap }) hstep fun _ => rfl
  | suspendAll | resumeAll =>
      simp only [create] at hstep
      exact .kernel hstep fun _ => rfl
  | task pc =>
      simp only [create] at hstep
      refine createTask_routine ?_ hstep
      exact fun _ => .update rfl fun _ => rfl
  | addThread =>
      cases hstep
      exact .touch (.update rfl fun _ => rfl)
  | store =>
      cases hstep
      rfl

/-- Only `pthread_create` sets the routine of a thread, before there is a task for it. -/
theorem advance_routine (hborn : i < s.nextThread)
    (hpc : ∀ startRoutine arg, s.pc t ≠ .create i (.startRoutine startRoutine arg))
    (hstep : s.advance sizes t (s.pc t) = some s') : SameRoutine i s s' := by
  cases hold : s.pc t with
  | app =>
      simp only [hold, advance] at hstep
      split at hstep
      · split at hstep
        · simp at hstep
        · exact .kernel hstep fun _ => rfl
      · simp at hstep
  | createMalloc startRoutine arg =>
      rw [hold] at hstep
      cases hstep
      refine .alloc fun pv heap => ?_
      simp [SameRoutine, Sys.goto, modInfo, newDesc, Nat.ne_of_lt hborn]
  | create h pc =>
      rw [hold] at hstep
      refine create_routine (fun heq startRoutine arg hstart => ?_) hstep
      exact hpc startRoutine arg (by rw [hold, heq, hstart])
  | join h retval pc =>
      rw [hold] at hstep
      exact join_routine hstep
  | exit pc =>
      rw [hold] at hstep
      exact exit_routine hstep
  | detach h =>
      rw [hold] at hstep
      cases hstep
      exact .touch (.update rfl fun _ => rfl)
  | self =>
      simp only [hold, advance] at hstep
      split at hstep <;> cases hstep
      · rfl
      · unfold walkFault
        split <;> rfl
  | task pc =>
      simp only [hold, advance] at hstep
      refine createTask_routine ?_ hstep
      exact fun _ => rfl
  | wrapper h | wrapperArg h =>
      rw [hold] at hstep
      cases hstep
      exact .touch rfl
  | freeStack u | freeTcb u =>
      rw [hold] at hstep
      cases hstep
      exact .release fun _ => rfl
  | dead =>
      rw [hold] at hstep
      cases hstep

theorem begin_routine {c : Call α} (hstep : s.begin sizes t c = some s') : SameRoutine i s s' := by
  cases c with
  | pthreadCreate thread startRoutine arg =>
      simp only [begin] at hstep
      split at hstep <;> cases hstep <;> rfl
  | pthreadJoin thread retval =>
      cases thread <;> cases hstep <;> rfl
  | pthreadDetach thread =>
      cases thread <;> cases hstep <;> rfl
  | pthreadExit value | pthreadSelf | xTaskCreate uxPriority stackBytes | vTaskDelete =>
      cases hstep
      rfl
  | blocking api | vTaskDelay xTicksToDelay =>
      simp only [begin] at hstep
      exact .kernel hstep fun _ => rfl
  | newQueue spec =>
      simp only [begin] at hstep
      split at hstep
      · split at hstep
        · cases hstep
          rfl
        next pv heap _ => exact SameRoutine.kernel (s := { s with heap := heap }) hstep fun _ => rfl
      · exact .kernel hstep fun _ => rfl
  | deleteQueue q =>
      simp only [begin] at hstep
      exact .kernel hstep fun _ => .release fun _ => rfl
  | pvPortMalloc xWantedSize =>
      cases hstep
      exact .alloc fun _ _ => rfl
  | vPortFree pv =>
      cases hstep
      exact .release fun _ => rfl

theorem step_routine {act : Act α} (hborn : i < s.nextThread)
    (hpc : ∀ t startRoutine arg, s.pc t ≠ .create i (.startRoutine startRoutine arg))
    (hstep : s.step sizes act = some s') : SameRoutine i s s' := by
  rcases step_cases hstep with
    ⟨a, k, -, rfl, -⟩ | ⟨t, c, -, -, -, -, -, hbegin⟩ | ⟨t, -, -, -, hadvance⟩
  · rfl
  · exact begin_routine (s := s.switchTo t) hbegin
  · exact advance_routine (s := s.switchTo t) hborn (hpc t) hadvance

end Routine

end Sys

end SimulatedLinux.Thread
