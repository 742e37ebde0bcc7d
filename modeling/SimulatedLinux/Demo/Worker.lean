import Mathlib.Algebra.BigOperators.Group.Finset.Basic
import Mathlib.Data.BitVec
import Mathlib.Tactic.LinearCombination
import SimulatedLinux.Kernel.Sleep
import SimulatedLinux.Thread.Identity
import SimulatedLinux.Thread.Join
import SimulatedLinux.Thread.Mutex
import SimulatedLinux.Thread.Next

/-! # The workers of the demo

`worker_thread_mutex` of `main_blinky.c` over the thread layer. Each worker adds one to
the shared counter as often as its configuration says, and sleeps between reading the
counter and writing it. Whatever runs in between, no increment is lost.
-/

namespace SimulatedLinux.Demo

open Kernel Heap Thread

variable {α : Type}

/-- `thread_config_t`. An `int` has 32 bits. -/
structure ThreadConfig where
  threadId : BitVec 32
  iterations : Nat

/-- The program points of `worker_thread_mutex`, with its locals. -/
inductive WorkerPc
  /-- The condition of the loop. -/
  | test (i : Nat)
  | lock (i : Nat)
  /-- `pthread_mutex_lock` has returned, once its call is over. -/
  | read (i : Nat)
  | sleep (i : Nat) (temp : BitVec 32)
  | write (i : Nat) (temp : BitVec 32)
  | unlock (i : Nat)
  | pause (i : Nat)
  | next (i : Nat)
  /-- `vPortFree(config)`. -/
  | free
  /-- The value is returned to `posix_thread_wrapper`. -/
  | exit
  | done
  deriving DecidableEq

/-- The thread layer, the shared counter, and the code of the threads that run
`worker_thread_mutex`. -/
structure World (α : Type) where
  sys : Sys α
  gSharedCounter : BitVec 32
  /-- What `posix_thread_wrapper` has read from the descriptor. -/
  startRoutine : ThreadId → Ptr
  arg : ThreadId → Ptr
  code : ThreadId → Option WorkerPc

/-- The program: the address of `worker_thread_mutex`, the handle in `g_counter_mutex`,
and what the block passed to each worker holds. -/
structure Program where
  workerThreadMutex : Ptr
  gCounterMutex : QueueId
  config : ThreadId → ThreadConfig

/-- The labels: a step that is not in the code of a worker, or one that is. -/
inductive WorldAct (α : Type)
  | sys (act : Thread.Act α)
  | worker (u : TaskId)

/-- The `void *` that stands for an `int`. -/
def ptrOfInt (value : BitVec 32) : Ptr := value.toNat

namespace World

variable (P : Program) (sizes : Sizes)

/-- The code that the task is in the middle of. -/
def codeOf (w : World α) (u : TaskId) : Option (ThreadId × WorkerPc) :=
  ((w.sys.info u).param).bind fun h => (w.code h).map fun pc => (h, pc)

def goto (w : World α) (h : ThreadId) (pc : WorkerPc) : World α :=
  { w with code := Function.update w.code h (some pc) }

/-- `posix_thread_wrapper` calls the routine of its thread. -/
def enter (w : World α) (sys : Sys α) : Thread.Act α → World α
  | .run u =>
      match w.sys.frame u, w.sys.pc u with
      | none, .wrapper h =>
          { w with
            sys := sys
            startRoutine := Function.update w.startRoutine h (w.sys.desc h).startRoutine }
      | none, .wrapperArg h =>
          let w' := { w with sys := sys, arg := Function.update w.arg h (w.sys.desc h).arg }
          if sys.pc u = .app ∧ w.startRoutine h = P.workerThreadMutex then w'.goto h (.test 0)
          else w'
      | _, _ => { w with sys := sys }
  | _ => { w with sys := sys }

/-- The worker calls a function, and goes on behind the call. -/
def call (w : World α) (u : TaskId) (h : ThreadId) (c : Call α) (pc : WorkerPc) :
    Option (World α) :=
  (w.sys.step sizes (.call u c)).map fun sys => { w with sys := sys }.goto h pc

/-- The worker takes a step that calls nothing. -/
def move (w : World α) (u : TaskId) (h : ThreadId) (pc : WorkerPc) : World α :=
  { w with sys := w.sys.switchTo u }.goto h pc

/-- One step of the code of a worker. -/
def work (w : World α) (u : TaskId) (h : ThreadId) : WorkerPc → Option (World α)
  | .test i => some (w.move u h (if i < (P.config h).iterations then .lock i else .free))
  | .lock i => w.call sizes u h (.blocking (.pthreadMutexLock (some P.gCounterMutex))) (.read i)
  | .read i => some (w.move u h (.sleep i w.gSharedCounter))
  | .sleep i temp => w.call sizes u h (.vTaskDelay (usleepTicks 50000)) (.write i temp)
  | .write i temp => some { w.move u h (.unlock i) with gSharedCounter := temp + 1 }
  | .unlock i =>
    w.call sizes u h (.blocking (.pthreadMutexUnlock (some P.gCounterMutex))) (.pause i)
  | .pause i => w.call sizes u h (.vTaskDelay (usleepTicks 10000)) (.next i)
  | .next i => some (w.move u h (.test (i + 1)))
  | .free => w.call sizes u h (.vPortFree (w.arg h)) .exit
  | .exit => w.call sizes u h (.pthreadExit (ptrOfInt (P.config h).threadId)) .done
  | .done => none

/-- The task runs code of the application now. -/
def atApp (w : World α) (u : TaskId) : Bool :=
  w.sys.fault.isNone && w.sys.kern.canRun u && (w.sys.frame u).isNone && w.sys.pc u = .app

/-- The step function. A worker makes the calls of its code and no others. -/
def step (w : World α) : WorldAct α → Option (World α)
  | .sys (.call t c) =>
      if (w.codeOf t).isSome then none
      else (w.sys.step sizes (.call t c)).map fun sys => { w with sys := sys }
  | .sys act => (w.sys.step sizes act).map fun sys => w.enter P sys act
  | .worker u =>
      if w.atApp u then
        match w.codeOf u with
        | some (h, pc) => w.work P sizes u h pc
        | none => none
      else none

/-- What the rest of the application promises. The mutex is initialised before a worker
locks it; the block of a worker is allocated, and nobody else frees it. -/
def Promise (w : World α) : WorldAct α → Prop
  | .sys act => act.Proper w.sys ∧ act.Locks w.sys
  | .worker u =>
      (∀ h i, w.codeOf u = some (h, .lock i) → (w.sys.kern.queue P.gCounterMutex).isMutex) ∧
        ∀ h, w.codeOf u = some (h, .free) → w.sys.blocks (w.arg h)

end World

/-! ## The invariant -/

/-- The increments that a worker has made. -/
def WorkerPc.increments (iterations : Nat) : WorkerPc → Nat
  | test i | lock i | read i | sleep i _ | write i _ => i
  | unlock i | pause i | next i => i + 1
  | free | exit | done => iterations

/-- The task is in its code, does not hold the mutex, and makes no call that locks. -/
def Outside (P : Program) (s : Sys α) (u : TaskId) : Prop :=
  s.pc u = .app ∧ P.gCounterMutex ∉ s.kern.view.locked u ∧ ∀ f, s.frame u = some f →
    f.api.locks = none

/-- The task is in its code and holds the mutex. -/
def Inside (P : Program) (s : Sys α) (u : TaskId) : Prop :=
  s.pc u = .app ∧ P.gCounterMutex ∈ s.kern.view.locked u ∧ s.frame u = none

/-- Where a worker is in its code, and whether it holds the mutex there. -/
def Stage (P : Program) (counter : BitVec 32) (h : ThreadId) (u : TaskId) (s : Sys α) :
    WorkerPc → Prop
  | .test i => Outside P s u ∧ i ≤ (P.config h).iterations
  | .lock i | .pause i | .next i => Outside P s u ∧ i < (P.config h).iterations
  | .read i => s.pc u = .app ∧ i < (P.config h).iterations ∧
      ((∃ f, s.frame u = some f ∧ f.api = .pthreadMutexLock (some P.gCounterMutex)) ∨ Inside P s u)
  | .sleep i temp | .write i temp => Inside P s u ∧ i < (P.config h).iterations ∧ temp = counter
  | .unlock i => Inside P s u ∧ i < (P.config h).iterations
  | .free | .exit => Outside P s u
  | .done => (s.pc u).exits ∧ (s.info u).exited = some (ptrOfInt (P.config h).threadId)

section Invariant

variable {P : Program} {base : Nat → Option Nat} {low high : Nat} {init : BitVec 32} {sizes : Sizes}
  {w w' : World α} {s s' : Sys α} {u : TaskId} {h first : ThreadId} {pc : WorkerPc}
  {act : Thread.Act α}

/-- The increments that a thread has made. -/
def World.increments (P : Program) (w : World α) (h : ThreadId) : Nat :=
  match w.code h with
  | some pc => pc.increments (P.config h).iterations
  | none => 0

/-- What the workers rely on below their own code. A thread that has not yet called its
routine holds no mutex. -/
structure Guarded (P : Program) (base : Nat → Option Nat) (low high : Nat) (s : Sys α) : Prop where
  inv : ∃ nodes, s.Inv base low high nodes
  mutex : MutexInv s.kern.view
  early : ∀ u h, s.pc u = .wrapper h ∨ s.pc u = .wrapperArg h →
    P.gCounterMutex ∉ s.kern.view.locked u

/-- How far a thread has got with the call of its routine. -/
def Routine (P : Program) (w : World α) (h : ThreadId) (u : TaskId) : Prop :=
  w.sys.pc u = .wrapper h ∨ w.startRoutine h = (w.sys.desc h).startRoutine ∧
    (w.sys.pc u = .wrapperArg h ∨
      ((w.sys.desc h).startRoutine = P.workerThreadMutex → (w.code h).isSome))

/-- The invariant of the threads from `first` on. A worker that is about to write has
read the value that the counter still has. -/
structure WorkerInv (P : Program) (base : Nat → Option Nat) (low high : Nat) (init : BitVec 32)
    (first : ThreadId) (w : World α) : Prop where
  guarded : Guarded P base low high w.sys
  stage : ∀ h pc, w.code h = some pc → ∃ u, (w.sys.past h).task = some u ∧
    Stage P w.gSharedCounter h u w.sys pc
  routine : ∀ h u, first ≤ h → (w.sys.past h).task = some u → Routine P w h u
  counter : ∀ workers : Finset ThreadId, (∀ h, (w.code h).isSome → h ∈ workers) →
    w.gSharedCounter = init + BitVec.ofNat 32 (∑ h ∈ workers, w.increments P h)

theorem Stage.same (hsame : s.SameTask s' u) {counter : BitVec 32}
    (hstage : Stage P counter h u s pc) :
    Stage P counter h u s' pc := by
  have houtside : Outside P s u → Outside P s' u := fun ⟨hpc, hlocked, hframe⟩ =>
    ⟨hsame.pc.trans hpc, hsame.locked ▸ hlocked, fun f hf => hframe f (hsame.frame ▸ hf)⟩
  have hinside : Inside P s u → Inside P s' u := fun ⟨hpc, hlocked, hframe⟩ =>
    ⟨hsame.pc.trans hpc, hsame.locked ▸ hlocked, hsame.frame.trans hframe⟩
  cases pc with
  | test i | lock i | pause i | next i => exact ⟨houtside hstage.1, hstage.2⟩
  | read i =>
      obtain ⟨hpc, hlt, hcases⟩ := hstage
      refine ⟨hsame.pc.trans hpc, hlt,
        hcases.imp (fun ⟨f, hf, hapi⟩ => ⟨f, hsame.frame.trans hf, hapi⟩) hinside⟩
  | sleep i temp | write i temp | unlock i => exact ⟨hinside hstage.1, hstage.2⟩
  | free | exit => exact houtside hstage
  | done => exact ⟨hsame.pc ▸ hstage.1, hsame.exited.trans hstage.2⟩

/-- A worker is in its code until it exits. -/
theorem Stage.pc_app {counter : BitVec 32} (hstage : Stage P counter h u s pc) (hpc : pc ≠ .done) :
    s.pc u = .app := by
  cases pc with
  | test i | lock i | pause i | next i | sleep i temp | write i temp | unlock i => exact hstage.1.1
  | read i => exact hstage.1
  | free | exit => exact hstage.1
  | done => exact absurd rfl hpc

/-- A worker inside a call of the kernel. -/
theorem Stage.run {counter : BitVec 32} {f : Frame α} {k : State α}
    (hstage : Stage P counter h u s pc) (hframe : s.frame u = some f) (hf : f.WellFormed)
    (hk : s.kern.step (.run u) = some k) :
    Stage P counter h u { s with kern := k } pc := by
  obtain ⟨f', hframe', hran⟩ := State.step_run_ran hk
  obtain rfl : f = f' := Option.some.inj (hframe.symm.trans hframe')
  have hcases := hran.locked_cases hframe' hf
  have houtside : Outside P s u → Outside P { s with kern := k } u := by
    rintro ⟨hpc, hlocked, hcalm⟩
    rcases hcases with ⟨f', hf', hapi, hsame⟩ | ⟨hnone, hafter⟩
    · refine ⟨hpc, hsame ▸ hlocked, fun g hg => ?_⟩
      obtain rfl : f' = g := Option.some.inj (hf'.symm.trans hg)
      rw [hapi]
      exact hcalm f hframe
    · rw [hcalm f hframe] at hafter
      refine ⟨hpc, hafter ▸ hlocked, fun g hg => ?_⟩
      have hg' : k.view.frame u = some g := hg
      simp [hnone] at hg'
  have hinside : ¬ Inside P s u := fun hinside => by simp [hinside.2.2] at hframe
  cases pc with
  | test i | lock i | pause i | next i => exact ⟨houtside hstage.1, hstage.2⟩
  | read i =>
      obtain ⟨hpc, hlt, hlocking⟩ := hstage
      obtain ⟨g, hg, hapi⟩ := hlocking.resolve_right hinside
      obtain rfl : f = g := Option.some.inj (hframe.symm.trans hg)
      refine ⟨hpc, hlt, ?_⟩
      rcases hcases with ⟨f', hf', hapi', -⟩ | ⟨hnone, hafter⟩
      · exact .inl ⟨f', hf', hapi'.trans hapi⟩
      · refine .inr ⟨hpc, ?_, hnone⟩
        rw [hapi] at hafter
        exact hafter ▸ List.mem_cons_self
  | sleep i temp | write i temp | unlock i => exact absurd hstage.1 hinside
  | free | exit => exact houtside hstage
  | done => exact hstage

/-- A step that is not in the code of a worker. -/
theorem Stage.step {counter : BitVec 32} {nodes : List ThreadId} (hinv : s.Inv base low high nodes)
    (htask : (s.past h).task = some u) (hstage : Stage P counter h u s pc)
    (hcall : ∀ c, act ≠ .call u c) (hstep : s.step sizes act = some s') :
    Stage P counter h u s' pc := by
  have hparam : (s.info u).param = some h := (hinv.roles.tasks h u).mp htask
  have hborn : u < s.kern.view.nextTask := by
    by_contra hge
    simp [(hinv.tasks.unborn u (Nat.le_of_not_lt hge)).2] at hparam
  by_cases hactor : act.task = some u
  · cases act with
    | tick => simp [Thread.Act.task] at hactor
    | call t c =>
        obtain rfl : t = u := Option.some.inj hactor
        exact absurd rfl (hcall c)
    | run t =>
        obtain rfl : t = u := Option.some.inj hactor
        rcases Sys.step_cases hstep with ⟨a, k, hk, rfl, ⟨-, hact⟩ | ⟨v, f, rfl, hact, hframe⟩⟩ |
          ⟨v, c, hact, -⟩ | ⟨v, hact, -, hframe, hadvance⟩
        · simp at hact
        · cases hact
          exact hstage.run hframe (hinv.core.calls.wellFormed t f hframe) hk
        · simp at hact
        · cases hact
          -- a worker is in the shim's own code only after its end
          by_cases hdone : pc = .done
          · subst hdone
            obtain ⟨hexits, hexited⟩ := hstage
            cases hpc : s.pc t with
            | exit p =>
                rw [hpc] at hadvance
                have hmoves := Sys.exit_moves hadvance
                refine ⟨?_, (Sys.exit_exited hadvance).trans hexited⟩
                cases hmoves with
                | stays hsame _ => exact (congrArg Pc.exits hsame).trans (congrArg Pc.exits hpc)
                | next pc' _ hnew => rw [hnew]; rfl
                | deletes _ hnew => rw [hnew]; rfl
            | dead =>
                rw [hpc] at hadvance
                simp [Sys.advance] at hadvance
            | _ => simp [hpc, Pc.exits] at hexits
          · rw [hstage.pc_app hdone] at hadvance
            simp only [Sys.advance] at hadvance
            split at hadvance
            next hidle =>
              rw [hidle, hinv.tasks.idle.2] at hparam
              simp at hparam
            next => simp at hadvance
  · exact hstage.same (Sys.step_others hborn hactor hstep)

/-! ## Steps of the thread layer -/

/-- The program point of a thread that has not yet called its routine. -/
theorem early_cases (hearly : s'.pc u = .wrapper h ∨ s'.pc u = .wrapperArg h)
    (hgoes : Sys.Goes u (s.pc u) s') : s.pc u = .wrapper h ∨ s.pc u = .wrapperArg h := by
  rcases hgoes with hsame | hnext
  · rwa [← hsame]
  · generalize s.pc u = old at hnext
    rcases hearly with hnew | hnew <;> rw [hnew] at hnext <;> cases hnext
    exact .inl rfl

/-- A step of a thread towards its routine is not a step of the kernel. -/
theorem Guarded.early_kern (hguarded : Guarded P base low high s)
    (hearly : s.pc u = .wrapper h ∨ s.pc u = .wrapperArg h) (hact : act.task = some u)
    (hstep : s.step sizes act = some s') : s'.kern.view = s.kern.view := by
  obtain ⟨nodes, hinv⟩ := hguarded.inv
  rcases Sys.step_kern hstep with ⟨t, -, hswitch⟩ | ⟨a, hasks, hk⟩
  · rw [hswitch]
    rfl
  · exfalso
    cases hasks with
    | tick => simp [Thread.Act.task] at hact
    | inside t f hframe =>
        obtain rfl : t = u := Option.some.inj hact
        cases hinv.sems.calls t f hframe with
        | app hpc => simp [hpc] at hearly
        | join _ _ hpc => simp [hpc] at hearly
        | exit _ hpc => simp [hpc] at hearly
    | call t c a _ _ =>
        obtain rfl : t = u := Option.some.inj hact
        cases Sys.step_effect hstep with
        | kernel a k _ _ hact => simp at hact
        | call t' c' hact _ _ hpc =>
            cases hact
            simp [hpc] at hearly
        | run t' hact => simp at hact
    | shim t a _ hasks =>
        obtain rfl : t = u := Option.some.inj hact
        generalize s.pc t = old at hasks hearly
        rcases hearly with rfl | rfl <;> cases hasks

/-- A thread does not get back to the call of its routine. -/
theorem early_before (hearly : s'.pc u = .wrapper h ∨ s'.pc u = .wrapperArg h)
    (hact : act.task = some u) (hstep : s.step sizes act = some s') :
    s.pc u = .wrapper h ∨ s.pc u = .wrapperArg h := by
  rcases Sys.step_cases hstep with ⟨a, k, hk, rfl, -⟩ | ⟨t, c, rfl, -, -, hpc, -, hbegin⟩ |
    ⟨t, rfl, -, -, hadvance⟩
  · exact hearly
  · obtain rfl : t = u := Option.some.inj hact
    have hbegins := Sys.begin_begins (s := s.switchTo t) hpc hbegin
    rcases hearly with hnew | hnew <;> rw [hnew] at hbegins <;> cases hbegins
  · obtain rfl : t = u := Option.some.inj hact
    exact early_cases hearly (Sys.advance_goes (s := s.switchTo t) hadvance)

theorem Guarded.step (hguarded : Guarded P base low high s) (hproper : act.Proper s)
    (hlocks : act.Locks s) (hstep : s.step sizes act = some s') : Guarded P base low high s' := by
  obtain ⟨nodes, hinv⟩ := hguarded.inv
  refine ⟨⟨_, hinv.step hproper hstep⟩, hinv.step_mutex hguarded.mutex hlocks hstep,
    fun u h hearly => ?_⟩
  by_cases hact : act.task = some u
  · have hold := early_before hearly hact hstep
    rw [hguarded.early_kern hold hact hstep]
    exact hguarded.early u h hold
  by_cases hborn : u < s.kern.view.nextTask
  · have hsame := Sys.step_others hborn hact hstep
    rw [hsame.locked]
    exact hguarded.early u h (by rwa [hsame.pc] at hearly)
  · -- a task that does not exist yet holds nothing
    have hlocked : s'.kern.view.locked u = s.kern.view.locked u := by
      rcases Sys.step_kern hstep with ⟨t, -, hswitch⟩ | ⟨a, hasks, hk⟩
      · rw [hswitch]
        rfl
      · exact (State.stepped_step hk).locked_of_ne (hasks.actor ▸ hact)
    intro hmem
    rw [hlocked] at hmem
    obtain ⟨hmutex, hholder⟩ := hguarded.mutex.owned u _ hmem
    exact hborn (hguarded.mutex.spawned _ u hmutex hholder)

/-- What a step that is not in the code of a worker does to the world. -/
inductive Enters (P : Program) (w : World α) (s' : Sys α) (act : Thread.Act α) : World α → Prop
  | other (hpc : ∀ u h, act = .run u → w.sys.frame u = none →
      w.sys.pc u ≠ .wrapper h ∧ w.sys.pc u ≠ .wrapperArg h) :
      Enters P w s' act { w with sys := s' }
  | routine (u : TaskId) (h : ThreadId) (hact : act = .run u) (hpc : w.sys.pc u = .wrapper h) :
      Enters P w s' act
        { w with
          sys := s'
          startRoutine := Function.update w.startRoutine h (w.sys.desc h).startRoutine }
  | arg (u : TaskId) (h : ThreadId) (hact : act = .run u) (hpc : w.sys.pc u = .wrapperArg h)
      (hnot : ¬ (s'.pc u = .app ∧ w.startRoutine h = P.workerThreadMutex)) :
      Enters P w s' act { w with sys := s', arg := Function.update w.arg h (w.sys.desc h).arg }
  | starts (u : TaskId) (h : ThreadId) (hact : act = .run u) (hpc : w.sys.pc u = .wrapperArg h)
      (happ : s'.pc u = .app) (hroutine : w.startRoutine h = P.workerThreadMutex) :
      Enters P w s' act
        ({ w with sys := s', arg := Function.update w.arg h (w.sys.desc h).arg }.goto h (.test 0))

theorem enter_enters (P : Program) (w : World α) (s' : Sys α) (act : Thread.Act α)  :
    Enters P w s' act (w.enter P s' act) := by
  cases act with
  | tick => exact .other (by simp)
  | call t c => exact .other (by simp)
  | run u =>
      simp only [World.enter]
      split
      next h hframe hpc => exact .routine u h rfl hpc
      next h hframe hpc =>
        split
        next hstarts => exact .starts u h rfl hpc hstarts.1 hstarts.2
        next hnot => exact .arg u h rfl hpc hnot
      next hwrapper hwrapperArg =>
        refine .other fun v h hact hframe => ?_
        cases hact
        exact ⟨fun hpc => hwrapper h hframe hpc, fun hpc => hwrapperArg h hframe hpc⟩

theorem World.step_sys (hstep : w.step P sizes (.sys act) = some w') :
    ∃ s', w.sys.step sizes act = some s' ∧ (∀ t c, act = .call t c → w.codeOf t = none) ∧
      Enters P w s' act w' := by
  cases act with
  | tick =>
      obtain ⟨s', hs', rfl⟩ := Option.map_eq_some_iff.mp hstep
      exact ⟨s', hs', by simp, enter_enters P w s' _⟩
  | run u =>
      obtain ⟨s', hs', rfl⟩ := Option.map_eq_some_iff.mp hstep
      exact ⟨s', hs', by simp, enter_enters P w s' _⟩
  | call t c =>
      simp only [World.step] at hstep
      split at hstep
      next => simp at hstep
      next hnone =>
        obtain ⟨s', hs', rfl⟩ := Option.map_eq_some_iff.mp hstep
        refine ⟨s', hs', fun t' c' hact => ?_, .other (by simp)⟩
        cases hact
        simpa using hnone

theorem run_goes (hstep : s.step sizes (.run u) = some s') : Sys.Goes u (s.pc u) s' := by
  rcases Sys.step_cases hstep with ⟨a, k, hk, rfl, -⟩ | ⟨t, c, hact, -⟩ | ⟨t, hact, -, -, hadvance⟩
  · exact .inl rfl
  · simp at hact
  · cases hact
    exact Sys.advance_goes (s := s.switchTo u) hadvance

/-- A thread that has not called its routine does not move in a step of another kind. -/
theorem Guarded.pc_other (hguarded : Guarded P base low high s) (hborn : u < s.kern.view.nextTask)
    (hact : act = .run u → s.frame u = none → s.pc u ≠ .wrapper h ∧ s.pc u ≠ .wrapperArg h)
    (hstep : s.step sizes act = some s') :
    s'.pc u = s.pc u ∨ s.pc u ≠ .wrapper h ∧ s.pc u ≠ .wrapperArg h := by
  obtain ⟨nodes, hinv⟩ := hguarded.inv
  by_cases htask : act.task = some u
  · right
    cases Sys.step_effect hstep with
    | kernel a k _ _ hk =>
        rcases hk with ⟨-, rfl⟩ | ⟨t, f, -, rfl, hframe⟩
        · simp [Thread.Act.task] at htask
        · obtain rfl : t = u := Option.some.inj htask
          cases hinv.sems.calls t f hframe with
          | app hpc => simp [hpc]
          | join _ _ hpc => simp [hpc]
          | exit _ hpc => simp [hpc]
    | call t c hact _ _ hpc =>
        obtain rfl : t = u := by simpa [hact, Thread.Act.task] using htask
        simp [hpc]
    | run t hrun _ hframe =>
        obtain rfl : t = u := by simpa [hrun, Thread.Act.task] using htask
        exact hact hrun hframe
  · exact .inl (Sys.step_others hborn htask hstep).pc

/-- A task that was not there before the step begins with `posix_thread_wrapper`. -/
theorem new_task {nodes nodes' : List ThreadId} (hinv : s.Inv base low high nodes)
    (hinv' : s'.Inv base low high nodes') (htask : (s'.past h).task = some u)
    (hnew : (s.past h).task ≠ some u) (hstep : s.step sizes act = some s') :
    s'.pc u = .wrapper h := by
  obtain ⟨t, i, fresh, htouches, hspawns⟩ := (Sys.step_effect hstep).touches
  have hparam : (s'.info u).param = some h := (hinv'.roles.tasks h u).mp htask
  by_cases hfresh : fresh = some u
  · obtain ⟨hu, -, hrun, hspawn⟩ := hspawns u hfresh
    have hborn : t < s.kern.view.nextTask := hinv.core.kernel.wait.spawned hrun
    subst hu
    cases hspawn with
    | native uxPriority pxStack pxNewTCB _ hinfo =>
        rw [hinfo (Nat.ne_of_lt hborn)] at hparam
        simp [Sys.newInfo] at hparam
    | thread j uxPriority pxStack pxNewTCB _ hinfo =>
        rw [hinfo (Nat.ne_of_lt hborn)] at hparam
        obtain rfl : j = h := by simpa [Sys.newInfo] using hparam
        simp [Sys.pc, hinfo (Nat.ne_of_lt hborn), Sys.newInfo]
  · rw [(htouches.info u hfresh).2.2.1] at hparam
    exact absurd ((hinv.roles.tasks h u).mpr hparam) hnew

/-- The routine of a thread that has a task does not change. -/
theorem same_routine {nodes : List ThreadId} (hinv : s.Inv base low high nodes)
    (htask : (s.past h).task = some u) (hstep : s.step sizes act = some s') :
    (s'.desc h).startRoutine = (s.desc h).startRoutine := by
  refine Sys.step_routine ?_ (fun t startRoutine arg hpc => ?_) hstep
  · by_contra hge
    simp [((hinv.threads h).unborn (Nat.le_of_not_lt hge)).2.1] at htask
  · have hnone := ((hinv.threads h).building t _ hpc rfl).noTask rfl
    simp [hnone] at htask

theorem WorkerInv.routine_sys (hinv : WorkerInv P base low high init first w)
    (hproper : act.Proper w.sys) (hstep : w.sys.step sizes act = some s')
    (henters : Enters P w s' act w') (hsys : w'.sys = s') (hle : first ≤ h)
    (htask : (s'.past h).task = some u) : Routine P w' h u := by
  obtain ⟨nodes, hbase⟩ := hinv.guarded.inv
  by_cases hold : (w.sys.past h).task = some u
  · have hroutine := hinv.routine h u hle hold
    have hsame : (s'.desc h).startRoutine = (w.sys.desc h).startRoutine :=
      same_routine hbase hold hstep
    have hparam : (w.sys.info u).param = some h := (hbase.roles.tasks h u).mp hold
    have hborn : u < w.sys.kern.view.nextTask := hbase.lt_of_task hold
    -- the task of a thread is the only one that can be about to call its routine
    have hcaller : ∀ v h', w.sys.pc v = .wrapper h' ∨ w.sys.pc v = .wrapperArg h' →
        (v = u ↔ h' = h) := by
      intro v h' hpc
      have hv : (w.sys.info v).param = some h' :=
        hbase.roles.own v h' (by rcases hpc with hpc | hpc <;> simp [hpc, Pc.own])
      constructor
      · rintro rfl
        exact Option.some.inj (hv.symm.trans hparam)
      · rintro rfl
        have htasks := (hbase.roles.tasks h' v).mpr hv
        exact Option.some.inj (htasks.symm.trans hold)
    have hstays : ∀ v h', act = .run v → h' ≠ h → w.sys.pc v = .wrapper h' ∨
        w.sys.pc v = .wrapperArg h' → s'.pc u = w.sys.pc u := by
      intro v h' hact hne hpc
      refine (Sys.step_others hborn ?_ hstep).pc
      rw [hact]
      exact fun heq => hne ((hcaller v h' hpc).mp (Option.some.inj heq))
    unfold Routine at hroutine ⊢
    rw [hsys, hsame]
    -- what the code of the demo records of this step: nothing, one of the two fields that the
    -- wrapper reads, or the call of the routine
    cases henters with
    | other hpc =>
        rcases hinv.guarded.pc_other hborn (fun hact hframe => hpc u h hact hframe) hstep with
          hpc | ⟨hw, ha⟩
        · rwa [hpc]
        · obtain ⟨hread, hcode⟩ := hroutine.resolve_left hw
          exact .inr ⟨hread, .inr (hcode.resolve_left ha)⟩
    | routine v h' hact hpc =>
        by_cases hh : h' = h
        · obtain rfl : v = u := (hcaller v h' (.inl hpc)).mpr hh
          subst hh hact
          rcases run_goes hstep with hpc' | hnext
          · exact .inl (hpc'.trans hpc)
          · refine .inr ⟨Function.update_self .., .inl ?_⟩
            rw [hpc] at hnext
            generalize s'.pc v = new at hnext
            cases hnext
            rfl
        · rw [hstays v h' hact hh (.inl hpc)]
          simpa [Ne.symm hh] using hroutine
    | arg v h' hact hpc hnot =>
        by_cases hh : h' = h
        · obtain rfl : v = u := (hcaller v h' (.inr hpc)).mpr hh
          subst hh hact
          obtain ⟨hread, -⟩ := hroutine.resolve_left (by simp [hpc])
          refine .inr ⟨hread, ?_⟩
          rcases run_goes hstep with hpc' | hnext
          · exact .inl (hpc'.trans hpc)
          · refine .inr fun hworker => absurd ⟨?_, hread.trans hworker⟩ hnot
            rw [hpc] at hnext
            generalize s'.pc v = new at hnext
            cases hnext
            rfl
        · rwa [hstays v h' hact hh (.inr hpc)]
    | starts v h' hact hpc happ hworker =>
        by_cases hh : h' = h
        · subst hh
          obtain ⟨hread, -⟩ :=
            hroutine.resolve_left (by simp [(hcaller v h' (.inr hpc)).mpr rfl ▸ hpc])
          exact .inr ⟨hread, .inr fun _ => by simp [World.goto]⟩
        · rw [hstays v h' hact hh (.inr hpc)]
          simpa [World.goto, Ne.symm hh] using hroutine
  · refine .inl ?_
    rw [hsys]
    exact new_task hbase (hbase.step hproper hstep) htask hold hstep

/-- A worker has called its routine. -/
theorem Stage.called {counter : BitVec 32} (hstage : Stage P counter h u s pc) :
    s.pc u ≠ .wrapper h ∧ s.pc u ≠ .wrapperArg h := by
  by_cases hdone : pc = .done
  · subst hdone
    constructor <;> intro hpc <;> simp [Stage, hpc, Pc.exits] at hstage
  · simp [hstage.pc_app hdone]

theorem Enters.sys_eq (henters : Enters P w s' act w') :
    w'.sys = s' ∧ w'.gSharedCounter = w.gSharedCounter := by
  cases henters <;> exact ⟨rfl, rfl⟩

/-- The code of the threads after such a step. -/
theorem Enters.code_cases (henters : Enters P w s' act w') :
    w'.code = w.code ∨ ∃ u h, act = .run u ∧ w.sys.pc u = .wrapperArg h ∧ s'.pc u = .app ∧
      w'.code = Function.update w.code h (some (.test 0)) := by
  cases henters with
  | other | routine | arg => exact .inl rfl
  | starts u h hact hpc happ => exact .inr ⟨u, h, hact, hpc, happ, rfl⟩

/-- A step that is not in the code of a worker. -/
theorem WorkerInv.step_sys (hinv : WorkerInv P base low high init first w)
    (hpromise : w.Promise P (.sys act)) (hstep : w.step P sizes (.sys act) = some w') :
    WorkerInv P base low high init first w' := by
  obtain ⟨s', hs', hcalls, henters⟩ := World.step_sys hstep
  obtain ⟨hproper, hlocks⟩ := hpromise
  obtain ⟨hsys, hcounter⟩ := henters.sys_eq
  obtain ⟨nodes, hbase⟩ := hinv.guarded.inv
  have hguarded : Guarded P base low high s' := hinv.guarded.step hproper hlocks hs'
  have hold : ∀ h pc, w.code h = some pc →
      ∃ u, (s'.past h).task = some u ∧ Stage P w.gSharedCounter h u s' pc := by
    intro h pc hcode
    obtain ⟨u, htask, hstage⟩ := hinv.stage h pc hcode
    refine ⟨u, hbase.step_task hproper hs' htask, hstage.step hbase htask (fun c hact => ?_) hs'⟩
    have hnone := hcalls u c hact
    simp [World.codeOf, (hbase.roles.tasks h u).mp htask, hcode] at hnone
  rcases henters.code_cases with hcode | ⟨u, h, hact, hpc, happ, hcode⟩
  · refine ⟨hsys ▸ hguarded, ?_, fun h u hle htask => ?_, ?_⟩
    · rw [hsys, hcounter, hcode]
      exact hold
    · exact hinv.routine_sys hproper hs' henters hsys hle (hsys ▸ htask)
    · simp only [World.increments, hcounter, hcode]
      exact hinv.counter
  · -- a worker enters its code, with no increment made
    have hparam : (w.sys.info u).param = some h := hbase.roles.own u h (by simp [hpc, Pc.own])
    have htask : (w.sys.past h).task = some u := (hbase.roles.tasks h u).mpr hparam
    have hnone : w.code h = none := by
      by_contra hsome
      obtain ⟨pc, hsome⟩ := Option.ne_none_iff_exists'.mp hsome
      obtain ⟨u', htask', hstage⟩ := hinv.stage h pc hsome
      obtain rfl : u = u' := Option.some.inj (htask.symm.trans htask')
      exact hstage.called.2 hpc
    have hview : s'.kern.view = w.sys.kern.view :=
      hinv.guarded.early_kern (.inr hpc) (by rw [hact]; rfl) hs'
    have houtside : Outside P s' u := by
      refine ⟨happ, ?_, fun f hframe => ?_⟩
      · rw [hview]
        exact hinv.guarded.early u h (.inr hpc)
      · have hframe' : w.sys.frame u = some f := by
          have : s'.kern.view.frame u = some f := hframe
          rwa [hview] at this
        cases hbase.sems.calls u f hframe' with
        | app hpc' => simp [hpc] at hpc'
        | join _ _ hpc' => simp [hpc] at hpc'
        | exit _ hpc' => simp [hpc] at hpc'
    refine ⟨hsys ▸ hguarded, fun h' pc' hcode' => ?_, fun h' u' hle htask' => ?_,
      fun workers hworkers => ?_⟩
    · rw [hsys, hcounter]
      by_cases hh : h' = h
      · subst hh
        obtain rfl : .test 0 = pc' := by simpa [hcode] using hcode'
        exact ⟨u, hbase.step_task hproper hs' htask, houtside, Nat.zero_le _⟩
      · exact hold h' pc' (by simpa [hcode, hh] using hcode')
    · exact hinv.routine_sys hproper hs' henters hsys hle (hsys ▸ htask')
    · rw [hcounter, hinv.counter workers fun h' hsome => hworkers h' ?_]
      · have hsum : ∀ h', w'.increments P h' = w.increments P h' := by
          intro h'
          by_cases hh : h' = h
          · subst hh
            simp [World.increments, hcode, hnone, WorkerPc.increments]
          · simp [World.increments, hcode, hh]
        simp only [hsum]
      · by_cases hh : h' = h
        · simp [hcode, hh]
        · simpa [hcode, hh] using hsome

/-! ## Steps of a worker -/

/-- One worker goes on in its code. -/
theorem WorkerInv.advance (hinv : WorkerInv P base low high init first w) {counter : BitVec 32}
    {pc' : WorkerPc} (hcode : w.code h = some pc) (hguarded : Guarded P base low high s')
    (hroutine : ∀ h u, first ≤ h → (s'.past h).task = some u → Routine P { w with sys := s' } h u)
    (htask : (s'.past h).task = some u) (hstage : Stage P counter h u s' pc')
    (hothers : ∀ h' pc, h' ≠ h → w.code h' = some pc →
      ∃ u, (s'.past h').task = some u ∧ Stage P counter h' u s' pc)
    (hcount : counter + BitVec.ofNat 32 (pc.increments (P.config h).iterations) =
      w.gSharedCounter + BitVec.ofNat 32 (pc'.increments (P.config h).iterations)) :
    WorkerInv P base low high init first
      { w with
        sys := s', gSharedCounter := counter, code := Function.update w.code h (some pc') } := by
  refine ⟨hguarded, fun h' pc'' hcode' => ?_, fun h' u' hle htask' => ?_,
    fun workers hworkers => ?_⟩
  · by_cases hh : h' = h
    · subst hh
      obtain rfl : pc' = pc'' := by simpa using hcode'
      exact ⟨u, htask, hstage⟩
    · exact hothers h' pc'' hh (by simpa [hh] using hcode')
  · refine (hroutine h' u' hle htask').imp id fun ⟨hread, hcalled⟩ =>
      ⟨hread, hcalled.imp id fun hsome hworker => ?_⟩
    by_cases hh : h' = h
    · simp [hh]
    · simpa [hh] using hsome hworker
  · have hmem : h ∈ workers := hworkers h (by simp)
    have hold := hinv.counter workers fun h' hsome => hworkers h' (by
      by_cases hh : h' = h
      · simp [hh]
      · simpa [hh] using hsome)
    rw [← Finset.add_sum_erase workers _ hmem] at hold ⊢
    have hrest :
        ∑ h' ∈ workers.erase h, World.increments P
          { w with
            sys := s', gSharedCounter := counter, code := Function.update w.code h (some pc') } h' =
        ∑ h' ∈ workers.erase h, w.increments P h' := by
      refine Finset.sum_congr rfl fun h' hh' => ?_
      simp [World.increments, Finset.ne_of_mem_erase hh']
    rw [hrest]
    simp only [World.increments, hcode, Function.update_self, BitVec.ofNat_add] at hold ⊢
    linear_combination hcount + hold

/-- A step of a worker that calls nothing. -/
theorem WorkerInv.move (hinv : WorkerInv P base low high init first w) (counter : BitVec 32)
    {pc' : WorkerPc} (hcode : w.code h = some pc) (htask : (w.sys.past h).task = some u)
    (hatApp : w.atApp u) (hstage : Stage P counter h u w.sys pc')
    (hothers : ∀ h' u' pc, h' ≠ h → u' ≠ u → Stage P w.gSharedCounter h' u' w.sys pc →
      Stage P counter h' u' w.sys pc)
    (hcount : counter + BitVec.ofNat 32 (pc.increments (P.config h).iterations) =
      w.gSharedCounter + BitVec.ofNat 32 (pc'.increments (P.config h).iterations)) :
    WorkerInv P base low high init first { w.move u h pc' with gSharedCounter := counter } := by
  obtain ⟨nodes, hbase⟩ := hinv.guarded.inv
  simp only [World.atApp, Bool.and_eq_true, Option.isNone_iff_eq_none, decide_eq_true_eq] at hatApp
  obtain ⟨⟨⟨hfault, hrun⟩, hframe⟩, -⟩ := hatApp
  have hsame : ∀ v, w.sys.SameTask (w.sys.switchTo u) v := fun v => ⟨rfl, rfl, rfl, rfl⟩
  have hguarded : Guarded P base low high (w.sys.switchTo u) :=
    ⟨⟨nodes, (Sys.Turn.start hbase hfault hrun hframe).inv⟩, hinv.guarded.mutex, hinv.guarded.early⟩
  refine hinv.advance hcode hguarded hinv.routine htask (hstage.same (hsame u))
    (fun h' pc hh hcode' => ?_) hcount
  obtain ⟨u', htask', hstage'⟩ := hinv.stage h' pc hcode'
  refine ⟨u', htask', (hothers h' u' pc hh (fun heq => hh ?_) hstage').same (hsame u')⟩
  -- a task runs the routine of one thread only
  have hparam : (w.sys.info u').param = some h' := (hbase.roles.tasks h' u').mp htask'
  have hparam' : (w.sys.info u).param = some h := (hbase.roles.tasks h u).mp htask
  rw [heq] at hparam
  exact Option.some.inj (hparam.symm.trans hparam')

/-- A call of a worker. -/
theorem WorkerInv.call (hinv : WorkerInv P base low high init first w) {c : Call α} {pc' : WorkerPc}
    (hcode : w.code h = some pc) (htask : (w.sys.past h).task = some u)
    (hcall : w.call sizes u h c pc' = some w') (hproper : c.Proper w.sys u)
    (hlocks : (Thread.Act.call u c).Locks w.sys)
    (hstage : ∀ s', w.sys.step sizes (.call u c) = some s' → Stage P w.gSharedCounter h u s' pc')
    (hcount : pc.increments (P.config h).iterations = pc'.increments (P.config h).iterations) :
    WorkerInv P base low high init first w' := by
  obtain ⟨nodes, hbase⟩ := hinv.guarded.inv
  obtain ⟨s', hs', rfl⟩ := Option.map_eq_some_iff.mp hcall
  have hproper' : (Thread.Act.call u c).Proper w.sys := hproper
  refine hinv.advance hcode (hinv.guarded.step hproper' hlocks hs') (fun h' u' hle htask' => ?_)
    (hbase.step_task hproper' hs' htask) (hstage s' hs') (fun h' pc hh hcode' => ?_)
    (by rw [hcount])
  · exact hinv.routine_sys hproper' hs' (.other (by simp)) rfl hle htask'
  · obtain ⟨u', htask', hstage'⟩ := hinv.stage h' pc hcode'
    refine ⟨u', hbase.step_task hproper' hs' htask',
      hstage'.step hbase htask' (fun c' hact => hh ?_) hs'⟩
    have hparam : (w.sys.info u').param = some h' := (hbase.roles.tasks h' u').mp htask'
    have hparam' : (w.sys.info u).param = some h := (hbase.roles.tasks h u).mp htask
    cases hact
    exact Option.some.inj (hparam.symm.trans hparam')

/-- The task after it has entered a call for a queue. -/
theorem blocking_view {api : Api α} (hstep : s.step sizes (.call u (.blocking api)) = some s') :
    s'.pc u = .app ∧ ∃ startTick, s'.kern.view = s.kern.view.enter u api startTick := by
  rcases Sys.step_cases hstep with
    ⟨_, _, _, _, ⟨_, h⟩ | ⟨_, _, _, h, _⟩⟩ | ⟨t, c, hact, -, hframe, hpc, -, hbegin⟩ | ⟨_, h, _⟩
  · simp at h
  · simp at h
  · cases hact
    simp only [Sys.begin] at hbegin
    obtain ⟨k, hk, ⟨-, rfl⟩ | ⟨-, rfl⟩⟩ := Sys.kernel_cases hbegin
    all_goals
      refine ⟨hpc, s.kern.xTickCount, ?_⟩
      rw [show Sys.kern _ = k from rfl, State.step_call (k := (s.switchTo u).kern) hframe hk]
      exact State.view_enter ..
  · simp at h

/-- A sleep, or the release of a block, makes no difference to the stage of its caller. -/
theorem local_same {c : Call α} (hc : (∃ n, c = .vTaskDelay n) ∨ ∃ pv, c = .vPortFree pv)
    (hstep : s.step sizes (.call u c) = some s') : s.SameTask s' u := by
  rcases Sys.step_cases hstep with
    ⟨_, _, _, _, ⟨_, h⟩ | ⟨_, _, _, h, _⟩⟩ | ⟨t, c, hact, -, hframe, hpc, -, hbegin⟩ | ⟨_, h, _⟩
  · simp at h
  · simp at h
  · cases hact
    rcases hc with ⟨n, rfl⟩ | ⟨pv, rfl⟩
    · simp only [Sys.begin] at hbegin
      obtain ⟨k, hk, hs'⟩ := Sys.kernel_cases hbegin
      have hkept : k.view.frame u = s.kern.view.frame u ∧
          k.view.locked u = s.kern.view.locked u := by
        have hstepped := State.stepped_step hk
        generalize k.view = v' at hstepped
        cases hstepped <;> exact ⟨rfl, rfl⟩
      rcases hs' with ⟨-, rfl⟩ | ⟨-, rfl⟩ <;> exact ⟨rfl, rfl, hkept.1, hkept.2⟩
    · cases hbegin
      exact Sys.release_elim (motive := fun s' => s.SameTask s' u) (fun _ => ⟨rfl, rfl, rfl, rfl⟩)
        fun _ => ⟨rfl, rfl, rfl, rfl⟩
  · simp at h

theorem exit_stage {value : Ptr} (hstep : s.step sizes (.call u (.pthreadExit value)) = some s') :
    (s'.pc u).exits ∧ (s'.info u).exited = some value := by
  rcases Sys.step_cases hstep with
    ⟨_, _, _, _, ⟨_, h⟩ | ⟨_, _, _, h, _⟩⟩ | ⟨t, c, hact, -, hframe, hpc, -, hbegin⟩ | ⟨_, h, _⟩
  · simp at h
  · simp at h
  · cases hact
    cases hbegin
    simp [Sys.pc, Sys.modInfo, Pc.exits]
  · simp at h

/-- The calls of a worker for the mutex are proper ones. -/
theorem Guarded.proper_mutex (hguarded : Guarded P base low high s)
    (hmutex : (s.kern.view.queue P.gCounterMutex).isMutex) {api : Api α}
    (htarget : api.target = some P.gCounterMutex) :
    (Call.blocking api).Proper s u := by
  obtain ⟨nodes, hinv⟩ := hguarded.inv
  intro q hq
  obtain rfl : P.gCounterMutex = q := Option.some.inj (htarget.symm.trans hq)
  refine ⟨hguarded.mutex.created _ hmutex, ?_⟩
  by_contra howner
  obtain ⟨h, howner⟩ := Option.ne_none_iff_exists'.mp howner
  simp [(hinv.sems.binary h _ howner).2.2.2] at hmutex

/-- A step of a worker. -/
theorem WorkerInv.step_worker (hinv : WorkerInv P base low high init first w)
    (hpromise : w.Promise P (.worker u)) (hstep : w.step P sizes (.worker u) = some w') :
    WorkerInv P base low high init first w' := by
  simp only [World.step] at hstep
  split at hstep
  case isFalse => simp at hstep
  case isTrue hatApp =>
  split at hstep
  case h_2 => simp at hstep
  case h_1 h pc hcodeOf =>
  obtain ⟨nodes, hbase⟩ := hinv.guarded.inv
  have hcode : (w.sys.info u).param = some h ∧ w.code h = some pc := by
    simp only [World.codeOf, Option.bind_eq_some_iff, Option.map_eq_some_iff, Prod.mk.injEq]
      at hcodeOf
    obtain ⟨h', hparam, pc', hcode, rfl, rfl⟩ := hcodeOf
    exact ⟨hparam, hcode⟩
  obtain ⟨hparam, hcode⟩ := hcode
  have htask : (w.sys.past h).task = some u := (hbase.roles.tasks h u).mpr hparam
  have hstage : Stage P w.gSharedCounter h u w.sys pc := by
    obtain ⟨u', htask', hstage⟩ := hinv.stage h pc hcode
    obtain rfl : u = u' := Option.some.inj (htask.symm.trans htask')
    exact hstage
  have hframe : w.sys.frame u = none := by
    simp only [World.atApp, Bool.and_eq_true, Option.isNone_iff_eq_none] at hatApp
    exact hatApp.1.2
  -- one case for each line of the loop body; only `write` changes the counter
  cases pc with
  | test i =>
      obtain ⟨houtside, hi⟩ := hstage
      cases hstep
      refine hinv.move w.gSharedCounter hcode htask hatApp ?_ (fun _ _ _ _ _ h => h) ?_
      · split
        next hlt => exact ⟨houtside, hlt⟩
        next => exact houtside
      · split
        next => rfl
        next hnot =>
          obtain rfl : i = (P.config h).iterations := Nat.le_antisymm hi (Nat.le_of_not_lt hnot)
          rfl
  | lock i =>
      obtain ⟨houtside, hi⟩ := hstage
      have hmutex := hpromise.1 h i hcodeOf
      refine hinv.call hcode htask hstep (hinv.guarded.proper_mutex hmutex rfl) ?_
        (fun s' hs' => ?_) rfl
      · refine ⟨fun q hq => ?_, fun q hq => ?_, by simp [Api.unlocks]⟩
        · obtain rfl : P.gCounterMutex = q := Option.some.inj hq
          exact iff_of_true hmutex (.inl rfl)
        · obtain rfl : P.gCounterMutex = q := Option.some.inj hq
          exact houtside.2.1
      · obtain ⟨hpc, startTick, hview⟩ := blocking_view hs'
        have hframe' : s'.kern.view.frame u = (w.sys.kern.view.enter u _ startTick).frame u :=
          congrArg (fun v => v.frame u) hview
        simp only [View.enter, Api.unlocks, Api.request, Option.map_some, View.setRet,
          View.setFrame, Function.update_self] at hframe'
        exact ⟨hpc, hi, .inl ⟨_, hframe', rfl⟩⟩
  | read i =>
      obtain ⟨-, hi, hcases⟩ := hstage
      -- the call of `pthread_mutex_lock` is over, so the worker holds the mutex
      have hinside : Inside P w.sys u := hcases.resolve_left (by simp [hframe])
      cases hstep
      exact hinv.move w.gSharedCounter hcode htask hatApp ⟨hinside, hi, rfl⟩
        (fun _ _ _ _ _ h => h) rfl
  | sleep i temp =>
      have hnext : Stage P w.gSharedCounter h u w.sys (.write i temp) := hstage
      exact hinv.call hcode htask hstep trivial trivial
        (fun s' hs' => hnext.same (local_same (.inl ⟨_, rfl⟩) hs')) rfl
  | write i temp =>
      obtain ⟨hinside, hi, htemp⟩ := hstage
      cases hstep
      refine hinv.move (temp + 1) hcode htask hatApp ⟨hinside, hi⟩
        (fun h' u' pc hh hu hstage' => ?_) ?_
      · -- no other worker can have read the counter
        have hexclusive : ¬ Inside P w.sys u' := fun hinside' =>
          hu (hinv.guarded.mutex.exclusive hinside'.2.1 hinside.2.1)
        cases pc with
        | sleep i temp | write i temp => exact absurd hstage'.1 hexclusive
        | _ => exact hstage'
      -- the value that was read is still that of the counter, so nothing is lost
      · rw [htemp]
        simp only [WorkerPc.increments, BitVec.ofNat_add]
        rw [add_assoc, add_comm 1]
        rfl
  | unlock i =>
      obtain ⟨hinside, hi⟩ := hstage
      have hmutex := (hinv.guarded.mutex.owned u _ hinside.2.1).1
      refine hinv.call hcode htask hstep (hinv.guarded.proper_mutex hmutex rfl) ?_
        (fun s' hs' => ?_) rfl
      · refine ⟨fun q hq => ?_, by simp [Api.locks], fun q hq => ?_⟩
        · obtain rfl : P.gCounterMutex = q := Option.some.inj hq
          exact iff_of_true hmutex (.inr rfl)
        · obtain rfl : P.gCounterMutex = q := Option.some.inj hq
          exact hinside.2.1
      · obtain ⟨hpc, startTick, hview⟩ := blocking_view hs'
        refine ⟨⟨hpc, ?_, fun f hf => ?_⟩, hi⟩
        · rw [hview]
          simp only [View.enter, Api.unlocks, Api.request, Option.map_some, View.setRet,
            View.setFrame, Function.update_self]
          exact (hinv.guarded.mutex.nodup u).not_mem_erase
        · have hf' : s'.kern.view.frame u = some f := hf
          rw [hview] at hf'
          simp only [View.enter, Api.unlocks, Api.request, Option.map_some, View.setRet,
            View.setFrame, Function.update_self, Option.some.injEq] at hf'
          subst hf'
          rfl
  | pause i =>
      have hnext : Stage P w.gSharedCounter h u w.sys (.next i) := hstage
      exact hinv.call hcode htask hstep trivial trivial
        (fun s' hs' => hnext.same (local_same (.inl ⟨_, rfl⟩) hs')) rfl
  | next i =>
      obtain ⟨houtside, hi⟩ := hstage
      cases hstep
      exact hinv.move w.gSharedCounter hcode htask hatApp ⟨houtside, hi⟩ (fun _ _ _ _ _ h => h) rfl
  | free =>
      have hnext : Stage P w.gSharedCounter h u w.sys .exit := hstage
      exact hinv.call hcode htask hstep (hpromise.2 h hcodeOf) trivial
        (fun s' hs' => hnext.same (local_same (.inr ⟨_, rfl⟩) hs')) rfl
  | exit =>
      refine hinv.call hcode htask hstep (fun hnone => ?_) trivial
        (fun s' hs' => exit_stage hs') rfl
      simp [hparam] at hnone
  | done => simp [World.work] at hstep

theorem WorkerInv.step (hinv : WorkerInv P base low high init first w) {act : WorldAct α}
    (hpromise : w.Promise P act) (hstep : w.step P sizes act = some w') :
    WorkerInv P base low high init first w' := by
  cases act with
  | sys act => exact hinv.step_sys hpromise hstep
  | worker u => exact hinv.step_worker hpromise hstep

/-- A worker that was joined has run to its end. -/
theorem WorkerInv.done (hinv : WorkerInv P base low high init first w) (hle : first ≤ h)
    (hroutine : (w.sys.desc h).startRoutine = P.workerThreadMutex) {value : Option Ptr}
    (huse : (w.sys.past h).use = .joined value) : w.code h = some .done := by
  obtain ⟨nodes, hbase⟩ := hinv.guarded.inv
  obtain ⟨-, -, -, u, v, htask, -⟩ := hbase.joined huse
  have hexits := hbase.joined_exits huse htask
  have hcalled : (w.code h).isSome := by
    rcases hinv.routine h u hle htask with hpc | ⟨-, hpc | hsome⟩
    · simp [hpc, Pc.exits] at hexits
    · simp [hpc, Pc.exits] at hexits
    · exact hsome hroutine
  obtain ⟨pc, hcode⟩ := Option.isSome_iff_exists.mp hcalled
  obtain ⟨u', htask', hstage⟩ := hinv.stage h pc hcode
  obtain rfl : u = u' := Option.some.inj (htask.symm.trans htask')
  by_cases hdone : pc = .done
  · rw [hcode, hdone]
  · simp [hstage.pc_app hdone, Pc.exits] at hexits

theorem WorkerInv.code_lt (hinv : WorkerInv P base low high init first w)
    (hcode : (w.code h).isSome) :
    h < w.sys.nextThread := by
  obtain ⟨nodes, hbase⟩ := hinv.guarded.inv
  obtain ⟨pc, hcode⟩ := Option.isSome_iff_exists.mp hcode
  obtain ⟨u, htask, -⟩ := hinv.stage h pc hcode
  by_contra hge
  simp [((hbase.threads h).unborn (Nat.le_of_not_lt hge)).2.1] at htask

end Invariant

/-! ## The law of the counter -/

section Law

variable {P : Program} {sizes : Sizes} {heap : Heap4} {low high uxPriority stackBytes : Nat}
  {s₀ s : Sys α} {w₀ w : World α}

theorem Guarded.reach (hsound : Sound heap low high)
    (hboot : Sys.boot sizes heap uxPriority stackBytes = some s₀)
    (hreach : Lib.Reach (Sys.step sizes) (fun s act => Act.Proper s act ∧ Act.Locks s act) s₀ s) :
    Guarded P heap.block low high s := by
  refine hreach.invariant _ ⟨⟨[], Sys.boot_inv hsound hboot⟩, Sys.boot_mutex hboot,
    fun u h hpc => ?_⟩ fun _ _ _ hguarded hok hstep => hguarded.step hok.1 hok.2 hstep
  simp [(Sys.boot_blank hboot).1.pc u] at hpc

theorem WorkerInv.reach (hsound : Sound heap low high)
    (hboot : Sys.boot sizes heap uxPriority stackBytes = some s₀)
    (hbefore : Lib.Reach (Sys.step sizes) (fun s act => Act.Proper s act ∧ Act.Locks s act) s₀
      w₀.sys)
    (hfresh : ∀ h, w₀.code h = none)
    (hreach : Lib.Reach (World.step P sizes) (World.Promise P) w₀ w) :
    WorkerInv P heap.block low high w₀.gSharedCounter w₀.sys.nextThread w := by
  have hguarded : Guarded P heap.block low high w₀.sys := .reach hsound hboot hbefore
  refine hreach.invariant _ ⟨hguarded, fun h pc hcode => ?_, fun h u hle htask => ?_, fun _ _ => ?_⟩
    fun _ _ _ hinv hpromise hstep => hinv.step hpromise hstep
  · simp [hfresh h] at hcode
  · obtain ⟨nodes, hbase⟩ := hguarded.inv
    simp [((hbase.threads h).unborn hle).2.1] at htask
  · simp [World.increments, hfresh]

/-- When all workers have been joined, the counter has grown by the sum of their
iterations, and every join has got the identifier of its worker. -/
theorem worker_counter (hsound : Sound heap low high)
    (hboot : Sys.boot sizes heap uxPriority stackBytes = some s₀)
    (hbefore : Lib.Reach (Sys.step sizes) (fun s act => Act.Proper s act ∧ Act.Locks s act) s₀
      w₀.sys)
    (hfresh : ∀ h, w₀.code h = none)
    (hreach : Lib.Reach (World.step P sizes) (World.Promise P) w₀ w) (workers : Finset ThreadId)
    (hcreated : ∀ h ∈ workers, w₀.sys.nextThread ≤ h ∧
      (w.sys.desc h).startRoutine = P.workerThreadMutex)
    (hjoined : ∀ h ∈ workers, ∃ value, (w.sys.past h).use = .joined value)
    (hall : ∀ h, (w.code h).isSome → h ∈ workers) :
    w.gSharedCounter = w₀.gSharedCounter +
      BitVec.ofNat 32 (∑ h ∈ workers, (P.config h).iterations) ∧
    (w₀.gSharedCounter.toInt + ∑ h ∈ workers, (P.config h).iterations < 2 ^ 31 →
      w.gSharedCounter.toInt = w₀.gSharedCounter.toInt + ∑ h ∈ workers, (P.config h).iterations) ∧
    ∀ h ∈ workers, ∀ value, (w.sys.past h).use = .joined (some value) →
      BitVec.ofNat 32 value = (P.config h).threadId := by
  have hinv := WorkerInv.reach hsound hboot hbefore hfresh hreach
  have hdone : ∀ h ∈ workers, w.code h = some .done := fun h hmem =>
    let ⟨_, huse⟩ := hjoined h hmem
    hinv.done (hcreated h hmem).1 (hcreated h hmem).2 huse
  have hcounter := hinv.counter workers hall
  rw [Finset.sum_congr rfl fun h hmem => show w.increments P h = (P.config h).iterations by
    simp [World.increments, hdone h hmem, WorkerPc.increments]] at hcounter
  refine ⟨hcounter, fun hfits => ?_, fun h hmem value huse => ?_⟩
  · rw [hcounter]
    have hlow := BitVec.le_toInt w₀.gSharedCounter
    generalize ∑ h ∈ workers, (P.config h).iterations = sum at hfits ⊢
    rw [BitVec.toInt_add, BitVec.toInt_ofNat', Int.add_bmod_bmod]
    apply Int.bmod_eq_of_le <;> omega
  · obtain ⟨nodes, hbase⟩ := hinv.guarded.inv
    obtain ⟨-, -, -, u, v, htask, hexited, hvalue⟩ := hbase.joined huse
    obtain ⟨u', htask', hstage⟩ := hinv.stage h _ (hdone h hmem)
    obtain rfl : u = u' := Option.some.inj (htask.symm.trans htask')
    have hv : v = ptrOfInt (P.config h).threadId := Option.some.inj (hexited.symm.trans hstage.2)
    rw [hvalue value rfl, hv]
    simp [ptrOfInt]

/-- Two workers with one and two iterations, on a mutex that the main task has initialised. -/
def workerProgram : Program := ⟨1, 0, fun h => if h = 0 then ⟨7, 1⟩ else ⟨8, 2⟩⟩

def workerSetup : List (Thread.Act Unit) :=
  [.call 1 (.newQueue .mutex), .call 1 (.pvPortMalloc 8), .call 1 (.pvPortMalloc 8)]

/-- Several steps of one kind after the other. -/
def turns (n : Nat) (act : WorldAct Unit) : List (WorldAct Unit) := List.replicate n act

/-- The two workers step in turn until the second one has to wait for the mutex that the first one
holds while it sleeps. -/
def interleaving : List (WorldAct Unit) :=
  [.sys (.run 2), .sys (.run 3), .sys (.run 2), .sys (.run 3), .worker 2, .worker 3, .worker 2,
    .worker 3, .sys (.run 2), .sys (.run 3), .sys (.run 2), .sys (.run 3), .sys (.run 2)] ++
  turns 9 (.sys (.run 3)) ++ turns 2 (.worker 2) ++ turns 50 (.sys .tick) ++ turns 2 (.worker 2) ++
  [.sys (.run 2), .sys (.run 2), .sys (.run 3), .sys (.run 2), .sys (.run 3), .worker 2] ++
  turns 2 (.worker 3) ++ turns 10 (.sys .tick) ++ turns 4 (.worker 2) ++ turns 9 (.sys (.run 2)) ++
  turns 40 (.sys .tick)

/-- The second worker goes on alone from the write of its first iteration. -/
def secondWorker : List (WorldAct Unit) :=
  turns 2 (.worker 3) ++ turns 3 (.sys (.run 3)) ++ [.worker 3] ++ turns 10 (.sys .tick) ++
  turns 3 (.worker 3) ++ turns 3 (.sys (.run 3)) ++ turns 2 (.worker 3) ++ turns 50 (.sys .tick) ++
  turns 2 (.worker 3) ++ turns 3 (.sys (.run 3)) ++ [.worker 3] ++ turns 10 (.sys .tick) ++
  turns 4 (.worker 3) ++ turns 9 (.sys (.run 3))

/-- The main task creates the workers, and joins them when they have run. -/
def workerSchedule : List (WorldAct Unit) :=
  [.sys (.call 1 (.pthreadCreate true 1 536871520))] ++ turns 14 (.sys (.run 1)) ++
  [.sys (.call 1 (.pthreadCreate true 1 536871536))] ++ turns 14 (.sys (.run 1)) ++
  interleaving ++ secondWorker ++
  [.sys (.call 1 (.pthreadJoin (some 0) true))] ++ turns 10 (.sys (.run 1)) ++
  [.sys (.call 1 (.pthreadJoin (some 1) true))] ++ turns 10 (.sys (.run 1))

/-- The main task makes no call for a mutex. -/
def checkAct (s : Sys Unit) (act : Thread.Act Unit) : Bool :=
  decide (act.Proper s) && match act with
    | .call _ (.blocking _) => false
    | _ => true

def checkWorld (w : World Unit) : WorldAct Unit → Bool
  | .sys act => checkAct w.sys act
  | .worker u =>
      (w.sys.kern.queue workerProgram.gCounterMutex).isMutex && match w.codeOf u with
        | some (h, .free) => w.sys.blocks (w.arg h)
        | _ => true

theorem checkAct_ok (s : Sys Unit) (act : Thread.Act Unit) (hcheck : checkAct s act = true) :
    Act.Proper s act ∧ Act.Locks s act := by
  simp only [checkAct, Bool.and_eq_true, decide_eq_true_eq] at hcheck
  refine ⟨hcheck.1, ?_⟩
  unfold Act.Locks
  split
  · simp at hcheck
  · trivial

theorem checkWorld_ok (w : World Unit) (act : WorldAct Unit) (hcheck : checkWorld w act = true) :
    w.Promise workerProgram act := by
  cases act with
  | sys act => exact checkAct_ok w.sys act hcheck
  | worker u =>
      simp only [checkWorld, Bool.and_eq_true] at hcheck
      refine ⟨fun _ _ _ => hcheck.1, fun h hcode => ?_⟩
      rw [hcode] at hcheck
      exact hcheck.2

def workerStart (s : Sys Unit) : World Unit := ⟨s, 5, fun _ => 0, fun _ => 0, fun _ => none⟩

theorem worker_counter_schedule :
    ∃ (s : Sys Unit) (w : World Unit), demoRun checkAct workerSetup = some s ∧
      Lib.execute (World.step workerProgram demoSizes) checkWorld (workerStart s) workerSchedule =
        some w ∧
      w.gSharedCounter.toInt = 5 + 3 ∧
      (∀ value, (w.sys.past 0).use = .joined (some value) → BitVec.ofNat 32 value = 7) ∧
      ∀ value, (w.sys.past 1).use = .joined (some value) → BitVec.ofNat 32 value = 8 := by
  have hrun : ((demoRun checkAct workerSetup).bind fun s =>
      (Lib.execute (World.step workerProgram demoSizes) checkWorld (workerStart s)
        workerSchedule).map fun w =>
          decide (s.nextThread = 0 ∧ w.sys.nextThread = 2 ∧
            ((w.sys.desc 0).startRoutine = 1 ∧ (w.sys.past 0).use = .joined (some 7)) ∧
            (w.sys.desc 1).startRoutine = 1 ∧ (w.sys.past 1).use = .joined (some 8))) =
      some true := by
    decide +kernel
  obtain ⟨s, hs, hrest⟩ := Option.bind_eq_some_iff.mp hrun
  obtain ⟨w, hw, hvalues⟩ := Option.map_eq_some_iff.mp hrest
  obtain ⟨hnext, hthreads, ⟨hroutine, huse⟩, hroutine', huse'⟩ := of_decide_eq_true hvalues
  obtain ⟨s₀, hboot, hbefore⟩ := demoRun_reach checkAct_ok hs
  obtain ⟨low, high, hsound⟩ := demoHeap_sound
  have hreach := Lib.execute_reach checkWorld_ok workerSchedule hw
  have hinv := WorkerInv.reach hsound hboot hbefore (fun _ => rfl) hreach
  have hmain := worker_counter hsound hboot hbefore (fun _ => rfl) hreach {0, 1}
    (fun h hmem => by
      rcases Finset.mem_insert.mp hmem with rfl | hmem
      · exact ⟨hnext.le, hroutine⟩
      · obtain rfl := Finset.mem_singleton.mp hmem
        exact ⟨hnext.le.trans (Nat.zero_le 1), hroutine'⟩)
    (fun h hmem => by
      rcases Finset.mem_insert.mp hmem with rfl | hmem
      · exact ⟨_, huse⟩
      · obtain rfl := Finset.mem_singleton.mp hmem
        exact ⟨_, huse'⟩)
    (fun h hcode => by
      have hlt := hinv.code_lt hcode
      rw [hthreads] at hlt
      rw [Finset.mem_insert, Finset.mem_singleton]
      exact Nat.le_one_iff_eq_zero_or_eq_one.mp (Nat.le_of_lt_succ hlt))
  obtain ⟨-, hcounter, hvalue⟩ := hmain
  have hsum : ∑ h ∈ ({0, 1} : Finset ThreadId), (workerProgram.config h).iterations = 3 := by
    decide
  rw [hsum] at hcounter
  simp only [workerStart] at hcounter
  exact ⟨s, w, hs, hw, hcounter (by decide), hvalue 0 (by simp), hvalue 1 (by simp)⟩

end Law

end SimulatedLinux.Demo
