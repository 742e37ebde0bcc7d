import SimulatedLinux.Kernel.Mutex
import SimulatedLinux.Thread.Project
import SimulatedLinux.Thread.Reachable

/-! # Mutexes under the thread layer

The semaphores of the shim are no mutexes, so what the application promises about its
own calls is enough for the law of mutexes.
-/

namespace SimulatedLinux.Thread

open Kernel Heap

variable {α : Type}

/-- A call of the application keeps to the rules of mutexes. -/
def Act.Locks (s : Sys α) : Act α → Prop
  | .call t (.blocking api) => api.Locks s.kern t
  | _ => True

namespace Sys

variable {s s' : Sys α} {t u : TaskId} {nodes : List ThreadId} {base : Nat → Option Nat}
  {low high : Nat} {sizes : Sizes} {act : Act α}

/-- Every kernel call behind a step keeps to the rules of mutexes. -/
theorem Inv.asks_locks (hinv : s.Inv base low high nodes) (hlocks : act.Locks s) {a : Kernel.Act α}
    (hasks : act.Asks s a) (c : TaskId) (api : Api α) (ha : a = .call c api) :
    api.Locks s.kern c := by
  -- a semaphore of the shim is not a mutex, and its two calls neither lock nor unlock
  have hshim : ∀ h q, (s.desc h).joinSem = some q → (s.kern.queue q).isMutex = false :=
    fun h q hsem => (hinv.sems.binary h q (hinv.sems.owner h q hsem)).2.2.2
  subst ha
  cases hasks with
  | call t c a _ hasks =>
      cases c with
      | blocking api' =>
          cases hasks
          exact hlocks
      | _ => simp [Call.asks] at hasks
  | shim t a _ hasks =>
      generalize s.pc t = pc at hasks
      cases hasks with
      | take h retval q hsem =>
          refine ⟨fun p hp => ?_, by simp [Api.locks], by simp [Api.unlocks]⟩
          obtain rfl : q = p := by simpa [Api.target, Api.request] using hp
          simp [hshim h q hsem, Api.mutexUse, Api.locks, Api.unlocks]
      | give h q hsem =>
          refine ⟨fun p hp => ?_, by simp [Api.locks], by simp [Api.unlocks]⟩
          obtain rfl : q = p := by simpa [Api.target, Api.request] using hp
          simp [hshim h q hsem, Api.mutexUse, Api.locks, Api.unlocks]

/-- The law of mutexes holds below the thread layer. -/
theorem Inv.step_mutex (hinv : s.Inv base low high nodes) (hmutex : MutexInv s.kern.view)
    (hlocks : act.Locks s) (hstep : s.step sizes act = some s') : MutexInv s'.kern.view := by
  rcases step_kern hstep with ⟨t, -, hswitch⟩ | ⟨a, hasks, hk⟩
  · rw [hswitch]
    exact hmutex
  · exact hmutex.step hinv.core.kernel hinv.core.calls (hinv.asks_locks hlocks hasks) hk

theorem boot_mutex {heap : Heap4} {uxPriority stackBytes : Nat}
    (hboot : Sys.boot sizes heap uxPriority stackBytes = some s) : MutexInv s.kern.view := by
  rw [(boot_blank hboot).1.kern]
  exact .boot uxPriority

/-! ## What a step leaves to the other tasks -/

/-- What one task sees of its own progress. -/
structure SameTask (s s' : Sys α) (u : TaskId) : Prop where
  pc : s'.pc u = s.pc u
  exited : (s'.info u).exited = (s.info u).exited
  frame : s'.frame u = s.frame u
  locked : s'.kern.view.locked u = s.kern.view.locked u

/-- A step of another task. -/
theorem step_others (hborn : u < s.kern.view.nextTask) (hne : act.task ≠ some u)
    (hstep : s.step sizes act = some s') : SameTask s s' u := by
  have hpc : s'.pc u = s.pc u ∧ (s'.info u).exited = (s.info u).exited := by
    cases step_effect hstep with
    | kernel a k _ hnext =>
        subst hnext
        exact ⟨rfl, rfl⟩
    | call t c hact _ _ _ _ _ hlocal =>
        have hut : u ≠ t := fun heq => hne (by rw [hact, heq]; rfl)
        exact ⟨hlocal.pc_ne hut, by rw [hlocal.info u hut]⟩
    | run t hact _ _ _ heffect =>
        have hut : u ≠ t := fun heq => hne (by rw [hact, heq]; rfl)
        obtain ⟨fresh, htouches, hspawns⟩ := heffect
        exact htouches.pc u hut fun heq => Nat.ne_of_lt hborn (hspawns u heq).1
  have hkern : s'.kern.view.frame u = s.kern.view.frame u ∧
      s'.kern.view.locked u = s.kern.view.locked u := by
    rcases step_kern hstep with ⟨t, -, hswitch⟩ | ⟨a, hasks, hk⟩
    · rw [hswitch]
      exact ⟨rfl, rfl⟩
    · exact (State.stepped_step hk).others (hasks.actor ▸ hne) hborn
  exact ⟨hpc.1, hpc.2, hkern.1, hkern.2⟩

/-- The task of a thread stays its task. -/
theorem Inv.step_task (hinv : s.Inv base low high nodes) (hproper : act.Proper s)
    (hstep : s.step sizes act = some s') {h : ThreadId} (htask : (s.past h).task = some u) :
    (s'.past h).task = some u := by
  obtain ⟨t, i, fresh, htouches, hspawns⟩ := (step_effect hstep).touches
  have hparam : (s.info u).param = some h := (hinv.roles.tasks h u).mp htask
  have hfresh : fresh ≠ some u := by
    intro heq
    have hnone := (hinv.tasks.unborn u (Nat.le_of_eq (hspawns u heq).1.symm)).2
    simp [hparam] at hnone
  exact ((hinv.step hproper hstep).roles.tasks h u).mpr
    ((htouches.info u hfresh).2.2.1.trans hparam)

end Sys

end SimulatedLinux.Thread
