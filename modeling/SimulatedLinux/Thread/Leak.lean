import SimulatedLinux.Thread.Census
import SimulatedLinux.Thread.Footprint
import SimulatedLinux.Thread.Next
import SimulatedLinux.Thread.Reclaim

/-! # Threads leave nothing behind

A run that starts in any reachable state and creates any number of threads. When all of
them have ended and the idle task has freed them, the registry, the number of tasks and
the heap are as they were.

The state before the first creation is kept as `old`. What it owned keeps its memory,
and everything else that owns memory belongs to one of the new threads.
-/

namespace SimulatedLinux.Thread

open Kernel Heap

variable {α : Type}

/-- A step from this program point allocates, frees, links and unlinks only for threads
and tasks created after `old`. -/
def Pc.Confined (old : Sys α) : Pc → Prop
  | create h .semaphore | create h (.task _) | create h .addThread
  | join h _ (.removeThread _) | join h _ (.deleteSem _ _) | join h _ (.free _)
  | exit (.removeThread h) | exit (.deleteSem h _) | exit (.free h) => old.nextThread ≤ h
  | freeStack u | freeTcb u => old.kern.nextTask ≤ u
  | task _ => False
  | _ => True

/-- The application itself allocates and frees nothing. -/
def Call.Confined : Call α → Prop
  | .newQueue _ | .deleteQueue _ | .pvPortMalloc _ | .vPortFree _ => False
  | _ => True

/-- Nothing but the threads created after `old` allocates or frees memory, and these are
detached before their `pthread_exit` tests the flag. -/
def Act.Confined (old s : Sys α) : Act α → Prop
  | .tick => True
  | .call _ c => c.Confined
  | .run t => s.frame t = none → (s.pc t).Confined old ∧
      ∀ h, (s.pc t).detaches = some h → old.nextThread ≤ h → (s.body h).untested

instance (old : Sys α) (pc : Pc) : Decidable (pc.Confined old) := by
  unfold Pc.Confined
  split <;> infer_instance

instance (c : Call α) : Decidable c.Confined := by
  unfold Call.Confined
  split <;> infer_instance

instance (old s : Sys α) (act : Act α) : Decidable (act.Confined old s) :=
  match act with
  | .tick => .isTrue trivial
  | .call _ c => inferInstanceAs (Decidable c.Confined)
  | .run _ => inferInstanceAs (Decidable (_ → _))

namespace Sys

variable {s s' old : Sys α} {t u : TaskId} {nodes : List ThreadId} {base : Nat → Option Nat}
  {low high : Nat} {sizes : Sizes} {act : Act α}

/-! ## The memory of a task that is being created -/

/-- Only `xTaskCreate` holds memory for a task that does not exist yet. -/
theorem advance_memory (hstep : s.advance sizes t (s.pc t) = some s') :
    (s'.pc t).memory = (none, none) ∨ (∃ pc, s.pc t = .task pc) ∨
      ∃ i pc pc', s.pc t = .create i (.task pc) ∧ s'.pc t = .create i (.task pc') := by
  have htask : ∀ pc : Pc, pc.memory = (none, none) ∨ (∃ p, pc = .task p) ∨
      ∃ i p, pc = .create i (.task p) := by
    intro pc
    cases pc with
    | task p => exact .inr (.inl ⟨p, rfl⟩)
    | create i pc =>
        cases pc with
        | task p => exact .inr (.inr ⟨i, p, rfl⟩)
        | _ => exact .inl rfl
    | _ => exact .inl rfl
  rcases advance_goes hstep with hsame | hnext
  · rw [hsame]
    rcases htask (s.pc t) with hnone | hpc | ⟨i, p, hpc⟩
    · exact .inl hnone
    · exact .inr (.inl hpc)
    · exact .inr (.inr ⟨i, p, p, hpc, hpc⟩)
  · generalize s.pc t = pc, s'.pc t = pc' at hnext ⊢
    cases hnext with
    | create i p p' hnext =>
        cases hnext with
        | task p p' => exact .inr (.inr ⟨i, p, p', rfl, rfl⟩)
        | _ => exact .inl rfl
    | task p p' => exact .inr (.inl ⟨p, rfl⟩)
    | _ => exact .inl rfl

/-- A call of the application holds no memory yet. -/
theorem begin_memory {c : Call α} (hpc : s.pc t = .app) (hstep : s.begin sizes t c = some s') :
    (s'.pc t).memory = (none, none) := by
  have hbegins := begin_begins hpc hstep
  generalize s'.pc t = pc at hbegins
  cases hbegins <;> rfl

/-! ## What is old and what is new -/

/-- The object belongs to a thread or a task created after `old`. -/
def New (s old : Sys α) : Owner → Prop
  | .desc h => old.nextThread ≤ h
  | .queue q => ∃ h, old.nextThread ≤ h ∧ s.semOwner q = some h
  | .stack u | .tcb u => old.kern.nextTask ≤ u
  | .newStack c | .newTcb c => ∃ h pc, old.nextThread ≤ h ∧ s.pc c = .create h (.task pc)
  | .block _ => False

/-- What has become of the state `old`, whose registry had the nodes `before`. -/
structure Since (old s : Sys α) (before nodes : List ThreadId) : Prop where
  threads : old.nextThread ≤ s.nextThread
  queues : old.kern.nextQueue ≤ s.kern.nextQueue
  born : old.kern.nextTask ≤ s.kern.nextTask
  kept : ∀ o a, old.owned o = some a → s.owned o = some a ∧ s.heap.block a = old.heap.block a
  new : ∀ o a, s.owned o = some a → old.owned o = some a ∨ s.New old o
  /-- A creation or a deletion that was in progress stays where it was. -/
  stuck : ∀ c, (old.pc c).memory ≠ (none, none) ∨ (old.pc c).frees ≠ none → s.pc c = old.pc c
  semOwner : ∀ q, q < old.kern.nextQueue → s.semOwner q = old.semOwner q
  tasks : ∀ u, old.kern.nextTask ≤ u → u < s.kern.nextTask →
    ∃ h, old.nextThread ≤ h ∧ (s.past h).task = some u
  nodes : nodes.filter (· < old.nextThread) = before
  seen : ∀ h, old.nextThread ≤ h → s.DetachSeen h

namespace Inv

variable (hinv : s.Inv base low high nodes)
include hinv

theorem desc_lt {h : ThreadId} {a : Nat} (howned : s.owned (.desc h) = some a) :
    h < s.nextThread := by
  by_contra hge
  simp [owned, ((hinv.threads h).unborn (Nat.le_of_not_lt hge)).2.2.1] at howned

theorem queue_lt {q : QueueId} {a : Nat} (howned : s.owned (.queue q) = some a) :
    q < s.kern.nextQueue := by
  by_contra hge
  simp [owned, hinv.core.kernel.wait.window.unborn q (Nat.le_of_not_lt hge)] at howned

theorem stack_lt {a : Nat} (howned : s.owned (.stack u) = some a) : u < s.kern.nextTask := by
  have hlive : (s.info u).stackLive := by
    by_contra hno
    simp [owned, hno] at howned
  exact ((hinv.tasks.stack u).mp hlive).1

theorem tcb_lt {a : Nat} (howned : s.owned (.tcb u) = some a) : u < s.kern.nextTask := by
  have hlive : (s.info u).tcbLive := by
    by_contra hno
    simp [owned, hno] at howned
  exact ((hinv.tasks.tcb u).mp hlive).1

theorem creating_lt {c : TaskId} {h : ThreadId} {pc : CreatePc} (hpc : s.pc c = .create h pc)
    (hadded : pc.added = false) : h < s.nextThread := by
  by_contra hge
  have hcreator := (hinv.roles.creates h c).mpr (by simp [hpc, Pc.creates, hadded])
  simp [((hinv.threads h).unborn (Nat.le_of_not_lt hge)).1] at hcreator

theorem owner_lt {q : QueueId} {h : ThreadId} (howner : s.semOwner q = some h) :
    h < s.nextThread := by
  rcases hinv.sems.maker h q howner with hsem | ⟨c, hpc⟩
  · by_contra hge
    simp [((hinv.threads h).unborn (Nat.le_of_not_lt hge)).2.2.2] at hsem
  · exact hinv.creating_lt hpc rfl

theorem task_lt {h : ThreadId} (htask : (s.past h).task = some u) : h < s.nextThread := by
  by_contra hge
  simp [((hinv.threads h).unborn (Nat.le_of_not_lt hge)).2.1] at htask

theorem born_of_pc (hpc : s.pc u ≠ .app) : u < s.kern.nextTask := by
  by_contra hge
  exact hpc (hinv.tasks.unborn u (Nat.le_of_not_lt hge)).1

/-- A creation or a deletion in progress can only go on with what it has begun. -/
theorem not_confined {c : TaskId} (hpc : (s.pc c).memory ≠ (none, none) ∨ (s.pc c).frees ≠ none) :
    ¬ (s.pc c).Confined s := by
  intro hconfined
  cases hc : s.pc c with
  | create h pc =>
      cases pc with
      | task pc =>
          rw [hc] at hconfined
          exact Nat.not_lt.mpr hconfined (hinv.creating_lt hc rfl)
      | _ => simp [hc, Pc.memory, Pc.frees] at hpc
  | task pc => simp [hc, Pc.Confined] at hconfined
  | freeStack w | freeTcb w =>
      rw [hc] at hconfined
      exact Nat.not_lt.mpr hconfined (hinv.tasks.frees c w (by rw [hc]; rfl)).2.1
  | _ => simp [hc, Pc.memory, Pc.frees] at hpc

theorem since_self : Since s s nodes nodes where
  threads := Nat.le_refl _
  queues := Nat.le_refl _
  born := Nat.le_refl _
  kept := fun _ _ ho => ⟨ho, rfl⟩
  new := fun _ _ ho => .inl ho
  stuck := fun _ _ => rfl
  semOwner := fun _ _ => rfl
  tasks := fun u hle hlt => absurd hlt (Nat.not_lt.mpr hle)
  nodes := by
    refine List.filter_eq_self.mpr fun h hmem => decide_eq_true ?_
    by_contra hge
    exact ((hinv.threads h).fresh fun hmade => hge hmade.1).2.2.2.2.2 hmem
  seen := fun h hle u huse => by
    have hfresh := (hinv.threads h).fresh fun hmade => Nat.not_lt.mpr hle hmade.1
    simp [hfresh.1] at huse

end Inv

section Step

variable {before : List ThreadId} (hold : old.Inv base low high before)
  (hinv : s.Inv base low high nodes) (hsince : Since old s before nodes)
  (hconfined : act.Confined old s) (hstep : s.step sizes act = some s')
include hold hinv hsince hconfined hstep

/-- A task whose creation or deletion was in progress does not run. -/
theorem Since.stays {c : TaskId}
    (hpc : (old.pc c).memory ≠ (none, none) ∨ (old.pc c).frees ≠ none) :
    s'.pc c = old.pc c := by
  have hsame := hsince.stuck c hpc
  have happ : old.pc c ≠ .app := fun heq => by simp [heq, Pc.memory, Pc.frees] at hpc
  have hborn : c < old.kern.nextTask := hold.born_of_pc happ
  rw [← hsame] at happ
  rw [← hsame]
  cases step_effect hstep with
  | kernel a k _ hnext =>
      subst hnext
      rfl
  | call t d _ _ _ happ' _ _ hlocal =>
      refine hlocal.pc_ne ?_
      rintro rfl
      exact happ happ'
  | run t hact hrun hframe _ heffect =>
      have hne : c ≠ t := by
        rintro rfl
        rw [hact] at hconfined
        have hpc' := (hconfined hframe).1
        rw [hsame] at hpc'
        exact hold.not_confined hpc hpc'
      rcases heffect.pc_cases (hinv.core.kernel.wait.spawned hrun) hne with hsame | ⟨heq, -⟩
      · exact hsame
      · have hlt := Nat.lt_of_lt_of_le hborn hsince.born
        exact absurd hlt (by rw [heq]; exact Nat.lt_irrefl _)

/-- No step touches what was owned before. -/
theorem Since.not_footprint {o : Owner} {a : Nat} (howned : old.owned o = some a) :
    ¬ act.footprint s o := by
  intro hfoot
  have howned' := (hsince.kept o a howned).1
  cases step_effect hstep with
  | kernel b k _ _ hact =>
      rcases hact with ⟨-, rfl⟩ | ⟨t, f, -, rfl, hframe⟩
      · exact hfoot
      · have hnone : s.frame t = none := hfoot.1
        simp [hframe] at hnone
  | call t c hact _ _ hpc =>
      subst hact
      cases o with
      | queue q => cases c <;> first | exact hfoot | exact hconfined
      | block pv => cases c <;> first | exact hfoot | exact hconfined
      | newStack d | newTcb d =>
          obtain rfl : d = t := hfoot
          simp [owned, hpc, Pc.memory] at howned'
      | _ => exact hfoot
  | run t hact _ hframe =>
      subst hact
      have hpc := (hconfined hframe).1
      have hfoot := hfoot.2
      -- an object with a number is either new, and its number is not below the old bound, or it
      -- belongs to a thread of the new part
      cases o with
      | desc h =>
          have hlt := hold.desc_lt howned
          simp only [Pc.footprint] at hfoot
          split at hfoot
          next => exact Nat.not_lt.mpr hsince.threads (hfoot ▸ hlt)
          next hat =>
            rw [hat] at hpc
            exact Nat.not_lt.mpr hpc (hfoot ▸ hlt)
          next hat =>
            rw [hat] at hpc
            exact Nat.not_lt.mpr hpc (hfoot ▸ hlt)
          next => exact hfoot
      | queue q =>
          have hlt := hold.queue_lt howned
          have howner : ∀ h, (s.pc t).reads = some (h, q) → h < old.nextThread := by
            intro h hreads
            have howner := hinv.sems.owner h q (hinv.sems.reads t h q hreads)
            rw [hsince.semOwner q hlt] at howner
            exact hold.owner_lt howner
          simp only [Pc.footprint] at hfoot
          split at hfoot
          next => exact Nat.not_lt.mpr hsince.queues (hfoot ▸ hlt)
          next hat =>
            subst hfoot
            rw [hat] at hpc
            exact Nat.not_lt.mpr hpc (howner _ (by rw [hat]; rfl))
          next hat =>
            subst hfoot
            rw [hat] at hpc
            exact Nat.not_lt.mpr hpc (howner _ (by rw [hat]; rfl))
          next => exact hfoot
      | stack u | tcb u =>
          have hlt : u < old.kern.nextTask := by
            first | exact hold.stack_lt howned | exact hold.tcb_lt howned
          simp only [Pc.footprint] at hfoot
          split at hfoot
          next => exact Nat.not_lt.mpr hsince.born (hfoot ▸ hlt)
          next => exact Nat.not_lt.mpr hsince.born (hfoot ▸ hlt)
          next hat =>
            rw [hat] at hpc
            exact Nat.not_lt.mpr hpc (hfoot ▸ hlt)
          next hat =>
            rw [hat] at hpc
            exact Nat.not_lt.mpr hpc (hfoot ▸ hlt)
          next => exact hfoot
      | newStack c | newTcb c =>
          have hmem : (old.pc c).memory ≠ (none, none) := fun heq => by simp [owned, heq] at howned
          -- what is in the registers of a task was made by that task, and a task that held
          -- something before does not move
          rcases hfoot with rfl | rfl
          · rw [hsince.stuck c (.inl hmem)] at hpc
            exact hold.not_confined (.inl hmem) hpc
          · have hborn : s.kern.nextTask < old.kern.nextTask :=
              hold.born_of_pc fun heq => hmem (by rw [heq]; rfl)
            exact Nat.not_lt.mpr hsince.born hborn
      | block pv => exact hfoot

omit hold hsince hconfined in
/-- The semaphore that `pthread_create` makes belongs to its thread. -/
theorem Inv.semaphore_owner {h : ThreadId} {a : Nat} (hact : act = .run t)
    (hframe : s.frame t = none) (hpc : s.pc t = .create h .semaphore)
    (howned : s'.owned (.queue s.kern.nextQueue) = some a) :
    s'.semOwner s.kern.nextQueue = some h := by
  have hdead : (s.kern.view.queue s.kern.nextQueue).live = false :=
    hinv.core.kernel.wait.window.unborn _ (Nat.le_refl _)
  subst hact
  rcases step_cases hstep with ⟨b, k, -, -, ⟨-, hact⟩ | ⟨u, f, -, hact, hsome⟩⟩ | ⟨u, c, hact, -⟩ |
    ⟨u, hact, hrun, -, hadvance⟩
  · simp at hact
  · cases hact
    simp [hframe] at hsome
  · simp at hact
  · cases hact
    rw [hpc] at hadvance
    simp only [advance, create] at hadvance
    split at hadvance
    · cases hadvance
      simp [owned, hdead, halt, Sys.switchTo] at howned
    · obtain ⟨k, hk, ⟨-, rfl⟩ | ⟨hfault, rfl⟩⟩ := kernel_cases hadvance
      · simp [goto, modInfo, Sys.switchTo, State.switchTo]
      · have hnone : (s.kern.switchTo t).fault = none := by
          simp only [State.canRun, Bool.and_eq_true, Option.isNone_iff_eq_none] at hrun
          exact hrun.1
        have hstepped := State.stepped_step hk
        generalize hv : k.view = v at hstepped
        cases hstepped with
        | scheduled _ hact => simp [Kernel.Act.schedules] at hact
        | asserted =>
            simp only [owned, hv] at howned
            simp [Sys.switchTo, hdead] at howned
        | created _ _ Q =>
            have hfault' : k.fault = none := (congrArg View.fault hv).trans hnone
            exact absurd hfault' hfault

omit hold in
/-- What a step gives memory to is new. -/
theorem Since.gains {o : Owner} {a : Nat} (howned : s'.owned o = some a)
    (hfoot : act.footprint s o) :
    s'.New old o := by
  have hkeeps := (step_footprint hstep).keeps
  cases step_effect hstep with
  | kernel b k _ _ hact =>
      rcases hact with ⟨-, rfl⟩ | ⟨t, f, -, rfl, hframe⟩
      · exact hfoot.elim
      · have hnone : s.frame t = none := hfoot.1
        simp [hframe] at hnone
  | call t c hact _ _ hpc _ hbegin =>
      subst hact
      cases o with
      | queue q => cases c <;> first | exact hfoot.elim | exact hconfined.elim
      | block pv => cases c <;> first | exact hfoot.elim | exact hconfined.elim
      | newStack d | newTcb d =>
          obtain rfl : d = t := hfoot
          simp [owned, begin_memory (s := s.switchTo d) hpc hbegin] at howned
      | _ => exact hfoot.elim
  | run t hact hrun hframe hadvance heffect =>
      have hpc : (s.pc t).Confined old := by
        rw [hact] at hconfined
        exact (hconfined hframe).1
      have hfoot' : (s.pc t).footprint s.nextThread s.kern.nextQueue s.kern.nextTask t o := by
        rw [hact] at hfoot
        exact hfoot.2
      -- as in `not_footprint`, with the bounds read the other way
      cases o with
      | desc h =>
          simp only [Pc.footprint] at hfoot'
          split at hfoot'
          next => exact hfoot' ▸ hsince.threads
          next hat =>
            rw [hat] at hpc
            exact hfoot' ▸ hpc
          next hat =>
            rw [hat] at hpc
            exact hfoot' ▸ hpc
          next => exact hfoot'.elim
      | queue q =>
          have howner : ∀ h, (s.pc t).reads = some (h, q) → s'.semOwner q = some h := by
            intro h hreads
            have howner := hinv.sems.owner h q (hinv.sems.reads t h q hreads)
            rw [hkeeps.semOwner q (hinv.sems.binary h q howner).1, howner]
          simp only [Pc.footprint] at hfoot'
          split at hfoot'
          next h hat =>
            subst hfoot'
            rw [hat] at hpc
            exact ⟨h, hpc, hinv.semaphore_owner hstep hact hframe hat howned⟩
          next hat =>
            subst hfoot'
            rw [hat] at hpc
            exact ⟨_, hpc, howner _ (by rw [hat]; rfl)⟩
          next hat =>
            subst hfoot'
            rw [hat] at hpc
            exact ⟨_, hpc, howner _ (by rw [hat]; rfl)⟩
          next => exact hfoot'.elim
      | stack u | tcb u =>
          simp only [Pc.footprint] at hfoot'
          split at hfoot'
          next => exact hfoot' ▸ hsince.born
          next => exact hfoot' ▸ hsince.born
          next hat =>
            rw [hat] at hpc
            exact hfoot' ▸ hpc
          next hat =>
            rw [hat] at hpc
            exact hfoot' ▸ hpc
          next => exact hfoot'.elim
      | newStack c | newTcb c =>
          have hmem : (s'.pc c).memory ≠ (none, none) := fun heq => by simp [owned, heq] at howned
          -- a task fills its own registers, or it has just been made and they are empty
          by_cases hc : c = t
          · subst hc
            rcases advance_memory (s := s.switchTo c) hadvance with
              hnone | ⟨pc, htask⟩ | ⟨i, pc, pc', hat, hnew⟩
            · exact absurd hnone hmem
            · have hat : s.pc c = .task pc := htask
              rw [hat] at hpc
              exact hpc.elim
            · have hat : s.pc c = .create i (.task pc) := hat
              rw [hat] at hpc
              exact ⟨i, pc', hpc, hnew⟩
          · obtain rfl : c = s.kern.nextTask := hfoot'.resolve_left hc
            refine absurd ?_ hmem
            rcases heffect.pc_cases (hinv.core.kernel.wait.spawned hrun) hc with
              hsame | ⟨-, hnew | ⟨i, hnew⟩⟩
            · rw [hsame]
              exact congrArg Pc.memory (hinv.tasks.unborn _ (Nat.le_refl _)).1
            · rw [hnew]
              rfl
            · rw [hnew]
              rfl
      | block pv => exact hfoot'.elim

omit hold hsince hconfined in
/-- What is new stays new. -/
theorem Inv.new_kept {o : Owner} {a : Nat} (howned : s.owned o = some a)
    (hfoot : ¬ act.footprint s o) (hnew : s.New old o) : s'.New old o := by
  cases o with
  | queue q =>
      obtain ⟨h, hle, howner⟩ := hnew
      exact ⟨h, hle, by rw [(step_footprint hstep).keeps.semOwner q (hinv.queue_lt howned), howner]⟩
  | newStack c | newTcb c =>
      obtain ⟨h, pc, hle, hpc⟩ := hnew
      refine ⟨h, pc, hle, ?_⟩
      rw [← hpc]
      cases step_effect hstep with
      | kernel b k _ hnext =>
          subst hnext
          rfl
      | call t d hact _ _ _ _ _ hlocal =>
          subst hact
          exact hlocal.pc_ne hfoot
      | run t hact hrun hframe _ heffect =>
          subst hact
          have hne : c ≠ t := fun heq => hfoot ⟨hframe, .inl heq⟩
          rcases heffect.pc_cases (hinv.core.kernel.wait.spawned hrun) hne with hsame | ⟨heq, -⟩
          · exact hsame
          · exact absurd ⟨hframe, .inr heq⟩ hfoot
  | _ => exact hnew

omit hold in
/-- Every new task is the task of a new thread. -/
theorem Since.tasks_step (hproper : act.Proper s) (hle : old.kern.nextTask ≤ u)
    (hlt : u < s'.kern.nextTask) :
    ∃ h, old.nextThread ≤ h ∧ (s'.past h).task = some u := by
  have hinv' := hinv.step hproper hstep
  obtain ⟨t, i, fresh, htouches, hspawns⟩ := (step_effect hstep).touches
  by_cases hborn : u < s.kern.nextTask
  · obtain ⟨h, hh, htask⟩ := hsince.tasks u hle hborn
    have hfresh : fresh ≠ some u := fun heq => Nat.ne_of_lt hborn (hspawns u heq).1
    have hparam : (s.info u).param = some h := (hinv.roles.tasks h u).mp htask
    exact ⟨h, hh, (hinv'.roles.tasks h u).mpr ((htouches.info u hfresh).2.2.1.trans hparam)⟩
  · -- the only step that makes a task is the one of a creation that is not native
    rcases step_kern hstep with ⟨c, -, hswitch⟩ | ⟨a, hasks, hk⟩
    · rw [hswitch] at hlt
      exact absurd hlt hborn
    · have hstepped := State.stepped_step hk
      have hmore : ¬ s'.kern.view.nextTask ≤ s.kern.view.nextTask :=
        fun hsame => hborn (Nat.lt_of_lt_of_le hlt hsame)
      generalize hv : s'.kern.view = v at hstepped hmore
      obtain ⟨⟨c, uxPriority, rfl⟩, rfl⟩ :=
        hstepped.nextTask_cases.resolve_left fun hsame => hmore (Nat.le_of_eq hsame)
      have hnext : s'.kern.nextTask = s.kern.nextTask + 1 := congrArg View.nextTask hv
      obtain rfl : u = s.kern.nextTask := by
        rw [hnext] at hlt
        exact Nat.le_antisymm (Nat.le_of_lt_succ hlt) (Nat.le_of_not_lt hborn)
      cases hasks with
      | call t c a _ hasks => cases c <;> simp [Call.asks] at hasks
      | shim t a hframe hasks =>
          obtain ⟨hpc, -⟩ := hconfined hframe
          generalize hat : s.pc t = pc at hasks hpc
          cases hasks with
          | native => exact hpc.elim
          | thread h _ pxStack pxNewTCB =>
              refine ⟨h, hpc, ?_⟩
              rcases step_cases hstep with
                ⟨b, k, -, -, ⟨-, hact⟩ | ⟨w, f, -, hact, hsome⟩⟩ | ⟨w, d, hact, -⟩ | ⟨w, hact, hrun,
                 -, hadvance⟩
              · simp at hact
              · cases hact
                simp [hframe] at hsome
              · simp at hact
              · cases hact
                rw [hat] at hadvance
                simp only [advance, create, createTask] at hadvance
                obtain ⟨k, -, ⟨-, rfl⟩ | ⟨hfault, rfl⟩⟩ := kernel_cases hadvance
                · simp [goto, modInfo, modPast, Sys.switchTo, State.switchTo]
                · have hsame : k.fault = s.kern.fault := congrArg View.fault hv
                  simp only [State.canRun, Bool.and_eq_true, Option.isNone_iff_eq_none] at hrun
                  exact absurd (hsame.trans hrun.1) hfault

omit hold hinv hsince hstep in
/-- Only nodes of new threads are linked and unlinked. -/
theorem relink_filter (hcalls : ∀ t f, s.frame t = some f → (s.pc t).relink nodes = nodes) :
    (act.relink s nodes).filter (· < old.nextThread) = nodes.filter (· < old.nextThread) := by
  cases act with
  | tick | call => rfl
  | run t =>
      cases hframe : s.frame t with
      | some f => rw [Act.relink, hcalls t f hframe]
      | none =>
          obtain ⟨hpc, -⟩ := hconfined hframe
          rw [Act.relink]
          have herase : ∀ i, old.nextThread ≤ i →
              (nodes.erase i).filter (· < old.nextThread) = nodes.filter (· < old.nextThread) := by
            intro i hi
            rw [← List.erase_filter, List.erase_of_not_mem]
            simp [hi]
          unfold Pc.relink
          split
          next _ i hat =>
            rw [hat] at hpc
            have hle : old.nextThread ≤ i := hpc
            simp [hle]
          next hat =>
            rw [hat] at hpc
            exact herase _ hpc
          next hat =>
            rw [hat] at hpc
            exact herase _ hpc
          next => rfl

/-- What a step of the new threads keeps. -/
theorem Since.step (hproper : act.Proper s) : Since old s' before (act.relink s nodes) := by
  have hinv' := hinv.step hproper hstep
  have hfoot := step_footprint hstep
  have hcalls : ∀ t f, s.frame t = some f → s.pc t = .app ∨
      (∃ i retval, s.pc t = .join i retval .taken) ∨ ∃ i, s.pc t = .exit (.given i) := by
    intro t f hframe
    rcases hinv.sems.calls t f hframe with ⟨hpc, -⟩ | ⟨i, retval, hpc, -⟩ | ⟨i, hpc, -⟩
    · exact .inl hpc
    · exact .inr (.inl ⟨i, retval, hpc⟩)
    · exact .inr (.inr ⟨i, hpc⟩)
  refine ⟨Nat.le_trans hsince.threads hfoot.keeps.nextThread,
    Nat.le_trans hsince.queues (step_later hstep).1, Nat.le_trans hsince.born (step_later hstep).2,
    fun o a howned => ?_, fun o a howned => ?_,
    fun c hc => hsince.stays hold hinv hconfined hstep hc, fun q hq => ?_,
    fun u hle hlt => hsince.tasks_step hinv hconfined hstep hproper hle hlt, ?_, fun h hh => ?_⟩
  · obtain ⟨hkept, hblock⟩ := hsince.kept o a howned
    have hsame : s'.owned o = some a :=
      (hfoot.keeps.owned o (hsince.not_footprint hold hinv hconfined hstep howned)).trans hkept
    refine ⟨hsame, ?_⟩
    rw [← hblock]
    exact hfoot.heap.block_eq hinv.sound (hinv.ledger.allocated o a hkept)
      (hinv'.ledger.allocated o a hsame)
  · by_cases hin : act.footprint s o
    · exact .inr (hsince.gains hinv hconfined hstep howned hin)
    · have hbefore : s.owned o = some a := (hfoot.keeps.owned o hin).symm.trans howned
      rcases hsince.new o a hbefore with hold' | hnew
      · exact .inl hold'
      · exact .inr (hinv.new_kept hstep hbefore hin hnew)
  · rw [hfoot.keeps.semOwner q (Nat.lt_of_lt_of_le hq hsince.queues), hsince.semOwner q hq]
  · rw [relink_filter hconfined fun t f hframe => ?_, hsince.nodes]
    rcases hcalls t f hframe with hpc | ⟨i, retval, hpc⟩ | ⟨i, hpc⟩ <;> rw [hpc] <;> rfl
  · refine hinv.step_detachSeen (hsince.seen h hh) hproper (fun d hact hdetaches => ?_) hstep
    subst hact
    cases hframe : s.frame d with
    | none => exact (hconfined hframe).2 h hdetaches hh
    | some f =>
        rcases hcalls d f hframe with hpc | ⟨i, retval, hpc⟩ | ⟨i, hpc⟩ <;> simp [hpc, Pc.detaches]
          at hdetaches

end Step

theorem Inv.idle_present (hinv : s.Inv base low high nodes) :
    idleTask < s.kern.view.nextTask ∧ s.Present idleTask := by
  refine ⟨Nat.lt_of_le_of_lt (Nat.zero_le _) hinv.core.kernel.wait.window.current,
    .inl fun hdead => ?_⟩
  have hidle := hinv.tasks.idle.1
  simp [hdead, Pc.idles] at hidle

section End

variable {before : List ThreadId} (hold : old.Inv base low high before)
  (hinv : s.Inv base low high nodes) (hsince : Since old s before nodes)
  (hfinished : ∀ h, old.nextThread ≤ h → h < s.nextThread → s.Finished h)
  (hwaiting : s.kern.xTasksWaitingTermination = []) (hidle : s.pc idleTask = .app)
include hinv hsince hfinished

/-- The nodes of the new threads are gone. -/
theorem Since.nodes_eq : nodes = before := by
  rw [← hsince.nodes]
  refine (List.filter_eq_self.mpr fun h hmem => decide_eq_true ?_).symm
  by_contra hge
  have hmade : s.Made h := by
    by_contra hnot
    exact ((hinv.threads h).fresh hnot).2.2.2.2.2 hmem
  have hle := Nat.le_of_not_lt hge
  exact (hinv.gone (hsince.seen h hle) (hfinished h hle hmade.1)).1 hmem

include hwaiting

/-- Every new task has been freed. -/
theorem Since.task_gone (hle : old.kern.nextTask ≤ u) : ¬ (u < s.kern.nextTask ∧ s.Present u) := by
  rintro ⟨hlt, hpresent⟩
  obtain ⟨h, hh, htask⟩ := hsince.tasks u hle hlt
  obtain ⟨⟨w, htask', hdead⟩, -⟩ := hfinished h hh (hinv.task_lt htask)
  obtain rfl : u = w := Option.some.inj (htask.symm.trans htask')
  rcases hpresent with hne | hmem
  · exact hne hdead
  · have hmem' : u ∈ s.kern.xTasksWaitingTermination := hmem
    simp [hwaiting] at hmem'

include hidle

/-- Nothing new owns memory. -/
theorem Since.owned_eq {o : Owner} {a : Nat} (howned : s.owned o = some a) :
    old.owned o = some a := by
  refine (hsince.new o a howned).resolve_right fun hnew => ?_
  have hgone : ∀ h, old.nextThread ≤ h → h < s.nextThread → (s.sem h).live = false ∧
      (s.desc h).live = false :=
    fun h hle hlt => (hinv.gone (hsince.seen h hle) (hfinished h hle hlt)).2
  cases o with
  | desc h =>
      have hdead := (hgone h hnew (hinv.desc_lt howned)).2
      simp [owned, hdead] at howned
  | queue q =>
      obtain ⟨h, hle, howner⟩ := hnew
      have hlt := hinv.owner_lt howner
      rcases hinv.sems.maker h q howner with hsem | ⟨c, hpc⟩
      · have hdead := (hgone h hle hlt).1
        simp only [sem, hsem] at hdead
        simp [owned, hdead] at howned
      · have hcreator := (hinv.roles.creates h c).mpr (by simp [hpc, Pc.creates, CreatePc.added])
        have hmade := hinv.made_of_finished (hfinished h hle hlt)
        simp [hmade.2] at hcreator
  | stack u =>
      have hlive : (s.info u).stackLive := by
        by_contra hno
        simp [owned, hno] at howned
      obtain ⟨hlt, -, hcases⟩ := (hinv.tasks.stack u).mp hlive
      simp only [hidle, reduceCtorEq, or_false] at hcases
      exact hsince.task_gone hinv hfinished hwaiting hnew ⟨hlt, hcases⟩
  | tcb u =>
      have hlive : (s.info u).tcbLive := by
        by_contra hno
        simp [owned, hno] at howned
      obtain ⟨hlt, -, hcases⟩ := (hinv.tasks.tcb u).mp hlive
      simp only [hidle, Pc.frees, reduceCtorEq, or_false] at hcases
      exact hsince.task_gone hinv hfinished hwaiting hnew ⟨hlt, hcases⟩
  | newStack c | newTcb c =>
      obtain ⟨h, pc, hle, hpc⟩ := hnew
      have hlt := hinv.creating_lt hpc rfl
      have hcreator := (hinv.roles.creates h c).mpr (by simp [hpc, Pc.creates, CreatePc.added])
      have hmade := hinv.made_of_finished (hfinished h hle hlt)
      simp [hmade.2] at hcreator
  | block pv => exact hnew

include hold

/-- The heap is as it was. -/
theorem Since.block_eq : s.heap.block = old.heap.block := by
  funext a
  by_cases howned : ∃ o, old.owned o = some a
  · obtain ⟨o, ho⟩ := howned
    exact (hsince.kept o a ho).2
  · simp only [not_exists] at howned
    rw [hold.ledger.rest a howned]
    exact hinv.ledger.rest a fun o ho =>
      howned o (hsince.owned_eq hinv hfinished hwaiting hidle ho)

/-- The tasks are the ones that there were. -/
theorem Since.census_eq : s.census = old.census := by
  have hstack : ∀ u, (s.info u).stackLive ↔ (old.info u).stackLive := by
    intro u
    have howned : ∀ s : Sys α, (s.info u).stackLive ↔ ∃ a, s.owned (.stack u) = some a := by
      intro s
      by_cases hlive : (s.info u).stackLive <;> simp [owned, hlive]
    rw [howned, howned]
    constructor
    · rintro ⟨a, ha⟩
      exact ⟨a, hsince.owned_eq hinv hfinished hwaiting hidle ha⟩
    · rintro ⟨a, ha⟩
      exact ⟨a, (hsince.kept _ a ha).1⟩
  have hfrees : ∀ u, old.pc idleTask ≠ .freeStack u := by
    intro u hpc
    have hsame := hsince.stuck idleTask (.inr (by simp [hpc, Pc.frees]))
    simp [hidle, hpc] at hsame
  -- the idle task is always there, and every other task has a stack while it is
  have hpresent : ∀ (s : Sys α) (nodes : List ThreadId), s.Inv base low high nodes →
      (∀ u, s.pc idleTask ≠ .freeStack u) → ∀ u, u ≠ idleTask →
      (u < s.kern.view.nextTask ∧ s.Present u ↔ (s.info u).stackLive) := by
    intro s nodes hinv hfrees u hu
    rw [hinv.tasks.stack u]
    simp only [Present, hfrees u, or_false]
    exact ⟨fun h => ⟨h.1, hu, h.2⟩, fun h => ⟨h.1, h.2.2⟩⟩
  ext u
  rw [mem_census, mem_census]
  by_cases hu : u = idleTask
  · subst hu
    exact iff_of_true hinv.idle_present hold.idle_present
  · rw [hpresent s nodes hinv (by simp [hidle]) u hu, hpresent old before hold hfrees u hu,
      hstack u]

end End

end Sys

variable {sizes : Sizes} {heap : Heap4} {low high uxPriority stackBytes : Nat} {s₀ old s : Sys α}

/-- The threads created after `old`, in any number and any order, leave nothing behind. -/
theorem threads_leak_nothing (hsound : Sound heap low high)
    (hboot : Sys.boot sizes heap uxPriority stackBytes = some s₀)
    (hbefore : Lib.Reach (Sys.step sizes) (fun s act => Act.Proper s act) s₀ old)
    (hreach : Lib.Reach (Sys.step sizes) (fun s act => act.Proper s ∧ act.Confined old s) old s)
    (hfinished : ∀ h, old.nextThread ≤ h → h < s.nextThread → s.Finished h)
    (hwaiting : s.kern.xTasksWaitingTermination = []) (hidle : s.pc idleTask = .app) :
    s.heap.free = old.heap.free ∧ s.heap.xFreeBytesRemaining = old.heap.xFreeBytesRemaining ∧
      s.kern.uxCurrentNumberOfTasks = old.kern.uxCurrentNumberOfTasks ∧
      s.gThreadList = old.gThreadList ∧
      ∃ nodes, Lib.Chain old.next old.gThreadList nodes ∧ Lib.Chain s.next s.gThreadList nodes := by
  obtain ⟨⟨before, hold⟩, hcountOld⟩ : (∃ nodes, old.Inv heap.block low high nodes) ∧
      old.kern.uxCurrentNumberOfTasks = old.census.card := by
    refine hbefore.invariant (fun s => (∃ nodes, s.Inv heap.block low high nodes) ∧
      s.kern.uxCurrentNumberOfTasks =
        s.census.card) ⟨⟨[], Sys.boot_inv hsound hboot⟩, Sys.boot_census hboot⟩ ?_
    rintro s act s' ⟨⟨nodes, hinv⟩, hcount⟩ hproper hstep
    exact ⟨⟨_, hinv.step hproper hstep⟩, hinv.step_census hproper hcount hstep⟩
  obtain ⟨nodes, hinv, hsince, hcount⟩ : ∃ nodes, s.Inv heap.block low high nodes ∧
      Sys.Since old s before nodes ∧ s.kern.uxCurrentNumberOfTasks = s.census.card := by
    -- what has been allocated since then belongs to the new threads
    refine hreach.invariant (fun s => ∃ nodes, s.Inv heap.block low high nodes ∧
      Sys.Since old s before nodes ∧ s.kern.uxCurrentNumberOfTasks = s.census.card)
      ⟨before, hold, hold.since_self, hcountOld⟩ ?_
    rintro s act s' ⟨nodes, hinv, hsince, hcount⟩ ⟨hproper, hconfined⟩ hstep
    exact ⟨_, hinv.step hproper hstep, hsince.step hold hinv hconfined hstep hproper,
      hinv.step_census hproper hcount hstep⟩
  have hnodes := hsince.nodes_eq hinv hfinished
  obtain ⟨hfree, hbytes⟩ := hinv.sound.free_eq hold.sound
    (hsince.block_eq hold hinv hfinished hwaiting hidle)
  refine ⟨hfree, hbytes, ?_, ?_, before, hold.registry.chain, hnodes ▸ hinv.registry.chain⟩
  · rw [hcount, hcountOld, hsince.census_eq hold hinv hfinished hwaiting hidle]
  · rw [hinv.registry.chain.head_eq, hold.registry.chain.head_eq, hnodes]

/-- Two threads; the second is detached and ends first, the first is joined, and then
the idle task runs. -/
def twoThreadsSchedule : List (Act Unit) :=
  createSchedule 1 1 ++ createSchedule 1 2 ++ [.call 1 (.pthreadDetach (some 1)), .run 1] ++
    [.run 3, .run 3, .call 3 (.pthreadExit 5)] ++ List.replicate 8 (.run 3) ++
    [.run 2, .run 2, .call 2 (.pthreadExit 7)] ++ List.replicate 9 (.run 2) ++
    [.call 1 (.pthreadJoin (some 0) true)] ++ List.replicate 10 (.run 1) ++
      List.replicate 6 (.run 0)

/-- A mutex is made first, and is still there at the end. -/
theorem threads_leak_nothing_schedule : ∃ old s : Sys Unit,
    demoRun (fun s act => decide (act.Proper s)) [.call 1 (.newQueue .mutex)] = some old ∧
      Lib.execute (Sys.step demoSizes) (fun s act => decide (act.Proper s ∧ act.Confined old s)) old
        twoThreadsSchedule = some s ∧
      s.nextThread = old.nextThread + 2 ∧ s.heap.free = old.heap.free := by
  have hrun :
      ((demoRun (fun s act => decide (act.Proper s)) [.call 1 (.newQueue .mutex)]).bind fun old =>
      (Lib.execute (Sys.step demoSizes) (fun s act => decide (act.Proper s ∧ act.Confined old s))
        old twoThreadsSchedule).map fun s => decide (s.nextThread = 2 ∧ old.nextThread = 0 ∧
          (s.past 0).task = some 2 ∧ s.pc 2 = .dead ∧ (s.past 0).use.returned ∧
          (s.past 1).task = some 3 ∧ s.pc 3 = .dead ∧ (s.past 1).use.returned ∧
          s.kern.xTasksWaitingTermination = [] ∧ s.pc idleTask = .app)) = some true := by
    decide +kernel
  obtain ⟨old, hold, hrest⟩ := Option.bind_eq_some_iff.mp hrun
  obtain ⟨s, hs, hvalues⟩ := Option.map_eq_some_iff.mp hrest
  obtain ⟨hnext, hfirst, htask₀, hdead₀, huse₀, htask₁, hdead₁, huse₁, hwaiting, hidle⟩ :=
    of_decide_eq_true hvalues
  obtain ⟨s₀, hboot, hbefore⟩ := demoRun_reach (fun _ _ => of_decide_eq_true) hold
  have hreach := Lib.execute_reach (fun _ _ => of_decide_eq_true) twoThreadsSchedule hs
  obtain ⟨low, high, hsound⟩ := demoHeap_sound
  refine ⟨old, s, hold, hs, by rw [hnext, hfirst], ?_⟩
  refine (threads_leak_nothing hsound hboot hbefore hreach (fun h _ hlt => ?_) hwaiting hidle).1
  rw [hnext] at hlt
  match h, hlt with
  | 0, _ => exact ⟨⟨2, htask₀, hdead₀⟩, huse₀⟩
  | 1, _ => exact ⟨⟨3, htask₁, hdead₁⟩, huse₁⟩

end SimulatedLinux.Thread
