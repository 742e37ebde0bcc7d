import SimulatedLinux.Thread.Effect
import SimulatedLinux.Thread.Reachable

/-! # Reclaiming a thread exactly once

The thread and the caller of `pthread_join` or `pthread_detach` agree about who frees
the descriptor only through `t->detached`, which `pthread_exit` tests once. A detach
that comes after the test is not seen by anybody. When every detach comes before the
test, each thread is reclaimed exactly once.
-/

namespace SimulatedLinux.Thread

open Kernel Heap

variable {α : Type}

/-- `pthread_exit` has not yet tested `t->detached`. -/
def Body.untested : Body → Bool
  | running | finding | storing | testing => true
  | _ => false

/-- `pthread_detach` writes the flag before `pthread_exit` of its target tests it. -/
def Act.Timely (s : Sys α) (act : Act α) : Prop :=
  act.Proper s ∧ match act with
    | .run d => ∀ h, (s.pc d).detaches = some h → (s.body h).untested
    | _ => True

instance (s : Sys α) (act : Act α) : Decidable (act.Timely s) :=
  match act with
  | .run _ | .tick | .call _ _ => inferInstanceAs (Decidable (_ ∧ _))

/-- The task gives the semaphore of its thread. -/
def Pc.gives : Pc → Bool
  | exit (.sem _) | exit (.given _) => true
  | _ => false

/-- The task has only to delete itself. -/
def Pc.ended : Pc → Bool
  | exit .taskDelete | dead => true
  | _ => false

/-- The one call that the handle was passed to has returned. -/
def Use.returned : Use → Bool
  | joined _ | failed | detached => true
  | _ => false

namespace Sys

variable {s s' : Sys α} {t : TaskId} {nodes : List ThreadId} {i : ThreadId}
  {base : Nat → Option Nat} {low high : Nat} {sizes : Sizes} {act : Act α}

/-- A detached thread never takes the branch for joinable ones. -/
def DetachSeen (s : Sys α) (h : ThreadId) : Prop :=
  ∀ u, (s.past h).use = .detached → (s.past h).task = some u →
    (s.pc u).gives = false ∧ ((s.pc u).ended → (s.past h).selfFreed)

/-- How the history of a detached thread comes about. -/
theorem Moves.detached (hmoves : Moves s s' t) (huse : (s'.past i).use = .detached) :
    ((s.past i).use = .detached ∨ s.pc t = .detach i) ∧
      ((s.past i).selfFreed → (s'.past i).selfFreed) := by
  have hsame : SamePast s s' →
      ((s.past i).use = .detached ∨ s.pc t = .detach i) ∧
      ((s.past i).selfFreed → (s'.past i).selfFreed) :=
    fun hpast => ⟨.inl (hpast.use i ▸ huse), fun hfreed => by rwa [hpast.selfFreed]⟩
  have hothers : s'.past i = s.past i →
      ((s.past i).use = .detached ∨ s.pc t = .detach i) ∧
      ((s.past i).selfFreed → (s'.past i).selfFreed) :=
    fun hpast => ⟨.inl (hpast ▸ huse), fun hfreed => by rwa [hpast]⟩
  cases hmoves with
  | join j retval pc _ hmoves =>
      cases hmoves with
      | stays _ hpast => exact hsame hpast
      | next pc' _ _ hpast => exact hsame hpast
      | failed _ _ _ hfailed _ hpast =>
          by_cases hi : i = j
          · subst hi
            simp [hfailed] at huse
          · exact hothers (hpast i hi)
      | returns value _ _ _ hjoined _ hpast =>
          by_cases hi : i = j
          · subst hi
            simp [hjoined] at huse
          · exact hothers (hpast i hi)
  | exit pc _ hmoves =>
      cases hmoves with
      | stays _ hpast => exact hsame hpast
      | next pc' _ _ hpast hfree =>
          by_cases hne : ∀ j, pc ≠ .free j
          · exact hsame (hpast hne)
          · simp only [not_forall, not_not] at hne
            obtain ⟨j, hj⟩ := hne
            obtain ⟨hself, hkept, hrest⟩ := hfree j hj
            by_cases hi : i = j
            · subst hi
              exact ⟨.inl (hkept ▸ huse), fun _ => hself⟩
            · exact hothers (hrest i hi)
      | deletes _ _ hpast => exact hsame hpast
  | other _ _ hmoves =>
      rcases hmoves.past i with ⟨hself, hkept | ⟨hpc, -⟩⟩ | ⟨-, hunused⟩
      · exact ⟨.inl (hkept ▸ huse), fun hfreed => by rwa [hself]⟩
      · exact ⟨.inr hpc, fun hfreed => by rwa [hself]⟩
      · simp [hunused] at huse

theorem gives_of_untested {pc : Pc} {frame : Option (Frame α)} {freed : Bool}
    (hbody : (bodyOf pc frame freed).untested) : pc.gives = false ∧ pc.ended = false := by
  cases pc with
  | exit pc =>
      cases pc with
      | given j =>
          simp only [bodyOf] at hbody
          split at hbody <;> simp [Body.untested] at hbody
      | taskDelete =>
          simp only [bodyOf] at hbody
          split at hbody <;> simp [Body.untested] at hbody
      | _ => simp_all [bodyOf, Body.untested, Pc.gives, Pc.ended]
  | dead =>
      simp only [bodyOf] at hbody
      split at hbody <;> simp [Body.untested] at hbody
  | _ => simp [Pc.gives, Pc.ended]

theorem gives_of_exits {pc : Pc} (hexits : pc.exits = false) :
    pc.gives = false ∧ pc.ended = false := by
  cases pc <;> simp_all [Pc.exits, Pc.gives, Pc.ended]

/-- The own step of a detached thread. -/
theorem Inv.own_detachSeen (hinv : s.Inv base low high nodes) (hmoves : Moves s s' t)
    (hseen : s.DetachSeen i) (huse : (s.past i).use = .detached) (htask : (s.past i).task = some t)
    (hkept : (s.past i).selfFreed → (s'.past i).selfFreed) :
    (s'.pc t).gives = false ∧ ((s'.pc t).ended → (s'.past i).selfFreed) := by
  obtain ⟨hgives, hended⟩ := hseen t huse htask
  have hmade : s.Made i := by
    by_contra hnot
    simp [((hinv.threads i).fresh hnot).1] at huse
  cases hmoves with
  | join j retval pc hpc hmoves =>
      have hexits : (s'.pc t).exits = false := by
        cases hmoves with
        | stays hsame _ => simp [hsame, hpc, Pc.exits]
        | next pc' _ hnew _ => simp [hnew, Pc.exits]
        | failed _ hnew => simp [hnew, Pc.exits]
        | returns value _ hnew => simp [hnew, Pc.exits]
      obtain ⟨hgives, hended⟩ := gives_of_exits hexits
      exact ⟨hgives, by simp [hended]⟩
  | exit pc hpc hmoves =>
      cases hmoves with
      | stays hsame _ => exact hsame ▸ ⟨hgives, fun h => hkept (hended h)⟩
      | next pc' hnext hnew _ hfree =>
          rw [hnew]
          cases hnext with
          | untracked value hfound =>
              -- a thread finds itself
              have hfinding : s.body i = .finding := by simp [body, htask, hpc, bodyOf]
              simp [hinv.findThread_self hmade htask (.inr hfinding)] at hfound
          | gives j hdetached =>
              -- the flag was written before this test
              have hparam : (s.info t).param = some i := (hinv.roles.tasks i t).mp htask
              have hown := hinv.roles.own t j (by simp [hpc, Pc.own, ExitPc.thread])
              obtain rfl : i = j := Option.some.inj (hparam.symm.trans hown)
              have hflag :=
                ((hinv.threads i).life hmade).detached.mpr (by simp [life, Sys.handle, huse])
              simp [life, hdetached] at hflag
          | free j =>
              have hparam : (s.info t).param = some i := (hinv.roles.tasks i t).mp htask
              have hown := hinv.roles.own t j (by simp [hpc, Pc.own, ExitPc.thread])
              obtain rfl : i = j := Option.some.inj (hparam.symm.trans hown)
              exact ⟨rfl, fun _ => (hfree i rfl).1⟩
          | sem j => simp [hpc, Pc.gives] at hgives
          | given j => simp [hpc, Pc.gives] at hgives
          | _ => simp [Pc.gives, Pc.ended]
      | deletes hold hnew _ =>
          rw [hnew]
          exact ⟨rfl, fun _ => hkept (hended (by rw [hpc, hold]; rfl))⟩
  | other _ _ hmoves =>
      obtain ⟨hgives, hended⟩ := gives_of_exits hmoves.pc.2
      exact ⟨hgives, by simp [hended]⟩

/-- If the thread is detached in time, every step keeps it so. -/
theorem Inv.step_detachSeen (hinv : s.Inv base low high nodes) (hseen : s.DetachSeen i)
    (hproper : act.Proper s)
    (htimely : ∀ d, act = .run d → (s.pc d).detaches = some i → (s.body i).untested)
    (hstep : s.step sizes act = some s') : s'.DetachSeen i := by
  have hinv' := hinv.step hproper hstep
  intro u huse htask
  cases step_effect hstep with
  | kernel a k _ hnext =>
      subst hnext
      exact hseen u huse htask
  | call t c hact _ _ _ _ _ hlocal hmoves =>
      have huse' : (s.past i).use = .detached := by
        rcases hmoves.use i with hsame | hnew | hnew
        · exact hsame ▸ huse
        · simp [hnew] at huse
        · simp [hnew] at huse
      rw [hlocal.task] at htask
      rw [hmoves.selfFreed]
      by_cases hu : u = t
      · subst hu
        by_cases hexits : (s'.pc u).exits
        · rcases hmoves.exits hexits with ⟨value, hnew⟩ | hdelete
          · simp [hnew, Pc.gives, Pc.ended]
          · have hparam : (s.info u).param = some i := (hinv.roles.tasks i u).mp htask
            have hnone : (s.info u).param = none := by
              rw [hact, hdelete] at hproper
              exact hproper
            simp [hparam] at hnone
        · obtain ⟨hgives, hended⟩ := gives_of_exits (by simpa using hexits)
          exact ⟨hgives, by simp [hended]⟩
      · rw [hlocal.pc_ne hu]
        exact hseen u huse' htask
  | run t hact hrun _ _ heffect hmoves =>
      obtain ⟨hbefore, hkept⟩ := hmoves.detached huse
      have hborn := hinv.core.kernel.wait.spawned hrun
      rcases heffect.task_cases hborn hinv.roles hinv'.roles htask with htask | ⟨-, -, hnew⟩
      · rcases hbefore with huse | hdetach
        · by_cases hu : u = t
          · subst hu
            exact hinv.own_detachSeen hmoves hseen huse htask hkept
          · rcases heffect.pc_cases hborn hu with hsame | ⟨-, hnew | ⟨j, hnew⟩⟩
            · obtain ⟨hgives, hended⟩ := hseen u huse htask
              exact hsame ▸ ⟨hgives, fun h => hkept (hended h)⟩
            · simp [hnew, Pc.gives, Pc.ended]
            · simp [hnew, Pc.gives, Pc.ended]
        · have hnot : (s.pc u).gives = false ∧ (s.pc u).ended = false := by
            have hbody := htimely t hact (by rw [hdetach]; rfl)
            simp only [body, htask] at hbody
            exact gives_of_untested hbody
          by_cases hu : u = t
          · subst hu
            cases hmoves with
            | join j retval pc hpc => simp [hpc] at hdetach
            | exit pc hpc => simp [hpc] at hdetach
            | other _ _ hmoves =>
                obtain ⟨hgives, hended⟩ := gives_of_exits hmoves.pc.2
                exact ⟨hgives, by simp [hended]⟩
          · rcases heffect.pc_cases hborn hu with hsame | ⟨-, hnew | ⟨j, hnew⟩⟩
            · exact hsame ▸ ⟨hnot.1, by simp [hnot.2]⟩
            · simp [hnew, Pc.gives, Pc.ended]
            · simp [hnew, Pc.gives, Pc.ended]
      · simp [hnew, Pc.gives, Pc.ended]

/-- The thread has ended, and the call that its handle was passed to has returned. -/
def Finished (s : Sys α) (h : ThreadId) : Prop :=
  (∃ u, (s.past h).task = some u ∧ s.pc u = .dead) ∧ (s.past h).use.returned

/-- The descriptor and the semaphore have been freed once, the node is not in the
registry, and nobody has accessed either object after that. -/
def Reclaimed (s : Sys α) (h : ThreadId) : Prop :=
  (s.past h).descFrees = 1 ∧ (s.past h).semFrees = 1 ∧
    (∃ nodes, Lib.Chain s.next s.gThreadList nodes ∧ h ∉ nodes) ∧
    s.fault ≠ some (.useAfterFree h) ∧
    ∀ q, s.kern.fault = some (.useAfterFree q) → s.semOwner q ≠ some h

theorem Inv.made_of_finished (hinv : s.Inv base low high nodes) (hfinished : s.Finished i) :
    s.Made i := by
  by_contra hnot
  have hreturned := hfinished.2
  simp [((hinv.threads i).fresh hnot).1, Use.returned] at hreturned

/-- The objects of a thread that has ended are gone. -/
theorem Inv.gone (hinv : s.Inv base low high nodes) (hseen : s.DetachSeen i)
    (hfinished : s.Finished i) :
    i ∉ nodes ∧ (s.sem i).live = false ∧ (s.desc i).live = false := by
  have hok := (hinv.threads i).life (hinv.made_of_finished hfinished)
  obtain ⟨⟨u, htask, hdead⟩, hreturned⟩ := hfinished
  have hbody : s.body i = if (s.past i).selfFreed then .freed else .gave := by
    simp [body, htask, hdead, bodyOf]
  have hgone : (s.life nodes i).listed = false ∧ (s.life nodes i).semLive = false ∧
      (s.life nodes i).descLive = false := by
    rw [hok.listed, hok.sem, hok.desc]
    cases huse : (s.past i).use with
    | joined value =>
        simp [life, Sys.handle, huse, Handle.keepsNode, Handle.keepsSem, Handle.keepsDesc]
    | detached =>
        have hfreed := (hseen u huse htask).2 (by rw [hdead]; rfl)
        simp [life, hbody, hfreed, Body.keepsNode, Body.keepsSem, Body.keepsDesc]
    | failed => exact absurd huse (hinv.threads i).notFailed
    | _ => simp [huse, Use.returned] at hreturned
  exact ⟨by simpa [life] using hgone.1, hgone.2⟩

theorem Inv.reclaimed (hinv : s.Inv base low high nodes) (hseen : s.DetachSeen i)
    (hfinished : s.Finished i) :
    s.Reclaimed i := by
  have hok := (hinv.threads i).life (hinv.made_of_finished hfinished)
  obtain ⟨hlisted, hsem, hdesc⟩ := hinv.gone hseen hfinished
  refine ⟨?_, ?_, ⟨nodes, hinv.registry.chain, hlisted⟩, ?_, fun q hq => ?_⟩
  · have hfrees := hok.descFrees
    simpa [life, hdesc] using hfrees
  · have hfrees := hok.semFrees
    simpa [life, hsem] using hfrees
  · rcases hinv.core.fault with h | h <;> simp [h]
  · simp [hinv.core.kernFault q hq]

end Sys

variable {sizes : Sizes} {heap : Heap4} {low high uxPriority stackBytes : Nat} {s₀ s : Sys α}

/-- In a run whose detaches all come before the test of the flag, a thread that has ended
and whose handle has been used is reclaimed exactly once. -/
theorem timely_reclaimed (hsound : Sound heap low high)
    (hboot : Sys.boot sizes heap uxPriority stackBytes = some s₀)
    (hreach : Lib.Reach (Sys.step sizes) (fun s act => Act.Timely s act) s₀ s) (h : ThreadId)
    (hfinished : s.Finished h) : s.Reclaimed h := by
  have hinv : (∃ nodes, s.Inv heap.block low high nodes) ∧ s.DetachSeen h := by
    -- every detach has been seen by the thread
    refine hreach.invariant (fun s => (∃ nodes, s.Inv heap.block low high nodes) ∧ s.DetachSeen h)
      ⟨⟨[], Sys.boot_inv hsound hboot⟩, fun u huse => ?_⟩ ?_
    · simp [(Sys.boot_blank hboot).1.past h] at huse
    · rintro s act s' ⟨⟨nodes, hinv⟩, hseen⟩ ⟨hproper, htimely⟩ hstep
      refine ⟨⟨_, hinv.step hproper hstep⟩,
        hinv.step_detachSeen hseen hproper (fun d hact => ?_) hstep⟩
      subst hact
      exact htimely h
  obtain ⟨⟨nodes, hinv⟩, hseen⟩ := hinv
  exact hinv.reclaimed hseen hfinished

/-- A thread that is detached while it runs. -/
def detachSchedule : List (Act Unit) :=
  createSchedule 1 1 ++ [.call 1 (.pthreadDetach (some 0)), .run 1, .run 2, .run 2,
    .call 2 (.pthreadExit 7)] ++ List.replicate 8 (.run 2)

theorem timely_reclaimed_schedule : ∃ s : Sys Unit,
    demoRun (fun s act => decide (act.Timely s)) detachSchedule = some s ∧ s.Finished 0 ∧
      s.Reclaimed 0 := by
  have hrun : (demoRun (fun s act => decide (act.Timely s)) detachSchedule).map (fun s =>
      decide ((s.past 0).task = some 2 ∧ s.pc 2 = .dead ∧ (s.past 0).use.returned)) =
        some true := by
    decide +kernel
  obtain ⟨s, hs, hvalues⟩ := Option.map_eq_some_iff.mp hrun
  obtain ⟨htask, hdead, hreturned⟩ := of_decide_eq_true hvalues
  have hfinished : s.Finished 0 := ⟨⟨2, htask, hdead⟩, hreturned⟩
  obtain ⟨s₀, hboot, hreach⟩ := demoRun_reach (fun _ _ => of_decide_eq_true) hs
  obtain ⟨low, high, hsound⟩ := demoHeap_sound
  exact ⟨s, hs, hfinished, timely_reclaimed hsound hboot hreach 0 hfinished⟩

/-- A thread that ends before it is detached. -/
def lateDetachSchedule : List (Act Unit) :=
  createSchedule 1 1 ++ [.run 2, .run 2, .call 2 (.pthreadExit 7)] ++ List.replicate 9 (.run 2) ++
    [.call 1 (.pthreadDetach (some 0)), .run 1]

/-- Nobody reclaims a thread that is detached after its `pthread_exit` has tested the flag. -/
theorem late_detach_leaks : ∃ s₀ s : Sys Unit, Sys.boot demoSizes demoHeap 1 400 = some s₀ ∧
    Lib.Reach (Sys.step demoSizes) (fun s act => Act.Proper s act) s₀ s ∧ s.Finished 0 ∧
    ¬ s.Reclaimed 0 ∧ s.findThread (s.info 2).tcb = .ok (some 0) := by
  have hrun : (demoRun (fun s act => decide (act.Proper s)) lateDetachSchedule).map (fun s =>
      decide ((s.past 0).task = some 2 ∧ s.pc 2 = .dead ∧ (s.past 0).use.returned ∧
        (s.past 0).descFrees = 0 ∧ s.findThread (s.info 2).tcb = .ok (some 0))) = some true := by
    decide +kernel
  obtain ⟨s, hs, hvalues⟩ := Option.map_eq_some_iff.mp hrun
  obtain ⟨htask, hdead, hreturned, hfrees, hlisted⟩ := of_decide_eq_true hvalues
  obtain ⟨s₀, hboot, hreach⟩ := demoRun_reach (fun _ _ => of_decide_eq_true) hs
  refine ⟨s₀, s, hboot, hreach, ⟨⟨2, htask, hdead⟩, hreturned⟩, fun hreclaimed => ?_, hlisted⟩
  simp [hreclaimed.1] at hfrees

end SimulatedLinux.Thread
