import SimulatedLinux.Thread.Effect
import SimulatedLinux.Thread.Reachable

/-! # The registry and the identity of a task

The registry holds the threads whose reclamation has not begun. A thread finds itself
in it from its first instruction on: `pthread_create` does not resume the scheduler
before the node and the creator's variable are written.
-/

namespace SimulatedLinux.Thread

open Kernel Heap

variable {α : Type}

namespace Sys

variable {s s' : Sys α} {t u : TaskId} {nodes : List ThreadId} {i j : ThreadId}
  {base : Nat → Option Nat} {low high : Nat} {sizes : Sizes} {act : Act α}

/-! ## Before the first instruction -/

/-- While its handle is being stored, a thread has not run. -/
def Unstarted (s : Sys α) : Prop :=
  ∀ c h u, (s.pc c).stores = some h → (s.past h).task = some u → s.pc u = .wrapper h

theorem inWindow_of_stores {pc : Pc} (hstores : pc.stores = some i) : pc.inWindow := by
  cases pc with
  | create h pc => cases pc <;> simp_all [Pc.stores, Pc.inWindow, CreatePc.inWindow]
  | _ => simp [Pc.stores] at hstores

/-- The creator of a thread that is being stored is the task that runs. -/
theorem Inv.eq_of_stores (hinv : s.Inv base low high nodes) (hfault : s.fault = none)
    (hrun : s.kern.canRun t) (hframe : s.frame t = none) {c : TaskId}
    (hstores : (s.pc c).stores = some i) :
    c = t :=
  (Turn.start hinv hfault hrun hframe).eq_of_inWindow (inWindow_of_stores hstores)

theorem Moves.stores (hmoves : Moves s s' t) (hstores : (s'.pc t).stores = some i) :
    s.pc t = .create i .addThread := by
  cases hmoves with
  | join j retval pc hpc hmoves =>
      cases hmoves with
      | stays hsame _ => simp [hsame, hpc, Pc.stores] at hstores
      | next pc' _ hnew _ => simp [hnew, Pc.stores] at hstores
      | failed _ hnew => simp [hnew, Pc.stores] at hstores
      | returns value _ hnew => simp [hnew, Pc.stores] at hstores
  | exit pc hpc hmoves =>
      cases hmoves with
      | stays hsame _ => simp [hsame, hpc, Pc.stores] at hstores
      | next pc' _ hnew => simp [hnew, Pc.stores] at hstores
      | deletes _ hnew => simp [hnew, Pc.stores] at hstores
  | other _ _ hmoves => exact hmoves.stores i hstores

/-- A task that was made for a thread has been created. -/
theorem Inv.lt_of_task (hinv : s.Inv base low high nodes) (htask : (s.past i).task = some u) :
    u < s.kern.nextTask := by
  by_contra hge
  have hparam := (hinv.roles.tasks i u).mp htask
  simp [(hinv.tasks.unborn u (Nat.le_of_not_lt hge)).2] at hparam

theorem Inv.step_unstarted (hinv : s.Inv base low high nodes) (hunstarted : s.Unstarted)
    (hproper : act.Proper s) (hstep : s.step sizes act = some s') : s'.Unstarted := by
  have hinv' := hinv.step hproper hstep
  have hfault : s.fault = none := by
    by_contra hne
    simp [Sys.step, hne] at hstep
  intro c i u hstores htask
  cases step_effect hstep with
  | kernel a k _ hnext =>
      subst hnext
      exact hunstarted c i u hstores htask
  | call t call _ hrun hframe hpc _ _ hlocal hmoves =>
      by_cases hc : c = t
      · subst hc
        simp [hmoves.stores] at hstores
      · rw [hlocal.pc_ne hc] at hstores
        exact absurd (hinv.eq_of_stores hfault hrun hframe hstores) hc
  | run t _ hrun hframe _ heffect hmoves =>
      have hborn := hinv.core.kernel.wait.spawned hrun
      by_cases hc : c = t
      · subst hc
        have hpc := hmoves.stores hstores
        rcases heffect.task_cases hborn hinv.roles hinv'.roles htask with htask | ⟨-, -, hnew⟩
        · obtain ⟨u', htask', hwrapper, -⟩ := ((hinv.threads i).building c _ hpc rfl).hasTask rfl
          obtain rfl : u' = u := Option.some.inj (htask'.symm.trans htask)
          have hu : u' ≠ c := by
            rintro rfl
            simp [hpc] at hwrapper
          rcases heffect.pc_cases hborn hu with hsame | ⟨hnext, -⟩
          · rw [hsame, hwrapper]
          · exact absurd hnext (Nat.ne_of_lt (hinv.lt_of_task htask))
        · exact hnew
      · rcases heffect.pc_cases hborn hc with hsame | ⟨-, hnew | ⟨j, hnew⟩⟩
        · rw [hsame] at hstores
          exact absurd (hinv.eq_of_stores hfault hrun hframe hstores) hc
        · simp [hnew, Pc.stores] at hstores
        · simp [hnew, Pc.stores] at hstores

/-- A task that runs, or has run, belongs to a thread whose handle its creator has got. -/
theorem Inv.published (hinv : s.Inv base low high nodes) (hunstarted : s.Unstarted)
    (htask : (s.past i).task = some u) (hran : s.kern.canRun u ∨ s.pc u ≠ .wrapper i) :
    s.Made i ∧ s.Published i := by
  -- the creator of a thread that has not run is the only task that can run
  have hwindow : ∀ c, (s.pc c).inWindow → s.pc u = .wrapper i → s.pc c ≠ s.pc u → False := by
    intro c hc hwrapper hne
    rcases hran with hrun | hnot
    · have hcpu := (hinv.core.window c hc).1
      have hcurrent := ((s.kern.canRun_iff u).mp hrun).2.2
      have hsuspended : s.kern.uxSchedulerSuspended = 1 := congrArg Prod.fst hcpu
      have hc : s.kern.pxCurrentTCB = c := congrArg Prod.snd hcpu
      rw [hc] at hcurrent
      exact hne (by rw [hcurrent (by simp [hsuspended])])
    · exact hnot hwrapper
  have hmade : s.Made i := by
    by_contra hnot
    obtain ⟨c, hpc, hwrapper⟩ := hinv.creator_of_task hnot htask
    exact hwindow c (by rw [hpc]; rfl) hwrapper (by simp [hpc, hwrapper])
  refine ⟨hmade, ((hinv.threads i).stored hmade).resolve_right ?_⟩
  rintro ⟨c, hpc⟩
  have hwrapper := hunstarted c i u (by rw [hpc]; rfl) htask
  exact hwindow c (by rw [hpc]; rfl) hwrapper (by simp [hpc, hwrapper])

theorem bodyOf_of_exits {pc : Pc} {frame : Option (Frame α)} {freed : Bool}
    (hpc : pc.exits = false ∨ ∃ value, pc = .exit (.findThread value)) :
    bodyOf pc frame freed = .running ∨ bodyOf pc frame freed = .finding := by
  rcases hpc with hexits | ⟨value, rfl⟩
  · cases pc <;> simp_all [Pc.exits, bodyOf]
  · exact .inr rfl

/-- `pthread_self` returns what `find_thread` has found. -/
theorem Inv.self_returns (hinv : s.Inv base low high nodes) {handle : Option ThreadId}
    (hpc : s.pc u = .self) (hfind : s.findThread (s.info u).tcb = .ok handle)
    (hstep : s.step sizes (.run u) = some s') : (s'.info u).ret = some (.handle handle) := by
  cases step_effect hstep with
  | kernel a k _ _ hact =>
      rcases hact with ⟨-, hact⟩ | ⟨t, f, -, hact, hframe⟩
      · cases hact
      · -- nobody is in a blocking function and in `pthread_self` at once
        cases hact
        rcases hinv.sems.calls u f hframe with ⟨h, -⟩ | ⟨_, _, h, -⟩ | ⟨_, h, -⟩ <;> simp [hpc] at h
  | call t c hact => cases hact
  | run t hact _ _ hadvance =>
      cases hact
      have hfind' : (s.switchTo u).findThread ((s.switchTo u).info u).tcb = .ok handle := hfind
      simp only [hpc, advance, hfind', Option.some.injEq] at hadvance
      subst hadvance
      simp [returns, modInfo]

/-! ## The registry -/

/-- Its joiner, or its own `pthread_exit`, has begun to reclaim the thread. -/
def Reclaiming (s : Sys α) (h : ThreadId) : Prop :=
  (s.handle h).keepsNode = false ∨ (s.body h).keepsNode = false

/-- The threads in the registry. -/
theorem Inv.mem_nodes_iff (hinv : s.Inv base low high nodes) (i : ThreadId) :
    i ∈ nodes ↔ ((s.past i).task.isSome ∧ ∀ c, s.pc c ≠ .create i .addThread) ∧
      ¬ s.Reclaiming i := by
  by_cases hmade : s.Made i
  · obtain ⟨u, htask, -⟩ := (hinv.threads i).task hmade
    have hadded : ∀ c, s.pc c ≠ .create i .addThread :=
      fun c hpc => hinv.roles.not_made hpc rfl hmade
    have hlisted := ((hinv.threads i).life hmade).listed
    simp only [life] at hlisted
    rw [Bool.eq_iff_iff] at hlisted
    simp only [decide_eq_true_eq, Bool.and_eq_true] at hlisted
    rw [hlisted]
    simp only [htask, Option.isSome_some, hadded, Reclaiming, not_or, Bool.not_eq_false, ne_eq,
      not_false_eq_true, implies_true, and_self, true_and]
    exact And.comm
  · have hnot : i ∉ nodes := ((hinv.threads i).fresh hmade).2.2.2.2.2
    refine ⟨fun h => absurd h hnot, ?_⟩
    rintro ⟨⟨htask, hadded⟩, -⟩
    obtain ⟨u, htask⟩ := Option.isSome_iff_exists.mp htask
    obtain ⟨c, hpc, -⟩ := hinv.creator_of_task hmade htask
    exact absurd hpc (hadded c)

end Sys

variable {sizes : Sizes} {heap : Heap4} {low high uxPriority stackBytes : Nat} {s₀ s : Sys α}

/-- The registry is a finite list without repetitions of the threads whose task has been
created and listed, and whose reclamation has not begun. From its first instruction until
it is inside `pthread_exit`, a thread finds itself, and its creator has got its handle. -/
theorem registry_identity (hsound : Sound heap low high)
    (hboot : Sys.boot sizes heap uxPriority stackBytes = some s₀)
    (hreach : Lib.Reach (Sys.step sizes) (fun s act => Act.Proper s act) s₀ s) :
    (∃ nodes, Lib.Chain s.next s.gThreadList nodes ∧ nodes.Nodup ∧ ∀ h, h ∈ nodes ↔
      ((s.past h).task.isSome ∧ ∀ c, s.pc c ≠ .create h .addThread) ∧ ¬ s.Reclaiming h) ∧
    ∀ u h, (s.info u).param = some h → (s.kern.canRun u ∨ s.pc u ≠ .wrapper h) →
      ((s.pc u).exits = false ∨ ∃ value, s.pc u = .exit (.findThread value)) →
      s.findThread (s.info u).tcb = .ok (some h) ∧ s.Published h ∧
        ∀ s', s.pc u = .self → s.step sizes (.run u) = some s' →
          (s'.info u).ret = some (.handle (some h)) := by
  have hinv : (∃ nodes, s.Inv heap.block low high nodes) ∧ s.Unstarted := by
    -- the thread that a task looks up has started its wrapper, so it is in the list
    refine hreach.invariant (fun s => (∃ nodes, s.Inv heap.block low high nodes) ∧ s.Unstarted)
      ⟨⟨[], Sys.boot_inv hsound hboot⟩, fun c i u hstores => ?_⟩ ?_
    · simp [(Sys.boot_blank hboot).1.pc c, Pc.stores] at hstores
    · rintro s act s' ⟨⟨nodes, hinv⟩, hunstarted⟩ hproper hstep
      exact ⟨⟨_, hinv.step hproper hstep⟩, hinv.step_unstarted hunstarted hproper hstep⟩
  obtain ⟨⟨nodes, hinv⟩, hunstarted⟩ := hinv
  refine ⟨⟨nodes, hinv.registry.chain, hinv.registry.chain.nodup, hinv.mem_nodes_iff⟩, ?_⟩
  intro u h hparam hran hpc
  have htask : (s.past h).task = some u := (hinv.roles.tasks h u).mpr hparam
  obtain ⟨hmade, hpublished⟩ := hinv.published hunstarted htask hran
  have hbody : s.body h = .running ∨ s.body h = .finding := by
    simp only [Sys.body, htask]
    exact Sys.bodyOf_of_exits hpc
  have hfind := hinv.findThread_self hmade htask hbody
  exact ⟨hfind, hpublished, fun s' hself hstep => hinv.self_returns hself hfind hstep⟩

/-- Thread 0 has ended and is not joined. The idle task has freed its control block, and
thread 1 was given the same address. -/
def sameAddressSchedule : List (Act Unit) :=
  [.call 1 (.pvPortMalloc 36), .call 1 (.pvPortMalloc 80)] ++ createSchedule 1 1 ++
    [.run 2, .run 2, .call 2 (.pthreadExit 7)] ++ List.replicate 9 (.run 2) ++
    List.replicate 3 (.run 0) ++
    [.call 1 (.vPortFree 0x20000208), .call 1 (.vPortFree 0x20000238)] ++ createSchedule 1 1 ++
    [.run 3, .run 3]

theorem registry_identity_schedule : ∃ s : Sys Unit,
    demoRun (fun s act => decide (act.Proper s)) sameAddressSchedule = some s ∧
      (s.desc 0).xTask = (s.desc 1).xTask ∧ s.findThread (s.info 3).tcb = .ok (some 1) ∧
      s.Published 1 := by
  have hrun : (demoRun (fun s act => decide (act.Proper s)) sameAddressSchedule).map (fun s =>
      decide ((s.desc 0).xTask = (s.desc 1).xTask ∧ (s.info 3).param = some 1 ∧ s.pc 3 = .app)) =
      some true := by
    decide +kernel
  obtain ⟨s, hs, hvalues⟩ := Option.map_eq_some_iff.mp hrun
  obtain ⟨hsame, hparam, hpc⟩ := of_decide_eq_true hvalues
  obtain ⟨s₀, hboot, hreach⟩ := demoRun_reach (fun _ _ => of_decide_eq_true) hs
  obtain ⟨low, high, hsound⟩ := demoHeap_sound
  obtain ⟨-, hidentity⟩ := registry_identity hsound hboot hreach
  obtain ⟨hfind, hpublished, -⟩ :=
    hidentity 3 1 hparam (.inr (by simp [hpc])) (.inl (by simp [hpc, Pc.exits]))
  exact ⟨s, hs, hsame, hfind, hpublished⟩

end SimulatedLinux.Thread
