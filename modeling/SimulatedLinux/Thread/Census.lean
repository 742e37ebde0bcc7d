import Mathlib.Data.Finset.Card
import Mathlib.Data.Finset.Range
import SimulatedLinux.Thread.Project
import SimulatedLinux.Thread.Reachable

/-! # The number of tasks

`uxCurrentNumberOfTasks` counts the tasks whose memory the idle task has not yet taken
over to free it.
-/

namespace SimulatedLinux.Thread

open Kernel Heap

variable {α : Type}

namespace Sys

variable {s s' : Sys α} {t u : TaskId} {nodes : List ThreadId} {base : Nat → Option Nat}
  {low high : Nat} {sizes : Sizes} {act : Act α}

/-- Serial numbers are never used again. -/
theorem step_later (hstep : s.step sizes act = some s') :
    s.kern.nextQueue ≤ s'.kern.nextQueue ∧ s.kern.nextTask ≤ s'.kern.nextTask := by
  rcases step_kern hstep with ⟨t, -, hswitch⟩ | ⟨a, -, hk⟩
  · rw [hswitch]
    exact ⟨Nat.le_refl _, Nat.le_refl _⟩
  · have hstepped := State.stepped_step hk
    refine ⟨hstepped.nextQueue_le, ?_⟩
    rcases hstepped.nextTask_cases with hsame | ⟨-, hadd⟩
    · exact Nat.le_of_eq hsame.symm
    · have hnext : s'.kern.nextTask = s.kern.nextTask + 1 := congrArg View.nextTask hadd
      exact hnext ▸ Nat.le_succ _

/-- A task that has not been taken off the waiting list. -/
def Present (s : Sys α) (u : TaskId) : Prop :=
  s.pc u ≠ .dead ∨ u ∈ s.kern.view.xTasksWaitingTermination

instance (s : Sys α) (u : TaskId) : Decidable (s.Present u) := inferInstanceAs (Decidable (_ ∨ _))

/-- The tasks that the kernel counts. -/
def census (s : Sys α) : Finset TaskId := (Finset.range s.kern.view.nextTask).filter s.Present

theorem mem_census : u ∈ s.census ↔ u < s.kern.view.nextTask ∧ s.Present u := by
  simp [census]

/-- A task ends only by the last step of its `pthread_exit`. -/
theorem StepEffect.dead (heffect : StepEffect sizes s s' act) (hinv : s.Inv base low high nodes)
    (hexit : ∀ t, act = .run t → s.frame t = none → s.pc t ≠ .exit .taskDelete) :
    s'.pc u = .dead ↔ s.pc u = .dead := by
  cases heffect with
  | kernel a k _ hnext =>
      subst hnext
      exact Iff.rfl
  | call t c _ _ _ hpc _ hbegin hlocal hmoves =>
      by_cases hut : u = t
      · subst hut
        refine iff_of_false (fun hdead => ?_) (by simp [hpc])
        rcases hmoves.exits (by rw [hdead]; rfl) with ⟨value, hnew⟩ | hdelete
        · simp [hdead] at hnew
        · subst hdelete
          cases hbegin
          simp [Sys.pc, goto, modInfo] at hdead
      · rw [hlocal.pc_ne hut]
  | run t hact hrun hframe hadvance heffect hmoves =>
      by_cases hut : u = t
      · subst hut
        have hnot := hexit u hact hframe
        refine iff_of_false (fun hdead => ?_) (fun hdead => ?_)
        · cases hmoves with
          | join i retval pc hpc hmoves =>
              cases hmoves with
              | stays hsame _ => simp [hsame, hpc] at hdead
              | next pc' _ hnew _ => simp [hdead] at hnew
              | failed _ hnew => simp [hdead] at hnew
              | returns value _ hnew => simp [hdead] at hnew
          | exit pc hpc hmoves =>
              cases hmoves with
              | stays hsame _ => simp [hsame, hpc] at hdead
              | next pc' _ hnew => simp [hdead] at hnew
              | deletes hold => exact hnot (by rw [hpc, hold])
          | other _ _ hmoves =>
              have hexits := hmoves.pc.2
              simp [hdead, Pc.exits] at hexits
        · rw [hdead] at hadvance
          simp [advance] at hadvance
      · rcases heffect.pc_cases (hinv.core.kernel.wait.spawned hrun) hut with hsame | hnew
        · rw [hsame]
        · have hunborn := (hinv.tasks.unborn u (Nat.le_of_eq hnew.1.symm)).1
          refine iff_of_false (fun hdead => ?_) (by simp [hunborn])
          rcases hnew.2 with hpc | ⟨i, hpc⟩ <;> simp [hpc] at hdead

/-- The last step of `vTaskDelete(NULL)`. -/
theorem exit_census (hpc : s.pc t = .exit .taskDelete) (hborn : t < s.kern.view.nextTask)
    (hstep : s.exit t .taskDelete = some s') :
    s'.census = s.census ∧ s'.kern.uxCurrentNumberOfTasks = s.kern.uxCurrentNumberOfTasks := by
  simp only [exit] at hstep
  obtain ⟨k, hk, hs'⟩ := kernel_cases hstep
  have hview := State.stepped_step hk
  generalize hv : k.view = v at hview
  cases hview with
  | scheduled _ hact => simp [Kernel.Act.schedules] at hact
  | asserted =>
      have hfault : k.fault = some .assertion := congrArg View.fault hv
      rcases hs' with ⟨hnone, -⟩ | ⟨-, rfl⟩
      · simp [hfault] at hnone
      · refine ⟨?_, congrArg View.uxCurrentNumberOfTasks hv⟩
        ext u
        simp only [mem_census, Present, hv]
        exact Iff.rfl
  | exited =>
      have hcount : k.uxCurrentNumberOfTasks = s.kern.uxCurrentNumberOfTasks :=
        congrArg View.uxCurrentNumberOfTasks hv
      have hnext : k.view.nextTask = s.kern.view.nextTask := by rw [hv]; rfl
      have hwaiting :
          k.view.xTasksWaitingTermination = s.kern.view.xTasksWaitingTermination ++ [t] := by
        rw [hv]
        rfl
      rcases hs' with ⟨-, rfl⟩ | ⟨hfault, rfl⟩
      · refine ⟨?_, hcount⟩
        ext u
        -- the task leaves its code and enters the waiting list in one step
        by_cases hu : u = t
        · subst hu
          simp [mem_census, Present, hnext, hwaiting, hpc]
        · have hpcu : (goto { s with kern := k } t .dead).pc u = s.pc u := by
            simp [Sys.pc, goto, modInfo, hu]
          simp only [mem_census, Present, hpcu, kern_goto, hnext, hwaiting, List.mem_append,
            List.mem_singleton, hu, or_false]
      · have hnone : k.fault = s.kern.fault := congrArg View.fault hv
        have hrun := State.step_canRun rfl hk
        simp only [State.canRun, Bool.and_eq_true, Option.isNone_iff_eq_none] at hrun
        exact absurd (hnone.trans hrun.1) hfault

/-- The kernel counts the tasks that are present. -/
theorem Inv.step_census (hinv : s.Inv base low high nodes) (hproper : act.Proper s)
    (hcount : s.kern.uxCurrentNumberOfTasks = s.census.card) (hstep : s.step sizes act = some s') :
    s'.kern.uxCurrentNumberOfTasks = s'.census.card := by
  have hinv' := hinv.step hproper hstep
  -- only the call of `vTaskDelete` by the thread itself makes a task dead
  by_cases hexit : ∃ t, act = .run t ∧ s.frame t = none ∧ s.pc t = .exit .taskDelete
  · obtain ⟨t, rfl, hframe, hpc⟩ := hexit
    rcases step_cases hstep with
      ⟨a, k, -, -, ⟨-, hact⟩ | ⟨u, f, -, hact, hsome⟩⟩ | ⟨u, c, hact, -⟩ | ⟨u, hact, hrun, -,
       hadvance⟩
    · simp at hact
    · cases hact
      simp [hframe] at hsome
    · simp at hact
    · cases hact
      rw [hpc] at hadvance
      obtain ⟨hcensus, hsame⟩ := exit_census (s := s.switchTo t) hpc
        (hinv.core.kernel.wait.spawned hrun) hadvance
      rw [hcensus, hsame]
      exact hcount
  · have hdead : ∀ u, s'.pc u = .dead ↔ s.pc u = .dead := fun u =>
      (step_effect hstep).dead hinv fun t hact hframe hpc => hexit ⟨t, hact, hframe, hpc⟩
    -- a step that leaves the lists of tasks alone leaves the census alone
    have hsame : s'.kern.view.tasks = s.kern.view.tasks →
        s'.kern.uxCurrentNumberOfTasks = s'.census.card := by
      intro htasks
      simp only [View.tasks, Prod.mk.injEq] at htasks
      have hcensus : s'.census = s.census := by
        ext u
        simp only [mem_census, Present, htasks, ne_eq, hdead u]
      rw [hcensus, ← hcount]
      exact htasks.2.1
    rcases step_kern hstep with ⟨t, -, hswitch⟩ | ⟨a, hasks, hk⟩
    · exact hsame (by rw [hswitch]; rfl)
    · have hstepped := State.stepped_step hk
      by_cases hcounts : a.counts = false
      · exact hsame (hstepped.tasks hcounts)
      · generalize hv : s'.kern.view = v at hstepped
        cases hstepped with
        | asserted => exact hsame (by rw [hv]; rfl)
        | spawned c uxPriority =>
            have hnext : s'.kern.view.nextTask = s.kern.view.nextTask + 1 := by rw [hv]; rfl
            have hwaiting : s'.kern.view.xTasksWaitingTermination =
                s.kern.view.xTasksWaitingTermination := by rw [hv]; rfl
            have hnum : s'.kern.uxCurrentNumberOfTasks = s.kern.uxCurrentNumberOfTasks + 1 :=
              congrArg View.uxCurrentNumberOfTasks hv
            have hnew : s.pc s.kern.view.nextTask ≠ .dead := by
              simp [(hinv.tasks.unborn _ (Nat.le_refl _)).1]
            -- the number of the new task was not in use
            have hcensus : s'.census = insert s.kern.view.nextTask s.census := by
              ext u
              simp only [Finset.mem_insert, mem_census, Present, hnext, hwaiting, ne_eq, hdead u,
                Nat.lt_succ_iff_lt_or_eq]
              constructor
              · rintro ⟨hlt | heq, hpresent⟩
                · exact .inr ⟨hlt, hpresent⟩
                · exact .inl heq
              · rintro (rfl | ⟨hlt, hpresent⟩)
                · exact ⟨.inr rfl, .inl hnew⟩
                · exact ⟨.inl hlt, hpresent⟩
            rw [hnum, hcensus, Finset.card_insert_of_notMem (by simp [mem_census]), hcount]
        | reaped c =>
            cases hlist : s.kern.view.xTasksWaitingTermination with
            | nil => exact hsame (by rw [hv]; simp [View.reap, hlist])
            | cons u rest =>
                have hnext : s'.kern.view.nextTask = s.kern.view.nextTask := by
                  rw [hv]
                  simp [View.reap, hlist]
                have hwaiting : s'.kern.view.xTasksWaitingTermination = rest := by
                  rw [hv]
                  simp [View.reap, hlist]
                have hnum : s'.kern.uxCurrentNumberOfTasks = s.kern.uxCurrentNumberOfTasks - 1 := by
                  have hnum := congrArg View.uxCurrentNumberOfTasks hv
                  simp only [View.reap, hlist] at hnum
                  exact hnum
                have hmem : u ∈ s.kern.view.xTasksWaitingTermination := by simp [hlist]
                have hudead : s.pc u = .dead := hinv.tasks.waiting u hmem
                have hnodup := hinv.core.kernel.dying.nodup
                rw [hlist] at hnodup
                have hborn : u < s.kern.view.nextTask := by
                  by_contra hge
                  simp [(hinv.tasks.unborn u (Nat.le_of_not_lt hge)).1] at hudead
                -- the first task that waits for its termination is dead, and it is in the list once
                have hcensus : s'.census = s.census.erase u := by
                  ext w
                  simp only [Finset.mem_erase, mem_census, Present, hnext, hwaiting, ne_eq, hdead w,
                    hlist, List.mem_cons]
                  by_cases hw : w = u
                  · subst hw
                    simp [hudead, (List.nodup_cons.mp hnodup).1]
                  · simp [hw]
                rw [hnum, hcensus, Finset.card_erase_of_mem (mem_census.mpr ⟨hborn, .inr hmem⟩),
                  hcount]
        | exited c hframe =>
            -- the shim makes this call only at the end of `pthread_exit`
            cases hasks with
            | call t c a hframe hasks => cases c <;> simp [Call.asks] at hasks
            | shim t a hframe hasks =>
                generalize hpc : s.pc t = pc at hasks
                cases hasks
                exact absurd ⟨_, rfl, hframe, hpc⟩ hexit
        | scheduled _ hact =>
            cases a <;> simp [Kernel.Act.counts, Kernel.Act.schedules] at hcounts hact
        | _ => simp [Kernel.Act.counts] at hcounts

/-- The kernel counts the tasks that are present, from the start of the scheduler on. -/
theorem boot_census {heap : Heap4} {uxPriority stackBytes : Nat}
    (hboot : Sys.boot sizes heap uxPriority stackBytes = some s) :
    s.kern.uxCurrentNumberOfTasks = s.census.card := by
  have hblank := (boot_blank hboot).1
  have hcensus : s.census = Finset.range 2 := by
    ext u
    simp only [mem_census, Present, hblank.kern, hblank.pc, Finset.mem_range]
    simp [State.boot, State.view]
  rw [hcensus, hblank.kern]
  rfl

end Sys

end SimulatedLinux.Thread
