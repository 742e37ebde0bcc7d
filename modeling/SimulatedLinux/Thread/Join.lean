import SimulatedLinux.Thread.Effect
import SimulatedLinux.Thread.Reachable

/-! # The join handshake

`pthread_join` frees the descriptor and the semaphore that the exiting thread was
giving. It may, because from the moment its take succeeds the thread has no further
use for either: its next steps are the same whatever the two objects hold.
-/

namespace SimulatedLinux.Thread

open Kernel Heap

variable {α : Type}

/-- The joiner has a value to return if and only if it was asked for one. -/
def Pc.answers : Pc → Bool
  | join _ retval (.removeThread value) | join _ retval (.readSem value)
  | join _ retval (.deleteSem value _) | join _ retval (.free value) => value.isSome = retval
  | _ => true

theorem Pc.answers_of_joins {pc : Pc} (hjoins : pc.joins = none) : pc.answers := by
  cases pc <;> simp_all [Pc.joins, Pc.answers]

namespace Sys

variable {s s' : Sys α} {t u : TaskId} {nodes : List ThreadId} {i : ThreadId} {q : QueueId}
  {base : Nat → Option Nat} {low high : Nat} {sizes : Sizes} {act : Act α}

/-- Where a task goes when it takes a step of its own. -/
theorem Moves.answers (hmoves : Moves s s' t) (hanswers : (s.pc t).answers) :
    (s'.pc t).answers := by
  cases hmoves with
  | join i retval pc hold hmoves =>
      cases hmoves with
      | stays hpc _ => rwa [hpc]
      | next pc' hnext hpc _ =>
          rw [hold] at hanswers
          rw [hpc]
          cases hnext with
          | retval => cases retval <;> simp [Pc.answers]
          | removeThread value => exact hanswers
          | readSem value q => exact hanswers
          | deleteSem value q => exact hanswers
          | _ => rfl
      | failed _ hpc =>
          rw [hpc]
          rfl
      | returns value _ hpc =>
          rw [hpc]
          rfl
  | exit pc _ hmoves =>
      cases hmoves with
      | stays hpc _ => rwa [hpc]
      | next pc' _ hpc =>
          rw [hpc]
          rfl
      | deletes _ hpc =>
          rw [hpc]
          rfl
  | other _ _ hmoves => exact Pc.answers_of_joins hmoves.pc.1

/-- Every step keeps what the joiners know. -/
theorem Inv.step_answers (hinv : s.Inv base low high nodes) (hanswers : ∀ u, (s.pc u).answers)
    (hstep : s.step sizes act = some s') (u : TaskId) : (s'.pc u).answers := by
  cases step_effect hstep with
  | kernel a k _ hnext => exact hnext ▸ hanswers u
  | call t c _ _ _ _ _ _ hlocal hmoves =>
      by_cases hu : u = t
      · subst hu
        cases hnew : s'.pc u with
        | join i retval pc =>
            rw [hmoves.joins i retval pc hnew]
            rfl
        | _ => rfl
      · rw [hlocal.pc_ne hu]
        exact hanswers u
  | run t _ hrun _ _ heffect hmoves =>
      by_cases hu : u = t
      · subst hu
        exact hmoves.answers (hanswers u)
      · rcases heffect.pc_cases (hinv.core.kernel.wait.spawned hrun) hu with
          hsame | ⟨-, hnew | ⟨i, hnew⟩⟩
        · rw [hsame]
          exact hanswers u
        · rw [hnew]
          rfl
        · rw [hnew]
          rfl

/-! ## The exiting thread -/

/-- The state with other contents of a descriptor and of a semaphore. -/
def overwrite (s : Sys α) (i : ThreadId) (D : PosixThread) (q : QueueId) (Q : Queue α) : Sys α :=
  { s with
    kern := { s.kern with queue := Function.update s.kern.queue q Q }
    desc := Function.update s.desc i D }

/-- The next step of task `u` neither reads nor writes the descriptor and the semaphore:
it is the same step whatever they hold, and it leaves them as they are. -/
def Untouched (sizes : Sizes) (s : Sys α) (u : TaskId) (i : ThreadId) (q : QueueId) : Prop :=
  ∀ D Q, (s.overwrite i D q Q).step sizes (.run u) =
    (s.step sizes (.run u)).map fun s' => s'.overwrite i D q Q

/-- Whether the task may run does not depend on the two objects. -/
theorem untouched_of (hrun : s.fault = none → s.kern.canRun u → ∀ D Q,
    (s.overwrite i D q Q).step sizes (.run u) = (s.step sizes (.run u)).map fun s' =>
      s'.overwrite i D q Q) :
    Untouched sizes s u i q := by
  intro D Q
  by_cases hfault : s.fault = none
  · by_cases hcan : s.kern.canRun u
    · exact hrun hfault hcan D Q
    · have hcan' : ¬ (s.overwrite i D q Q).kern.canRun u := hcan
      simp [step, hcan, hcan']
  · have hfault' : (s.overwrite i D q Q).fault ≠ none := hfault
    simp [step, hfault, hfault']

/-- The return from `xSemaphoreGive`. -/
theorem untouched_leave {f : Frame α} {res : QueueResult α} (hframe : s.frame u = some f)
    (hpc : f.pc = .leave res) : Untouched sizes s u i q := by
  refine untouched_of fun hfault hcan D Q => ?_
  have hframe' : (s.overwrite i D q Q).frame u = some f := hframe
  have hfault' : (s.overwrite i D q Q).fault = none := hfault
  have hcan' : (s.overwrite i D q Q).kern.canRun u := hcan
  have hrun : s.kern.step (.run u) = some ((s.kern.switchTo u).leave u f res) := by
    simp [State.step, Act.actor, hcan, show (s.kern.task u).frame = some f from hframe,
      State.runFrame, hpc, Pc.touchesQueue]
  have hrun' : (s.overwrite i D q Q).kern.step (.run u) =
      some (((s.overwrite i D q Q).kern.switchTo u).leave u f res) := by
    simp [State.step, Act.actor, hcan', show ((s.overwrite i D q Q).kern.task u).frame = some f
        from hframe,
      State.runFrame, hpc, Pc.touchesQueue]
  simp only [step, hfault, hfault', hcan, hcan', hframe, hframe', Option.isNone_none, if_true,
    kernel, hrun, hrun', Option.map_some, ite_self, id_eq]
  have hleave : ((s.overwrite i D q Q).kern.switchTo u).leave u f res =
      { (s.kern.switchTo u).leave u f res with queue := Function.update s.kern.queue q Q } := by
    simp only [State.leave]
    split <;> rfl
  have hqueue : ((s.kern.switchTo u).leave u f res).queue = s.kern.queue := by
    simp only [State.leave]
    split <;> rfl
  rw [hleave]
  simp [overwrite, hqueue]

/-- The code behind `xSemaphoreGive`. -/
theorem untouched_exit {pc : ExitPc} (hframe : s.frame u = none)
    (hevent : (s.kern.task u).xEventList = none) (hpc : s.pc u = .exit pc)
    (hend : pc = .taskDelete ∨ ∃ j, pc = .given j) :
    Untouched sizes s u i q := by
  refine untouched_of fun hfault hcan D Q => ?_
  have hframe' : (s.overwrite i D q Q).frame u = none := hframe
  have hfault' : (s.overwrite i D q Q).fault = none := hfault
  have hcan' : (s.overwrite i D q Q).kern.canRun u := hcan
  have hpc' : (s.overwrite i D q Q).pc u = .exit pc := hpc
  simp only [step, hfault, hfault', hcan, hcan', hframe, hframe', Option.isNone_none, if_true, hpc,
    hpc', advance]
  rcases hend with rfl | ⟨j, rfl⟩
  · have hstep : ∀ k : State α, k.canRun u → (k.task u).frame = none →
        (k.switchTo u).step (.exit u) = some ((k.switchTo u).vTaskDelete u) := by
      intro k hk hf
      have hk' : (k.switchTo u).canRun u := by
        obtain ⟨hnone, hready, -⟩ := (k.canRun_iff u).mp hk
        exact (State.canRun_iff _ u).mpr ⟨hnone, hready, fun _ => rfl⟩
      have hf' : ((k.switchTo u).task u).frame = none := hf
      simp only [State.step, Act.actor, hk', hf', if_true]
      rfl
    have hremove : (s.kern.switchTo u).removeEventItem u = s.kern.switchTo u := by
      simp [State.removeEventItem, State.switchTo, hevent]
    have hremove' : ((s.overwrite i D q Q).kern.switchTo u).removeEventItem u =
        (s.overwrite i D q Q).kern.switchTo u := by
      simp [State.removeEventItem, State.switchTo, overwrite, hevent]
    have hdelete : ((s.overwrite i D q Q).kern.switchTo u).vTaskDelete u =
        { (s.kern.switchTo u).vTaskDelete u with queue := Function.update s.kern.queue q Q } := by
      simp only [State.vTaskDelete, hremove, hremove']
      by_cases hzero : (s.kern.switchTo u).uxSchedulerSuspended = 0
      · have hzero' : ((s.overwrite i D q Q).kern.switchTo u).uxSchedulerSuspended = 0 := hzero
        rw [if_pos hzero', if_pos hzero]
        rfl
      · have hzero' : ((s.overwrite i D q Q).kern.switchTo u).uxSchedulerSuspended ≠ 0 := hzero
        rw [if_neg hzero', if_neg hzero]
        rfl
    have hqueue : ((s.kern.switchTo u).vTaskDelete u).queue = s.kern.queue :=
      State.vTaskDelete_queue hevent
    simp only [exit, kernel, switchTo]
    rw [hstep _ hcan' hframe', hstep _ hcan hframe, hdelete]
    simp only [Option.map_some, Option.some.injEq]
    split <;> simp [overwrite, hqueue, goto, modInfo]
  · rfl

theorem untouched_dead (hframe : s.frame u = none) (hpc : s.pc u = .dead) :
    Untouched sizes s u i q := by
  refine untouched_of fun hfault hcan D Q => ?_
  have hframe' : (s.overwrite i D q Q).frame u = none := hframe
  have hfault' : (s.overwrite i D q Q).fault = none := hfault
  have hcan' : (s.overwrite i D q Q).kern.canRun u := hcan
  have hpc' : (s.overwrite i D q Q).pc u = .dead := hpc
  simp only [step, hfault, hfault', hcan, hcan', hframe, hframe', Option.isNone_none, if_true, hpc,
    hpc', advance, Option.map_none]

/-- A thread that has given its semaphore does not touch it again. -/
theorem Inv.untouched (hinv : s.Inv base low high nodes) (htask : (s.past i).task = some u)
    (hgave : s.body i = .gave) : Untouched sizes s u i q := by
  have hevent : s.frame u = none → (s.kern.task u).xEventList = none :=
    hinv.core.kernel.wait.not_listed
  have hcall := hinv.sems.calls u
  rw [body_of_task htask] at hgave
  cases hpc : s.pc u with
  | exit pc =>
      cases pc with
      | given j =>
          cases hframe : s.frame u with
          | none => exact untouched_exit hframe (hevent hframe) hpc (.inr ⟨j, rfl⟩)
          | some f =>
              -- the call has done its critical section
              cases hf : f.pc with
              | leave res => exact untouched_leave hframe hf
              | _ => simp [hpc, bodyOf, hframe, pending, hf] at hgave
      | taskDelete =>
          cases hframe : s.frame u with
          | none => exact untouched_exit hframe (hevent hframe) hpc (.inl rfl)
          | some f =>
              rcases hcall f hframe with ⟨h, -⟩ | ⟨_, _, h, -⟩ | ⟨_, h, -⟩ <;> simp [hpc] at h
      | _ => simp [hpc, bodyOf] at hgave
  | dead =>
      cases hframe : s.frame u with
      | none => exact untouched_dead hframe hpc
      | some f => rcases hcall f hframe with ⟨h, -⟩ | ⟨_, _, h, -⟩ | ⟨_, h, -⟩ <;> simp [hpc] at h
  | _ => simp [hpc, bodyOf] at hgave

/-- What is left of a thread when `pthread_join` has returned. -/
theorem Inv.joined (hinv : s.Inv base low high nodes) {value : Option Ptr}
    (huse : (s.past i).use = .joined value) :
    i ∉ nodes ∧ (s.past i).semFrees = 1 ∧ (s.past i).descFrees = 1 ∧
      ∃ u v, (s.past i).task = some u ∧ (s.info u).exited = some v ∧ ∀ x, value = some x →
      x = v := by
  have hmade : s.Made i := by
    by_contra hnot
    simp [((hinv.threads i).fresh hnot).1] at huse
  have hok := (hinv.threads i).life hmade
  have hhandle : (s.life nodes i).handle = .joined := by simp [life, Sys.handle, huse]
  obtain ⟨hlisted, hsem, hdesc, hpassed⟩ := hok.gave (hok.taken (by simp [hhandle, Handle.taken]))
  rw [hhandle] at hlisted hsem hdesc
  refine ⟨by simpa [life, Handle.keepsNode] using hlisted, ?_, ?_, ?_⟩
  · have hfrees := hok.semFrees
    rwa [hsem] at hfrees
  · have hfrees := hok.descFrees
    rwa [hdesc] at hfrees
  · obtain ⟨u, htask, -⟩ := (hinv.threads i).task hmade
    have hexited : (s.info u).exited = some (s.desc i).retval := by
      simpa [life, passed, htask] using hpassed
    refine ⟨u, _, htask, hexited, fun x hx => ?_⟩
    exact hok.out (by simp [hhandle, Handle.read]) x (by simp [life, out, huse, hx])

/-- A thread that was joined is at its end. -/
theorem Inv.joined_exits (hinv : s.Inv base low high nodes) {value : Option Ptr}
    (huse : (s.past i).use = .joined value) (htask : (s.past i).task = some u) :
    (s.pc u).exits := by
  have hmade : s.Made i := by
    by_contra hnot
    simp [((hinv.threads i).fresh hnot).1] at huse
  have hok := (hinv.threads i).life hmade
  have hgave : s.body i = .gave := hok.taken (by simp [life, Sys.handle, huse, Handle.taken])
  rw [body_of_task htask] at hgave
  cases hpc : s.pc u with
  | exit | dead => rfl
  | _ => simp [hpc, bodyOf] at hgave

/-- The step by which `pthread_join` returns 0. -/
theorem join_returns (hanswers : ∀ u, (s.pc u).answers) {retval : Bool} {pc : JoinPc}
    (hpc : s.pc t = .join i retval pc) (hstep : s.step sizes (.run t) = some s')
    (happ : s'.pc t = .app) (hret : (s'.info t).ret = some (.int 0)) :
    ∃ value, (s'.past i).use = .joined value ∧ value.isSome = retval := by
  cases step_effect hstep with
  | kernel a k _ hnext =>
      subst hnext
      simp [show Sys.pc { s with kern := k } t = s.pc t from rfl, hpc] at happ
  | call t' c hact => cases hact
  | run t' hact _ _ _ _ hmoves =>
      cases hact
      cases hmoves with
      | join j retval' pc' hold hmoves =>
          cases hold.symm.trans hpc
          cases hmoves with
          | stays hsame _ => simp [hsame, hpc] at happ
          | next pc' _ hnew _ => simp [hnew] at happ
          | failed _ _ hfailed => simp [hfailed] at hret
          | returns value hfree _ _ huse =>
              have hvalue := hanswers t
              rw [hpc, hfree] at hvalue
              exact ⟨value, huse, by simpa [Pc.answers] using hvalue⟩
      | exit pc' hold => simp [hold] at hpc
      | other hjoins => simp [hpc, Pc.joins] at hjoins

end Sys

/-! ## The handshake -/

variable {sizes : Sizes} {heap : Heap4} {low high uxPriority stackBytes : Nat} {s₀ s : Sys α}

/-- When `pthread_join` returns 0, the target has passed a value to `pthread_exit`, the
joiner has got this value, and all that is left of the thread has been reclaimed once.
From the take of the semaphore on, the target touches neither object. -/
theorem join_handshake (hsound : Sound heap low high)
    (hboot : Sys.boot sizes heap uxPriority stackBytes = some s₀)
    (hreach : Lib.Reach (Sys.step sizes) (fun s act => Act.Proper s act) s₀ s) :
    (∀ j h retval pc s', s.pc j = .join h retval pc → s.step sizes (.run j) = some s' →
      s'.pc j = .app → (s'.info j).ret = some (.int 0) →
      ∃ u v, (s'.past h).task = some u ∧ (s'.info u).exited = some v ∧
        (s'.past h).use = .joined (if retval then some v else none) ∧
        (∃ nodes, Lib.Chain s'.next s'.gThreadList nodes ∧ h ∉ nodes) ∧
        (s'.past h).semFrees = 1 ∧ (s'.past h).descFrees = 1) ∧
    ∀ h u q, (s.past h).task = some u → (s.desc h).joinSem = some q → (s.handle h).taken →
      Sys.Untouched sizes s u h q := by
  have hinv : (∃ nodes, s.Inv heap.block low high nodes) ∧ ∀ u, (s.pc u).answers := by
    -- what a join has copied out is what the thread passed to its exit
    refine hreach.invariant (fun s => (∃ nodes, s.Inv heap.block low high nodes) ∧
        ∀ u, (s.pc u).answers)
      ⟨⟨[], Sys.boot_inv hsound hboot⟩, fun u => ?_⟩ ?_
    · rw [(Sys.boot_blank hboot).1.pc u]
      rfl
    · rintro s act s' ⟨⟨nodes, hinv⟩, hanswers⟩ hproper hstep
      exact ⟨⟨_, hinv.step hproper hstep⟩, hinv.step_answers hanswers hstep⟩
  obtain ⟨⟨nodes, hinv⟩, hanswers⟩ := hinv
  constructor
  · intro j h retval pc s' hpc hstep happ hret
    obtain ⟨value, huse, hvalue⟩ := Sys.join_returns hanswers hpc hstep happ hret
    have hproper : Act.Proper s (.run j) := trivial
    have hinv' := hinv.step hproper hstep
    obtain ⟨hnot, hsem, hdesc, u, v, htask, hexited, heq⟩ := hinv'.joined huse
    refine ⟨u, v, htask, hexited, ?_, ⟨_, hinv'.registry.chain, hnot⟩, hsem, hdesc⟩
    cases retval with
    | false =>
        rw [huse, Option.isNone_iff_eq_none.mp (Option.isSome_eq_false_iff.mp hvalue)]
        rfl
    | true =>
        obtain ⟨x, rfl⟩ := Option.isSome_iff_exists.mp hvalue
        rw [huse, heq x rfl]
        rfl
  · intro h u q htask hsem htaken
    have hmade : s.Made h := by
      by_contra hnot
      simp [Sys.handle, ((hinv.threads h).fresh hnot).1, Handle.taken] at htaken
    exact hinv.untouched htask (((hinv.threads h).life hmade).taken htaken)

/-- A thread that passes 7 to `pthread_exit`, and a join up to its last step. -/
def joinSchedule : List (Act Unit) :=
  createSchedule 1 1 ++ [.run 2, .run 2, .call 2 (.pthreadExit 7)] ++ List.replicate 9 (.run 2) ++
    [.call 1 (.pthreadJoin (some 0) true)] ++ List.replicate 9 (.run 1)

theorem join_handshake_schedule : ∃ s s' : Sys Unit,
    demoRun (fun s act => decide (act.Proper s)) joinSchedule = some s ∧
      s.step demoSizes (.run 1) = some s' ∧
      (∃ u v, (s'.past 0).task = some u ∧ (s'.info u).exited = some v ∧
        (s'.past 0).use = .joined (some v) ∧
        (∃ nodes, Lib.Chain s'.next s'.gThreadList nodes ∧ 0 ∉ nodes) ∧
        (s'.past 0).semFrees = 1 ∧ (s'.past 0).descFrees = 1) ∧
      Sys.Untouched demoSizes s 2 0 0 := by
  have hrun : ((demoRun (fun s act => decide (act.Proper s)) joinSchedule).bind fun s =>
      (s.step demoSizes (.run 1)).map fun s' => decide (s.pc 1 = .join 0 true (.free (some 7)) ∧
        s'.pc 1 = .app ∧ (s'.info 1).ret = some (.int 0) ∧ (s.past 0).task = some 2 ∧
        (s.desc 0).joinSem = some 0 ∧ (s.handle 0).taken)) = some true := by
    decide +kernel
  obtain ⟨s, hs, hrest⟩ := Option.bind_eq_some_iff.mp hrun
  obtain ⟨s', hs', hvalues⟩ := Option.map_eq_some_iff.mp hrest
  obtain ⟨hpc, happ, hret, htask, hsem, htaken⟩ := of_decide_eq_true hvalues
  obtain ⟨s₀, hboot, hreach⟩ := demoRun_reach (fun _ _ => of_decide_eq_true) hs
  obtain ⟨low, high, hsound⟩ := demoHeap_sound
  obtain ⟨hreturns, huntouched⟩ := join_handshake hsound hboot hreach
  exact ⟨s, s', hs, hs', hreturns 1 0 true _ s' hpc hs' happ hret,
    huntouched 0 2 0 htask hsem htaken⟩

end SimulatedLinux.Thread
