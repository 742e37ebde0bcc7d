import SimulatedLinux.Thread.Kernel

/-! # Steps inside the blocking functions

A step of the kernel on behalf of the application does not reach a thread. A step of
a `pthread_join` or a `pthread_exit` on the semaphore of a thread takes it, gives it,
or leaves the thread as it is.
-/

namespace SimulatedLinux.Thread

open Kernel Heap

variable {α : Type}

/-! ## The semaphore of a thread -/

section Semaphore

variable {v v' : View α} {t : TaskId} {f : Frame α}

theorem succeeded_of_pending {frame : Option (Frame α)} (ret : Option (Kernel.Ret α))
    (hpending : pending frame = true) : succeeded frame ret = false := by
  cases frame with
  | none => simp [pending] at hpending
  | some f => cases hpc : f.pc <;> simp_all [pending, succeeded]

/-- What a step of the take in `pthread_join` does. -/
theorem ran_take {q : QueueId} (hran : Ran v t f v') (hframe : v.frame t = some f)
    (hf : f.WellFormed) (hapi : f.api = .xSemaphoreTake q portMaxDelay)
    (hmutex : (v.queue q).isMutex = false) :
    (v'.queue = v.queue ∧ succeeded (v'.frame t) (v'.ret t) = succeeded (some f) (v.ret t) ∨
      v'.queue = Function.update v.queue q ((v.queue q).taken t) ∧ (v.queue q).live ∧
        0 < (v.queue q).uxMessagesWaiting ∧ succeeded (some f) (v.ret t) = false ∧
        succeeded (v'.frame t) (v'.ret t) = true) ∧
      (v'.frame t = none → v'.ret t = some (.base true)) := by
  obtain ⟨n, hrequest, -, hforever⟩ := hf
  simp only [hapi, Api.request, Option.some.injEq, Prod.mk.injEq] at hrequest
  obtain ⟨hop, hq, rfl⟩ := hrequest
  obtain ⟨hpatient, hleave⟩ := hforever rfl
  have hwaits : ∀ g : Frame α, g.pc.looping ∨ g.pc = .attempt → pending (some g) = true := by
    rintro g (hpc | hpc)
    · cases hpc' : g.pc <;> simp_all [Pc.looping, pending]
    · simp [pending, hpc]
  cases hran with
  | halted fault hfaults =>
      exact ⟨.inl ⟨rfl, by dsimp only; rw [hframe]⟩, fun hnone => by simp [hframe] at hnone⟩
  | entered hpc =>
      exact ⟨.inl ⟨rfl, by simp [View.setFrame, succeeded, hpc]⟩, by simp [View.setFrame]⟩
  | waits timeOut hpc hticks hready =>
      exact ⟨.inl ⟨rfl, by simp [View.setFrame, succeeded, hpc]⟩, by simp [View.setFrame]⟩
  | moved frame' hpc hpc' hapi' hop' hqueue hpatient' =>
      refine ⟨.inl ⟨rfl, ?_⟩, by simp [View.setFrame]⟩
      simp only [View.setFrame, Function.update_self]
      rw [succeeded_of_pending _ (hwaits frame' hpc'), succeeded_of_pending _ (hwaits f (.inl hpc))]
  | gaveUp hpc hticks hready => simp [hpatient.1, portMaxDelay, tickModulus] at hticks
  | timedOut hpc hnot => exact absurd hpatient hnot
  | sent item hpc hop' => simp [← hop] at hop'
  | received hpc hop' => simp [← hop] at hop'
  | taken hpc hop' hlive hready =>
      rw [← hq] at hlive hready
      rw [← hop] at hready
      refine ⟨.inr ⟨?_, hlive, hready, by simp [succeeded, hpc], ?_⟩, ?_⟩
      · simp [View.complete, View.setFrame, View.setQueue, View.acquired, ← hq, hmutex]
      · simp [View.complete, View.setFrame, succeeded]
      · simp [View.complete, View.setFrame]
  | left res elapsed hpc =>
      cases res with
      | fail => exact absurd hpc hleave
      | pass item =>
          have hret : (v.leave t f.api (.pass item) (f.api.result (.pass item) elapsed)) =
              (v.setFrame t none).setRet t (some (.base true)) := by
            simp [View.leave, hapi, Api.locks, Api.result]
          rw [hret]
          refine ⟨.inl ⟨rfl, ?_⟩, fun _ => by simp [View.setRet]⟩
          simp [View.setRet, View.setFrame, succeeded, hpc]

/-- What a step of the give in `pthread_exit` does, if the semaphore is empty. -/
theorem ran_give {q : QueueId} (hran : Ran v t f v') (hframe : v.frame t = some f)
    (hf : f.WellFormed) (hapi : f.api = .xSemaphoreGive q)
    (hbinary : (v.queue q).uxLength = 1 ∧ (v.queue q).uxItemSize = 0 ∧ (v.queue q).isMutex = false)
    (hempty : pending (some f) = true → (v.queue q).uxMessagesWaiting = 0) :
    v'.queue = v.queue ∧ pending (v'.frame t) = pending (some f) ∨
      v'.queue = Function.update v.queue q ((v.queue q).sent none) ∧ pending (some f) = true ∧
        pending (v'.frame t) = false := by
  obtain ⟨n, hrequest, hzero, -⟩ := hf
  simp only [hapi, Api.request, Option.some.injEq, Prod.mk.injEq] at hrequest
  obtain ⟨hop, hq, rfl⟩ := hrequest
  obtain ⟨hticks, hlooping⟩ := hzero rfl
  cases hran with
  | halted fault hfaults => exact .inl ⟨rfl, by dsimp only; rw [hframe]⟩
  | entered hpc => exact .inl ⟨rfl, by simp [View.setFrame, pending, hpc]⟩
  | waits timeOut hpc hticks' hready => exact absurd hticks hticks'
  | moved frame' hpc => exact absurd hpc hlooping
  | gaveUp hpc hticks hready =>
      refine absurd ?_ hready
      rw [← hop, ← hq]
      have hcount := hempty (by simp [pending, hpc])
      simp [Op.ready, hcount, hbinary.1]
  | timedOut hpc => exact absurd hpc hlooping
  | sent item hpc hop' hlive hready hholder =>
      obtain rfl : item = none := by simpa [← hop] using hop'.symm
      refine .inr ⟨?_, by simp [pending, hpc], ?_⟩
      · simp [View.complete, View.setFrame, View.setQueue, View.released, ← hq, hbinary]
      · simp [View.complete, View.setFrame, pending]
  | received hpc hop' => simp [← hop] at hop'
  | taken hpc hop' => simp [← hop] at hop'
  | left res elapsed hpc =>
      refine .inl ⟨?_, ?_⟩
      · unfold View.leave
        cases f.api.locks <;> cases res <;> rfl
      · unfold View.leave
        cases f.api.locks <;> cases res <;> simp [View.setRet, View.setFrame, pending, hpc]

end Semaphore

namespace Sys

variable {s s' : Sys α} {t : TaskId} {nodes : List ThreadId} {i : ThreadId}
  {base : Nat → Option Nat} {low high : Nat} {k : State α} {f : Frame α}

/-- A kernel step reaches a thread of the registry through its life only. -/
theorem ThreadOk.ofKern (hinv : s.Inv base low high nodes) (hmade : s.Made i)
    (hlife : (Sys.life { s with kern := k } nodes i).Ok) :
    ThreadOk { s with kern := k } nodes i := by
  have hok := hinv.threads i
  have hroles := hinv.roles
  exact .ofMade ⟨hroles.creates, hroles.joins, hroles.detaches, hroles.tasks, hroles.own,
    hroles.passes⟩ hmade hlife (hok.sem hmade) (hok.task hmade) (hok.stored hmade) hok.notFailed
    hok.selfFreed

namespace Inv

variable (hinv : s.Inv base low high nodes)
include hinv

/-- The tick only schedules. -/
theorem tick (hk : s.kern.step .tick = some k) : Inv { s with kern := k } base low high nodes := by
  have hcore := hinv.core
  have hstepped := State.stepped_step hk
  have hcpu := State.step_tick_cpu hk
  have hunsuspended : (Kernel.Act.tick : Kernel.Act α).unsuspended s.kern := trivial
  have hcore' (hview : k.view.frame = s.kern.view.frame)
      (hfault : ∀ q, k.view.fault = some (.useAfterFree q) → s.semOwner q = none) :
      Core { s with kern := k } := by
    refine ⟨hcore.kernel.step hunsuspended hk, hcore.calls.step (by simp) hstepped, fun c hc => ?_,
      fun hne => ?_, hcore.fault, hfault⟩
    · obtain ⟨hwindow, hframe⟩ := hcore.window c hc
      exact ⟨hcpu.trans hwindow, (congrFun hview c).trans hframe⟩
    · have hframe' : ∀ u, (k.task u).frame = s.frame u := congrFun hview
      dsimp only at hne ⊢
      rw [hcpu] at hne
      rw [hcpu]
      simp only [Sys.frame, hframe']
      exact hcore.running hne
  generalize hv : k.view = v at hstepped hcore'
  cases hstepped with
  | scheduled =>
      exact hinv.ofView (by rw [hv]) (by rw [hv]) (by rw [hv]) (by rw [hv])
        (by rw [hv]) (by rw [hv]) (hcore' rfl hcore.kernFault)
  | asserted =>
      exact hinv.ofView (by rw [hv]) (by rw [hv]) (by rw [hv]) (by rw [hv])
        (by rw [hv]) (by rw [hv]) (hcore' rfl (by simp))

/-- No semaphore of a thread is deleted while a call on it has to look at it. -/
theorem live_of_call (hcall : s.InCall t f) (hframe : s.frame t = some f)
    (hpc : f.pc.touchesQueue) (hdead : (s.kern.view.queue f.xQueue).live = false) :
    s.semOwner f.xQueue = none := by
  have hpending : pending (some f) = true := by
    cases hpc' : f.pc <;> simp_all [Pc.touchesQueue, pending]
  cases hcall with
  | app hpc' howner => exact howner
  | join h retval hpc' hsem hapi =>
      obtain ⟨huse, hmade⟩ := hinv.joining hpc'
      have hok := (hinv.threads h).life hmade
      have hhandle : (s.life nodes h).handle = .waiting := by
        refine (handle_of_joining huse).1.trans ?_
        rw [hpc', hframe, succeeded_of_pending _ hpending]
        rfl
      have hkept := (hok.kept_of_handle (by simp [hhandle])).2.1
      rw [hhandle] at hkept
      simp [life, Sys.sem, hsem, hdead, Handle.keepsSem] at hkept
  | exit h hpc' hsem hapi =>
      obtain ⟨htask, hmade⟩ := hinv.exiting hpc' rfl
      have hok := (hinv.threads h).life hmade
      have hbody : (s.life nodes h).body = .giving := by
        refine (body_of_task htask).trans ?_
        rw [hpc', hframe]
        simp [bodyOf, hpending]
      have hkept := (hok.untaken (hok.not_taken (by simp [hbody]))).2.1
      rw [hbody] at hkept
      simp [life, Sys.sem, hsem, hdead, Body.keepsSem] at hkept

/-- A step inside a call of the application, or on the semaphore of another thread,
does not reach a thread. -/
theorem run_other (hran : Ran s.kern.view t f k.view) (hframe : s.frame t = some f)
    (hcall : s.InCall t f) (howner : s.semOwner f.xQueue ≠ some i) :
    ThreadOk { s with kern := k } nodes i := by
  have hother : (s.pc t).joins ≠ some i ∧
      ((s.past i).task = some t → ∀ frame : Option (Frame α), ∀ freed,
        bodyOf (s.pc t) frame freed = .running) := by
    cases hcall with
    | app hpc _ =>
        rw [hpc]
        exact ⟨by simp [Pc.joins], fun _ _ _ => rfl⟩
    | join h retval hpc hsem hapi =>
        rw [hpc]
        refine ⟨?_, fun _ _ _ => rfl⟩
        rintro ⟨⟩
        exact howner (hinv.sems.owner i _ hsem)
    | exit h hpc hsem hapi =>
        refine ⟨by simp [hpc, Pc.joins], fun htask => ?_⟩
        have hparam := hinv.roles.own t h (by simp [hpc, Pc.own, ExitPc.thread])
        have hparam' : (s.info t).param = some i := (hinv.roles.tasks i t).mp htask
        obtain rfl : h = i := Option.some.inj (hparam.symm.trans hparam')
        exact absurd (hinv.sems.owner h _ hsem) howner
  refine (hinv.threads i).keep hinv.roles hinv.sems Iff.rfl rfl rfl Iff.rfl (fun q hq => ⟨hq, ?_⟩)
    (fun _ _ _ => Iff.rfl) (fun u htask => ?_) fun j hj => ?_
  · refine hran.queue_ne ?_
    rintro rfl
    exact howner hq
  · by_cases hu : u = t
    · subst hu
      have hrunning := hother.2 htask
      refine ⟨rfl, rfl, ?_, fun _ => rfl, fun hnot => ?_⟩
      · exact (hrunning _ _).trans (hrunning _ _).symm
      · -- a task that has not run is in no call
        obtain ⟨-, -, hupc⟩ := hinv.creator_of_task hnot htask
        cases hcall <;> simp_all
    · have hframe' : frame { s with kern := k } u = s.frame u := hran.frame_ne hu
      exact ⟨rfl, rfl, by rw [hframe']; rfl, fun _ => rfl, fun _ => ⟨rfl, hframe'⟩⟩
  · have hne : j ≠ t := by
      rintro rfl
      exact hother.1 ((hinv.roles.joins i j).mp hj)
    exact ⟨rfl, hran.frame_ne hne, hran.ret_ne hne⟩

/-- A step of the take in `pthread_join`. -/
theorem run_join (hran : Ran s.kern.view t f k.view) (hframe : s.frame t = some f) {retval : Bool}
    (hpc : s.pc t = .join i retval .taken) (hsem : (s.desc i).joinSem = some f.xQueue)
    (hapi : f.api = .xSemaphoreTake f.xQueue portMaxDelay) :
    ThreadOk { s with kern := k } nodes i ∧
      ((k.task t).frame = none → (k.task t).ret = some (.base true)) := by
  obtain ⟨huse, hmade⟩ := hinv.joining hpc
  have hok := (hinv.threads i).life hmade
  obtain ⟨-, hlength, hsize, hmutex⟩ := hinv.sems.binary i _ (hinv.sems.owner i _ hsem)
  obtain ⟨hcases, hreturned⟩ :=
    ran_take hran hframe (hinv.core.calls.wellFormed t f hframe) hapi hmutex
  have hlocal : Local s { s with kern := k } t none := .ofEq t rfl rfl rfl rfl
  obtain ⟨hbody, hpassed⟩ := body_keep (i := i) hlocal (fun u hu => hran.frame_ne hu) rfl fun _ =>
    ⟨rfl, by dsimp only [pc] at hpc ⊢; rw [hpc]; rfl⟩
  have hhandle : (s.life nodes i).handle =
      JoinPc.taken.handle (succeeded (some f) (s.kern.task t).ret) := by
    refine (handle_of_joining huse).1.trans ?_
    rw [hpc, hframe]
    rfl
  have hhandle' : (Sys.life { s with kern := k } nodes i).handle =
      JoinPc.taken.handle (succeeded (k.task t).frame (k.task t).ret) := by
    refine (handle_of_joining (s := { s with kern := k }) huse).1.trans ?_
    exact congrArg (fun pc => Pc.handle pc _) hpc
  have hout : Sys.out { s with kern := k } i = s.out i := rfl
  refine ⟨.ofKern hinv hmade ?_, hreturned⟩
  rcases hcases with ⟨hqueue, hsame⟩ | ⟨hqueue, hlive, hcount, hbefore, hafter⟩
  · have hlife : Sys.life { s with kern := k } nodes i = s.life nodes i := by
      refine Life.ext hbody ?_ rfl ?_ rfl rfl ?_ rfl hpassed hout rfl rfl
      · rw [hhandle', hhandle]
        exact congrArg (JoinPc.handle .taken) hsame
      · simp [life, Sys.sem, hqueue]
      · simp [life, Sys.sem, hqueue]
    rw [hlife]
    exact hok
  · have hlife : Sys.life { s with kern := k } nodes i =
        { s.life nodes i with handle := .reading, count := (s.life nodes i).count - 1 } := by
      refine Life.ext hbody ?_ rfl ?_ rfl rfl ?_ rfl hpassed hout rfl rfl
      · rw [hhandle']
        exact congrArg (JoinPc.handle .taken) hafter
      · simp [life, Sys.sem, hsem, hqueue, Contents.taken]
      · simp [life, Sys.sem, hsem, hqueue, Contents.taken]
    rw [hlife]
    refine hok.move (.takes _ ?_ ?_ ?_)
    · rw [hhandle]
      exact congrArg (JoinPc.handle .taken) hbefore
    · simpa [life, Sys.sem, hsem] using hlive
    · simpa [life, Sys.sem, hsem] using hcount

/-- A step of the give in `pthread_exit`. -/
theorem run_exit (hran : Ran s.kern.view t f k.view) (hframe : s.frame t = some f)
    (hpc : s.pc t = .exit (.given i)) (hsem : (s.desc i).joinSem = some f.xQueue)
    (hapi : f.api = .xSemaphoreGive f.xQueue) : ThreadOk { s with kern := k } nodes i := by
  obtain ⟨htask, hmade⟩ := hinv.exiting hpc rfl
  have hok := (hinv.threads i).life hmade
  obtain ⟨-, hbinary⟩ := hinv.sems.binary i _ (hinv.sems.owner i _ hsem)
  have hbody : (s.life nodes i).body = if pending (some f) then .giving else .gave := by
    refine (body_of_task htask).trans ?_
    rw [hpc, hframe]
    rfl
  have hbody' : (Sys.life { s with kern := k } nodes i).body =
      if pending (k.task t).frame then .giving else .gave := by
    refine (body_of_task (s := { s with kern := k }) htask).trans ?_
    exact congrArg (fun pc => bodyOf pc _ _) hpc
  have hempty : pending (some f) = true → (s.kern.view.queue f.xQueue).uxMessagesWaiting = 0 := by
    intro hpending
    rw [if_pos hpending] at hbody
    obtain ⟨-, hkept, -, hcount⟩ := hok.untaken (hok.not_taken (by simp [hbody]))
    rw [hbody] at hkept hcount
    simpa [life, Sys.sem, hsem] using hcount hkept
  have hjoiner : (s.past i).use.joiner ≠ some t := by
    intro hjoiner
    have hjoins : (s.pc t).joins = some i := (hinv.roles.joins i t).mp hjoiner
    simp [hpc, Pc.joins] at hjoins
  have hlocal : Local s { s with kern := k } t none := .ofEq t rfl rfl rfl rfl
  obtain ⟨hhandle, hout⟩ := handle_keep (i := i) hlocal rfl hjoiner (fun u hu => hran.frame_ne hu)
    fun u hu => hran.ret_ne hu
  refine .ofKern hinv hmade ?_
  rcases ran_give hran hframe (hinv.core.calls.wellFormed t f hframe) hapi hbinary hempty with
    ⟨hqueue, hsame⟩ | ⟨hqueue, hbefore, hafter⟩
  · have hsame' : pending (k.task t).frame = pending (some f) := hsame
    have hlife : Sys.life { s with kern := k } nodes i = s.life nodes i := by
      refine Life.ext ?_ hhandle rfl ?_ rfl rfl ?_ rfl rfl hout rfl rfl
      · rw [hbody', hbody, hsame']
      · simp [life, Sys.sem, hqueue]
      · simp [life, Sys.sem, hqueue]
    rw [hlife]
    exact hok
  · have hafter' : pending (k.task t).frame = false := hafter
    have hlife : Sys.life { s with kern := k } nodes i =
        { s.life nodes i with body := .gave, count := (s.life nodes i).count + 1 } := by
      refine Life.ext ?_ hhandle rfl ?_ rfl rfl ?_ rfl rfl hout rfl rfl
      · rw [hbody', hafter', if_neg (by simp)]
      · simp [life, Sys.sem, hsem, hqueue, Contents.sent, hbinary.2.1]
      · simp [life, Sys.sem, hsem, hqueue, Contents.sent, hbinary.2.1]
    rw [hlife]
    refine hok.move (.gives _ ?_)
    rw [hbody, if_pos hbefore]

/-- A step inside a blocking function. -/
theorem run (hframe : s.frame t = some f) (hk : s.kern.step (.run t) = some k) :
    Inv { s with kern := k } base low high nodes := by
  have hcore := hinv.core
  obtain ⟨f', hf', hran⟩ := State.step_run_ran hk
  obtain rfl : f = f' := Option.some.inj (hframe.symm.trans hf')
  have hcall := hinv.sems.calls t f hframe
  have hunsuspended : (Kernel.Act.run t : Kernel.Act α).unsuspended s.kern := trivial
  obtain ⟨hcurrent, hover⟩ := State.step_run_cpu hcore.kernel hk
  -- a task that has suspended the scheduler is in no call, and it is the one that runs
  have hwindow : ∀ c, (s.pc c).inWindow = false := by
    intro c
    refine Bool.eq_false_iff.mpr fun hc => ?_
    obtain ⟨hcpu, hnone⟩ := hcore.window c hc
    have hrun := ((s.kern.canRun_iff t).mp (State.step_canRun rfl hk)).2.2
    have hct : c = t := by
      have hcpu2 : s.kern.cpu.2 = t := hrun (by
        have hone : s.kern.cpu.1 = 1 := by rw [hcpu]
        exact fun hzero => absurd (hone.symm.trans hzero) (by simp))
      rw [← hcpu2, hcpu]
    rw [hct, hframe] at hnone
    simp at hnone
  -- the step is about one semaphore, and that one belongs to at most one thread
  have hthreads : ∀ i, ThreadOk { s with kern := k } nodes i := by
    intro i
    by_cases howner : s.semOwner f.xQueue = some i
    · cases hcall with
      | app hpc hnone => simp [hnone] at howner
      | join h retval hpc hsem hapi =>
          obtain rfl : h = i := Option.some.inj ((hinv.sems.owner h _ hsem).symm.trans howner)
          exact (hinv.run_join hran hframe hpc hsem hapi).1
      | exit h hpc hsem hapi =>
          obtain rfl : h = i := Option.some.inj ((hinv.sems.owner h _ hsem).symm.trans howner)
          exact hinv.run_exit hran hframe hpc hsem hapi
    · exact hinv.run_other hran hframe hcall howner
  have hroles := hinv.roles
  have htasks := hinv.tasks
  have hsems := hinv.sems
  have hregistry := hinv.registry
  refine ⟨⟨hcore.kernel.step hunsuspended hk, hcore.calls.step (by simp) (.ran hframe hran),
      fun c hc => ?_, fun hne => ?_, hcore.fault, fun q hq => ?_⟩,
    ⟨hroles.creates, hroles.joins, hroles.detaches, hroles.tasks, hroles.own, hroles.passes⟩, ?_,
    ⟨fun u g hg => ?_, fun u h retval hu hnone => ?_, hsems.reads, hsems.owner, hsems.maker,
      fun h q hq => ?_⟩, hthreads, ⟨hregistry.chain, hregistry.order, hregistry.untracked⟩,
    hinv.sound, ?_⟩
  · exact absurd ((hwindow c).symm.trans hc) (by simp)
  · refine .inr (Option.isSome_iff_ne_none.mpr fun hnone => hne (hover ?_))
    rw [hcurrent] at hnone
    exact hnone
  · have hq' : k.view.fault = some (.useAfterFree q) := hq
    have hnone : s.kern.view.fault = none := ((s.kern.canRun_iff t).mp (State.step_canRun rfl hk)).1
    rcases hran.fault_cases with hsame | ⟨fault, hfaults, hfault⟩
    · simp [hsame, hnone] at hq'
    · obtain rfl : fault = .useAfterFree q := Option.some.inj (hfault.symm.trans hq')
      -- a deleted queue is used by no call that is in progress
      cases hfaults with
      | freed hpc hdead => exact hinv.live_of_call hcall hframe hpc hdead
  · obtain ⟨hunborn, hwaiting, hidle, hfrees, hstack, htcb⟩ := htasks
    refine ⟨?_, ?_, hidle, ?_, ?_, ?_⟩ <;> dsimp only
    · rw [hran.nextTask]
      exact hunborn
    · rw [hran.termination]
      exact hwaiting
    · rw [hran.nextTask, hran.termination]
      exact hfrees
    · rw [hran.nextTask, hran.termination]
      exact hstack
    · rw [hran.nextTask, hran.termination]
      exact htcb
  · by_cases hu : u = t
    · subst hu
      obtain ⟨-, hapi, hqueue⟩ := hran.wellFormed hframe (hcore.calls.wellFormed u f hframe) hg
      cases hcall with
      | app hpc hnone => exact .app hpc (by rw [hqueue]; exact hnone)
      | join h retval hpc hsem hapi' =>
          exact .join h retval hpc (by rw [hqueue]; exact hsem) (by rw [hapi, hqueue]; exact hapi')
      | exit h hpc hsem hapi' =>
          exact .exit h hpc (by rw [hqueue]; exact hsem) (by rw [hapi, hqueue]; exact hapi')
    · exact (hsems.calls u g ((hran.frame_ne hu).symm.trans hg)).keep rfl (fun _ => rfl) id
  · by_cases hut : u = t
    · subst hut
      cases hcall with
      | app hpc _ => simp [show s.pc u = _ from hu] at hpc
      | join h' retval' hpc hsem hapi => exact (hinv.run_join hran hframe hpc hsem hapi).2 hnone
      | exit h' hpc _ _ => simp [show s.pc u = _ from hu] at hpc
    · exact (hran.ret_ne hut).trans
        (hsems.returned u h retval hu ((hran.frame_ne hut).symm.trans hnone))
  · obtain ⟨hlt, hlength, hsize, hmutex⟩ := hsems.binary h q hq
    have hsame := hran.queue_same q
    exact ⟨by dsimp only; rw [hran.nextQueue]; exact hlt, hsame.uxLength.trans hlength,
      hsame.uxItemSize.trans hsize, hsame.isMutex.trans hmutex⟩
  · have howned : owned { s with kern := k } = s.owned :=
      owned_keep (t := t) (h := none) (.ofEq t rfl rfl rfl rfl) (by simp)
        (fun q => (hran.queue_same q).live) rfl rfl rfl
    rw [howned]
    exact hinv.ledger

end Inv

end Sys

end SimulatedLinux.Thread
