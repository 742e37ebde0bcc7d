import SimulatedLinux.Thread.Fields

/-! # Kernel calls of the shim

The steps that suspend or resume the scheduler, enter a blocking function, or wait,
and the steps inside the blocking functions.
-/

namespace SimulatedLinux.Thread

open Kernel Heap

variable {α : Type}

namespace Sys

variable {s s' : Sys α} {t : TaskId} {nodes : List ThreadId} {i : ThreadId}
  {base : Nat → Option Nat} {low high : Nat} {k : State α} {act : Kernel.Act α}

theorem kernel_cases {next : Sys α → Sys α} (hstep : s.kernel act next = some s') :
    ∃ k, s.kern.step act = some k ∧
      (k.fault = none ∧ s' = next { s with kern := k } ∨ k.fault ≠ none ∧
        s' = { s with kern := k }) := by
  obtain ⟨k, hk, rfl⟩ := Option.map_eq_some_iff.mp hstep
  refine ⟨k, hk, ?_⟩
  cases hfault : k.fault <;> simp

namespace Turn

variable (hturn : Turn base low high s t nodes)
include hturn

/-- What the kernel does for a call of the running task. -/
theorem kernelCall (hactor : act.actor = some t)
    (hcall : ∀ u api, act = .call u api → (s.pc t).inWindow = false ∧
      ∀ q, api.target = some q → q < s.kern.view.nextQueue)
    (hstep : s.kern.step act = some k) :
    KernelInv k ∧ (Calls k.view fun _ _ => True) ∧ k.cpu = (act.suspension s.kern.cpu.1, t) ∧
      Stepped s.kern.view act k.view := by
  have hcore := hturn.inv.core
  have hstepped := State.stepped_step hstep
  have hunsuspended : act.unsuspended s.kern := by
    cases act with
    | call u api =>
        have hzero := hturn.suspended
        rw [(hcall u api rfl).1, if_neg (by simp)] at hzero
        exact hzero
    | _ => trivial
  refine ⟨hcore.kernel.step hunsuspended hstep, hcore.calls.step ?_ hstepped,
    State.step_cpu hcore.kernel hactor hturn.frame hstep, hstepped⟩
  rintro u api rfl q hq
  exact ⟨(hcall u api rfl).2 q hq, trivial⟩

/-- The kernel stops. -/
theorem kernelFault (hactor : act.actor = some t)
    (hcall : ∀ u api, act = .call u api → (s.pc t).inWindow = false ∧
      ∀ q, api.target = some q → q < s.kern.view.nextQueue)
    (hsuspension : act.suspension s.kern.cpu.1 = s.kern.cpu.1)
    (hfreed : ∀ q, act = .delete t q → (s.kern.view.queue q).live = false → s.semOwner q = none)
    (hstep : s.kern.step act = some k) (hfault : k.fault ≠ none) :
    Inv { s with kern := k } base low high nodes := by
  obtain ⟨hkernel, hcalls, hcpu, hstepped⟩ := hturn.kernelCall hactor hcall hstep
  have hframe : s.kern.view.frame t = none := hturn.frame
  have hview := hstepped.of_fault hactor hframe hturn.kernFault hfault
  have hcpu' : k.cpu = s.kern.cpu := by
    rw [hcpu, hsuspension, ← hturn.current]
  have hcore := hturn.inv.core
  have hcore' (hframes : k.view.frame = s.kern.view.frame)
      (hkernFault : ∀ q, k.fault = some (.useAfterFree q) → s.semOwner q = none) :
      Core { s with kern := k } := by
    refine ⟨hkernel, hcalls, fun c hc => ?_, fun hne => ?_, hcore.fault, hkernFault⟩
    · obtain ⟨hwindow, hcframe⟩ := hcore.window c hc
      exact ⟨hcpu'.trans hwindow, (congrFun hframes c).trans hcframe⟩
    · have hframe' : ∀ u, (k.task u).frame = s.frame u := congrFun hframes
      dsimp only at hne ⊢
      rw [hcpu'] at hne
      rw [hcpu']
      simp only [Sys.frame, hframe']
      exact hcore.running hne
  rcases hview with hview | ⟨q, hact, hdead, hview⟩
  · have hfault' : k.fault = some .assertion := congrArg View.fault hview
    exact hturn.inv.ofView (by rw [hview]) (by rw [hview]) (by rw [hview]) (by rw [hview])
      (by rw [hview]) (by rw [hview]) (hcore' (by rw [hview]) (by simp [hfault']))
  · have hfault' : k.fault = some (.useAfterFree q) := congrArg View.fault hview
    refine hturn.inv.ofView (by rw [hview]) (by rw [hview]) (by rw [hview]) (by rw [hview])
      (by rw [hview]) (by rw [hview]) (hcore' (by rw [hview]) fun q' hq' => ?_)
    rw [hfault'] at hq'
    cases hq'
    exact hfreed q hact hdead

/-! ## The suspension of the scheduler -/

/-- A kernel call that only schedules, and the code after it. -/
theorem schedule {f : Info → Info} {old n : Pc} {h : Option ThreadId} (ret : Option Ret)
    (hold : s.pc t = old) (hf : f (s.info t) = { s.info t with pc := n, ret := ret })
    (hidle : t ≠ idleTask) (hkernel : KernelInv k) (hcalls : Calls k.view fun _ _ => True)
    (hview : k.view = s.kern.view) (hcpu : k.cpu = (if n.inWindow then 1 else 0, t))
    (hquiet : Pc.Quiet old n) (hmaker : ∀ i q, old ≠ .create i (.joinSem q))
    (huntaken : ∀ i retval, n ≠ .join i retval .taken)
    (hroles : n.creates = old.creates ∧ n.joins = old.joins ∧ n.detaches = old.detaches)
    (hown : n.own = none ∧ n.passes = none ∧ n.reads = none)
    (hsubject : ∀ i, old.subject = some i → h = some i)
    (hsubject' : ∀ i, n.subject = some i → h = some i)
    (hbody : ∀ freed, bodyOf n (none : Option (Frame α)) freed =
      bodyOf old (none : Option (Frame α)) freed) (hends : old ≠ .exit .taskDelete)
    (hthread : ∀ i, h = some i → (modInfo { s with kern := k } t f).Roles →
      (modInfo { s with kern := k } t f).ThreadOk nodes i) :
    (modInfo { s with kern := k } t f).Inv base low high nodes := by
  have hlocal : Local s (modInfo { s with kern := k } t f) t h :=
    (Local.ofEq t rfl rfl rfl rfl : Local s { s with kern := k } t h).trans
      (.modInfo _ t n ret _ hf)
  have hkern : (modInfo { s with kern := k } t f).kern = k := rfl
  have hnew : (modInfo { s with kern := k } t f).pc t = n := by
    rw [pc_modInfo]
    exact congrArg Info.pc hf
  have hexited : ((modInfo { s with kern := k } t f).info t).exited = (s.info t).exited := by
    have hinfo : (modInfo { s with kern := k } t f).info t = f (s.info t) := Function.update_self ..
    rw [hinfo, hf]
  have hframe : ∀ u, (modInfo { s with kern := k } t f).frame u = s.frame u :=
    congrFun (congrArg View.frame hview)
  have hret : ∀ u, (k.task u).ret = (s.kern.task u).ret := congrFun (congrArg View.ret hview)
  have hfault : k.fault = none := (congrArg View.fault hview).trans hturn.kernFault
  have hroles' : (modInfo { s with kern := k } t f).Roles :=
    hturn.inv.roles.keep hlocal (by rw [hnew, hold, hroles.1]) (by rw [hnew, hold, hroles.2.1])
      (by rw [hnew, hold, hroles.2.2]) (by simp [hnew, hown.1]) (by simp [hnew, hown.2.1])
      fun _ _ => ⟨rfl, rfl⟩
  refine hturn.moveView hlocal rfl hview ?_ hidle hold hnew hquiet hroles' ?_
    (fun _ _ => ⟨rfl, rfl, rfl⟩) (fun _ => rfl) ?_ hsubject hsubject'
    (fun i _ _ => ⟨hexited, hbody, hends⟩) fun i hi => hthread i hi hroles'
  · refine hturn.core hlocal hkernel hcalls (congrArg Prod.snd hcpu) (fun hin => ⟨?_, ?_⟩)
      (fun hne => ?_) hturn.inv.core.fault ?_
    · rw [hnew] at hin
      rw [hkern, hcpu, if_pos hin]
    · rw [hframe]
      exact hturn.frame
    · rw [hkern, hcpu] at hne
      rw [hnew]
      exact .inl (by_contra fun hin => hne (if_neg hin))
    · intro q hq
      have hq' : k.fault = some (.useAfterFree q) := hq
      simp [hfault] at hq'
  · refine hturn.inv.sems.keep hlocal rfl (fun u _ => hframe u) (fun u _ => hret u) (fun g hg => ?_)
      (fun i retval hpc => absurd (hnew.symm.trans hpc) (huntaken i retval))
      (by simp [hnew, hown.2.2]) (fun _ _ => rfl) (hold ▸ hmaker)
      (.ofEq (congrArg View.nextQueue hview) (congrArg View.queue hview))
    rw [hframe, hturn.frame] at hg
    simp at hg
  · intro value hfind
    have hpasses := hown.2.1
    simp [hfind, Pc.passes] at hpasses

/-- `pthread_create` suspends the scheduler. -/
theorem createSuspend {sizes : Sizes} (hpc : s.pc t = .create i .suspendAll)
    (hstep : s.create sizes t i .suspendAll = some s') : s'.Inv base low high nodes := by
  simp only [create] at hstep
  obtain ⟨k, hk, hcases⟩ := kernel_cases hstep
  obtain ⟨hkernel, hcalls, hcpu, -⟩ := hturn.kernelCall rfl (by simp) hk
  have hview := State.step_suspendAll hturn.frame hk
  have hfault : k.fault = none := (congrArg View.fault hview).trans hturn.kernFault
  obtain ⟨-, rfl⟩ : k.fault = none ∧ _ := hcases.resolve_right fun hf => hf.1 hfault
  obtain ⟨hbuilding, hborn, hnot⟩ := hturn.building hpc rfl
  have hzero := hturn.suspended
  rw [hpc, if_neg (by simp [Pc.inWindow, CreatePc.inWindow])] at hzero
  refine hturn.schedule (h := some i)
    (n := .create i (.task (.stack threadPriority threadStackBytes))) _ hpc rfl
    (hturn.not_idle hpc rfl) hkernel hcalls hview ?_ ⟨rfl, rfl, by simp, by simp⟩ (by simp)
    (by simp) ⟨rfl, rfl, rfl⟩ ⟨rfl, rfl, rfl⟩ (by simp [Pc.subject]) (by simp [Pc.subject])
    (fun _ => rfl) (by simp) ?_
  · rw [hcpu, hzero]
    rfl
  · rintro i' ⟨⟩ hroles
    refine .ofBuilding (p := .task (.stack threadPriority threadStackBytes)) hroles hborn
      (pc_goto ..) rfl ((hturn.inv.threads i).fresh hnot) (fun c => ?_)
      ⟨hbuilding.live, hbuilding.joinable, by simp, fun _ => ?_, by simp [CreatePc.hasSem],
        by simp [CreatePc.hasTask], fun _ => hbuilding.noTask rfl⟩
    · refine hturn.not_storing (h := some i) ?_ hnot ?_ c
      · exact (Local.ofEq t rfl rfl rfl rfl : Local s { s with kern := k } t _).trans (.goto _ t _)
      · rw [← goto, pc_goto]
        simp
    · obtain ⟨q, hq, howner, hlive, hcount⟩ := hbuilding.hasSem rfl
      have hqueue : k.view.queue q = s.kern.view.queue q := congrFun (congrArg View.queue hview) q
      exact ⟨q, hq, howner, hqueue ▸ hlive, hqueue ▸ hcount⟩

/-- `pthread_create` resumes the scheduler and returns. -/
theorem createResume {sizes : Sizes} (hpc : s.pc t = .create i .resumeAll)
    (hstep : s.create sizes t i .resumeAll = some s') : s'.Inv base low high nodes := by
  simp only [create] at hstep
  obtain ⟨k, hk, hcases⟩ := kernel_cases hstep
  obtain ⟨hkernel, hcalls, hcpu, -⟩ := hturn.kernelCall rfl (by simp) hk
  have hone := hturn.suspended
  rw [hpc, if_pos (by simp [Pc.inWindow, CreatePc.inWindow])] at hone
  have hne : s.kern.uxSchedulerSuspended ≠ 0 := fun hzero => by
    have hzero' : s.kern.cpu.1 = 0 := hzero
    omega
  have hview := State.step_resumeAll hturn.frame hne hk
  have hfault : k.fault = none := (congrArg View.fault hview).trans hturn.kernFault
  obtain ⟨-, rfl⟩ : k.fault = none ∧ _ := hcases.resolve_right fun hf => hf.1 hfault
  refine hturn.schedule (h := none) (n := .app) (some (.int 0)) hpc rfl
    (hturn.not_idle hpc rfl) hkernel hcalls hview ?_
    ⟨rfl, rfl, by simp, by simp⟩ (by simp) (by simp) ⟨rfl, rfl, rfl⟩ ⟨rfl, rfl, rfl⟩
    (by simp [Pc.subject]) (by simp [Pc.subject]) (fun _ => rfl) (by simp) (by simp)
  rw [hcpu, hone]
  rfl

/-! ## Blocking functions are entered -/

/-- A blocking function is entered, and the code goes on at `new` when it is over. -/
theorem enter {f : Info → Info} {old new : Pc} {h : Option ThreadId} {api : Api α}
    (hold : s.pc t = old) (hf : f (s.info t) = { s.info t with pc := new }) (hidle : t ≠ idleTask)
    (htarget : ∀ q, api.target = some q → q < s.kern.view.nextQueue)
    (hk : s.kern.step (.call t api) = some k) (hfault : k.fault = none)
    (hwindow : old.inWindow = false ∧ new.inWindow = false) (hquiet : Pc.Quiet old new)
    (hmaker : ∀ i q, old ≠ .create i (.joinSem q))
    (hcall : ∀ g : Frame α, g.api = api → api.target = some g.xQueue →
      (modInfo { s with kern := k } t f).InCall t g)
    (hmade : api.request = none → ∀ i retval, new ≠ .join i retval .taken)
    (hroles : new.creates = old.creates ∧ new.joins = old.joins ∧ new.detaches = old.detaches)
    (hown : ∀ i, new.own = some i → (s.info t).param = some i)
    (hreads : new.passes = none ∧ new.reads = none)
    (hsubject : ∀ i, old.subject = some i → h = some i)
    (hsubject' : ∀ i, new.subject = some i → h = some i)
    (hself : ∀ i, h ≠ some i → (s.past i).task = some t →
      (∀ (frame : Option (Frame α)) freed, bodyOf new frame freed =
        bodyOf old (none : Option (Frame α)) freed) ∧ old ≠ .exit .taskDelete)
    (hthread : ∀ i, h = some i → (modInfo { s with kern := k } t f).Roles →
      Local s (modInfo { s with kern := k } t f) t h →
      k.view.queue = s.kern.view.queue →
      (∀ u, u ≠ t → (k.task u).frame = s.frame u ∧ (k.task u).ret = (s.kern.task u).ret) →
      (api.request = none ∨ ∃ g, (k.task t).frame = some g ∧ g.pc = .entry) →
      (modInfo { s with kern := k } t f).ThreadOk nodes i) :
    (modInfo { s with kern := k } t f).Inv base low high nodes := by
  have hlocal : Local s (modInfo { s with kern := k } t f) t h :=
    (Local.ofEq t rfl rfl rfl rfl : Local s { s with kern := k } t h).trans
      (.modInfo _ t new _ _ hf)
  have hnew : (modInfo { s with kern := k } t f).pc t = new := by
    rw [pc_modInfo]
    exact congrArg Info.pc hf
  have hexited : ((modInfo { s with kern := k } t f).info t).exited = (s.info t).exited := by
    have hinfo : (modInfo { s with kern := k } t f).info t = f (s.info t) := Function.update_self ..
    rw [hinfo, hf]
  obtain ⟨hkernel, hcalls, hcpu, hstepped⟩ := hturn.kernelCall rfl
    (fun u api' hact => by
      cases hact
      exact ⟨by rw [hold, hwindow.1], htarget⟩) hk
  -- the only change the kernel makes here is the new frame of the caller
  obtain ⟨startTick, hview⟩ : ∃ startTick, k.view = s.kern.view.enter t api startTick := by
    generalize hv : k.view = v at hstepped
    cases hstepped with
    | scheduled _ hact => simp [Act.schedules] at hact
    | asserted =>
        have hbad : k.view.fault = some .assertion := by rw [hv]
        exact absurd (hfault.symm.trans hbad) (by simp)
    | called _ _ startTick => exact ⟨startTick, rfl⟩
  have hqueue : k.view.queue = s.kern.view.queue := by rw [hview, View.enter_queue]
  have hnextQueue : k.view.nextQueue = s.kern.view.nextQueue := by rw [hview, View.enter_nextQueue]
  have hnextTask : k.view.nextTask = s.kern.view.nextTask := by rw [hview, View.enter_nextTask]
  have hwait : k.view.xTasksWaitingTermination = s.kern.view.xTasksWaitingTermination := by
    rw [hview, View.enter_termination]
  have hframe : ∀ u, u ≠ t → (k.task u).frame = s.frame u := by
    intro u hu
    have hne : k.view.frame u = s.kern.view.frame u := by
      rw [hview, View.enter_frame_ne _ _ api _ hu]
    exact hne
  have hret : ∀ u, u ≠ t → (k.task u).ret = (s.kern.task u).ret := by
    intro u hu
    have hne : k.view.ret u = s.kern.view.ret u := by rw [hview, View.enter_ret_ne _ _ _ _ hu]
    exact hne
  have hentry := s.kern.view.enter_frame_self t api startTick hturn.frame
  rw [← hview] at hentry
  have hroles' : (modInfo { s with kern := k } t f).Roles :=
    hturn.inv.roles.keep hlocal (by rw [hnew, hold, hroles.1]) (by rw [hnew, hold, hroles.2.1])
      (by rw [hnew, hold, hroles.2.2]) (by rwa [hnew]) (by simp [hnew, hreads.1]) fun _ _ =>
        ⟨rfl, rfl⟩
  have hzero : k.cpu.1 = 0 := by
    have hsuspended := hturn.suspended
    rw [hold, hwindow.1, if_neg (by simp)] at hsuspended
    rw [hcpu, hsuspended]
    rfl
  refine ⟨?_, hroles', ?_, ?_, fun i => ?_, ?_, hturn.inv.sound, ?_⟩
  · refine hturn.core hlocal hkernel hcalls (congrArg Prod.snd hcpu) (fun hin => ?_) (fun hne => ?_)
      hturn.inv.core.fault ?_
    · rw [hnew, hwindow.2] at hin
      simp at hin
    · exact absurd hzero hne
    · intro q hq
      exact absurd (hfault.symm.trans hq) (by simp)
  · exact hturn.inv.tasks.keep hlocal hnextTask hwait hturn.born hidle (hold ▸ hquiet.alive)
      (by rw [hnew]; exact hquiet.alive') (by rw [hnew]; exact hquiet.frees)
  · refine hturn.inv.sems.keep hlocal rfl hframe hret (fun g hg => ?_)
      (fun i retval hpc hnone => ?_) (by simp [hnew, hreads.2]) (fun _ _ => rfl) (hold ▸ hmaker)
      (.ofEq hnextQueue hqueue)
    · rcases hentry with ⟨-, hnone⟩ | ⟨g', hg', hapi, -, hrequest⟩
      · exact absurd (hg.symm.trans hnone) (by simp)
      · obtain rfl : g = g' := Option.some.inj (hg.symm.trans hg')
        exact hcall g hapi (by simp [Api.target, hrequest])
    · rcases hentry with ⟨hrequest, -⟩ | ⟨g', hg', -⟩
      · exact absurd (hnew.symm.trans hpc) (hmade hrequest i retval)
      · exact absurd (hnone.symm.trans hg') (by simp)
  -- the descriptor that the call is about is the business of the caller of this lemma; every other
  -- one is as it was
  · by_cases hi : h = some i
    · refine hthread i hi hroles' hlocal hqueue (fun u hu => ⟨hframe u hu, hret u hu⟩) ?_
      rcases hentry with ⟨hrequest, -⟩ | ⟨g', hg', -, hpc, -⟩
      · exact .inl hrequest
      · exact .inr ⟨g', hg', hpc⟩
    · refine hturn.others hlocal hframe hret (fun i q _ hq => ⟨hq, congrFun hqueue q⟩)
        (fun _ _ => Iff.rfl) (by rwa [hold]) (by rwa [hnew]) (fun htask => ?_) hi
      obtain ⟨hbody, hends⟩ := hself i hi htask
      refine ⟨hexited, fun freed => ?_, hold ▸ hends, hold ▸ hquiet.alive⟩
      rw [hnew, hold, hturn.frame]
      exact hbody _ freed
  · refine hturn.inv.registry.keep hlocal rfl (fun _ _ => rfl) (fun _ _ _ => rfl)
      fun value hfind => ?_
    have hpasses := hreads.1
    rw [hnew] at hfind
    simp [hfind, Pc.passes] at hpasses
  · rw [owned_keep hlocal (fun _ _ => ⟨rfl, rfl⟩)
        (fun q => congrArg Contents.live (congrFun hqueue q)) rfl
      (by rw [hnew, hold, hquiet.memory]) rfl]
    exact hturn.inv.ledger

/-- `pthread_join` takes the semaphore. -/
theorem joinSem {retval : Bool} (hpc : s.pc t = .join i retval .sem)
    (hstep : s.join t i retval .sem = some s') : s'.Inv base low high nodes := by
  obtain ⟨huse, hmade, hok, hhandle, hout⟩ := hturn.joined hpc
  have hlive := hturn.join_live hpc
  obtain ⟨q, hq⟩ := (hturn.inv.threads i).sem hmade
  have hcreated := (hturn.inv.sems.binary i q (hturn.inv.sems.owner i q hq)).1
  simp only [join, readSem, hlive, if_true, hq] at hstep
  have htarget : (Api.xSemaphoreTake q portMaxDelay : Api α).target = some q := rfl
  obtain ⟨k, hk, ⟨hfault, rfl⟩ | ⟨hfault, rfl⟩⟩ := kernel_cases hstep
  · have hpc' :
        (modInfo { s with kern := k } t fun I => { I with pc := .join i retval .taken }).pc t =
          .join i retval .taken := pc_modInfo ..
    refine hturn.enter (h := some i) hpc rfl (hturn.not_idle hpc rfl)
      (by simpa [htarget] using hcreated) hk hfault ⟨rfl, rfl⟩ ⟨rfl, rfl, by simp, by simp⟩
      (by simp) (fun g hapi hg => ?_) (by simp [Api.request]) ⟨rfl, rfl, rfl⟩ (by simp [Pc.own])
      ⟨rfl, rfl⟩ (by simp [Pc.subject]) (by simp [Pc.subject])
      (fun _ _ _ => ⟨fun _ _ => rfl, by simp⟩) ?_
    · obtain rfl : q = g.xQueue := by simpa [htarget] using hg
      exact .join i retval hpc' hq hapi
    · rintro i' ⟨⟩ hroles hlocal hqueue hothers hentry
      obtain ⟨g, hg, hgpc⟩ := hentry.resolve_left (by simp [Api.request])
      obtain ⟨hbody, hpassed⟩ := body_keep (i := i) hlocal (fun u hu => (hothers u hu).1) rfl
        fun _ => ⟨by simp [modInfo], by rw [hpc', hpc]; rfl⟩
      obtain ⟨hhandle', hout'⟩ := handle_of_joining (i := i) (j := t)
        (s := modInfo { s with kern := k } t fun I => { I with pc := .join i retval .taken }) huse
      refine hturn.subject hlocal hroles hmade hmade.2 rfl (hturn.inv.threads i).notFailed rfl rfl
        (by simp [hpc]) .inr (fun hfreed htask => ?_) ?_
      · exact absurd hfreed
          (Bool.eq_false_iff.mp (hturn.not_freed (by simp [hpc]) (by simp [hpc]) htask))
      · have hlife : (modInfo { s with kern := k } t fun I =>
            { I with pc := .join i retval .taken }).life nodes i = s.life nodes i := by
          refine Life.ext hbody ?_ rfl ?_ rfl rfl ?_ rfl hpassed ?_ rfl rfl
          · refine hhandle'.trans (Eq.trans ?_ hhandle.symm)
            rw [hpc']
            have hwait : succeeded (Sys.frame (modInfo { s with kern := k } t fun I =>
                { I with pc := .join i retval .taken }) t) (k.task t).ret = false := by
              simp [Sys.frame, modInfo, hg, succeeded, hgpc]
            exact congrArg (fun success => JoinPc.handle .taken success) hwait
          · simp [life, sem, modInfo, hqueue]
          · simp [life, sem, modInfo, hqueue]
          · refine hout'.trans (Eq.trans ?_ hout.symm)
            rw [hpc']
            rfl
        rw [hlife]
        exact hok
  · exact hturn.kernelFault rfl (fun u api hact => by
      cases hact
      exact ⟨by rw [hpc]; rfl, by simpa [htarget] using hcreated⟩) rfl (by simp) hk hfault

/-- `pthread_exit` gives the semaphore. -/
theorem exitSem (hpc : s.pc t = .exit (.sem i)) (hstep : s.exit t (.sem i) = some s') :
    s'.Inv base low high nodes := by
  have hparam := hturn.own_of_exit hpc rfl
  obtain ⟨htask, hok, hbody, hpassed⟩ := hturn.own hparam
  have hmade := hturn.made_of_task htask
  have hlive := hturn.exit_live hpc rfl rfl (by simp [bodyOf])
  obtain ⟨q, hq⟩ := (hturn.inv.threads i).sem hmade
  have hcreated := (hturn.inv.sems.binary i q (hturn.inv.sems.owner i q hq)).1
  simp only [exit, readSem, hlive, if_true, hq] at hstep
  have htarget : (Api.xSemaphoreGive q : Api α).target = some q := rfl
  obtain ⟨k, hk, ⟨hfault, rfl⟩ | ⟨hfault, rfl⟩⟩ := kernel_cases hstep
  · have hpc' : (modInfo { s with kern := k } t fun I => { I with pc := .exit (.given i) }).pc t =
        .exit (.given i) := pc_modInfo ..
    refine hturn.enter (h := some i) hpc rfl (hturn.not_idle hpc rfl)
      (by simpa [htarget] using hcreated) hk hfault ⟨rfl, rfl⟩ ⟨rfl, rfl, by simp, by simp⟩
      (by simp) (fun g hapi hg => ?_) (by simp [Api.request]) ⟨rfl, rfl, rfl⟩ ?_ ⟨rfl, rfl⟩
      (by simp [Pc.subject]) (by simp [Pc.subject]) (fun i' hi' htask' => ?_) ?_
    · obtain rfl : q = g.xQueue := by simpa [htarget] using hg
      exact .exit i hpc' hq hapi
    · rintro i' ⟨⟩
      exact hparam
    · have hparam' : (s.info t).param = some i' := (hturn.inv.roles.tasks i' t).mp htask'
      exact absurd (hparam.symm.trans hparam') hi'
    · rintro i' ⟨⟩ hroles hlocal hqueue hothers hentry
      obtain ⟨g, hg, hgpc⟩ := hentry.resolve_left (by simp [Api.request])
      have hjoiner : (s.past i).use.joiner ≠ some t := by
        intro hjoiner
        have hjoins : (s.pc t).joins = some i := (hturn.inv.roles.joins i t).mp hjoiner
        simp [hpc, Pc.joins] at hjoins
      obtain ⟨hhandle, hout⟩ := handle_keep (i := i) hlocal rfl hjoiner
        (fun u hu => (hothers u hu).1) fun u hu => (hothers u hu).2
      refine hturn.subject hlocal hroles hmade hmade.2 rfl (hturn.inv.threads i).notFailed rfl rfl
        (by simp [hpc]) .inr (fun hfreed _ => ?_) ?_
      · exact absurd hfreed
          (Bool.eq_false_iff.mp (hturn.not_freed (by simp [hpc]) (by simp [hpc]) htask))
      · have htask' : ((modInfo { s with kern := k } t fun I =>
            { I with pc := .exit (.given i) }).past i).task = some t := htask
        have hlife : (modInfo { s with kern := k } t fun I =>
            { I with pc := .exit (.given i) }).life nodes i = s.life nodes i := by
          refine Life.ext ?_ hhandle rfl ?_ rfl rfl ?_ rfl ?_ hout rfl rfl
          · refine (body_of_task htask').trans (Eq.trans ?_ hbody.symm)
            have hpending : pending (Sys.frame (modInfo { s with kern := k } t fun I =>
                { I with pc := .exit (.given i) }) t) = true := by
              simp [Sys.frame, modInfo, hg, pending, hgpc]
            rw [hpc', hpc]
            simp [bodyOf, hpending]
          · simp [life, sem, modInfo, hqueue]
          · simp [life, sem, modInfo, hqueue]
          · refine (passed_of_task htask').trans (Eq.trans ?_ hpassed.symm)
            simp [modInfo]
        rw [hlife]
        exact hok
  · exact hturn.kernelFault rfl (fun u api hact => by
      cases hact
      exact ⟨by rw [hpc]; rfl, by simpa [htarget] using hcreated⟩) rfl (by simp) hk hfault

/-- The application enters a blocking function. -/
theorem beginBlocking {api : Api α} (hpc : s.pc t = .app) (hidle : t ≠ idleTask)
    (hproper : ∀ q, api.target = some q → q < s.kern.nextQueue ∧ s.semOwner q = none)
    (hstep : s.kernel (.call t api) id = some s') : s'.Inv base low high nodes := by
  have htarget : ∀ q, api.target = some q → q < s.kern.view.nextQueue :=
    fun q hq => (hproper q hq).1
  obtain ⟨k, hk, ⟨hfault, rfl⟩ | ⟨hfault, rfl⟩⟩ := kernel_cases hstep
  · have hinv := hturn.enter (f := id) (h := none) hpc (by simp [← hpc, pc]) hidle htarget hk hfault
      ⟨rfl, rfl⟩ ⟨rfl, rfl, by simp, by simp⟩ (by simp)
      (fun g _ hg => by
        rw [modInfo_id]
        exact .app hpc (hproper g.xQueue hg).2)
      (by simp) ⟨rfl, rfl, rfl⟩ (by simp [Pc.own]) ⟨rfl, rfl⟩ (by simp [Pc.subject])
      (by simp [Pc.subject]) (fun _ _ _ => ⟨fun _ _ => rfl, by simp⟩) (by simp)
    rwa [modInfo_id] at hinv
  · exact hturn.kernelFault rfl (fun u api hact => by
      cases hact
      exact ⟨by rw [hpc]; rfl, htarget⟩) rfl (by simp) hk hfault

/-- The application waits. -/
theorem beginDelay {xTicksToDelay : Nat} (hpc : s.pc t = .app) (hidle : t ≠ idleTask)
    (hstep : s.kernel (.delay t xTicksToDelay) id = some s') : s'.Inv base low high nodes := by
  obtain ⟨k, hk, ⟨hfault, rfl⟩ | ⟨hfault, rfl⟩⟩ := kernel_cases hstep
  · obtain ⟨hkernel, hcalls, hcpu, hstepped⟩ := hturn.kernelCall rfl (by simp) hk
    have hview : k.view = s.kern.view := by
      generalize hv : k.view = v at hstepped
      cases hstepped with
      | scheduled => rfl
      | asserted =>
          have hbad : k.view.fault = some .assertion := by rw [hv]
          exact absurd (hfault.symm.trans hbad) (by simp)
    have hzero := hturn.suspended
    rw [hpc, if_neg (by simp [Pc.inWindow])] at hzero
    have hinv := hturn.schedule (f := id) (h := none) (s.info t).ret hpc (by simp [← hpc, pc]) hidle
      hkernel hcalls hview (by rw [hcpu, hzero]; rfl) ⟨rfl, rfl, by simp, by simp⟩ (by simp)
      (by simp) ⟨rfl, rfl, rfl⟩ ⟨rfl, rfl, rfl⟩ (by simp [Pc.subject]) (by simp [Pc.subject])
      (fun _ => rfl) (by simp) (by simp)
    rwa [modInfo_id] at hinv
  · exact hturn.kernelFault rfl (by simp) rfl (by simp) hk hfault

end Turn

end Sys

end SimulatedLinux.Thread
