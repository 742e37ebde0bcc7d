import SimulatedLinux.Thread.Memory

/-! # Semaphores and queues are made and deleted

The kernel object and its memory are made in one step, and deleted in one step.
-/

namespace SimulatedLinux.Thread

open Kernel Heap

variable {α : Type}

namespace Sys

variable {s s' : Sys α} {t : TaskId} {h : Option ThreadId} {nodes : List ThreadId} {i : ThreadId}
  {base : Nat → Option Nat} {low high : Nat} {old new : Pc} {k : State α}

/-- A queue that has not been made belongs to no thread. -/
theorem Inv.semOwner_unborn (hinv : s.Inv base low high nodes) {q : QueueId}
    (hq : s.kern.view.nextQueue ≤ q) : s.semOwner q = none := by
  cases howner : s.semOwner q with
  | none => rfl
  | some i => exact absurd (hinv.sems.binary i q howner).1 (Nat.not_lt_of_le hq)

theorem build_live {spec : NewQueue} {Q : Queue α} (hbuild : spec.build = some Q) :
    Q.live = true := by
  cases spec with
  | counting value =>
      simp only [NewQueue.build, xQueueCreateCountingSemaphore] at hbuild
      split at hbuild <;> cases hbuild
      rfl
  | mailbox size =>
      simp only [NewQueue.build] at hbuild
      split at hbuild <;> cases hbuild
      rfl
  | mutex =>
      cases hbuild
      rfl
  | binary =>
      cases hbuild
      rfl

/-- `s'` is `s` with the queue `Q` made by task `t`, which is then at `new`. The queue is
the semaphore of the thread `h`, if there is one, and its memory is at `pv`. -/
structure QueueMade (s s' : Sys α) (t : TaskId) (h : Option ThreadId) (new : Pc) (Q : Queue α)
    (pv : Nat) : Prop where
  keeps : Local s s' t h
  pc : s'.pc t = new
  view : s'.kern.view = s.kern.view.addQueue Q.contents
  desc : s'.desc = s.desc
  past : s'.past = s.past
  semOwner : s'.semOwner = Function.update s.semOwner s.kern.nextQueue h
  queueAddr : s'.queueAddr = Function.update s.queueAddr s.kern.nextQueue pv
  gThreadList : s'.gThreadList = s.gThreadList
  blocks : s'.blocks = s.blocks

namespace QueueMade

variable {Q : Queue α} {pv : Nat} (hmade : QueueMade s s' t h new Q pv)
include hmade

theorem queue :
    s'.kern.view.queue = Function.update s.kern.view.queue s.kern.nextQueue Q.contents := by
  rw [hmade.view]
  rfl

theorem nextQueue : s'.kern.view.nextQueue = s.kern.nextQueue + 1 := by
  rw [hmade.view]
  rfl

theorem frame (u : TaskId) : s'.frame u = s.frame u :=
  congrFun (congrArg View.frame hmade.view) u

theorem ret (u : TaskId) : (s'.kern.task u).ret = (s.kern.task u).ret :=
  congrFun (congrArg View.ret hmade.view) u

/-- Every other queue keeps its contents and its owner. -/
theorem queue_ne {q : QueueId} (hq : q ≠ s.kern.nextQueue) :
    s'.kern.view.queue q = s.kern.view.queue q ∧ s'.semOwner q = s.semOwner q := by
  rw [hmade.queue, hmade.semOwner, Function.update_of_ne hq, Function.update_of_ne hq]
  exact ⟨rfl, rfl⟩

/-- A semaphore that a thread has was made before. -/
theorem owned_sem (hsems : s.Sems) {q : QueueId} (hq : s.semOwner q = some i) :
    s'.kern.view.queue q = s.kern.view.queue q ∧ s'.semOwner q = s.semOwner q :=
  hmade.queue_ne (Nat.ne_of_lt (hsems.binary i q hq).1)

/-- The new queue has the memory at `pv`, and all else what it had. -/
theorem owned (hlive : Q.live = true) (hmemory : new.memory = (s.pc t).memory) :
    s'.owned = Function.update s.owned (.queue s.kern.nextQueue) (some pv) := by
  have hsome : s'.owned (.queue s.kern.nextQueue) = some pv := by
    simp [Sys.owned, hmade.queue, hmade.queueAddr, Queue.contents, hlive]
  rw [← hsome]
  refine owned_update hmade.keeps _ (fun _ _ => by rw [hmade.desc]; exact ⟨rfl, rfl⟩)
    (fun q hq => ?_) ?_ ?_ fun a _ => by rw [hmade.blocks]
  · have hne : q ≠ s.kern.nextQueue := fun heq => hq (congrArg _ heq)
    rw [(hmade.queue_ne hne).1, hmade.queueAddr, Function.update_of_ne hne]
    exact ⟨rfl, rfl⟩
  · rw [hmade.pc, hmemory]
    exact fun _ => rfl
  · rw [hmade.pc, hmemory]
    exact fun _ => rfl

/-- The thread of a new semaphore is the one the task is about to store it for. -/
theorem sems (hturn : Turn base low high s t nodes)
    (howner : ∀ i, h = some i → (Q.uxLength = 1 ∧ Q.uxItemSize = 0 ∧ Q.isMutex = false) ∧
      new = .create i (.joinSem s.kern.nextQueue))
    (hreads : new.reads = none)
    (hquiet : (∀ i q, s.pc t ≠ .create i (.joinSem q)) ∧ ∀ i retval, new ≠ .join i retval .taken) :
    s'.Sems := by
  have hsems := hturn.inv.sems
  have hother {u : TaskId} (hne : u ≠ t) : s'.pc u = s.pc u := hmade.keeps.pc_ne hne
  refine ⟨fun u g hg => ?_, fun u i retval hu hnone => ?_, fun u i q hu => ?_, fun i q hq => ?_,
    fun i q hq => ?_, fun i q hq => ?_⟩
  · rw [hmade.frame] at hg
    have hne : u ≠ t := by
      rintro rfl
      simp [hturn.frame] at hg
    refine (hsems.calls u g hg).keep (hother hne) (fun _ => by rw [hmade.desc]) fun hnone => ?_
    rw [(hmade.queue_ne (Nat.ne_of_lt (hturn.inv.core.calls.created u g hg))).2]
    exact hnone
  · have hne : u ≠ t := by
      rintro rfl
      exact hquiet.2 i retval (hmade.pc.symm.trans hu)
    rw [hother hne] at hu
    rw [hmade.frame] at hnone
    rw [hmade.ret]
    exact hsems.returned u i retval hu hnone
  · rw [hmade.desc]
    by_cases hut : u = t
    · simp [hut, hmade.pc, hreads] at hu
    · rw [hother hut] at hu
      exact hsems.reads u i q hu
  · rw [hmade.desc] at hq
    have hq' := hsems.owner i q hq
    rw [(hmade.owned_sem hsems hq').2]
    exact hq'
  · rw [hmade.desc]
    by_cases hnew : q = s.kern.nextQueue
    · subst hnew
      rw [hmade.semOwner, Function.update_self] at hq
      exact .inr ⟨t, hmade.pc.trans (howner i hq).2⟩
    · rw [(hmade.queue_ne hnew).2] at hq
      rcases hsems.maker i q hq with hsem | ⟨c, hc⟩
      · exact .inl hsem
      · have hct : c ≠ t := by
          rintro rfl
          exact hquiet.1 i q hc
        exact .inr ⟨c, (hother hct).trans hc⟩
  · rw [hmade.nextQueue]
    by_cases hnew : q = s.kern.nextQueue
    · subst hnew
      rw [hmade.semOwner, Function.update_self] at hq
      rw [hmade.queue, Function.update_self]
      exact ⟨Nat.lt_succ_self _, (howner i hq).1⟩
    · obtain ⟨hsame, howner'⟩ := hmade.queue_ne hnew
      rw [howner'] at hq
      rw [hsame]
      obtain ⟨hlt, hbinary⟩ := hsems.binary i q hq
      exact ⟨Nat.lt_succ_of_lt hlt, hbinary⟩

end QueueMade

namespace Turn

variable (hturn : Turn base low high s t nodes)
include hturn

/-- A queue is made, as the semaphore of a thread or for the application. -/
theorem createQueue {n : Pc} {f : Info → Info} {spec : NewQueue} {Q : Queue α}
    {o : Option ThreadId} {size pv : Nat} {heap : Heap4} (hidle : t ≠ idleTask)
    (hold : s.pc t = old)
    (hf : f (s.info t) = { s.info t with pc := n })
    (hmalloc : pvPortMalloc s.heap size = some (pv, heap)) (hbuild : spec.build = some Q)
    (hk : s.kern.step (.create t spec) = some k) (hfault : k.fault = none)
    (hlive : Q.live = true)
    (howner : ∀ i, o = some i → (Q.uxLength = 1 ∧ Q.uxItemSize = 0 ∧ Q.isMutex = false) ∧
      n = .create i (.joinSem s.kern.nextQueue))
    (hlives : old ≠ .dead ∧ n ≠ .dead ∧ n.frees = none)
    (hwindow : n.inWindow = false ∧ old.inWindow = false) (hmemory : n.memory = old.memory)
    (hroles : n.creates = old.creates ∧ n.joins = old.joins ∧ n.detaches = old.detaches)
    (hown : n.own = none ∧ n.passes = none ∧ n.reads = none)
    (hquiet : (∀ i q, old ≠ .create i (.joinSem q)) ∧ ∀ i retval, n ≠ .join i retval .taken)
    (hbody : ∀ freed, bodyOf n (none : Option (Frame α)) freed =
      bodyOf old (none : Option (Frame α)) freed) (hends : old ≠ .exit .taskDelete)
    (hsubject : ∀ i, old.subject = some i → o = some i)
    (hsubject' : ∀ i, n.subject = some i → o = some i)
    (hs' : s' = modInfo { s with
      heap := heap, kern := k, queueAddr := Function.update s.queueAddr s.kern.nextQueue pv
      semOwner := Function.update s.semOwner s.kern.nextQueue o } t f)
    (hthread : ∀ i, o = some i → s'.Roles → Local s s' t o → s'.semOwner s.kern.nextQueue = o →
      s'.kern.view.queue s.kern.nextQueue = Q.contents → s'.ThreadOk nodes i) :
    s'.Inv base low high nodes := by
  subst hold
  have hview : k.view = s.kern.view.addQueue Q.contents := by
    rw [State.step_create hk hbuild]
    exact State.view_addQueue _ Q
  have hmade : QueueMade s s' t o n Q pv := by
    subst hs'
    refine ⟨?_, ?_, hview, rfl, rfl, rfl, rfl, rfl, rfl⟩
    · exact (Local.ofEq t rfl rfl rfl rfl : Local s { s with
        heap := heap, kern := k, queueAddr := Function.update s.queueAddr s.kern.nextQueue pv
        semOwner := Function.update s.semOwner s.kern.nextQueue o } t o).trans
        (.modInfo _ t n _ _ hf)
    · rw [pc_modInfo]
      exact congrArg Info.pc hf
  -- what is needed of the new state, so that its definition can be forgotten
  have hrest : s'.heap = heap ∧ s'.kern = k ∧ s'.fault = s.fault ∧
      (s'.info t).exited = (s.info t).exited := by
    subst hs'
    have hinfo : (modInfo { s with
        heap := heap, kern := k, queueAddr := Function.update s.queueAddr s.kern.nextQueue pv
        semOwner := Function.update s.semOwner s.kern.nextQueue o } t f).info t = f (s.info t) :=
      Function.update_self ..
    refine ⟨rfl, rfl, rfl, ?_⟩
    rw [hinfo, hf]
  clear hs'
  obtain ⟨hheap, hkern, hfault', hexited⟩ := hrest
  obtain ⟨hkernel, hcalls, hcpu, -⟩ := hturn.kernelCall rfl (by simp) hk
  -- the number of the queue is new, so it names no memory yet
  have hdead : s.owned (.queue s.kern.nextQueue) = none := by
    simp [owned, hturn.inv.core.kernel.wait.window.unborn s.kern.nextQueue (Nat.le_refl _)]
  obtain ⟨hsound, hledger⟩ := hturn.inv.allocated hmalloc hdead
  have hpc := hmade.pc
  have hroles' : s'.Roles := by
    refine hturn.inv.roles.keep hmade.keeps (by rw [hpc, hroles.1]) (by rw [hpc, hroles.2.1])
      (by rw [hpc, hroles.2.2]) (by simp [hpc, hown.1]) (by simp [hpc, hown.2.1]) ?_
    rw [hmade.past]
    exact fun _ _ => ⟨rfl, rfl⟩
  have hcore : s'.Core := by
    refine hturn.core hmade.keeps (by rwa [hkern]) (by rwa [hkern]) (by rw [hkern, hcpu]) ?_
      (fun hne => ?_) (by rw [hfault']; exact hturn.inv.core.fault) ?_
    · simp [hpc, hwindow.1]
    · rw [hkern, hcpu] at hne
      have hzero := hturn.suspended
      rw [hwindow.2, if_neg (by simp)] at hzero
      exact absurd hzero hne
    · rw [hkern]
      simp [hfault]
  refine hturn.assemble hmade.keeps hcore hroles' (hmade.sems hturn howner hown.2.2 hquiet)
    (by rw [hmade.view]; rfl) (by rw [hmade.view]; rfl) hmade.frame hmade.ret (fun i q _ hq => ?_)
    hidle rfl hpc hlives ?_ (fun _ _ => Iff.rfl) hsubject hsubject'
    (fun i _ _ => ⟨hexited, hbody, hends⟩)
    (fun i hi => hthread i hi hroles' hmade.keeps (by simp [hmade.semOwner])
      (by simp [hmade.queue]))
    (by rwa [hheap]) ?_
  · obtain ⟨hsame, howner'⟩ := hmade.owned_sem hturn.inv.sems hq
    exact ⟨howner'.trans hq, hsame⟩
  · refine hturn.inv.registry.keep hmade.keeps hmade.gThreadList (fun _ _ => by rw [hmade.desc])
      (fun _ _ _ => by rw [hmade.desc]) fun value hfind => ?_
    have hpasses := hown.2.1
    rw [hpc] at hfind
    simp [hfind, Pc.passes] at hpasses
  · rw [hmade.owned hlive hmemory, hheap]
    exact hledger

/-- `pthread_create` makes the semaphore. -/
theorem createSemaphore {sizes : Sizes} (hpc : s.pc t = .create i .semaphore)
    (hstep : s.create sizes t i .semaphore = some s') : s'.Inv base low high nodes := by
  obtain ⟨hbuilding, hborn, hnot⟩ := hturn.building hpc rfl
  simp only [create] at hstep
  split at hstep
  next hnone =>
    cases hstep
    exact hturn.inv.mallocFailed
  next pv heap hmalloc =>
    obtain ⟨k, hk, ⟨hfault, rfl⟩ | ⟨hfault, -⟩⟩ := kernel_cases hstep
    · refine hturn.createQueue (o := some i) (Q := xSemaphoreCreateBinary)
        (n := .create i (.joinSem s.kern.nextQueue)) (hturn.not_idle hpc rfl) hpc rfl hmalloc rfl hk
        hfault rfl ?_ ⟨by simp, by simp, rfl⟩ ⟨rfl, rfl⟩ rfl ⟨rfl, rfl, rfl⟩ ⟨rfl, rfl, rfl⟩
        ⟨by simp, by simp⟩ (fun _ => rfl) (by simp) (by simp [Pc.subject])
        (by simp [Pc.subject]) rfl ?_
      · rintro i' ⟨⟩
        exact ⟨⟨rfl, rfl, rfl⟩, rfl⟩
      · rintro i' ⟨⟩ hroles hlocal howner hqueue
        refine .ofBuilding hroles hborn (pc_goto ..) rfl ((hturn.inv.threads i).fresh hnot)
          (hturn.not_storing hlocal hnot (by rw [pc_goto]; simp))
          ⟨hbuilding.live, hbuilding.joinable,
            ?_, by simp [CreatePc.hasSem], fun _ => hbuilding.noSem rfl, by simp [CreatePc.hasTask],
            fun _ => hbuilding.noTask rfl⟩
        rintro q ⟨⟩
        exact ⟨howner, by rw [hqueue]; rfl, by rw [hqueue]; rfl⟩
    · have hk' := State.step_create hk (Q := xSemaphoreCreateBinary) rfl
      rw [hk'] at hfault
      exact absurd hturn.kernFault hfault

/-- The application makes a queue. -/
theorem beginNewQueue {sizes : Sizes} {spec : NewQueue} (hpc : s.pc t = .app) (hidle : t ≠ idleTask)
    (hstep : s.begin sizes t (.newQueue spec) = some s') : s'.Inv base low high nodes := by
  simp only [begin] at hstep
  split at hstep
  next hsome =>
    obtain ⟨Q, hbuild⟩ := Option.isSome_iff_exists.mp hsome
    split at hstep
    next hnone =>
      cases hstep
      exact hturn.inv.mallocFailed
    next pv heap hmalloc =>
      obtain ⟨k, hk, ⟨hfault, rfl⟩ | ⟨hfault, -⟩⟩ := kernel_cases hstep
      · refine hturn.createQueue (f := id) (o := none) (n := .app) hidle hpc (by simp [← hpc, pc])
          hmalloc hbuild hk hfault (build_live hbuild) (by simp) ⟨by simp, by simp, rfl⟩
          ⟨rfl, rfl⟩ rfl ⟨rfl, rfl, rfl⟩ ⟨rfl, rfl, rfl⟩ ⟨by simp, by simp⟩ (fun _ => rfl) (by simp)
          (by simp [Pc.subject]) (by simp [Pc.subject]) ?_ (by simp)
        have hnone : s.semOwner s.kern.nextQueue = none := hturn.inv.semOwner_unborn (Nat.le_refl _)
        rw [modInfo_id, ← hnone, Function.update_eq_self]
      · have hk' := State.step_create hk hbuild
        rw [hk'] at hfault
        exact absurd hturn.kernFault hfault
  next hnone =>
    have hbuild : (spec.build : Option (Queue α)) = none := by simpa using hnone
    obtain ⟨k, hk, hcases⟩ := kernel_cases hstep
    obtain ⟨-, hperform⟩ := State.step_perform rfl hturn.frame hk
    simp only [State.perform, hbuild, Option.some.injEq] at hperform
    have hfault : k.fault ≠ none := by
      rw [← hperform]
      simp [State.halt]
    obtain ⟨-, rfl⟩ := hcases.resolve_left fun hok => hfault hok.1
    exact hturn.kernelFault rfl (by simp) rfl (by simp) hk hfault

/-- A queue is deleted. The threads it belongs to are left to show. -/
theorem deleteQueue {q : QueueId} {heap : Heap4} (hlocal : Local s s' t h) (hkern : s'.kern = k)
    (hk : s.kern.step (.delete t q) = some k) (hfault : k.fault = none)
    (hfree : vPortFree s.heap (s.queueAddr q) = some heap) (hheap : s'.heap = heap)
    (hdesc : s'.desc = s.desc) (hsemOwner : s'.semOwner = s.semOwner)
    (haddr : s'.queueAddr = s.queueAddr)
    (hrest : s'.gThreadList = s.gThreadList ∧ s'.fault = s.fault ∧ s'.blocks = s.blocks)
    (howner : ∀ i, h ≠ some i → s.semOwner q ≠ some i) (hidle : t ≠ idleTask) (hold : s.pc t = old)
    (hnew : s'.pc t = new) (hplain : Pc.Plain old new) (hwindow : old.inWindow = false)
    (hreads : new.reads = none ∧ new.passes = none) (hroles : s'.Roles)
    (hsubject : ∀ i, old.subject = some i → h = some i)
    (hsubject' : ∀ i, new.subject = some i → h = some i)
    (hself : ∀ i, h ≠ some i → (s.past i).task = some t → (s'.info t).exited = (s.info t).exited ∧
      (∀ freed, bodyOf new (none : Option (Frame α)) freed =
        bodyOf old (none : Option (Frame α)) freed) ∧
      old ≠ .exit .taskDelete)
    (hthread : ∀ i, h = some i → (∀ u, s'.frame u = s.frame u) →
      (∀ u, (s'.kern.task u).ret = (s.kern.task u).ret) →
      s'.kern.view.queue q = { s.kern.view.queue q with live := false } → s'.ThreadOk nodes i) :
    s'.Inv base low high nodes := by
  obtain ⟨hkernel, hcalls, hcpu, hstepped⟩ := hturn.kernelCall rfl (by simp) hk
  -- the queue was live, or the kernel would have stopped
  obtain ⟨hview, hlive⟩ : k.view =
      s.kern.view.setQueue q { s.kern.view.queue q with live := false } ∧
      (s.kern.view.queue q).live := by
    generalize hv : k.view = v at hstepped
    have hnone : v.fault = none := by
      rw [← hv]
      exact hfault
    cases hstepped with
    | scheduled _ hact => simp [Act.schedules] at hact
    | asserted => simp at hnone
    | freed => simp at hnone
    | deleted _ _ hlive => exact ⟨rfl, hlive⟩
  have hqueue : s'.kern.view.queue =
      Function.update s.kern.view.queue q { s.kern.view.queue q with live := false } := by
    rw [hkern, hview]
    rfl
  have hframe : ∀ u, s'.frame u = s.frame u := by
    intro u
    rw [Sys.frame, hkern]
    exact congrFun (congrArg View.frame hview) u
  have hret : ∀ u, (s'.kern.task u).ret = (s.kern.task u).ret := by
    intro u
    rw [hkern]
    exact congrFun (congrArg View.ret hview) u
  have howned : s.owned (.queue q) = some (s.queueAddr q) := by simp [owned, hlive]
  obtain ⟨heap', hfree', hsound, hledger⟩ := hturn.inv.released howned
  obtain rfl : heap' = heap := Option.some.inj (hfree'.symm.trans hfree)
  -- one goal for each part of the invariant
  refine hturn.assemble hlocal ?_ hroles ?_ (by rw [hkern, hview]; rfl)
    (by rw [hkern, hview]; rfl) hframe hret (fun i p hi hp => ?_) hidle hold hnew
    ⟨hplain.alive, hplain.alive', hplain.frees⟩ ?_ (fun _ _ => Iff.rfl) hsubject hsubject' hself
    (fun i hi => hthread i hi hframe hret (by rw [hqueue, Function.update_self]))
    (by rw [hheap]; exact hsound) ?_
  · refine hturn.core hlocal (by rwa [hkern]) (by rwa [hkern]) (by rw [hkern, hcpu]) ?_ ?_
      (by rw [hrest.2.1]; exact hturn.inv.core.fault) ?_
    · rw [hnew, hplain.inWindow, hwindow]
      simp
    · intro hne
      rw [hkern, hcpu] at hne
      have hzero := hturn.suspended
      rw [hold, hwindow, if_neg (by simp)] at hzero
      exact absurd hzero hne
    · rw [hkern]
      simp [hfault]
  · refine hturn.inv.sems.keep hlocal hsemOwner (fun u _ => hframe u) (fun u _ => hret u)
      (fun g hg => ?_) (fun i retval hpc => absurd (hnew.symm.trans hpc) (hplain.untaken i retval))
      (by simp [hnew, hreads.1]) (fun _ _ => by rw [hdesc]) (hold ▸ hplain.maker)
      ⟨?_, fun i p _ => ?_⟩
    · rw [hframe, hturn.frame] at hg
      simp at hg
    · rw [hkern, hview]
      exact Nat.le_refl _
    · rw [hqueue]
      by_cases hpq : p = q
      · simp [hpq]
      · simp [hpq]
  · have hpq : p ≠ q := by
      rintro rfl
      exact howner i hi hp
    rw [hsemOwner, hqueue, Function.update_of_ne hpq]
    exact ⟨hp, rfl⟩
  · refine hturn.inv.registry.keep hlocal hrest.1 (fun _ _ => by rw [hdesc])
      (fun _ _ _ => by rw [hdesc]) fun value hfind => ?_
    have hpasses := hreads.2
    rw [hnew] at hfind
    simp [hfind, Pc.passes] at hpasses
  · have howned' : s'.owned = Function.update s.owned (.queue q) none := by
      have ho : s'.owned (.queue q) = none := by simp [owned, hqueue]
      rw [← ho]
      refine owned_update hlocal _ (fun _ _ => by rw [hdesc]; exact ⟨rfl, rfl⟩)
        (fun p hp => ?_) ?_ ?_ fun a _ => by rw [hrest.2.2]
      · have hne : p ≠ q := fun heq => hp (congrArg _ heq)
        rw [hqueue, haddr, Function.update_of_ne hne]
        exact ⟨rfl, rfl⟩
      · rw [hnew, hold, hplain.memory]
        exact fun _ => rfl
      · rw [hnew, hold, hplain.memory]
        exact fun _ => rfl
    rw [howned', hheap]
    exact hledger

/-- The memory of a queue that can be deleted can be freed. -/
theorem delete_cases {q : QueueId} {next : Sys α → Sys α}
    (hstep : s.kernel (.delete t q) (fun s => s.release (s.queueAddr q) next) = some s') :
    ∃ k, s.kern.step (.delete t q) = some k ∧
      (k.fault = none ∧ (∃ heap, vPortFree s.heap (s.queueAddr q) = some heap ∧
        s' = next { s with kern := k, heap := heap }) ∨
      k.fault ≠ none ∧ s' = { s with kern := k }) := by
  obtain ⟨k, hk, ⟨hfault, rfl⟩ | hbad⟩ := kernel_cases hstep
  · refine ⟨k, hk, .inl ⟨hfault, ?_⟩⟩
    have hlive : (s.kern.view.queue q).live := by
      obtain ⟨-, hperform⟩ := State.step_perform rfl hturn.frame hk
      simp only [State.perform] at hperform
      split at hperform <;> cases hperform
      next hlive => exact hlive
      next => simp [State.halt] at hfault
    have hblock : s.owned (.queue q) = some (s.queueAddr q) := by simp [owned, hlive]
    obtain ⟨heap, hfree, -, -⟩ := hturn.inv.released hblock
    refine ⟨heap, hfree, ?_⟩
    simp [release, hfree]
  · exact ⟨k, hk, .inr hbad⟩

/-- The application deletes a queue. -/
theorem beginDeleteQueue {q : QueueId} (hpc : s.pc t = .app) (hidle : t ≠ idleTask)
    (howner : s.semOwner q = none)
    (hstep : s.kernel (.delete t q) (fun s => s.release (s.queueAddr q) id) = some s') :
    s'.Inv base low high nodes := by
  obtain ⟨k, hk, ⟨hfault, heap, hfree, rfl⟩ | ⟨hfault, rfl⟩⟩ := hturn.delete_cases hstep
  · have hlocal : Local s { s with kern := k, heap := heap } t none := .ofEq t rfl rfl rfl rfl
    have hroles := hturn.inv.roles
    exact hturn.deleteQueue hlocal rfl hk hfault hfree rfl rfl rfl rfl ⟨rfl, rfl, rfl⟩
      (by simp [howner]) hidle hpc hpc ⟨⟨rfl, rfl, by simp, by simp⟩, rfl, by simp, by simp⟩
      rfl ⟨rfl, rfl⟩ ⟨hroles.creates, hroles.joins, hroles.detaches, hroles.tasks, hroles.own,
        hroles.passes⟩
      (by simp [Pc.subject]) (by simp [Pc.subject])
      (fun _ _ _ => ⟨rfl, fun _ => rfl, by simp⟩) (by simp)
  · exact hturn.kernelFault rfl (by simp) rfl (fun p hp _ => by cases hp; exact howner) hk hfault

/-- `pthread_join` deletes the semaphore. -/
theorem joinDeleteSem {retval : Bool} {value : Option Ptr} {q : QueueId}
    (hpc : s.pc t = .join i retval (.deleteSem value q))
    (hstep : s.join t i retval (.deleteSem value q) = some s') : s'.Inv base low high nodes := by
  obtain ⟨huse, hmade, hok, hhandle, hout⟩ := hturn.joined hpc
  have hq : (s.desc i).joinSem = some q := hturn.inv.sems.reads t i q (by rw [hpc]; rfl)
  have howner := hturn.inv.sems.owner i q hq
  have hdeleting : (s.life nodes i).handle = .deleting := hhandle
  have hlive : (s.kern.view.queue q).live := by
    have hkept := (hok.kept_of_handle (by simp [hdeleting])).2.1
    rw [hdeleting] at hkept
    simpa [life, Sys.sem, hq, Handle.keepsSem] using hkept
  simp only [join, deleteSem] at hstep
  obtain ⟨k, hk, ⟨hfault, heap, hfree, rfl⟩ | ⟨hfault, rfl⟩⟩ := hturn.delete_cases hstep
  · have hlocal : Local s ((modPast { s with kern := k, heap := heap } i
        fun P => { P with semFrees := P.semFrees + 1 }).goto t (.join i retval (.free value)))
        t (some i) :=
      ((Local.ofEq t rfl rfl rfl rfl : Local s { s with kern := k, heap := heap } t (some i)).trans
        (.modPast _ t i rfl)).trans (.goto _ t _)
    have hpast : ((modPast { s with kern := k, heap := heap } i
        fun P => { P with semFrees := P.semFrees + 1 }).goto t
        (.join i retval (.free value))).past i =
        { s.past i with semFrees := (s.past i).semFrees + 1 } := Function.update_self ..
    have hexited : (((modPast { s with kern := k, heap := heap } i
        fun P => { P with semFrees := P.semFrees + 1 }).goto t
        (.join i retval (.free value))).info t).exited =
        (s.info t).exited := by simp [goto, modInfo, modPast]
    have hnew : ((modPast { s with kern := k, heap := heap } i
        fun P => { P with semFrees := P.semFrees + 1 }).goto t
        (.join i retval (.free value))).pc t =
        .join i retval (.free value) := pc_goto ..
    have hshared : (modPast { s with kern := k, heap := heap } i
        fun P => { P with semFrees := P.semFrees + 1 }).goto t (.join i retval (.free value)) =
      { s with
        kern := k, heap := heap
        info := ((modPast { s with kern := k, heap := heap } i
          fun P => { P with semFrees := P.semFrees + 1 }).goto t
          (.join i retval (.free value))).info
        past := ((modPast { s with kern := k, heap := heap } i
          fun P => { P with semFrees := P.semFrees + 1 }).goto t
          (.join i retval (.free value))).past } := rfl
    generalize (modPast { s with kern := k, heap := heap } i
      fun P => { P with semFrees := P.semFrees + 1 }).goto t (.join i retval (.free value)) = s'
      at *
    have hdesc : s'.desc = s.desc := by rw [hshared]
    have hroles : s'.Roles := by
      refine hturn.inv.roles.keep hlocal ?_ ?_ ?_ ?_ ?_ ?_ <;>
        simp [hpc, hnew, Pc.creates, Pc.joins, Pc.detaches, Pc.own, Pc.passes, hpast]
    refine hturn.deleteQueue hlocal (by rw [hshared]) hk hfault hfree (by rw [hshared]) hdesc
      (by rw [hshared]) (by rw [hshared]) (by rw [hshared]; exact ⟨rfl, rfl, rfl⟩) ?_
      (hturn.not_idle hpc rfl) hpc hnew ⟨⟨rfl, rfl, by simp, by simp⟩, rfl, by simp, by simp⟩ rfl
      ⟨rfl, rfl⟩ hroles (by simp [Pc.subject]) (by simp [Pc.subject])
      (fun _ _ _ => ⟨hexited, fun _ => rfl, by simp⟩) ?_
    · intro i' hi'
      rw [howner]
      exact hi'
    · rintro i' ⟨⟩ hframe hret hqueue
      obtain ⟨hbody, hpassed⟩ := body_keep (i := i) hlocal (fun u _ => hframe u) (by rw [hpast])
        fun _ => ⟨hexited, by rw [hnew, hpc]; rfl⟩
      obtain ⟨hhandle', hout'⟩ :=
        handle_of_joining (i := i) (j := t) (s := s') (by rw [hpast]; exact huse)
      rw [hnew] at hhandle' hout'
      refine hturn.subject hlocal hroles hmade (by rw [hpast]; exact hmade.2) (by rw [hpast])
        (by rw [hpast]; exact (hturn.inv.threads i).notFailed) (by rw [hdesc]) (by rw [hdesc])
        (by simp [hpc]) (by rw [hpast]; exact .inr) (fun hfreed htask => ?_) ?_
      · rw [hpast] at hfreed
        exact absurd hfreed
          (Bool.eq_false_iff.mp (hturn.not_freed (by simp [hpc]) (by simp [hpc]) htask))
      · have hlife : s'.life nodes i = { s.life nodes i with
            handle := .freeing, semLive := false, semFrees := (s.life nodes i).semFrees + 1 } := by
          refine Life.ext hbody hhandle' rfl ?_ (by simp [life, hdesc]) (by simp [life, hdesc]) ?_
            (by simp [life, hdesc]) hpassed (hout'.trans hout.symm) (by simp [life, hpast])
            (by simp [life, hpast])
          · simp [life, Sys.sem, hdesc, hq, hqueue]
          · simp [life, Sys.sem, hdesc, hq, hqueue]
        rw [hlife]
        exact hok.move (.joinDeletes _ hdeleting)
  · exact hturn.kernelFault rfl (by simp) rfl
      (fun p hp hdead => by cases hp; simp [hlive] at hdead) hk hfault

/-- `pthread_exit` deletes the semaphore of its own thread. -/
theorem exitDeleteSem {q : QueueId} (hpc : s.pc t = .exit (.deleteSem i q))
    (hstep : s.exit t (.deleteSem i q) = some s') : s'.Inv base low high nodes := by
  have hparam := hturn.own_of_exit hpc rfl
  obtain ⟨htask, hok, hbody, hpassed⟩ := hturn.own hparam
  have hmade := hturn.made_of_task htask
  have hq : (s.desc i).joinSem = some q := hturn.inv.sems.reads t i q (by rw [hpc]; rfl)
  have howner := hturn.inv.sems.owner i q hq
  have hdeleting : (s.life nodes i).body = .deleting := by
    rw [hbody, hpc]
    rfl
  have hlive : (s.kern.view.queue q).live := by
    have hkept := (hok.untaken (hok.not_taken (by simp [hdeleting]))).2.1
    rw [hdeleting] at hkept
    simpa [life, Sys.sem, hq, Body.keepsSem] using hkept
  have hjoiner : (s.past i).use.joiner ≠ some t := by
    intro hjoiner
    have hjoins : (s.pc t).joins = some i := (hturn.inv.roles.joins i t).mp hjoiner
    simp [hpc, Pc.joins] at hjoins
  have hfreed := hturn.not_freed (i := i) (by simp [hpc]) (by simp [hpc]) htask
  simp only [exit, deleteSem] at hstep
  obtain ⟨k, hk, ⟨hfault, heap, hfree, rfl⟩ | ⟨hfault, rfl⟩⟩ := hturn.delete_cases hstep
  · have hlocal : Local s ((modPast { s with kern := k, heap := heap } i
        fun P => { P with semFrees := P.semFrees + 1 }).goto t (.exit (.free i))) t (some i) :=
      ((Local.ofEq t rfl rfl rfl rfl : Local s { s with kern := k, heap := heap } t (some i)).trans
        (.modPast _ t i rfl)).trans (.goto _ t _)
    have hpast : ((modPast { s with kern := k, heap := heap } i
        fun P => { P with semFrees := P.semFrees + 1 }).goto t (.exit (.free i))).past i =
        { s.past i with semFrees := (s.past i).semFrees + 1 } := Function.update_self ..
    have hexited : (((modPast { s with kern := k, heap := heap } i
        fun P => { P with semFrees := P.semFrees + 1 }).goto t (.exit (.free i))).info t).exited =
        (s.info t).exited := by simp [goto, modInfo, modPast]
    have hnew : ((modPast { s with kern := k, heap := heap } i
        fun P => { P with semFrees := P.semFrees + 1 }).goto t (.exit (.free i))).pc t =
        .exit (.free i) := pc_goto ..
    have hshared : (modPast { s with kern := k, heap := heap } i
        fun P => { P with semFrees := P.semFrees + 1 }).goto t (.exit (.free i)) =
      { s with
        kern := k, heap := heap
        info := ((modPast { s with kern := k, heap := heap } i
          fun P => { P with semFrees := P.semFrees + 1 }).goto t (.exit (.free i))).info
        past := ((modPast { s with kern := k, heap := heap } i
          fun P => { P with semFrees := P.semFrees + 1 }).goto t (.exit (.free i))).past } := rfl
    generalize (modPast { s with kern := k, heap := heap } i
      fun P => { P with semFrees := P.semFrees + 1 }).goto t (.exit (.free i)) = s' at *
    have hdesc : s'.desc = s.desc := by rw [hshared]
    have hroles : s'.Roles := by
      refine hturn.inv.roles.keep hlocal (by rw [hnew, hpc]; rfl) (by rw [hnew, hpc]; rfl)
        (by rw [hnew, hpc]; rfl) ?_ (by simp [hnew, Pc.passes]) (by simp [hpast])
      rw [hnew]
      rintro i' ⟨⟩
      exact hparam
    refine hturn.deleteQueue hlocal (by rw [hshared]) hk hfault hfree (by rw [hshared]) hdesc
      (by rw [hshared]) (by rw [hshared]) (by rw [hshared]; exact ⟨rfl, rfl, rfl⟩) ?_
      (hturn.not_idle hpc rfl) hpc hnew ⟨⟨rfl, rfl, by simp, by simp⟩, rfl, by simp, by simp⟩ rfl
      ⟨rfl, rfl⟩ hroles (by simp [Pc.subject]) (by simp [Pc.subject]) (fun i' hi' htask' => ?_) ?_
    · intro i' hi'
      rw [howner]
      exact hi'
    · have hparam' : (s.info t).param = some i' := (hturn.inv.roles.tasks i' t).mp htask'
      exact absurd (hparam.symm.trans hparam') hi'
    · rintro i' ⟨⟩ hframe hret hqueue
      obtain ⟨hhandle, hout⟩ := handle_keep (i := i) hlocal (by rw [hpast]) hjoiner
        (fun u _ => hframe u) fun u _ => hret u
      refine hturn.subject hlocal hroles hmade (by rw [hpast]; exact hmade.2) (by rw [hpast])
        (by rw [hpast]; exact (hturn.inv.threads i).notFailed) (by rw [hdesc]) (by rw [hdesc])
        (by simp [hpc]) (by rw [hpast]; exact .inr) (fun hfreed' _ => ?_) ?_
      · rw [hpast] at hfreed'
        exact absurd hfreed' (Bool.eq_false_iff.mp hfreed)
      · have htask' : (s'.past i).task = some t := by rw [hpast]; exact htask
        have hlife : s'.life nodes i = { s.life nodes i with
            body := .freeing, semLive := false, semFrees := (s.life nodes i).semFrees + 1 } := by
          refine Life.ext ?_ hhandle rfl ?_ (by simp [life, hdesc]) (by simp [life, hdesc]) ?_
            (by simp [life, hdesc]) ?_ hout (by simp [life, hpast]) (by simp [life, hpast])
          · refine (body_of_task htask').trans ?_
            rw [hnew]
            rfl
          · simp [life, Sys.sem, hdesc, hq, hqueue]
          · simp [life, Sys.sem, hdesc, hq, hqueue]
          · exact ((passed_of_task htask').trans hexited).trans hpassed.symm
        rw [hlife]
        exact hok.move (.deletes _ hdeleting)
  · exact hturn.kernelFault rfl (by simp) rfl
      (fun p hp hdead => by cases hp; simp [hlive] at hdead) hk hfault

end Turn

end Sys

end SimulatedLinux.Thread
