import SimulatedLinux.Thread.Turn

/-! # Steps of the shim that make no kernel call

Accesses to the fields of a descriptor, tests, and returns.
-/

namespace SimulatedLinux.Thread

open Kernel Heap

variable {α : Type}

/-- Between these points a task neither allocates nor ends. -/
structure Pc.Quiet (old new : Pc) : Prop where
  memory : new.memory = old.memory
  frees : new.frees = none
  alive : old ≠ .dead
  alive' : new ≠ .dead

/-- Nor does it suspend the scheduler or use a semaphore. -/
structure Pc.Plain (old new : Pc) : Prop extends Pc.Quiet old new where
  inWindow : new.inWindow = old.inWindow
  maker : ∀ i q, old ≠ .create i (.joinSem q)
  untaken : ∀ i retval, new ≠ .join i retval .taken

/-- What the fields that are written outside of the registry keep of a descriptor. -/
structure PosixThread.Kept (D D' : PosixThread) : Prop where
  live : D'.live = D.live
  addr : D'.addr = D.addr
  xTask : D'.xTask = D.xTask
  joinSem : D'.joinSem = D.joinSem
  next : D'.next = D.next

namespace Sys

variable {s s' : Sys α} {t : TaskId} {h : Option ThreadId} {nodes nodes' : List ThreadId}
  {i : ThreadId} {base : Nat → Option Nat} {low high : Nat} {old new : Pc}

@[simp] theorem pc_modInfo (s : Sys α) (t : TaskId) (f : Info → Info) :
    (s.modInfo t f).pc t = (f (s.info t)).pc := by
  simp [pc, modInfo]

@[simp] theorem pc_goto (s : Sys α) (t : TaskId) (pc : Pc) : (s.goto t pc).pc t = pc := by
  simp [goto]

@[simp] theorem pc_returns (s : Sys α) (t : TaskId) (ret : Ret) :
    (s.returns t ret).pc t = .app := by
  simp [returns]

/-- A kernel that differs in its schedule only, or a system that stops. -/
theorem Inv.ofView {k : State α} {fault : Option Fault} (hinv : s.Inv base low high nodes)
    (hqueue : k.view.queue = s.kern.view.queue) (hframe : k.view.frame = s.kern.view.frame)
    (hret : k.view.ret = s.kern.view.ret) (hnextQueue : k.view.nextQueue = s.kern.view.nextQueue)
    (hnextTask : k.view.nextTask = s.kern.view.nextTask)
    (hwait : k.view.xTasksWaitingTermination = s.kern.view.xTasksWaitingTermination)
    (hcore : Core { s with kern := k, fault := fault }) :
    Inv { s with kern := k, fault := fault } base low high nodes := by
  have hframe' : ∀ u, (k.task u).frame = s.frame u := congrFun hframe
  have hret' : ∀ u, (k.task u).ret = (s.kern.task u).ret := congrFun hret
  obtain ⟨hcore', hroles, htasks, hsems, hthreads, hregistry, hsound, hledger⟩ := hinv
  refine ⟨hcore, ⟨hroles.creates, hroles.joins, hroles.detaches, hroles.tasks, hroles.own,
    hroles.passes⟩, ?_, ?_, fun i => ?_, ⟨hregistry.chain, hregistry.order, hregistry.untracked⟩,
    hsound, ?_⟩
  · obtain ⟨hunborn, hwaiting, hidle, hfrees, hstack, htcb⟩ := htasks
    refine ⟨?_, ?_, hidle, ?_, ?_, ?_⟩ <;> dsimp only
    · rw [hnextTask]
      exact hunborn
    · rw [hwait]
      exact hwaiting
    · rw [hnextTask, hwait]
      exact hfrees
    · rw [hnextTask, hwait]
      exact hstack
    · rw [hnextTask, hwait]
      exact htcb
  · obtain ⟨hcalls, hreturned, hreads, howner, hmaker, hbinary⟩ := hsems
    refine ⟨fun u f hf => ?_, fun u i retval hu hf => ?_, hreads, howner, hmaker, ?_⟩
    · exact (hcalls u f ((hframe' u).symm.trans hf)).keep rfl (fun _ => rfl) id
    · exact (hret' u).trans (hreturned u i retval hu ((hframe' u).symm.trans hf))
    · dsimp only
      rw [hnextQueue, hqueue]
      exact hbinary
  · refine (hthreads i).keep hroles hsems Iff.rfl rfl rfl Iff.rfl
      (fun q hq => ⟨hq, congrFun hqueue q⟩) (fun _ _ _ => Iff.rfl) (fun u _ => ?_)
      (fun j _ => ⟨rfl, hframe' j, hret' j⟩)
    exact ⟨rfl,
      rfl, by
        rw [show frame { s with kern := k, fault := fault } u = s.frame u from hframe' u]; rfl,
      fun _ => rfl, fun _ => ⟨rfl, hframe' u⟩⟩
  · have howned : owned { s with kern := k, fault := fault } = s.owned :=
      owned_keep (t := 0) (h := none) (.ofEq 0 rfl rfl rfl rfl) (by simp)
        (fun q => congrArg Contents.live (congrFun hqueue q)) rfl rfl rfl
    rw [howned]
    exact hledger

namespace Turn

/-- A task that may run has its turn. -/
theorem start (hinv : s.Inv base low high nodes) (hfault : s.fault = none)
    (hrun : s.kern.canRun t) (hframe : s.frame t = none) :
    Turn base low high (s.switchTo t) t nodes := by
  have hcore := hinv.core
  obtain ⟨hnone, hready, hcurrent⟩ := (s.kern.canRun_iff t).mp hrun
  have hsame : s.kern.cpu.1 ≠ 0 → s.kern.cpu.2 = t := hcurrent
  refine ⟨hinv.ofView rfl rfl rfl rfl rfl rfl ⟨hcore.kernel.switchTo hrun, hcore.calls,
      fun c hc => ?_,
    fun hne => ?_, hcore.fault, hcore.kernFault⟩, ?_, rfl, hframe, hfault⟩
  · obtain ⟨hcpu, hcframe⟩ := hcore.window c hc
    have hct : t = c := by
      rw [← hsame (by simp [hcpu]), hcpu]
    have hone : s.kern.cpu.1 = 1 := by rw [hcpu]
    exact ⟨Prod.ext hone hct, hcframe⟩
  · have hrunning := hcore.running hne
    rw [hsame hne] at hrunning
    exact hrunning
  · exact (State.canRun_iff _ t).mpr ⟨hnone, hready, fun _ => rfl⟩

variable (hturn : Turn base low high s t nodes)
include hturn

/-- The kernel when only the shim has moved. -/
theorem sameCore (hlocal : Local s s' t h) (hkern : s'.kern = s.kern)
    (howner : s'.semOwner = s.semOwner) (hfault : s'.fault = s.fault)
    (hwindow : (s'.pc t).inWindow = (s.pc t).inWindow) : s'.Core := by
  have hsuspended := hturn.suspended
  have hframe : s'.frame t = none := by
    unfold Sys.frame
    rw [hkern]
    exact hturn.frame
  refine hturn.core hlocal (hkern ▸ hturn.inv.core.kernel) (hkern ▸ hturn.inv.core.calls)
    (hkern ▸ hturn.current) (fun hin => ⟨?_, hframe⟩) (fun hne => ?_)
    (hfault ▸ hturn.inv.core.fault) ?_
  · rw [hkern, hsuspended, ← hwindow, if_pos hin]
  · rw [hkern, hsuspended, ← hwindow] at hne
    exact .inl (by_contra fun hin => hne (if_neg hin))
  · rw [hkern, howner]
    exact hturn.inv.core.kernFault

/-- A step that creates and ends no task. The semaphores, the registry, the memory and the
threads it is about are left to show. -/
theorem assemble (hlocal : Local s s' t h) (hcore : s'.Core) (hroles : s'.Roles) (hsems : s'.Sems)
    (hnextTask : s'.kern.view.nextTask = s.kern.view.nextTask)
    (hwait : s'.kern.view.xTasksWaitingTermination = s.kern.view.xTasksWaitingTermination)
    (hframe : ∀ u, s'.frame u = s.frame u)
    (hret : ∀ u, (s'.kern.task u).ret = (s.kern.task u).ret)
    (hqueue : ∀ i q, h ≠ some i → s.semOwner q = some i →
      s'.semOwner q = some i ∧ s'.kern.view.queue q = s.kern.view.queue q)
    (hidle : t ≠ idleTask) (hold : s.pc t = old) (hnew : s'.pc t = new)
    (hlives : old ≠ .dead ∧ new ≠ .dead ∧ new.frees = none) (hregistry : s'.Registry nodes')
    (hnodes : ∀ i, h ≠ some i → (i ∈ nodes' ↔ i ∈ nodes))
    (hsubject : ∀ i, old.subject = some i → h = some i)
    (hsubject' : ∀ i, new.subject = some i → h = some i)
    (hself : ∀ i, h ≠ some i → (s.past i).task = some t → (s'.info t).exited = (s.info t).exited ∧
      (∀ freed, bodyOf new (none : Option (Frame α)) freed =
        bodyOf old (none : Option (Frame α)) freed) ∧
      old ≠ .exit .taskDelete)
    (hthread : ∀ i, h = some i → s'.ThreadOk nodes' i) (hsound : Sound s'.heap low high)
    (hledger : Lib.Ledger base s'.heap.block s'.owned) : s'.Inv base low high nodes' := by
  obtain ⟨halive, halive', hfrees⟩ := hlives
  subst hold hnew
  refine ⟨hcore, hroles, ?_, hsems, fun i => ?_, hregistry, hsound, hledger⟩
  · exact hturn.inv.tasks.keep hlocal hnextTask hwait hturn.born hidle halive halive' hfrees
  · by_cases hi : h = some i
    · exact hthread i hi
    · refine hturn.others hlocal (fun u _ => hframe u) (fun u _ => hret u) hqueue hnodes hsubject
        hsubject' (fun htask => ?_) hi
      obtain ⟨hexited, hbody, hends⟩ := hself i hi htask
      refine ⟨hexited, fun freed => ?_, hends, halive⟩
      rw [hframe, hturn.frame]
      exact hbody freed

/-- A step after which the kernel differs in its schedule only. The semaphores and the
threads it is about are left to show. -/
theorem moveView (hlocal : Local s s' t h)
    (hshared : s' = { s with kern := s'.kern, info := s'.info, desc := s'.desc, past := s'.past })
    (hview : s'.kern.view = s.kern.view) (hcore : s'.Core) (hidle : t ≠ idleTask)
    (hold : s.pc t = old) (hnew : s'.pc t = new) (hplain : Pc.Quiet old new) (hroles : s'.Roles)
    (hsems : s'.Sems) (hkept : ∀ i, h = some i → (s'.desc i).live = (s.desc i).live ∧
      (s'.desc i).addr = (s.desc i).addr ∧ (s'.desc i).xTask = (s.desc i).xTask)
    (hnext : ∀ i, (s'.desc i).next = (s.desc i).next)
    (huntracked : ∀ value, new = .exit (.findThread value) → (s.info t).param = none →
      ∀ i ∈ nodes, (s.desc i).xTask ≠ (s.info t).tcb)
    (hsubject : ∀ i, old.subject = some i → h = some i)
    (hsubject' : ∀ i, new.subject = some i → h = some i)
    (hself : ∀ i, h ≠ some i → (s.past i).task = some t → (s'.info t).exited = (s.info t).exited ∧
      (∀ freed, bodyOf new (none : Option (Frame α)) freed =
        bodyOf old (none : Option (Frame α)) freed) ∧
      old ≠ .exit .taskDelete)
    (hthread : ∀ i, h = some i → s'.ThreadOk nodes i) : s'.Inv base low high nodes := by
  have hheap : s'.heap = s.heap := by rw [hshared]
  have haddr : s'.queueAddr = s.queueAddr := by rw [hshared]
  have howner : s'.semOwner = s.semOwner := by rw [hshared]
  have hblocks : s'.blocks = s.blocks := by rw [hshared]
  have hhead : s'.gThreadList = s.gThreadList := by rw [hshared]
  have hframe : ∀ u, s'.frame u = s.frame u := congrFun (congrArg View.frame hview)
  have hret : ∀ u, (s'.kern.task u).ret = (s.kern.task u).ret := congrFun (congrArg View.ret hview)
  refine hturn.assemble hlocal hcore hroles hsems (by rw [hview]) (by rw [hview]) hframe hret
    (fun i q _ hq => ⟨by rw [howner]; exact hq, by rw [hview]⟩) hidle hold hnew
    ⟨hplain.alive, hplain.alive', hplain.frees⟩ ?_ (fun _ _ => Iff.rfl) hsubject hsubject'
    hself hthread (hheap ▸ hturn.inv.sound) ?_
  · exact hturn.inv.registry.keep hlocal hhead (fun i _ => hnext i) (fun i _ hi => (hkept i hi).2.2)
      (by rwa [hnew])
  · rw [hheap, owned_keep hlocal (fun i hi => ⟨(hkept i hi).1, (hkept i hi).2.1⟩)
      (fun q => by rw [hview]) haddr (by rw [hnew, hold, hplain.memory]) hblocks]
    exact hturn.inv.ledger

/-- A step that makes no kernel call and writes no semaphore. -/
theorem move (hlocal : Local s s' t h)
    (hshared : s' = { s with info := s'.info, desc := s'.desc, past := s'.past })
    (hidle : t ≠ idleTask) (hold : s.pc t = old) (hnew : s'.pc t = new) (hplain : Pc.Plain old new)
    (hreads : ∀ i q, new.reads = some (i, q) → (s.desc i).joinSem = some q)
    (hroles : s'.Roles) (hkept : ∀ i, h = some i → (s.desc i).Kept (s'.desc i))
    (hnext : ∀ i, h ≠ some i → (s'.desc i).next = (s.desc i).next)
    (huntracked : ∀ value, new = .exit (.findThread value) → (s.info t).param = none →
      ∀ i ∈ nodes, (s.desc i).xTask ≠ (s.info t).tcb)
    (hsubject : ∀ i, old.subject = some i → h = some i)
    (hsubject' : ∀ i, new.subject = some i → h = some i)
    (hself : ∀ i, h ≠ some i → (s.past i).task = some t → (s'.info t).exited = (s.info t).exited ∧
      (∀ freed, bodyOf new (none : Option (Frame α)) freed =
        bodyOf old (none : Option (Frame α)) freed) ∧
      old ≠ .exit .taskDelete)
    (hthread : ∀ i, h = some i → s'.ThreadOk nodes i) : s'.Inv base low high nodes := by
  have hkern : s'.kern = s.kern := by rw [hshared]
  have howner : s'.semOwner = s.semOwner := by rw [hshared]
  have hframe : ∀ u, s'.frame u = s.frame u := fun u => by unfold Sys.frame; rw [hkern]
  have hcore :=
    hturn.sameCore hlocal hkern howner (by rw [hshared]) (by rw [hold, hnew, hplain.inWindow])
  refine hturn.moveView hlocal (by rw [hshared]) (by rw [hkern]) hcore hidle hold hnew
    hplain.toQuiet hroles ?_
    (fun i hi => ⟨(hkept i hi).live, (hkept i hi).addr, (hkept i hi).xTask⟩)
    (fun i => ?_) huntracked hsubject hsubject' hself hthread
  · refine hturn.inv.sems.keep hlocal howner (fun u _ => hframe u) (fun u _ => by rw [hkern])
      (fun f hf => ?_) (fun i retval hpc => ?_) (by rwa [hnew]) (fun i hi => (hkept i hi).joinSem)
      (hold ▸ hplain.maker) (.ofEq (by rw [hkern]) (by rw [hkern]))
    · rw [hframe, hturn.frame] at hf
      simp at hf
    · exact absurd (hnew.symm.trans hpc) (hplain.untaken i retval)
  · by_cases hi : h = some i
    · exact (hkept i hi).next
    · exact hnext i hi

theorem not_idle (hold : s.pc t = old) (hidles : old.idles = false) : t ≠ idleTask := by
  rintro rfl
  have hidle := hturn.inv.tasks.idle.1
  simp [hold, hidles] at hidle

/-- A step that is about no thread, or leaves its own thread as it is. -/
theorem silent {f : Info → Info} (ret : Option Ret) (exited : Option Ptr) (hidle : t ≠ idleTask)
    (hold : s.pc t = old)
    (hf : f (s.info t) = { s.info t with pc := new, ret := ret, exited := exited })
    (hplain : Pc.Plain old new)
    (hreads : ∀ i q, new.reads = some (i, q) → (s.desc i).joinSem = some q)
    (hroles : new.creates = old.creates ∧ new.joins = old.joins ∧ new.detaches = old.detaches)
    (hown : ∀ i, new.own = some i → (s.info t).param = some i)
    (hpasses : ∀ value, new.passes = some value → exited = some value)
    (huntracked : ∀ value, new = .exit (.findThread value) → (s.info t).param = none →
      ∀ i ∈ nodes, (s.desc i).xTask ≠ (s.info t).tcb)
    (hsubject : old.subject = none ∧ new.subject = none)
    (hself : ∀ i, (s.past i).task = some t → exited = (s.info t).exited ∧
      (∀ freed, bodyOf new (none : Option (Frame α)) freed =
        bodyOf old (none : Option (Frame α)) freed) ∧
      old ≠ .exit .taskDelete) : (s.modInfo t f).Inv base low high nodes := by
  have hlocal : Local s (s.modInfo t f) t none := .modInfo s t new ret exited hf
  have hnew : (s.modInfo t f).pc t = new := by simp [hf]
  have hexited : ((s.modInfo t f).info t).exited = exited := by simp [modInfo, hf]
  refine hturn.move hlocal rfl hidle hold hnew hplain hreads ?_ (by simp)
    (fun _ _ => rfl) huntracked (by simp [hsubject.1]) (by simp [hsubject.2])
    (fun i _ htask => ?_) (by simp)
  · refine hturn.inv.roles.keep hlocal ?_ ?_ ?_ (by rwa [hnew]) (by rwa [hnew, hexited]) (by simp)
    · rw [hnew, hold, hroles.1]
    · rw [hnew, hold, hroles.2.1]
    · rw [hnew, hold, hroles.2.2]
  · rw [hexited]
    exact hself i htask

end Turn

/-! ## Parts of a life -/

theorem body_of_task {u : TaskId} (htask : (s.past i).task = some u) :
    s.body i = bodyOf (s.pc u) (s.frame u) (s.past i).selfFreed := by
  simp [body, htask]

theorem passed_of_task {u : TaskId} (htask : (s.past i).task = some u) :
    s.passed i = (s.info u).exited := by
  simp [passed, htask]

theorem handle_of_joining {j : TaskId} (huse : (s.past i).use = .joining j) :
    s.handle i = (s.pc j).handle (succeeded (s.frame j) (s.kern.task j).ret) ∧
      s.out i = (s.pc j).value := by
  simp [handle, out, huse]

/-- The handle is not affected by a task that does not join it. -/
theorem handle_keep (hlocal : Local s s' t h) (huse : (s'.past i).use = (s.past i).use)
    (hjoiner : (s.past i).use.joiner ≠ some t) (hframe : ∀ u, u ≠ t → s'.frame u = s.frame u)
    (hret : ∀ u, u ≠ t → (s'.kern.task u).ret = (s.kern.task u).ret) :
    s'.handle i = s.handle i ∧ s'.out i = s.out i := by
  unfold handle out
  rw [huse]
  cases huse' : (s.past i).use with
  | joining j =>
      have hne : j ≠ t := by
        rintro rfl
        simp [huse', Use.joiner] at hjoiner
      simp [hlocal.pc_ne hne, hframe j hne, hret j hne]
  | _ => simp

/-- The body is not affected by a task of another thread, or one that has not begun to exit. -/
theorem body_keep (hlocal : Local s s' t h) (hframe : ∀ u, u ≠ t → s'.frame u = s.frame u)
    (hfreed : (s'.past i).selfFreed = (s.past i).selfFreed)
    (hself : (s.past i).task = some t → (s'.info t).exited = (s.info t).exited ∧
      bodyOf (s'.pc t) (s'.frame t) (s.past i).selfFreed =
        bodyOf (s.pc t) (s.frame t) (s.past i).selfFreed) :
    s'.body i = s.body i ∧ s'.passed i = s.passed i := by
  unfold body passed
  rw [hlocal.task i, hfreed]
  cases htask : (s.past i).task with
  | none => simp
  | some u =>
      by_cases hu : u = t
      · subst hu
        simp [(hself htask).1, (hself htask).2]
      · simp [hlocal.info u hu, hlocal.pc_ne hu, hframe u hu]

theorem modDesc_id (s : Sys α) (i : ThreadId) : s.modDesc i id = s := by
  simp [modDesc]

theorem modInfo_id (s : Sys α) (t : TaskId) : s.modInfo t id = s := by
  simp [modInfo]

theorem modPast_id (s : Sys α) (i : ThreadId) : s.modPast i id = s := by
  simp [modPast]

namespace Turn

variable (hturn : Turn base low high s t nodes)
include hturn

/-! ## Steps about the thread of the task -/

/-- A step of `pthread_exit` on the thread of its task. -/
theorem ownStep {f : Info → Info} {g : PosixThread → PosixThread} (exited : Option Ptr)
    (htask : (s.past i).task = some t) (hidle : t ≠ idleTask) (hold : s.pc t = old)
    (hf : f (s.info t) = { s.info t with pc := new, exited := exited })
    (hg : (s.desc i).Kept (g (s.desc i)) ∧ (g (s.desc i)).detached = (s.desc i).detached)
    (hplain : Pc.Plain old new)
    (hreads : ∀ i q, new.reads = some (i, q) → (s.desc i).joinSem = some q)
    (hroles : new.creates = old.creates ∧ new.joins = old.joins ∧ new.detaches = old.detaches)
    (hown : ∀ i', new.own = some i' → i' = i)
    (hpasses : ∀ value, new.passes = some value → exited = some value)
    (hsubject : old.subject = none ∧ new.subject = none) (hends : old ≠ .exit .taskDelete)
    (hok : Life.Ok { s.life nodes i with
      body := bodyOf new (none : Option (Frame α)) (s.past i).selfFreed
      retval := (g (s.desc i)).retval, passed := exited }) :
    ((s.modDesc i g).modInfo t f).Inv base low high nodes := by
  have hmade := hturn.made_of_task htask
  have hparam : (s.info t).param = some i := (hturn.inv.roles.tasks i t).mp htask
  have hlocal : Local s ((s.modDesc i g).modInfo t f) t (some i) :=
    (Local.modDesc s t i g).trans (.modInfo _ t new _ exited hf)
  have hnew : ((s.modDesc i g).modInfo t f).pc t = new := by
    rw [pc_modInfo]
    exact congrArg Info.pc hf
  have hexited : (((s.modDesc i g).modInfo t f).info t).exited = exited := by
    simp only [modInfo, Function.update_self]
    exact congrArg Info.exited hf
  have hdesc : ((s.modDesc i g).modInfo t f).desc i = g (s.desc i) := by
    simp [modInfo, modDesc]
  have hjoiner : (s.past i).use.joiner ≠ some t := by
    intro hjoiner
    have hjoins : (s.pc t).joins = some i := (hturn.inv.roles.joins i t).mp hjoiner
    rw [hold] at hjoins
    simp [Pc.subject_of_joins hjoins] at hsubject
  have htask' : (((s.modDesc i g).modInfo t f).past i).task = some t := htask
  have hroles' : ((s.modDesc i g).modInfo t f).Roles := by
    refine hturn.inv.roles.keep hlocal ?_ ?_ ?_ ?_ (by rwa [hnew, hexited]) (fun _ _ => ⟨rfl, rfl⟩)
    · rw [hnew, hold, hroles.1]
    · rw [hnew, hold, hroles.2.1]
    · rw [hnew, hold, hroles.2.2]
    · intro i' hi'
      rw [hown i' (by rwa [hnew] at hi')]
      exact hparam
  refine hturn.move hlocal rfl hidle hold hnew hplain hreads hroles' ?_ ?_ ?_ (by simp [hsubject.1])
    (by simp [hsubject.2]) (fun i' hi' htask' => ?_) ?_
  · rintro i' ⟨⟩
    rw [hdesc]
    exact hg.1
  · intro i' hi'
    have hne : i' ≠ i := fun heq => hi' (congrArg some heq.symm)
    simp [modInfo, modDesc, hne]
  · intro value _ hnone
    simp [hparam] at hnone
  · have hparam' := (hturn.inv.roles.tasks i' t).mp htask'
    exact absurd (hparam.symm.trans hparam') hi'
  · rintro i' ⟨⟩
    obtain ⟨hhandle, hout⟩ :=
      handle_keep (i := i) hlocal rfl hjoiner (fun _ _ => rfl) (fun _ _ => rfl)
    have hfreed := hturn.not_freed (hold ▸ hends) (hold ▸ hplain.alive) htask
    refine hturn.subject hlocal hroles' hmade hmade.2 rfl (hturn.inv.threads i).notFailed
      (by rw [hdesc, hg.1.joinSem]) (by rw [hdesc, hg.1.xTask]) ?_ (fun hfreed' => .inr hfreed')
      (fun hfreed' => absurd hfreed' (Bool.eq_false_iff.mp hfreed)) ?_
    · rw [hold]
      rintro rfl
      simp [Pc.subject] at hsubject
    · have hlife : ((s.modDesc i g).modInfo t f).life nodes i = { s.life nodes i with
          body := bodyOf new (none : Option (Frame α)) (s.past i).selfFreed
          retval := (g (s.desc i)).retval, passed := exited } := by
        simp only [life, Life.mk.injEq, hhandle, hout, hdesc, hg.1.live, hg.2, true_and]
        refine ⟨?_, ?_, ?_, ?_, rfl, rfl⟩
        · rw [body_of_task htask', hnew]
          exact congrArg (fun frame => bodyOf new frame _) hturn.frame
        · simp [sem, hdesc, hg.1.joinSem]
          rfl
        · simp [sem, hdesc, hg.1.joinSem]
          rfl
        · rw [passed_of_task htask', hexited]
      rw [hlife]
      exact hok

/-! ## Steps about a thread whose handle is used -/

/-- A step of `pthread_join` or `pthread_detach`. -/
theorem useStep {f : Info → Info} {g : PosixThread → PosixThread} {p : Past → Past} (use : Use)
    (ret : Option Ret) (handle : Handle) (out : Option Ptr) (hmade : s.Made i)
    (hidle : t ≠ idleTask) (hold : s.pc t = old)
    (hf : f (s.info t) = { s.info t with pc := new, ret := ret })
    (hg : (s.desc i).Kept (g (s.desc i)) ∧ (g (s.desc i)).retval = (s.desc i).retval)
    (hp : p (s.past i) = { s.past i with use := use }) (huse : use ≠ .failed)
    (hplain : Pc.Plain old new)
    (hreads : ∀ i q, new.reads = some (i, q) → (s.desc i).joinSem = some q)
    (hbody : ∀ freed, bodyOf old (none : Option (Frame α)) freed = .running ∧
      bodyOf new (none : Option (Frame α)) freed = .running)
    (hcreates : new.creates = none ∧ old.creates = none) (hown : new.own = none ∧ new.passes = none)
    (hstore : old ≠ .create i .store)
    (hjoins : Roles.Change Pc.joins (fun P => P.use.joiner) s
      (((s.modDesc i g).modPast i p).modInfo t f) t (some i))
    (hdetaches : Roles.Change Pc.detaches (fun P => P.use.detacher) s
      (((s.modDesc i g).modPast i p).modInfo t f) t (some i))
    (hsubject : ∀ i', old.subject = some i' → some i = some i')
    (hsubject' : ∀ i', new.subject = some i' → some i = some i')
    (hhandle : (((s.modDesc i g).modPast i p).modInfo t f).handle i = handle ∧
      (((s.modDesc i g).modPast i p).modInfo t f).out i = out)
    (hok : Life.Ok { s.life nodes i with
      handle := handle, out := out, detached := (g (s.desc i)).detached }) :
    (((s.modDesc i g).modPast i p).modInfo t f).Inv base low high nodes := by
  have htask : (p (s.past i)).task = (s.past i).task := by rw [hp]
  have hlocal : Local s (((s.modDesc i g).modPast i p).modInfo t f) t (some i) :=
    ((Local.modDesc s t i g).trans (.modPast _ t i htask)).trans (.modInfo _ t new ret _ hf)
  -- the new state is only needed through these equations
  generalize hs' : ((s.modDesc i g).modPast i p).modInfo t f = s' at hjoins hdetaches hhandle hlocal
  have hnew : s'.pc t = new := by
    rw [← hs', pc_modInfo]
    exact congrArg Info.pc hf
  have hinfo : s'.info t = f (s.info t) := by
    rw [← hs']
    exact Function.update_self ..
  have hexited : (s'.info t).exited = (s.info t).exited := by rw [hinfo, hf]
  have hdesc : s'.desc i = g (s.desc i) := by simp [← hs', modInfo, modPast, modDesc]
  have hpast : s'.past i = { s.past i with use := use } := by
    rw [← hp]
    simp [← hs', modInfo, modPast, modDesc]
  have hkern : s'.kern = s.kern := by rw [← hs']; rfl
  have hframe : ∀ u, s'.frame u = s.frame u := fun u => by unfold Sys.frame; rw [hkern]
  have hends : old ≠ .exit .taskDelete := by
    rintro rfl
    simpa [bodyOf] using (hbody false).1
  have hroles' : s'.Roles := by
    refine hturn.inv.roles.change hlocal (.keep _ ?_ ?_) hjoins hdetaches ?_ ?_
    · rw [hnew, hold, hcreates.1, hcreates.2]
    · rintro i' ⟨⟩
      rw [hpast]
    · simp [hnew, hown.1]
    · simp [hnew, hown.2]
  refine hturn.move hlocal (by rw [← hs']; rfl) hidle hold hnew hplain hreads hroles' ?_
    ?_ ?_ hsubject hsubject' (fun i' hi' htask' => ⟨hexited, fun freed => ?_, hends⟩) ?_
  · rintro i' ⟨⟩
    rw [hdesc]
    exact hg.1
  · intro i' hi'
    have hne : i' ≠ i := fun heq => hi' (congrArg some heq.symm)
    simp [← hs', modInfo, modPast, modDesc, hne]
  · intro value hfind
    have hpasses := hown.2
    simp [hfind, Pc.passes] at hpasses
  · rw [(hbody freed).1, (hbody freed).2]
  · rintro i' ⟨⟩
    obtain ⟨hbodyEq, hpassed⟩ := body_keep (i := i) hlocal (fun u _ => hframe u) (by rw [hpast])
      fun _ => ⟨hexited, by rw [hnew, hframe, hturn.frame, hold, (hbody _).1, (hbody _).2]⟩
    refine hturn.subject hlocal hroles' hmade (by rw [hpast]; exact hmade.2) (by rw [hpast])
      (by rwa [hpast]) (by rw [hdesc, hg.1.joinSem]) (by rw [hdesc, hg.1.xTask])
      (hold ▸ hstore) ?_ ?_ ?_
    · rw [hpast]
      exact .inr
    · intro hfreed htask'
      rw [hpast] at hfreed
      simp [hturn.not_freed (hold ▸ hends) (hold ▸ hplain.alive) htask'] at hfreed
    · have hlife : s'.life nodes i = { s.life nodes i with
          handle := handle, out := out, detached := (g (s.desc i)).detached } := by
        simp only [life, Life.mk.injEq, hbodyEq, hpassed, hhandle, hdesc, hpast, hg.1.live, hg.2,
          true_and]
        simp [sem, hdesc, hg.1.joinSem, hkern]
      rw [hlife]
      exact hok

/-! ## Steps about a thread that is being created -/

theorem building {pc : CreatePc} (hold : s.pc t = .create i pc) (hadded : pc.added = false) :
    s.Building i pc ∧ i < s.nextThread ∧ ¬ s.Made i := by
  have hnot := hturn.inv.roles.not_made hold hadded
  have hok := hturn.inv.threads i
  refine ⟨hok.building t pc hold hadded, ?_, hnot⟩
  by_contra hge
  have hnone := (hok.unborn (Nat.le_of_not_lt hge)).1
  have hcreator : (s.past i).creator = some t :=
    (hturn.inv.roles.creates i t).mpr (by simp [hold, Pc.creates, hadded])
  simp [hnone] at hcreator

/-- A step of `pthread_create` that only writes a field of the new descriptor. -/
theorem buildStep {g : PosixThread → PosixThread} {pc pc' : CreatePc} (hold : s.pc t = .create i pc)
    (hadded : pc.added = false ∧ pc'.added = false)
    (hplain : Pc.Plain (.create i pc) (.create i pc'))
    (hg : (s.desc i).Kept (g (s.desc i)) ∧ (g (s.desc i)).detached = false)
    (hsem : pc.hasSem = false ∧ pc'.hasSem = false ∧ ∀ q, pc' ≠ .joinSem q)
    (htask : pc.hasTask = false ∧ pc'.hasTask = false) :
    ((s.modDesc i g).goto t (.create i pc')).Inv base low high nodes := by
  obtain ⟨hbuilding, hborn, hnot⟩ := hturn.building hold hadded.1
  have hlocal : Local s ((s.modDesc i g).goto t (.create i pc')) t (some i) :=
    (Local.modDesc s t i g).trans (.goto _ t _)
  have hdesc : ((s.modDesc i g).goto t (.create i pc')).desc i = g (s.desc i) := by
    simp [goto, modInfo, modDesc]
  have hroles : ((s.modDesc i g).goto t (.create i pc')).Roles := by
    refine hturn.inv.roles.keep hlocal ?_ ?_ ?_ ?_ ?_ (fun _ _ => ⟨rfl, rfl⟩) <;>
      simp [hold, Pc.creates, Pc.joins, Pc.detaches, Pc.own, Pc.passes, hadded]
  refine hturn.move hlocal rfl (hturn.not_idle hold rfl) hold (pc_goto ..) hplain
    (by simp [Pc.reads]) hroles ?_ ?_ (by simp)
    (by simp [Pc.subject_of_create (.inl hadded.1)])
    (by simp [Pc.subject_of_create (.inl hadded.2)]) (fun i' _ _ => ⟨?_, fun _ => rfl, by simp⟩) ?_
  · rintro i' ⟨⟩
    rw [hdesc]
    exact hg.1
  · intro i' hi'
    have hne : i' ≠ i := fun heq => hi' (congrArg some heq.symm)
    simp [goto, modInfo, modDesc, hne]
  · simp [goto, modInfo, modDesc]
  · rintro i' ⟨⟩
    refine .ofBuilding hroles hborn (pc_goto ..) hadded.2 ((hturn.inv.threads i).fresh hnot)
      (hturn.not_storing hlocal hnot ?_) ?_
    · rw [pc_goto]
      rintro ⟨⟩
      simp [CreatePc.added] at hadded
    refine ⟨?_, ?_, fun q hq => absurd hq (hsem.2.2 q), by simp [hsem.2.1], fun _ => ?_,
      by simp [htask.2], fun _ => hbuilding.noTask htask.1⟩
    · rw [hdesc, hg.1.live]
      exact hbuilding.live
    · rw [hdesc]
      exact hg.2
    · rw [hdesc, hg.1.joinSem]
      exact hbuilding.noSem hsem.1

end Turn

/-- `s'` is `s` after task `t` has written the semaphore `q` to the descriptor of the thread
`i` that it creates. -/
structure SemStored (s s' : Sys α) (t : TaskId) (i : ThreadId) (q : QueueId) : Prop where
  keeps : Local s s' t (some i)
  pc : s'.pc t = .create i .suspendAll
  exited : (s'.info t).exited = (s.info t).exited
  desc : s'.desc i = { s.desc i with joinSem := some q }
  desc_ne : ∀ i', i' ≠ i → s'.desc i' = s.desc i'
  shared : s' = { s with info := s'.info, desc := s'.desc }

namespace SemStored

variable {q : QueueId} (hstored : SemStored s s' t i q) (hturn : Turn base low high s t nodes)
  (hold : s.pc t = .create i (.joinSem q))
include hstored hturn hold

theorem roles : s'.Roles := by
  refine hturn.inv.roles.keep hstored.keeps ?_ ?_ ?_ ?_ ?_
      (fun _ _ => by rw [hstored.shared]; exact ⟨rfl, rfl⟩) <;>
    simp [hold, hstored.pc, Pc.creates, Pc.joins, Pc.detaches, Pc.own, Pc.passes, CreatePc.added]

/-- The semaphore changes from one that is about to be stored to one that is. -/
theorem sems : s'.Sems := by
  obtain ⟨hbuilding, -, hnot⟩ := hturn.building hold rfl
  have hsems := hturn.inv.sems
  have hkeeps := hstored.keeps
  have howner : s'.semOwner = s.semOwner := by rw [hstored.shared]
  have hkern : s'.kern = s.kern := by rw [hstored.shared]
  have hframe (u : TaskId) : s'.frame u = s.frame u := by
    unfold Sys.frame
    rw [hkern]
  refine ⟨fun u f hf => ?_, fun u i' retval hu hf => ?_, fun u i' q' hu => ?_, fun i' q' hq' => ?_,
    fun i' q' hq' => ?_, ?_⟩
  · -- no call in progress is on the semaphore of a thread that is being created
    rw [hframe] at hf
    have hne : u ≠ t := by
      rintro rfl
      simp [hturn.frame] at hf
    have hpc := hkeeps.pc_ne hne
    cases hsems.calls u f hf with
    | app hpc' hnone => exact .app (hpc.trans hpc') (by rwa [howner])
    | join i' retval hpc' hsem hapi =>
        have huse : (s.past i').use.joiner = some u :=
          (hturn.inv.roles.joins i' u).mpr (by simp [hpc', Pc.joins])
        have hi' : i' ≠ i := by
          rintro rfl
          simp [((hturn.inv.threads i').fresh hnot).1, Use.joiner] at huse
        exact .join i' retval (hpc.trans hpc')
          ((congrArg _ (hstored.desc_ne i' hi')).trans hsem) hapi
    | exit i' hpc' hsem hapi =>
        have hparam := hturn.inv.roles.own u i' (by simp [hpc', Pc.own, ExitPc.thread])
        have htask : (s.past i').task = some u := (hturn.inv.roles.tasks i' u).mpr hparam
        have hi' : i' ≠ i := by
          rintro rfl
          simp [hbuilding.noTask rfl] at htask
        exact .exit i' (hpc.trans hpc') ((congrArg _ (hstored.desc_ne i' hi')).trans hsem) hapi
  · have hne : u ≠ t := by
      rintro rfl
      simp [hstored.pc] at hu
    rw [hkeeps.pc_ne hne] at hu
    rw [hframe] at hf
    rw [hkern]
    exact hsems.returned u i' retval hu hf
  · have hne : u ≠ t := by
      rintro rfl
      simp [hstored.pc, Pc.reads] at hu
    rw [hkeeps.pc_ne hne] at hu
    have hsem := hsems.reads u i' q' hu
    have hi' : i' ≠ i := by
      rintro rfl
      simp [hbuilding.noSem rfl] at hsem
    rw [hstored.desc_ne i' hi']
    exact hsem
  · rw [howner]
    by_cases hi' : i' = i
    · subst hi'
      obtain rfl : q = q' := by simpa [hstored.desc] using hq'
      exact (hbuilding.sem q rfl).1
    · rw [hstored.desc_ne i' hi'] at hq'
      exact hsems.owner i' q' hq'
  · rw [howner] at hq'
    -- the maker of the semaphore has stored it with this step
    rcases hsems.maker i' q' hq' with hold' | ⟨c, hc⟩
    · have hi' : i' ≠ i := by
        rintro rfl
        simp [hbuilding.noSem rfl] at hold'
      rw [hstored.desc_ne i' hi']
      exact .inl hold'
    · by_cases hct : c = t
      · subst hct
        rw [hold] at hc
        cases hc
        exact .inl (by rw [hstored.desc])
      · exact .inr ⟨c, (hkeeps.pc_ne hct).trans hc⟩
  · rw [howner, hkern]
    exact hsems.binary

theorem thread : s'.ThreadOk nodes i := by
  obtain ⟨hbuilding, hborn, hnot⟩ := hturn.building hold rfl
  have hfresh : s'.FreshSem i q := by
    unfold FreshSem
    rw [show s'.semOwner = s.semOwner by rw [hstored.shared],
      show s'.kern = s.kern by rw [hstored.shared]]
    exact hbuilding.sem q rfl
  have hpast : s'.past = s.past := by rw [hstored.shared]
  refine .ofBuilding (hstored.roles hturn hold) (by rw [hstored.keeps.nextThread]; exact hborn)
    hstored.pc rfl (by rw [hpast]; exact (hturn.inv.threads i).fresh hnot)
    (hturn.not_storing hstored.keeps hnot (by simp [hstored.pc])) ⟨?_, ?_, by simp,
      fun _ => ⟨q, ?_, hfresh⟩, by simp [CreatePc.hasSem], by simp [CreatePc.hasTask], fun _ => ?_⟩
  · rw [hstored.desc]
    exact hbuilding.live
  · rw [hstored.desc]
    exact hbuilding.joinable
  · rw [hstored.desc]
  · rw [hpast]
    exact hbuilding.noTask rfl

end SemStored

namespace Turn

variable (hturn : Turn base low high s t nodes)
include hturn

/-- `t->join_sem` is written. -/
theorem storeSem {q : QueueId} (hold : s.pc t = .create i (.joinSem q)) :
    ((s.modDesc i fun D => { D with joinSem := some q }).goto t (.create i .suspendAll)).Inv base
      low high nodes := by
  have hstored : SemStored s ((s.modDesc i fun D => { D with joinSem := some q }).goto t
      (.create i .suspendAll)) t i q := by
    refine ⟨(Local.modDesc s t i _).trans (.goto _ t _), pc_goto .., ?_, ?_, fun i' hne => ?_, rfl⟩
    · simp [goto, modInfo, modDesc]
    · simp [goto, modInfo, modDesc]
    · simp [goto, modInfo, modDesc, hne]
  refine hturn.moveView hstored.keeps rfl rfl
    (hturn.sameCore hstored.keeps rfl rfl rfl (by rw [hold, hstored.pc]; rfl))
    (hturn.not_idle hold rfl) hold hstored.pc ⟨rfl, rfl, by simp, by simp⟩
    (hstored.roles hturn hold) (hstored.sems hturn hold) ?_ (fun i' => ?_) (by simp)
    (by simp [Pc.subject]) (by simp [Pc.subject])
    (fun i' _ _ => ⟨hstored.exited, fun _ => rfl, by simp⟩) ?_
  · rintro i' ⟨⟩
    simp [hstored.desc]
  · by_cases hi' : i' = i
    · subst hi'
      rw [hstored.desc]
    · rw [hstored.desc_ne i' hi']
  · rintro i' ⟨⟩
    exact hstored.thread hturn hold

/-- The handle is stored in the variable of the creator. -/
theorem storeHandle (hold : s.pc t = .create i .store) :
    ((s.modPast i fun P => { P with handle := some i }).goto t (.create i .resumeAll)).Inv base low
      high nodes := by
  have hmade := (hturn.inv.threads i).storing t hold
  have hlocal : Local s ((s.modPast i fun P => { P with handle := some i }).goto t
      (.create i .resumeAll)) t (some i) :=
    (Local.modPast s t i rfl).trans (.goto _ t _)
  generalize hs' : (s.modPast i fun P => { P with handle := some i }).goto t
    (.create i .resumeAll) = s' at hlocal
  have hnew : s'.pc t = .create i .resumeAll := by rw [← hs', pc_goto]
  have hexited : (s'.info t).exited = (s.info t).exited := by
    simp [← hs', goto, modInfo, modPast]
  have hpast : s'.past i = { s.past i with handle := some i } := by
    simp [← hs', goto, modInfo, modPast]
  have hkern : s'.kern = s.kern := by rw [← hs']; rfl
  have hdesc : s'.desc = s.desc := by rw [← hs']; rfl
  have hframe : ∀ u, s'.frame u = s.frame u := fun u => by unfold Sys.frame; rw [hkern]
  have hjoiner : (s.past i).use.joiner ≠ some t := by
    intro hjoiner
    have hjoins : (s.pc t).joins = some i := (hturn.inv.roles.joins i t).mp hjoiner
    simp [hold, Pc.joins] at hjoins
  have hroles : s'.Roles := by
    refine hturn.inv.roles.keep hlocal ?_ ?_ ?_ ?_ ?_ ?_ <;>
      simp [hold, hnew, Pc.creates, Pc.joins, Pc.detaches, Pc.own, Pc.passes, CreatePc.added, hpast]
  refine hturn.move hlocal (by rw [← hs']; rfl) (hturn.not_idle hold rfl) hold hnew
    ⟨⟨rfl, rfl, by simp, by simp⟩, rfl, by simp, by simp⟩ (by simp [Pc.reads]) hroles
    (fun i' _ => by rw [hdesc]; exact ⟨rfl, rfl, rfl, rfl, rfl⟩)
    (fun i' _ => by rw [hdesc]) (by simp) (by simp [Pc.subject]) (by simp [Pc.subject])
    (fun i' _ _ => ⟨hexited, fun _ => rfl, by simp⟩) ?_
  rintro i' ⟨⟩
  have hok := hturn.inv.threads i
  obtain ⟨hbody, hpassed⟩ := body_keep (i := i) hlocal (fun u _ => hframe u) (by rw [hpast])
    fun _ => ⟨hexited, by rw [hnew, hold]; rfl⟩
  obtain ⟨hhandle, hout⟩ := handle_keep (i := i) hlocal (by rw [hpast]) hjoiner
    (fun u _ => hframe u) (fun u _ => by rw [hkern])
  refine .ofMade hroles ⟨by rw [hlocal.nextThread]; exact hmade.1, by rw [hpast]; exact hmade.2⟩ ?_
    (by rw [hdesc]; exact hok.sem hmade) ?_ (.inl (by rw [Published, hpast]))
    (by rw [hpast]; exact hok.notFailed) ?_
  · have hlife : s'.life nodes i = s.life nodes i := by
      simp [life, hbody, hpassed, hhandle, hout, hdesc, hpast, sem, hkern]
    rw [hlife]
    exact hok.life hmade
  · obtain ⟨u, hu, hxTask⟩ := hok.task hmade
    exact ⟨u, by rw [hpast]; exact hu, by rw [hdesc, hlocal.tcb_eq]; exact hxTask⟩
  · rw [hpast]
    intro hfreed u hu
    have hpc := hok.selfFreed hfreed u hu
    have hne : u ≠ t := by
      rintro rfl
      simp [hold] at hpc
    rw [hlocal.pc_ne hne]
    exact hpc

end Turn

end Sys

end SimulatedLinux.Thread
