import SimulatedLinux.Thread.Spawn

/-! # Tasks end and are cleaned up

A task ends on the waiting list, and the idle task frees its stack and its control block.
-/

namespace SimulatedLinux.Thread

open Kernel Heap

variable {α : Type}

/-- The code of the idle task is about no thread. -/
theorem Pc.idle_points {pc : Pc} (hidles : pc.idles) : pc.creates = none ∧ pc.joins = none ∧
    pc.detaches = none ∧ pc.own = none ∧ pc.passes = none ∧ pc.reads = none ∧ pc.inWindow = false ∧
    pc.memory = (none, none) ∧ (∀ i p, pc ≠ .create i p) ∧ (∀ i retval p, pc ≠ .join i retval p) ∧
    pc ≠ .dead := by
  cases pc <;> simp_all [idles, creates, joins, detaches, own, passes, reads, inWindow, memory]

namespace Sys

variable {s s' : Sys α} {t u : TaskId} {nodes : List ThreadId} {i : ThreadId}
  {base : Nat → Option Nat} {low high : Nat} {old new : Pc} {k : State α}

/-! ## The end of a task -/

/-- `s'` is `s` after `vTaskDelete(NULL)` of task `t`. -/
structure Ended (s s' : Sys α) (t : TaskId) : Prop where
  keeps : Local s s' t none
  pc : s'.pc t = .dead
  exited : (s'.info t).exited = (s.info t).exited
  view : s'.kern.view = s.kern.view.terminate t
  shared : s' = { s with kern := s'.kern, info := s'.info }

namespace Ended

variable (hended : Ended s s' t)
include hended

theorem past : s'.past = s.past := by rw [hended.shared]

theorem desc : s'.desc = s.desc := by rw [hended.shared]

theorem semOwner : s'.semOwner = s.semOwner := by rw [hended.shared]

theorem frame (u : TaskId) : s'.frame u = s.frame u :=
  congrFun (congrArg View.frame hended.view) u

theorem ret (u : TaskId) : (s'.kern.task u).ret = (s.kern.task u).ret :=
  congrFun (congrArg View.ret hended.view) u

theorem queue : s'.kern.view.queue = s.kern.view.queue := by
  rw [hended.view]
  rfl

theorem nextTask : s'.kern.view.nextTask = s.kern.view.nextTask := by
  rw [hended.view]
  rfl

theorem waiting :
    s'.kern.view.xTasksWaitingTermination = s.kern.view.xTasksWaitingTermination ++ [t] := by
  rw [hended.view]
  rfl

/-- The task is on the waiting list, and has its memory still. -/
theorem tasks (hturn : Turn base low high s t nodes) (hidle : t ≠ idleTask)
    (halive : s.pc t ≠ .dead) : s'.Tasks := by
  have htasks := hturn.inv.tasks
  have hkeeps := hended.keeps
  have hidlePc : s'.pc idleTask = s.pc idleTask := hkeeps.pc_ne (Ne.symm hidle)
  have hdead : ∀ u, u ≠ t → (s'.pc u = .dead ↔ s.pc u = .dead) := fun u hu => by
    rw [hkeeps.pc_ne hu]
  refine ⟨fun u hu => ?_, fun u hu => ?_, ?_, fun u w hu => ?_, fun u => ?_, fun u => ?_⟩
  · rw [hended.nextTask] at hu
    have hut : u ≠ t := Nat.ne_of_gt (Nat.lt_of_lt_of_le hturn.born hu)
    rw [hkeeps.pc_ne hut, hkeeps.param_eq]
    exact htasks.unborn u hu
  · by_cases hut : u = t
    · rw [hut, hended.pc]
    · rw [hended.waiting, List.mem_append, List.mem_singleton, or_iff_left hut] at hu
      exact (hdead u hut).mpr (htasks.waiting u hu)
  · rw [hidlePc, hkeeps.param_eq]
    exact htasks.idle
  · have hut : u ≠ t := by
      rintro rfl
      simp [hended.pc, Pc.frees] at hu
    rw [hkeeps.pc_ne hut] at hu
    obtain ⟨hu', hw, hwdead, hwait⟩ := htasks.frees u w hu
    have hwt : w ≠ t := by
      rintro rfl
      exact halive hwdead
    rw [hended.nextTask, hended.waiting, hdead w hwt]
    exact ⟨hu', hw, hwdead, by simpa [hwt] using hwait⟩
  · have hlive : (s'.info u).stackLive = (s.info u).stackLive := by
      by_cases hu : u = t
      · exact hu ▸ hkeeps.stackLive
      · rw [hkeeps.info u hu]
    rw [hlive, hended.nextTask, hended.waiting, hidlePc, htasks.stack u]
    by_cases hut : u = t
    · subst hut
      simp [halive, hended.pc]
    · rw [ne_eq (s'.pc u), hdead u hut]
      simp [hut]
  · rw [hkeeps.tcbLive_eq, hended.nextTask, hended.waiting, hidlePc, htasks.tcb u]
    by_cases hut : u = t
    · subst hut
      simp [halive, hended.pc]
    · rw [ne_eq (s'.pc u), hdead u hut]
      simp [hut]

/-- The thread of the task has its life as it was. -/
theorem thread (hturn : Turn base low high s t nodes) (hpc : s.pc t = .exit .taskDelete)
    (hroles : s'.Roles) (htask : (s.past i).task = some t) : s'.ThreadOk nodes i := by
  have hmade := hturn.made_of_task htask
  have hok := hturn.inv.threads i
  have hkeeps := hended.keeps
  have hlife : s'.life nodes i = s.life nodes i := by
    refine life_keep (by rw [hended.past]) (by rw [hended.desc])
      (by simp [Sys.sem, hended.desc, hended.queue]) Iff.rfl (fun u hu => ?_) fun j hj => ?_
    · obtain rfl : t = u := Option.some.inj (htask.symm.trans hu)
      exact ⟨hended.exited, by rw [hended.pc, hpc]; rfl⟩
    · have hjt : j ≠ t := by
        rintro rfl
        have hjoins : (s.pc j).joins = some i := (hturn.inv.roles.joins i j).mp hj
        simp [hpc, Pc.joins] at hjoins
      exact ⟨hkeeps.pc_ne hjt, hended.frame j, hended.ret j⟩
  have hmade' : s'.Made i := ⟨by rw [hkeeps.nextThread]; exact hmade.1, by
    rw [hended.past]; exact hmade.2⟩
  refine .ofMade hroles hmade' (hlife ▸ hok.life hmade) (by rw [hended.desc]; exact hok.sem hmade)
    ?_ ?_ (by rw [hended.past]; exact hok.notFailed) ?_
  · obtain ⟨u, hu, hxTask⟩ := hok.task hmade
    exact ⟨u, by rw [hended.past]; exact hu, by rw [hended.desc, hkeeps.tcb_eq]; exact hxTask⟩
  · unfold Published
    rw [hended.past]
    rcases hok.stored hmade with hstored | ⟨c, hc⟩
    · exact .inl hstored
    · have hct : c ≠ t := by
        rintro rfl
        simp [hpc] at hc
      exact .inr ⟨c, (hkeeps.pc_ne hct).trans hc⟩
  · rw [hended.past]
    intro _ u hu
    obtain rfl : t = u := Option.some.inj (htask.symm.trans hu)
    exact .inr hended.pc

theorem inv (hturn : Turn base low high s t nodes) (hpc : s.pc t = .exit .taskDelete)
    (hcore : s'.Core) : s'.Inv base low high nodes := by
  have hkeeps := hended.keeps
  have hroles : s'.Roles := by
    refine hturn.inv.roles.keep hkeeps ?_ ?_ ?_ ?_ ?_ (by simp) <;>
      simp [hpc, hended.pc, Pc.creates, Pc.joins, Pc.detaches, Pc.own, Pc.passes]
  refine ⟨hcore, hroles, hended.tasks hturn (hturn.not_idle hpc rfl) (by simp [hpc]), ?_,
    fun i => ?_, ?_, by rw [hended.shared]; exact hturn.inv.sound, ?_⟩
  · refine hturn.inv.sems.keep hkeeps hended.semOwner (fun u _ => hended.frame u)
      (fun u _ => hended.ret u) (fun g hg => ?_) (by simp [hended.pc])
      (by simp [hended.pc, Pc.reads]) (by simp) (by simp [hpc])
      (.ofEq (by rw [hended.view]; rfl) hended.queue)
    rw [hended.frame, hturn.frame] at hg
    simp at hg
  · by_cases htask : (s.past i).task = some t
    · exact hended.thread hturn hpc hroles htask
    · exact hturn.others hkeeps (fun u _ => hended.frame u) (fun u _ => hended.ret u)
        (fun i q _ hq => ⟨by rw [hended.semOwner]; exact hq, by rw [hended.queue]⟩)
        (fun _ _ => Iff.rfl) (by simp [hpc, Pc.subject]) (by simp [hended.pc, Pc.subject])
        (fun htask' => absurd htask' htask) (by simp)
  · exact hturn.inv.registry.keep hkeeps (by rw [hended.shared]) (fun _ _ => by rw [hended.desc])
      (fun _ _ _ => by rw [hended.desc]) (by simp [hended.pc])
  · have howned : s'.owned = s.owned :=
      owned_keep hkeeps (fun _ _ => by rw [hended.desc]; exact ⟨rfl, rfl⟩)
        (fun q => by rw [hended.queue]) (by rw [hended.shared]) (by rw [hended.pc, hpc]; rfl)
        (by rw [hended.shared])
    rw [howned, show s'.heap = s.heap by rw [hended.shared]]
    exact hturn.inv.ledger

end Ended

/-- `vTaskDelete(NULL)`. -/
theorem Turn.exitTaskDelete (hturn : Turn base low high s t nodes)
    (hpc : s.pc t = .exit .taskDelete) (hstep : s.exit t .taskDelete = some s') :
    s'.Inv base low high nodes := by
  simp only [exit] at hstep
  obtain ⟨k, hk, ⟨hfault, hs'⟩ | ⟨hfault, rfl⟩⟩ := kernel_cases hstep
  · obtain ⟨hkernel, hcalls, hcpu, hstepped⟩ := hturn.kernelCall rfl (by simp) hk
    have hview : k.view = s.kern.view.terminate t := by
      generalize hv : k.view = v at hstepped
      have hnone : v.fault = none := by
        rw [← hv]
        exact hfault
      cases hstepped with
      | scheduled _ hact => simp [Act.schedules] at hact
      | asserted => simp at hnone
      | exited => rfl
    have hkern : s'.kern = k := by
      rw [hs']
      rfl
    have hended : Ended s s' t := by
      subst hs'
      refine ⟨?_, pc_goto .., by simp [goto, modInfo], hview, rfl⟩
      exact (Local.ofEq t rfl rfl rfl rfl : Local s { s with kern := k } t none).trans (.goto _ t _)
    refine hended.inv hturn hpc (hturn.core hended.keeps (by rwa [hkern]) (by rwa [hkern])
      (by rw [hkern, hcpu]) (by simp [hended.pc, Pc.inWindow]) (fun hne => ?_)
      (by rw [hended.shared]; exact hturn.inv.core.fault) (by rw [hkern]; simp [hfault]))
    have hzero := hturn.suspended
    rw [hpc, if_neg (by simp [Pc.inWindow])] at hzero
    rw [hkern, hcpu] at hne
    exact absurd hzero hne
  · exact hturn.kernelFault rfl (by simp) rfl (by simp) hk hfault

/-! ## The idle task -/

/-- A step of the idle task, which changes no more of the other tasks than what memory
they have left. -/
structure IdleStep (s s' : Sys α) : Prop where
  idles : (s.pc idleTask).idles
  idles' : (s'.pc idleTask).idles
  shared : s' = { s with kern := s'.kern, heap := s'.heap, info := s'.info }
  queue : s'.kern.view.queue = s.kern.view.queue
  nextQueue : s'.kern.view.nextQueue = s.kern.view.nextQueue
  frame : ∀ u, s'.frame u = s.frame u
  ret : ∀ u, (s'.kern.task u).ret = (s.kern.task u).ret
  pc : ∀ u, u ≠ idleTask → s'.pc u = s.pc u
  tcb : ∀ u, (s'.info u).tcb = (s.info u).tcb
  param : ∀ u, (s'.info u).param = (s.info u).param
  exited : ∀ u, (s'.info u).exited = (s.info u).exited
  tcbLive : ∀ u, (s'.info u).tcbLive → (s.info u).tcbLive

namespace IdleStep

variable (hstep : IdleStep s s')
include hstep

theorem past : s'.past = s.past := by rw [hstep.shared]

theorem desc : s'.desc = s.desc := by rw [hstep.shared]

theorem semOwner : s'.semOwner = s.semOwner := by rw [hstep.shared]

/-- What is read off the program points is as it was, when that of the idle task is. -/
theorem pc_map {β : Type} (g : Pc → β) (hidle : g (s'.pc idleTask) = g (s.pc idleTask)) :
    (fun u => g (s'.pc u)) = fun u => g (s.pc u) := by
  funext u
  by_cases hu : u = idleTask
  · rw [hu, hidle]
  · rw [hstep.pc u hu]

theorem roles (hroles : s.Roles) : s'.Roles := by
  obtain ⟨hcreates, hjoins, hdetaches, -⟩ := Pc.idle_points hstep.idles
  obtain ⟨hcreates', hjoins', hdetaches', hown', hpasses', -⟩ := Pc.idle_points hstep.idles'
  refine ⟨?_, ?_, ?_, ?_, fun u i hu => ?_, fun u value hu => ?_⟩
  · rw [hstep.pc_map Pc.creates (hcreates'.trans hcreates.symm), hstep.past]
    exact hroles.creates
  · rw [hstep.pc_map Pc.joins (hjoins'.trans hjoins.symm), hstep.past]
    exact hroles.joins
  · rw [hstep.pc_map Pc.detaches (hdetaches'.trans hdetaches.symm), hstep.past]
    exact hroles.detaches
  · rw [hstep.past, funext hstep.param]
    exact hroles.tasks
  · rw [hstep.param]
    by_cases hui : u = idleTask
    · simp [hui, hown'] at hu
    · rw [hstep.pc u hui] at hu
      exact hroles.own u i hu
  · rw [hstep.exited]
    by_cases hui : u = idleTask
    · simp [hui, hpasses'] at hu
    · rw [hstep.pc u hui] at hu
      exact hroles.passes u value hu

theorem sems (hsems : s.Sems) (hframe : s.frame idleTask = none) : s'.Sems := by
  obtain ⟨-, -, -, -, -, -, -, -, hcreate, -⟩ := Pc.idle_points hstep.idles
  obtain ⟨-, -, -, -, -, hreads', -, -, -, hjoin', -⟩ := Pc.idle_points hstep.idles'
  refine ⟨fun u f hf => ?_, fun u i retval hu hnone => ?_, fun u i q hu => ?_, ?_, fun i q hq => ?_,
    fun i q hq => ?_⟩
  · rw [hstep.frame] at hf
    have hui : u ≠ idleTask := by
      rintro rfl
      simp [hframe] at hf
    exact (hsems.calls u f hf).keep (hstep.pc u hui) (fun _ => by rw [hstep.desc])
      (by rw [hstep.semOwner]; exact id)
  · have hui : u ≠ idleTask := by
      rintro rfl
      exact hjoin' _ _ _ hu
    rw [hstep.pc u hui] at hu
    rw [hstep.frame] at hnone
    rw [hstep.ret]
    exact hsems.returned u i retval hu hnone
  · rw [hstep.desc]
    by_cases hui : u = idleTask
    · simp [hui, hreads'] at hu
    · rw [hstep.pc u hui] at hu
      exact hsems.reads u i q hu
  · rw [hstep.desc, hstep.semOwner]
    exact hsems.owner
  · rw [hstep.semOwner] at hq
    rw [hstep.desc]
    rcases hsems.maker i q hq with hsem | ⟨c, hc⟩
    · exact .inl hsem
    · have hci : c ≠ idleTask := by
        rintro rfl
        exact hcreate _ _ hc
      exact .inr ⟨c, (hstep.pc c hci).trans hc⟩
  · rw [hstep.semOwner] at hq
    rw [hstep.queue, hstep.nextQueue]
    exact hsems.binary i q hq

/-- No thread is that of the idle task, or is created or joined by it. -/
theorem thread (hturn : Turn base low high s idleTask nodes) (i : ThreadId) :
    s'.ThreadOk nodes i := by
  obtain ⟨-, hjoins, -, -, -, -, -, -, hcreate, -⟩ := Pc.idle_points hstep.idles
  obtain ⟨-, -, -, -, -, -, -, -, hcreate', -⟩ := Pc.idle_points hstep.idles'
  refine (hturn.inv.threads i).keep hturn.inv.roles hturn.inv.sems (by rw [hstep.shared])
    (by rw [hstep.past]) (by rw [hstep.desc]) Iff.rfl
    (fun q hq => ⟨by rw [hstep.semOwner]; exact hq, by rw [hstep.queue]⟩) (fun c pc' _ => ?_)
    (fun u htask => ?_) fun j hj => ?_
  · by_cases hci : c = idleTask
    · rw [hci]
      exact ⟨fun h => absurd h (hcreate' i pc'), fun h => absurd h (hcreate i pc')⟩
    · rw [hstep.pc c hci]
  · have hui : u ≠ idleTask := by
      rintro rfl
      exact hturn.not_task hturn.inv.tasks.idle.2 i htask
    have hpc := hstep.pc u hui
    exact ⟨hstep.tcb u, hstep.exited u, by rw [hpc, hstep.frame], fun _ => hpc,
      fun _ => ⟨hpc, hstep.frame u⟩⟩
  · have hji : j ≠ idleTask := by
      rintro rfl
      have hjoins' : (s.pc idleTask).joins = some i := (hturn.inv.roles.joins i idleTask).mp hj
      simp [hjoins] at hjoins'
    exact ⟨hstep.pc j hji, hstep.frame j, hstep.ret j⟩

theorem registry (hregistry : s.Registry nodes) : s'.Registry nodes := by
  obtain ⟨-, -, -, -, hpasses', -⟩ := Pc.idle_points hstep.idles'
  refine ⟨?_, hregistry.order.imp fun {newer older} horder u hu hlive => ?_,
    fun u value hu hparam i hi => ?_⟩
  · rw [show s'.gThreadList = s.gThreadList by rw [hstep.shared]]
    exact hregistry.chain.congr fun i _ => by rw [Sys.next, hstep.desc]; rfl
  · rw [hstep.past] at hu
    rw [hstep.desc, hstep.tcb]
    exact horder u hu (hstep.tcbLive u hlive)
  · have hui : u ≠ idleTask := by
      rintro rfl
      simp [hu, Pc.passes] at hpasses'
    rw [hstep.pc u hui] at hu
    rw [hstep.param] at hparam
    rw [hstep.desc, hstep.tcb]
    exact hregistry.untracked u value hu hparam i hi

/-- The memory of the tasks is left to show. -/
theorem inv (hturn : Turn base low high s idleTask nodes) (hkernel : KernelInv s'.kern)
    (hcalls : Calls s'.kern.view fun _ _ => True) (hcpu : s'.kern.cpu = (s.kern.cpu.1, idleTask))
    (hfault : s'.kern.fault = none) (htasks : s'.Tasks) (hsound : Sound s'.heap low high)
    (hledger : Lib.Ledger base s'.heap.block s'.owned) : s'.Inv base low high nodes := by
  obtain ⟨-, -, -, -, -, -, hwindow, -⟩ := Pc.idle_points hstep.idles
  obtain ⟨-, -, -, -, -, -, hwindow', -⟩ := Pc.idle_points hstep.idles'
  refine ⟨⟨hkernel, hcalls, fun c hc => ?_, fun hne => ?_, ?_, ?_⟩, hstep.roles hturn.inv.roles,
    htasks, hstep.sems hturn.inv.sems hturn.frame, hstep.thread hturn,
    hstep.registry hturn.inv.registry, hsound, hledger⟩
  · have hci : c ≠ idleTask := by
      rintro rfl
      simp [hwindow'] at hc
    rw [hstep.pc c hci] at hc
    exact absurd (hturn.eq_of_inWindow hc) hci
  · have hzero := hturn.suspended
    rw [hwindow, if_neg (by simp)] at hzero
    rw [hcpu] at hne
    exact absurd hzero hne
  · rw [hstep.shared]
    exact hturn.inv.core.fault
  · simp [hfault]

end IdleStep

/-- `s'` is `s` after the idle task has taken `u`, the first of the waiting list, off it. -/
structure Reaped (s s' : Sys α) (u : TaskId) (rest : List TaskId) : Prop where
  waiting : s.kern.view.xTasksWaitingTermination = u :: rest
  keeps : Local s s' idleTask none
  pc : s'.pc idleTask = .freeStack u
  exited : (s'.info idleTask).exited = (s.info idleTask).exited
  view : s'.kern.view = { s.kern.view with
    xTasksWaitingTermination := rest
    uxCurrentNumberOfTasks := s.kern.view.uxCurrentNumberOfTasks - 1 }
  shared : s' = { s with kern := s'.kern, info := s'.info }

namespace Reaped

variable {rest : List TaskId} (hreaped : Reaped s s' u rest)
include hreaped

theorem idleStep (hpc : s.pc idleTask = .app) : IdleStep s s' where
  idles := by simp [hpc, Pc.idles]
  idles' := by simp [hreaped.pc, Pc.idles]
  shared := by rw [hreaped.shared]
  queue := by rw [hreaped.view]
  nextQueue := by rw [hreaped.view]
  frame := congrFun (show s'.kern.view.frame = s.kern.view.frame by rw [hreaped.view])
  ret := congrFun (show s'.kern.view.ret = s.kern.view.ret by rw [hreaped.view])
  pc := fun _ hv => hreaped.keeps.pc_ne hv
  tcb := hreaped.keeps.tcb_eq
  param := hreaped.keeps.param_eq
  exited := fun v => by
    by_cases hv : v = idleTask
    · rw [hv, hreaped.exited]
    · rw [hreaped.keeps.info v hv]
  tcbLive := fun v => by
    rw [hreaped.keeps.tcbLive_eq]
    exact id

/-- The task that is not on the list any more is the one that the idle task is freeing. -/
theorem tasks (hturn : Turn base low high s idleTask nodes) (hpc : s.pc idleTask = .app) :
    s'.Tasks := by
  have htasks := hturn.inv.tasks
  have hkeeps := hreaped.keeps
  have hlist := hreaped.waiting
  have hwait : s'.kern.view.xTasksWaitingTermination = rest := by rw [hreaped.view]
  have hnext : s'.kern.view.nextTask = s.kern.view.nextTask := by rw [hreaped.view]
  have hudead := htasks.waiting u (by rw [hlist]; exact List.mem_cons_self)
  have hwaiting : ∀ v ∈ rest, s.pc v = .dead := fun v hv =>
    htasks.waiting v (by rw [hlist]; exact List.mem_cons_of_mem u hv)
  have hnotIn : u ∉ rest := by
    have hnodup := hturn.inv.core.kernel.dying.nodup
    rw [hlist] at hnodup
    exact (List.nodup_cons.mp hnodup).1
  have hui : u ≠ idleTask := by
    rintro rfl
    simp [hpc] at hudead
  refine ⟨fun v hv => ?_, fun v hv => ?_, ?_, fun v w hv => ?_, fun v => ?_, fun v => ?_⟩
  · rw [hnext] at hv
    have hvi : v ≠ idleTask := Nat.ne_of_gt (Nat.lt_of_lt_of_le hturn.born hv)
    rw [hkeeps.pc_ne hvi, hkeeps.param_eq]
    exact htasks.unborn v hv
  · rw [hwait] at hv
    have hvi : v ≠ idleTask := by
      rintro rfl
      have hdead := hwaiting idleTask hv
      simp [hpc] at hdead
    rw [hkeeps.pc_ne hvi]
    exact hwaiting v hv
  · rw [hreaped.pc, hkeeps.param_eq]
    exact ⟨rfl, htasks.idle.2⟩
  · have hvi : v = idleTask := by
      by_contra hvi
      rw [hkeeps.pc_ne hvi] at hv
      exact hvi (htasks.frees v w hv).1
    subst hvi
    rw [hreaped.pc] at hv
    cases hv
    rw [hnext, hwait, hkeeps.pc_ne hui]
    refine ⟨rfl, ?_, hudead, hnotIn⟩
    by_contra hge
    have happ := (htasks.unborn u (Nat.le_of_not_lt hge)).1
    simp [hudead] at happ
  · have hlive : (s'.info v).stackLive = (s.info v).stackLive := by
      by_cases hvi : v = idleTask
      · exact hvi ▸ hkeeps.stackLive
      · rw [hkeeps.info v hvi]
    rw [hlive, htasks.stack v, hreaped.pc, hnext, hwait, hlist, hpc]
    by_cases hvi : v = idleTask
    · simp [hvi]
    · rw [hkeeps.pc_ne hvi]
      simp only [List.mem_cons, reduceCtorEq, or_false, Pc.freeStack.injEq]
      tauto
  · rw [hkeeps.tcbLive_eq, htasks.tcb v, hreaped.pc, hnext, hwait, hlist, hpc]
    by_cases hvi : v = idleTask
    · simp [hvi]
    · rw [hkeeps.pc_ne hvi]
      simp only [List.mem_cons, Pc.frees, reduceCtorEq, or_false, Option.some.injEq]
      tauto

end Reaped

/-- The idle task takes a task off the waiting list. -/
theorem Turn.idleReap (hturn : Turn base low high s idleTask nodes) {rest : List TaskId}
    (hpc : s.pc idleTask = .app) (hlist : s.kern.xTasksWaitingTermination = u :: rest)
    (hstep : s.kernel (.reap idleTask) (fun s => s.goto idleTask (.freeStack u)) = some s') :
    s'.Inv base low high nodes := by
  obtain ⟨k, hk, hcases⟩ := kernel_cases hstep
  obtain ⟨hkernel, hcalls, hcpu, -⟩ := hturn.kernelCall rfl (by simp) hk
  have hlist' : s.kern.view.xTasksWaitingTermination = u :: rest := hlist
  have hview : k.view = { s.kern.view with
      xTasksWaitingTermination := rest
      uxCurrentNumberOfTasks := s.kern.view.uxCurrentNumberOfTasks - 1 } := by
    have hreap : k.view = s.kern.view.reap := by
      obtain ⟨-, hperform⟩ := State.step_perform rfl hturn.frame hk
      cases hperform
      exact State.view_prvCheckTasksWaitingTermination _
    rw [hreap, View.reap, hlist']
  have hfault : k.view.fault = none := by
    rw [hview]
    exact hturn.kernFault
  obtain ⟨-, hs'⟩ := hcases.resolve_right fun hbad => hbad.1 hfault
  have hkern : s'.kern = k := by
    rw [hs']
    rfl
  have hreaped : Reaped s s' u rest := by
    subst hs'
    refine ⟨hlist', ?_, pc_goto .., by simp [goto, modInfo], hview, rfl⟩
    exact (Local.ofEq idleTask rfl rfl rfl rfl : Local s { s with kern := k } idleTask none).trans
      (.goto _ _ _)
  have hsound : Sound s'.heap low high := by
    rw [hreaped.shared]
    exact hturn.inv.sound
  refine (hreaped.idleStep hpc).inv hturn (by rwa [hkern]) (by rwa [hkern]) (by rwa [hkern])
    (by rwa [hkern]) (hreaped.tasks hturn hpc) hsound ?_
  have howned : s'.owned = s.owned :=
    owned_keep hreaped.keeps (by simp) (fun q => by rw [hreaped.view]) (by rw [hreaped.shared])
      (by rw [hreaped.pc, hpc]; rfl) (by rw [hreaped.shared])
  rw [howned, show s'.heap = s.heap by rw [hreaped.shared]]
  exact hturn.inv.ledger

/-- The idle task is at `old`, where it frees the memory of `o` at `pv`, and goes to `new`:
it frees the stack of `u`, and keeps the control block to free it next. -/
inductive Freeing (s : Sys α) (u : TaskId) : Pc → Pc → Bool → Owner → Nat → Prop
  | stack : Freeing s u (.freeStack u) (.freeTcb u) true (.stack u) (s.info u).pxStack
  | tcb : Freeing s u (.freeTcb u) .app false (.tcb u) (s.info u).tcb

/-- `s'` is `s` after it has done so. -/
structure Freed (s s' : Sys α) (u : TaskId) (new : Pc) (keeps : Bool) (heap : Heap4) : Prop where
  freed : s'.info u = { s.info u with stackLive := false, tcbLive := keeps }
  idle : s'.info idleTask = { s.info idleTask with pc := new }
  others : ∀ v, v ≠ u → v ≠ idleTask → s'.info v = s.info v
  shared : s' = { s with heap := heap, info := s'.info }

namespace Freeing

variable {keeps : Bool} {o : Owner} {pv : Nat} (hfreeing : Freeing s u old new keeps o pv)
include hfreeing

theorem frees : old.frees = some u := by cases hfreeing <;> rfl

theorem frees' : new.frees = if keeps then some u else none := by cases hfreeing <;> rfl

theorem idles : old.idles ∧ new.idles := by cases hfreeing <;> exact ⟨rfl, rfl⟩

/-- The task has its control block, and its stack if that is what is freed. -/
theorem live (htasks : s.Tasks) (hpc : s.pc idleTask = old) :
    ((s.info u).stackLive ↔ old = .freeStack u) ∧ (s.info u).tcbLive := by
  obtain ⟨-, hborn, hudead, hwait⟩ := htasks.frees idleTask u (by rw [hpc]; exact hfreeing.frees)
  have hui : u ≠ idleTask := by
    rintro rfl
    exact (Pc.idle_points hfreeing.idles.1).2.2.2.2.2.2.2.2.2.2 (hpc.symm.trans hudead)
  constructor
  · rw [htasks.stack u, hpc]
    simp [hborn, hui, hudead, hwait]
  · exact (htasks.tcb u).mpr ⟨hborn, hui, .inr (.inr (by rw [hpc]; exact hfreeing.frees))⟩

end Freeing

namespace Freed

variable {keeps : Bool} {heap : Heap4} (hfreed : Freed s s' u new keeps heap)
include hfreed

theorem kern : s'.kern = s.kern := by rw [hfreed.shared]

theorem pc_idle : s'.pc idleTask = new := congrArg Info.pc hfreed.idle

theorem pc_ne {v : TaskId} (hvi : v ≠ idleTask) : s'.pc v = s.pc v := by
  by_cases hvu : v = u
  · rw [Sys.pc, hvu, hfreed.freed]
    rfl
  · rw [Sys.pc, hfreed.others v hvu hvi]
    rfl

/-- A field that is neither the program point nor one of the flags is as it was. -/
theorem field {β : Type} (g : Info → β)
    (hg : ∀ (I : Info) (pc : Pc) (stack tcb : Bool),
      g { I with pc := pc, stackLive := stack, tcbLive := tcb } = g I) (v : TaskId) :
    g (s'.info v) = g (s.info v) := by
  by_cases hvu : v = u
  · rw [hvu, hfreed.freed]
    exact hg _ (s.info u).pc _ _
  · by_cases hvi : v = idleTask
    · rw [hvi, hfreed.idle]
      exact hg _ _ (s.info idleTask).stackLive (s.info idleTask).tcbLive
    · rw [hfreed.others v hvu hvi]

theorem live_ne {v : TaskId} (hvu : v ≠ u) : (s'.info v).stackLive = (s.info v).stackLive ∧
    (s'.info v).tcbLive = (s.info v).tcbLive := by
  by_cases hvi : v = idleTask
  · rw [hvi, hfreed.idle]
    exact ⟨rfl, rfl⟩
  · rw [hfreed.others v hvu hvi]
    exact ⟨rfl, rfl⟩

variable {o : Owner} {pv : Nat} (hfreeing : Freeing s u old new keeps o pv)
include hfreeing

theorem idleStep (htasks : s.Tasks) (hpc : s.pc idleTask = old) : IdleStep s s' where
  idles := by
    rw [hpc]
    exact hfreeing.idles.1
  idles' := by
    rw [hfreed.pc_idle]
    exact hfreeing.idles.2
  shared := by rw [hfreed.shared]
  queue := by rw [hfreed.kern]
  nextQueue := by rw [hfreed.kern]
  frame := fun v => by
    unfold Sys.frame
    rw [hfreed.kern]
  ret := fun v => by rw [hfreed.kern]
  pc := fun v hvi => hfreed.pc_ne hvi
  tcb := hfreed.field Info.tcb fun _ _ _ _ => rfl
  param := hfreed.field Info.param fun _ _ _ _ => rfl
  exited := hfreed.field Info.exited fun _ _ _ _ => rfl
  tcbLive := fun v hlive => by
    by_cases hvu : v = u
    · rw [hvu]
      exact (hfreeing.live htasks hpc).2
    · rwa [(hfreed.live_ne hvu).2] at hlive

theorem tasks (hturn : Turn base low high s idleTask nodes) (hpc : s.pc idleTask = old) :
    s'.Tasks := by
  have htasks := hturn.inv.tasks
  have hfrees := hfreeing.frees
  obtain ⟨-, hborn, hudead, hwait⟩ := htasks.frees idleTask u (by rw [hpc]; exact hfrees)
  have halive : old ≠ .dead := (Pc.idle_points hfreeing.idles.1).2.2.2.2.2.2.2.2.2.2
  have hui : u ≠ idleTask := by
    rintro rfl
    exact halive (hpc.symm.trans hudead)
  have hparam := hfreed.field Info.param fun _ _ _ _ => rfl
  refine ⟨fun v hv => ?_, fun v hv => ?_, ?_, fun v w hv => ?_, fun v => ?_, fun v => ?_⟩
  · rw [hfreed.kern] at hv
    have hvi : v ≠ idleTask := Nat.ne_of_gt (Nat.lt_of_lt_of_le hturn.born hv)
    rw [hfreed.pc_ne hvi, hparam]
    exact htasks.unborn v hv
  · rw [hfreed.kern] at hv
    have hvdead := htasks.waiting v hv
    have hvi : v ≠ idleTask := by
      rintro rfl
      exact halive (hpc.symm.trans hvdead)
    rw [hfreed.pc_ne hvi]
    exact hvdead
  · rw [hfreed.pc_idle, hparam]
    exact ⟨hfreeing.idles.2, htasks.idle.2⟩
  · have hvi : v = idleTask := by
      by_contra hvi
      rw [hfreed.pc_ne hvi] at hv
      exact hvi (htasks.frees v w hv).1
    rw [hvi, hfreed.pc_idle, hfreeing.frees'] at hv
    obtain rfl : u = w := by
      split at hv
      · exact Option.some.inj hv
      · simp at hv
    rw [hfreed.kern, hfreed.pc_ne hui]
    exact ⟨hvi, hborn, hudead, hwait⟩
  · rw [hfreed.kern, hfreed.pc_idle]
    have hnot : new ≠ .freeStack v := by cases hfreeing <;> simp
    by_cases hvu : v = u
    · subst hvu
      rw [hfreed.freed, hfreed.pc_ne hui]
      simp [hudead, hwait, hnot]
    · rw [(hfreed.live_ne hvu).1, htasks.stack v, hpc]
      have hnot' : old ≠ .freeStack v := by
        rintro rfl
        exact hvu (Option.some.inj hfrees)
      by_cases hvi : v = idleTask
      · simp [hvi]
      · rw [hfreed.pc_ne hvi]
        simp [hnot, hnot']
  · rw [hfreed.kern, hfreed.pc_idle, hfreeing.frees']
    by_cases hvu : v = u
    · subst hvu
      rw [hfreed.freed, hfreed.pc_ne hui]
      cases keeps <;> simp [hudead, hwait, hborn, hui]
    · rw [(hfreed.live_ne hvu).2, htasks.tcb v, hpc, hfrees]
      by_cases hvi : v = idleTask
      · simp [hvi]
      · rw [hfreed.pc_ne hvi]
        cases keeps <;> simp [Ne.symm hvu]

/-- All objects but the one that is freed have the memory they had. -/
theorem owned (htasks : s.Tasks) (hpc : s.pc idleTask = old) :
    s'.owned = Function.update s.owned o none := by
  obtain ⟨hstackIff, htcbLive⟩ := hfreeing.live htasks hpc
  have hmem : ∀ v, (s'.pc v).memory = (s.pc v).memory := by
    intro v
    by_cases hvi : v = idleTask
    · rw [hvi, hfreed.pc_idle, hpc, (Pc.idle_points hfreeing.idles.1).2.2.2.2.2.2.2.1,
        (Pc.idle_points hfreeing.idles.2).2.2.2.2.2.2.2.1]
    · rw [hfreed.pc_ne hvi]
  have hshared : s'.desc = s.desc ∧ s'.queueAddr = s.queueAddr ∧ s'.blocks = s.blocks := by
    rw [hfreed.shared]
    exact ⟨rfl, rfl, rfl⟩
  have htcb := hfreed.field Info.tcb fun _ _ _ _ => rfl
  have hpxStack := hfreed.field Info.pxStack fun _ _ _ _ => rfl
  have hustack : (s'.info u).stackLive = false := by rw [hfreed.freed]
  have hutcb : (s'.info u).tcbLive = keeps := by rw [hfreed.freed]
  funext o'
  cases o' with
  | desc i => cases hfreeing <;> simp [Sys.owned, hshared]
  | queue q => cases hfreeing <;> simp [Sys.owned, hshared, hfreed.kern]
  | stack v =>
      by_cases hvu : v = u
      · subst hvu
        cases hfreeing with
        | stack => simp [Sys.owned, hustack]
        | tcb => simp_all [Sys.owned]
      · cases hfreeing <;> simp [Sys.owned, hvu, hfreed.live_ne hvu, hpxStack]
  | tcb v =>
      by_cases hvu : v = u
      · subst hvu
        cases hfreeing <;> simp [Sys.owned, hutcb, htcbLive, htcb]
      · cases hfreeing <;> simp [Sys.owned, hvu, hfreed.live_ne hvu, htcb]
  | newStack c => cases hfreeing <;> simp [Sys.owned, hmem]
  | newTcb c => cases hfreeing <;> simp [Sys.owned, hmem]
  | block a => cases hfreeing <;> simp [Sys.owned, hshared]

end Freed

/-- The idle task frees the stack or the control block of a task. -/
theorem Turn.idleFree (hturn : Turn base low high s idleTask nodes) {f : Info → Info} {keeps : Bool}
    {o : Owner} {pv : Nat} (hfreeing : Freeing s u old new keeps o pv) (hpc : s.pc idleTask = old)
    (hf : f (s.info u) = { s.info u with stackLive := false, tcbLive := keeps }) :
    (s.release pv fun s => (s.modInfo u f).goto idleTask new).Inv base low high nodes := by
  have htasks := hturn.inv.tasks
  obtain ⟨hstackIff, htcbLive⟩ := hfreeing.live htasks hpc
  have hui : u ≠ idleTask := by
    rintro rfl
    have hdead := (htasks.frees idleTask idleTask (by rw [hpc]; exact hfreeing.frees)).2.2.1
    exact (Pc.idle_points hfreeing.idles.1).2.2.2.2.2.2.2.2.2.2 (hpc.symm.trans hdead)
  have howned : s.owned o = some pv := by
    cases hfreeing with
    | stack => simp [owned, hstackIff.mpr rfl]
    | tcb => simp [owned, htcbLive]
  obtain ⟨heap, hfree, hsound, hledger⟩ := hturn.inv.released howned
  have hrelease : (s.release pv fun s => (s.modInfo u f).goto idleTask new) =
      (modInfo { s with heap := heap } u f).goto idleTask new := by
    simp [release, hfree]
  rw [hrelease]
  have hfreed : Freed s ((modInfo { s with heap := heap } u f).goto idleTask new) u new
      keeps heap := by
    refine ⟨?_, by simp [goto, modInfo, Ne.symm hui], fun v hvu hvi => ?_, rfl⟩
    · rw [← hf]
      simp [goto, modInfo, hui]
    · simp [goto, modInfo, hvu, hvi]
  refine (hfreed.idleStep hfreeing htasks hpc).inv hturn hturn.inv.core.kernel hturn.inv.core.calls
    (Prod.ext rfl hturn.current) hturn.kernFault (hfreed.tasks hfreeing hturn hpc) hsound ?_
  rw [hfreed.owned hfreeing htasks hpc]
  exact hledger

end Sys

end SimulatedLinux.Thread
