import SimulatedLinux.Thread.Keep

/-! # The turn of a task

What is known when a task outside of the kernel's blocking functions is about to
take a step, and what such a step leaves of the threads it is not about.
-/

namespace SimulatedLinux.Thread

open Kernel Heap

variable {α : Type}

namespace Sys

variable {s s' : Sys α} {t : TaskId} {h : Option ThreadId} {nodes nodes' : List ThreadId}
  {i : ThreadId}

/-! ## Threads a step is not about -/

theorem life_keep (hpast : s'.past i = s.past i)
    (hdesc : s'.desc i = { s.desc i with next := (s'.desc i).next }) (hsem : s'.sem i = s.sem i)
    (hnodes : i ∈ nodes' ↔ i ∈ nodes)
    (htask : ∀ u, (s.past i).task = some u → (s'.info u).exited = (s.info u).exited ∧
      bodyOf (s'.pc u) (s'.frame u) (s.past i).selfFreed =
        bodyOf (s.pc u) (s.frame u) (s.past i).selfFreed)
    (hjoin : ∀ j, (s.past i).use.joiner = some j → s'.pc j = s.pc j ∧ s'.frame j = s.frame j ∧
      (s'.kern.task j).ret = (s.kern.task j).ret) : s'.life nodes' i = s.life nodes i := by
  have hbody : s'.body i = s.body i := by
    unfold body
    rw [hpast]
    cases htask' : (s.past i).task with
    | none => rfl
    | some u => exact (htask u htask').2
  have hpassed : s'.passed i = s.passed i := by
    unfold passed
    rw [hpast]
    cases htask' : (s.past i).task with
    | none => rfl
    | some u => exact (htask u htask').1
  have hhandle : s'.handle i = s.handle i ∧ s'.out i = s.out i := by
    unfold handle out
    rw [hpast]
    cases huse : (s.past i).use with
    | joining j =>
        obtain ⟨hpc, hframe, hret⟩ := hjoin j (by simp [huse, Use.joiner])
        simp [hpc, hframe, hret]
    | _ => simp
  simp only [life, Life.mk.injEq, hbody, hpassed, hhandle, hsem, hpast, hnodes, and_true, true_and]
  rw [hdesc]
  simp

/-- What a task keeps for its own thread when its step is not about that thread. -/
structure TaskKept (s s' : Sys α) (i : ThreadId) (u : TaskId) : Prop where
  tcb : (s'.info u).tcb = (s.info u).tcb
  exited : (s'.info u).exited = (s.info u).exited
  body : bodyOf (s'.pc u) (s'.frame u) (s.past i).selfFreed =
    bodyOf (s.pc u) (s.frame u) (s.past i).selfFreed
  ends : (s.past i).selfFreed → s'.pc u = s.pc u
  building : ¬ s.Made i → s'.pc u = s.pc u ∧ s'.frame u = s.frame u

/-- A thread that is being created is not in the registry. -/
theorem Roles.not_made (hroles : s.Roles) {c : TaskId} {pc : CreatePc} (hpc : s.pc c = .create i pc)
    (hadded : pc.added = false) : ¬ s.Made i := by
  rintro ⟨-, hnone⟩
  have hcreator := (hroles.creates i c).mpr (by simp [hpc, Pc.creates, hadded])
  simp [hnone] at hcreator

theorem ThreadOk.keep (hok : s.ThreadOk nodes i) (hroles : s.Roles) (hsems : s.Sems)
    (hborn : s'.nextThread ≤ i ↔ s.nextThread ≤ i) (hpast : s'.past i = s.past i)
    (hdesc : s'.desc i = { s.desc i with next := (s'.desc i).next })
    (hnodes : i ∈ nodes' ↔ i ∈ nodes)
    (hqueue : ∀ q, s.semOwner q = some i →
      s'.semOwner q = some i ∧ s'.kern.view.queue q = s.kern.view.queue q)
    (hcreator : ∀ c pc, pc.added = false ∨ pc = .store →
      (s'.pc c = .create i pc ↔ s.pc c = .create i pc))
    (htask : ∀ u, (s.past i).task = some u → s.TaskKept s' i u)
    (hjoin : ∀ j, (s.past i).use.joiner = some j → s'.pc j = s.pc j ∧ s'.frame j = s.frame j ∧
      (s'.kern.task j).ret = (s.kern.task j).ret) : s'.ThreadOk nodes' i := by
  have hmade : s'.Made i ↔ s.Made i := by
    unfold Made
    rw [hpast, ← Nat.not_le, hborn, Nat.not_le]
  have hjoinSem : (s'.desc i).joinSem = (s.desc i).joinSem := by rw [hdesc]
  have hsem : s'.sem i = s.sem i := by
    unfold Sys.sem
    rw [hjoinSem]
    cases hq : (s.desc i).joinSem with
    | none => rfl
    | some q => exact (hqueue q (hsems.owner i q hq)).2
  have hfresh : ∀ q, s.FreshSem i q → s'.FreshSem i q := by
    rintro q ⟨howner, hlive, hcount⟩
    obtain ⟨howner', hsame⟩ := hqueue q howner
    exact ⟨howner', by rwa [hsame], by rwa [hsame]⟩
  refine ⟨fun hi => ?_, fun hnot => ?_, fun c pc hc hadded => ?_, fun hm => ?_, fun hm => ?_,
    fun hm => ?_, fun hm => ?_, fun c hc =>
      hmade.mpr (hok.storing c ((hcreator c _ (.inr rfl)).mp hc)),
    by rw [hpast]; exact hok.notFailed, fun hfreed u hu => ?_⟩
  · rw [hpast, hjoinSem, hdesc]
    exact hok.unborn (hborn.mp hi)
  · rw [hpast, hnodes]
    exact hok.fresh (mt hmade.mpr hnot)
  · obtain ⟨hlive, hjoinable, hnewSem, hhasSem, hnoSem, hhasTask, hnoTask⟩ :=
      hok.building c pc ((hcreator c pc (.inl hadded)).mp hc) hadded
    refine ⟨by rw [hdesc]; exact hlive, by rw [hdesc]; exact hjoinable,
      fun q hq => hfresh q (hnewSem q hq), fun hpc => ?_, fun hpc => hjoinSem.trans (hnoSem hpc),
      fun hpc => ?_, fun hpc => ?_⟩
    · obtain ⟨q, hq, hf⟩ := hhasSem hpc
      exact ⟨q, hjoinSem.trans hq, hfresh q hf⟩
    · obtain ⟨u, hu, hupc, huframe, hxTask⟩ := hhasTask hpc
      have hnot := hroles.not_made ((hcreator c pc (.inl hadded)).mp hc) hadded
      obtain ⟨hpc', hframe'⟩ := (htask u hu).building hnot
      refine ⟨u, by rw [hpast]; exact hu, hpc'.trans hupc, hframe'.trans huframe, ?_⟩
      rw [hdesc, (htask u hu).tcb]
      exact hxTask
    · rw [hpast]
      exact hnoTask hpc
  · rw [life_keep hpast hdesc hsem hnodes
      (fun u hu => ⟨(htask u hu).exited, (htask u hu).body⟩) hjoin]
    exact hok.life (hmade.mp hm)
  · rw [hjoinSem]
    exact hok.sem (hmade.mp hm)
  · obtain ⟨u, hu, hxTask⟩ := hok.task (hmade.mp hm)
    refine ⟨u, by rw [hpast]; exact hu, ?_⟩
    rw [hdesc, (htask u hu).tcb]
    exact hxTask
  · unfold Published
    rw [hpast]
    rcases hok.stored (hmade.mp hm) with hstored | ⟨c, hc⟩
    · exact .inl hstored
    · exact .inr ⟨c, (hcreator c _ (.inr rfl)).mpr hc⟩
  · rw [hpast] at hfreed hu
    rw [(htask u hu).ends hfreed]
    exact hok.selfFreed hfreed u hu

/-! ## The turn -/

variable {base : Nat → Option Nat} {low high : Nat}

/-- A task that was made for a thread which is not in the registry has not run. -/
theorem Inv.creator_of_task (hinv : s.Inv base low high nodes) {u : TaskId} (hnot : ¬ s.Made i)
    (htask : (s.past i).task = some u) :
    ∃ c, s.pc c = .create i .addThread ∧ s.pc u = .wrapper i := by
  have hok := hinv.threads i
  have hborn : i < s.nextThread := by
    by_contra hge
    have hnone := (hok.unborn (Nat.le_of_not_lt hge)).2.1
    simp [htask] at hnone
  obtain ⟨c, hc⟩ : ∃ c, (s.past i).creator = some c := by
    cases hcreator : (s.past i).creator with
    | none => exact absurd ⟨hborn, hcreator⟩ hnot
    | some c => exact ⟨c, rfl⟩
  have hcreates := (hinv.roles.creates i c).mp hc
  obtain ⟨pc, hpc, hadded⟩ : ∃ pc, s.pc c = .create i pc ∧ pc.added = false := by
    cases hpc : s.pc c with
    | create i' pc =>
        simp only [hpc, Pc.creates] at hcreates
        split at hcreates
        · simp at hcreates
        next hadded =>
          obtain rfl := Option.some.inj hcreates
          exact ⟨pc, rfl, Bool.eq_false_iff.mpr hadded⟩
    | _ => simp [hpc, Pc.creates] at hcreates
  have hbuilding := hok.building c pc hpc hadded
  have hhas : pc.hasTask := by
    by_contra hno
    have hnone := hbuilding.noTask (Bool.eq_false_iff.mpr hno)
    simp [htask] at hnone
  obtain ⟨u', hu', hupc, -, -⟩ := hbuilding.hasTask hhas
  obtain rfl : u' = u := Option.some.inj (hu'.symm.trans htask)
  obtain rfl : pc = .addThread := by
    cases pc <;> simp_all [CreatePc.hasTask, CreatePc.added]
  exact ⟨c, hpc, hupc⟩

/-- The thread that a task joins. -/
theorem Inv.joining (hinv : s.Inv base low high nodes) {retval : Bool} {pc : JoinPc}
    (hpc : s.pc t = .join i retval pc) : (s.past i).use = .joining t ∧ s.Made i := by
  have hjoiner : (s.past i).use.joiner = some t :=
    (hinv.roles.joins i t).mpr (by simp [hpc, Pc.joins])
  have huse : (s.past i).use = .joining t := by
    cases huse : (s.past i).use <;> simp_all [Use.joiner]
  refine ⟨huse, ?_⟩
  by_contra hnot
  simp [((hinv.threads i).fresh hnot).1] at huse

/-- The thread that `pthread_exit` works on. -/
theorem Inv.exiting (hinv : s.Inv base low high nodes) {pc : ExitPc} (hpc : s.pc t = .exit pc)
    (hthread : pc.thread = some i) : (s.past i).task = some t ∧ s.Made i := by
  have hparam := hinv.roles.own t i (by simp [hpc, Pc.own, hthread])
  have htask : (s.past i).task = some t := (hinv.roles.tasks i t).mpr hparam
  refine ⟨htask, ?_⟩
  by_contra hnot
  obtain ⟨-, -, hupc⟩ := hinv.creator_of_task hnot htask
  simp [hpc] at hupc

/-- Task `t` is about to take a step of its own. -/
structure Turn (base : Nat → Option Nat) (low high : Nat) (s : Sys α) (t : TaskId)
    (nodes : List ThreadId) : Prop where
  inv : s.Inv base low high nodes
  run : s.kern.canRun t
  current : s.kern.cpu.2 = t
  frame : s.frame t = none
  fault : s.fault = none

namespace Turn

variable (hturn : Turn base low high s t nodes)
include hturn

theorem born : t < s.kern.view.nextTask := hturn.inv.core.kernel.wait.spawned hturn.run

theorem kernFault : s.kern.fault = none := ((s.kern.canRun_iff t).mp hturn.run).1

/-- Only the running task can have suspended the scheduler. -/
theorem eq_of_inWindow {c : TaskId} (hc : (s.pc c).inWindow) : c = t := by
  have hcpu := (hturn.inv.core.window c hc).1
  rw [← hturn.current, hcpu]

theorem suspended : s.kern.cpu.1 = if (s.pc t).inWindow then 1 else 0 := by
  split
  next hin => rw [(hturn.inv.core.window t hin).1]
  next hin =>
    by_contra hne
    have hrunning := hturn.inv.core.running hne
    rw [hturn.current, hturn.frame] at hrunning
    simp [hin] at hrunning

/-- The thread of a task that runs is in the registry. -/
theorem ne_of_building {u : TaskId} (hnot : ¬ s.Made i) (htask : (s.past i).task = some u) :
    u ≠ t ∧ s.pc u = .wrapper i := by
  obtain ⟨c, hpc, hupc⟩ := hturn.inv.creator_of_task hnot htask
  -- its creator has suspended the scheduler, so it is the creator that runs
  have hct : c = t := hturn.eq_of_inWindow (by rw [hpc]; rfl)
  refine ⟨?_, hupc⟩
  rintro rfl
  rw [hct, hupc] at hpc
  simp at hpc

theorem made_of_task (htask : (s.past i).task = some t) : s.Made i := by
  by_contra hnot
  exact (hturn.ne_of_building hnot htask).1 rfl

/-- No other task is at the end of the creation of a thread that is not in the registry. -/
theorem not_storing (hlocal : Local s s' t h) (hnot : ¬ s.Made i) (hpc : s'.pc t ≠ .create i .store)
    (c : TaskId) : s'.pc c ≠ .create i .store := by
  by_cases hc : c = t
  · rwa [hc]
  · rw [hlocal.pc_ne hc]
    exact fun hstore => hnot ((hturn.inv.threads i).storing c hstore)

theorem made_of_use (huse : (s.past i).use ≠ .unused) : s.Made i := by
  by_contra hnot
  exact huse ((hturn.inv.threads i).fresh hnot).1

/-- What a task at this point keeps for its own thread. -/
structure Bystand (s s' : Sys α) (t : TaskId) : Prop where
  exited : (s'.info t).exited = (s.info t).exited
  body : ∀ freed, bodyOf (s'.pc t) (s'.frame t) freed = bodyOf (s.pc t) (s.frame t) freed
  ends : s.pc t ≠ .exit .taskDelete ∧ s.pc t ≠ .dead

/-- Threads that the step is not about. -/
theorem others (hlocal : Local s s' t h) (hframe : ∀ u, u ≠ t → s'.frame u = s.frame u)
    (hret : ∀ u, u ≠ t → (s'.kern.task u).ret = (s.kern.task u).ret)
    (hqueue : ∀ i q, h ≠ some i → s.semOwner q = some i →
      s'.semOwner q = some i ∧ s'.kern.view.queue q = s.kern.view.queue q)
    (hnodes : ∀ i, h ≠ some i → (i ∈ nodes' ↔ i ∈ nodes))
    (hsubject : ∀ i, (s.pc t).subject = some i → h = some i)
    (hsubject' : ∀ i, (s'.pc t).subject = some i → h = some i)
    (hself : (s.past i).task = some t → Bystand s s' t) (hi : h ≠ some i) :
    s'.ThreadOk nodes' i := by
  refine (hturn.inv.threads i).keep hturn.inv.roles hturn.inv.sems (by rw [hlocal.nextThread])
    (hlocal.past i hi) (hlocal.desc i hi) (hnodes i hi) (fun q => hqueue i q hi) ?_ ?_ ?_
  · intro c pc hpc
    by_cases hc : c = t
    · subst hc
      constructor <;> intro hcreate
      · exact absurd (hsubject' i (by rw [hcreate, Pc.subject_of_create hpc])) hi
      · exact absurd (hsubject i (by rw [hcreate, Pc.subject_of_create hpc])) hi
    · rw [hlocal.pc_ne hc]
  · intro u htask
    by_cases hu : u = t
    · subst hu
      obtain ⟨hexited, hbody, hends⟩ := hself htask
      refine ⟨hlocal.tcb, hexited, hbody _, fun hfreed => ?_, fun hnot => ?_⟩
      · rcases (hturn.inv.threads i).selfFreed hfreed u htask with hpc | hpc
        · exact absurd hpc hends.1
        · exact absurd hpc hends.2
      · exact absurd (hturn.made_of_task htask) hnot
    · have hinfo := hlocal.info u hu
      have hpc := hlocal.pc_ne hu
      exact ⟨by rw [hinfo], by rw [hinfo], by rw [hpc, hframe u hu], fun _ => hpc,
        fun _ => ⟨hpc, hframe u hu⟩⟩
  · intro j hj
    have hne : j ≠ t := by
      rintro rfl
      have hjoins := (hturn.inv.roles.joins i j).mp hj
      exact hi (hsubject i (Pc.subject_of_joins hjoins))
    exact ⟨hlocal.pc_ne hne, hframe j hne, hret j hne⟩

/-- The kernel after a turn of `t`. -/
theorem core (hlocal : Local s s' t h) (hkernel : KernelInv s'.kern)
    (hcalls : Calls s'.kern.view fun _ _ => True) (hcpu : s'.kern.cpu.2 = t)
    (hwindow : (s'.pc t).inWindow → s'.kern.cpu.1 = 1 ∧ s'.frame t = none)
    (hrunning : s'.kern.cpu.1 ≠ 0 → (s'.pc t).inWindow ∨ (s'.frame t).isSome)
    (hfault : s'.fault = none ∨ s'.fault = some .mallocFailed)
    (hkernFault : ∀ q, s'.kern.fault = some (.useAfterFree q) → s'.semOwner q = none) :
    s'.Core := by
  refine ⟨hkernel, hcalls, fun c hc => ?_, fun hne => ?_, hfault, hkernFault⟩
  · have hct : c = t := by
      by_contra hct
      rw [hlocal.pc_ne hct] at hc
      exact hct (hturn.eq_of_inWindow hc)
    subst hct
    exact ⟨Prod.ext (hwindow hc).1 hcpu, (hwindow hc).2⟩
  · rw [hcpu]
    exact hrunning hne

end Turn

/-! ## Threads a step is about -/

/-- A thread that is being created by `c`. -/
theorem ThreadOk.ofBuilding {c : TaskId} {p : CreatePc} (hroles : s.Roles)
    (hborn : i < s.nextThread) (hpc : s.pc c = .create i p) (hadded : p.added = false)
    (hfresh : (s.past i).use = .unused ∧ (s.past i).handle = none ∧ (s.past i).selfFreed = false ∧
      (s.past i).descFrees = 0 ∧ (s.past i).semFrees = 0 ∧ i ∉ nodes)
    (hstore : ∀ c, s.pc c ≠ .create i .store) (hbuilding : s.Building i p) :
    s.ThreadOk nodes i := by
  have hnot : ¬ s.Made i := hroles.not_made hpc hadded
  refine ⟨fun hge => absurd hborn (Nat.not_lt_of_le hge), fun _ => hfresh,
    fun c' pc' hpc' hadded' => ?_, fun hm => absurd hm hnot, fun hm => absurd hm hnot, fun hm =>
      absurd hm hnot,
    fun hm => absurd hm hnot, fun c hc => absurd hc (hstore c), by
      simp [hfresh.1], fun hfreed => ?_⟩
  · have hc := (hroles.creates i c).mpr (by simp [hpc, Pc.creates, hadded])
    have hc' := (hroles.creates i c').mpr (by simp [hpc', Pc.creates, hadded'])
    obtain rfl : c' = c := Option.some.inj (hc'.symm.trans hc)
    rw [hpc] at hpc'
    cases hpc'
    exact hbuilding
  · simp [hfresh.2.2.1] at hfreed

/-- A thread of the registry. -/
theorem ThreadOk.ofMade (hroles : s.Roles) (hmade : s.Made i) (hlife : (s.life nodes i).Ok)
    (hsem : ∃ q, (s.desc i).joinSem = some q)
    (htask : ∃ u, (s.past i).task = some u ∧ (s.desc i).xTask = (s.info u).tcb)
    (hstored : s.Published i ∨ ∃ c, s.pc c = .create i .store) (huse : (s.past i).use ≠ .failed)
    (hfreed : (s.past i).selfFreed → ∀ u, (s.past i).task = some u →
      s.pc u = .exit .taskDelete ∨ s.pc u = .dead) : s.ThreadOk nodes i :=
  ⟨fun hge => absurd hmade.1 (Nat.not_lt_of_le hge), fun hnot => absurd hmade hnot,
    fun _ _ hpc hadded => absurd hmade (hroles.not_made hpc hadded), fun _ => hlife, fun _ => hsem,
    fun _ => htask, fun _ => hstored, fun _ _ => hmade, huse, hfreed⟩

/-- The thread of the registry that a step is about, if its life goes on as it may. -/
theorem Turn.subject (hturn : Turn base low high s t nodes) (hlocal : Local s s' t (some i))
    (hroles : s'.Roles) (hmade : s.Made i) (hcreator : (s'.past i).creator = none)
    (hhandle : (s'.past i).handle = (s.past i).handle) (huse : (s'.past i).use ≠ .failed)
    (hsem : (s'.desc i).joinSem = (s.desc i).joinSem)
    (hxTask : (s'.desc i).xTask = (s.desc i).xTask) (hstore : s.pc t ≠ .create i .store)
    (hfreed : (s'.past i).selfFreed → (s.past i).task = some t ∨ (s.past i).selfFreed)
    (hends : (s'.past i).selfFreed → (s.past i).task = some t →
      s'.pc t = .exit .taskDelete ∨ s'.pc t = .dead)
    (hlife : (s'.life nodes' i).Ok) : s'.ThreadOk nodes' i := by
  have hok := hturn.inv.threads i
  refine .ofMade hroles ⟨by rw [hlocal.nextThread]; exact hmade.1, hcreator⟩ hlife
    (by rw [hsem]; exact hok.sem hmade) ?_ ?_ huse fun hfreed' u hu => ?_
  · obtain ⟨u, hu, htcb⟩ := hok.task hmade
    exact ⟨u, by rw [hlocal.task]; exact hu, by rw [hxTask, hlocal.tcb_eq]; exact htcb⟩
  · unfold Published
    rw [hhandle]
    rcases hok.stored hmade with hstored | ⟨c, hc⟩
    · exact .inl hstored
    · have hne : c ≠ t := by
        rintro rfl
        exact hstore hc
      exact .inr ⟨c, (hlocal.pc_ne hne).trans hc⟩
  · rw [hlocal.task] at hu
    by_cases hut : u = t
    · subst hut
      exact hends hfreed' hu
    · rw [hlocal.pc_ne hut]
      rcases hfreed hfreed' with htask | hold
      · exact absurd (Option.some.inj (hu.symm.trans htask)) hut
      · exact hok.selfFreed hold u hu

/-- A task that has not freed its own descriptor is not at the end of `pthread_exit`. -/
theorem Turn.not_freed (hturn : Turn base low high s t nodes) (hends : s.pc t ≠ .exit .taskDelete)
    (hdead : s.pc t ≠ .dead) (htask : (s.past i).task = some t) : (s.past i).selfFreed = false := by
  cases hfreed : (s.past i).selfFreed with
  | false => rfl
  | true =>
      rcases (hturn.inv.threads i).selfFreed hfreed t htask with hpc | hpc
      · exact absurd hpc hends
      · exact absurd hpc hdead

/-! ## Memory -/

theorem owned_keep (hlocal : Local s s' t h)
    (hdesc : ∀ i, h = some i → (s'.desc i).live = (s.desc i).live ∧
      (s'.desc i).addr = (s.desc i).addr)
    (hqueue : ∀ q, (s'.kern.view.queue q).live = (s.kern.view.queue q).live)
    (haddr : s'.queueAddr = s.queueAddr) (hmemory : (s'.pc t).memory = (s.pc t).memory)
    (hblocks : s'.blocks = s.blocks) : s'.owned = s.owned := by
  have hpc : ∀ u, (s'.pc u).memory = (s.pc u).memory := by
    intro u
    by_cases hu : u = t
    · exact hu ▸ hmemory
    · rw [hlocal.pc_ne hu]
  funext o
  cases o with
  | desc i =>
      have hsame : (s'.desc i).live = (s.desc i).live ∧ (s'.desc i).addr = (s.desc i).addr := by
        by_cases hi : h = some i
        · exact hdesc i hi
        · rw [hlocal.desc i hi]
          simp
      simp [owned, hsame]
  | queue q => simp [owned, hqueue, haddr]
  | stack u =>
      by_cases hu : u = t
      · simp [owned, hu, hlocal.stackLive, hlocal.pxStack]
      · simp [owned, hlocal.info u hu]
  | tcb u => simp [owned, hlocal.tcbLive_eq, hlocal.tcb_eq]
  | newStack c => simp [owned, hpc]
  | newTcb c => simp [owned, hpc]
  | block pv => simp [owned, hblocks]

end Sys

end SimulatedLinux.Thread
