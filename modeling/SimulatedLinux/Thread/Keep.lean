import SimulatedLinux.Thread.Invariant

/-! # What a step leaves alone

A step of one task touches the records of that task and of at most one thread. Each
part of the invariant that these do not appear in is kept.
-/

namespace SimulatedLinux.Thread

open Kernel Heap

variable {α : Type}

/-- The thread that a program point of the creator, the joiner or the detacher is about. -/
def Pc.subject : Pc → Option ThreadId
  | create _ .resumeAll => none
  | create h _ | join h _ _ | detach h => some h
  | _ => none

theorem Pc.subject_of_create {pc : CreatePc} {h : ThreadId} (hpc : pc.added = false ∨ pc = .store) :
    (Pc.create h pc).subject = some h := by
  cases pc <;> simp_all [CreatePc.added, subject]

theorem Pc.subject_of_joins {pc : Pc} {h : ThreadId} (hjoins : pc.joins = some h) :
    pc.subject = some h := by
  cases pc <;> simp_all [joins, subject]

namespace Sys

variable {s s' s'' : Sys α} {t : TaskId} {h : Option ThreadId}

/-- From `s` to `s'`, only task `t` and thread `h` have changed, apart from the links
of the registry. -/
structure Local (s s' : Sys α) (t : TaskId) (h : Option ThreadId) : Prop where
  info : ∀ u, u ≠ t → s'.info u = s.info u
  tcb : (s'.info t).tcb = (s.info t).tcb
  pxStack : (s'.info t).pxStack = (s.info t).pxStack
  param : (s'.info t).param = (s.info t).param
  stackLive : (s'.info t).stackLive = (s.info t).stackLive
  tcbLive : (s'.info t).tcbLive = (s.info t).tcbLive
  desc : ∀ i, h ≠ some i → s'.desc i = { s.desc i with next := (s'.desc i).next }
  past : ∀ i, h ≠ some i → s'.past i = s.past i
  task : ∀ i, (s'.past i).task = (s.past i).task
  nextThread : s'.nextThread = s.nextThread

namespace Local

theorem ofEq (t : TaskId) (hinfo : s'.info = s.info) (hdesc : s'.desc = s.desc)
    (hpast : s'.past = s.past) (hnext : s'.nextThread = s.nextThread) : Local s s' t h := by
  refine ⟨?_, ?_, ?_, ?_, ?_, ?_, ?_, ?_, ?_, hnext⟩ <;> simp [hinfo, hdesc, hpast]

theorem trans (hfirst : Local s s' t h) (hsecond : Local s' s'' t h) : Local s s'' t h where
  info := fun u hu => (hsecond.info u hu).trans (hfirst.info u hu)
  tcb := hsecond.tcb.trans hfirst.tcb
  pxStack := hsecond.pxStack.trans hfirst.pxStack
  param := hsecond.param.trans hfirst.param
  stackLive := hsecond.stackLive.trans hfirst.stackLive
  tcbLive := hsecond.tcbLive.trans hfirst.tcbLive
  desc := fun i hi => by
    rw [hsecond.desc i hi, hfirst.desc i hi]
  past := fun i hi => (hsecond.past i hi).trans (hfirst.past i hi)
  task := fun i => (hsecond.task i).trans (hfirst.task i)
  nextThread := hsecond.nextThread.trans hfirst.nextThread

theorem modInfo (s : Sys α) (t : TaskId) {f : Info → Info} (pc : Pc) (ret : Option Ret)
    (exited : Option Ptr)
    (hf : f (s.info t) = { s.info t with pc := pc, ret := ret, exited := exited }) :
    Local s (s.modInfo t f) t h := by
  refine ⟨fun u hu => ?_, ?_, ?_, ?_, ?_, ?_, fun _ _ => rfl, fun _ _ => rfl, fun _ => rfl, rfl⟩
  · simp [Sys.modInfo, hu]
  all_goals simp [Sys.modInfo, hf]

theorem goto (s : Sys α) (t : TaskId) (pc : Pc) : Local s (s.goto t pc) t h :=
  modInfo s t pc _ _ rfl

theorem returns (s : Sys α) (t : TaskId) (ret : Ret) : Local s (s.returns t ret) t h :=
  modInfo s t .app (some ret) _ rfl

theorem modDesc (s : Sys α) (t : TaskId) (i : ThreadId) (f : PosixThread → PosixThread) :
    Local s (s.modDesc i f) t (some i) := by
  refine ⟨fun _ _ => rfl, rfl, rfl, rfl, rfl, rfl, fun i' hi => ?_, fun _ _ => rfl, fun _ => rfl,
    rfl⟩
  have hne : i' ≠ i := fun heq => hi (congrArg some heq.symm)
  simp [Sys.modDesc, hne]

theorem modPast (s : Sys α) (t : TaskId) (i : ThreadId) {f : Past → Past}
    (hf : (f (s.past i)).task = (s.past i).task) : Local s (s.modPast i f) t (some i) := by
  refine ⟨fun _ _ => rfl, rfl, rfl, rfl, rfl, rfl, fun _ _ => rfl, fun i' hi => ?_, fun i' => ?_,
    rfl⟩
  · have hne : i' ≠ i := fun heq => hi (congrArg some heq.symm)
    simp [Sys.modPast, hne]
  · by_cases hi : i' = i
    · subst hi
      simpa [Sys.modPast] using hf
    · simp [Sys.modPast, hi]

theorem setLinks (s : Sys α) (t : TaskId) (head : Option ThreadId)
    (next : ThreadId → Option ThreadId) : Local s (s.setLinks head next) t h :=
  ⟨fun _ _ => rfl, rfl, rfl, rfl, rfl, rfl, fun _ _ => rfl, fun _ _ => rfl, fun _ => rfl, rfl⟩

variable (hlocal : Local s s' t h)
include hlocal

theorem pc_ne {u : TaskId} (hu : u ≠ t) : s'.pc u = s.pc u := congrArg Info.pc (hlocal.info u hu)

theorem param_eq (u : TaskId) : (s'.info u).param = (s.info u).param := by
  by_cases hu : u = t
  · exact hu ▸ hlocal.param
  · rw [hlocal.info u hu]

theorem tcb_eq (u : TaskId) : (s'.info u).tcb = (s.info u).tcb := by
  by_cases hu : u = t
  · exact hu ▸ hlocal.tcb
  · rw [hlocal.info u hu]

theorem tcbLive_eq (u : TaskId) : (s'.info u).tcbLive = (s.info u).tcbLive := by
  by_cases hu : u = t
  · exact hu ▸ hlocal.tcbLive
  · rw [hlocal.info u hu]

/-- A property of the program points changes at `t` only. -/
theorem pc_map {β : Type*} (f : Pc → β) :
    (fun u => f (s'.pc u)) = Function.update (fun u => f (s.pc u)) t (f (s'.pc t)) := by
  funext u
  by_cases hu : u = t
  · simp [hu]
  · simp [hu, hlocal.pc_ne hu]

theorem past_map {β : Type*} (f : Past → β) {i : ThreadId} (hi : h = some i) :
    (fun i => f (s'.past i)) = Function.update (fun i => f (s.past i)) i (f (s'.past i)) := by
  funext i'
  by_cases hne : i' = i
  · simp [hne]
  · have hpast := hlocal.past i' (by simp [hi, Ne.symm hne])
    simp [hne, hpast]

end Local

/-! ## Partners -/

namespace Roles

variable {f : Pc → Option ThreadId} {g : Past → Option TaskId} {i : ThreadId}

/-- The two sides of a role change together. -/
inductive Change (f : Pc → Option ThreadId) (g : Past → Option TaskId) (s s' : Sys α) (t : TaskId) :
    Option ThreadId → Prop
  | keep (h : Option ThreadId) (hpc : f (s'.pc t) = f (s.pc t))
      (hpast : ∀ i, h = some i → g (s'.past i) = g (s.past i)) : Change f g s s' t h
  | link (i : ThreadId) (hpc : f (s.pc t) = none) (hpast : g (s.past i) = none)
      (hpc' : f (s'.pc t) = some i) (hpast' : g (s'.past i) = some t) : Change f g s s' t (some i)
  | unlink (i : ThreadId) (hpast : g (s.past i) = some t)
      (hpc' : f (s'.pc t) = none) (hpast' : g (s'.past i) = none) : Change f g s s' t (some i)

theorem Change.paired (hchange : Change f g s s' t h) (hlocal : Local s s' t h)
    (hpaired : Lib.Paired (fun i => g (s.past i)) fun u => f (s.pc u)) :
    Lib.Paired (fun i => g (s'.past i)) fun u => f (s'.pc u) := by
  rw [hlocal.pc_map f]
  cases hchange with
  | keep _ hpc hpast =>
      have hsame : (fun i => g (s'.past i)) = fun i => g (s.past i) := by
        funext i
        by_cases hi : h = some i
        · exact hpast i hi
        · rw [hlocal.past i hi]
      rw [hsame, hpc, Function.update_eq_self]
      exact hpaired
  | link i hpc hpast hpc' hpast' =>
      rw [hlocal.past_map g rfl, hpc', hpast']
      exact hpaired.link hpast hpc
  | unlink i hpast hpc' hpast' =>
      rw [hlocal.past_map g rfl, hpc', hpast']
      exact hpaired.unlink hpast

theorem change (hroles : s.Roles) (hlocal : Local s s' t h)
    (hcreates : Change Pc.creates Past.creator s s' t h)
    (hjoins : Change Pc.joins (fun P => P.use.joiner) s s' t h)
    (hdetaches : Change Pc.detaches (fun P => P.use.detacher) s s' t h)
    (hown : ∀ i, (s'.pc t).own = some i → (s.info t).param = some i)
    (hpasses : ∀ value, (s'.pc t).passes = some value → (s'.info t).exited = some value) :
    s'.Roles where
  creates := hcreates.paired hlocal hroles.creates
  joins := hjoins.paired hlocal hroles.joins
  detaches := hdetaches.paired hlocal hroles.detaches
  tasks := by
    have hpast : (fun i => (s'.past i).task) = fun i => (s.past i).task := funext hlocal.task
    have hparam : (fun u => (s'.info u).param) = fun u => (s.info u).param :=
      funext hlocal.param_eq
    rw [hpast, hparam]
    exact hroles.tasks
  own := by
    intro u i hu
    rw [hlocal.param_eq u]
    by_cases hut : u = t
    · subst hut
      exact hown i hu
    · rw [hlocal.pc_ne hut] at hu
      exact hroles.own u i hu
  passes := by
    intro u value hu
    by_cases hut : u = t
    · subst hut
      exact hpasses value hu
    · rw [hlocal.pc_ne hut] at hu
      rw [hlocal.info u hut]
      exact hroles.passes u value hu

/-- No role changes. -/
theorem keep (hroles : s.Roles) (hlocal : Local s s' t h)
    (hcreates : (s'.pc t).creates = (s.pc t).creates) (hjoins : (s'.pc t).joins = (s.pc t).joins)
    (hdetaches : (s'.pc t).detaches = (s.pc t).detaches)
    (hown : ∀ i, (s'.pc t).own = some i → (s.info t).param = some i)
    (hpasses : ∀ value, (s'.pc t).passes = some value → (s'.info t).exited = some value)
    (hpast : ∀ i, h = some i → (s'.past i).creator = (s.past i).creator ∧
      (s'.past i).use = (s.past i).use) : s'.Roles :=
  hroles.change hlocal (.keep h hcreates fun i hi => (hpast i hi).1)
    (.keep h hjoins fun i hi => congrArg Use.joiner (hpast i hi).2)
    (.keep h hdetaches fun i hi => congrArg Use.detacher (hpast i hi).2) hown hpasses

end Roles

/-! ## Tasks -/

/-- A step of a task that is not the idle task and does not end. -/
theorem Tasks.keep (htasks : s.Tasks) (hlocal : Local s s' t h)
    (hnext : s'.kern.view.nextTask = s.kern.view.nextTask)
    (hwait : s'.kern.view.xTasksWaitingTermination = s.kern.view.xTasksWaitingTermination)
    (hborn : t < s.kern.view.nextTask) (hidle : t ≠ idleTask) (hdead : s.pc t ≠ .dead)
    (hdead' : s'.pc t ≠ .dead) (hfrees : (s'.pc t).frees = none) : s'.Tasks := by
  have hpc : ∀ u, s'.pc u = .dead ↔ s.pc u = .dead := by
    intro u
    by_cases hu : u = t
    · subst hu
      simp [hdead, hdead']
    · rw [hlocal.pc_ne hu]
  have hidlePc : s'.pc idleTask = s.pc idleTask := hlocal.pc_ne (Ne.symm hidle)
  refine ⟨fun u hu => ?_, fun u hu => ?_, ?_, fun u w hu => ?_, fun u => ?_, fun u => ?_⟩
  · rw [hnext] at hu
    have hne : u ≠ t := Nat.ne_of_gt (Nat.lt_of_lt_of_le hborn hu)
    rw [hlocal.pc_ne hne, hlocal.param_eq]
    exact htasks.unborn u hu
  · rw [hwait] at hu
    exact (hpc u).mpr (htasks.waiting u hu)
  · rw [hidlePc, hlocal.param_eq]
    exact htasks.idle
  · rw [hnext, hwait, hpc w]
    by_cases hut : u = t
    · rw [hut, hfrees] at hu
      simp at hu
    · rw [hlocal.pc_ne hut] at hu
      exact htasks.frees u w hu
  · have hlive : (s'.info u).stackLive = (s.info u).stackLive := by
      by_cases hu : u = t
      · exact hu ▸ hlocal.stackLive
      · rw [hlocal.info u hu]
    rw [hlive, hnext, hwait, hidlePc, ne_eq (s'.pc u), hpc u]
    exact htasks.stack u
  · rw [hlocal.tcbLive_eq u, hnext, hwait, hidlePc, ne_eq (s'.pc u), hpc u]
    exact htasks.tcb u

/-! ## Semaphores -/

theorem InCall.keep {f : Frame α} {u : TaskId} (hcall : s.InCall u f) (hpc : s'.pc u = s.pc u)
    (hsem : ∀ i, (s'.desc i).joinSem = (s.desc i).joinSem)
    (howner : s.semOwner f.xQueue = none → s'.semOwner f.xQueue = none) : s'.InCall u f := by
  cases hcall with
  | app hpc' hnone => exact .app (hpc.trans hpc') (howner hnone)
  | join i retval hpc' hsem' hapi =>
      exact .join i retval (hpc.trans hpc') ((hsem i).trans hsem') hapi
  | exit i hpc' hsem' hapi => exact .exit i (hpc.trans hpc') ((hsem i).trans hsem') hapi

/-- What the kernel keeps of every semaphore of a thread. -/
def KeepsBinary (s s' : Sys α) : Prop :=
  s.kern.view.nextQueue ≤ s'.kern.view.nextQueue ∧
  ∀ i q, s.semOwner q = some i →
    (s'.kern.view.queue q).uxLength = (s.kern.view.queue q).uxLength ∧
    (s'.kern.view.queue q).uxItemSize = (s.kern.view.queue q).uxItemSize ∧
    (s'.kern.view.queue q).isMutex = (s.kern.view.queue q).isMutex

theorem KeepsBinary.ofEq (hnext : s'.kern.view.nextQueue = s.kern.view.nextQueue)
    (hqueue : s'.kern.view.queue = s.kern.view.queue) : s.KeepsBinary s' :=
  ⟨Nat.le_of_eq hnext.symm, fun _ _ _ => by simp [hqueue]⟩

theorem Sems.keep (hsems : s.Sems) (hlocal : Local s s' t h) (howner : s'.semOwner = s.semOwner)
    (hframe : ∀ u, u ≠ t → s'.frame u = s.frame u)
    (hret : ∀ u, u ≠ t → (s'.kern.task u).ret = (s.kern.task u).ret)
    (hcall : ∀ f, s'.frame t = some f → s'.InCall t f)
    (hreturned : ∀ i retval, s'.pc t = .join i retval .taken → s'.frame t = none →
      (s'.kern.task t).ret = some (.base true))
    (hreads : ∀ i q, (s'.pc t).reads = some (i, q) → (s.desc i).joinSem = some q)
    (hsem : ∀ i, h = some i → (s'.desc i).joinSem = (s.desc i).joinSem)
    (hmaker : ∀ i q, s.pc t ≠ .create i (.joinSem q)) (hbinary : s.KeepsBinary s') : s'.Sems := by
  have hsem' : ∀ i, (s'.desc i).joinSem = (s.desc i).joinSem := by
    intro i
    by_cases hi : h = some i
    · exact hsem i hi
    · rw [hlocal.desc i hi]
  refine ⟨fun u f hf => ?_, fun u i retval hu hf => ?_, fun u i q hu => ?_, fun i q hq => ?_,
    fun i q hq => ?_, fun i q hq => ?_⟩
  · by_cases hu : u = t
    · subst hu
      exact hcall f hf
    · rw [hframe u hu] at hf
      exact (hsems.calls u f hf).keep (hlocal.pc_ne hu) hsem' (by simp [howner])
  · by_cases hut : u = t
    · subst hut
      exact hreturned i retval hu hf
    · rw [hlocal.pc_ne hut] at hu
      rw [hframe u hut] at hf
      rw [hret u hut]
      exact hsems.returned u i retval hu hf
  · rw [hsem' i]
    by_cases hut : u = t
    · subst hut
      exact hreads i q hu
    · rw [hlocal.pc_ne hut] at hu
      exact hsems.reads u i q hu
  · rw [howner]
    exact hsems.owner i q (by rwa [hsem'] at hq)
  · rw [howner] at hq
    rw [hsem' i]
    rcases hsems.maker i q hq with hold | ⟨c, hc⟩
    · exact .inl hold
    · have hne : c ≠ t := by
        rintro rfl
        exact hmaker i q hc
      exact .inr ⟨c, (hlocal.pc_ne hne).trans hc⟩
  · rw [howner] at hq
    obtain ⟨hlt, hlength, hsize, hmutex⟩ := hsems.binary i q hq
    obtain ⟨hlength', hsize', hmutex'⟩ := hbinary.2 i q hq
    exact ⟨Nat.lt_of_lt_of_le hlt hbinary.1, hlength'.trans hlength, hsize'.trans hsize,
      hmutex'.trans hmutex⟩

/-! ## The registry -/

theorem Registry.keep {nodes : List ThreadId} (hregistry : s.Registry nodes)
    (hlocal : Local s s' t h) (hhead : s'.gThreadList = s.gThreadList)
    (hnext : ∀ i ∈ nodes, (s'.desc i).next = (s.desc i).next)
    (hxTask : ∀ i ∈ nodes, h = some i → (s'.desc i).xTask = (s.desc i).xTask)
    (huntracked : ∀ value, s'.pc t = .exit (.findThread value) → (s.info t).param = none →
      ∀ i ∈ nodes, (s.desc i).xTask ≠ (s.info t).tcb) : s'.Registry nodes := by
  have hxTask' : ∀ i ∈ nodes, (s'.desc i).xTask = (s.desc i).xTask := by
    intro i hmem
    by_cases hi : h = some i
    · exact hxTask i hmem hi
    · rw [hlocal.desc i hi]
  refine ⟨?_, ?_, ?_⟩
  · rw [hhead]
    exact hregistry.chain.congr hnext
  · refine hregistry.order.imp_of_mem fun {newer older} hnewer _ horder u hu hlive => ?_
    rw [hxTask' newer hnewer, hlocal.tcb_eq]
    rw [hlocal.task] at hu
    rw [hlocal.tcbLive_eq] at hlive
    exact horder u hu hlive
  · intro u value hu hparam i hi
    rw [hxTask' i hi, hlocal.tcb_eq]
    rw [hlocal.param_eq] at hparam
    by_cases hut : u = t
    · subst hut
      exact huntracked value hu hparam i hi
    · rw [hlocal.pc_ne hut] at hu
      exact hregistry.untracked u value hu hparam i hi

end Sys

end SimulatedLinux.Thread
