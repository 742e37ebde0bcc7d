import SimulatedLinux.Thread.Run

/-! # Steps that allocate

An allocation adds one block to the ledger, or it fails and the system stops.
-/

namespace SimulatedLinux.Thread

open Kernel Heap

variable {α : Type}

namespace Sys

variable {s s' : Sys α} {t : TaskId} {h : Option ThreadId} {nodes : List ThreadId} {i : ThreadId}
  {base : Nat → Option Nat} {low high : Nat} {old new : Pc}

theorem alloc_cases (s : Sys α) (size : Nat) (next : Nat → Sys α → Sys α) :
    (∃ pv heap, pvPortMalloc s.heap size = some (pv, heap) ∧
      s.alloc size next = next pv { s with heap := heap }) ∨
    s.alloc size next = s.halt .mallocFailed := by
  unfold alloc
  cases hmalloc : pvPortMalloc s.heap size with
  | none => exact .inr rfl
  | some result => exact .inl ⟨result.1, result.2, rfl, rfl⟩

/-- The failed hook stops the system. -/
theorem Inv.mallocFailed (hinv : s.Inv base low high nodes) :
    (s.halt .mallocFailed).Inv base low high nodes := by
  have hcore := hinv.core
  exact hinv.ofView rfl rfl rfl rfl rfl rfl ⟨hcore.kernel, hcore.calls, hcore.window, hcore.running,
    .inr rfl, hcore.kernFault⟩

/-- One more block is in use. -/
theorem Inv.allocated (hinv : s.Inv base low high nodes) {size pv : Nat} {heap : Heap4} {o : Owner}
    (hmalloc : pvPortMalloc s.heap size = some (pv, heap)) (hnone : s.owned o = none) :
    Sound heap low high ∧ Lib.Ledger base heap.block (Function.update s.owned o (some pv)) := by
  obtain ⟨hsound, hfree, size', hblock⟩ := hinv.sound.pvPortMalloc hmalloc
  refine ⟨hsound, ?_⟩
  rw [hblock]
  exact hinv.ledger.alloc hnone hfree size'

/-- The block of an object can be freed, and the object has none afterwards. -/
theorem Inv.released (hinv : s.Inv base low high nodes) {o : Owner} {pv : Nat}
    (howned : s.owned o = some pv) : ∃ heap, vPortFree s.heap pv = some heap ∧ Sound heap low high ∧
      Lib.Ledger base heap.block (Function.update s.owned o none) := by
  obtain ⟨size, hblock⟩ := Option.isSome_iff_exists.mp (hinv.ledger.allocated o pv howned)
  obtain ⟨heap, hfree, hsound, hupdate⟩ := hinv.sound.vPortFree hblock
  refine ⟨heap, hfree, hsound, ?_⟩
  rw [hupdate]
  exact hinv.ledger.free howned

/-- What the objects own, when at most one of them has got or lost its block. -/
theorem owned_update (hlocal : Local s s' t h) (o : Owner)
    (hdesc : ∀ i, .desc i ≠ o → (s'.desc i).live = (s.desc i).live ∧
      (s'.desc i).addr = (s.desc i).addr)
    (hqueue : ∀ q, .queue q ≠ o → (s'.kern.view.queue q).live = (s.kern.view.queue q).live ∧
      s'.queueAddr q = s.queueAddr q)
    (hstack : .newStack t ≠ o → (s'.pc t).memory.1 = (s.pc t).memory.1)
    (htcb : .newTcb t ≠ o → (s'.pc t).memory.2 = (s.pc t).memory.2)
    (hblocks : ∀ a, .block a ≠ o → s'.blocks a = s.blocks a) :
    s'.owned = Function.update s.owned o (s'.owned o) := by
  funext o'
  by_cases hoo : o' = o
  · rw [hoo, Function.update_self]
  rw [Function.update_of_ne hoo]
  cases o' with
  | desc i => simp [owned, hdesc i hoo]
  | queue q => simp [owned, hqueue q hoo]
  | stack u =>
      by_cases hu : u = t
      · simp [owned, hu, hlocal.stackLive, hlocal.pxStack]
      · simp [owned, hlocal.info u hu]
  | tcb u => simp [owned, hlocal.tcbLive_eq, hlocal.tcb_eq]
  | newStack c =>
      by_cases hc : c = t
      · subst hc
        exact hstack hoo
      · simp [owned, hlocal.pc_ne hc]
  | newTcb c =>
      by_cases hc : c = t
      · subst hc
        exact htcb hoo
      · simp [owned, hlocal.pc_ne hc]
  | block a => simp [owned, hblocks a hoo]

namespace Turn

variable (hturn : Turn base low high s t nodes)
include hturn

/-- A step of the shim that allocates the block of `o`, and is about no thread but one that
is being created. -/
theorem allocStep {f : Info → Info} {blocks : Nat → Bool} {o : Owner} {size pv : Nat} {heap : Heap4}
    (ret : Option Ret) (hidle : t ≠ idleTask)
    (hold : s.pc t = old) (hf : f (s.info t) = { s.info t with pc := new, ret := ret })
    (hmalloc : pvPortMalloc s.heap size = some (pv, heap)) (hnone : s.owned o = none)
    (howned : (modInfo { s with heap := heap, blocks := blocks } t f).owned =
      Function.update s.owned o (some pv))
    (hlives : old ≠ .dead ∧ new ≠ .dead ∧ new.frees = none) (hwindow : new.inWindow = old.inWindow)
    (hroles : new.creates = old.creates ∧ new.joins = old.joins ∧ new.detaches = old.detaches)
    (hown : new.own = none ∧ new.passes = none ∧ new.reads = none)
    (hquiet : (∀ i q, old ≠ .create i (.joinSem q)) ∧ ∀ i retval, new ≠ .join i retval .taken)
    (hbody : ∀ freed, bodyOf new (none : Option (Frame α)) freed =
      bodyOf old (none : Option (Frame α)) freed) (hends : old ≠ .exit .taskDelete)
    (hsubject : ∀ i, old.subject = some i → h = some i)
    (hsubject' : ∀ i, new.subject = some i → h = some i)
    (hthread : ∀ i, h = some i → (modInfo { s with heap := heap, blocks := blocks } t f).Roles →
      (modInfo { s with heap := heap, blocks := blocks } t f).ThreadOk nodes i) :
    (modInfo { s with heap := heap, blocks := blocks } t f).Inv base low high nodes := by
  have hlocal : Local s (modInfo { s with heap := heap, blocks := blocks } t f) t h :=
    (Local.ofEq t rfl rfl rfl rfl : Local s { s with heap := heap, blocks := blocks } t h).trans
      (.modInfo _ t new ret _ hf)
  obtain ⟨hsound, hledger⟩ := hturn.inv.allocated hmalloc hnone
  rw [← howned] at hledger
  have hnew : (modInfo { s with heap := heap, blocks := blocks } t f).pc t = new := by
    rw [pc_modInfo]
    exact congrArg Info.pc hf
  have hexited : ((modInfo { s with heap := heap, blocks := blocks } t f).info t).exited =
      (s.info t).exited := by
    have hinfo : (modInfo { s with heap := heap, blocks := blocks } t f).info t = f (s.info t) :=
      Function.update_self ..
    rw [hinfo, hf]
  have hroles' : (modInfo { s with heap := heap, blocks := blocks } t f).Roles :=
    hturn.inv.roles.keep hlocal (by rw [hnew, hold, hroles.1]) (by rw [hnew, hold, hroles.2.1])
      (by rw [hnew, hold, hroles.2.2]) (by simp [hnew, hown.1]) (by simp [hnew, hown.2.1])
      fun _ _ => ⟨rfl, rfl⟩
  refine hturn.assemble hlocal ?_ hroles' ?_ rfl rfl (fun _ => rfl) (fun _ => rfl)
    (fun _ _ _ hq => ⟨hq, rfl⟩) hidle hold hnew hlives ?_ (fun _ _ => Iff.rfl) hsubject hsubject'
    (fun i _ _ => ⟨hexited, hbody, hends⟩) (fun i hi => hthread i hi hroles') hsound hledger
  · exact hturn.sameCore hlocal rfl rfl rfl (by rw [hnew, hold, hwindow])
  · refine hturn.inv.sems.keep hlocal rfl (fun _ _ => rfl) (fun _ _ => rfl) (fun g hg => ?_)
      (fun i retval hpc => absurd (hnew.symm.trans hpc) (hquiet.2 i retval))
      (by simp [hnew, hown.2.2]) (fun _ _ => rfl) (hold ▸ hquiet.1) (.ofEq rfl rfl)
    have hg' : s.frame t = some g := hg
    simp [hturn.frame] at hg'
  · refine hturn.inv.registry.keep hlocal rfl (fun _ _ => rfl) (fun _ _ _ => rfl)
      fun value hfind => ?_
    have hpasses := hown.2.1
    rw [hnew] at hfind
    simp [hfind, Pc.passes] at hpasses

/-- A step of `xTaskCreate` that allocates. -/
theorem taskAlloc {pc pc' : TaskPc} {o : Owner} {size pv : Nat} {heap : Heap4} (hpc : s.pc t = old)
    (hcaller : old = .task pc ∧ new = .task pc' ∨
      ∃ i, old = .create i (.task pc) ∧ new = .create i (.task pc'))
    (hmemory : o = .newStack t ∧ pc.memory = (none, none) ∧ pc'.memory = (some pv, none) ∨
      o = .newTcb t ∧ ∃ a, pc.memory = (some a, none) ∧ pc'.memory = (some a, some pv))
    (hmalloc : pvPortMalloc s.heap size = some (pv, heap)) :
    (goto { s with heap := heap } t new).Inv base low high nodes := by
  have hlocal : Local s (goto { s with heap := heap } t new) t none :=
    (Local.ofEq t rfl rfl rfl rfl : Local s { s with heap := heap } t none).trans (.goto _ t new)
  have hmem : old.memory = pc.memory ∧ new.memory = pc'.memory := by
    rcases hcaller with ⟨rfl, rfl⟩ | ⟨i, rfl, rfl⟩ <;> exact ⟨rfl, rfl⟩
  have hnone : s.owned o = none := by
    rcases hmemory with ⟨rfl, hbefore, -⟩ | ⟨rfl, a, hbefore, -⟩ <;>
      simp [owned, hpc, hmem.1, hbefore]
  have howned : (goto { s with heap := heap } t new).owned =
      Function.update s.owned o (some pv) := by
    have ho : (goto { s with heap := heap } t new).owned o = some pv := by
      rcases hmemory with ⟨rfl, -, hafter⟩ | ⟨rfl, a, -, hafter⟩ <;>
        simp only [owned, pc_goto, hmem.2, hafter]
    rw [← ho]
    refine owned_update hlocal o (fun _ _ => ⟨rfl, rfl⟩) (fun _ _ => ⟨rfl, rfl⟩) ?_ ?_ fun _ _ =>
      rfl
    · rw [pc_goto, hpc, hmem.1, hmem.2]
      rcases hmemory with ⟨rfl, -, -⟩ | ⟨rfl, a, hbefore, hafter⟩
      · simp
      · simp [hbefore, hafter]
    · rw [pc_goto, hpc, hmem.1, hmem.2]
      rcases hmemory with ⟨rfl, hbefore, hafter⟩ | ⟨rfl, a, -, -⟩
      · simp [hbefore, hafter]
      · simp
  rcases hcaller with ⟨rfl, rfl⟩ | ⟨i, rfl, rfl⟩
  · exact hturn.allocStep (h := none) _ (hturn.not_idle hpc rfl) hpc rfl hmalloc hnone howned
      ⟨by simp, by simp, rfl⟩ rfl ⟨rfl, rfl, rfl⟩ ⟨rfl, rfl, rfl⟩ ⟨by simp, by simp⟩ (fun _ => rfl)
      (by simp) (by simp [Pc.subject]) (by simp [Pc.subject]) (by simp)
  · obtain ⟨hbuilding, hborn, hnot⟩ := hturn.building hpc rfl
    refine hturn.allocStep (h := some i) _ (hturn.not_idle hpc rfl) hpc rfl hmalloc hnone howned
      ⟨by simp, by simp, rfl⟩ rfl ⟨rfl, rfl, rfl⟩ ⟨rfl, rfl, rfl⟩ ⟨by simp, by simp⟩ (fun _ => rfl)
      (by simp) (by simp [Pc.subject]) (by simp [Pc.subject]) ?_
    rintro i' ⟨⟩ hroles
    refine .ofBuilding hroles hborn (pc_goto ..) rfl ((hturn.inv.threads i).fresh hnot)
      (hturn.not_storing hlocal hnot (by rw [pc_modInfo]; simp))
      ⟨hbuilding.live, hbuilding.joinable,
        by
          simp, fun _ => hbuilding.hasSem rfl, by
            simp [CreatePc.hasSem], by simp [CreatePc.hasTask],
        fun _ => hbuilding.noTask rfl⟩

/-- The application allocates memory. -/
theorem beginMalloc {size pv : Nat} {heap : Heap4} (hpc : s.pc t = .app) (hidle : t ≠ idleTask)
    (hmalloc : pvPortMalloc s.heap size = some (pv, heap)) :
    (returns { s with heap := heap, blocks := Function.update s.blocks pv true } t
      (.ptr pv)).Inv base low high nodes := by
  have hlocal :
      Local s (returns { s with heap := heap, blocks := Function.update s.blocks pv true } t
        (.ptr pv)) t none :=
    (Local.ofEq t rfl rfl rfl rfl :
      Local s { s with heap := heap, blocks := Function.update s.blocks pv true } t none).trans
      (.returns _ t _)
  have hnone : s.owned (.block pv) = none := by
    by_contra hsome
    have hblocks : s.blocks pv := by
      by_contra hno
      simp [owned, hno] at hsome
    have hused := hturn.inv.ledger.allocated (.block pv) pv (by simp [owned, hblocks])
    rw [(hturn.inv.sound.pvPortMalloc hmalloc).2.1] at hused
    simp at hused
  have howned : (returns { s with heap := heap, blocks := Function.update s.blocks pv true } t
      (.ptr pv)).owned = Function.update s.owned (.block pv) (some pv) := by
    have ho : (returns { s with heap := heap, blocks := Function.update s.blocks pv true } t
        (.ptr pv)).owned (.block pv) = some pv := by
      simp [owned, returns, modInfo]
    rw [← ho]
    refine owned_update hlocal _ (fun _ _ => ⟨rfl, rfl⟩) (fun _ _ => ⟨rfl, rfl⟩) ?_ ?_
      fun a ha => ?_
    · rw [pc_returns, hpc]
      exact fun _ => rfl
    · rw [pc_returns, hpc]
      exact fun _ => rfl
    · have hne : a ≠ pv := fun heq => ha (congrArg _ heq)
      simp [returns, modInfo, hne]
  exact hturn.allocStep (h := none) (some (.ptr pv)) hidle hpc rfl hmalloc hnone howned
    ⟨by simp, by simp, rfl⟩ rfl ⟨rfl, rfl, rfl⟩ ⟨rfl, rfl, rfl⟩ ⟨by simp, by simp⟩ (fun _ => rfl)
    (by simp) (by simp [Pc.subject]) (by simp [Pc.subject]) (by simp)

end Turn

/-! ## A new thread -/

/-- `s'` is `s` after `pthread_create` of task `t` has allocated the descriptor of a new thread
at `pv`. Apart from the number of threads, only the new thread and the creator change. -/
structure DescMade (s s' : Sys α) (t : TaskId) (startRoutine arg : Ptr) (pv : Nat)
    (heap : Heap4) : Prop where
  keeps : Local { s with nextThread := s.nextThread + 1 } s' t (some s.nextThread)
  pc : s'.pc t = .create s.nextThread (.startRoutine startRoutine arg)
  exited : (s'.info t).exited = (s.info t).exited
  past : s'.past s.nextThread =
    { creator := some t, task := none, handle := none, use := .unused, selfFreed := false
      descFrees := 0, semFrees := 0 }
  desc : s'.desc s.nextThread =
    { live := true, addr := pv, xTask := 0, startRoutine := 0, arg := 0, retval := 0
      joinSem := none, detached := false, next := none }
  desc_ne : ∀ i, i ≠ s.nextThread → s'.desc i = s.desc i
  shared : s' = { s with
    heap := heap
    nextThread := s.nextThread + 1
    info := s'.info
    desc := s'.desc
    past := s'.past }

namespace DescMade

variable {startRoutine arg : Ptr} {pv : Nat} {heap : Heap4}

theorem start (hinv : s.Inv base low high nodes) :
    DescMade s ((newDesc { s with heap := heap } pv t).goto t
      (.create s.nextThread (.startRoutine startRoutine arg))) t startRoutine arg pv heap := by
  have htask := ((hinv.threads s.nextThread).unborn (Nat.le_refl _)).2.1
  refine ⟨?_, pc_goto .., by simp [goto, modInfo, newDesc], Function.update_self ..,
    Function.update_self .., fun i hi => by simp [newDesc, goto, modInfo, hi], rfl⟩
  suffices hdesc : Local { s with nextThread := s.nextThread + 1 }
      (newDesc { s with heap := heap } pv t) t (some s.nextThread) from hdesc.trans (.goto _ t _)
  refine ⟨fun _ _ => rfl, rfl, rfl, rfl, rfl, rfl, fun i hi => ?_, fun i hi => ?_, fun i => ?_, rfl⟩
  · have hne : i ≠ s.nextThread := fun heq => hi (congrArg some heq.symm)
    simp [newDesc, hne]
  · have hne : i ≠ s.nextThread := fun heq => hi (congrArg some heq.symm)
    simp [newDesc, hne]
  · by_cases hi : i = s.nextThread
    · simp [newDesc, hi, htask]
    · simp [newDesc, hi]

variable (hmade : DescMade s s' t startRoutine arg pv heap)
include hmade

theorem kern : s'.kern = s.kern := by rw [hmade.shared]

theorem semOwner : s'.semOwner = s.semOwner := by rw [hmade.shared]

theorem frame (u : TaskId) : s'.frame u = s.frame u := by
  unfold Sys.frame
  rw [hmade.kern]

variable (hturn : Turn base low high s t nodes) (hpc : s.pc t = .createMalloc startRoutine arg)
include hturn hpc

theorem core : s'.Core := by
  have hcore := hturn.inv.core
  refine ⟨hmade.kern ▸ hcore.kernel, hmade.kern ▸ hcore.calls, fun c hc => ?_, fun hne => ?_, ?_,
    ?_⟩
  · have hct : c ≠ t := by
      rintro rfl
      simp [hmade.pc, Pc.inWindow, CreatePc.inWindow] at hc
    rw [hmade.keeps.pc_ne hct] at hc
    rw [hmade.kern, hmade.frame]
    exact hcore.window c hc
  · rw [hmade.kern, hturn.suspended, hpc] at hne
    simp [Pc.inWindow] at hne
  · rw [show s'.fault = s.fault by rw [hmade.shared]]
    exact hcore.fault
  · rw [hmade.kern, hmade.semOwner]
    exact hcore.kernFault

theorem roles : s'.Roles := by
  have hroles := hturn.inv.roles
  have hnextThread := hturn.inv.threads s.nextThread
  have hunused := (hnextThread.fresh fun hmade => Nat.lt_irrefl _ hmade.1).1
  have hroles₁ : Roles { s with nextThread := s.nextThread + 1 } :=
    ⟨hroles.creates, hroles.joins, hroles.detaches, hroles.tasks, hroles.own, hroles.passes⟩
  have hold : Sys.pc { s with nextThread := s.nextThread + 1 } t = .createMalloc startRoutine arg :=
    hpc
  refine hroles₁.change hmade.keeps
    (.link _ (by rw [hold]; rfl) (hnextThread.unborn (Nat.le_refl _)).1 ?_ (by rw [hmade.past]))
    (.keep _ (by rw [hmade.pc, hold]; rfl) ?_) (.keep _ (by rw [hmade.pc, hold]; rfl) ?_)
    (by simp [hmade.pc, Pc.own]) (by simp [hmade.pc, Pc.passes])
  · simp [hmade.pc, Pc.creates, CreatePc.added]
  · rintro i ⟨⟩
    rw [hmade.past]
    simp [hunused]
  · rintro i ⟨⟩
    rw [hmade.past]
    simp [hunused]

theorem tasks : s'.Tasks := by
  have htasks := hturn.inv.tasks
  have htasks₁ : Tasks { s with nextThread := s.nextThread + 1 } :=
    ⟨htasks.unborn, htasks.waiting, htasks.idle, htasks.frees, htasks.stack, htasks.tcb⟩
  have hold : Sys.pc { s with nextThread := s.nextThread + 1 } t = .createMalloc startRoutine arg :=
    hpc
  exact htasks₁.keep hmade.keeps (by rw [hmade.kern]) (by rw [hmade.kern]) hturn.born
    (hturn.not_idle hpc rfl) (by simp [hold]) (by simp [hmade.pc]) (by rw [hmade.pc]; rfl)

theorem sems : s'.Sems := by
  have hsems := hturn.inv.sems
  have hnone := ((hturn.inv.threads s.nextThread).unborn (Nat.le_refl _)).2.2.2
  have hsems₁ : Sems { s with nextThread := s.nextThread + 1 } :=
    ⟨fun u f hf => (hsems.calls u f hf).keep rfl (fun _ => rfl) id, hsems.returned, hsems.reads,
      hsems.owner, hsems.maker, hsems.binary⟩
  have hold : Sys.pc { s with nextThread := s.nextThread + 1 } t = .createMalloc startRoutine arg :=
    hpc
  refine hsems₁.keep hmade.keeps hmade.semOwner (fun u _ => hmade.frame u)
    (fun u _ => by rw [hmade.kern]) (fun g hg => ?_) (by simp [hmade.pc])
    (by simp [hmade.pc, Pc.reads]) ?_ (by simp [hold])
    (.ofEq (by rw [hmade.kern]) (by rw [hmade.kern]))
  · rw [hmade.frame, hturn.frame] at hg
    simp at hg
  · rintro i ⟨⟩
    rw [hmade.desc]
    exact hnone.symm

/-- The new thread is being created. -/
theorem thread_self : s'.ThreadOk nodes s.nextThread := by
  have hok := hturn.inv.threads s.nextThread
  have hnot : ¬ s.Made s.nextThread := fun hmade => Nat.lt_irrefl _ hmade.1
  have hstores : ∀ c, s'.pc c ≠ .create s.nextThread .store := by
    intro c hc
    by_cases hct : c = t
    · simp [hct, hmade.pc] at hc
    · rw [hmade.keeps.pc_ne hct] at hc
      exact hnot (hok.storing c hc)
  refine .ofBuilding (hmade.roles hturn hpc)
    (by rw [hmade.shared]; exact Nat.lt_succ_self _) hmade.pc
    rfl ?_ hstores ⟨by rw [hmade.desc], by rw [hmade.desc], by simp, by simp [CreatePc.hasSem],
      fun _ => by rw [hmade.desc], by simp [CreatePc.hasTask], fun _ => by rw [hmade.past]⟩
  rw [hmade.past]
  exact ⟨rfl, rfl, rfl, rfl, rfl, (hok.fresh hnot).2.2.2.2.2⟩

theorem thread_ne (hi : i ≠ s.nextThread) : s'.ThreadOk nodes i := by
  have hkeeps := hmade.keeps
  refine (hturn.inv.threads i).keep hturn.inv.roles hturn.inv.sems ?_
    (hkeeps.past i (by simpa using Ne.symm hi)) (by rw [hmade.desc_ne i hi]) Iff.rfl
    (fun q hq => ⟨by rw [hmade.semOwner]; exact hq, by rw [hmade.kern]⟩) (fun c pc' _ => ?_)
    (fun u hu => ?_) fun j hj => ?_
  · rw [show s'.nextThread = s.nextThread + 1 by rw [hmade.shared]]
    exact ⟨fun hle => Nat.le_of_succ_le hle, fun hle => Nat.lt_of_le_of_ne hle (Ne.symm hi)⟩
  · by_cases hct : c = t
    · rw [hct, hmade.pc, hpc]
      simp [Ne.symm hi]
    · rw [hkeeps.pc_ne hct]
      exact Iff.rfl
  · by_cases hut : u = t
    · subst hut
      refine ⟨hkeeps.tcb, hmade.exited, by rw [hmade.pc, hpc]; rfl, fun hfreed => ?_,
        fun hnot => absurd (hturn.made_of_task hu) hnot⟩
      simp [hturn.not_freed (by simp [hpc]) (by simp [hpc]) hu] at hfreed
    · have hinfo : s'.info u = s.info u := hkeeps.info u hut
      have hpcNe : s'.pc u = s.pc u := hkeeps.pc_ne hut
      exact ⟨by rw [hinfo], by rw [hinfo], by rw [hpcNe, hmade.frame], fun _ => hpcNe,
        fun _ => ⟨hpcNe, hmade.frame u⟩⟩
  · have hne : j ≠ t := by
      rintro rfl
      have hjoins : (s.pc j).joins = some i := (hturn.inv.roles.joins i j).mp hj
      simp [hpc, Pc.joins] at hjoins
    exact ⟨hkeeps.pc_ne hne, hmade.frame j, by rw [hmade.kern]⟩

omit hpc in
theorem registry : s'.Registry nodes := by
  have hregistry := hturn.inv.registry
  have hregistry₁ : Registry { s with nextThread := s.nextThread + 1 } nodes :=
    ⟨hregistry.chain, hregistry.order, hregistry.untracked⟩
  have hmem : ∀ i ∈ nodes, i ≠ s.nextThread := by
    rintro i hi rfl
    have hfresh := (hturn.inv.threads s.nextThread).fresh fun hmade => Nat.lt_irrefl _ hmade.1
    exact hfresh.2.2.2.2.2 hi
  exact hregistry₁.keep hmade.keeps (by rw [hmade.shared])
    (fun i hi => by rw [hmade.desc_ne i (hmem i hi)])
    (fun i hi _ => by rw [hmade.desc_ne i (hmem i hi)]) (by simp [hmade.pc])

omit hturn in
theorem owned : s'.owned = Function.update s.owned (.desc s.nextThread) (some pv) := by
  have ho : s'.owned (.desc s.nextThread) = some pv := by simp [Sys.owned, hmade.desc]
  have hsame : Sys.owned { s with nextThread := s.nextThread + 1 } = s.owned := rfl
  have hold : Sys.pc { s with nextThread := s.nextThread + 1 } t = .createMalloc startRoutine arg :=
    hpc
  rw [← ho, ← hsame]
  refine owned_update hmade.keeps _ (fun i hi => ?_)
    (fun q _ => by rw [hmade.shared]; exact ⟨rfl, rfl⟩) ?_ ?_ fun a _ => by rw [hmade.shared]
  · rw [hmade.desc_ne i (fun heq => hi (congrArg _ heq))]
    exact ⟨rfl, rfl⟩
  · rw [hmade.pc, hold]
    exact fun _ => rfl
  · rw [hmade.pc, hold]
    exact fun _ => rfl

end DescMade

/-- `pthread_create` allocates the descriptor. -/
theorem Turn.createMalloc (hturn : Turn base low high s t nodes) {startRoutine arg : Ptr}
    {size pv : Nat} {heap : Heap4} (hpc : s.pc t = .createMalloc startRoutine arg)
    (hmalloc : pvPortMalloc s.heap size = some (pv, heap)) :
    ((newDesc { s with heap := heap } pv t).goto t
      (.create s.nextThread (.startRoutine startRoutine arg))).Inv base low high nodes := by
  have hdead := ((hturn.inv.threads s.nextThread).unborn (Nat.le_refl _)).2.2.1
  obtain ⟨hsound, hledger⟩ := hturn.inv.allocated (o := .desc s.nextThread) hmalloc
    (by simp [owned, hdead])
  have hmade : DescMade s _ t startRoutine arg pv heap := .start hturn.inv
  refine ⟨hmade.core hturn hpc, hmade.roles hturn hpc, hmade.tasks hturn hpc, hmade.sems hturn hpc,
    fun i => ?_, hmade.registry hturn, hsound, ?_⟩
  · by_cases hi : i = s.nextThread
    · subst hi
      exact hmade.thread_self hturn hpc
    · exact hmade.thread_ne hturn hpc hi
  · rw [hmade.owned hpc]
    exact hledger

end Sys

end SimulatedLinux.Thread
