import SimulatedLinux.Thread.Objects

/-! # The registry and the memory of descriptors

A thread enters the registry before its own task can run, and leaves it before its
descriptor is freed.
-/

namespace SimulatedLinux.Thread

open Kernel Heap

variable {α : Type}

namespace Sys

variable {s s' : Sys α} {t : TaskId} {h : Option ThreadId} {nodes : List ThreadId} {i : ThreadId}
  {base : Nat → Option Nat} {low high : Nat} {old new : Pc}

namespace Inv

variable (hinv : s.Inv base low high nodes)
include hinv

/-- A task that has been created and has not ended has its control block. -/
theorem tcbLive_of_param {u : TaskId} (hparam : (s.info u).param = some i)
    (halive : s.pc u ≠ .dead) :
    (s.info u).tcbLive := by
  refine (hinv.tasks.tcb u).mpr ⟨?_, ?_, .inl halive⟩
  · by_contra hge
    have hnone := (hinv.tasks.unborn u (Nat.le_of_not_lt hge)).2
    simp [hparam] at hnone
  · rintro rfl
    have hnone := hinv.tasks.idle.2
    simp [hparam] at hnone

theorem tcbLive_of_finding {u : TaskId} {value : Ptr} (hpc : s.pc u = .exit (.findThread value)) :
    (s.info u).tcbLive := by
  refine (hinv.tasks.tcb u).mpr ⟨?_, ?_, .inl (by simp [hpc])⟩
  · by_contra hge
    have happ := (hinv.tasks.unborn u (Nat.le_of_not_lt hge)).1
    simp [hpc] at happ
  · rintro rfl
    have hidle := hinv.tasks.idle.1
    simp [hpc, Pc.idles] at hidle

/-- Control blocks in use have different addresses. -/
theorem tcb_ne {u w : TaskId} (hu : (s.info u).tcbLive) (hw : (s.info w).tcbLive) (hne : u ≠ w) :
    (s.info u).tcb ≠ (s.info w).tcb := by
  intro heq
  have howner := hinv.ledger.distinct (.tcb u) (.tcb w) (s.info u).tcb (by simp [owned, hu])
    (by simp [owned, hw, heq])
  exact hne (Owner.tcb.inj howner)

/-- `remove_thread` ends, and takes the node out of the list. -/
theorem removed (hi : i ∈ nodes) : ∃ head links, (∀ next : Sys α → Sys α,
    s.removeThread i next = next (s.setLinks head links)) ∧
      Lib.Chain links head (nodes.erase i) := by
  obtain ⟨head, links, hunlink, hchain⟩ :=
    hinv.registry.chain.unlink_eq (fun _ hmem => hinv.live_of_mem hmem) hinv.length_le hi
  refine ⟨head, links, fun next => ?_, hchain⟩
  unfold removeThread
  rw [hunlink]

end Inv

/-- `s'` is `s` after task `t` has put the new thread `i` at the head of the registry. -/
structure Added (s s' : Sys α) (t : TaskId) (i : ThreadId) : Prop where
  keeps : Local s s' t (some i)
  pc : s'.pc t = .create i .store
  exited : (s'.info t).exited = (s.info t).exited
  past : s'.past i = { s.past i with creator := none }
  desc : s'.desc i = { s.desc i with next := s.gThreadList }
  links : s'.next = Function.update s.next i s.gThreadList
  shared : s' = { s with
    desc := s'.desc, past := s'.past, info := s'.info, gThreadList := some i }

namespace Added

theorem start (s : Sys α) (t : TaskId) (i : ThreadId) :
    Added s (((s.addThread i).modPast i fun P => { P with creator := none }).goto t
      (.create i .store)) t i := by
  refine ⟨?_, pc_goto .., by simp [goto, modInfo, modPast, addThread, modDesc],
    by simp [goto, modInfo, modPast, addThread, modDesc],
    by simp [goto, modInfo, modPast, addThread, modDesc], funext fun i' => ?_, rfl⟩
  · have hadd : Local s (s.addThread i) t (some i) :=
      .trans (.modDesc s t i fun D => { D with next := s.gThreadList }) (.ofEq t rfl rfl rfl rfl)
    exact (hadd.trans (.modPast _ t i rfl)).trans (.goto _ t _)
  · by_cases hi : i' = i
    · simp [hi, Sys.next, goto, modInfo, modPast, addThread, modDesc]
    · simp [Sys.next, hi, goto, modInfo, modPast, addThread, modDesc]

variable (hadded : Added s s' t i)
include hadded

theorem kern : s'.kern = s.kern := by rw [hadded.shared]

theorem frame (u : TaskId) : s'.frame u = s.frame u := by
  unfold Sys.frame
  rw [hadded.kern]

theorem xTask (i' : ThreadId) : (s'.desc i').xTask = (s.desc i').xTask := by
  by_cases hi : i' = i
  · rw [hi, hadded.desc]
  · rw [hadded.keeps.desc i' (by simpa using Ne.symm hi)]

variable (hturn : Turn base low high s t nodes) (hpc : s.pc t = .create i .addThread)
include hturn hpc

theorem roles : s'.Roles := by
  refine hturn.inv.roles.change hadded.keeps (.unlink i ?_ ?_ (by rw [hadded.past]))
    (.keep _ (by rw [hadded.pc, hpc]; rfl) ?_) (.keep _ (by rw [hadded.pc, hpc]; rfl) ?_)
    (by simp [hadded.pc, Pc.own]) (by simp [hadded.pc, Pc.passes])
  · exact (hturn.inv.roles.creates i t).mpr (by simp [hpc, Pc.creates, CreatePc.added])
  · simp [hadded.pc, Pc.creates, CreatePc.added]
  · rintro i' ⟨⟩
    rw [hadded.past]
  · rintro i' ⟨⟩
    rw [hadded.past]

theorem sems : s'.Sems := by
  refine hturn.inv.sems.keep hadded.keeps (by rw [hadded.shared]) (fun u _ => hadded.frame u)
    (fun _ _ => by rw [hadded.kern]) (fun g hg => ?_) (by simp [hadded.pc])
    (by simp [hadded.pc, Pc.reads]) ?_ (by simp [hpc])
    (.ofEq (by rw [hadded.kern]) (by rw [hadded.kern]))
  · rw [hadded.frame, hturn.frame] at hg
    simp at hg
  · rintro i' ⟨⟩
    rw [hadded.desc]

/-- The task of the new thread has a control block of its own, so the new node hides no
other task. -/
theorem registry : s'.Registry (i :: nodes) := by
  obtain ⟨hbuilding, -, hnot⟩ := hturn.building hpc rfl
  have hnode := ((hturn.inv.threads i).fresh hnot).2.2.2.2.2
  obtain ⟨w, hw, hwpc, -, hxTask⟩ := hbuilding.hasTask rfl
  have hwparam : (s.info w).param = some i := (hturn.inv.roles.tasks i w).mp hw
  have hwlive := hturn.inv.tcbLive_of_param hwparam (by simp [hwpc])
  have hkeeps := hadded.keeps
  refine ⟨?_, List.pairwise_cons.mpr ⟨fun older holder u hu hlive => ?_, ?_⟩,
    fun u value hu hparam i' hi' => ?_⟩
  · rw [hadded.links, show s'.gThreadList = some i by rw [hadded.shared]]
    exact hturn.inv.registry.chain.push hnode
  · rw [hadded.xTask, hxTask, hkeeps.tcb_eq]
    rw [hkeeps.task] at hu
    rw [hkeeps.tcbLive_eq] at hlive
    refine hturn.inv.tcb_ne hwlive hlive ?_
    -- the task of an older thread is not the new one
    rintro rfl
    have hparam : (s.info w).param = some older := (hturn.inv.roles.tasks older w).mp hu
    obtain rfl : i = older := Option.some.inj (hwparam.symm.trans hparam)
    exact hnode holder
  · refine hturn.inv.registry.order.imp fun {newer older} horder u hu hlive => ?_
    rw [hadded.xTask, hkeeps.tcb_eq]
    rw [hkeeps.task] at hu
    rw [hkeeps.tcbLive_eq] at hlive
    exact horder u hu hlive
  · have hut : u ≠ t := by
      rintro rfl
      simp [hadded.pc] at hu
    rw [hkeeps.pc_ne hut] at hu
    rw [hkeeps.param_eq] at hparam
    rw [hadded.xTask, hkeeps.tcb_eq]
    rcases List.mem_cons.mp hi' with rfl | hmem
    · rw [hxTask]
      refine hturn.inv.tcb_ne hwlive (hturn.inv.tcbLive_of_finding hu) ?_
      rintro rfl
      simp [hparam] at hwparam
    · exact hturn.inv.registry.untracked u value hu hparam i' hmem

/-- The new thread starts its life in the registry, with nobody at its handle. -/
theorem thread : s'.ThreadOk (i :: nodes) i := by
  obtain ⟨hbuilding, hborn, hnot⟩ := hturn.building hpc rfl
  obtain ⟨huse, -, hselfFreed, hdescFrees, hsemFrees, -⟩ := (hturn.inv.threads i).fresh hnot
  obtain ⟨q, hq, -, hsemLive, hcount⟩ := hbuilding.hasSem rfl
  obtain ⟨w, hw, hwpc, -, hxTask⟩ := hbuilding.hasTask rfl
  have hwt : w ≠ t := by
    rintro rfl
    simp [hpc] at hwpc
  have hwtask : (s'.past i).task = some w := by
    rw [hadded.past]
    exact hw
  have hbody : s'.body i = .running := by
    refine (body_of_task hwtask).trans ?_
    rw [hadded.keeps.pc_ne hwt, hwpc]
    rfl
  have huse' : (s'.past i).use = .unused := by
    rw [hadded.past]
    exact huse
  have hhandle : s'.handle i = .unused := by simp [Sys.handle, huse']
  have hsem : s'.sem i = s.kern.view.queue q := by simp [Sys.sem, hadded.desc, hq, hadded.kern]
  refine .ofMade (hadded.roles hturn hpc)
    ⟨by rw [hadded.keeps.nextThread]; exact hborn, by rw [hadded.past]⟩ ?_
    ⟨q, by rw [hadded.desc]; exact hq⟩
    ⟨w, hwtask, by rw [hadded.xTask, hadded.keeps.tcb_eq]; exact hxTask⟩
    (.inr ⟨t, hadded.pc⟩) (by simp [huse']) (by rw [hadded.past]; simp [hselfFreed])
  refine Life.Ok.ofUntaken ?_ ?_ ?_ ?_ (fun _ => ?_) ?_ ?_ ?_ ?_ ?_ ?_ <;>
    simp only [life, hbody, hhandle, hsem, hadded.desc, hadded.past]
  · rfl
  · simp [Body.keepsNode]
  · exact hsemLive
  · exact hbuilding.live
  · simpa using hcount
  · simp [hbuilding.joinable]
  · simp [Body.reclaims]
  · simp [Body.stored]
  · simp
  · simp [hsemFrees, hsemLive]
  · simp [hdescFrees, hbuilding.live]

end Added

namespace Turn

variable (hturn : Turn base low high s t nodes)
include hturn

/-- `add_thread` puts the new thread at the head of the list. -/
theorem createAddThread {sizes : Sizes} (hpc : s.pc t = .create i .addThread)
    (hstep : s.create sizes t i .addThread = some s') : s'.Inv base low high (i :: nodes) := by
  obtain ⟨hbuilding, -, -⟩ := hturn.building hpc rfl
  have hadded : Added s s' t i := by
    simp only [create, touch, hbuilding.live, if_true, Option.some.injEq] at hstep
    rw [← hstep]
    exact .start s t i
  have hkern := hadded.kern
  have howned : s'.owned = s.owned := by
    refine owned_keep hadded.keeps ?_ (fun _ => by rw [hkern]) (by rw [hadded.shared])
      (by rw [hadded.pc, hpc]; rfl) (by rw [hadded.shared])
    rintro i' ⟨⟩
    rw [hadded.desc]
    exact ⟨rfl, rfl⟩
  refine hturn.assemble hadded.keeps
    (hturn.sameCore hadded.keeps hkern (by rw [hadded.shared]) (by rw [hadded.shared])
      (by rw [hadded.pc, hpc]; rfl))
    (hadded.roles hturn hpc) (hadded.sems hturn hpc) (by rw [hkern]) (by rw [hkern]) hadded.frame
    (fun _ => by rw [hkern]) (fun i' p _ hp => ⟨by rw [hadded.shared]; exact hp, by rw [hkern]⟩)
    (hturn.not_idle hpc rfl) hpc hadded.pc ⟨by simp, by simp, rfl⟩ (hadded.registry hturn hpc)
    (fun i' hi' => ?_) (by simp [Pc.subject]) (by simp [Pc.subject])
    (fun _ _ _ => ⟨hadded.exited, fun _ => rfl, by simp⟩) ?_
    (by rw [hadded.shared]; exact hturn.inv.sound) ?_
  · have hne : i' ≠ i := fun heq => hi' (congrArg some heq.symm)
    simp [hne]
  · rintro i' ⟨⟩
    exact hadded.thread hturn hpc
  · rw [howned, show s'.heap = s.heap by rw [hadded.shared]]
    exact hturn.inv.ledger

/-- A thread is taken out of the registry, by its joiner or by its own task. -/
theorem unlinkStep {head : Option ThreadId} {links : ThreadId → Option ThreadId}
    (hchain : Lib.Chain links head (nodes.erase i)) (hold : s.pc t = old)
    (hplain : Pc.Plain old new) (hreads : new.reads = none ∧ new.passes = none)
    (hroles : new.creates = old.creates ∧ new.joins = old.joins ∧ new.detaches = old.detaches)
    (hidle : t ≠ idleTask) (hown : ∀ i, new.own = some i → (s.info t).param = some i)
    (hsubject : ∀ i', old.subject = some i' → some i = some i')
    (hsubject' : ∀ i', new.subject = some i' → some i = some i')
    (hself : ∀ i', i' ≠ i → (s.past i').task = some t →
      (∀ freed, bodyOf new (none : Option (Frame α)) freed =
        bodyOf old (none : Option (Frame α)) freed) ∧
      old ≠ .exit .taskDelete)
    (hends : old ≠ .exit .taskDelete) (hmade : s.Made i) (hstore : old ≠ .create i .store)
    (hlife : (((s.setLinks head links).goto t new).life (nodes.erase i) i).Ok) :
    ((s.setLinks head links).goto t new).Inv base low high (nodes.erase i) := by
  have hlocal : Local s ((s.setLinks head links).goto t new) t (some i) :=
    (Local.setLinks s t head links).trans (.goto _ t new)
  have hnew : ((s.setLinks head links).goto t new).pc t = new := pc_goto ..
  have hexited : (((s.setLinks head links).goto t new).info t).exited = (s.info t).exited := by
    simp [goto, modInfo, setLinks]
  have hroles' : ((s.setLinks head links).goto t new).Roles :=
    hturn.inv.roles.keep hlocal (by rw [hnew, hold, hroles.1]) (by rw [hnew, hold, hroles.2.1])
      (by rw [hnew, hold, hroles.2.2]) (by rwa [hnew]) (by simp [hnew, hreads.2]) fun _ _ =>
        ⟨rfl, rfl⟩
  refine hturn.assemble hlocal ?_ hroles' ?_ rfl rfl (fun _ => rfl) (fun _ => rfl)
    (fun _ _ _ hq => ⟨hq, rfl⟩) hidle hold hnew ⟨hplain.alive, hplain.alive', hplain.frees⟩
    ⟨hchain, ?_, fun u value hu hparam i' hi' => ?_⟩ (fun i' hi' => ?_) hsubject hsubject'
    (fun i' hi' htask => ?_) ?_ hturn.inv.sound ?_
  · exact hturn.sameCore hlocal rfl rfl rfl (by rw [hnew, hold, hplain.inWindow])
  · refine hturn.inv.sems.keep hlocal rfl (fun _ _ => rfl) (fun _ _ => rfl) (fun g hg => ?_)
      (fun i' retval hpc => absurd (hnew.symm.trans hpc) (hplain.untaken i' retval))
      (by simp [hnew, hreads.1]) (fun _ _ => rfl) (hold ▸ hplain.maker) (.ofEq rfl rfl)
    have hg' : s.frame t = some g := hg
    simp [hturn.frame] at hg'
  · refine (hturn.inv.registry.order.sublist List.erase_sublist).imp
      fun {newer older} horder u hu hlive => ?_
    rw [hlocal.tcb_eq]
    rw [hlocal.tcbLive_eq] at hlive
    exact horder u hu hlive
  · rw [hlocal.tcb_eq]
    rw [hlocal.param_eq] at hparam
    by_cases hut : u = t
    · have hpasses := hreads.2
      rw [hut, hnew] at hu
      simp [hu, Pc.passes] at hpasses
    · rw [hlocal.pc_ne hut] at hu
      exact hturn.inv.registry.untracked u value hu hparam i' (List.mem_of_mem_erase hi')
  · exact List.mem_erase_of_ne fun heq => hi' (congrArg some heq.symm)
  · have hne : i' ≠ i := fun heq => hi' (congrArg some heq.symm)
    exact ⟨hexited, hself i' hne htask⟩
  · rintro i' ⟨⟩
    refine hturn.subject hlocal hroles' hmade hmade.2 rfl (hturn.inv.threads i).notFailed rfl rfl
      (hold ▸ hstore) .inr (fun hfreed htask => ?_) hlife
    exact absurd hfreed
      (Bool.eq_false_iff.mp (hturn.not_freed (hold ▸ hends) (hold ▸ hplain.alive) htask))
  · have howned : ((s.setLinks head links).goto t new).owned = s.owned :=
      owned_keep hlocal (fun _ _ => ⟨rfl, rfl⟩) (fun _ => rfl) rfl
        (by rw [hnew, hold, hplain.memory]) rfl
    rw [howned]
    exact hturn.inv.ledger

/-- `pthread_join` takes the thread out of the registry. -/
theorem joinRemoveThread {retval : Bool} {value : Option Ptr}
    (hpc : s.pc t = .join i retval (.removeThread value))
    (hstep : s.join t i retval (.removeThread value) = some s') :
    s'.Inv base low high (nodes.erase i) := by
  obtain ⟨huse, hmade, hok, hhandle, hout⟩ := hturn.joined hpc
  have hunlinking : (s.life nodes i).handle = .unlinking := hhandle
  have hmem : i ∈ nodes := by
    have hkept := (hok.kept_of_handle (by simp [hunlinking])).1
    rw [hunlinking] at hkept
    simpa [life, Handle.keepsNode] using hkept
  obtain ⟨head, links, hremoved, hchain⟩ := hturn.inv.removed hmem
  simp only [join, hremoved, Option.some.injEq] at hstep
  subst hstep
  have hlocal : Local s ((s.setLinks head links).goto t (.join i retval (.readSem value)))
      t (some i) :=
    (Local.setLinks s t head links).trans (.goto _ t _)
  refine hturn.unlinkStep hchain hpc ⟨⟨rfl, rfl, by simp, by simp⟩, rfl, by simp, by simp⟩ ⟨rfl,
    rfl⟩ ⟨rfl, rfl, rfl⟩ (hturn.not_idle hpc rfl) (by simp [Pc.own]) (by simp [Pc.subject])
      (by simp [Pc.subject])
    (fun _ _ _ => ⟨fun _ => rfl, by simp⟩) (by simp) hmade (by simp) ?_
  have hnew : ((s.setLinks head links).goto t (.join i retval (.readSem value))).pc t =
      .join i retval (.readSem value) := pc_goto ..
  obtain ⟨hbody, hpassed⟩ := body_keep (i := i) hlocal (fun _ _ => rfl) rfl
    fun _ => ⟨by simp [goto, modInfo, setLinks], by rw [hnew, hpc]; rfl⟩
  obtain ⟨hhandle', hout'⟩ := handle_of_joining (i := i) (j := t)
    (s := (s.setLinks head links).goto t (.join i retval (.readSem value))) huse
  rw [hnew] at hhandle' hout'
  have hlisted : i ∉ nodes.erase i := fun hmem' =>
    (List.Nodup.mem_erase_iff hturn.inv.registry.chain.nodup).mp hmem' |>.1 rfl
  have hlife : ((s.setLinks head links).goto t (.join i retval (.readSem value))).life
      (nodes.erase i) i = { s.life nodes i with handle := .deleting, listed := false } := by
    refine Life.ext hbody hhandle' ?_ rfl rfl rfl rfl rfl hpassed (hout'.trans hout.symm) rfl rfl
    simp [life, hlisted]
  rw [hlife]
  exact hok.move (.joinUnlinks _ hunlinking)

/-- `pthread_exit` takes its own thread out of the registry. -/
theorem exitRemoveThread (hpc : s.pc t = .exit (.removeThread i))
    (hstep : s.exit t (.removeThread i) = some s') : s'.Inv base low high (nodes.erase i) := by
  have hparam := hturn.own_of_exit hpc rfl
  obtain ⟨htask, hok, hbody, hpassed⟩ := hturn.own hparam
  have hunlinking : (s.life nodes i).body = .unlinking := by
    rw [hbody, hpc]
    rfl
  have hmem : i ∈ nodes := by
    have hkept := (hok.untaken (hok.not_taken (by simp [hunlinking]))).1
    rw [hunlinking] at hkept
    simpa [life, Body.keepsNode] using hkept
  have hjoiner : (s.past i).use.joiner ≠ some t := by
    intro hjoiner
    have hjoins : (s.pc t).joins = some i := (hturn.inv.roles.joins i t).mp hjoiner
    simp [hpc, Pc.joins] at hjoins
  obtain ⟨head, links, hremoved, hchain⟩ := hturn.inv.removed hmem
  simp only [exit, hremoved, Option.some.injEq] at hstep
  subst hstep
  have hlocal : Local s ((s.setLinks head links).goto t (.exit (.readSem i))) t (some i) :=
    (Local.setLinks s t head links).trans (.goto _ t _)
  refine hturn.unlinkStep hchain hpc ⟨⟨rfl, rfl, by simp, by simp⟩, rfl, by simp, by simp⟩
    ⟨rfl, rfl⟩ ⟨rfl, rfl, rfl⟩ (hturn.not_idle hpc rfl) ?_ (by simp [Pc.subject])
    (by simp [Pc.subject]) (fun i' hi' htask' => ?_) (by simp) (hturn.made_of_task htask)
    (by simp) ?_
  · rintro i' ⟨⟩
    exact hparam
  · have hparam' : (s.info t).param = some i' := (hturn.inv.roles.tasks i' t).mp htask'
    exact absurd (Option.some.inj (hparam'.symm.trans hparam)) hi'
  · have hnew : ((s.setLinks head links).goto t (.exit (.readSem i))).pc t = .exit (.readSem i) :=
      pc_goto ..
    obtain ⟨hhandle, hout⟩ :=
      handle_keep (i := i) hlocal rfl hjoiner (fun _ _ => rfl) (fun _ _ => rfl)
    have htask' : (((s.setLinks head links).goto t (.exit (.readSem i))).past i).task = some t :=
      htask
    have hlisted : i ∉ nodes.erase i := fun hmem' =>
      (List.Nodup.mem_erase_iff hturn.inv.registry.chain.nodup).mp hmem' |>.1 rfl
    have hlife : ((s.setLinks head links).goto t (.exit (.readSem i))).life (nodes.erase i) i =
        { s.life nodes i with body := .deleting, listed := false } := by
      refine Life.ext ?_ hhandle ?_ rfl rfl rfl rfl rfl ?_ hout rfl rfl
      · refine (body_of_task htask').trans ?_
        rw [hnew]
        rfl
      · simp [life, hlisted]
      · refine ((passed_of_task htask').trans ?_).trans hpassed.symm
        simp [goto, modInfo, setLinks]
    rw [hlife]
    exact hok.move (.unlinks _ hunlinking)

/-! ## Memory is freed -/

/-- The application frees memory. -/
theorem beginFree {pv : Nat} (hpc : s.pc t = .app) (hidle : t ≠ idleTask) (hblock : s.blocks pv) :
    (s.release pv fun s => { s with blocks := Function.update s.blocks pv false }).Inv base low high
      nodes := by
  have hblock' : s.owned (.block pv) = some pv := by simp [owned, hblock]
  obtain ⟨heap, hfree, hsound, hledger⟩ := hturn.inv.released hblock'
  have hrelease : (s.release pv fun s => { s with blocks := Function.update s.blocks pv false }) =
      { s with heap := heap, blocks := Function.update s.blocks pv false } := by
    simp [release, hfree]
  rw [hrelease]
  have hlocal :
      Local s { s with heap := heap, blocks := Function.update s.blocks pv false } t none :=
    .ofEq t rfl rfl rfl rfl
  have hroles := hturn.inv.roles
  have hsems := hturn.inv.sems
  have hregistry := hturn.inv.registry
  refine hturn.assemble hlocal (hturn.sameCore hlocal rfl rfl rfl rfl)
    ⟨hroles.creates, hroles.joins, hroles.detaches, hroles.tasks, hroles.own, hroles.passes⟩
    ⟨fun u f hf => (hsems.calls u f hf).keep rfl (fun _ => rfl) id, hsems.returned, hsems.reads,
      hsems.owner, hsems.maker, hsems.binary⟩ rfl rfl (fun _ => rfl) (fun _ => rfl)
    (fun _ _ _ hq => ⟨hq, rfl⟩) hidle hpc hpc ⟨by simp, by simp, rfl⟩
    ⟨hregistry.chain, hregistry.order, hregistry.untracked⟩ (fun _ _ => Iff.rfl)
    (by simp [Pc.subject]) (by simp [Pc.subject]) (fun _ _ _ => ⟨rfl, fun _ => rfl, by simp⟩)
    (by simp) hsound ?_
  have howned : owned { s with heap := heap, blocks := Function.update s.blocks pv false } =
      Function.update s.owned (.block pv) none := by
    have ho : owned { s with heap := heap, blocks := Function.update s.blocks pv false }
        (.block pv) = none := by
      simp [owned]
    rw [← ho]
    refine owned_update hlocal _ (fun _ _ => ⟨rfl, rfl⟩) (fun _ _ => ⟨rfl, rfl⟩) (fun _ => rfl)
      (fun _ => rfl) fun a ha => ?_
    have hne : a ≠ pv := fun heq => ha (congrArg _ heq)
    simp [hne]
  rw [howned]
  exact hledger

/-- The descriptor of a thread is freed, by its joiner or by its own task. -/
theorem freeStep {heap : Heap4} (hlocal : Local s s' t (some i)) (hmade : s.Made i)
    (hlive : (s.desc i).live) (hfree : vPortFree s.heap (s.desc i).addr = some heap)
    (hdesc : s'.desc = Function.update s.desc i { s.desc i with live := false })
    (hshared : s' = { s with heap := heap, desc := s'.desc, past := s'.past, info := s'.info })
    (hold : s.pc t = old) (hnew : s'.pc t = new) (hplain : Pc.Plain old new)
    (hidle : t ≠ idleTask) (hreads : new.reads = none ∧ new.passes = none) (hroles : s'.Roles)
    (hsubject : ∀ i', old.subject = some i' → some i = some i')
    (hsubject' : ∀ i', new.subject = some i' → some i = some i')
    (hself : ∀ i', some i ≠ some i' → (s.past i').task = some t →
      (s'.info t).exited = (s.info t).exited ∧
      (∀ freed, bodyOf new (none : Option (Frame α)) freed =
        bodyOf old (none : Option (Frame α)) freed) ∧
      old ≠ .exit .taskDelete)
    (hpast : (s'.past i).creator = none ∧ (s'.past i).handle = (s.past i).handle ∧
      (s'.past i).use ≠ .failed)
    (hstore : old ≠ .create i .store)
    (hfreed : (s'.past i).selfFreed → (s.past i).task = some t ∨ (s.past i).selfFreed)
    (hends : (s'.past i).selfFreed → (s.past i).task = some t → new = .exit .taskDelete ∨
      new = .dead)
    (hlife : (s'.life nodes i).Ok) : s'.Inv base low high nodes := by
  have hkern : s'.kern = s.kern := by rw [hshared]
  have hframe : ∀ u, s'.frame u = s.frame u := fun u => by unfold Sys.frame; rw [hkern]
  have hdescEq : s'.desc i = { s.desc i with live := false } := by rw [hdesc, Function.update_self]
  have hdescNe : ∀ i', i' ≠ i → s'.desc i' = s.desc i' := fun i' hi => by
    rw [hdesc, Function.update_of_ne hi]
  have hnext : ∀ i', (s'.desc i').next = (s.desc i').next := by
    intro i'
    by_cases hi : i' = i
    · rw [hi, hdescEq]
    · rw [hdescNe i' hi]
  have hblock : s.owned (.desc i) = some (s.desc i).addr := by simp [owned, hlive]
  obtain ⟨heap', hfree', hsound, hledger⟩ := hturn.inv.released hblock
  obtain rfl : heap' = heap := Option.some.inj (hfree'.symm.trans hfree)
  refine hturn.assemble hlocal ?_ hroles ?_ (by rw [hkern]) (by rw [hkern]) hframe
    (fun _ => by rw [hkern]) (fun i' q _ hq => ⟨by rw [hshared]; exact hq, by rw [hkern]⟩)
    hidle hold hnew ⟨hplain.alive, hplain.alive', hplain.frees⟩ ?_ (fun _ _ => Iff.rfl) hsubject
    hsubject' hself ?_ (by rw [hshared]; exact hsound) ?_
  · exact hturn.sameCore hlocal hkern (by rw [hshared]) (by rw [hshared])
      (by rw [hnew, hold, hplain.inWindow])
  · refine hturn.inv.sems.keep hlocal (by rw [hshared]) (fun u _ => hframe u)
      (fun _ _ => by rw [hkern]) (fun g hg => ?_) (fun i' retval hpc =>
        absurd (hnew.symm.trans hpc) (hplain.untaken i' retval))
      (by simp [hnew, hreads.1]) ?_ (hold ▸ hplain.maker) (.ofEq (by rw [hkern]) (by rw [hkern]))
    · rw [hframe, hturn.frame] at hg
      simp at hg
    · rintro i' ⟨⟩
      rw [hdescEq]
  · refine hturn.inv.registry.keep hlocal (by rw [hshared]) (fun i' _ => hnext i') ?_
      fun value hfind => ?_
    · rintro i' - ⟨⟩
      rw [hdescEq]
    · have hpasses := hreads.2
      rw [hnew] at hfind
      simp [hfind, Pc.passes] at hpasses
  · rintro i' ⟨⟩
    exact hturn.subject hlocal hroles hmade hpast.1 hpast.2.1 hpast.2.2 (by rw [hdescEq])
      (by rw [hdescEq]) (hold ▸ hstore) hfreed (by rwa [hnew]) hlife
  · have howned : s'.owned = Function.update s.owned (.desc i) none := by
      have ho : s'.owned (.desc i) = none := by simp [owned, hdescEq]
      rw [← ho]
      refine owned_update hlocal _ (fun i' hi' => ?_)
        (fun _ _ => by rw [hshared]; exact ⟨rfl, rfl⟩) ?_ ?_ fun a _ => by rw [hshared]
      · rw [hdescNe i' fun heq => hi' (congrArg _ heq)]
        exact ⟨rfl, rfl⟩
      · rw [hnew, hold, hplain.memory]
        exact fun _ => rfl
      · rw [hnew, hold, hplain.memory]
        exact fun _ => rfl
    rw [howned, show s'.heap = heap' by rw [hshared]]
    exact hledger

/-- `pthread_join` frees the descriptor and returns. -/
theorem joinFree {retval : Bool} {value : Option Ptr} (hpc : s.pc t = .join i retval (.free value))
    (hstep : s.join t i retval (.free value) = some s') : s'.Inv base low high nodes := by
  obtain ⟨huse, hmade, hok, hhandle, hout⟩ := hturn.joined hpc
  have hlive := hturn.join_live hpc
  have hfreeing : (s.life nodes i).handle = .freeing := hhandle
  have hblock : s.owned (.desc i) = some (s.desc i).addr := by simp [owned, hlive]
  obtain ⟨heap, hfree, -, -⟩ := hturn.inv.released hblock
  simp only [join, freeDesc, touch, hlive, if_true, release, hfree, Option.some.injEq] at hstep
  have hlocal : Local s s' t (some i) := by
    rw [← hstep]
    exact ((((Local.ofEq t rfl rfl rfl rfl : Local s { s with heap := heap } t (some i)).trans
      (.modDesc _ t i _)).trans (.modPast _ t i rfl)).trans (.modPast _ t i rfl)).trans
      (.returns _ t _)
  have hnew : s'.pc t = .app := by rw [← hstep, pc_returns]
  have hexited : (s'.info t).exited = (s.info t).exited := by
    simp [← hstep, returns, modInfo, modPast, modDesc]
  have hpast : s'.past i =
      { s.past i with descFrees := (s.past i).descFrees + 1, use := .joined value } := by
    simp [← hstep, returns, modInfo, modPast, modDesc]
  have hdesc : s'.desc = Function.update s.desc i { s.desc i with live := false } := by
    rw [← hstep]
    rfl
  have hdescEq : s'.desc i = { s.desc i with live := false } := by rw [hdesc, Function.update_self]
  have hshared : s' =
      { s with heap := heap, desc := s'.desc, past := s'.past, info := s'.info } := by
    rw [← hstep]
    rfl
  have hkern : s'.kern = s.kern := by rw [hshared]
  clear hstep
  have hroles : s'.Roles := by
    refine hturn.inv.roles.change hlocal (.keep _ (by rw [hnew, hpc]; rfl) ?_)
      (.unlink i (by rw [huse]; rfl) (by rw [hnew]; rfl) (by rw [hpast]; rfl))
      (.keep _ (by rw [hnew, hpc]; rfl) ?_) (by simp [hnew, Pc.own]) (by simp [hnew, Pc.passes])
    · rintro i' ⟨⟩
      rw [hpast]
    · rintro i' ⟨⟩
      rw [hpast, huse]
      rfl
  refine hturn.freeStep hlocal hmade hlive hfree hdesc hshared hpc hnew
    ⟨⟨rfl, rfl, by simp, by simp⟩, rfl, by simp, by simp⟩ (hturn.not_idle hpc rfl) ⟨rfl, rfl⟩ hroles
    (by simp [Pc.subject]) (by simp [Pc.subject]) (fun _ _ _ => ⟨hexited, fun _ => rfl, by simp⟩)
    (by rw [hpast]; exact ⟨hmade.2, rfl, by simp⟩) (by simp) (by rw [hpast]; exact .inr)
    (fun hfreed htask => ?_) ?_
  · rw [hpast] at hfreed
    exact absurd hfreed
      (Bool.eq_false_iff.mp (hturn.not_freed (by simp [hpc]) (by simp [hpc]) htask))
  · obtain ⟨hbody, hpassed⟩ := body_keep (i := i) hlocal
      (fun u _ => by unfold Sys.frame; rw [hkern]) (by rw [hpast]) fun _ =>
        ⟨hexited, by rw [hnew, hpc]; rfl⟩
    have hout' : (s.life nodes i).out = value := hout
    have hlife : s'.life nodes i = { s.life nodes i with
        handle := .joined, descLive := false, descFrees := (s.life nodes i).descFrees + 1 } := by
      refine Life.ext hbody ?_ rfl ?_ ?_ ?_ ?_ ?_ hpassed ?_ ?_ ?_
      · simp [life, Sys.handle, hpast]
      · simp [life, Sys.sem, hdescEq, hkern]
      · simp [life, hdescEq]
      · simp [life, hdescEq]
      · simp [life, Sys.sem, hdescEq, hkern]
      · simp [life, hdescEq]
      · rw [hout']
        simp [life, Sys.out, hpast]
      · simp [life, hpast]
      · simp [life, hpast]
    rw [hlife]
    exact hok.move (.joinFrees _ hfreeing)

/-- `pthread_exit` frees the descriptor of its own thread. -/
theorem exitFree (hpc : s.pc t = .exit (.free i)) (hstep : s.exit t (.free i) = some s') :
    s'.Inv base low high nodes := by
  have hparam := hturn.own_of_exit hpc rfl
  obtain ⟨htask, hok, hbody, hpassed⟩ := hturn.own hparam
  have hmade := hturn.made_of_task htask
  have hfreeing : (s.life nodes i).body = .freeing := by
    rw [hbody, hpc]
    rfl
  have hlive := hturn.exit_live hpc rfl rfl (by simp [bodyOf])
  have hjoiner : (s.past i).use.joiner ≠ some t := by
    intro hjoiner
    have hjoins : (s.pc t).joins = some i := (hturn.inv.roles.joins i t).mp hjoiner
    simp [hpc, Pc.joins] at hjoins
  have hblock : s.owned (.desc i) = some (s.desc i).addr := by simp [owned, hlive]
  obtain ⟨heap, hfree, -, -⟩ := hturn.inv.released hblock
  simp only [exit, freeDesc, touch, hlive, if_true, release, hfree, Option.some.injEq] at hstep
  have hlocal : Local s s' t (some i) := by
    rw [← hstep]
    exact ((((Local.ofEq t rfl rfl rfl rfl : Local s { s with heap := heap } t (some i)).trans
      (.modDesc _ t i _)).trans (.modPast _ t i rfl)).trans (.modPast _ t i rfl)).trans
      (.goto _ t _)
  have hnew : s'.pc t = .exit .taskDelete := by rw [← hstep, pc_goto]
  have hexited : (s'.info t).exited = (s.info t).exited := by
    simp [← hstep, goto, modInfo, modPast, modDesc]
  have hpast : s'.past i =
      { s.past i with descFrees := (s.past i).descFrees + 1, selfFreed := true } := by
    simp [← hstep, goto, modInfo, modPast, modDesc]
  have hdesc : s'.desc = Function.update s.desc i { s.desc i with live := false } := by
    rw [← hstep]
    rfl
  have hdescEq : s'.desc i = { s.desc i with live := false } := by rw [hdesc, Function.update_self]
  have hshared : s' =
      { s with heap := heap, desc := s'.desc, past := s'.past, info := s'.info } := by
    rw [← hstep]
    rfl
  have hkern : s'.kern = s.kern := by rw [hshared]
  clear hstep
  have hframe : ∀ u, s'.frame u = s.frame u := fun u => by unfold Sys.frame; rw [hkern]
  have hroles : s'.Roles := by
    refine hturn.inv.roles.keep hlocal ?_ ?_ ?_ ?_ ?_ ?_ <;>
      simp [hpc, hnew, Pc.creates, Pc.joins, Pc.detaches, Pc.own, Pc.passes, ExitPc.thread, hpast]
  refine hturn.freeStep hlocal hmade hlive hfree hdesc hshared hpc hnew
    ⟨⟨rfl, rfl, by simp, by simp⟩, rfl, by simp, by simp⟩ (hturn.not_idle hpc rfl) ⟨rfl, rfl⟩ hroles
    (by simp [Pc.subject]) (by simp [Pc.subject]) (fun i' hi' htask' => ?_)
    (by rw [hpast]; exact ⟨hmade.2, rfl, (hturn.inv.threads i).notFailed⟩) (by simp)
    (fun _ => .inl htask) (fun _ _ => .inl rfl) ?_
  · have hparam' : (s.info t).param = some i' := (hturn.inv.roles.tasks i' t).mp htask'
    exact absurd (hparam.symm.trans hparam') hi'
  · obtain ⟨hhandle, hout⟩ := handle_keep (i := i) hlocal (by rw [hpast]) hjoiner
      (fun u _ => hframe u) fun u _ => by rw [hkern]
    have htask' : (s'.past i).task = some t := by rw [hpast]; exact htask
    have hlife : s'.life nodes i = { s.life nodes i with
        body := .freed, descLive := false, descFrees := (s.life nodes i).descFrees + 1 } := by
      refine Life.ext ?_ hhandle rfl ?_ ?_ ?_ ?_ ?_ ?_ hout ?_ ?_
      · refine (body_of_task htask').trans ?_
        rw [hnew, hpast]
        rfl
      · simp [life, Sys.sem, hdescEq, hkern]
      · simp [life, hdescEq]
      · simp [life, hdescEq]
      · simp [life, Sys.sem, hdescEq, hkern]
      · simp [life, hdescEq]
      · exact ((passed_of_task htask').trans hexited).trans hpassed.symm
      · simp [life, hpast]
      · simp [life, hpast]
    rw [hlife]
    exact hok.move (.frees _ hfreeing)

end Turn

end Sys

end SimulatedLinux.Thread
