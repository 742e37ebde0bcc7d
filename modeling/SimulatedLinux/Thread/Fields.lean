import SimulatedLinux.Thread.Lookup
import SimulatedLinux.Thread.Move

/-! # Accesses to the fields of a descriptor

The steps of the entry points that test, read or write a field, find a thread, or
return. Each of them is a move of the life of the thread it is about, or none.
-/

namespace SimulatedLinux.Thread

open Kernel Heap

variable {α : Type}

/-- A join in progress has not freed the descriptor. -/
theorem JoinPc.handle_keeps (pc : JoinPc) (success : Bool) :
    pc.handle success ≠ .detached ∧ (pc.handle success).keepsDesc := by
  cases pc <;> cases success <;> simp [JoinPc.handle, Handle.keepsDesc]

namespace Sys.Turn

variable {s s' : Sys α} {t : TaskId} {nodes : List ThreadId} {i : ThreadId}
  {base : Nat → Option Nat} {low high : Nat} (hturn : Turn base low high s t nodes)
include hturn

theorem tcbLive (hidle : t ≠ idleTask) (halive : s.pc t ≠ .dead) : (s.info t).tcbLive :=
  (hturn.inv.tasks.tcb t).mpr ⟨hturn.born, hidle, .inl halive⟩

/-- The thread of the running task. -/
theorem own (hparam : (s.info t).param = some i) :
    (s.past i).task = some t ∧ (s.life nodes i).Ok ∧
      (s.life nodes i).body = bodyOf (s.pc t) (none : Option (Frame α)) (s.past i).selfFreed ∧
      (s.life nodes i).passed = (s.info t).exited := by
  have htask : (s.past i).task = some t := (hturn.inv.roles.tasks i t).mpr hparam
  refine ⟨htask, (hturn.inv.threads i).life (hturn.made_of_task htask), ?_, passed_of_task htask⟩
  rw [← hturn.frame]
  exact body_of_task htask

theorem own_of_exit {pc : ExitPc} (hpc : s.pc t = .exit pc) (hthread : pc.thread = some i) :
    (s.info t).param = some i :=
  hturn.inv.roles.own t i (by simp [hpc, Pc.own, hthread])

/-- No task of a native task is a thread. -/
theorem not_task (hparam : (s.info t).param = none) (i : ThreadId) : (s.past i).task ≠ some t := by
  intro htask
  have hsome : (s.info t).param = some i := (hturn.inv.roles.tasks i t).mp htask
  simp [hparam] at hsome

/-! ## Calls of the application -/

theorem beginReturns (hpc : s.pc t = .app) (hidle : t ≠ idleTask) (ret : Ret) :
    (s.returns t ret).Inv base low high nodes :=
  hturn.silent (some ret) _ hidle hpc rfl ⟨⟨rfl, rfl, by simp, by simp⟩, rfl, by simp, by simp⟩
    (by simp [Pc.reads]) ⟨rfl, rfl, rfl⟩ (by simp [Pc.own]) (by simp [Pc.passes])
    (by simp) ⟨rfl, rfl⟩ fun _ _ => ⟨rfl, fun _ => rfl, by simp⟩

/-- A call that has nothing to do with a thread yet. -/
theorem beginGoto {new : Pc} (hpc : s.pc t = .app) (hidle : t ≠ idleTask)
    (hnew : (∃ startRoutine arg, new = .createMalloc startRoutine arg) ∨ new = .self ∨
      ∃ uxPriority stackBytes, new = .task (.stack uxPriority stackBytes)) :
    (s.goto t new).Inv base low high nodes := by
  rcases hnew with ⟨startRoutine, arg, rfl⟩ | rfl | ⟨uxPriority, stackBytes, rfl⟩
  all_goals
    exact hturn.silent _ _ hidle hpc rfl ⟨⟨rfl, rfl, by simp, by simp⟩, rfl, by simp, by simp⟩
      (by simp [Pc.reads]) ⟨rfl, rfl, rfl⟩ (by simp [Pc.own]) (by simp [Pc.passes])
      (by simp) ⟨rfl, rfl⟩ fun _ _ => ⟨rfl, fun _ => rfl, by simp⟩

theorem beginDelete (hpc : s.pc t = .app) (hidle : t ≠ idleTask)
    (hparam : (s.info t).param = none) :
    (s.goto t (.exit .taskDelete)).Inv base low high nodes :=
  hturn.silent _ _ hidle hpc rfl ⟨⟨rfl, rfl, by simp, by simp⟩, rfl, by simp, by simp⟩
    (by simp [Pc.reads]) ⟨rfl, rfl, rfl⟩ (by simp [Pc.own, ExitPc.thread]) (by simp [Pc.passes])
    (by simp) ⟨rfl, rfl⟩ fun i htask => absurd htask (hturn.not_task hparam i)

theorem beginExit (hpc : s.pc t = .app) (hidle : t ≠ idleTask) (value : Ptr)
    (huntracked : (s.info t).param = none → s.findThread (s.info t).tcb = .ok none) :
    (s.modInfo t fun I =>
      { I with exited := some value, pc := .exit (.findThread value) }).Inv base low
        high nodes := by
  cases hparam : (s.info t).param with
  | none =>
      refine hturn.silent _ (some value) hidle hpc rfl
        ⟨⟨rfl, rfl, by simp, by simp⟩, rfl, by simp, by simp⟩ (by simp [Pc.reads]) ⟨rfl, rfl, rfl⟩
        (by simp [Pc.own, ExitPc.thread]) (by simp [Pc.passes])
        (fun _ _ _ => hturn.inv.findThread_none.mp (huntracked hparam)) ⟨rfl, rfl⟩
        fun i htask => absurd htask (hturn.not_task hparam i)
  | some i =>
      obtain ⟨htask, hok, hbody, -⟩ := hturn.own hparam
      have hmove := hok.move (.enters _ value (by rw [hbody, hpc]; rfl))
      have hstep := hturn.ownStep (g := id) (some value) htask hidle hpc
        (f := fun I => { I with exited := some value, pc := .exit (.findThread value) }) rfl
        ⟨⟨rfl, rfl, rfl, rfl, rfl⟩, rfl⟩ ⟨⟨rfl, rfl, by simp, by simp⟩, rfl, by simp, by simp⟩
        (by simp [Pc.reads]) ⟨rfl, rfl, rfl⟩ (by simp [Pc.own, ExitPc.thread]) (by simp [Pc.passes])
        ⟨rfl, rfl⟩ (by simp) hmove
      rwa [modDesc_id] at hstep

/-- The handle is passed to `pthread_join` or `pthread_detach`. -/
theorem beginUse {new : Pc} {use : Use} (hpc : s.pc t = .app) (hidle : t ≠ idleTask)
    (hpublished : s.Published i) (hunused : (s.past i).use = .unused)
    (hnew : (∃ retval, new = .join i retval .sem ∧ use = .joining t) ∨
      new = .detach i ∧ use = .detaching t) :
    ((s.modPast i fun P => { P with use := use }).goto t new).Inv base low high nodes := by
  have hmade : s.Made i := by
    by_contra hnot
    have hhandle := ((hturn.inv.threads i).fresh hnot).2.1
    rw [Published, hhandle] at hpublished
    simp at hpublished
  have hok := (hturn.inv.threads i).life hmade
  have hhandle : (s.life nodes i).handle = .unused := by simp [life, handle, hunused]
  have hout : (s.life nodes i).out = none := by simp [life, out, hunused]
  rcases hnew with ⟨retval, rfl, rfl⟩ | ⟨rfl, rfl⟩
  · have hstep := hturn.useStep (g := id) (p := fun P => { P with use := .joining t })
      (f := fun I => { I with pc := .join i retval .sem }) (.joining t) _ .waiting none
      hmade hidle hpc
      rfl ⟨⟨rfl, rfl, rfl, rfl, rfl⟩, rfl⟩ rfl (by simp)
      ⟨⟨rfl, rfl, by simp, by simp⟩, rfl, by simp, by simp⟩ (by simp [Pc.reads])
      (fun _ => ⟨rfl, rfl⟩) ⟨rfl, rfl⟩ ⟨rfl, rfl⟩ (by simp)
    rw [modDesc_id] at hstep
    refine hstep
      (.link i (by rw [hpc]; rfl) (by simp [hunused, Use.joiner]) (by simp [Pc.joins]) ?_)
      (.keep _ (by simp [hpc, Pc.detaches]) ?_) (by simp [Pc.subject]) (by simp [Pc.subject])
      ⟨?_, ?_⟩ ?_
    · simp [modInfo, modPast, Use.joiner]
    · rintro i' ⟨⟩
      simp [modInfo, modPast, hunused, Use.detacher]
    · simp [handle, modInfo, modPast, pc, Pc.handle, JoinPc.handle]
    · simp [out, modInfo, modPast, pc, Pc.value, JoinPc.value]
    · rw [← hout]
      exact hok.move (.joins _ hhandle)
  · have hstep := hturn.useStep (g := id) (p := fun P => { P with use := .detaching t })
      (f := fun I => { I with pc := .detach i }) (.detaching t) _ .detaching none hmade hidle hpc
      rfl ⟨⟨rfl, rfl, rfl, rfl, rfl⟩, rfl⟩ rfl (by simp)
      ⟨⟨rfl, rfl, by simp, by simp⟩, rfl, by simp, by simp⟩ (by simp [Pc.reads])
      (fun _ => ⟨rfl, rfl⟩) ⟨rfl, rfl⟩ ⟨rfl, rfl⟩ (by simp)
    rw [modDesc_id] at hstep
    refine hstep (.keep _ (by simp [hpc, Pc.joins]) ?_)
      (.link i (by rw [hpc]; rfl) (by simp [hunused, Use.detacher]) (by simp [Pc.detaches]) ?_)
      (by simp [Pc.subject]) (by simp [Pc.subject]) ⟨?_, ?_⟩ ?_
    · rintro i' ⟨⟩
      simp [modInfo, modPast, hunused, Use.joiner]
    · simp [modInfo, modPast, Use.detacher]
    · simp [handle, modInfo, modPast]
    · simp [out, modInfo, modPast]
    · rw [← hout]
      exact hok.move (.detaches _ hhandle)

/-! ## The steps of `pthread_exit` -/

/-- A step of `pthread_exit` that does not touch the descriptor. -/
theorem exitGoto {old new : ExitPc} (hpc : s.pc t = .exit old) (hparam : (s.info t).param = some i)
    (hold : old ≠ .taskDelete) (hown : ∀ i', new.thread = some i' → i' = i)
    (hpasses : (Pc.exit new).passes = none ∨ (Pc.exit new).passes = (Pc.exit old).passes)
    (hreads : ∀ i q, (Pc.exit new).reads = some (i, q) → (s.desc i).joinSem = some q)
    (hok : Life.Ok { s.life nodes i with
      body := bodyOf (.exit new) (none : Option (Frame α)) (s.past i).selfFreed }) :
    (s.goto t (.exit new)).Inv base low high nodes := by
  obtain ⟨htask, -, -, hpassed⟩ := hturn.own hparam
  have hidle : t ≠ idleTask := hturn.not_idle hpc rfl
  have hstep := hturn.ownStep (g := id) (f := fun I => { I with pc := .exit new })
    (s.info t).exited htask hidle hpc rfl ⟨⟨rfl, rfl, rfl, rfl, rfl⟩, rfl⟩
    ⟨⟨rfl, rfl, by simp, by simp⟩, rfl, by simp, by simp⟩ hreads ⟨rfl, rfl, rfl⟩ hown ?_ ⟨rfl, rfl⟩
    (by simpa using hold) ?_
  · rwa [modDesc_id] at hstep
  · intro value hvalue
    rcases hpasses with hnone | hsame
    · simp [hnone] at hvalue
    · exact hturn.inv.roles.passes t value (by rw [hpc, ← hsame]; exact hvalue)
  · rw [← hpassed]
    exact hok

theorem exitFindThread {value : Ptr} (hpc : s.pc t = .exit (.findThread value))
    (hstep : s.exit t (.findThread value) = some s') : s'.Inv base low high nodes := by
  have hidle : t ≠ idleTask := hturn.not_idle hpc rfl
  cases hparam : (s.info t).param with
  | none =>
      have hfind : s.findThread (s.info t).tcb = .ok none :=
        hturn.inv.findThread_none.mpr (hturn.inv.registry.untracked t value hpc hparam)
      simp only [exit, hfind, Option.some.injEq] at hstep
      subst hstep
      exact hturn.silent _ _ hidle hpc rfl ⟨⟨rfl, rfl, by simp, by simp⟩, rfl, by simp, by simp⟩
        (by simp [Pc.reads]) ⟨rfl, rfl, rfl⟩ (by simp [Pc.own, ExitPc.thread]) (by simp [Pc.passes])
        (by simp) ⟨rfl, rfl⟩ fun i htask => absurd htask (hturn.not_task hparam i)
  | some i =>
      obtain ⟨htask, hok, hbody, -⟩ := hturn.own hparam
      rw [hpc] at hbody
      have hfind := hturn.inv.findThread_self (hturn.made_of_task htask) htask (.inr hbody)
      simp only [exit, hfind, Option.some.injEq] at hstep
      subst hstep
      exact hturn.exitGoto hpc hparam (by simp) (by simp [ExitPc.thread]) (.inr rfl)
        (by simp [Pc.reads]) (hok.move (.finds _ hbody))

/-- The descriptor of the task's own thread has not been freed. -/
theorem exit_live {pc : ExitPc} (hpc : s.pc t = .exit pc) (hthread : pc.thread = some i)
    (hbody : (bodyOf (.exit pc) (none : Option (Frame α)) (s.past i).selfFreed).keepsDesc)
    (hgave : bodyOf (.exit pc) (none : Option (Frame α)) (s.past i).selfFreed ≠ .gave) :
    (s.desc i).live := by
  obtain ⟨-, hok, hbody', -⟩ := hturn.own (hturn.own_of_exit hpc hthread)
  rw [hpc] at hbody'
  have hdesc := (hok.untaken (hok.not_taken (by rw [hbody']; exact hgave))).2.2.1
  rw [hbody'] at hdesc
  exact hdesc.trans hbody

theorem exitRetval {value : Ptr} (hpc : s.pc t = .exit (.retval i value))
    (hstep : s.exit t (.retval i value) = some s') : s'.Inv base low high nodes := by
  have hparam := hturn.own_of_exit hpc rfl
  obtain ⟨htask, hok, hbody, hpassed⟩ := hturn.own hparam
  have hlive := hturn.exit_live hpc rfl rfl (by simp [bodyOf])
  have hexited : (s.info t).exited = some value :=
    hturn.inv.roles.passes t value (by rw [hpc]; rfl)
  simp only [exit, touch, hlive, if_true, Option.some.injEq] at hstep
  subst hstep
  refine hturn.ownStep (g := fun D => { D with retval := value })
    (f := fun I => { I with pc := .exit (.detached i) }) (s.info t).exited htask
    (hturn.not_idle hpc rfl) hpc rfl ⟨⟨rfl, rfl, rfl, rfl, rfl⟩, rfl⟩
    ⟨⟨rfl, rfl, by simp, by simp⟩, rfl, by simp, by simp⟩ (by simp [Pc.reads]) ⟨rfl, rfl, rfl⟩
    (by simp [Pc.own, ExitPc.thread]) (by simp [Pc.passes]) ⟨rfl, rfl⟩ (by simp) ?_
  rw [← hpassed]
  exact hok.move (.stores _ value (by rw [hbody, hpc]; rfl) (hpassed.trans hexited))

theorem exitDetached (hpc : s.pc t = .exit (.detached i))
    (hstep : s.exit t (.detached i) = some s') : s'.Inv base low high nodes := by
  have hparam := hturn.own_of_exit hpc rfl
  obtain ⟨htask, hok, hbody, -⟩ := hturn.own hparam
  have hlive := hturn.exit_live hpc rfl rfl (by simp [bodyOf])
  have htesting : (s.life nodes i).body = .testing := by rw [hbody, hpc]; rfl
  simp only [exit, touch, hlive, if_true, Option.some.injEq] at hstep
  subst hstep
  cases hdetached : (s.desc i).detached with
  | true =>
      exact hturn.exitGoto hpc hparam (by simp) (by simp [ExitPc.thread]) (.inl rfl)
        (by simp [Pc.reads]) (hok.move (.testsDetached _ htesting hdetached))
  | false =>
      exact hturn.exitGoto hpc hparam (by simp) (by simp [ExitPc.thread]) (.inl rfl)
        (by simp [Pc.reads]) (hok.move (.testsJoinable _ htesting hdetached))

theorem exitReadSem (hpc : s.pc t = .exit (.readSem i))
    (hstep : s.exit t (.readSem i) = some s') : s'.Inv base low high nodes := by
  have hparam := hturn.own_of_exit hpc rfl
  obtain ⟨htask, hok, hbody, -⟩ := hturn.own hparam
  have hlive := hturn.exit_live hpc rfl rfl (by simp [bodyOf])
  obtain ⟨q, hq⟩ := (hturn.inv.threads i).sem (hturn.made_of_task htask)
  simp only [exit, readSem, hlive, if_true, hq, Option.some.injEq] at hstep
  subst hstep
  refine hturn.exitGoto hpc hparam (by simp) (by simp [ExitPc.thread]) (.inl rfl) ?_ ?_
  · rintro i' q' ⟨⟩
    exact hq
  · rw [hpc] at hbody
    have hsame : bodyOf (.exit (.deleteSem i q)) (none : Option (Frame α)) (s.past i).selfFreed =
        (s.life nodes i).body := hbody.symm
    rw [hsame]
    exact hok

theorem exitGiven (hpc : s.pc t = .exit (.given i))
    (hstep : s.exit t (.given i) = some s') : s'.Inv base low high nodes := by
  have hparam := hturn.own_of_exit hpc rfl
  obtain ⟨htask, hok, hbody, -⟩ := hturn.own hparam
  simp only [exit, Option.some.injEq] at hstep
  subst hstep
  refine hturn.exitGoto hpc hparam (by simp) (by simp [ExitPc.thread]) (.inl rfl)
    (by simp [Pc.reads]) ?_
  have hfreed := hturn.not_freed (by simp [hpc]) (by simp [hpc]) htask
  have hsame : bodyOf (.exit .taskDelete) (none : Option (Frame α)) (s.past i).selfFreed =
      (s.life nodes i).body := by
    rw [hbody, hpc, hfreed]
    rfl
  rw [hsame]
  exact hok

/-! ## The steps of `pthread_join` -/

/-- The thread that the running task joins. -/
theorem joined {retval : Bool} {pc : JoinPc} (hpc : s.pc t = .join i retval pc) :
    (s.past i).use = .joining t ∧ s.Made i ∧ (s.life nodes i).Ok ∧
      (s.life nodes i).handle =
        pc.handle (succeeded (none : Option (Frame α)) (s.kern.task t).ret) ∧
      (s.life nodes i).out = pc.value := by
  obtain ⟨huse, hmade⟩ := hturn.inv.joining hpc
  refine ⟨huse, hmade, (hturn.inv.threads i).life hmade, ?_, ?_⟩
  · refine (handle_of_joining huse).1.trans ?_
    rw [hpc, hturn.frame]
    rfl
  · refine (handle_of_joining huse).2.trans ?_
    rw [hpc]
    rfl

theorem join_live {retval : Bool} {pc : JoinPc} (hpc : s.pc t = .join i retval pc) :
    (s.desc i).live := by
  obtain ⟨-, -, hok, hhandle, -⟩ := hturn.joined hpc
  obtain ⟨hne, hkeeps⟩ := pc.handle_keeps (succeeded (none : Option (Frame α)) (s.kern.task t).ret)
  have hkept := (hok.kept_of_handle (by rwa [hhandle])).2.2
  rw [hhandle] at hkept
  exact hkept.trans hkeeps

/-- A step of `pthread_join` that writes nothing. -/
theorem joinGoto {retval : Bool} {old new : JoinPc} (hpc : s.pc t = .join i retval old)
    (hnew : new ≠ .taken)
    (hreads : ∀ i' q, (Pc.join i retval new).reads = some (i', q) → (s.desc i').joinSem = some q)
    (hok : Life.Ok { s.life nodes i with handle := new.handle true, out := new.value }) :
    (s.goto t (.join i retval new)).Inv base low high nodes := by
  obtain ⟨huse, hmade, -, -, -⟩ := hturn.joined hpc
  have hstep := hturn.useStep (g := id) (p := id)
    (f := fun I => { I with pc := .join i retval new }) (.joining t) _ (new.handle true) new.value
    hmade (hturn.not_idle hpc rfl) hpc rfl ⟨⟨rfl, rfl, rfl, rfl, rfl⟩, rfl⟩
    (by rw [← huse]; rfl) (by simp) ⟨⟨rfl, rfl, by simp, by simp⟩, rfl, by simp, by simp [hnew]⟩
    hreads (fun _ => ⟨rfl, rfl⟩) ⟨rfl, rfl⟩ ⟨rfl, rfl⟩ (by simp)
  rw [modPast_id, modDesc_id] at hstep
  refine hstep (.keep _ (by simp [hpc, Pc.joins]) fun _ _ => rfl)
    (.keep _ (by simp [hpc, Pc.detaches]) fun _ _ => rfl) (by simp [Pc.subject])
    (by simp [Pc.subject]) ?_ hok
  have hboth := handle_of_joining (i := i) (j := t)
    (s := s.modInfo t fun I => { I with pc := .join i retval new }) huse
  rw [pc_modInfo] at hboth
  refine ⟨hboth.1.trans ?_, hboth.2⟩
  cases new <;> simp_all [Pc.handle, JoinPc.handle]

theorem joinTaken {retval : Bool} (hpc : s.pc t = .join i retval .taken)
    (hstep : s.join t i retval .taken = some s') : s'.Inv base low high nodes := by
  obtain ⟨huse, hmade, hok, hhandle, hout⟩ := hturn.joined hpc
  have hret := hturn.inv.sems.returned t i retval hpc hturn.frame
  simp only [join, hret, Option.some.injEq] at hstep
  subst hstep
  refine hturn.joinGoto hpc (by simp) (by simp [Pc.reads]) ?_
  rw [hret] at hhandle
  have hsame : JoinPc.retval.handle true = (s.life nodes i).handle := hhandle.symm
  have hvalue : JoinPc.retval.value = (s.life nodes i).out := hout.symm
  rw [hsame, hvalue]
  exact hok

theorem joinRetval {retval : Bool} (hpc : s.pc t = .join i retval .retval)
    (hstep : s.join t i retval .retval = some s') : s'.Inv base low high nodes := by
  obtain ⟨huse, hmade, hok, hhandle, -⟩ := hturn.joined hpc
  have hlive := hturn.join_live hpc
  have hreading : (s.life nodes i).handle = .reading := hhandle
  simp only [join, touch, hlive, if_true] at hstep
  split at hstep <;> cases hstep
  · exact hturn.joinGoto hpc (by simp) (by simp [Pc.reads])
      (hok.move (.reads _ (some (s.desc i).retval) hreading fun value hvalue =>
        (Option.some.inj hvalue).symm))
  · exact hturn.joinGoto hpc (by simp) (by simp [Pc.reads])
      (hok.move (.reads _ none hreading (by simp)))

theorem joinReadSem {retval : Bool} {value : Option Ptr}
    (hpc : s.pc t = .join i retval (.readSem value))
    (hstep : s.join t i retval (.readSem value) = some s') : s'.Inv base low high nodes := by
  obtain ⟨huse, hmade, hok, hhandle, hout⟩ := hturn.joined hpc
  have hlive := hturn.join_live hpc
  obtain ⟨q, hq⟩ := (hturn.inv.threads i).sem hmade
  simp only [join, readSem, hlive, if_true, hq, Option.some.injEq] at hstep
  subst hstep
  refine hturn.joinGoto hpc (by simp) ?_ ?_
  · rintro i' q' ⟨⟩
    exact hq
  · have hsame : (JoinPc.deleteSem value q).handle true = (s.life nodes i).handle := hhandle.symm
    have hvalue : (JoinPc.deleteSem value q).value = (s.life nodes i).out := hout.symm
    rw [hsame, hvalue]
    exact hok

/-! ## The other entry points -/

/-- `pthread_detach` writes the flag. -/
theorem detachWrite (hpc : s.pc t = .detach i) :
    (s.touch i (((s.modDesc i fun D => { D with detached := true }).modPast i
      fun P => { P with use := .detached }).returns t (.int 0))).Inv base low high nodes := by
  have hdetacher : (s.past i).use.detacher = some t :=
    (hturn.inv.roles.detaches i t).mpr (by simp [hpc, Pc.detaches])
  have huse : (s.past i).use = .detaching t := by
    cases huse : (s.past i).use <;> simp_all [Use.detacher]
  have hmade := hturn.made_of_use (i := i) (by simp [huse])
  have hok := (hturn.inv.threads i).life hmade
  have hhandle : (s.life nodes i).handle = .detaching := by simp [life, handle, huse]
  have hout : (s.life nodes i).out = none := by simp [life, out, huse]
  have hlive : (s.desc i).live := by
    have hkept := (hok.kept_of_handle (by simp [hhandle])).2.2
    rw [hhandle] at hkept
    exact hkept
  rw [touch, if_pos hlive]
  refine hturn.useStep .detached (some (.int 0)) .detached none hmade
    (hturn.not_idle hpc rfl) hpc rfl ⟨⟨rfl, rfl, rfl, rfl, rfl⟩, rfl⟩ rfl (by simp)
    ⟨⟨rfl, rfl, by simp, by simp⟩, rfl, by simp, by simp⟩ (by simp [Pc.reads]) (fun _ => ⟨rfl, rfl⟩)
    ⟨rfl, rfl⟩ ⟨rfl, rfl⟩ (by simp) (.keep _ (by simp [hpc, Pc.joins]) ?_)
    (.unlink i hdetacher (by simp [Pc.detaches]) ?_) (by simp [Pc.subject])
    (by simp [Pc.subject]) ⟨?_, ?_⟩ ?_
  · rintro i' ⟨⟩
    simp [modInfo, modPast, modDesc, huse, Use.joiner]
  · simp [modInfo, modPast, modDesc, Use.detacher]
  · simp [handle, modInfo, modPast, modDesc]
  · simp [out, modInfo, modPast, modDesc]
  · rw [← hout]
    exact hok.move (.writes _ hhandle)

/-- `posix_thread_wrapper` reads a field. -/
theorem wrapperRead {new : Pc} (hold : s.pc t = .wrapper i ∧ new = .wrapperArg i ∨
    s.pc t = .wrapperArg i ∧ new = .app) :
    (s.touch i (s.goto t new)).Inv base low high nodes := by
  have hrunning : (s.pc t).own = some i ∧ bodyOf (s.pc t) (none : Option (Frame α)) = fun _ =>
      .running := by
    rcases hold with ⟨hpc, -⟩ | ⟨hpc, -⟩ <;> rw [hpc] <;> exact ⟨rfl, rfl⟩
  have hparam := hturn.inv.roles.own t i hrunning.1
  obtain ⟨-, hok, hbody, -⟩ := hturn.own hparam
  have hlive : (s.desc i).live := by
    rw [hrunning.2] at hbody
    have hdesc := (hok.untaken (hok.not_taken (by simp [hbody]))).2.2.1
    rw [hbody] at hdesc
    exact hdesc
  rw [touch, if_pos hlive]
  rcases hold with ⟨hpc, rfl⟩ | ⟨hpc, rfl⟩
  · refine hturn.silent _ _ (hturn.not_idle hpc rfl) hpc rfl
      ⟨⟨rfl, rfl, by simp, by simp⟩, rfl, by simp, by simp⟩ (by simp [Pc.reads]) ⟨rfl, rfl, rfl⟩ ?_
      (by simp [Pc.passes]) (by simp) ⟨rfl, rfl⟩ fun _ _ => ⟨rfl, fun _ => rfl, by simp⟩
    rintro i' ⟨⟩
    exact hparam
  · exact hturn.silent _ _ (hturn.not_idle hpc rfl) hpc rfl
      ⟨⟨rfl, rfl, by simp, by simp⟩, rfl, by simp, by simp⟩ (by simp [Pc.reads]) ⟨rfl, rfl, rfl⟩
      (by simp [Pc.own]) (by simp [Pc.passes]) (by simp) ⟨rfl, rfl⟩ fun _ _ =>
        ⟨rfl, fun _ => rfl, by simp⟩

/-- `pthread_self` returns. -/
theorem selfReturns (hpc : s.pc t = .self) (ret : Ret) :
    (s.returns t ret).Inv base low high nodes :=
  hturn.silent (some ret) _ (hturn.not_idle hpc rfl) hpc rfl
    ⟨⟨rfl, rfl, by simp, by simp⟩, rfl, by simp, by simp⟩ (by simp [Pc.reads]) ⟨rfl, rfl, rfl⟩
    (by simp [Pc.own]) (by simp [Pc.passes]) (by simp) ⟨rfl, rfl⟩ fun _ _ =>
      ⟨rfl, fun _ => rfl, by simp⟩

end Sys.Turn

end SimulatedLinux.Thread
