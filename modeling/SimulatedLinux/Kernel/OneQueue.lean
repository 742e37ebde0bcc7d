import SimulatedLinux.Kernel.Calls

/-! # One queue among many

The steps of the kernel as seen by one queue, and the rule by which a law of that
queue is proved: it holds of the created queue, and every operation completed on
the queue keeps it.
-/

namespace SimulatedLinux.Kernel

variable {α : Type}

/-- What a step does to one queue and to the operations completed on it. -/
inductive QueueStep (v : View α) (act : Act α) (v' : View α) (q : QueueId) : Prop
  | quiet (hqueue : v'.queue q = v.queue q)
      (htrace : v'.trace = v.trace ∨ ∃ e, v'.trace = v.trace ++ [e] ∧ e.api.target ≠ some q)
  | deleted (t : TaskId) (hact : act = .delete t q)
  | failed (t : TaskId) (api : Api α) (htarget : api.target = some q)
      (hqueue : v'.queue q = v.queue q) (htrace : v'.trace = v.trace ++ [⟨t, api, .fail⟩])
  | sent (t : TaskId) (api : Api α) (item : Option α) (n : Nat)
      (hrequest : api.request = some (.genericSend item, q, n))
      (hspace : (v.queue q).uxMessagesWaiting < (v.queue q).uxLength)
      (hqueue : v'.queue q = (v.queue q).sent item)
      (htrace : v'.trace = v.trace ++ [⟨t, api, .pass none⟩])
  | received (t : TaskId) (api : Api α) (n : Nat) (hrequest : api.request = some (.receive, q, n))
      (hcount : 0 < (v.queue q).uxMessagesWaiting) (hqueue : v'.queue q = (v.queue q).received)
      (htrace : v'.trace = v.trace ++ [⟨t, api, .pass (v.queue q).front⟩])
  | taken (t : TaskId) (api : Api α) (n : Nat)
      (hrequest : api.request = some (.semaphoreTake, q, n))
      (hcount : 0 < (v.queue q).uxMessagesWaiting) (hqueue : v'.queue q = (v.queue q).taken t)
      (htrace : v'.trace = v.trace ++ [⟨t, api, .pass none⟩])

theorem Ran.queueStep {v v' : View α} {t : TaskId} {frame : Frame α} (hran : Ran v t frame v')
    (hf : frame.WellFormed) (q : QueueId) : QueueStep v (.run t) v' q := by
  have hreleased : (v.released t frame.xQueue).queue = v.queue ∧
      (v.released t frame.xQueue).trace = v.trace := by
    unfold View.released
    split <;> exact ⟨rfl, rfl⟩
  have hacquired : (v.acquired t frame.xQueue).queue = v.queue ∧
      (v.acquired t frame.xQueue).trace = v.trace := by
    unfold View.acquired
    split <;> exact ⟨rfl, rfl⟩
  have htarget := hf.target
  obtain ⟨n, hrequest, -⟩ := hf
  have hfail (hqueue : v'.queue = v.queue)
      (htrace : v'.trace = v.trace ++ [⟨t, frame.api, .fail⟩]) : QueueStep v (.run t) v' q := by
    by_cases hq : frame.xQueue = q
    · exact .failed t frame.api (hq ▸ htarget) (congrFun hqueue q) htrace
    · refine .quiet (congrFun hqueue q) (.inr ⟨_, htrace, ?_⟩)
      simpa [htarget] using hq
  have hother (hq : frame.xQueue ≠ q) {C : Contents α} {res : QueueResult α}
      (hqueue : v'.queue = Function.update v.queue frame.xQueue C)
      (htrace : v'.trace = v.trace ++ [⟨t, frame.api, res⟩]) : QueueStep v (.run t) v' q := by
    refine .quiet ?_ (.inr ⟨_, htrace, ?_⟩)
    · simp [hqueue, hq.symm]
    · simpa [htarget] using hq
  cases hran with
  | halted => exact .quiet rfl (.inl rfl)
  | entered => exact .quiet rfl (.inl rfl)
  | waits => exact .quiet rfl (.inl rfl)
  | moved => exact .quiet rfl (.inl rfl)
  | gaveUp => exact hfail rfl rfl
  | timedOut => exact hfail rfl rfl
  | sent item hpc hop hlive hready hholder =>
      by_cases hq : frame.xQueue = q
      · subst hq
        rw [hop] at hrequest hready
        refine .sent t frame.api item n hrequest hready ?_ (congrArg (· ++ _) hreleased.2)
        simp [View.complete, View.setFrame, View.setQueue]
      · refine hother hq (C := (v.queue frame.xQueue).sent item) ?_
          (congrArg (· ++ _) hreleased.2)
        simp [View.complete, View.setFrame, View.setQueue, hreleased.1]
  | received hpc hop hlive hready =>
      by_cases hq : frame.xQueue = q
      · subst hq
        rw [hop] at hrequest hready
        refine .received t frame.api n hrequest hready ?_ rfl
        simp [View.complete, View.setFrame, View.setQueue]
      · exact hother hq rfl rfl
  | taken hpc hop hlive hready =>
      by_cases hq : frame.xQueue = q
      · subst hq
        rw [hop] at hrequest hready
        refine .taken t frame.api n hrequest hready ?_ (congrArg (· ++ _) hacquired.2)
        simp [View.complete, View.setFrame, View.setQueue]
      · refine hother hq (C := (v.queue frame.xQueue).taken t) ?_ (congrArg (· ++ _) hacquired.2)
        simp [View.complete, View.setFrame, View.setQueue, hacquired.1]
  | left res elapsed hpc =>
      have hsame : (v.leave t frame.api res (frame.api.result res elapsed)).queue = v.queue ∧
          (v.leave t frame.api res (frame.api.result res elapsed)).trace = v.trace := by
        unfold View.leave
        cases frame.api.locks <;> cases res <;> exact ⟨rfl, rfl⟩
      exact .quiet (congrFun hsame.1 q) (.inl hsame.2)

/-- Every step of the kernel is one of the cases of `QueueStep`, for every queue
that exists. -/
theorem Calls.queueStep {v v' : View α} {allowed : QueueId → Api α → Prop} {act : Act α}
    (hcalls : Calls v allowed) (hstep : Stepped v act v') {q : QueueId} (hq : q < v.nextQueue) :
    QueueStep v act v' q := by
  cases hstep with
  | scheduled => exact .quiet rfl (.inl rfl)
  | asserted => exact .quiet rfl (.inl rfl)
  | freed => exact .quiet rfl (.inl rfl)
  | ran hframe hran => exact hran.queueStep (hcalls.wellFormed _ _ hframe) q
  | called t api startTick hframe =>
      exact .quiet (congrFun (v.enter_queue t api startTick) q)
        (.inl (v.enter_trace t api startTick))
  | created t spec Q hbuild =>
      have hne : q ≠ v.nextQueue := Nat.ne_of_lt hq
      exact .quiet (by simp [View.addQueue, hne]) (.inl rfl)
  | deleted t p hlive =>
      by_cases hp : p = q
      · subst hp
        exact .deleted t rfl
      · exact .quiet (by simp [View.setQueue, Ne.symm hp]) (.inl rfl)
  | spawned => exact .quiet rfl (.inl rfl)
  | exited => exact .quiet rfl (.inl rfl)
  | reaped =>
      unfold View.reap
      split <;> exact .quiet rfl (.inl rfl)

theorem Stepped.nextQueue_le {v v' : View α} {act : Act α} (hstep : Stepped v act v') :
    v.nextQueue ≤ v'.nextQueue := by
  cases hstep with
  | ran hframe hran => exact Nat.le_of_eq hran.nextQueue.symm
  | called t api startTick hframe =>
      exact Nat.le_of_eq (v.enter_nextQueue t api startTick).symm
  | created => exact Nat.le_succ _
  | reaped =>
      unfold View.reap
      split <;> exact Nat.le_refl _
  | _ => exact Nat.le_refl _

/-! ## Runs -/

/-- The queue is used through the given entry points only, and not deleted. -/
def Act.uses (q : QueueId) (allowed : Api α → Prop) (k : State α) (act : Act α) : Prop :=
  act.valid k ∧ (∀ t, act ≠ .delete t q) ∧
    ∀ t api, act = .call t api → api.target = some q → allowed api

/-- A state in which the queue has only been used through the given entry points,
and its contents and history obey a law. -/
structure QueueRun (k : State α) (q : QueueId) (allowed : Api α → Prop)
    (law : Contents α → List (Event α) → Prop) : Prop where
  kernel : KernelInv k
  created : q < k.nextQueue
  calls : Calls k.view fun p api => p = q → allowed api
  law : law (k.view.queue q) k.view.trace

theorem State.step_create {k k' : State α} {t : TaskId} {spec : NewQueue} {Q : Queue α}
    (hstep : k.step (.create t spec) = some k') (hbuild : spec.build = some Q) :
    k' = (k.switchTo t).addQueue Q := by
  unfold step at hstep
  simp only [Act.actor] at hstep
  split at hstep
  next =>
    split at hstep
    next => simp_all
    next => simp at hstep
    next =>
      simp only [perform, hbuild, Option.some.injEq] at hstep
      exact hstep.symm
  next => simp at hstep

theorem State.step_run {k k' : State α} {t : TaskId} {f : Frame α}
    (hframe : (k.task t).frame = some f) (hstep : k.step (.run t) = some k') :
    k' = (k.switchTo t).runFrame t f := by
  unfold step at hstep
  simp only [Act.actor, hframe] at hstep
  split at hstep
  · exact (Option.some.inj hstep).symm
  · simp at hstep

theorem State.step_run_ran {k k' : State α} {t : TaskId}
    (hstep : k.step (.run t) = some k') :
    ∃ f, (k.task t).frame = some f ∧ Ran k.view t f k'.view := by
  cases hframe : (k.task t).frame with
  | none =>
      unfold step at hstep
      simp only [Act.actor, hframe, perform] at hstep
      split at hstep <;> simp at hstep
  | some f =>
      have hk' := step_run hframe hstep
      refine ⟨f, rfl, ?_⟩
      rw [hk']
      exact ran_runFrame (k := k.switchTo t) (t := t) rfl

/-- A call that may not wait and finds nothing to do fails, and changes no queue. -/
theorem State.runFrame_fail {k : State α} {t : TaskId} {f : Frame α} (hpc : f.pc = .attempt)
    (hlive : (k.queue f.xQueue).live) (hready : ¬ f.op.ready (k.view.queue f.xQueue))
    (hticks : f.xTicksToWait = 0) :
    k.runFrame t f = (k.retried t f.waitList).complete t f .fail := by
  have hattempt : k.attempt t f = k.failOrWait t f := by
    unfold attempt
    split
    next item hop =>
      rw [hop] at hready
      unfold xQueueGenericSend
      exact if_neg hready
    next hop =>
      rw [hop] at hready
      unfold xQueueReceive
      exact if_neg hready
    next hop =>
      rw [hop] at hready
      unfold xQueueSemaphoreTake
      exact if_neg hready
  have hrun : k.runFrame t f = k.attempt t f := by
    simp [runFrame, hpc, Pc.touchesQueue, hlive]
  rw [hrun, hattempt, failOrWait]
  exact if_pos hticks

/-- The item a completed operation hands to its caller. -/
def Op.answer : Op α → Contents α → Option α
  | receive, C => C.front
  | _, _ => none

/-- A call that finds something to do on a queue that exists succeeds. -/
theorem Ran.attempt_pass {v v' : View α} {t : TaskId} {f : Frame α} (hran : Ran v t f v')
    (hpc : f.pc = .attempt) (hlive : (v.queue f.xQueue).live)
    (hmutex : (v.queue f.xQueue).isMutex = false) (hready : f.op.ready (v.queue f.xQueue)) :
    v'.frame t = some { f with pc := .leave (.pass (f.op.answer (v.queue f.xQueue))) } := by
  cases hran with
  | halted fault hfaults =>
      cases hfaults with
      | freed hpc' hdead => simp [hlive] at hdead
      | asserted hpc' => simp [hpc] at hpc'
      | notHolder hpc' hmutex' => simp [hmutex] at hmutex'
  | entered hpc' => simp [hpc] at hpc'
  | waits _ _ _ hnot => exact absurd hready hnot
  | moved f' hpc' => simp [hpc, Pc.looping] at hpc'
  | gaveUp _ _ hnot => exact absurd hready hnot
  | timedOut hpc' => simp [hpc, Pc.looping] at hpc'
  | sent item _ hop => simp [View.complete, View.setFrame, hop, Op.answer]
  | received _ hop => simp [View.complete, View.setFrame, hop, Op.answer]
  | taken _ hop => simp [View.complete, View.setFrame, hop, Op.answer]
  | left res elapsed hpc' => simp [hpc] at hpc'

/-- A step that ends with a failed operation changes the contents of no queue. -/
theorem Ran.fail_queue {v v' : View α} {t : TaskId} {f : Frame α} (hran : Ran v t f v')
    (hf : f.WellFormed) {api : Api α} (htrace : v'.trace = v.trace ++ [⟨t, api, .fail⟩])
    (q : QueueId) : v'.queue q = v.queue q := by
  cases hran.queueStep hf q with
  | quiet hqueue => exact hqueue
  | deleted u hact => simp at hact
  | failed u api' htarget hqueue => exact hqueue
  | sent u api' item n hrequest hspace hqueue htrace' => simp [htrace'] at htrace
  | received u api' n hrequest hcount hqueue htrace' => simp [htrace'] at htrace
  | taken u api' n hrequest hcount hqueue htrace' => simp [htrace'] at htrace

/-- The last step of a call returns what its entry point makes of the result. -/
theorem State.step_leave {k k' : State α} {t : TaskId} {f : Frame α} {res : QueueResult α}
    (hframe : (k.task t).frame = some f) (hpc : f.pc = .leave res)
    (hstep : k.step (.run t) = some k') :
    ∃ elapsed, (k'.task t).ret = some (f.api.result res elapsed) := by
  have hk' : k' = (k.switchTo t).leave t f res := by
    rw [step_run hframe hstep]
    simp [runFrame, hpc, Pc.touchesQueue]
  have hret (v : View α) (ret : Ret α) : (v.leave t f.api res ret).ret t = some ret := by
    unfold View.leave
    cases f.api.locks <;> cases res <;> simp [View.setRet, View.setFrame]
  have hview := (view_leave res : ((k.switchTo t).leave t f res).view = _)
  rw [← hk'] at hview
  exact ⟨_, (congrArg (fun v => View.ret v t) hview).trans (hret _ _)⟩

/-- The law of a queue is kept by everything that may happen to it. -/
def Keeps (q : QueueId) (allowed : Api α → Prop)
    (law : Contents α → List (Event α) → Prop) : Prop :=
  ∀ (v : View α) act v', law (v.queue q) v.trace → (∀ t, act ≠ .delete t q) →
    (∀ e ∈ v'.trace, e.api.target = some q → allowed e.api) →
    QueueStep v act v' q → law (v'.queue q) v'.trace

theorem Booted.create {k k' : State α} {t : TaskId} {spec : NewQueue} (hbooted : Booted k)
    (hcreate : k.step (.create t spec) = some k') : Booted k' := by
  refine hbooted.step ?_ hcreate
  trivial

namespace QueueRun

variable {k k₀ k₁ k' : State α} {q : QueueId} {allowed : Api α → Prop}
  {law : Contents α → List (Event α) → Prop} {act : Act α}

theorem step (hrun : QueueRun k q allowed law) (hkeep : Keeps q allowed law)
    (hok : act.uses q allowed k) (hstep : k.step act = some k') : QueueRun k' q allowed law := by
  obtain ⟨hvalid, hdelete, huse⟩ := hok
  have hstepped := State.stepped_step hstep
  have hcalls : Calls k'.view fun p api => p = q → allowed api := by
    refine hrun.calls.step ?_ hstepped
    rintro t api rfl p hp
    exact ⟨hvalid.2 p hp, fun hpq => huse t api rfl (hpq ▸ hp)⟩
  refine ⟨hrun.kernel.step hvalid.unsuspended hstep, ?_, hcalls, ?_⟩
  · have hle : k.view.nextQueue ≤ k'.view.nextQueue := hstepped.nextQueue_le
    exact Nat.lt_of_lt_of_le hrun.created hle
  · exact hkeep k.view act k'.view hrun.law hdelete
      (fun e he htarget => (hcalls.traced e he q htarget).2 rfl)
      (hrun.calls.queueStep hstepped hrun.created)

theorem booted (hbooted : Booted k₀) {t : TaskId} {spec : NewQueue}
    (hcreate : k₀.step (.create t spec) = some k₁)
    (hreach : Lib.Reach State.step (Act.uses q allowed) k₁ k) : Booted k :=
  hreach.invariant Booted (hbooted.create hcreate) fun _ _ _ hbooted hok hstep =>
    hbooted.step hok.1 hstep

/-- A law that holds of the created queue and is kept by its operations holds in
every run. -/
theorem reach (hbooted : Booted k₀) {t : TaskId} {spec : NewQueue} {Q : Queue α}
    (hcreate : k₀.step (.create t spec) = some k₁) (hbuild : spec.build = some Q)
    (hinit : ∀ trace : List (Event α), (∀ e ∈ trace, e.api.target ≠ some k₀.nextQueue) →
      law Q.contents trace)
    (hkeep : Keeps k₀.nextQueue allowed law)
    (hreach : Lib.Reach State.step (Act.uses k₀.nextQueue allowed) k₁ k) :
    QueueRun k k₀.nextQueue allowed law := by
  -- a step that is about another queue is quiet for this one
  refine hreach.invariant (fun k => QueueRun k k₀.nextQueue allowed law) ?_
    fun k act k' hrun hok hstep => hrun.step hkeep hok hstep
  have hbooted' := hbooted.create hcreate
  have hk₁ := State.step_create hcreate hbuild
  have hfresh : ∀ e ∈ k₀.trace, e.api.target ≠ some k₀.nextQueue := by
    intro e he htarget
    exact Nat.lt_irrefl _ (hbooted.calls.traced e he _ htarget).1
  have hcalls := hbooted.calls
  subst hk₁
  refine ⟨hbooted'.inv, Nat.lt_succ_self _, ?_, ?_⟩
  · refine ⟨hcalls.wellFormed, fun u f hf => Nat.lt_succ_of_lt (hcalls.created u f hf),
      fun u f hf hq => ?_, fun e he p hp => ?_⟩
    · exact absurd hq (Nat.ne_of_lt (hcalls.created u f hf))
    · refine ⟨Nat.lt_succ_of_lt (hcalls.traced e he p hp).1, fun hpq => ?_⟩
      exact absurd (hpq ▸ hp) (hfresh e he)
  · rw [State.view_addQueue]
    simpa [View.addQueue, State.view, State.switchTo] using hinit k₀.trace hfresh

end QueueRun

end SimulatedLinux.Kernel
