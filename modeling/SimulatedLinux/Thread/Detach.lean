import SimulatedLinux.Kernel.OneQueue
import SimulatedLinux.Thread.Mutex

/-! # Joining a detached thread

`pthread_join` never looks at `t->detached`. It waits for the semaphore, which the exit
of a detached thread deletes instead of giving it. Nothing is assumed here of how the
application uses its handles.
-/

namespace SimulatedLinux.Kernel

variable {α : Type}

/-- The step after which a call is back. -/
theorem Ran.back {v v' : View α} {t : TaskId} {f : Frame α} (hran : Ran v t f v')
    (hframe : v.frame t = some f) (hback : v'.frame t = none) :
    ∃ res elapsed, f.pc = .leave res ∧ v' = v.leave t f.api res (f.api.result res elapsed) := by
  cases hran with
  | left res elapsed hpc => exact ⟨res, elapsed, hpc, rfl⟩
  | halted => simp [hframe] at hback
  | _ => simp [View.setFrame, View.complete] at hback

/-- The call of another task has no effect on what a task was told last. -/
theorem Stepped.ret_others {v v' : View α} {act : Act α} (hstepped : Stepped v act v') {u : TaskId}
    (hactor : act.actor ≠ some u) (hborn : u < v.nextTask) : v'.ret u = v.ret u := by
  cases hstepped with
  | @ran t f v' hframe hran =>
      have hne : u ≠ t := fun heq => hactor (by rw [heq]; rfl)
      cases hran with
      | sent =>
          simp only [View.complete, View.setFrame, View.setQueue, View.released]
          split <;> rfl
      | taken =>
          simp only [View.complete, View.setFrame, View.setQueue, View.acquired]
          split <;> rfl
      | left res elapsed hpc =>
          unfold View.leave
          split <;> simp [View.setRet, View.setFrame, hne]
      | _ => rfl
  | called t api startTick =>
      have hne : u ≠ t := fun heq => hactor (by rw [heq]; rfl)
      unfold View.enter
      cases api.unlocks <;> cases api.request <;> simp [View.setRet, View.setFrame, hne]
  | spawned => exact Function.update_of_ne (Nat.ne_of_lt hborn) ..
  | reaped t =>
      unfold View.reap
      split <;> rfl
  | _ => rfl

/-- A deleted queue stays deleted. -/
theorem Stepped.dead {v v' : View α} {act : Act α} (hstepped : Stepped v act v') {q : QueueId}
    (hborn : q < v.nextQueue) (hdead : (v.queue q).live = false) : (v'.queue q).live = false := by
  by_cases hremakes : act.remakes v.nextQueue = some q
  · cases hstepped with
    | created t spec Q => exact absurd (Option.some.inj hremakes) (Nat.ne_of_gt hborn)
    | deleted t q' hlive =>
        obtain rfl : q' = q := Option.some.inj hremakes
        rw [hdead] at hlive
        cases hlive
    | freed => exact hdead
    | asserted => exact hdead
    | scheduled => exact hdead
    | _ => cases hremakes
  · exact (hstepped.live hremakes).trans hdead

/-- A call waits for ever for a semaphore, and has not got it yet. -/
structure Frame.Awaits (f : Frame α) (q : QueueId) : Prop where
  wellFormed : f.WellFormed
  api : f.api = .xSemaphoreTake q portMaxDelay
  pending : ∀ res, f.pc ≠ .leave res

/-- A call on a deleted semaphore goes on waiting. -/
theorem Ran.awaits {v v' : View α} {t : TaskId} {f : Frame α} {q : QueueId} (hran : Ran v t f v')
    (hframe : v.frame t = some f) (hawaits : f.Awaits q) (hdead : (v.queue q).live = false) :
    ∃ f', v'.frame t = some f' ∧ f'.Awaits q := by
  obtain ⟨n, hrequest, -, hforever⟩ := hawaits.wellFormed
  simp only [hawaits.api, Api.request, Option.some.injEq, Prod.mk.injEq] at hrequest
  obtain ⟨hop, hq, rfl⟩ := hrequest
  obtain ⟨hpatient, -⟩ := hforever rfl
  have hkept {f' : Frame α} (hframe' : v'.frame t = some f')
      (hpending : ∀ res, f'.pc ≠ .leave res) : ∃ f', v'.frame t = some f' ∧ f'.Awaits q := by
    obtain ⟨hwell, hapi, -⟩ := hran.wellFormed hframe hawaits.wellFormed hframe'
    exact ⟨f', hframe', hwell, hapi.trans hawaits.api, hpending⟩
  have hlive : ¬ (v.queue f.xQueue).live := by
    rw [← hq, hdead]
    exact Bool.false_ne_true
  cases hran with
  | halted => exact hkept hframe hawaits.pending
  | entered => exact hkept (Function.update_self ..) (by simp)
  | waits => exact hkept (Function.update_self ..) (by simp)
  | moved frame' hpc hpc' =>
      refine hkept (Function.update_self ..) fun res hleave => ?_
      simp [hleave, Pc.looping] at hpc'
  | gaveUp hpc hticks => simp [hpatient.1, portMaxDelay, tickModulus] at hticks
  | timedOut hpc hnot => exact absurd hpatient hnot
  | sent _ _ _ hlive' => exact absurd hlive' hlive
  | received _ _ hlive' => exact absurd hlive' hlive
  | taken _ _ hlive' => exact absurd hlive' hlive
  | left res elapsed hpc => exact absurd hpc (hawaits.pending res)

end SimulatedLinux.Kernel

namespace SimulatedLinux.Thread

open Kernel Heap

variable {α : Type}

namespace Sys

variable {s s' : Sys α} {j : TaskId} {h : ThreadId} {retval : Bool} {sizes : Sizes} {act : Act α}

/-- The take of `pthread_join` is in progress, or has got the semaphore. -/
def Taking (s : Sys α) (j : TaskId) : Prop :=
  match s.frame j with
  | some f => f.WellFormed ∧ ∃ q, f.api = .xSemaphoreTake q portMaxDelay
  | none => (s.kern.task j).ret = some (.base true)

/-- Task `j` is inside `pthread_join(h)`. -/
structure Joining (s : Sys α) (j : TaskId) (h : ThreadId) (retval : Bool) : Prop where
  born : j < s.kern.nextTask
  inside : ∃ pc, s.pc j = .join h retval pc ∧ (pc = .taken → s.Taking j)

/-- `pthread_join` has returned 0. -/
def ReturnedZero (s : Sys α) (j : TaskId) : Prop := s.pc j = .app ∧ (s.info j).ret = some (.int 0)

theorem step_born (hstep : s.step sizes act = some s') (hborn : j < s.kern.nextTask) :
    j < s'.kern.nextTask := by
  rcases step_kern hstep with ⟨t, -, hswitch⟩ | ⟨a, -, hk⟩
  · rw [hswitch]
    exact hborn
  · rcases (State.stepped_step hk).nextTask_cases with hsame | ⟨-, hadd⟩
    · have hsame' : s'.kern.nextTask = s.kern.nextTask := hsame
      rw [hsame']
      exact hborn
    · have hnext : s'.kern.nextTask = s.kern.nextTask + 1 := congrArg View.nextTask hadd
      rw [hnext]
      exact Nat.lt_succ_of_lt hborn

/-- A step of another task. -/
theorem Taking.others (htaking : s.Taking j) (hborn : j < s.kern.nextTask) (hne : act.task ≠ some j)
    (hstep : s.step sizes act = some s') : s'.Taking j := by
  have hret : (s'.kern.task j).ret = (s.kern.task j).ret := by
    rcases step_kern hstep with ⟨t, -, hswitch⟩ | ⟨a, hasks, hk⟩
    · rw [hswitch]
      rfl
    · exact (State.stepped_step hk).ret_others (hasks.actor ▸ hne) hborn
  unfold Taking at htaking ⊢
  rw [(step_others hborn hne hstep).frame, hret]
  exact htaking

/-- A step of the take itself. -/
theorem Taking.run {f : Frame α} {k : State α} (htaking : s.Taking j) (hframe : s.frame j = some f)
    (hk : s.kern.step (.run j) = some k) : Taking { s with kern := k } j := by
  have hran : Ran s.kern.view j f k.view := by
    rw [State.step_inside hframe rfl hk]
    exact State.ran_runFrame (show (s.kern.switchTo j).pxCurrentTCB = j from rfl)
  simp only [Taking, hframe] at htaking
  obtain ⟨hwell, q, hapi⟩ := htaking
  unfold Taking
  cases hframe' : k.view.frame j with
  | some f' =>
      obtain ⟨hwell', hapi', -⟩ := hran.wellFormed hframe hwell hframe'
      simp only [Sys.frame, ← State.view_frame, hframe']
      exact ⟨hwell', q, hapi'.trans hapi⟩
  | none =>
      obtain ⟨res, elapsed, hpc, hview⟩ := hran.back hframe hframe'
      have hret : k.view.ret j = some (f.api.result res elapsed) := by
        rw [hview]
        unfold View.leave
        split <;> simp [View.setRet]
      simp only [Sys.frame, ← State.view_frame, hframe']
      refine hret.trans ?_
      cases res with
      | pass item => rw [hapi]; rfl
      | fail =>
          -- a take that may wait for ever does not fail
          obtain ⟨n, hrequest, -, hforever⟩ := hwell
          simp only [hapi, Api.request, Option.some.injEq, Prod.mk.injEq] at hrequest
          exact absurd hpc (hforever hrequest.2.2.symm).2

/-- The call that begins the take. -/
theorem taking_sem (hframe : s.frame j = none) {q : QueueId}
    (hk : s.kern.step (.call j (.xSemaphoreTake q portMaxDelay)) = some s'.kern) : s'.Taking j := by
  have hentered := State.step_call hframe hk
  unfold Taking Sys.frame
  rw [hentered]
  simp only [State.enter, Api.unlocks, Api.request, State.modTask, Function.update_self]
  exact ⟨⟨portMaxDelay, rfl, fun hzero => absurd hzero (by decide), fun _ => ⟨⟨rfl, rfl⟩, by simp⟩⟩,
    q, rfl⟩

/-- A step of `pthread_join` outside of the take. -/
theorem joining_advance {pc : JoinPc} (hborn : j < s'.kern.nextTask)
    (htaking : pc = .taken → s.Taking j) (hframe : s.frame j = none)
    (hpc : s.pc j = .join h retval pc) (hstep : (s.switchTo j).join j h retval pc = some s')
    (hrun : s.kern.canRun j) :
    s'.Joining j h retval ∨ s'.ReturnedZero j := by
  cases pc with
  | sem =>
      refine .inl ⟨hborn, ?_⟩
      refine readSem_elim (s := s.switchTo j)
        (motive := fun s' => ∃ pc, s'.pc j = .join h retval pc ∧ (pc = .taken → s'.Taking j))
        (fun _ => ⟨.sem, hpc, by simp⟩) (fun q s' hs' => ?_) hstep
      obtain ⟨k, hk, ⟨-, rfl⟩ | ⟨-, rfl⟩⟩ := kernel_cases hs'
      · rw [switchTo, State.step_switchTo hrun rfl] at hk
        refine ⟨.taken, by simp [Sys.pc, goto, modInfo], fun _ => taking_sem hframe hk⟩
      · exact ⟨.sem, hpc, by simp⟩
  | taken =>
      have hret := htaking rfl
      simp only [Taking, hframe] at hret
      simp only [join, switchTo, State.switchTo, hret] at hstep
      cases hstep
      exact .inl ⟨hborn, .retval, by simp [Sys.pc, goto, modInfo], by simp⟩
  | _ =>
      cases join_moves hstep with
      | stays hsame => exact .inl ⟨hborn, _, hsame.trans hpc, by simp⟩
      | next pc' hnext hpc' =>
          refine .inl ⟨hborn, pc', hpc', fun htaken => ?_⟩
          subst htaken
          cases hnext
      | failed htaken => cases htaken
      | returns value _ happ hret => exact .inr ⟨happ, hret⟩

/-- A step while the call is in progress: it goes on, or it returns 0. -/
theorem Joining.step (hjoining : s.Joining j h retval) (hstep : s.step sizes act = some s') :
    s'.Joining j h retval ∨ s'.ReturnedZero j := by
  have hborn' := step_born hstep hjoining.born
  obtain ⟨pc, hpc, htaking⟩ := hjoining.inside
  by_cases htask : act.task = some j
  · rcases step_cases hstep with ⟨a, k, hk, rfl, ⟨rfl, rfl⟩ | ⟨t, f, rfl, rfl, hframe⟩⟩ |
      ⟨t, c, rfl, -, -, happ, -, -⟩ | ⟨t, rfl, hrun, hframe, hadvance⟩
    · cases htask
    · obtain rfl : t = j := Option.some.inj htask
      exact .inl ⟨hborn', pc, hpc, fun htaken => (htaking htaken).run hframe hk⟩
    · obtain rfl : t = j := Option.some.inj htask
      rw [hpc] at happ
      cases happ
    · obtain rfl : t = j := Option.some.inj htask
      rw [hpc] at hadvance
      exact joining_advance hborn' htaking hframe hpc hadvance hrun
  · have hsame := step_others hjoining.born htask hstep
    exact .inl ⟨hborn', pc, hsame.pc.trans hpc, fun htaken =>
        (htaking htaken).others hjoining.born htask hstep⟩

/-- Task `j` waits in `pthread_join(h)` for a semaphore that has been deleted. -/
structure Stranded (s : Sys α) (j : TaskId) (h : ThreadId) (q : QueueId) : Prop where
  born : j < s.kern.nextTask
  inside : (s.pc j).joins = some h
  awaits : ∃ f, s.frame j = some f ∧ f.Awaits q
  made : q < s.kern.nextQueue
  deleted : (s.kern.queue q).live = false

/-- Nothing that happens brings the call back. -/
theorem Stranded.step {q : QueueId} (hstranded : s.Stranded j h q)
    (hstep : s.step sizes act = some s') :
    s'.Stranded j h q := by
  have hborn' := step_born hstep hstranded.born
  have hqueue : q < s'.kern.nextQueue ∧ (s'.kern.queue q).live = false := by
    rcases step_kern hstep with ⟨t, -, hswitch⟩ | ⟨a, -, hk⟩
    · rw [hswitch]
      exact ⟨hstranded.made, hstranded.deleted⟩
    · have hstepped := State.stepped_step hk
      exact ⟨Nat.lt_of_lt_of_le hstranded.made hstepped.nextQueue_le,
        hstepped.dead hstranded.made hstranded.deleted⟩
  obtain ⟨f, hframe, hawaits⟩ := hstranded.awaits
  by_cases htask : act.task = some j
  · have hsome : s.frame j ≠ none := by
      rw [hframe]
      simp
    rcases step_cases hstep with ⟨a, k, hk, rfl, ⟨rfl, rfl⟩ | ⟨t, f', rfl, rfl, -⟩⟩ |
      ⟨t, c, rfl, -, hnone, -, -, -⟩ | ⟨t, rfl, -, hnone, -⟩
    · cases htask
    · obtain rfl : t = j := Option.some.inj htask
      have hran : Ran s.kern.view t f k.view := by
        rw [State.step_inside hframe rfl hk]
        exact State.ran_runFrame (show (s.kern.switchTo t).pxCurrentTCB = t from rfl)
      exact ⟨hborn', hstranded.inside, hran.awaits hframe hawaits hstranded.deleted, hqueue.1,
        hqueue.2⟩
    · obtain rfl : t = j := Option.some.inj htask
      exact absurd hnone hsome
    · obtain rfl : t = j := Option.some.inj htask
      exact absurd hnone hsome
  · have hsame := step_others hstranded.born htask hstep
    refine ⟨hborn', ?_, ⟨f, hsame.frame.trans hframe, hawaits⟩, hqueue.1, hqueue.2⟩
    rw [hsame.pc]
    exact hstranded.inside

/-- The states that are reached while task `j` is inside the join it has entered in `s₁`, up to its
return. -/
def JoinRun (sizes : Sizes) (j : TaskId) (s₁ s : Sys α) : Prop :=
  Lib.Reach (Sys.step sizes) (fun s _ => (s.pc j).joins.isSome) s₁ s

/-- There is a run in which the join returns -1. -/
def Refuses (sizes : Sizes) (j : TaskId) (s₁ : Sys α) : Prop :=
  ∃ s', JoinRun sizes j s₁ s' ∧ s'.pc j = .app ∧ (s'.info j).ret = some (.int (-1))

/-- A join that has been entered goes on, or has returned 0. -/
theorem JoinRun.joining {s₁ : Sys α} (hrun : JoinRun sizes j s₁ s)
    (hentered : s₁.Joining j h retval) :
    s.Joining j h retval ∨ s.ReturnedZero j := by
  -- the joiner is inside its call, or it has returned with 0
  refine hrun.invariant (fun s => s.Joining j h retval ∨ s.ReturnedZero j) (.inl hentered) ?_
  rintro s act s' (hjoining | hreturned) hinside hstep
  · exact hjoining.step hstep
  · simp [hreturned.1, Pc.joins] at hinside

theorem joining_entered (hborn : j < s.kern.nextTask)
    (hcall : s.step sizes (.call j (.pthreadJoin (some h) retval)) = some s') :
    s'.Joining j h retval := by
  refine ⟨step_born hcall hborn, .sem, ?_, by simp⟩
  rcases step_cases hcall with ⟨a, k, hk, rfl, ⟨rfl, hact⟩ | ⟨t, f, rfl, hact, hframe⟩⟩ |
    ⟨t, c, hact, -, -, -, -, hbegin⟩ | ⟨t, hact, -, -, -⟩
  · cases hact
  · cases hact
  · cases hact
    cases hbegin
    simp [Sys.pc, goto, modInfo, modPast]
  · cases hact

end Sys

variable {sizes : Sizes} {s s₁ : Sys α} {j : TaskId} {h : ThreadId} {retval : Bool}

/-- No join is refused, whether its target is detached or not: there is no run in which it returns
-1. Once the semaphore that it waits for has been deleted, it never returns. -/
theorem join_never_refused (hborn : j < s.kern.nextTask)
    (hcall : s.step sizes (.call j (.pthreadJoin (some h) retval)) = some s₁) :
    ¬ Sys.Refuses sizes j s₁ ∧
      ∀ s' q, Sys.JoinRun sizes j s₁ s' → s'.pc j ≠ .app → (∃ f, s'.frame j = some f ∧ f.Awaits q) →
        q < s'.kern.nextQueue → (s'.kern.queue q).live = false →
        ∀ s'', Lib.Reach (Sys.step sizes) (fun _ _ => True) s' s'' → (s''.pc j).joins = some h := by
  have hentered := Sys.joining_entered hborn hcall
  constructor
  · rintro ⟨s', hrun, happ, hret⟩
    rcases hrun.joining hentered with hjoining | hreturned
    · obtain ⟨pc, hpc, -⟩ := hjoining.inside
      rw [happ] at hpc
      cases hpc
    · rw [hreturned.2] at hret
      cases hret
  · intro s' q hrun hinside hawaits hmade hdeleted s'' hreach
    have hstranded : s'.Stranded j h q := by
      rcases hrun.joining hentered with hjoining | hreturned
      · obtain ⟨pc, hpc, -⟩ := hjoining.inside
        exact ⟨hjoining.born, by rw [hpc]; rfl, hawaits, hmade, hdeleted⟩
      · exact absurd hreturned.1 hinside
    exact (hreach.invariant (fun s => s.Stranded j h q) hstranded fun _ _ _ hstranded _ hstep =>
      hstranded.step hstep).inside

/-- The main task joins thread 0, which it has detached, and is blocked when the thread exits. -/
def detachedJoin : Option (Sys Unit × Sys Unit × Sys Unit) :=
  (demoRun (fun _ _ => true)
      (createSchedule 1 1 ++ [.call 1 (.pthreadDetach (some 0)), .run 1])).bind fun s =>
    (s.step demoSizes (.call 1 (.pthreadJoin (some 0) true))).bind fun s₁ =>
      (Lib.execute (Sys.step demoSizes) (fun s _ => (s.pc 1).joins.isSome) s₁
        (List.replicate 11 (.run 1) ++ [.run 2, .run 2, .call 2 (.pthreadExit 7)] ++
          List.replicate 8 (.run 2))).map
        fun s' => (s, s₁, s')

/-- The three states of the run above. -/
theorem detachedJoin_run {s s₁ s' : Sys Unit} (hsome : detachedJoin = some (s, s₁, s')) :
    (∃ s₀, Sys.boot demoSizes demoHeap 1 400 = some s₀ ∧
      Lib.Reach (Sys.step demoSizes) (fun _ _ => True) s₀ s) ∧
      s.step demoSizes (.call 1 (.pthreadJoin (some 0) true)) = some s₁ ∧
      Sys.JoinRun demoSizes 1 s₁ s' := by
  obtain ⟨t, ht, hsome⟩ := Option.bind_eq_some_iff.mp hsome
  obtain ⟨t₁, hcall, hsome⟩ := Option.bind_eq_some_iff.mp hsome
  obtain ⟨t', hrun, heq⟩ := Option.map_eq_some_iff.mp hsome
  obtain ⟨rfl, rfl, rfl⟩ : t = s ∧ t₁ = s₁ ∧ t' = s' := by simpa only [Prod.mk.injEq] using heq
  exact ⟨demoRun_reach (fun _ _ _ => trivial) ht, hcall,
    Lib.execute_reach (fun _ _ hcheck => hcheck) _ hrun⟩

/-- The thread has ended and freed what was its own, and its joiner is blocked on the deleted
semaphore. -/
theorem detached_join_stranded : ∃ s s₁ s' : Sys Unit,
    (∃ s₀, Sys.boot demoSizes demoHeap 1 400 = some s₀ ∧
      Lib.Reach (Sys.step demoSizes) (fun _ _ => True) s₀ s) ∧
    ((s.desc 0).live ∧ (s.desc 0).detached ∧ (s.past 0).task = some 2) ∧
    s.step demoSizes (.call 1 (.pthreadJoin (some 0) true)) = some s₁ ∧
      Sys.JoinRun demoSizes 1 s₁ s' ∧
    s'.pc 2 = .dead ∧ (s'.past 0).selfFreed ∧ s'.pc 1 = .join 0 true .taken ∧
    (s'.kern.task 1).xStateList = .suspended ∧ (s'.kern.queue 0).live = false := by
  have hend : detachedJoin.map (fun (s, _, s') => decide
      (((s.desc 0).live ∧ (s.desc 0).detached ∧ (s.past 0).task = some 2) ∧
        s'.pc 2 = .dead ∧ (s'.past 0).selfFreed ∧ s'.pc 1 = .join 0 true .taken ∧
        (s'.kern.task 1).xStateList = .suspended ∧
        (s'.kern.queue 0).live = false)) = some true := by
    decide +kernel
  obtain ⟨⟨s, s₁, s'⟩, hsome, hend⟩ := Option.map_eq_some_iff.mp hend
  obtain ⟨hbefore, hafter⟩ := of_decide_eq_true hend
  obtain ⟨hboot, hcall, hrun⟩ := detachedJoin_run hsome
  exact ⟨s, s₁, s', hboot, hbefore, hcall, hrun, hafter⟩

/-- The call waits for semaphore `q`. -/
def awaitsCheck (f : Frame Unit) (q : QueueId) : Bool :=
  pending (some f) &&
    match f.api with
    | .xSemaphoreTake sem xTicksToWait => sem = q && xTicksToWait = portMaxDelay
    | _ => false

theorem awaitsCheck_awaits {f : Frame Unit} {q : QueueId} (hwell : f.WellFormed)
    (hcheck : awaitsCheck f q) :
    f.Awaits q := by
  simp only [awaitsCheck, Bool.and_eq_true] at hcheck
  obtain ⟨hpending, hapi⟩ := hcheck
  refine ⟨hwell, ?_, fun res hpc => by simp [pending, hpc] at hpending⟩
  split at hapi
  next sem xTicksToWait hcall =>
    simp only [Bool.and_eq_true, decide_eq_true_eq] at hapi
    rw [hcall, hapi.1, hapi.2]
  · cases hapi

/-- The theorem at the join above, which never comes back. -/
theorem join_never_refused_detached : ∃ s s₁ s' : Sys Unit, detachedJoin = some (s, s₁, s') ∧
    ¬ Sys.Refuses demoSizes 1 s₁ ∧
    ∀ s'', Lib.Reach (Sys.step demoSizes) (fun _ _ => True) s' s'' → (s''.pc 1).joins = some 0 := by
  have hend : detachedJoin.map (fun (s, _, s') => decide
      (1 < s.kern.nextTask ∧ s'.pc 1 = .join 0 true .taken ∧ (s'.frame 1).any (awaitsCheck · 0) ∧
        0 < s'.kern.nextQueue ∧ (s'.kern.queue 0).live = false)) = some true := by
    decide +kernel
  obtain ⟨⟨s, s₁, s'⟩, hsome, hend⟩ := Option.map_eq_some_iff.mp hend
  obtain ⟨hborn, hpc, hcheck, hmade, hdeleted⟩ := of_decide_eq_true hend
  obtain ⟨-, hcall, hrun⟩ := detachedJoin_run hsome
  obtain ⟨hrefused, hstranded⟩ := join_never_refused hborn hcall
  refine ⟨s, s₁, s', hsome, hrefused, hstranded s' 0 hrun (by simp [hpc]) ?_ hmade hdeleted⟩
  obtain ⟨f, hframe, hcheck⟩ := (Option.any_eq_true _ _).mp hcheck
  refine ⟨f, hframe, awaitsCheck_awaits ?_ hcheck⟩
  rcases hrun.joining (Sys.joining_entered hborn hcall) with hjoining | hreturned
  · obtain ⟨pc, hpc', htaking⟩ := hjoining.inside
    rw [hpc] at hpc'
    cases hpc'
    have htaking := htaking rfl
    simp only [Sys.Taking, hframe] at htaking
    exact htaking.1
  · have happ := hreturned.1
    rw [hpc] at happ
    cases happ

end SimulatedLinux.Thread
