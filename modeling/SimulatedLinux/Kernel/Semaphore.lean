import SimulatedLinux.Kernel.Listing

/-! # Counting semaphores

A semaphore of `sem_init` or `sys_sem_new` is a queue of 65535 items of size zero.
Its count is the initial value plus the posts that succeeded minus the waits that
did, in every interleaving, and no permit sits unused beside a sleeping waiter.
-/

namespace SimulatedLinux.Kernel

variable {α : Type}

/-- `xSemaphoreCreateCounting` is called with this `uxMaxCount`. -/
def maxCount : Nat := 65535

namespace Api

/-- The semaphore a call posts to. -/
def posts : Api α → Option QueueId
  | semPost sem | sysSemSignal sem => sem
  | _ => none

/-- The semaphore a call waits for. -/
def waits : Api α → Option QueueId
  | semWait sem => sem
  | sysArchSemWait sem _ => some sem
  | _ => none

theorem target_of_posts {api : Api α} {q : QueueId} (hposts : api.posts = some q) :
    api.request = some (.genericSend none, q, 0) := by
  cases api <;> simp_all [posts, request]

theorem target_of_waits {api : Api α} {q : QueueId} (hwaits : api.waits = some q) :
    ∃ n, api.request = some (.semaphoreTake, q, n) := by
  cases api <;> simp_all [waits, request]

end Api

namespace Event

/-- A post to the semaphore that succeeded. -/
def posted (q : QueueId) (e : Event α) : Bool :=
  match e.result with
  | .pass _ => e.api.posts = some q
  | .fail => false

/-- A wait for the semaphore that succeeded. -/
def waited (q : QueueId) (e : Event α) : Bool :=
  match e.result with
  | .pass _ => e.api.waits = some q
  | .fail => false

end Event

/-- The entry points of a semaphore. -/
def Api.semaphoreUse (q : QueueId) (api : Api α) : Prop :=
  api.posts = some q ∨ api.waits = some q

/-- The law of the semaphore in a state of the kernel. -/
structure SemaphoreLaw (k : State α) (q : QueueId) (value : Nat) : Prop where
  conserved : (k.queue q).uxMessagesWaiting + k.trace.countP (Event.waited q) =
    value + k.trace.countP (Event.posted q)
  bounded : (k.queue q).uxMessagesWaiting ≤ maxCount
  /-- The critical section of `sem_post` fails exactly when the count is at its
  maximum, and then no queue changes. -/
  post : ∀ t f k', (k.task t).frame = some f → f.api = .semPost (some q) → f.pc = .attempt →
    k.step (.run t) = some k' →
    if (k.queue q).uxMessagesWaiting = maxCount then
      (k'.task t).frame = some { f with pc := .leave .fail } ∧ k'.queue = k.queue
    else (k'.task t).frame = some { f with pc := .leave (.pass none) }
  /-- `sem_post` then returns -1, and 0 otherwise. -/
  returned : ∀ t f res k', (k.task t).frame = some f → f.api = .semPost (some q) →
    f.pc = .leave res → k.step (.run t) = some k' →
    (k'.task t).ret = some (.int (match res with | .pass _ => 0 | .fail => -1))
  timedOut : ∀ t api k', api.waits = some q → k.step (.run t) = some k' →
    k'.trace = k.trace ++ [⟨t, api, .fail⟩] →
    ∀ p, (k'.queue p).uxMessagesWaiting = (k.queue p).uxMessagesWaiting
  noLostWake : (k.queue q).xTasksWaitingToReceive ≠ [] →
    (k.queue q).uxMessagesWaiting ≤ (k.woken (.toReceive q)).length
  /-- The woken tasks are distinct, and each is ready and has still to run its critical
  section. -/
  retry : (k.woken (.toReceive q)).Nodup ∧ ∀ t ∈ k.woken (.toReceive q),
    (k.task t).xStateList = .ready ∧
      ∃ f, (k.task t).frame = some f ∧ f.xQueue = q ∧ f.pc = .attempt

/-- The part of the law that the operations keep. -/
structure SemaphoreInv (q : QueueId) (value : Nat) (C : Contents α) (trace : List (Event α)) :
    Prop where
  live : C.live
  length : C.uxLength = maxCount
  size : C.uxItemSize = 0
  notMutex : C.isMutex = false
  conserved : C.uxMessagesWaiting + trace.countP (Event.waited q) =
    value + trace.countP (Event.posted q)

namespace SemaphoreInv

variable {q : QueueId} {value : Nat}

/-- An operation on another queue does not count. -/
theorem not_counted {e : Event α} (htarget : e.api.target ≠ some q) :
    e.posted q = false ∧ e.waited q = false := by
  constructor
  · unfold Event.posted
    split
    · refine decide_eq_false fun hposts => htarget ?_
      simp [Api.target, Api.target_of_posts hposts]
    · rfl
  · unfold Event.waited
    split
    · refine decide_eq_false fun hwaits => htarget ?_
      obtain ⟨n, hrequest⟩ := Api.target_of_waits hwaits
      simp [Api.target, hrequest]
    · rfl

theorem keeps : Keeps q (Api.semaphoreUse q) (SemaphoreInv (α := α) q value) := by
  intro v act v' hinv hdelete hallowed hstep
  -- a step adds at most one event to the trace, and the count changes with it
  have hcount (e : Event α) (htrace : v'.trace = v.trace ++ [e]) (p : Event α → Bool) :
      v'.trace.countP p = v.trace.countP p + if p e then 1 else 0 := by
    rw [htrace, List.countP_append, List.countP_singleton]
  have hlast {e : Event α} (htrace : v'.trace = v.trace ++ [e]) (htarget : e.api.target = some q) :
      e.api.posts = some q ∨ e.api.waits = some q :=
    hallowed e (by simp [htrace]) htarget
  cases hstep with
  | quiet hqueue htrace =>
      rcases htrace with htrace | ⟨e, htrace, hother⟩
      · rw [hqueue, htrace]
        exact hinv
      · obtain ⟨hposted, hwaited⟩ := not_counted hother
        refine ⟨hqueue ▸ hinv.live, hqueue ▸ hinv.length, hqueue ▸ hinv.size,
          hqueue ▸ hinv.notMutex, ?_⟩
        rw [hqueue, hcount e htrace, hcount e htrace, hposted, hwaited]
        exact hinv.conserved
  | deleted t hact => exact absurd hact (hdelete t)
  | failed t api htarget hqueue htrace =>
      refine ⟨hqueue ▸ hinv.live, hqueue ▸ hinv.length, hqueue ▸ hinv.size,
        hqueue ▸ hinv.notMutex, ?_⟩
      rw [hqueue, hcount _ htrace, hcount _ htrace]
      exact hinv.conserved
  | sent t api item n hrequest hspace hqueue htrace =>
      have hposts : api.posts = some q := by
        rcases hlast htrace (by simp [Api.target, hrequest]) with hposts | hwaits
        · exact hposts
        · obtain ⟨m, hrequest'⟩ := Api.target_of_waits hwaits
          simp [hrequest] at hrequest'
      have hwaits : api.waits ≠ some q := by
        intro hwaits
        obtain ⟨m, hrequest'⟩ := Api.target_of_waits hwaits
        simp [hrequest] at hrequest'
      have hsent : v'.queue q =
          { v.queue q with uxMessagesWaiting := (v.queue q).uxMessagesWaiting + 1 } := by
        rw [hqueue]
        simp [Contents.sent, hinv.size, hinv.notMutex]
      rw [hsent]
      refine ⟨hinv.live, hinv.length, hinv.size, hinv.notMutex, ?_⟩
      rw [hcount _ htrace, hcount _ htrace]
      simp only [Event.posted, Event.waited, hposts, hwaits, decide_true, decide_false, if_true,
        Bool.false_eq_true, if_false]
      have hcons := hinv.conserved
      omega
  | received t api n hrequest hcount' hqueue htrace =>
      rcases hlast htrace (by simp [Api.target, hrequest]) with hposts | hwaits
      · rw [Api.target_of_posts hposts] at hrequest
        simp at hrequest
      · obtain ⟨m, hrequest'⟩ := Api.target_of_waits hwaits
        simp [hrequest] at hrequest'
  | taken t api n hrequest hpos hqueue htrace =>
      have hwaits : api.waits = some q := by
        rcases hlast htrace (by simp [Api.target, hrequest]) with hposts | hwaits
        · rw [Api.target_of_posts hposts] at hrequest
          simp at hrequest
        · exact hwaits
      have hposts : api.posts ≠ some q := by
        intro hposts
        rw [Api.target_of_posts hposts] at hrequest
        simp at hrequest
      have htaken : v'.queue q =
          { v.queue q with uxMessagesWaiting := (v.queue q).uxMessagesWaiting - 1 } := by
        rw [hqueue]
        simp [Contents.taken, hinv.notMutex]
      rw [htaken]
      refine ⟨hinv.live, hinv.length, hinv.size, hinv.notMutex, ?_⟩
      rw [hcount _ htrace, hcount _ htrace]
      simp only [Event.posted, Event.waited, hposts, hwaits, decide_true, decide_false, if_true,
        Bool.false_eq_true, if_false]
      have hcons := hinv.conserved
      omega

theorem init (hvalue : value ≤ maxCount) :
    ∃ Q : Queue α, (NewQueue.counting value).build = some Q ∧
      ∀ trace : List (Event α), (∀ e ∈ trace, e.api.target ≠ some q) →
        SemaphoreInv q value Q.contents trace := by
  refine ⟨_, if_pos ⟨by decide, hvalue⟩, fun trace hfresh => ⟨rfl, rfl, rfl, rfl, ?_⟩⟩
  have hposted : trace.countP (Event.posted q) = 0 :=
    List.countP_eq_zero.mpr fun e he => by simp [(not_counted (hfresh e he)).1]
  have hwaited : trace.countP (Event.waited q) = 0 :=
    List.countP_eq_zero.mpr fun e he => by simp [(not_counted (hfresh e he)).2]
  rw [hposted, hwaited]
  rfl

end SemaphoreInv

/-- The critical section of a post, in a state where the semaphore obeys its law. -/
theorem QueueRun.post {k k' : State α} {q : QueueId} {value : Nat}
    (hrun : QueueRun k q (Api.semaphoreUse q) (SemaphoreInv q value)) {t : TaskId} {f : Frame α}
    (hframe : (k.task t).frame = some f) (hapi : f.api = .semPost (some q))
    (hpc : f.pc = .attempt) (hstep : k.step (.run t) = some k') :
    if (k.queue q).uxMessagesWaiting = maxCount then
      (k'.task t).frame = some { f with pc := .leave .fail } ∧ k'.queue = k.queue
    else (k'.task t).frame = some { f with pc := .leave (.pass none) } := by
  have hlaw := hrun.law
  obtain ⟨n, hrequest, hzero, -⟩ := hrun.calls.wellFormed t f hframe
  rw [hapi, Api.target_of_posts (q := q) rfl] at hrequest
  obtain ⟨hop, rfl, rfl⟩ : Op.genericSend none = f.op ∧ q = f.xQueue ∧ 0 = n := by
    simpa using hrequest
  have hticks := (hzero rfl).1
  have hlive : (k.queue f.xQueue).live = true := hlaw.live
  have hlength : (k.queue f.xQueue).uxLength = maxCount := hlaw.length
  have hsize : (k.queue f.xQueue).uxItemSize = 0 := hlaw.size
  have hmutex : (k.queue f.xQueue).isMutex = false := hlaw.notMutex
  have hle : (k.queue f.xQueue).uxMessagesWaiting ≤ (k.queue f.xQueue).uxLength :=
    hrun.kernel.wait.balanced.count_le f.xQueue
  have hready : f.op.ready (k.view.queue f.xQueue) ↔
      (k.queue f.xQueue).uxMessagesWaiting < maxCount := by
    rw [← hop, ← hlength]
    rfl
  have hk' := State.step_run hframe hstep
  split
  next hfull =>
    have hfail := State.runFrame_fail (k := k.switchTo t) (t := t) hpc hlive
      (fun h => Nat.lt_irrefl _ (hfull ▸ hready.mp h)) hticks
    rw [hk', hfail]
    refine ⟨?_, rfl⟩
    have hframe' := congrArg (fun v => View.frame v t)
      (State.view_complete ((k.switchTo t).retried t f.waitList) t f .fail)
    exact hframe'.trans (by simp [View.complete, View.setFrame])
  next hfull =>
    have hran : Ran (k.switchTo t).view t f ((k.switchTo t).runFrame t f).view :=
      State.ran_runFrame rfl
    rw [← hk'] at hran
    have hpass : f.op.ready (k.view.queue f.xQueue) := hready.mpr (by omega)
    have hdone := hran.attempt_pass hpc hlaw.live hlaw.notMutex hpass
    have hanswer : f.op.answer ((k.switchTo t).view.queue f.xQueue) = none := by
      rw [← hop]
      rfl
    rwa [hanswer] at hdone

/-- In every run in which a semaphore of `sem_init` or `sys_sem_new` is posted to
and waited for, its count is conserved and no wake-up is lost. -/
theorem semaphore_conservation {k₀ k₁ k : State α} {creator : TaskId} {value : Nat}
    (hbooted : Booted k₀) (hvalue : value ≤ maxCount)
    (hcreate : k₀.step (.create creator (.counting value)) = some k₁)
    (hreach : Lib.Reach State.step
      (Act.uses k₀.nextQueue (Api.semaphoreUse k₀.nextQueue)) k₁ k) :
    SemaphoreLaw k k₀.nextQueue value := by
  obtain ⟨Q, hbuild, hinit⟩ := SemaphoreInv.init (α := α) (q := k₀.nextQueue) hvalue
  have hrun := QueueRun.reach hbooted hcreate hbuild hinit SemaphoreInv.keeps hreach
  have hlaw := hrun.law
  refine ⟨hlaw.conserved, ?_, fun t f k' => hrun.post, ?_, ?_, ?_, ?_⟩
  · have hle := hrun.kernel.wait.balanced.count_le k₀.nextQueue
    rwa [hlaw.length] at hle
  · intro t f res k' hframe hapi hpc hstep
    obtain ⟨elapsed, hret⟩ := State.step_leave hframe hpc hstep
    rw [hret, hapi]
    cases res <;> rfl
  · intro t api k' hwaits hstep htrace p
    obtain ⟨f, hframe, hran⟩ := State.step_run_ran hstep
    have hqueue := hran.fail_queue (hrun.calls.wellFormed t f hframe) htrace p
    exact congrArg Contents.uxMessagesWaiting hqueue
  · exact hrun.kernel.wait.balanced.receive k₀.nextQueue
  · refine ⟨hrun.kernel.wait.lists.nodupWoken _, fun t ht => ?_⟩
    obtain ⟨-, f, hf, hwait, hpc⟩ := hrun.kernel.wait.lists.awoken t _ ht
    refine ⟨(QueueRun.booted hbooted hcreate hreach).wokenReady _ t ht, f, hf, ?_, hpc⟩
    unfold Frame.waitList at hwait
    cases hop : f.op <;> simp_all [Op.waitList]

/-- A second task blocks on a semaphore without permits. The main task posts to it, and the woken
task is ready and has still to take the permit. -/
def semaphoreSchedule : List (Act Unit) :=
  [.spawn 1 2, .call 2 (.sysArchSemWait 0 0)] ++ List.replicate 10 (.run 2) ++
  [.call 1 (.semPost (some 0)), .run 1, .run 1]

/-- The guard of `semaphoreSchedule`. -/
def semaphoreCheck (k : State Unit) : Act Unit → Bool
  | .call _ (.semPost (some 0)) | .call _ (.sysArchSemWait 0 _) =>
      k.uxSchedulerSuspended = 0 && 0 < k.nextQueue
  | .run _ | .spawn _ _ => true
  | _ => false

theorem semaphoreCheck_uses (k : State Unit) (act : Act Unit) (hcheck : semaphoreCheck k act) :
    act.uses 0 (Api.semaphoreUse 0) k := by
  unfold semaphoreCheck at hcheck
  split at hcheck
  · simp only [Bool.and_eq_true, decide_eq_true_eq] at hcheck
    refine ⟨⟨hcheck.1, fun q hq => ?_⟩, by simp, ?_⟩
    · obtain rfl : 0 = q := by simpa [Api.target, Api.request] using hq
      exact hcheck.2
    · rintro t api ⟨⟩ -
      exact .inl rfl
  · simp only [Bool.and_eq_true, decide_eq_true_eq] at hcheck
    refine ⟨⟨hcheck.1, fun q hq => ?_⟩, by simp, ?_⟩
    · obtain rfl : 0 = q := by simpa [Api.target, Api.request] using hq
      exact hcheck.2
    · rintro t api ⟨⟩ -
      exact .inr rfl
  · exact ⟨trivial, by simp, by simp⟩
  · exact ⟨trivial, by simp, by simp⟩
  · simp at hcheck

theorem semaphore_conservation_schedule :
    ∃ k₁ k : State Unit, (State.boot 1).step (.create 1 (.counting 0)) = some k₁ ∧
      Lib.execute State.step semaphoreCheck k₁ semaphoreSchedule = some k ∧
      (k.woken (.toReceive 0), (k.queue 0).uxMessagesWaiting) = ([2], 1) ∧ SemaphoreLaw k 0 0 := by
  have hrun : ((((State.boot 1).step (.create 1 (.counting 0))).bind fun k₁ =>
      Lib.execute State.step semaphoreCheck k₁ semaphoreSchedule).map
        fun k => (k.woken (.toReceive 0), (k.queue 0).uxMessagesWaiting)) = some ([2], 1) := by
    decide +kernel
  obtain ⟨k, hk, hwoken⟩ := Option.map_eq_some_iff.mp hrun
  obtain ⟨k₁, hcreate, hk⟩ := Option.bind_eq_some_iff.mp hk
  exact ⟨k₁, k, hcreate, hk, hwoken, semaphore_conservation ⟨1, .refl⟩ (by decide) hcreate
    (Lib.execute_reach semaphoreCheck_uses semaphoreSchedule hk)⟩

end SimulatedLinux.Kernel
