import SimulatedLinux.Kernel.Inherit

/-! # Wake order

The head of a wait list is taken for its task of highest priority, and the list is sorted
only when a task joins it. `xTaskPriorityInherit` raises the priority of a task that may be
in a wait list itself, and leaves it where it is. Unless that happens, a give wakes the
waiter of highest priority, and among equals the one that has waited longest.
-/

namespace SimulatedLinux.Kernel

variable {α : Type}

/-- The semaphore or mutex a call gives. -/
def Api.gives : Api α → Option QueueId
  | pthreadMutexUnlock handle | sysMutexUnlock handle | semPost handle | sysSemSignal handle =>
    handle
  | xSemaphoreGive sem => some sem
  | _ => none

theorem Api.request_of_gives {api : Api α} {q : QueueId} (hgives : api.gives = some q) :
    api.request = some (.genericSend none, q, 0) := by
  cases api <;> simp_all [gives, request]

/-! ## Runs with the times at which tasks began to wait -/

/-- A kernel with the number of steps made so far, and for each task the step at which it
last joined or left a wait list. -/
structure Watched (α : Type) where
  kernel : State α
  clock : Nat
  since : TaskId → Nat

namespace Watched

def boot (uxMainPriority : Nat) : Watched α := ⟨.boot uxMainPriority, 0, fun _ => 0⟩

def step (w : Watched α) (act : Act α) : Option (Watched α) :=
  (w.kernel.step act).map fun kernel =>
    { kernel
      clock := w.clock + 1
      since := fun t =>
        if (kernel.task t).xEventList = (w.kernel.task t).xEventList then w.since t else w.clock }

/-- The first of two waiters is to be woken before the second. -/
def Before (w : Watched α) (t u : TaskId) : Prop :=
  (w.kernel.task u).uxPriority < (w.kernel.task t).uxPriority ∨
    (w.kernel.task u).uxPriority = (w.kernel.task t).uxPriority ∧ w.since t < w.since u

/-- Whenever a give succeeds while tasks wait for the queue, it makes one of them ready, and this
one is to be woken before all others. -/
def WakeOrder (w : Watched α) : Prop :=
  ∀ t f q w' item, (w.kernel.task t).frame = some f → f.pc = .attempt → f.api.gives = some q →
    w.step (.run t) = some w' →
    (w'.kernel.task t).frame = some { f with pc := .leave (.pass item) } →
    (w.kernel.queue q).xTasksWaitingToReceive ≠ [] →
    ∃ u ∈ (w.kernel.queue q).xTasksWaitingToReceive,
      (w'.kernel.task u).xStateList = .ready ∧
      (w'.kernel.queue q).xTasksWaitingToReceive =
        (w.kernel.queue q).xTasksWaitingToReceive.erase u ∧
      ∀ v ∈ (w.kernel.queue q).xTasksWaitingToReceive, v ≠ u → w.Before u v

end Watched

/-- The step lifts no task that is in a wait list. -/
structure Act.LiftsUnlisted (k : State α) (act : Act α) : Prop where
  valid : act.valid k
  lift : ∀ t f h, act = .run t → (k.task t).frame = some f → f.pc = .inherit →
    (k.queue f.xQueue).xMutexHolder = some h → (k.task h).uxPriority < (k.task t).uxPriority →
    (k.task h).xEventList = none

/-! ## One step -/

/-- The priority of a task in a wait list stays as it is. -/
theorem KernelInv.listed_prios {k k' : State α} {act : Act α} (hinv : KernelInv k)
    (hok : act.LiftsUnlisted k) (hstep : k.step act = some k') {u : TaskId} {list : EventList}
    (hmem : u ∈ k.eventList list) :
    k'.prios u = k.prios u := by
  have hlists := hinv.wait.lists
  have hlisted : (k.task u).xEventList = some list := (hlists.listed u list).mp hmem
  cases State.reprioritised_step hstep with
  | same hprios => rw [hprios]
  | boosted t h f hact hframe hpc hholder hlower hprios =>
      have hne : u ≠ h := by
        rintro rfl
        rw [hok.lift t f u hact hframe hpc hholder hlower] at hlisted
        cases hlisted
      rw [hprios, Function.update_of_ne hne]
  | dropped t f item hact hframe hpc hop hmutex hholder hlast hgone hprios =>
      have hne : u ≠ t := by
        rintro rfl
        exact (hinv.attempting hact hframe hpc hstep).2 list hmem
      rw [hprios, Function.update_of_ne hne]
  | spawned c uxPriority hact hlt hnext hprios =>
      have hborn : u < k.nextTask := hlists.lt_of_blocked (hlists.waiting u list hlisted).1
      rw [hprios, Function.update_of_ne (Nat.ne_of_lt hborn)]

/-- The order of all wait lists. -/
structure Ordered (w : Watched α) : Prop where
  booted : Booted w.kernel
  ranks : Ranks w.kernel
  since : ∀ t list, t ∈ w.kernel.eventList list → w.since t < w.clock
  sorted : ∀ list, (w.kernel.eventList list).Pairwise w.Before

namespace Ordered

variable {w w' : Watched α} {act : Act α} {list : EventList} {t u : TaskId}

/-- A task that goes on waiting. -/
theorem since_kept (hw : Ordered w) (hok : act.LiftsUnlisted w.kernel)
    (hstep : w.step act = some w') (hbefore : u ∈ w.kernel.eventList list)
    (hafter : u ∈ w'.kernel.eventList list) :
    w'.kernel.prios u = w.kernel.prios u ∧ w'.since u = w.since u := by
  obtain ⟨k', hk', rfl⟩ := Option.map_eq_some_iff.mp hstep
  refine ⟨hw.booted.inv.listed_prios hok hk' hbefore, if_pos ?_⟩
  have hlisted : (w.kernel.task u).xEventList = some list :=
    (hw.booted.inv.wait.lists.listed u list).mp hbefore
  have hlisted' : (k'.task u).xEventList = some list :=
    ((hw.booted.step hok.valid hk').inv.wait.lists.listed u list).mp hafter
  rw [hlisted, hlisted']

/-- Tasks that go on waiting stay in order. -/
theorem kept (hw : Ordered w) (hok : act.LiftsUnlisted w.kernel) (hstep : w.step act = some w')
    {tasks : List TaskId} (hsub : tasks.Sublist (w.kernel.eventList list))
    (hafter : ∀ u ∈ tasks, u ∈ w'.kernel.eventList list) :
    tasks.Pairwise w'.Before := by
  refine ((hw.sorted list).sublist hsub).imp_of_mem fun {a b} ha hb hbefore => ?_
  obtain ⟨haprio, hasince⟩ := hw.since_kept hok hstep (hsub.mem ha) (hafter a ha)
  obtain ⟨hbprio, hbsince⟩ := hw.since_kept hok hstep (hsub.mem hb) (hafter b hb)
  have ha' : (w'.kernel.task a).uxPriority = (w.kernel.task a).uxPriority :=
    congrArg Prod.fst haprio
  have hb' : (w'.kernel.task b).uxPriority = (w.kernel.task b).uxPriority :=
    congrArg Prod.fst hbprio
  unfold Watched.Before at hbefore ⊢
  rw [ha', hb', hasince, hbsince]
  exact hbefore

/-- A task that joins a list stands behind its equals. -/
theorem placed (hw : Ordered w) (hok : act.LiftsUnlisted w.kernel) (hstep : w.step act = some w')
    {f : Frame α} (hact : act = .run t) (hframe : w.kernel.view.frame t = some f)
    (hpc : f.pc = .place) (hlist : w'.kernel.eventList f.waitList =
      vListInsert (fun u => (w.kernel.task u).xEventValue) t (w.kernel.eventList f.waitList)) :
    (w'.kernel.eventList f.waitList).Pairwise w'.Before := by
  have hafter {u : TaskId} (hu : u ∈ w.kernel.eventList f.waitList) :
      u ∈ w'.kernel.eventList f.waitList := by
    rw [hlist]
    exact (vListInsert_perm _ t _).mem_iff.mpr (List.mem_cons_of_mem t hu)
  have hkept {u : TaskId} (hu : u ∈ w.kernel.eventList f.waitList) :
      (w'.kernel.task u).uxPriority = (w.kernel.task u).uxPriority ∧ w'.since u = w.since u := by
    obtain ⟨hprio, hsince⟩ := hw.since_kept hok hstep hu (hafter hu)
    exact ⟨congrArg Prod.fst hprio, hsince⟩
  have hsorted := hw.kept hok hstep (.refl _) fun u hu => hafter hu
  obtain ⟨k', hk', rfl⟩ := Option.map_eq_some_iff.mp hstep
  have hprio : (k'.task t).uxPriority = (w.kernel.task t).uxPriority := by
    cases State.reprioritised_step hk' with
    | same hprios => exact congrArg Prod.fst (congrFun hprios t)
    | boosted u h g hact' hframe' hpc' =>
        subst hact
        cases hact'
        obtain rfl : g = f := Option.some.inj (hframe'.symm.trans hframe)
        simp [hpc] at hpc'
    | dropped u g item hact' hframe' hpc' =>
        subst hact
        cases hact'
        obtain rfl : g = f := Option.some.inj (hframe'.symm.trans hframe)
        simp [hpc] at hpc'
    | spawned c uxPriority hact' =>
        subst hact
        cases hact'
  -- the new task begins to wait with this step
  have hsince :
      (if (k'.task t).xEventList = (w.kernel.task t).xEventList then w.since t else w.clock) =
        w.clock := by
    have hlisted' : (k'.task t).xEventList = some f.waitList := by
      refine ((hw.booted.step hok.valid hk').inv.wait.lists.listed t _).mp ?_
      rw [show k'.sched.eventList = k'.eventList from rfl, hlist]
      exact (vListInsert_perm _ t _).mem_iff.mpr List.mem_cons_self
    refine if_neg fun heq => ?_
    obtain ⟨-, g, hg, -, hplaced⟩ :=
      hw.booted.inv.wait.lists.waiting t f.waitList (heq.symm.trans hlisted')
    obtain rfl : g = f := Option.some.inj (hg.symm.trans hframe)
    simp [hpc, Pc.placed] at hplaced
  rw [hlist]
  -- before the new task stand those of at least its priority, which began to wait earlier; behind
  -- it stand those of a lower one
  refine vListInsert_pairwise hsorted (fun u hu => ?_) ?_
  · obtain ⟨hmem, hvalue⟩ := mem_takeWhile_value hu
    obtain ⟨huprio, husince⟩ := hkept hmem
    have hclock : w.since u < w.clock := hw.since u f.waitList hmem
    unfold Watched.Before
    dsimp only at huprio husince ⊢
    rw [hprio, huprio, hsince, husince]
    rcases Nat.lt_or_eq_of_le (hw.ranks.value_le.mp hvalue) with hlt | heq
    · exact .inl hlt
    · exact .inr ⟨heq, hclock⟩
  · have hlower : ∀ u ∈ (w.kernel.eventList f.waitList).dropWhile fun u =>
        (w.kernel.task u).xEventValue ≤ (w.kernel.task t).xEventValue,
        (w.kernel.task u).uxPriority < (w.kernel.task t).uxPriority := by
      have hfirst (u : TaskId)
          (hu : ¬ decide ((w.kernel.task u).xEventValue ≤ (w.kernel.task t).xEventValue)) :
          (w.kernel.task u).uxPriority < (w.kernel.task t).uxPriority := by
        rw [decide_eq_true_eq, hw.ranks.value_le] at hu
        exact Nat.lt_of_not_le hu
      refine forall_mem_dropWhile (hw.sorted f.waitList) hfirst fun u v hu hbefore => ?_
      rcases hbefore with hlt | ⟨heq, -⟩
      · exact Nat.lt_trans hlt (hfirst u hu)
      · exact heq ▸ hfirst u hu
    intro u hu
    refine .inl ?_
    dsimp only
    rw [hprio, (hkept ((List.dropWhile_sublist _).mem hu)).1]
    exact hlower u hu

theorem next (hw : Ordered w) (hok : act.LiftsUnlisted w.kernel) (hstep : w.step act = some w') :
    Ordered w' := by
  obtain ⟨k', hk', hnext⟩ := Option.map_eq_some_iff.mp hstep
  obtain rfl : w'.kernel = k' := by rw [← hnext]
  have hbooted := hw.booted.step hok.valid hk'
  have hsub {list : EventList}
      (hsub : (w'.kernel.eventList list).Sublist (w.kernel.eventList list)) :
      (w'.kernel.eventList list).Pairwise w'.Before := hw.kept hok hstep hsub fun _ hu => hu
  refine ⟨hbooted, hw.ranks.step (State.reprioritised_step hk'), fun t list hmem => ?_,
    fun list => ?_⟩
  · rw [← hnext]
    dsimp only
    split
    next hsame =>
      have hlisted : (w'.kernel.task t).xEventList = some list :=
        (hbooted.inv.wait.lists.listed t list).mp hmem
      have hbefore := (hw.booted.inv.wait.lists.listed t list).mpr (hsame.symm.trans hlisted)
      exact Nat.lt_succ_of_lt (hw.since t list hbefore)
    next => exact Nat.lt_succ_self w.clock
  · cases hw.booted.inv.relisted hk' with
    | same hsched =>
        have hlists : w'.kernel.eventList = w.kernel.eventList := congrArg Sched.eventList hsched
        exact hsub (by rw [hlists])
    | fades hfades => exact hsub (hfades.sub list)
    | placed t f hact hframe hpc hlists =>
        by_cases hl : list = f.waitList
        · subst hl
          exact hw.placed hok hstep hact hframe hpc (by rw [hlists, Function.update_self])
        · exact hsub (by rw [hlists, Function.update_of_ne hl])
    | refused t f hact hframe hpc hnot hsched =>
        have hlists : w'.kernel.eventList = w.kernel.eventList := congrArg Sched.eventList hsched
        exact hsub (by rw [hlists])
    | passed t f hact hframe hpc hready hsched =>
        refine hsub ?_
        rw [show w'.kernel.eventList = _ from congrArg Sched.eventList hsched]
        unfold Sched.wakeFirst
        split
        · exact .refl _
        · exact List.erase_sublist

end Ordered

/-! ## Runs -/

/-- A call that has just passed its critical section could do so. -/
theorem Ran.ready_of_pass {v v' : View α} {t : TaskId} {f f' : Frame α} {item : Option α}
    (hran : Ran v t f v') (hframe : v.frame t = some f) (hpc : f.pc = .attempt)
    (hframe' : v'.frame t = some f') (hpass : f'.pc = .leave (.pass item)) :
    f.op.ready (v.queue f.xQueue) := by
  cases hran with
  | halted =>
      obtain rfl : f = f' := Option.some.inj (hframe.symm.trans hframe')
      simp [hpc] at hpass
  | entered hentry => simp [hpc] at hentry
  | waits timeOut =>
      simp only [View.setFrame, Function.update_self, Option.some.injEq] at hframe'
      simp [← hframe'] at hpass
  | moved f₁ hlooping => simp [hpc, Pc.looping] at hlooping
  | gaveUp =>
      simp only [View.complete, View.setFrame, Function.update_self, Option.some.injEq] at hframe'
      simp [← hframe'] at hpass
  | timedOut hlooping => simp [hpc, Pc.looping] at hlooping
  | sent item hpc hop hlive hready => exact hready
  | received hpc hop hlive hready => exact hready
  | taken hpc hop hlive hready => exact hready
  | left res elapsed hleave => simp [hpc] at hleave

theorem Ordered.wakeOrder {w : Watched α} (hw : Ordered w) : w.WakeOrder := by
  intro t f q w' item hframe hpc hgives hstep hframe' hwaiters
  obtain ⟨k', hk', hnext⟩ := Option.map_eq_some_iff.mp hstep
  obtain rfl : w'.kernel = k' := by rw [← hnext]
  have hview : w.kernel.view.frame t = some f := hframe
  obtain ⟨n, hrequest, -⟩ := hw.booted.calls.wellFormed t f hview
  rw [Api.request_of_gives hgives, Option.some.injEq, Prod.mk.injEq, Prod.mk.injEq] at hrequest
  obtain ⟨hop, rfl, -⟩ := hrequest
  have hmoves : w'.kernel.view.frame t ≠ w.kernel.view.frame t := by
    intro hsame
    rw [hview] at hsame
    rw [Option.some.inj (hsame.symm.trans hframe')] at hpc
    simp at hpc
  have hready : f.op.ready (w.kernel.view.queue f.xQueue) := by
    have hstepped := State.stepped_step hk'
    generalize hv' : w'.kernel.view = v' at hstepped
    cases hstepped with
    | scheduled act hact => cases hact
    | asserted => exact absurd (congrFun (congrArg View.frame hv') t) hmoves
    | ran hbefore hran =>
        obtain rfl := Option.some.inj (hbefore.symm.trans hview)
        exact hran.ready_of_pass hview hpc (by rw [← hv']; exact hframe') rfl
  cases hw.booted.inv.relisted hk' with
  | same hsched hidle => exact absurd (congrFun (hidle t f rfl hview hpc).2 t) hmoves
  | fades hfades hnot => exact absurd hpc (hnot t f rfl hview)
  | placed u g hact hframe₁ hpc₁ =>
      cases hact
      obtain rfl : g = f := Option.some.inj (hframe₁.symm.trans hview)
      simp [hpc] at hpc₁
  | refused u g hact hframe₁ hpc₁ hnot =>
      cases hact
      obtain rfl : g = f := Option.some.inj (hframe₁.symm.trans hview)
      exact absurd hready hnot
  | passed u g hact hframe₁ hpc₁ hready₁ hsched =>
      cases hact
      obtain rfl : g = f := Option.some.inj (hframe₁.symm.trans hview)
      have hwakes : g.op.wakes g.xQueue = .toReceive g.xQueue := by rw [← hop]; rfl
      rw [hwakes] at hsched
      unfold Sched.wakeFirst at hsched
      split at hsched
      next hnil => exact absurd hnil hwaiters
      next u rest hlist =>
        have hlist' : w.kernel.eventList (.toReceive g.xQueue) = u :: rest := hlist
        have hhead : u ∈ w.kernel.eventList (.toReceive g.xQueue) := by
          rw [hlist']; exact List.mem_cons_self
        refine ⟨u, hhead, ?_, congrArg (fun S => S.eventList (.toReceive g.xQueue)) hsched,
          fun v hv hne => ?_⟩
        · have hstate := congrArg (fun S => S.xStateList u) hsched
          rw [show (w'.kernel.task u).xStateList = _ from hstate]
          simp [Sched.setWoken, Sched.unlist]
        · have hsorted := hw.sorted (.toReceive g.xQueue)
          have hv' : v ∈ w.kernel.eventList (.toReceive g.xQueue) := hv
          rw [hlist'] at hsorted hv'
          exact (List.pairwise_cons.mp hsorted).1 v ((List.mem_cons.mp hv').resolve_left hne)

theorem Ordered.boot {uxMainPriority : Nat} (hmain : uxMainPriority < configMaxPriorities) :
    Ordered (Watched.boot uxMainPriority : Watched α) := by
  have hinherits := Inheritance.boot (α := α) hmain
  have hevents : (State.boot uxMainPriority : State α).eventList = fun _ => [] := by
    funext list
    cases list <;> rfl
  refine ⟨⟨uxMainPriority, .refl⟩, hinherits.ranks, ?_, ?_⟩
  · simp [Watched.boot, hevents]
  · simp [Watched.boot, hevents]

/-- In every run in which no task is lifted while it is in a wait list, a give wakes the waiter of
highest priority that has waited longest. -/
theorem wake_order {w : Watched α} {uxMainPriority : Nat}
    (hmain : uxMainPriority < configMaxPriorities)
    (hreach : Lib.Reach Watched.step (fun w act => act.LiftsUnlisted w.kernel)
      (Watched.boot uxMainPriority) w) :
    w.WakeOrder := by
  have hw : Ordered w := hreach.invariant Ordered (.boot hmain) fun _ _ _ hw hok hstep =>
    hw.next hok hstep
  exact hw.wakeOrder

/-- The guard of a run in which no task is lifted while it waits. -/
def liftCheck (w : Watched Unit) (act : Act Unit) : Bool :=
  validCheck w.kernel act &&
    match act with
    | .run t =>
        (w.kernel.task t).frame.all fun f =>
          match f.pc with
          | .inherit =>
              (w.kernel.queue f.xQueue).xMutexHolder.all fun h =>
                (w.kernel.task h).xEventList.isNone
          | _ => true
    | _ => true

theorem liftCheck_lifts (w : Watched Unit) (act : Act Unit) (hcheck : liftCheck w act) :
    act.LiftsUnlisted w.kernel := by
  simp only [liftCheck, Bool.and_eq_true] at hcheck
  refine ⟨validCheck_valid _ act hcheck.1, ?_⟩
  rintro t f h rfl hframe hpc hholder -
  simpa [hframe, hpc, hholder] using hcheck.2

/-- The main task is about to post a semaphore for which a task of priority 2 has waited
longest, and two tasks of priority 3 wait as well. -/
def postSchedule : List (Act Unit) :=
  .create 1 (.counting 0) ::
    .spawn 1 2 :: .call 2 (.semWait (some 0)) :: List.replicate 10 (.run 2) ++
    .spawn 1 3 :: .call 3 (.semWait (some 0)) :: List.replicate 10 (.run 3) ++
    .spawn 1 3 :: .call 4 (.semWait (some 0)) :: List.replicate 10 (.run 4) ++
    [.call 1 (.semPost (some 0)), .run 1]

theorem wake_order_post :
    ∃ w : Watched Unit, Lib.execute Watched.step liftCheck (Watched.boot 1) postSchedule = some w ∧
      (w.kernel.queue 0).xTasksWaitingToReceive = [3, 4, 2] ∧ w.WakeOrder := by
  have hrun : (Lib.execute Watched.step liftCheck (Watched.boot 1) postSchedule).map
      (fun w => (w.kernel.queue 0).xTasksWaitingToReceive) = some [3, 4, 2] := by
    decide +kernel
  obtain ⟨w, hw, hend⟩ := Option.map_eq_some_iff.mp hrun
  exact ⟨w, hw, hend, wake_order (by decide) (Lib.execute_reach liftCheck_lifts _ hw)⟩

/-- A task of priority 2 waits for a semaphore while it holds a mutex, behind a task of priority
3; a task of priority 5 then waits for the mutex, and the main task posts the semaphore. -/
def liftSchedule : List (Act Unit) :=
  .create 1 .mutex :: .create 1 (.counting 0) ::
    .spawn 1 2 :: .call 2 (.pthreadMutexLock (some 0)) :: List.replicate 3 (.run 2) ++
    .call 2 (.semWait (some 1)) :: List.replicate 10 (.run 2) ++
    .spawn 1 3 :: .call 3 (.semWait (some 1)) :: List.replicate 10 (.run 3) ++
    .spawn 1 5 :: .call 4 (.pthreadMutexLock (some 0)) :: List.replicate 11 (.run 4) ++
    [.call 1 (.semPost (some 1)), .run 1]

/-- The task that is woken has priority 3, and one of priority 5 stays behind. -/
theorem wake_order_lifted : ∃ w : Watched Unit,
    Lib.Reach Watched.step (fun w act => act.valid w.kernel) (Watched.boot 1) w ∧
      ¬ w.WakeOrder := by
  have hrun :
      ((Lib.execute Watched.step (fun w act => validCheck w.kernel act) (Watched.boot 1)
        liftSchedule).bind fun w => (w.step (.run 1)).map fun w' =>
        ((w.kernel.task 1).frame, (w'.kernel.task 1).frame,
          (w.kernel.queue 1).xTasksWaitingToReceive, (w'.kernel.queue 1).xTasksWaitingToReceive,
          (w.kernel.task 3).uxPriority, (w.kernel.task 2).uxPriority)) =
      some (some ⟨.semPost (some 1), .genericSend none, 1, 0, none, 0, .attempt⟩,
        some ⟨.semPost (some 1), .genericSend none, 1, 0, none, 0, .leave (.pass none)⟩, [3, 2],
        [2], 3, 5) := by
    rfl
  obtain ⟨w, hw, hmap⟩ := Option.bind_eq_some_iff.mp hrun
  obtain ⟨w', hstep, hend⟩ := Option.map_eq_some_iff.mp hmap
  simp only [Prod.mk.injEq] at hend
  obtain ⟨hframe, hframe', hwaiting, hwaiting', hthree, htwo⟩ := hend
  refine ⟨w, Lib.execute_reach (fun (w : Watched Unit) act => validCheck_valid w.kernel act) _ hw,
    fun horder => ?_⟩
  obtain ⟨u, hu, -, herase, hbefore⟩ :=
    horder 1 _ 1 w' none hframe rfl rfl hstep hframe' (by rw [hwaiting]; simp)
  rw [hwaiting] at hu herase hbefore
  rw [hwaiting'] at herase
  rcases List.mem_cons.mp hu with rfl | hu
  · have hlate := hbefore 2 (by simp) (by simp)
    simp [Watched.Before, hthree, htwo] at hlate
  · obtain rfl := List.mem_singleton.mp hu
    simp at herase

end SimulatedLinux.Kernel
