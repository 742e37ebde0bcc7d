import SimulatedLinux.Kernel.Holder
import SimulatedLinux.Kernel.Listing
import SimulatedLinux.Kernel.Priority

/-! # Priority inheritance

A task that waits for a mutex lifts its holder once, when it starts to wait, and the wait
list is sorted by the priorities the tasks had when they joined it. The holder of a mutex
nevertheless never runs below the base priority of a task that waits for it, provided that
the scheduler always runs a ready task of highest priority: whoever takes a mutex that has
just been given runs no lower than the task that was woken for it, and this one stood
before all others.
-/

namespace SimulatedLinux.Kernel

variable {α : Type}

/-! ## Sorted insertion -/

/-- An insertion keeps a relation that holds between the new task and both sides of its position. -/
theorem vListInsert_pairwise {value : TaskId → Nat} {t : TaskId} {tasks : List TaskId}
    {R : TaskId → TaskId → Prop} (hsorted : tasks.Pairwise R)
    (hbefore : ∀ u ∈ tasks.takeWhile fun u => value u ≤ value t, R u t)
    (hafter : ∀ u ∈ tasks.dropWhile fun u => value u ≤ value t, R t u) :
    (vListInsert value t tasks).Pairwise R := by
  rw [← List.takeWhile_append_dropWhile (p := fun u => value u ≤ value t) (l := tasks)] at hsorted
  obtain ⟨hfront, hback, hacross⟩ := List.pairwise_append.mp hsorted
  refine List.pairwise_append.mpr ⟨hfront, List.pairwise_cons.mpr ⟨hafter, hback⟩, ?_⟩
  intro u hu w hw
  rcases List.mem_cons.mp hw with rfl | hw
  · exact hbefore u hu
  · exact hacross u hu w hw

/-- The tasks before the position of a new one have a value that is not above its own. -/
theorem mem_takeWhile_value {value : TaskId → Nat} {n : Nat} {tasks : List TaskId} {u : TaskId}
    (hu : u ∈ tasks.takeWhile fun u => value u ≤ n) : u ∈ tasks ∧ value u ≤ n := by
  have hall := List.all_takeWhile (p := fun u => decide (value u ≤ n)) (l := tasks)
  exact ⟨(List.takeWhile_sublist _).mem hu, of_decide_eq_true (List.all_eq_true.mp hall u hu)⟩

/-- The tasks behind the position of a new one are its first successor and tasks related to it. -/
theorem forall_mem_dropWhile {p : TaskId → Bool} {R : TaskId → TaskId → Prop} {P : TaskId → Prop}
    {tasks : List TaskId} (hsorted : tasks.Pairwise R) (hfirst : ∀ u, ¬ p u → P u)
    (hbehind : ∀ u w, ¬ p u → R u w → P w) : ∀ w ∈ tasks.dropWhile p, P w := by
  induction tasks with
  | nil => simp
  | cons u rest ih =>
      obtain ⟨hhead, hrest⟩ := List.pairwise_cons.mp hsorted
      by_cases hu : p u
      · rw [List.dropWhile_cons_of_pos hu]
        exact ih hrest
      · rw [List.dropWhile_cons_of_neg hu]
        intro w hw
        rcases List.mem_cons.mp hw with rfl | hw
        · exact hfirst w hu
        · exact hbehind u w hu (hhead w hw)

/-! ## The priorities themselves -/

/-- Every task has a priority that the lists know, and the value that goes with it. -/
structure Ranks (k : State α) : Prop where
  bound : ∀ t, (k.task t).uxPriority < configMaxPriorities
  value : ∀ t, (k.task t).xEventValue = configMaxPriorities - (k.task t).uxPriority
  base : ∀ t, (k.task t).uxBasePriority ≤ (k.task t).uxPriority

namespace Ranks

variable {k k' : State α} {act : Act α}

theorem of_prios (hranks : Ranks k) (hother : ∀ u, k'.prios u = k.prios u ∨
    ((k'.prios u).1 < configMaxPriorities ∧
      (k'.prios u).2.2 = configMaxPriorities - (k'.prios u).1 ∧
      (k'.prios u).2.1 ≤ (k'.prios u).1)) : Ranks k' := by
  refine ⟨fun u => ?_, fun u => ?_, fun u => ?_⟩ <;> rcases hother u with
    hsame | ⟨hbound, hvalue, hbase⟩
  · have hprio : (k'.task u).uxPriority = (k.task u).uxPriority := congrArg Prod.fst hsame
    rw [hprio]
    exact hranks.bound u
  · exact hbound
  · have hprio : (k'.task u).uxPriority = (k.task u).uxPriority := congrArg Prod.fst hsame
    have hvalue : (k'.task u).xEventValue = (k.task u).xEventValue :=
      congrArg (fun p => p.2.2) hsame
    rw [hprio, hvalue]
    exact hranks.value u
  · exact hvalue
  · have hprio : (k'.task u).uxPriority = (k.task u).uxPriority := congrArg Prod.fst hsame
    have hbase : (k'.task u).uxBasePriority = (k.task u).uxBasePriority :=
      congrArg (fun p => p.2.1) hsame
    rw [hprio, hbase]
    exact hranks.base u
  · exact hbase

theorem step (hranks : Ranks k) (hprios : Reprioritised k act k') : Ranks k' := by
  have hupdate {u : TaskId} {p : Nat × Nat × Nat} (heq : k'.prios = Function.update k.prios u p)
      (hp : p.1 < configMaxPriorities ∧ p.2.2 = configMaxPriorities - p.1 ∧ p.2.1 ≤ p.1) :
      Ranks k' := by
    refine hranks.of_prios fun w => ?_
    rw [heq]
    by_cases hw : w = u
    · subst hw
      rw [Function.update_self]
      exact .inr hp
    · rw [Function.update_of_ne hw]
      exact .inl rfl
  cases hprios with
  | same heq => exact hranks.of_prios fun u => .inl (congrFun heq u)
  | boosted t h f _ _ _ _ hlower heq =>
      exact hupdate heq ⟨hranks.bound t, rfl, Nat.le_trans (hranks.base h) (Nat.le_of_lt hlower)⟩
  | dropped t f item _ _ _ _ _ _ _ _ heq =>
      exact hupdate heq ⟨Nat.lt_of_le_of_lt (hranks.base t) (hranks.bound t), rfl, Nat.le_refl _⟩
  | spawned c uxPriority _ hlt _ heq => exact hupdate heq ⟨hlt, rfl, Nat.le_refl _⟩

/-- The order of the values is the order of the priorities. -/
theorem value_le (hranks : Ranks k) {t u : TaskId} :
    (k.task u).xEventValue ≤ (k.task t).xEventValue ↔
      (k.task t).uxPriority ≤ (k.task u).uxPriority := by
  have ht := hranks.bound t
  have hu := hranks.bound u
  rw [hranks.value t, hranks.value u]
  omega

end Ranks

/-- A step lowers the priority of a task only where the task gives its last mutex back, and it
changes the base priority of none. -/
theorem Reprioritised.lifts {k k' : State α} {act : Act α} (hprios : Reprioritised k act k')
    {u : TaskId} (hborn : u < k.nextTask) :
    (k'.task u).uxBasePriority = (k.task u).uxBasePriority ∧
      ((k.task u).uxPriority ≤ (k'.task u).uxPriority ∨
        act = .run u ∧ (k'.task u).uxMutexesHeld = 0 ∧ ∃ f item, k.view.frame u = some f ∧
        f.pc = .attempt ∧
          f.op = .genericSend item) := by
  have hsame (heq : k'.prios u = k.prios u) :
      (k'.task u).uxBasePriority = (k.task u).uxBasePriority ∧
      (k.task u).uxPriority ≤ (k'.task u).uxPriority :=
    ⟨congrArg (fun p => p.2.1) heq, Nat.le_of_eq (congrArg Prod.fst heq).symm⟩
  cases hprios with
  | same heq =>
      obtain ⟨hbase, hle⟩ := hsame (congrFun heq u)
      exact ⟨hbase, .inl hle⟩
  | boosted t h f _ _ _ _ hlower heq =>
      by_cases hu : u = h
      · subst hu
        have hnew : k'.prios u = ((k.task t).uxPriority, (k.task u).uxBasePriority,
            configMaxPriorities - (k.task t).uxPriority) := by
          rw [heq, Function.update_self]
        have hprio : (k'.task u).uxPriority = (k.task t).uxPriority := congrArg Prod.fst hnew
        refine ⟨congrArg (fun p => p.2.1) hnew, .inl ?_⟩
        rw [hprio]
        exact Nat.le_of_lt hlower
      · obtain ⟨hbase, hle⟩ := hsame (by rw [heq, Function.update_of_ne hu])
        exact ⟨hbase, .inl hle⟩
  | dropped t f item hact hframe hpc hop _ _ _ hgone heq =>
      by_cases hu : u = t
      · subst hu
        have hnew : k'.prios u = ((k.task u).uxBasePriority, (k.task u).uxBasePriority,
            configMaxPriorities - (k.task u).uxBasePriority) := by
          rw [heq, Function.update_self]
        exact ⟨congrArg (fun p => p.2.1) hnew, .inr ⟨hact, hgone, f, item, hframe, hpc, hop⟩⟩
      · obtain ⟨hbase, hle⟩ := hsame (by rw [heq, Function.update_of_ne hu])
        exact ⟨hbase, .inl hle⟩
  | spawned c uxPriority _ _ _ heq =>
      obtain ⟨hbase, hle⟩ := hsame (by rw [heq, Function.update_of_ne (Nat.ne_of_lt hborn)])
      exact ⟨hbase, .inl hle⟩

/-! ## The holders -/

/-- The change that one step makes to the holder of a queue that is a mutex. -/
inductive Reheld (v : View α) (act : Act α) (q : QueueId) (v' : View α) : Prop
  | same (hmutex : (v'.queue q).isMutex = (v.queue q).isMutex)
      (hholder : (v.queue q).isMutex → (v'.queue q).xMutexHolder = (v.queue q).xMutexHolder)
  | born (hborn : q = v.nextQueue) (hfree : (v'.queue q).xMutexHolder = none)
  | took (t : TaskId) (f : Frame α) (hact : act = .run t) (hframe : v.frame t = some f)
    (hpc : f.pc = .attempt)
      (hop : f.op = .semaphoreTake) (hqueue : f.xQueue = q) (hmutex : (v.queue q).isMutex)
      (hready : 0 < (v.queue q).uxMessagesWaiting) (hholder : (v'.queue q).xMutexHolder = some t)
  | gave (t : TaskId) (f : Frame α) (item : Option α) (hact : act = .run t)
    (hframe : v.frame t = some f)
      (hpc : f.pc = .attempt) (hop : f.op = .genericSend item) (hqueue : f.xQueue = q)
      (hmutex : (v.queue q).isMutex)
      (hready : (v.queue q).uxMessagesWaiting < (v.queue q).uxLength)
      (hfree : (v'.queue q).xMutexHolder = none)

theorem Ran.reheld {v v' : View α} {t : TaskId} {f : Frame α} (hran : Ran v t f v')
    (hframe : v.frame t = some f) (q : QueueId) : Reheld v (.run t) q v' := by
  have hmutex := (hran.queue_same q).isMutex
  by_cases hq : q = f.xQueue
  · subst hq
    cases hran with
    | sent item hpc hop hlive hready hholder =>
        simp only [View.complete, View.setFrame, View.setQueue, Function.update_self] at hmutex
        by_cases hm : (v.queue f.xQueue).isMutex ∧ (v.queue f.xQueue).uxItemSize = 0
        · refine .gave t f item rfl hframe hpc hop rfl hm.1 (by rw [hop] at hready; exact hready) ?_
          simp [View.complete, View.setFrame, View.setQueue, Contents.sent, hm]
        · refine .same ?_ fun hisMutex => ?_
          · simpa [View.complete, View.setFrame, View.setQueue] using hmutex
          · have hsize : (v.queue f.xQueue).uxItemSize ≠ 0 := fun h => hm ⟨hisMutex, h⟩
            simp [View.complete, View.setFrame, View.setQueue, Contents.sent, hsize]
    | received =>
        exact .same hmutex fun _ => by
          simp [View.complete, View.setFrame, View.setQueue, Contents.received]
    | taken hpc hop hlive hready =>
        by_cases hm : (v.queue f.xQueue).isMutex
        · refine .took t f rfl hframe hpc hop rfl hm (by rw [hop] at hready; exact hready) ?_
          simp [View.complete, View.setFrame, View.setQueue, Contents.taken, hm]
        · exact .same hmutex fun h => absurd h hm
    | left res elapsed hpc =>
        refine .same hmutex fun _ => ?_
        unfold View.leave
        cases f.api.locks <;> cases res <;> rfl
    | _ => exact .same hmutex fun _ => rfl
  · refine .same hmutex fun _ => ?_
    rw [hran.queue_ne hq]

theorem Stepped.reheld {v v' : View α} {act : Act α} (hstepped : Stepped v act v') (q : QueueId) :
    Reheld v act q v' := by
  have hsame {v' : View α} (hqueue : v'.queue q = v.queue q) : Reheld v act q v' :=
    .same (by rw [hqueue]) fun _ => by rw [hqueue]
  cases hstepped with
  | scheduled => exact hsame rfl
  | asserted => exact hsame rfl
  | freed => exact hsame rfl
  | ran hframe hran => exact hran.reheld hframe q
  | called t api startTick hframe => exact hsame (congrFun (v.enter_queue t api startTick) q)
  | created t spec Q hbuild =>
      by_cases hq : q = v.nextQueue
      · refine .born hq ?_
        simp [hq, View.addQueue, Queue.contents, NewQueue.build_holder hbuild]
      · exact hsame (by simp [View.addQueue, hq])
  | deleted t p hlive =>
      by_cases hq : q = p
      · subst hq
        exact .same (by simp [View.setQueue]) fun _ => by simp [View.setQueue]
      · exact hsame (by simp [View.setQueue, hq])
  | spawned => exact hsame rfl
  | exited => exact hsame rfl
  | reaped =>
      refine hsame ?_
      unfold View.reap
      split <;> rfl

/-! ## The last mutex -/

namespace MutexInv

variable {v : View α} {t : TaskId} {q : QueueId}

theorem held_ne_zero (hinv : MutexInv v) (hmutex : (v.queue q).isMutex)
    (hholder : (v.queue q).xMutexHolder = some t) :
    v.held t ≠ 0 := by
  have hmem : q ∈ v.mutexes t := View.mem_mutexes.mpr ⟨hinv.created q hmutex, hmutex, hholder⟩
  rw [hinv.held t]
  exact Finset.card_ne_zero_of_mem hmem

theorem held_zero (hinv : MutexInv v)
    (hnone : ∀ q, (v.queue q).isMutex → (v.queue q).xMutexHolder ≠ some t) :
    v.held t = 0 := by
  rw [hinv.held t, Finset.card_eq_zero]
  refine Finset.eq_empty_of_forall_notMem fun q hq => ?_
  obtain ⟨-, hmutex, hholder⟩ := View.mem_mutexes.mp hq
  exact hnone q hmutex hholder

theorem held_unspawned (hinv : MutexInv v) (ht : v.nextTask ≤ t) : v.held t = 0 :=
  hinv.held_zero fun q hmutex hholder =>
    absurd (hinv.spawned q t hmutex hholder) (Nat.not_lt_of_le ht)

end MutexInv

namespace State

variable {k k' : State α} {t : TaskId} {f : Frame α}

/-- `xTaskPriorityDisinherit` leaves a task without mutexes at its base priority. -/
theorem xTaskPriorityDisinherit_last {holder : Option TaskId}
    (hdone : k.xTaskPriorityDisinherit holder = some k')
    (hgone : (k'.task k.pxCurrentTCB).uxMutexesHeld = 0) :
    (k.task k.pxCurrentTCB).uxMutexesHeld = 0 ∨
      (k'.task k.pxCurrentTCB).uxPriority = (k'.task k.pxCurrentTCB).uxBasePriority := by
  unfold xTaskPriorityDisinherit at hdone
  split at hdone
  · cases hdone
    exact .inl hgone
  next h =>
    split at hdone
    next hheld =>
      obtain ⟨rfl, -⟩ := hheld
      dsimp only at hdone
      split at hdone
      · cases hdone
        exact .inr (by simp [modTask])
      next hnot =>
        cases hdone
        exact .inr (not_not.mp fun hne => hnot ⟨hne, hgone⟩)
    next => simp at hdone

theorem xQueueGenericSend_last (hcurrent : k.pxCurrentTCB = t) {item : Option α}
    (hgone : ((k.xQueueGenericSend t f item).task t).uxMutexesHeld = 0) :
    (k.task t).uxMutexesHeld = 0 ∨ ((k.xQueueGenericSend t f item).task t).uxPriority =
      ((k.xQueueGenericSend t f item).task t).uxBasePriority := by
  have hafter (k₁ : State α) (res : QueueResult α) :
      (((k₁.retried t f.waitList).wakeFirst (.toReceive f.xQueue)).complete t f res).prios t =
        k₁.prios t ∧
      ((((k₁.retried t f.waitList).wakeFirst (.toReceive f.xQueue)).complete t f res).task
        t).uxMutexesHeld = (k₁.task t).uxMutexesHeld := by
    constructor
    · rw [prios_complete, prios_wakeFirst]
      rfl
    · rw [← view_held, view_complete, view_wakeFirst, view_retried]
      rfl
  unfold xQueueGenericSend at hgone ⊢
  dsimp only at hgone ⊢
  split at hgone
  next hspace =>
    rw [if_pos hspace]
    split at hgone
    next hcopy => exact .inl hgone
    next k₁ hcopy =>
      obtain ⟨hprios, hheld⟩ := hafter k₁ (.pass none)
      rw [hheld] at hgone
      have hprio := congrArg Prod.fst hprios
      have hbase := congrArg (fun p => p.2.1) hprios
      simp only [prios, Task.prio] at hprio hbase
      rw [hprio, hbase]
      unfold prvCopyDataToQueue at hcopy
      split at hcopy
      · split at hcopy
        · obtain ⟨k₂, hdone, rfl⟩ := Option.map_eq_some_iff.mp hcopy
          have hlast := xTaskPriorityDisinherit_last hdone (by rw [hcurrent]; exact hgone)
          rw [hcurrent] at hlast
          exact hlast
        · cases hcopy
          exact .inl hgone
      · cases hcopy
        exact .inl hgone
  next hspace =>
    rw [← view_held] at hgone
    refine .inl ?_
    rcases view_failOrWait k t f with ⟨-, hview⟩ | ⟨-, timeOut, hview⟩
    · rw [hview] at hgone
      exact hgone
    · rw [hview] at hgone
      exact hgone

end State

/-- A task that holds no mutex after a step held none before, is new, or has just given one back. -/
theorem Stepped.held_zero {v v' : View α} {act : Act α} (hstepped : Stepped v act v') {u : TaskId}
    (hgone : v'.held u = 0) :
    v.held u = 0 ∨ u = v.nextTask ∨
      act = .run u ∧ ∃ f item, v.frame u = some f ∧ f.pc = .attempt ∧ f.op = .genericSend item := by
  cases hstepped with
  | @ran t f v' hframe hran =>
      cases hran with
      | sent item hpc hop =>
          by_cases hu : u = t
          · subst hu
            exact .inr (.inr ⟨rfl, f, item, hframe, hpc, hop⟩)
          · refine .inl ?_
            simp only [View.complete, View.setFrame, View.setQueue, View.released] at hgone
            split at hgone
            · simpa [View.setHeld, hu] using hgone
            · exact hgone
      | taken hpc hop =>
          refine .inl ?_
          simp only [View.complete, View.setFrame, View.setQueue, View.acquired] at hgone
          split at hgone
          · by_cases hu : u = t
            · simp [View.setHeld, hu] at hgone
            · simpa [View.setHeld, hu] using hgone
          · exact hgone
      | left res elapsed hpc =>
          refine .inl ?_
          revert hgone
          unfold View.leave
          cases f.api.locks <;> cases res <;> exact id
      | _ => exact .inl hgone
  | called t api startTick hframe =>
      rw [View.enter_held] at hgone
      exact .inl hgone
  | spawned =>
      by_cases hu : u = v.nextTask
      · exact .inr (.inl hu)
      · exact .inl (by simpa [View.addTask, hu] using hgone)
  | reaped =>
      refine .inl ?_
      revert hgone
      unfold View.reap
      split <;> exact id
  | _ => exact .inl hgone

/-! ## The way to the wait list -/

theorem State.queue_xTaskPriorityInherit (k : State α) (holder : Option TaskId) :
    (k.xTaskPriorityInherit holder).queue = k.queue := by
  unfold xTaskPriorityInherit
  split
  · rfl
  · dsimp only
    split <;> rfl

/-- `xTaskPriorityInherit` lifts the holder to the running task. -/
theorem State.xTaskPriorityInherit_le (k : State α) (holder : TaskId) :
    ((k.xTaskPriorityInherit (some holder)).task k.pxCurrentTCB).uxPriority ≤
      ((k.xTaskPriorityInherit (some holder)).task holder).uxPriority := by
  simp only [xTaskPriorityInherit]
  split
  · by_cases hsame : k.pxCurrentTCB = holder
    · rw [hsame]
    · simp [modTask, hsame]
  next hnot => exact Nat.le_of_not_lt hnot

/-- How a task gets to the points at which it has decided to block. -/
theorem State.runFrame_mustWait {k : State α} {t : TaskId} {f f' : Frame α}
    (hcurrent : k.pxCurrentTCB = t) (hbefore : k.view.frame t = some f)
    (hframe : (k.runFrame t f).view.frame t = some f') (hmust : f'.pc.mustWait) :
    (∃ fault, k.runFrame t f = k.halt fault) ∨
    (f.pc = .inherit ∧ f' = { f with pc := .place } ∧
      k.runFrame t f = (k.xTaskPriorityInherit (k.queue f.xQueue).xMutexHolder).setPc t f .place) ∨
    (f.pc = .checkBlock ∧ (∃ pc, f' = { f with pc := pc }) ∧ k.runFrame t f = k.setFrame t f' ∧
      (f'.pc = .inherit → (k.queue f.xQueue).isMutex) ∧
      (f'.pc = .place → f.op = .semaphoreTake → (k.queue f.xQueue).isMutex = false)) := by
  have hmoved {k' : State α} {f₁ : Frame α} (hview : k'.view.frame t = some f₁)
      (heq : k.runFrame t f = k') : f' = f₁ := by
    rw [heq, hview] at hframe
    exact (Option.some.inj hframe).symm
  have hset (k₁ : State α) (f₁ : Frame α) : (k₁.setFrame t f₁).view.frame t = some f₁ := by
    rw [view_setFrame]
    exact Function.update_self ..
  have hother {k' : State α} {f₁ : Frame α} {P : Prop} (heq : k.runFrame t f = k')
      (hview : k'.view.frame t = some f₁) (hpc : f₁.pc.mustWait = false) : P := by
    rw [hmoved hview heq, hpc] at hmust
    cases hmust
  generalize hk' : k.runFrame t f = k' at hframe ⊢
  have heq := hk'
  unfold runFrame at hk'
  dsimp only at hk'
  split at hk'
  · exact .inl ⟨_, hk'.symm⟩
  -- every other program point leads past the decision, or back before it
  · split at hk'
    next hpc =>
      split at hk'
      · subst hk'
        exact hother heq (hset _ _) rfl
      · exact .inl ⟨_, hk'.symm⟩
    next hpc =>
      -- the critical section ends in a result, or before the scheduler is suspended
      have hran : Ran k.view t f k'.view := by
        rw [← heq]
        exact ran_runFrame hcurrent
      generalize hv' : k'.view = v' at hran
      have hframe' {f₁ : Frame α} (hview : v'.frame t = some f₁) : k'.view.frame t = some f₁ := by
        rw [hv', hview]
      cases hran with
      | halted fault hfaults => exact hother heq (hframe' hbefore) (by rw [hpc]; rfl)
      | entered hentry => simp [hpc] at hentry
      | waits timeOut => exact hother heq (hframe' (Function.update_self ..)) rfl
      | moved frame' hlooping => simp [hpc, Pc.looping] at hlooping
      | gaveUp => exact hother heq (hframe' (Function.update_self ..)) rfl
      | timedOut hlooping => simp [hpc, Pc.looping] at hlooping
      | sent => exact hother heq (hframe' (Function.update_self ..)) rfl
      | received => exact hother heq (hframe' (Function.update_self ..)) rfl
      | taken => exact hother heq (hframe' (Function.update_self ..)) rfl
      | left res elapsed hleave => simp [hpc] at hleave
    next hpc =>
      subst hk'
      exact hother heq (hset _ _) rfl
    next hpc =>
      subst hk'
      exact hother heq (hset _ _) rfl
    next hpc =>
      subst hk'
      exact hother heq (hset _ _) (by dsimp only; split <;> rfl)
    next hpc =>
      refine .inr (.inr ⟨hpc, ?_⟩)
      split at hk'
      · split at hk'
        next hop =>
          subst hk'
          have hf' := hmoved (hset _ _) heq
          refine ⟨⟨_, hf'⟩, by rw [hf']; rfl, ?_, ?_⟩ <;> subst hf' <;> dsimp only <;> split <;>
            simp_all
        next hop =>
          subst hk'
          have hf' := hmoved (hset _ _) heq
          refine ⟨⟨_, hf'⟩, by rw [hf']; rfl, ?_, ?_⟩ <;> subst hf'
          · simp
          · exact fun _ htake => absurd htake hop
      · subst hk'
        exact hother heq (hset _ _) rfl
    next hpc =>
      subst hk'
      exact .inr (.inl ⟨hpc, hmoved (hset _ _) heq, rfl⟩)
    next hpc =>
      subst hk'
      exact hother heq (hset _ _) rfl
    next hpc =>
      subst hk'
      exact hother heq (hset _ _) rfl
    next hpc =>
      subst hk'
      exact hother heq (hset _ _) rfl
    next hpc =>
      subst hk'
      unfold afterResume at heq
      split at heq
      · exact hother heq (hset _ _) rfl
      · exact hother heq (hset _ _) rfl
      · exact hother heq (hset _ _) rfl
    next hpc =>
      split at hk' <;> subst hk'
      · exact hother heq (hset _ _) rfl
      · exact hother heq (hset _ _) rfl
    next res hpc =>
      subst hk'
      rw [view_leave] at hframe
      unfold View.leave at hframe
      split at hframe <;> simp [View.setRet, View.setFrame] at hframe

/-- Nobody but the task itself brings it there. -/
theorem Stepped.frame_mustWait {v v' : View α} {act : Act α} (hstepped : Stepped v act v')
    {t : TaskId} {f : Frame α} (hframe : v'.frame t = some f) (hmust : f.pc.mustWait) :
    act = .run t ∨ v.frame t = some f := by
  cases hstepped with
  | @ran u g v' hbefore hran =>
      by_cases ht : t = u
      · subst ht
        exact .inl rfl
      · rw [hran.frame_ne ht] at hframe
        exact .inr hframe
  | called u api startTick hbefore =>
      rcases v.enter_frame_cases u api startTick hbefore hframe with hold | ⟨-, -, hentry, -⟩
      · exact .inr hold
      · simp [hentry, Pc.mustWait] at hmust
  | spawned =>
      by_cases ht : t = v.nextTask
      · simp [View.addTask, ht] at hframe
      · exact .inr (by simpa [View.addTask, ht] using hframe)
  | reaped =>
      refine .inr ?_
      revert hframe
      unfold View.reap
      split <;> exact id
  | _ => exact .inr hframe

/-! ## The invariant -/

/-- The users of mutexes keep their promises, and the scheduler runs a ready task of highest
priority. -/
structure Act.Inherits (k : State α) (act : Act α) : Prop extends act.UsesMutexes k where
  highest : ∀ t, act.actor = some t → k.uxSchedulerSuspended = 0 →
    ∀ u, (k.task u).xStateList = .ready → (k.task u).uxPriority ≤ (k.task t).uxPriority

/-- What the priorities, the wait lists and the mutexes have to do with each other. -/
structure Inheritance (k : State α) : Prop where
  ranks : Ranks k
  unheld : ∀ t, (k.task t).uxMutexesHeld = 0 → (k.task t).uxPriority = (k.task t).uxBasePriority
  /-- A task in a wait list has no lower priority than the base priorities after it. -/
  sorted : ∀ list, (k.eventList list).Pairwise fun u w =>
    (k.task w).uxBasePriority ≤ (k.task u).uxPriority
  holder : ∀ q h w, (k.queue q).isMutex → (k.queue q).xMutexHolder = some h →
    w ∈ k.eventList (.toReceive q) → (k.task w).uxBasePriority ≤ (k.task h).uxPriority
  inheriting : ∀ t f, k.view.frame t = some f → f.pc = .inherit → (k.queue f.xQueue).isMutex
  placing : ∀ t f h, k.view.frame t = some f → f.pc = .place → f.op = .semaphoreTake →
    (k.queue f.xQueue).isMutex → (k.queue f.xQueue).xMutexHolder = some h →
    (k.task t).uxPriority ≤ (k.task h).uxPriority
  ready : ∀ list t, t ∈ k.woken list → (k.task t).xStateList = .ready
  /-- The tasks that wait for a free mutex wait behind one that has been woken for it. -/
  owed : ∀ q, (k.queue q).isMutex → (k.queue q).xMutexHolder = none →
    k.eventList (.toReceive q) ≠ [] →
    ∃ u ∈ k.woken (.toReceive q), ∀ w ∈ k.eventList (.toReceive q), (k.task w).uxBasePriority ≤
      (k.task u).uxPriority

/-- A task of the right priority finds its place in a wait list. -/
theorem Ranks.vListInsert_sorted {k : State α} (hranks : Ranks k) {tasks : List TaskId} (t : TaskId)
    (hsorted : tasks.Pairwise fun u w => (k.task w).uxBasePriority ≤ (k.task u).uxPriority) :
    (vListInsert (fun u => (k.task u).xEventValue) t tasks).Pairwise fun u w =>
      (k.task w).uxBasePriority ≤ (k.task u).uxPriority := by
  refine vListInsert_pairwise hsorted (fun u hu => ?_) ?_
  · have hvalue : (k.task u).xEventValue ≤ (k.task t).xEventValue := (mem_takeWhile_value hu).2
    exact Nat.le_trans (hranks.base t) (hranks.value_le.mp hvalue)
  · have hlower (u : TaskId) (hu : ¬ decide ((k.task u).xEventValue ≤ (k.task t).xEventValue)) :
        (k.task u).uxPriority ≤ (k.task t).uxPriority := by
      rw [decide_eq_true_eq, hranks.value_le] at hu
      exact Nat.le_of_not_le hu
    refine forall_mem_dropWhile hsorted (fun u hu => ?_) fun u w hu hw => ?_
    · exact Nat.le_trans (hranks.base u) (hlower u hu)
    · exact Nat.le_trans hw (hlower u hu)

/-! ## One step -/

theorem Sched.mem_retried {S : Sched} {list l : EventList} {t u : TaskId} (hmem : u ∈ S.woken l)
    (hother : l = list → u ≠ t) : u ∈ (S.setWoken list ((S.woken list).erase t)).woken l := by
  simp only [Sched.setWoken, Function.update_apply]
  split
  next hl =>
    subst hl
    exact (List.mem_erase_of_ne (hother rfl)).mpr hmem
  next => exact hmem

theorem Sched.mem_wakeFirst {S : Sched} {list l : EventList} {u : TaskId} (hmem : u ∈ S.woken l) :
    u ∈ (S.wakeFirst list).woken l := by
  unfold Sched.wakeFirst
  split
  · exact hmem
  · simp only [Sched.setWoken, Sched.unlist, Function.update_apply]
    split
    next hl =>
      subst hl
      exact List.mem_append_left _ hmem
    next => exact hmem

theorem State.step_tick {k k' : State α} {act : Act α} (hactor : act.actor = none)
    (hstep : k.step act = some k') :
    k' = k.xTaskIncrementTick := by
  unfold State.step at hstep
  simp only [hactor] at hstep
  split at hstep <;> cases hstep
  rfl

/-- A step from a state in which the invariants hold. -/
structure Inheriting (k : State α) (act : Act α) (k' : State α) : Prop where
  inv : Inheritance k
  kernel : KernelInv k
  calls : Calls k.view fun _ _ => True
  mutex : MutexInv k.view
  after : MutexInv k'.view
  highest : ∀ t, act.actor = some t → k.uxSchedulerSuspended = 0 →
    ∀ u, (k.task u).xStateList = .ready → (k.task u).uxPriority ≤ (k.task t).uxPriority
  step : k.step act = some k'

namespace Inheriting

variable {k k' : State α} {act : Act α} {t u : TaskId} {q : QueueId}

/-- The priority of a task that gives nothing back does not fall. -/
theorem kept (h : Inheriting k act k') (hborn : u < k.nextTask)
    (hgives : ∀ f item, act = .run u → k.view.frame u = some f → f.pc = .attempt →
      f.op ≠ .genericSend item) :
    (k'.task u).uxBasePriority = (k.task u).uxBasePriority ∧
      (k.task u).uxPriority ≤ (k'.task u).uxPriority := by
  obtain ⟨hbase, hle | ⟨hact, -, f, item, hframe, hpc, hop⟩⟩ :=
    (State.reprioritised_step h.step).lifts hborn
  · exact ⟨hbase, hle⟩
  · exact absurd hop (hgives f item hact hframe hpc)

theorem listed_kept (h : Inheriting k act k') {list : EventList} (hmem : u ∈ k.eventList list) :
    (k'.task u).uxBasePriority = (k.task u).uxBasePriority ∧
      (k.task u).uxPriority ≤ (k'.task u).uxPriority := by
  have hlists := h.kernel.wait.lists
  have hblocked := (hlists.waiting u list ((hlists.listed u list).mp hmem)).1
  refine h.kept (hlists.lt_of_blocked hblocked) fun f item hact hframe hpc => ?_
  exact absurd hmem ((h.kernel.attempting hact hframe hpc h.step).2 list)

theorem woken_kept (h : Inheriting k act k') (hmem : u ∈ k.woken (.toReceive q)) :
    (k.task u).uxPriority ≤ (k'.task u).uxPriority := by
  obtain ⟨-, f, hframe, hwait, -⟩ := h.kernel.wait.lists.awoken u _ hmem
  have hborn : u < k.nextTask := by
    by_contra hge
    rw [h.kernel.wait.window.unspawned u (Nat.le_of_not_lt hge)] at hframe
    cases hframe
  refine (h.kept hborn fun f' item _ hframe' _ hop => ?_).2
  obtain rfl : f' = f := Option.some.inj (hframe'.symm.trans hframe)
  simp [Frame.waitList, hop, Op.waitList] at hwait

/-- A task that still holds a mutex keeps its priority. -/
theorem holder_kept (h : Inheriting k act k') (hmutex : (k'.queue q).isMutex)
    (hholder : (k'.queue q).xMutexHolder = some u) (hborn : u < k.nextTask) :
    (k.task u).uxPriority ≤ (k'.task u).uxPriority := by
  rcases ((State.reprioritised_step h.step).lifts hborn).2 with hle | ⟨-, hgone, -⟩
  · exact hle
  · exact absurd hgone (h.after.held_ne_zero hmutex hholder)

/-- A call that waits for a mutex is one that locks it. -/
theorem take_of_mutex (h : Inheriting k act k') {f : Frame α} (hframe : k.view.frame t = some f)
    (hwait : f.waitList = .toReceive q) (hmutex : (k.queue q).isMutex) :
    f.op = .semaphoreTake ∧ f.xQueue = q ∧ f.api.locks = some q := by
  have hqueue : f.xQueue = q := by
    unfold Frame.waitList at hwait
    cases hop : f.op <;> simp_all [Op.waitList]
  subst hqueue
  have hf := h.calls.wellFormed t f hframe
  rcases h.mutex.typed t f hframe hmutex with hlocks | hunlocks
  · exact ⟨(hf.of_locks hlocks).1, rfl, hlocks⟩
  · simp [Frame.waitList, (hf.of_unlocks hunlocks).1, Op.waitList] at hwait

/-! ### Wait lists -/

theorem sorted (h : Inheriting k act k') (list : EventList) :
    (k'.eventList list).Pairwise fun u w =>
      (k'.task w).uxBasePriority ≤ (k'.task u).uxPriority := by
  have hsub {tasks : List TaskId} (hsublist : tasks.Sublist (k.eventList list)) :
      tasks.Pairwise fun u w => (k'.task w).uxBasePriority ≤ (k'.task u).uxPriority := by
    refine ((h.inv.sorted list).sublist hsublist).imp_of_mem fun hu hw hle => ?_
    rw [(h.listed_kept (hsublist.mem hw)).1]
    exact Nat.le_trans hle (h.listed_kept (hsublist.mem hu)).2
  cases h.kernel.relisted h.step with
  | same hsched =>
      have hlist : k'.eventList = k.eventList := congrArg Sched.eventList hsched
      exact hsub (by rw [hlist])
  | fades hfades => exact hsub (hfades.sub list)
  | placed t f hact hframe hpc hlists =>
      rw [hlists]
      by_cases hl : list = f.waitList
      · subst hl
        rw [Function.update_self]
        have hkept : ∀ u ∈ vListInsert (fun u => (k.task u).xEventValue) t (k.eventList f.waitList),
            (k'.task u).uxBasePriority = (k.task u).uxBasePriority ∧
              (k.task u).uxPriority ≤ (k'.task u).uxPriority := by
          intro u hu
          rcases List.mem_cons.mp ((vListInsert_perm _ t _).mem_iff.mp hu) with rfl | hu
          · refine h.kept (h.kernel.wait.spawned (State.step_canRun (by rw [hact]; rfl) h.step)) ?_
            intro f' item _ hframe' hpc'
            obtain rfl : f' = f := Option.some.inj (hframe'.symm.trans hframe)
            simp [hpc] at hpc'
          · exact h.listed_kept hu
        refine (h.inv.ranks.vListInsert_sorted t (h.inv.sorted _)).imp_of_mem fun hu hw hle => ?_
        rw [(hkept _ hw).1]
        exact Nat.le_trans hle (hkept _ hu).2
      · rw [Function.update_of_ne hl]
        exact hsub (.refl _)
  | refused t f hact hframe hpc hnot hsched =>
      have hlist : k'.eventList = k.eventList := congrArg Sched.eventList hsched
      exact hsub (by rw [hlist])
  | passed t f hact hframe hpc hready hsched =>
      have hlist : k'.eventList = _ := congrArg Sched.eventList hsched
      rw [hlist]
      refine hsub ?_
      unfold Sched.wakeFirst
      split
      · exact .refl _
      · exact List.erase_sublist

/-- A task that has been woken and has not run since is ready. -/
theorem ready (h : Inheriting k act k') {list : EventList} (hmem : t ∈ k'.woken list) :
    (k'.task t).xStateList = .ready :=
  h.kernel.wokenReady_step h.inv.ready h.step list t hmem

/-! ### Priorities -/

/-- The steps after which a task has decided to block. -/
theorem waits (h : Inheriting k act k') {f' : Frame α} (hframe : k'.view.frame t = some f')
    (hmust : f'.pc.mustWait) :
    (act.actor = none ∧ k.view.frame t = some f') ∨
      ∃ f, act = .run t ∧ k.view.frame t = some f ∧ k' = (k.switchTo t).runFrame t f := by
  have hrun (hact : act = .run t) : ∃ f, act = .run t ∧ k.view.frame t = some f ∧
      k' = (k.switchTo t).runFrame t f := by
    subst hact
    cases hbefore : k.view.frame t with
    | none =>
        have hperform := (State.step_perform rfl hbefore h.step).2
        simp [State.perform] at hperform
    | some f => exact ⟨f, rfl, rfl, State.step_inside hbefore rfl h.step⟩
  rcases (State.stepped_step h.step).frame_mustWait hframe hmust with hact | hbefore
  · exact .inr (hrun hact)
  · cases hactor : act.actor with
    | none => exact .inl ⟨rfl, hbefore⟩
    | some u =>
        -- the scheduler is suspended, so nobody else runs
        have hin : f'.pc.inWindow := by cases hpc : f'.pc <;> simp_all [Pc.mustWait, Pc.inWindow]
        obtain ⟨hsuspended, hcurrent⟩ := h.kernel.wait.window.window t f' hbefore hin
        have hone : k.uxSchedulerSuspended = 1 := hsuspended
        have hu := ((k.canRun_iff u).mp (State.step_canRun hactor h.step)).2.2 (by omega)
        obtain rfl : t = u := hcurrent.symm.trans hu
        exact .inr (hrun (State.act_run hbefore hactor h.step))

theorem inheriting (h : Inheriting k act k') {f' : Frame α} (hframe : k'.view.frame t = some f')
    (hpc : f'.pc = .inherit) : (k'.queue f'.xQueue).isMutex := by
  have hmust : f'.pc.mustWait := by rw [hpc]; rfl
  rcases h.waits hframe hmust with ⟨hactor, hbefore⟩ | ⟨f, hact, hbefore, rfl⟩
  · have hview : k'.view = k.view := by
      rw [State.step_tick hactor h.step, State.view_xTaskIncrementTick]
    have hmutex : (k'.view.queue f'.xQueue).isMutex := by
      rw [hview]
      exact h.inv.inheriting t f' hbefore hpc
    exact hmutex
  · rcases State.runFrame_mustWait (k := k.switchTo t) (t := t) rfl hbefore hframe hmust with
      ⟨fault, heq⟩ | ⟨-, hf', -⟩ | ⟨-, ⟨pc, hf'⟩, heq, hmutex, -⟩
    · rw [heq] at hframe ⊢
      exact h.inv.inheriting t f' hframe hpc
    · simp [hf'] at hpc
    · have hq : f'.xQueue = f.xQueue := by rw [hf']
      rw [heq, hq]
      exact hmutex hpc

/-- A task that is about to wait for a mutex does not run above the holder. -/
theorem placing (h : Inheriting k act k') {f' : Frame α} (hframe : k'.view.frame t = some f')
    (hpc : f'.pc = .place) (hop : f'.op = .semaphoreTake) (hmutex : (k'.queue f'.xQueue).isMutex)
    (hholder : (k'.queue f'.xQueue).xMutexHolder = some u) :
    (k'.task t).uxPriority ≤ (k'.task u).uxPriority := by
  have hmust : f'.pc.mustWait := by rw [hpc]; rfl
  rcases h.waits hframe hmust with ⟨hactor, hbefore⟩ | ⟨f, hact, hbefore, rfl⟩
  · have htick := State.step_tick hactor h.step
    have hview : k'.view = k.view := by rw [htick, State.view_xTaskIncrementTick]
    have hprio (w : TaskId) : (k'.task w).uxPriority = (k.task w).uxPriority := by
      have hprios : k'.prios w = k.prios w := by rw [htick, State.prios_xTaskIncrementTick]
      exact congrArg Prod.fst hprios
    have hqueue : (k'.queue f'.xQueue).contents = (k.queue f'.xQueue).contents :=
      congrFun (congrArg View.queue hview) _
    rw [hprio, hprio]
    refine h.inv.placing t f' u hbefore hpc hop ?_ ?_
    · exact (congrArg Contents.isMutex hqueue).symm.trans hmutex
    · exact (congrArg Contents.xMutexHolder hqueue).symm.trans hholder
  · rcases State.runFrame_mustWait (k := k.switchTo t) (t := t) rfl hbefore hframe hmust with
      ⟨fault, heq⟩ | ⟨-, hf', heq⟩ | ⟨-, ⟨pc, hf'⟩, heq, -, hplain⟩
    · rw [heq] at hframe hmutex hholder ⊢
      exact h.inv.placing t f' u hframe hpc hop hmutex hholder
    · have hq : f'.xQueue = f.xQueue := by rw [hf']
      rw [heq, hq] at hholder
      have hbefore : ((k.switchTo t).queue f.xQueue).xMutexHolder = some u := by
        rw [← State.queue_xTaskPriorityInherit]
        exact hholder
      have hprio (k : State α) (w : TaskId) :
          ((k.setPc t f .place).task w).uxPriority = (k.task w).uxPriority :=
        congrArg Prod.fst (congrFun (State.prios_setPc k t f .place) w)
      rw [heq, hprio, hprio, hbefore]
      exact State.xTaskPriorityInherit_le (k.switchTo t) u
    · have hq : f'.xQueue = f.xQueue := by rw [hf']
      have hop' : f'.op = f.op := by rw [hf']
      rw [heq, hq] at hmutex
      exact absurd (hmutex.symm.trans (hplain hpc (hop'.symm.trans hop))) (by simp)

theorem unheld (h : Inheriting k act k') (hgone : (k'.task t).uxMutexesHeld = 0) :
    (k'.task t).uxPriority = (k'.task t).uxBasePriority := by
  have hprios := State.reprioritised_step h.step
  have hsame (heq : k'.prios t = k.prios t) (hheld : (k.task t).uxMutexesHeld = 0) :
      (k'.task t).uxPriority = (k'.task t).uxBasePriority := by
    have hprio : (k'.task t).uxPriority = (k.task t).uxPriority := congrArg Prod.fst heq
    have hbase : (k'.task t).uxBasePriority = (k.task t).uxBasePriority :=
      congrArg (fun p => p.2.1) heq
    rw [hprio, hbase]
    exact h.inv.unheld t hheld
  have hreset {p value : Nat} (heq : k'.prios = Function.update k.prios t (p, p, value)) :
      (k'.task t).uxPriority = (k'.task t).uxBasePriority := by
    have hnew : k'.prios t = (p, p, value) := by rw [heq, Function.update_self]
    exact (congrArg Prod.fst hnew).trans (congrArg (fun p => p.2.1) hnew).symm
  have hlast : (k.task t).uxMutexesHeld = 0 ∨
      (k'.task t).uxPriority = (k'.task t).uxBasePriority := by
    rcases (State.stepped_step h.step).held_zero hgone with
      hheld | hnew | ⟨rfl, f, item, hframe, hpc, hop⟩
    · exact .inl hheld
    · exact .inl (h.mutex.held_unspawned (Nat.le_of_eq hnew.symm))
    · rw [State.step_inside hframe rfl h.step] at hgone ⊢
      unfold State.runFrame at hgone ⊢
      simp only [hpc, State.attempt, hop] at hgone ⊢
      split at hgone
      next hdead => exact .inl hgone
      next hlive =>
        rw [if_neg hlive]
        exact State.xQueueGenericSend_last rfl hgone
  rcases hlast with hheld | hdone
  · cases hprios with
    | same heq => exact hsame (congrFun heq t) hheld
    | boosted u w f hact hframe hpc hholder hlower heq =>
        by_cases ht : t = w
        · -- the holder of a mutex holds one
          subst ht
          have hmutex := h.inv.inheriting u f hframe hpc
          exact absurd hheld (h.mutex.held_ne_zero hmutex hholder)
        · exact hsame (by rw [heq, Function.update_of_ne ht]) hheld
    | dropped u f item hact hframe hpc hop hmutex hholder hlast hgone heq =>
        by_cases ht : t = u
        · subst ht
          exact hreset heq
        · exact hsame (by rw [heq, Function.update_of_ne ht]) hheld
    | spawned c uxPriority hact hlt hnext heq =>
        by_cases ht : t = k.nextTask
        · rw [← ht] at heq
          exact hreset heq
        · exact hsame (by rw [heq, Function.update_of_ne ht]) hheld
  · exact hdone

/-! ### Mutexes -/

/-- Whoever takes a mutex does not run below the tasks that wait for it. -/
theorem took (h : Inheriting k act k') {f : Frame α} {w : TaskId} (hact : act = .run t)
    (hframe : k.view.frame t = some f) (hpc : f.pc = .attempt) (hmutex : (k.queue q).isMutex)
    (hready : 0 < (k.queue q).uxMessagesWaiting) (hmem : w ∈ k.eventList (.toReceive q)) :
    (k.task w).uxBasePriority ≤ (k.task t).uxPriority := by
  have hfree : (k.queue q).xMutexHolder = none := by
    have hcount := h.mutex.count q hmutex
    cases hholder : (k.queue q).xMutexHolder with
    | none => rfl
    | some u =>
        have hnone : (k.queue q).uxMessagesWaiting = 0 := by
          rw [show (k.view.queue q).xMutexHolder = some u from hholder] at hcount
          exact hcount
        rw [hnone] at hready
        cases hready
  obtain ⟨u, hu, hle⟩ := h.inv.owed q hmutex hfree (List.ne_nil_of_mem hmem)
  have hhighest := h.highest t (by rw [hact]; rfl) (h.kernel.attempting hact hframe hpc h.step).1 u
    (h.inv.ready _ u hu)
  exact Nat.le_trans (hle w hmem) hhighest

/-- A task that joins the list of a mutex does not run above its holder. -/
theorem joined (h : Inheriting k act k') {f : Frame α} {w : TaskId}
    (hframe : k.view.frame w = some f) (hpc : f.pc = .place) (hwait : f.waitList = .toReceive q)
    (hmutex : (k.queue q).isMutex) (hholder : (k.queue q).xMutexHolder = some u) :
    (k.task w).uxPriority ≤ (k.task u).uxPriority := by
  obtain ⟨hop, rfl, -⟩ := h.take_of_mutex hframe hwait hmutex
  exact h.inv.placing w f u hframe hpc hop hmutex hholder

theorem holder (h : Inheriting k act k') {w : TaskId} (hmutex : (k'.queue q).isMutex)
    (hholder : (k'.queue q).xMutexHolder = some u) (hmem : w ∈ k'.eventList (.toReceive q)) :
    (k'.task w).uxBasePriority ≤ (k'.task u).uxPriority := by
  have hjoined {f : Frame α} (hact : act = .run w) (hframe : k.view.frame w = some f)
      (hpc : f.pc = .place) : (k'.task w).uxBasePriority ≤ (k.task w).uxPriority := by
    have hborn := h.kernel.wait.spawned (State.step_canRun (by rw [hact]; rfl) h.step)
    have hkept := h.kept hborn fun f' item _ hframe' hpc' => by
      obtain rfl : f' = f := Option.some.inj (hframe'.symm.trans hframe)
      simp [hpc] at hpc'
    rw [hkept.1]
    exact h.inv.ranks.base w
  cases (State.stepped_step h.step).reheld q with
  | same hsame hkept =>
      have hmutex₀ : (k.queue q).isMutex := hsame.symm.trans hmutex
      have hholder₀ : (k.queue q).xMutexHolder = some u := (hkept hmutex₀).symm.trans hholder
      refine Nat.le_trans ?_ (h.holder_kept hmutex hholder (h.mutex.spawned q u hmutex₀ hholder₀))
      rcases h.kernel.waiters h.step hmem with hmem | ⟨f, hact, hframe, hpc, hwait⟩
      · rw [(h.listed_kept hmem).1]
        exact h.inv.holder q u w hmutex₀ hholder₀ hmem
      · exact Nat.le_trans (hjoined hact hframe hpc) (h.joined hframe hpc hwait hmutex₀ hholder₀)
  | born hborn hfree => exact absurd (hfree.symm.trans hholder) (by simp)
  | took t f hact hframe hpc hop hqueue hmutex₀ hready hholder' =>
      obtain rfl : t = u := Option.some.inj (hholder'.symm.trans hholder)
      have hborn := h.kernel.wait.spawned (State.step_canRun (by rw [hact]; rfl) h.step)
      refine Nat.le_trans ?_ (h.holder_kept hmutex hholder hborn)
      rcases h.kernel.waiters h.step hmem with hmem | ⟨f', hact', hframe', hpc', -⟩
      · rw [(h.listed_kept hmem).1]
        exact h.took hact hframe hpc hmutex₀ hready hmem
      · obtain rfl : w = t := by
          rw [hact] at hact'
          cases hact'
          rfl
        exact hjoined hact' hframe' hpc'
  | gave t f item hact hframe hpc hop hqueue hmutex₀ hready hfree =>
      exact absurd (hfree.symm.trans hholder) (by simp)

/-- A mutex is given with its waiters behind the one that is woken. -/
theorem gave (h : Inheriting k act k') {f : Frame α} {item : Option α} (hact : act = .run t)
    (hframe : k.view.frame t = some f) (hpc : f.pc = .attempt) (hop : f.op = .genericSend item)
    (hqueue : f.xQueue = q) (hready : (k.queue q).uxMessagesWaiting < (k.queue q).uxLength)
    (hmutex : (k.queue q).isMutex) (hfree : (k'.queue q).xMutexHolder = none)
    (hwaiters : k'.eventList (.toReceive q) ≠ []) :
    ∃ u ∈ k'.woken (.toReceive q), ∀ w ∈ k'.eventList (.toReceive q),
      (k'.task w).uxBasePriority ≤ (k'.task u).uxPriority := by
  subst hact hqueue
  cases h.kernel.relisted h.step with
  | same hsched hidle =>
      -- the holder would still be there
      have hsame := congrArg Contents.xMutexHolder (congrFun (hidle t f rfl hframe hpc).1 f.xQueue)
      have hnone : (k.view.queue f.xQueue).xMutexHolder = none := hsame.symm.trans hfree
      have hcount := h.mutex.count f.xQueue hmutex
      have hlength : (k.view.queue f.xQueue).uxLength = 1 := (h.mutex.shape f.xQueue hmutex).1
      have hlt : (k.view.queue f.xQueue).uxMessagesWaiting < (k.view.queue f.xQueue).uxLength :=
        hready
      rw [hnone] at hcount
      rw [hcount, hlength] at hlt
      exact absurd hlt (Nat.lt_irrefl 1)
  | fades hfades hnot => exact absurd hpc (hnot t f rfl hframe)
  | placed u f' hact hframe' hpc' =>
      cases hact
      obtain rfl : f' = f := Option.some.inj (hframe'.symm.trans hframe)
      simp [hpc] at hpc'
  | refused u f' hact hframe' hpc' hnot =>
      cases hact
      obtain rfl : f' = f := Option.some.inj (hframe'.symm.trans hframe)
      rw [hop] at hnot
      exact absurd hready hnot
  | passed u f' hact hframe' hpc' hready' hsched =>
      cases hact
      obtain rfl : f' = f := Option.some.inj (hframe'.symm.trans hframe)
      have hwakes : f'.op.wakes f'.xQueue = .toReceive f'.xQueue := by rw [hop]; rfl
      rw [hwakes] at hsched
      unfold Sched.wakeFirst at hsched
      split at hsched
      next hnil =>
        have hlists := congrArg (fun S => S.eventList (.toReceive f'.xQueue)) hsched
        exact absurd (hlists.trans hnil) hwaiters
      next u rest hlist =>
        have hlist' : k.eventList (.toReceive f'.xQueue) = u :: rest := hlist
        have hlists : k'.eventList (.toReceive f'.xQueue) =
            (k.eventList (.toReceive f'.xQueue)).erase u :=
          congrArg (fun S => S.eventList (.toReceive f'.xQueue)) hsched
        have hwoken := congrArg (fun S => S.woken (.toReceive f'.xQueue)) hsched
        have hu : u ∈ k.eventList (.toReceive f'.xQueue) := by rw [hlist']; exact List.mem_cons_self
        refine ⟨u, ?_, fun w hw => ?_⟩
        · rw [show k'.woken (.toReceive f'.xQueue) = _ from hwoken]
          simp [Sched.setWoken]
        · rw [hlists, hlist', List.erase_cons_head] at hw
          have hw' : w ∈ k.eventList (.toReceive f'.xQueue) := by
            rw [hlist']; exact List.mem_cons_of_mem u hw
          have hsorted := h.inv.sorted (.toReceive f'.xQueue)
          rw [hlist'] at hsorted
          rw [(h.listed_kept hw').1]
          exact Nat.le_trans ((List.pairwise_cons.mp hsorted).1 w hw) (h.listed_kept hu).2

theorem owed (h : Inheriting k act k') (hmutex : (k'.queue q).isMutex)
    (hfree : (k'.queue q).xMutexHolder = none) (hwaiters : k'.eventList (.toReceive q) ≠ []) :
    ∃ u ∈ k'.woken (.toReceive q), ∀ w ∈ k'.eventList (.toReceive q),
      (k'.task w).uxBasePriority ≤ (k'.task u).uxPriority := by
  cases (State.stepped_step h.step).reheld q with
  | born hborn =>
      obtain ⟨w, hw⟩ := List.exists_mem_of_ne_nil _ hwaiters
      rcases h.kernel.waiters h.step hw with hmem | ⟨f, hact, hframe, hpc, hwait⟩
      · have hnil : k.eventList (.toReceive q) = [] :=
          h.kernel.wait.unborn_nil (Nat.le_of_eq hborn.symm) .receive
        rw [hnil] at hmem
        cases hmem
      · have hlt := h.kernel.wait.window.born w f hframe (by simp [hpc])
        have hqueue : f.xQueue = q := by
          unfold Frame.waitList at hwait
          cases hop : f.op <;> simp_all [Op.waitList]
        exact absurd (hqueue.trans hborn) (Nat.ne_of_lt hlt)
  | took t f hact hframe hpc hop hqueue hmutex₀ hready hholder =>
      exact absurd (hfree.symm.trans hholder) (by simp)
  | gave t f item hact hframe hpc hop hqueue hmutex₀ hready =>
      exact h.gave hact hframe hpc hop hqueue hready hmutex₀ hfree hwaiters
  | same hsame hkept =>
      have hmutex₀ : (k.queue q).isMutex := hsame.symm.trans hmutex
      have hfree₀ : (k.queue q).xMutexHolder = none := (hkept hmutex₀).symm.trans hfree
      have hone : (k.view.queue q).uxMessagesWaiting = 1 := by
        have hcount := h.mutex.count q hmutex₀
        rw [show (k.view.queue q).xMutexHolder = none from hfree₀] at hcount
        exact hcount
      -- nobody joins the list of a free mutex
      have hold : ∀ w ∈ k'.eventList (.toReceive q), w ∈ k.eventList (.toReceive q) := by
        intro w hw
        rcases h.kernel.waiters h.step hw with hmem | ⟨f, hact, hframe, hpc, hwait⟩
        · exact hmem
        · obtain ⟨hop, rfl, -⟩ := h.take_of_mutex hframe hwait hmutex₀
          have hblocked := h.kernel.wait.window.blocks w f hframe (by rw [hpc]; rfl)
          rw [hop] at hblocked
          exact absurd (hone.symm.trans hblocked) (by simp)
      obtain ⟨w₀, hw₀⟩ := List.exists_mem_of_ne_nil _ hwaiters
      obtain ⟨u, hu, hle⟩ := h.inv.owed q hmutex₀ hfree₀ (List.ne_nil_of_mem (hold w₀ hw₀))
      refine ⟨u, ?_, fun w hw => ?_⟩
      · cases h.kernel.relisted h.step with
        | same hsched =>
            have hwoken : k'.woken = k.woken := congrArg Sched.woken hsched
            exact hwoken ▸ hu
        | fades hfades =>
            have hwoken : k'.woken = k.woken := hfades.woken
            exact hwoken ▸ hu
        | placed t f hact hframe hpc hlists hwoken => exact hwoken ▸ hu
        | refused t f hact hframe hpc hnot hsched =>
            have hwoken : k'.woken = _ := congrArg Sched.woken hsched
            rw [hwoken]
            refine Sched.mem_retried hu fun hl => ?_
            obtain ⟨hop, rfl, -⟩ := h.take_of_mutex hframe hl.symm hmutex₀
            rw [hop] at hnot
            exact absurd
              (by rw [hone]; exact Nat.one_pos : 0 < (k.view.queue f.xQueue).uxMessagesWaiting) hnot
        | passed t f hact hframe hpc hready hsched hdone =>
            have hwoken : k'.woken = _ := congrArg Sched.woken hsched
            rw [hwoken]
            refine Sched.mem_wakeFirst (Sched.mem_retried hu fun hl => ?_)
            obtain ⟨-, -, hlocks⟩ := h.take_of_mutex hframe hl.symm hmutex₀
            obtain ⟨item, hframe'⟩ := hdone
            exact absurd (hfree.symm.trans (h.after.locking t _ q item hframe' hlocks rfl))
              (by simp)
      · rw [(h.listed_kept (hold w hw)).1]
        exact Nat.le_trans (hle w (hold w hw)) (h.woken_kept hu)

end Inheriting

/-- The invariant after a step. -/
theorem Inheriting.next {k k' : State α} {act : Act α} (h : Inheriting k act k') :
    Inheritance k' where
  ranks := h.inv.ranks.step (State.reprioritised_step h.step)
  unheld := fun _ => h.unheld
  sorted := h.sorted
  holder := fun _ _ _ => h.holder
  inheriting := fun _ _ => h.inheriting
  placing := fun _ _ _ => h.placing
  ready := fun _ _ => h.ready
  owed := fun _ => h.owed

theorem Inheritance.boot {uxMainPriority : Nat} (hmain : uxMainPriority < configMaxPriorities) :
    Inheritance (State.boot uxMainPriority : State α) := by
  have hevents : (State.boot uxMainPriority : State α).eventList = fun _ => [] := by
    funext list
    cases list <;> rfl
  refine ⟨⟨fun t => ?_, fun t => rfl, fun t => Nat.le_refl _⟩, fun t _ => rfl, ?_, ?_, ?_, ?_, ?_,
    ?_⟩
  · simp only [State.boot]
    split
    · exact hmain
    · decide
  · simp [hevents]
  · simp [hevents]
  · simp [State.view, State.boot]
  · simp [State.view, State.boot]
  · simp [State.boot]
  · simp [hevents]

/-- What priority inheritance is for. -/
structure InheritanceLaw (k : State α) : Prop where
  base : ∀ t, (k.task t).uxBasePriority ≤ (k.task t).uxPriority
  /-- The holder of a mutex runs no lower than the tasks that are blocked on it. -/
  holder : ∀ q h w, (k.queue q).isMutex → (k.queue q).xMutexHolder = some h →
    w ∈ (k.queue q).xTasksWaitingToReceive → (k.task w).uxBasePriority ≤ (k.task h).uxPriority
  restored : ∀ t, (∀ q, (k.queue q).isMutex → (k.queue q).xMutexHolder ≠ some t) →
    (k.task t).uxPriority = (k.task t).uxBasePriority

/-- In every run in which the scheduler runs a ready task of highest priority, no holder of
a mutex runs below the base priority of a task that waits for it, and a task without
mutexes runs at its own. -/
theorem priority_inheritance {k : State α} {uxMainPriority : Nat}
    (hmain : uxMainPriority < configMaxPriorities)
    (hreach : Lib.Reach State.step (fun k act => act.Inherits k) (State.boot uxMainPriority) k) :
    InheritanceLaw k := by
  have hinv : Booted k ∧ MutexInv k.view ∧ Inheritance k := by
    -- the inheritance is proved along with the law of the mutexes, whose count of holders it needs
    refine hreach.invariant (fun k => Booted k ∧ MutexInv k.view ∧ Inheritance k)
      ⟨⟨uxMainPriority, .refl⟩, .boot uxMainPriority, .boot hmain⟩ ?_
    rintro k act k' ⟨hbooted, hmutex, hinherits⟩ hok hstep
    have hafter := hmutex.step hbooted.inv hbooted.calls hok.locks hstep
    have hstepping : Inheriting k act k' :=
      ⟨hinherits, hbooted.inv, hbooted.calls, hmutex, hafter, hok.highest, hstep⟩
    exact ⟨hbooted.step hok.valid hstep, hafter, hstepping.next⟩
  obtain ⟨-, hmutex, hinherits⟩ := hinv
  exact ⟨hinherits.ranks.base, hinherits.holder, fun t hnone =>
      hinherits.unheld t (hmutex.held_zero hnone)⟩

/-- The guard of a run whose tasks are scheduled by priority. -/
def inheritCheck (k : State Unit) (act : Act Unit) : Bool :=
  mutexCheck k act && (k.uxSchedulerSuspended ≠ 0 || act.actor.all fun t =>
    (List.range k.nextTask).all fun u => (k.task u).xStateList ≠ .ready ||
      (k.task u).uxPriority ≤ (k.task t).uxPriority)

theorem inheritCheck_inherits (k : State Unit) (act : Act Unit) (hbooted : Booted k)
    (hcheck : inheritCheck k act) :
    act.Inherits k := by
  simp only [inheritCheck, Bool.and_eq_true, Bool.or_eq_true, decide_eq_true_eq] at hcheck
  refine ⟨mutexCheck_uses k act hcheck.1, fun t hactor hzero u hready => ?_⟩
  have hborn : u < k.nextTask := by
    by_contra hge
    have habsent : (k.task u).xStateList = .absent :=
      hbooted.inv.wait.lists.unspawned u (Nat.le_of_not_lt hge)
    rw [habsent] at hready
    cases hready
  have hall := hcheck.2.resolve_left (by simp [hzero])
  rw [hactor, Option.all_some, List.all_eq_true] at hall
  simpa [hready] using hall u (List.mem_range.mpr hborn)

/-- The second task waits for the mutex of the main task, which runs at its priority. -/
theorem priority_inheritance_lifted :
    ∃ k : State Unit, Lib.execute State.step inheritCheck (State.boot 1) (mutexSchedule.take 18) =
      some k ∧
      ((k.task 1).uxPriority, (k.queue 0).xTasksWaitingToReceive) = (2, [2]) ∧
      InheritanceLaw k := by
  have hrun : (Lib.execute State.step inheritCheck (State.boot 1) (mutexSchedule.take 18)).map
      (fun k => ((k.task 1).uxPriority, (k.queue 0).xTasksWaitingToReceive)) = some (2, [2]) := by
    decide +kernel
  obtain ⟨k, hk, hend⟩ := Option.map_eq_some_iff.mp hrun
  have hreach := Lib.execute_reach (fun _ _ hcheck => hcheck) _ hk
  have hbooted {k : State Unit}
      (hreach : Lib.Reach State.step (fun k act => inheritCheck k act) (State.boot 1) k) :
      Booted k :=
    hreach.invariant Booted ⟨1, .refl⟩ fun _ _ _ hbooted hcheck hstep =>
      hbooted.step (inheritCheck_inherits _ _ hbooted hcheck).valid hstep
  exact ⟨k, hk, hend, priority_inheritance (by decide)
      (hreach.weaken hbooted inheritCheck_inherits)⟩

end SimulatedLinux.Kernel
