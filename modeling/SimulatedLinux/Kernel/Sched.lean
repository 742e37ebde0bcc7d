import SimulatedLinux.Kernel.View

/-! # Wait lists

The complement of `View`: which list each task's items are in, and which tasks
have been woken and not yet retried. `Lists` says that the lists and the items
agree, and where in its blocking function a listed or woken task is.
-/

namespace SimulatedLinux.Kernel

variable {α : Type}

/-- The scheduling data of a kernel state. -/
structure Sched where
  eventList : EventList → List TaskId
  xEventList : TaskId → Option EventList
  xStateList : TaskId → StateList
  cRxLock : QueueId → Int
  cTxLock : QueueId → Int
  woken : EventList → List TaskId

def State.sched (k : State α) : Sched where
  eventList := k.eventList
  xEventList := fun t => (k.task t).xEventList
  xStateList := fun t => (k.task t).xStateList
  cRxLock := fun q => (k.queue q).cRxLock
  cTxLock := fun q => (k.queue q).cTxLock
  woken := k.woken

/-- A list of tasks that wait for time to pass or for an event. -/
def StateList.blocked : StateList → Bool
  | delayed | overflowDelayed | suspended => true
  | _ => false

/-- A list of tasks that exist and have not deleted themselves. -/
def StateList.alive : StateList → Bool
  | waitingTermination | absent => false
  | _ => true

theorem StateList.alive_of_blocked {state : StateList} (hblocked : state.blocked) :
    state.alive := by
  cases state <;> simp_all [StateList.blocked, StateList.alive]

/-- The program points at which a task may be in a wait list. -/
def Pc.placed : Pc α → Bool
  | attempt | unlockTx .blocked | unlockRx .blocked | resumeAll .blocked => true
  | _ => false

/-- The program points at which the blocking function has suspended the scheduler. -/
def Pc.inWindow : Pc α → Bool
  | lockQueue | checkTimeOut | checkBlock | inherit | place | unlockTx _ | unlockRx _
  | resumeAll _ => true
  | _ => false

namespace Sched

/-- Take a task out of its wait list and make it ready. -/
def unlist (S : Sched) (t : TaskId) : Sched :=
  { S with
    eventList := fun list => (S.eventList list).erase t
    xEventList := Function.update S.xEventList t none
    xStateList := Function.update S.xStateList t .ready }

def setWoken (S : Sched) (list : EventList) (tasks : List TaskId) : Sched :=
  { S with woken := Function.update S.woken list tasks }

/-- Wake the head of a wait list, if there is one. -/
def wakeFirst (S : Sched) (list : EventList) : Sched :=
  match S.eventList list with
  | [] => S
  | t :: _ => (S.unlist t).setWoken list (S.woken list ++ [t])

/-- Put a task in a wait list, at any position. -/
def place (S : Sched) (list : EventList) (t : TaskId) (tasks : List TaskId)
    (state : StateList) : Sched :=
  { S with
    eventList := Function.update S.eventList list tasks
    xEventList := Function.update S.xEventList t (some list)
    xStateList := Function.update S.xStateList t state }

def setState (S : Sched) (t : TaskId) (state : StateList) : Sched :=
  { S with xStateList := Function.update S.xStateList t state }

end Sched

/-- The wait lists and the tasks agree. -/
structure Lists (S : Sched) (frame : TaskId → Option (Frame α)) (nextTask : Nat) : Prop where
  nodup : ∀ list, (S.eventList list).Nodup
  listed : ∀ t list, t ∈ S.eventList list ↔ S.xEventList t = some list
  noPending : S.eventList .pendingReady = []
  /-- No item moves while a queue is locked: only the task that locked it runs. -/
  unlocked : ∀ q, S.cRxLock q ≤ 0 ∧ S.cTxLock q ≤ 0
  waiting : ∀ t list, S.xEventList t = some list →
    (S.xStateList t).blocked ∧ ∃ f, frame t = some f ∧ f.waitList = list ∧ f.pc.placed
  nodupWoken : ∀ list, (S.woken list).Nodup
  awoken : ∀ t list, t ∈ S.woken list →
    S.xEventList t = none ∧ ∃ f, frame t = some f ∧ f.waitList = list ∧ f.pc = .attempt
  unspawned : ∀ t, nextTask ≤ t → S.xStateList t = .absent

namespace Lists

variable {S : Sched} {frame : TaskId → Option (Frame α)} {n : Nat}

theorem lt_of_blocked (hlists : Lists S frame n) {t : TaskId}
    (hblocked : (S.xStateList t).blocked) :
    t < n := by
  by_contra hge
  rw [hlists.unspawned t (Nat.le_of_not_lt hge)] at hblocked
  simp [StateList.blocked] at hblocked

/-- A task is in no list but the one its event item names. -/
theorem erase_eq (hlists : Lists S frame n) {t : TaskId} {list : EventList}
    (hlist : S.xEventList t = some list) :
    (fun l => (S.eventList l).erase t) =
      Function.update S.eventList list ((S.eventList list).erase t) := by
  funext l
  by_cases hl : l = list
  · subst hl
    simp
  · have hnot : t ∉ S.eventList l := by
      intro hmem
      exact hl (Option.some.inj (((hlists.listed t l).mp hmem).symm.trans hlist))
    simp [hl, List.erase_of_not_mem hnot]

theorem unlist (hlists : Lists S frame n) {t : TaskId} (hspawned : t < n) :
    Lists (S.unlist t) frame n where
  nodup := fun list => (hlists.nodup list).erase t
  listed := by
    intro u list
    have hiff := hlists.listed u list
    by_cases hu : u = t
    · subst hu
      simpa [Sched.unlist] using (hlists.nodup list).not_mem_erase
    · simpa [Sched.unlist, hu, List.mem_erase_of_ne hu] using hiff
  noPending := by simp [Sched.unlist, hlists.noPending]
  unlocked := hlists.unlocked
  waiting := by
    intro u list hlist
    by_cases hu : u = t
    · simp [Sched.unlist, hu] at hlist
    · simp only [Sched.unlist, ne_eq, hu, not_false_eq_true, Function.update_of_ne] at hlist ⊢
      exact hlists.waiting u list hlist
  nodupWoken := hlists.nodupWoken
  awoken := by
    intro u list hwoken
    obtain ⟨hnone, hframe⟩ := hlists.awoken u list hwoken
    refine ⟨?_, hframe⟩
    by_cases hu : u = t
    · simp [Sched.unlist, hu]
    · simpa [Sched.unlist, hu] using hnone
  unspawned := by
    intro u hu
    have hne : u ≠ t := Nat.ne_of_gt (Nat.lt_of_lt_of_le hspawned hu)
    simpa [Sched.unlist, hne] using hlists.unspawned u hu

/-- A task taken out of the wait list that its critical section will join again
counts as woken. -/
theorem wake (hlists : Lists S frame n) {t : TaskId} {list : EventList} {f : Frame α}
    (hlist : S.xEventList t = some list) (hframe : frame t = some f) (hpc : f.pc = .attempt) :
    Lists ((S.unlist t).setWoken list (S.woken list ++ [t])) frame n := by
  obtain ⟨hblocked, f', hframe', hwait, -⟩ := hlists.waiting t list hlist
  obtain rfl : f' = f := Option.some.inj (hframe'.symm.trans hframe)
  have hun := hlists.unlist (hlists.lt_of_blocked hblocked)
  have hfresh : t ∉ S.woken list := by
    intro hmem
    have hnone := (hlists.awoken t list hmem).1
    simp [hlist] at hnone
  refine { hun with nodupWoken := ?_, awoken := ?_ }
  · intro l
    by_cases hl : l = list
    · subst hl
      simpa [Sched.setWoken, List.nodup_append] using
        ⟨hlists.nodupWoken l, fun a ha hat => hfresh (hat ▸ ha)⟩
    · simpa [Sched.setWoken, hl] using hun.nodupWoken l
  · intro u l hmem
    by_cases hl : l = list
    · subst hl
      simp only [Sched.setWoken, Function.update_self, List.mem_append, List.mem_singleton] at hmem
      rcases hmem with hmem | rfl
      · exact hun.awoken u l hmem
      · exact ⟨by simp [Sched.setWoken, Sched.unlist], f', hframe, hwait, hpc⟩
    · simp only [Sched.setWoken, ne_eq, hl, not_false_eq_true, Function.update_of_ne] at hmem
      exact hun.awoken u l hmem

theorem retried (hlists : Lists S frame n) (t : TaskId) (list : EventList) :
    Lists (S.setWoken list ((S.woken list).erase t)) frame n := by
  refine { hlists with nodupWoken := ?_, awoken := ?_ }
  · intro l
    by_cases hl : l = list
    · subst hl
      simpa [Sched.setWoken] using (hlists.nodupWoken l).erase t
    · simpa [Sched.setWoken, hl] using hlists.nodupWoken l
  · intro u l hmem
    by_cases hl : l = list
    · subst hl
      simp only [Sched.setWoken, Function.update_self] at hmem
      exact hlists.awoken u l (List.mem_of_mem_erase hmem)
    · simp only [Sched.setWoken, ne_eq, hl, not_false_eq_true, Function.update_of_ne] at hmem
      exact hlists.awoken u l hmem

/-- The call of a task that is neither listed nor woken may change freely. -/
theorem setFrame (hlists : Lists S frame n) {t : TaskId} (f : Option (Frame α))
    (hlist : ∀ list, S.xEventList t = some list → ∃ f', f = some f' ∧
      f'.waitList = list ∧ f'.pc.placed)
    (hwoken : ∀ list, t ∉ S.woken list) :
    Lists S (Function.update frame t f) n := by
  refine { hlists with waiting := ?_, awoken := ?_ }
  · intro u list hu
    obtain ⟨hblocked, hframe⟩ := hlists.waiting u list hu
    refine ⟨hblocked, ?_⟩
    by_cases hut : u = t
    · subst hut
      simpa using hlist list hu
    · simpa [hut] using hframe
  · intro u list hmem
    have hut : u ≠ t := fun heq => hwoken list (heq ▸ hmem)
    simpa [hut] using hlists.awoken u list hmem

theorem place (hlists : Lists S frame n) {t : TaskId} {list : EventList} {tasks : List TaskId}
    {state : StateList} {f : Frame α} (hspawned : t < n) (hnone : S.xEventList t = none)
    (hpending : list ≠ .pendingReady) (hperm : tasks.Perm (t :: S.eventList list))
    (hstate : state.blocked) (hwait : f.waitList = list) (hpc : f.pc.placed)
    (hwoken : ∀ list, t ∉ S.woken list) :
    Lists (S.place list t tasks state) (Function.update frame t (some f)) n := by
  have hfresh : ∀ l, t ∉ S.eventList l := fun l hmem => by
    simp [(hlists.listed t l).mp hmem] at hnone
  refine ⟨?_, ?_, ?_, hlists.unlocked, ?_, hlists.nodupWoken, ?_, ?_⟩
  · intro l
    by_cases hl : l = list
    · subst hl
      simpa [Sched.place, hperm.nodup_iff] using ⟨hfresh l, hlists.nodup l⟩
    · simpa [Sched.place, hl] using hlists.nodup l
  · intro u l
    by_cases hl : l = list
    · subst hl
      by_cases hu : u = t
      · simp [Sched.place, hu, hperm.mem_iff]
      · simpa [Sched.place, hu, hperm.mem_iff] using hlists.listed u l
    · by_cases hu : u = t
      · subst hu
        simp [Sched.place, hl, hfresh l, Ne.symm hl]
      · simpa [Sched.place, hu, hl] using hlists.listed u l
  · simpa [Sched.place, hpending.symm] using hlists.noPending
  · intro u l hu
    by_cases hut : u = t
    · subst hut
      simp only [Sched.place, Function.update_self, Option.some.injEq] at hu ⊢
      exact ⟨hstate, f, rfl, hwait.trans hu, hpc⟩
    · simp only [Sched.place, ne_eq, hut, not_false_eq_true, Function.update_of_ne] at hu ⊢
      exact hlists.waiting u l hu
  · intro u l hmem
    have hut : u ≠ t := fun heq => hwoken l (heq ▸ hmem)
    simpa [Sched.place, hut] using hlists.awoken u l hmem
  · intro u hu
    have hne : u ≠ t := Nat.ne_of_gt (Nat.lt_of_lt_of_le hspawned hu)
    simpa [Sched.place, hne] using hlists.unspawned u hu

/-- A task outside of every wait list may move between the other lists. -/
theorem setState (hlists : Lists S frame n) {t : TaskId} {state : StateList} (hspawned : t < n)
    (hnone : S.xEventList t = none) : Lists (S.setState t state) frame n := by
  refine { hlists with waiting := ?_, unspawned := ?_ }
  · intro u list hu
    have hut : u ≠ t := by
      rintro rfl
      have hu' : S.xEventList u = some list := hu
      simp [hnone] at hu'
    simpa [Sched.setState, hut] using hlists.waiting u list hu
  · intro u hu
    have hne : u ≠ t := Nat.ne_of_gt (Nat.lt_of_lt_of_le hspawned hu)
    simpa [Sched.setState, hne] using hlists.unspawned u hu

end Lists

namespace State

/-! ## The kernel's list operations -/

theorem sched_modTask_eq (k : State α) (t : TaskId) (f : Task α → Task α) :
    (k.modTask t f).sched = { k.sched with
      xEventList := Function.update k.sched.xEventList t (f (k.task t)).xEventList
      xStateList := Function.update k.sched.xStateList t (f (k.task t)).xStateList } := by
  have hupdate {β : Type} (g : Task α → β) :
      (fun u => g (Function.update k.task t (f (k.task t)) u)) =
        Function.update (fun u => g (k.task u)) t (g (f (k.task t))) :=
    Function.comp_update g k.task t _
  simp only [sched, modTask, hupdate Task.xEventList, hupdate Task.xStateList]
  rfl

theorem sched_modTask_event (k : State α) (t : TaskId) {f : Task α → Task α}
    (hstate : (f (k.task t)).xStateList = (k.task t).xStateList) :
    (k.modTask t f).sched = { k.sched with
      xEventList := Function.update k.sched.xEventList t (f (k.task t)).xEventList } := by
  rw [sched_modTask_eq, hstate]
  simp [sched]

theorem sched_modTask_state (k : State α) (t : TaskId) {f : Task α → Task α}
    (hevent : (f (k.task t)).xEventList = (k.task t).xEventList) :
    (k.modTask t f).sched = k.sched.setState t (f (k.task t)).xStateList := by
  rw [sched_modTask_eq, hevent]
  simp [sched, Sched.setState]

theorem sched_modTask (k : State α) (t : TaskId) {f : Task α → Task α}
    (hevent : (f (k.task t)).xEventList = (k.task t).xEventList)
    (hstate : (f (k.task t)).xStateList = (k.task t).xStateList) :
    (k.modTask t f).sched = k.sched := by
  rw [sched_modTask_eq, hevent, hstate]
  simp [sched]

/-- An update of a queue that keeps its wait lists. -/
theorem sched_modQueue_locks (k : State α) (q : QueueId) {f : Queue α → Queue α}
    (hsend : (f (k.queue q)).xTasksWaitingToSend = (k.queue q).xTasksWaitingToSend)
    (hreceive : (f (k.queue q)).xTasksWaitingToReceive = (k.queue q).xTasksWaitingToReceive) :
    (k.modQueue q f).sched = { k.sched with
      cRxLock := Function.update k.sched.cRxLock q (f (k.queue q)).cRxLock
      cTxLock := Function.update k.sched.cTxLock q (f (k.queue q)).cTxLock } := by
  have hupdate {β : Type} (g : Queue α → β) :
      (fun p => g (Function.update k.queue q (f (k.queue q)) p)) =
        Function.update (fun p => g (k.queue p)) q (g (f (k.queue q))) :=
    Function.comp_update g k.queue q _
  have hlists : (k.modQueue q f).eventList = k.eventList := by
    funext list
    cases list with
    | toSend p =>
        have hp := congrFun (hupdate Queue.xTasksWaitingToSend) p
        rw [hsend, Function.update_eq_self] at hp
        exact hp
    | toReceive p =>
        have hp := congrFun (hupdate Queue.xTasksWaitingToReceive) p
        rw [hreceive, Function.update_eq_self] at hp
        exact hp
    | pendingReady => rfl
  simp only [sched, hlists, Sched.mk.injEq, true_and]
  exact ⟨rfl, rfl, hupdate Queue.cRxLock, hupdate Queue.cTxLock, rfl⟩

theorem sched_modQueue (k : State α) (q : QueueId) {f : Queue α → Queue α}
    (hsend : (f (k.queue q)).xTasksWaitingToSend = (k.queue q).xTasksWaitingToSend)
    (hreceive : (f (k.queue q)).xTasksWaitingToReceive = (k.queue q).xTasksWaitingToReceive)
    (hrx : (f (k.queue q)).cRxLock = (k.queue q).cRxLock)
    (htx : (f (k.queue q)).cTxLock = (k.queue q).cTxLock) :
    (k.modQueue q f).sched = k.sched := by
  rw [sched_modQueue_locks k q hsend hreceive, hrx, htx]
  simp [sched]

@[simp] theorem sched_setFrame (k : State α) (t : TaskId) (frame : Frame α) :
    (k.setFrame t frame).sched = k.sched :=
  sched_modTask k t rfl rfl

@[simp] theorem sched_setPc (k : State α) (t : TaskId) (frame : Frame α) (pc : Pc α) :
    (k.setPc t frame pc).sched = k.sched :=
  sched_modTask k t rfl rfl

@[simp] theorem sched_complete (k : State α) (t : TaskId) (frame : Frame α)
    (res : QueueResult α) : (k.complete t frame res).sched = k.sched :=
  sched_setPc k t frame (.leave res)

@[simp] theorem sched_leave (k : State α) (t : TaskId) (frame : Frame α)
    (res : QueueResult α) : (k.leave t frame res).sched = k.sched := by
  have hret := sched_modTask k t (f := fun T => { T with
    frame := none
    ret := some (frame.api.result res
      ((k.xTickCount + tickModulus - frame.startTick) % tickModulus)) }) rfl rfl
  unfold leave
  cases frame.api.locks <;> cases res <;> exact hret

@[simp] theorem sched_xTaskPriorityInherit (k : State α) (holder : Option TaskId) :
    (k.xTaskPriorityInherit holder).sched = k.sched := by
  unfold xTaskPriorityInherit
  split
  · rfl
  · dsimp only
    split
    · exact sched_modTask k _ rfl rfl
    · rfl

theorem eventList_setEventList (k : State α) (list : EventList) (tasks : List TaskId) :
    (k.setEventList list tasks).eventList = Function.update k.eventList list tasks := by
  funext l
  cases list <;> cases l <;>
    simp only [setEventList, eventList, modQueue, Function.update_apply, reduceCtorEq, if_false,
      if_true, EventList.toSend.injEq, EventList.toReceive.injEq] <;>
    split <;> simp_all

theorem sched_setEventList (k : State α) (list : EventList) (tasks : List TaskId) :
    (k.setEventList list tasks).sched =
      { k.sched with eventList := Function.update k.eventList list tasks } := by
  have hlocks : ∀ q, ((k.setEventList list tasks).queue q).cRxLock = (k.queue q).cRxLock ∧
      ((k.setEventList list tasks).queue q).cTxLock = (k.queue q).cTxLock := by
    intro q
    cases list <;> simp only [setEventList, modQueue, Function.update_apply, and_self] <;>
      split <;> simp_all
  have htask : (k.setEventList list tasks).task = k.task ∧
      (k.setEventList list tasks).woken = k.woken := by
    cases list <;> exact ⟨rfl, rfl⟩
  simp only [sched, eventList_setEventList, htask, hlocks]

theorem sched_removeEventItem_ready {k : State α} {frame : TaskId → Option (Frame α)} {n : Nat}
    (hlists : Lists k.sched frame n) (t : TaskId) :
    ((k.removeEventItem t).prvAddTaskToReadyList t).sched = k.sched.unlist t := by
  have hstate (k : State α) : (k.prvAddTaskToReadyList t).sched = k.sched.setState t .ready :=
    sched_modTask_state k t rfl
  rw [hstate]
  cases hevent : (k.task t).xEventList with
  | none =>
      have hremove : k.removeEventItem t = k := by rw [removeEventItem, hevent]
      have herase : ∀ list, (k.eventList list).erase t = k.eventList list := by
        intro list
        apply List.erase_of_not_mem
        intro hmem
        have hsome : (k.task t).xEventList = some list := (hlists.listed t list).mp hmem
        simp [hevent] at hsome
      have hupdate : Function.update (fun u => (k.task u).xEventList) t none =
          fun u => (k.task u).xEventList := by
        rw [← hevent]
        exact Function.update_eq_self t _
      rw [hremove]
      simp [Sched.setState, Sched.unlist, sched, herase, hupdate]
  | some list =>
      have hremove : k.removeEventItem t =
          (k.setEventList list ((k.eventList list).erase t)).modTask t
            fun T => { T with xEventList := none } := by
        rw [removeEventItem, hevent]
      have herase := hlists.erase_eq hevent
      simp only [Sched.unlist, herase]
      rw [hremove, sched_modTask_event _ t rfl, sched_setEventList]
      rfl

theorem sched_xTaskRemoveFromEventList {k : State α} {frame : TaskId → Option (Frame α)} {n : Nat}
    (hlists : Lists k.sched frame n) (hsuspended : k.uxSchedulerSuspended = 0)
    {list : EventList} {t : TaskId} {rest : List TaskId} (hlist : k.eventList list = t :: rest) :
    (k.xTaskRemoveFromEventList list).sched =
      (k.sched.unlist t).setWoken list (k.sched.woken list ++ [t]) := by
  have hevent : k.sched.xEventList t = some list :=
    (hlists.listed t list).mp (by simp [sched, hlist])
  have herase := hlists.erase_eq hevent
  have hrest : (k.sched.eventList list).erase t = rest := by simp [sched, hlist]
  have hsuspended' : ((k.setEventList list rest).modTask t
      fun T => { T with xEventList := none }).uxSchedulerSuspended = 0 := by
    cases list <;> exact hsuspended
  have hwoken : (k.setEventList list rest).woken = k.woken := by cases list <;> rfl
  have hremoved : ((k.setEventList list rest).modTask t
      fun T => { T with xEventList := none }).sched =
      { k.sched with
        eventList := Function.update k.eventList list rest
        xEventList := Function.update k.sched.xEventList t none } := by
    rw [sched_modTask_event _ t rfl, sched_setEventList]
  unfold xTaskRemoveFromEventList
  simp only [hlist]
  rw [if_pos hsuspended', prvAddTaskToReadyList, sched_modTask_state _ t rfl]
  simp only [Sched.unlist, herase, hrest, Sched.setWoken, Sched.setState]
  simp only [sched, Sched.mk.injEq] at hremoved ⊢
  obtain ⟨hlists', hevents, hstates, hrx, htx, hwoken'⟩ := hremoved
  exact ⟨hlists', hevents, by rw [hstates], hrx, htx, by simp [modTask, hwoken]⟩

theorem sched_wakeFirst {k : State α} {frame : TaskId → Option (Frame α)} {n : Nat}
    (hlists : Lists k.sched frame n) (hsuspended : k.uxSchedulerSuspended = 0)
    (list : EventList) : (k.wakeFirst list).sched = k.sched.wakeFirst list := by
  have hevent : k.sched.eventList list = k.eventList list := rfl
  unfold wakeFirst Sched.wakeFirst
  split
  next hnil => simp [hevent, hnil]
  next hne =>
    obtain ⟨t, rest, hlist⟩ := List.exists_cons_of_ne_nil hne
    rw [sched_xTaskRemoveFromEventList hlists hsuspended hlist]
    simp [hevent, hlist]

theorem sched_prvAddCurrentTaskToDelayedList (k : State α) (xTicksToWait : Nat) (forever : Bool) :
    ∃ state : StateList, state.blocked ∧
      (k.prvAddCurrentTaskToDelayedList xTicksToWait forever).sched =
        k.sched.setState k.pxCurrentTCB state := by
  unfold prvAddCurrentTaskToDelayedList
  refine ⟨_, ?_, sched_modTask_state k k.pxCurrentTCB ?_⟩
  · split
    · rfl
    · dsimp only
      split <;> rfl
  · split <;> rfl

theorem sched_vTaskPlaceOnEventList (k : State α) (list : EventList) (xTicksToWait : Nat) :
    ∃ tasks state, tasks.Perm (k.pxCurrentTCB :: k.sched.eventList list) ∧ state.blocked ∧
      (k.vTaskPlaceOnEventList list xTicksToWait).sched =
        k.sched.place list k.pxCurrentTCB tasks state := by
  obtain ⟨state, hblocked, hstate⟩ := sched_prvAddCurrentTaskToDelayedList
    ((k.setEventList list (vListInsert (fun u => (k.task u).xEventValue) k.pxCurrentTCB
      (k.eventList list))).modTask k.pxCurrentTCB fun T =>
        { T with xEventList := some list }) xTicksToWait true
  refine ⟨vListInsert (fun u => (k.task u).xEventValue) k.pxCurrentTCB (k.eventList list), state,
    vListInsert_perm _ _ _, hblocked, ?_⟩
  unfold vTaskPlaceOnEventList
  dsimp only
  have hcurrent : (k.setEventList list (vListInsert (fun u => (k.task u).xEventValue)
      k.pxCurrentTCB (k.eventList list))).pxCurrentTCB = k.pxCurrentTCB := by
    cases list <;> rfl
  rw [hstate, sched_modTask_event _ _ rfl, sched_setEventList]
  simp only [modTask, hcurrent]
  rfl

end State

namespace Lists

variable {S : Sched} {frame : TaskId → Option (Frame α)} {n : Nat}

theorem wakeFirst (hlists : Lists S frame n) {list : EventList}
    (hpc : ∀ t f, frame t = some f → f.pc.placed → f.pc = .attempt) :
    Lists (S.wakeFirst list) frame n := by
  unfold Sched.wakeFirst
  split
  next => exact hlists
  next t rest hlist =>
    have hevent := (hlists.listed t list).mp (by simp [hlist])
    obtain ⟨-, f, hf, -, hplaced⟩ := hlists.waiting t list hevent
    exact hlists.wake hevent hf (hpc t f hf hplaced)

end Lists

end SimulatedLinux.Kernel
