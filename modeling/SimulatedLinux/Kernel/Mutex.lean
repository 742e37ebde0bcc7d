import Mathlib.Data.Finset.Card
import Mathlib.Data.Finset.Range
import SimulatedLinux.Kernel.Listing

/-! # Mutexes

A mutex of `pthread_mutex_init` or `sys_mutex_new` is a queue of one item of size
zero that records its holder. Holder, count and the held counters of the tasks
are written by different functions; here they are shown to agree in every
interleaving of lock and unlock calls.
-/

namespace SimulatedLinux.Kernel

variable {α : Type}

namespace Api

theorem request_of_locks {api : Api α} {q : QueueId} (hlocks : api.locks = some q) :
    api.request = some (.semaphoreTake, q, portMaxDelay) := by
  cases api <;> simp_all [locks, request]

theorem request_of_unlocks {api : Api α} {q : QueueId} (hunlocks : api.unlocks = some q) :
    api.request = some (.genericSend none, q, 0) := by
  cases api <;> simp_all [unlocks, request]

theorem target_of_locks {api : Api α} {q : QueueId} (hlocks : api.locks = some q) :
    api.target = some q := by
  simp [target, request_of_locks hlocks]

theorem target_of_unlocks {api : Api α} {q : QueueId} (hunlocks : api.unlocks = some q) :
    api.target = some q := by
  simp [target, request_of_unlocks hunlocks]

/-- The call locks or unlocks the mutex. -/
def mutexUse (q : QueueId) (api : Api α) : Prop := api.locks = some q ∨ api.unlocks = some q

end Api

namespace Frame.WellFormed

variable {f : Frame α} {q : QueueId} (hf : f.WellFormed)
include hf

/-- A call that locks takes the mutex, and waits for it for ever. -/
theorem of_locks (hlocks : f.api.locks = some q) :
    f.op = .semaphoreTake ∧ f.xQueue = q ∧ f.pc ≠ .leave .fail := by
  obtain ⟨n, hrequest, -, hforever⟩ := hf
  rw [Api.request_of_locks hlocks, Option.some.injEq, Prod.mk.injEq, Prod.mk.injEq] at hrequest
  exact ⟨hrequest.1.symm, hrequest.2.1.symm, (hforever hrequest.2.2.symm).2⟩

/-- A call that unlocks gives the mutex, and does not wait. -/
theorem of_unlocks (hunlocks : f.api.unlocks = some q) :
    f.op = .genericSend none ∧ f.xQueue = q ∧ ¬ f.pc.looping := by
  obtain ⟨n, hrequest, hzero, -⟩ := hf
  rw [Api.request_of_unlocks hunlocks, Option.some.injEq, Prod.mk.injEq, Prod.mk.injEq] at hrequest
  exact ⟨hrequest.1.symm, hrequest.2.1.symm, (hzero hrequest.2.2.symm).2⟩

end Frame.WellFormed

/-- What the users of mutexes keep to: a mutex is used through its lock and
unlock functions until it is destroyed, a task locks a mutex it does not hold and
unlocks one it holds, it terminates with no mutex locked, and a mutex is
destroyed only when no task holds it or is in a call for it. -/
structure Act.UsesMutexes (k : State α) (act : Act α) : Prop where
  valid : act.valid k
  typed : ∀ t api q, act = .call t api → api.target = some q →
    ((k.queue q).isMutex ↔ api.mutexUse q)
  live : ∀ t api q, act = .call t api → api.mutexUse q → (k.queue q).live
  lock : ∀ t api q, act = .call t api → api.locks = some q → q ∉ k.locked t
  unlock : ∀ t api q, act = .call t api → api.unlocks = some q → q ∈ k.locked t
  exit : ∀ t, act = .exit t → k.locked t = []
  destroy : ∀ t q, act = .delete t q → (k.queue q).isMutex →
    (∀ u, q ∉ k.locked u) ∧ ∀ u f, (k.task u).frame = some f → f.xQueue ≠ q

/-- The functions for mutexes are called for mutexes, and by tasks that may call them. -/
structure Api.Locks (k : State α) (t : TaskId) (api : Api α) : Prop where
  typed : ∀ q, api.target = some q → ((k.queue q).isMutex ↔ api.mutexUse q)
  lock : ∀ q, api.locks = some q → q ∉ k.locked t
  unlock : ∀ q, api.unlocks = some q → q ∈ k.locked t

theorem Act.UsesMutexes.locks {k : State α} {act : Act α} (hok : act.UsesMutexes k) (t : TaskId)
    (api : Api α) (hact : act = .call t api) : api.Locks k t :=
  ⟨fun q => hok.typed t api q hact, fun q => hok.lock t api q hact, fun q =>
      hok.unlock t api q hact⟩

/-- The mutexes a task holds. -/
def View.mutexes (v : View α) (t : TaskId) : Finset QueueId :=
  (Finset.range v.nextQueue).filter fun q =>
    (v.queue q).isMutex ∧ (v.queue q).xMutexHolder = some t

/-- The law of all mutexes in a state of the kernel. -/
structure MutexLaw (k : State α) : Prop where
  /-- At most one task is between the return of its lock and its unlock. -/
  exclusive : ∀ q t u, q ∈ k.locked t → q ∈ k.locked u → t = u
  owner : ∀ q t, q ∈ k.locked t → (k.queue q).xMutexHolder = some t
  count : ∀ q, (k.queue q).isMutex → (k.queue q).uxMessagesWaiting =
    match (k.queue q).xMutexHolder with
    | some _ => 0
    | none => 1
  held : ∀ t, (k.task t).uxMutexesHeld = (k.view.mutexes t).card
  /-- A task sleeps on a mutex only while it is held, or while a woken task is ready
  and has still to retry its take. -/
  noLostWake : ∀ q, (k.queue q).isMutex → (k.queue q).xTasksWaitingToReceive ≠ [] →
    (k.queue q).xMutexHolder ≠ none ∨
      ∃ t ∈ k.woken (.toReceive q), (k.task t).xStateList = .ready ∧
        ∃ f, (k.task t).frame = some f ∧ f.xQueue = q ∧ f.pc = .attempt

/-- The invariant behind `MutexLaw`. A call that locks has recorded its holder
when it is about to return, and a call that unlocks keeps it until its critical
section. -/
structure MutexInv (v : View α) : Prop where
  created : ∀ q, (v.queue q).isMutex → q < v.nextQueue
  shape : ∀ q, (v.queue q).isMutex → (v.queue q).uxLength = 1 ∧ (v.queue q).uxItemSize = 0
  count : ∀ q, (v.queue q).isMutex → (v.queue q).uxMessagesWaiting =
    match (v.queue q).xMutexHolder with
    | some _ => 0
    | none => 1
  spawned : ∀ q t, (v.queue q).isMutex → (v.queue q).xMutexHolder = some t → t < v.nextTask
  nodup : ∀ t, (v.locked t).Nodup
  owned : ∀ t q, q ∈ v.locked t → (v.queue q).isMutex ∧ (v.queue q).xMutexHolder = some t
  typed : ∀ t f, v.frame t = some f → (v.queue f.xQueue).isMutex → f.api.mutexUse f.xQueue
  apart : ∀ t f q, v.frame t = some f → f.api.mutexUse q → (v.queue q).isMutex ∧ q ∉ v.locked t
  locking : ∀ t f q item, v.frame t = some f → f.api.locks = some q → f.pc = .leave (.pass item) →
    (v.queue q).xMutexHolder = some t
  unlocking : ∀ t f q, v.frame t = some f → f.api.unlocks = some q →
    f.pc = .entry ∨ f.pc = .attempt → (v.queue q).xMutexHolder = some t
  held : ∀ t, v.held t = (v.mutexes t).card

namespace View

variable {v : View α} {q : QueueId} {t : TaskId}

theorem mem_mutexes : q ∈ v.mutexes t ↔
    q < v.nextQueue ∧ (v.queue q).isMutex ∧ (v.queue q).xMutexHolder = some t := by
  simp [mutexes]

/-- A queue whose holder does not change keeps the mutexes of all tasks. -/
theorem mutexes_setQueue {C : Contents α} (hmutex : C.isMutex = (v.queue q).isMutex)
    (hholder : (v.queue q).isMutex → C.xMutexHolder = (v.queue q).xMutexHolder) (t : TaskId) :
    (v.setQueue q C).mutexes t = v.mutexes t := by
  ext p
  simp only [mem_mutexes, setQueue]
  by_cases hp : p = q
  · subst hp
    simp only [Function.update_self, hmutex]
    constructor
    · rintro ⟨hlt, hm, hh⟩
      exact ⟨hlt, hm, hholder hm ▸ hh⟩
    · rintro ⟨hlt, hm, hh⟩
      exact ⟨hlt, hm, (hholder hm).trans hh⟩
  · simp [hp]

theorem mutexes_acquire {C : Contents α} (hlt : q < v.nextQueue) (hmutex : C.isMutex)
    (hfree : (v.queue q).xMutexHolder = none) (hholder : C.xMutexHolder = some t) (u : TaskId) :
    ((v.setQueue q C).mutexes u).card = (v.mutexes u).card + if u = t then 1 else 0 := by
  have hnot : q ∉ v.mutexes u := by simp [mem_mutexes, hfree]
  split
  next hu =>
    subst hu
    have hinsert : (v.setQueue q C).mutexes u = insert q (v.mutexes u) := by
      ext p
      simp only [Finset.mem_insert, mem_mutexes, setQueue]
      by_cases hp : p = q
      · subst hp
        simp [hlt, hmutex, hholder]
      · simp [hp]
    rw [hinsert, Finset.card_insert_of_notMem hnot]
  next hu =>
    rw [Nat.add_zero]
    refine congrArg Finset.card (Finset.ext fun p => ?_)
    simp only [mem_mutexes, setQueue]
    by_cases hp : p = q
    · subst hp
      simp [hholder, hfree, Ne.symm hu]
    · simp [hp]

theorem mutexes_release {C : Contents α} (hlt : q < v.nextQueue) (hmutex : (v.queue q).isMutex)
    (hholder : (v.queue q).xMutexHolder = some t) (hfree : C.xMutexHolder = none) (u : TaskId) :
    ((v.setQueue q C).mutexes u).card + (if u = t then 1 else 0) = (v.mutexes u).card := by
  split
  next hu =>
    subst hu
    have herase : (v.setQueue q C).mutexes u = (v.mutexes u).erase q := by
      ext p
      simp only [Finset.mem_erase, mem_mutexes, setQueue]
      by_cases hp : p = q
      · subst hp
        simp [hfree]
      · simp [hp]
    rw [herase]
    exact Finset.card_erase_add_one (mem_mutexes.mpr ⟨hlt, hmutex, hholder⟩)
  next hu =>
    rw [Nat.add_zero]
    refine congrArg Finset.card (Finset.ext fun p => ?_)
    simp only [mem_mutexes, setQueue]
    by_cases hp : p = q
    · subst hp
      simp [hholder, hfree, Ne.symm hu]
    · simp [hp]

end View

namespace MutexInv

variable {v v' : View α} {t : TaskId}

/-- The invariant does not read the history, the results or the fault. -/
theorem congr (hinv : MutexInv v) (hqueue : v'.queue = v.queue) (hheld : v'.held = v.held)
    (hframe : v'.frame = v.frame) (hnextQueue : v'.nextQueue = v.nextQueue)
    (hnextTask : v'.nextTask = v.nextTask) (hlocked : v'.locked = v.locked) : MutexInv v' := by
  cases v'
  dsimp only at *
  subst hqueue hheld hframe hnextQueue hnextTask hlocked
  exact ⟨hinv.created, hinv.shape, hinv.count, hinv.spawned, hinv.nodup, hinv.owned, hinv.typed,
    hinv.apart, hinv.locking, hinv.unlocking, hinv.held⟩

/-- A task goes to another program point of its call. -/
theorem setFrame (hinv : MutexInv v) {frame : Frame α} (hframe : v.frame t = some frame)
    (frame' : Frame α) (hapi : frame'.api = frame.api) (hqueue : frame'.xQueue = frame.xQueue)
    (hlock : ∀ q item, frame.api.locks = some q → frame'.pc = .leave (.pass item) →
      (v.queue q).xMutexHolder = some t)
    (hunlock : ∀ q, frame.api.unlocks = some q → frame'.pc = .entry ∨ frame'.pc = .attempt →
      (v.queue q).xMutexHolder = some t) :
    MutexInv (v.setFrame t (some frame')) := by
  have hcases {u : TaskId} {f : Frame α} (hf : (v.setFrame t (some frame')).frame u = some f) :
      u = t ∧ f = frame' ∨ u ≠ t ∧ v.frame u = some f := by
    by_cases hu : u = t
    · subst hu
      simp only [View.setFrame, Function.update_self, Option.some.injEq] at hf
      exact .inl ⟨rfl, hf.symm⟩
    · simp only [View.setFrame, Function.update_of_ne hu] at hf
      exact .inr ⟨hu, hf⟩
  refine ⟨hinv.created, hinv.shape, hinv.count, hinv.spawned, hinv.nodup, hinv.owned, ?_, ?_, ?_,
    ?_, hinv.held⟩
  · intro u f hf
    rcases hcases hf with ⟨rfl, rfl⟩ | ⟨-, hf⟩
    · rw [hapi, hqueue]
      exact hinv.typed u frame hframe
    · exact hinv.typed u f hf
  · intro u f q hf huse
    rcases hcases hf with ⟨rfl, rfl⟩ | ⟨-, hf⟩
    · rw [hapi] at huse
      exact hinv.apart u frame q hframe huse
    · exact hinv.apart u f q hf huse
  · intro u f q item hf hlocks hpc
    rcases hcases hf with ⟨rfl, rfl⟩ | ⟨-, hf⟩
    · rw [hapi] at hlocks
      exact hlock q item hlocks hpc
    · exact hinv.locking u f q item hf hlocks hpc
  · intro u f q hf hunlocks hpc
    rcases hcases hf with ⟨rfl, rfl⟩ | ⟨-, hf⟩
    · rw [hapi] at hunlocks
      exact hunlock q hunlocks hpc
    · exact hinv.unlocking u f q hf hunlocks hpc

/-- One queue and the held counters change, such that every task that relies on
being the holder still is. -/
theorem replace (hinv : MutexInv v) {q : QueueId} {C : Contents α} (held : TaskId → Nat)
    (hmutex : C.isMutex = (v.queue q).isMutex)
    (hshape : C.isMutex → C.uxLength = 1 ∧ C.uxItemSize = 0)
    (hcount : C.isMutex → C.uxMessagesWaiting =
      match C.xMutexHolder with
      | some _ => 0
      | none => 1)
    (hspawned : ∀ u, C.isMutex → C.xMutexHolder = some u → u < v.nextTask)
    (howned : ∀ u, q ∈ v.locked u → C.xMutexHolder = some u)
    (hlocking : ∀ u f item, v.frame u = some f → f.api.locks = some q →
      f.pc = .leave (.pass item) → C.xMutexHolder = some u)
    (hunlocking : ∀ u f, v.frame u = some f → f.api.unlocks = some q →
      f.pc = .entry ∨ f.pc = .attempt → C.xMutexHolder = some u)
    (hheld : ∀ u, held u = ((v.setQueue q C).mutexes u).card) :
    MutexInv ({ v with held := held }.setQueue q C) := by
  have hself : ({ v with held := held }.setQueue q C).queue q = C := by simp [View.setQueue]
  have hother {p : QueueId} (hp : p ≠ q) :
      ({ v with held := held }.setQueue q C).queue p = v.queue p := by
    simp [View.setQueue, hp]
  have hsame (p : QueueId) :
      (({ v with held := held }.setQueue q C).queue p).isMutex = (v.queue p).isMutex := by
    by_cases hp : p = q
    · rw [hp, hself, hmutex]
    · rw [hother hp]
  refine ⟨fun p hp => ?_, fun p => ?_, fun p => ?_, fun p u => ?_, hinv.nodup, fun u p hp => ?_,
    fun u f hf => ?_, fun u f p hf huse => ?_, fun u f p item hf hlock hpc => ?_,
    fun u f p hf hunlock hpc => ?_, hheld⟩
  · rw [hsame] at hp
    exact hinv.created p hp
  · by_cases hp : p = q
    · rw [hp, hself]
      exact hshape
    · rw [hother hp]
      exact hinv.shape p
  · by_cases hp : p = q
    · rw [hp, hself]
      exact hcount
    · rw [hother hp]
      exact hinv.count p
  · by_cases hp : p = q
    · rw [hp, hself]
      exact hspawned u
    · rw [hother hp]
      exact hinv.spawned p u
  · rw [hsame]
    refine ⟨(hinv.owned u p hp).1, ?_⟩
    by_cases hq : p = q
    · subst hq
      rw [hself]
      exact howned u hp
    · rw [hother hq]
      exact (hinv.owned u p hp).2
  · rw [hsame]
    exact hinv.typed u f hf
  · rw [hsame]
    exact hinv.apart u f p hf huse
  · by_cases hq : p = q
    · subst hq
      rw [hself]
      exact hlocking u f item hf hlock hpc
    · rw [hother hq]
      exact hinv.locking u f p item hf hlock hpc
  · by_cases hq : p = q
    · subst hq
      rw [hself]
      exact hunlocking u f hf hunlock hpc
    · rw [hother hq]
      exact hinv.unlocking u f p hf hunlock hpc

/-- A free mutex is taken. -/
theorem acquire (hinv : MutexInv v) {q : QueueId} (hmutex : (v.queue q).isMutex)
    (hfree : (v.queue q).xMutexHolder = none) (hspawned : t < v.nextTask) :
    MutexInv ((v.setHeld t (v.held t + 1)).setQueue q ((v.queue q).taken t)) := by
  have hcount := hinv.count q hmutex
  rw [hfree] at hcount
  -- no task can rely on being the holder of a free mutex
  have hnone {u : TaskId} {P : Prop} (hholder : (v.queue q).xMutexHolder = some u) : P := by
    simp [hfree] at hholder
  refine hinv.replace (C := (v.queue q).taken t) _ rfl (fun _ => hinv.shape q hmutex) ?_
    ?_ ?_ ?_ ?_ ?_
  · intro _
    simp [Contents.taken, hmutex, hcount]
  · intro u _ hu
    obtain rfl : t = u := by simpa [Contents.taken, hmutex] using hu
    exact hspawned
  · exact fun u hu => hnone (hinv.owned u q hu).2
  · exact fun u f item hf hlock hpc => hnone (hinv.locking u f q item hf hlock hpc)
  · exact fun u f hf hunlock hpc => hnone (hinv.unlocking u f q hf hunlock hpc)
  · intro u
    have hacquire := View.mutexes_acquire (C := (v.queue q).taken t) (t := t)
      (hinv.created q hmutex) hmutex hfree (by simp [Contents.taken, hmutex]) u
    rw [hacquire, ← hinv.held u]
    by_cases hu : u = t
    · simp [hu]
    · simp [hu]

/-- The holder gives its mutex back. -/
theorem release (hinv : MutexInv v) {q : QueueId} (hmutex : (v.queue q).isMutex)
    (hholder : (v.queue q).xMutexHolder = some t) (hnot : q ∉ v.locked t)
    (hlocks : ∀ f, v.frame t = some f → f.api.locks ≠ some q)
    (hpc : ∀ f, v.frame t = some f → f.pc ≠ .entry ∧ f.pc ≠ .attempt) (item : Option α) :
    MutexInv ((v.setHeld t (v.held t - 1)).setQueue q ((v.queue q).sent item)) := by
  have hcount := hinv.count q hmutex
  rw [hholder] at hcount
  have hsize := (hinv.shape q hmutex).2
  have hsent : (v.queue q).sent item =
      { v.queue q with xMutexHolder := none, uxMessagesWaiting := 1 } := by
    simp [Contents.sent, hsize, hmutex, hcount]
  -- whoever relies on being the holder is `t`
  have honly {u : TaskId} (hother : (v.queue q).xMutexHolder = some u) : u = t :=
    (Option.some.inj (hholder.symm.trans hother)).symm
  rw [hsent]
  refine hinv.replace _ rfl (fun _ => hinv.shape q hmutex) (fun _ => rfl) (by simp) ?_ ?_ ?_ ?_
  · intro u hu
    rw [honly (hinv.owned u q hu).2] at hu
    exact absurd hu hnot
  · intro u f item' hf hlock hpc'
    rw [honly (hinv.locking u f q item' hf hlock hpc')] at hf
    exact absurd hlock (hlocks f hf)
  · intro u f hf hunlock hpc'
    rw [honly (hinv.unlocking u f q hf hunlock hpc')] at hf
    exact absurd hpc' (not_or.mpr (hpc f hf))
  · intro u
    have hcard := View.mutexes_release (v := v)
      (C := { v.queue q with xMutexHolder := none, uxMessagesWaiting := 1 })
      (hinv.created q hmutex) hmutex hholder rfl u
    rw [← hinv.held u] at hcard
    by_cases hu : u = t
    · simp only [hu, if_true, Function.update_self] at hcard ⊢
      omega
    · simp only [hu, if_false, Nat.add_zero, Function.update_of_ne hu] at hcard ⊢
      exact hcard.symm

/-- A step on a queue that is not a mutex, or the destruction of a mutex. -/
theorem setQueue (hinv : MutexInv v) {q : QueueId} {C : Contents α}
    (hmutex : (v.queue q).isMutex → C = { v.queue q with live := false })
    (hsame : C.isMutex = (v.queue q).isMutex) : MutexInv (v.setQueue q C) := by
  have hholder (hm : (v.queue q).isMutex) : C.xMutexHolder = (v.queue q).xMutexHolder := by
    rw [hmutex hm]
  refine hinv.replace v.held hsame ?_ ?_ ?_ ?_ ?_ ?_ ?_
  · intro hm
    rw [hmutex (hsame ▸ hm)]
    exact hinv.shape q (hsame ▸ hm)
  · intro hm
    rw [hmutex (hsame ▸ hm)]
    exact hinv.count q (hsame ▸ hm)
  · intro u hm hu
    rw [hholder (hsame ▸ hm)] at hu
    exact hinv.spawned q u (hsame ▸ hm) hu
  · intro u hu
    obtain ⟨hm, hu⟩ := hinv.owned u q hu
    exact (hholder hm).trans hu
  · intro u f item hf hlock hpc
    exact (hholder (hinv.apart u f q hf (.inl hlock)).1).trans
      (hinv.locking u f q item hf hlock hpc)
  · intro u f hf hunlock hpc
    exact (hholder (hinv.apart u f q hf (.inr hunlock)).1).trans
      (hinv.unlocking u f q hf hunlock hpc)
  · intro u
    rw [View.mutexes_setQueue hsame hholder]
    exact hinv.held u

/-- The call has its result, with which it has the mutex if it is to lock one. -/
theorem complete (hinv : MutexInv v) {frame : Frame α} (hframe : v.frame t = some frame)
    (res : QueueResult α)
    (hlock : ∀ q, frame.api.locks = some q → res ≠ .fail → (v.queue q).xMutexHolder = some t) :
    MutexInv (v.complete t frame res) := by
  refine (hinv.setFrame hframe { frame with pc := .leave res } rfl rfl (fun q item hlocks hpc => ?_)
    (by simp)).congr rfl rfl rfl rfl rfl rfl
  refine hlock q hlocks ?_
  rw [Pc.leave.inj hpc]
  simp

section Ran

variable {frame : Frame α} (hinv : MutexInv v) (hframe : v.frame t = some frame)
  (hf : frame.WellFormed)
include hinv hframe hf

/-- What is sent to a mutex is given back by its holder. -/
theorem sent {item : Option α} (hpc : frame.pc = .attempt) (hop : frame.op = .genericSend item) :
    MutexInv (((v.released t frame.xQueue).setQueue frame.xQueue
      ((v.queue frame.xQueue).sent item)).complete t frame (.pass none)) := by
  have hlock (q : QueueId) : frame.api.locks ≠ some q := by
    intro hlock
    have hbad := (hf.of_locks hlock).1
    simp [hop] at hbad
  cases hm : (v.queue frame.xQueue).isMutex with
  | false =>
      have hreleased : v.released t frame.xQueue = v := by simp [View.released, hm]
      rw [hreleased]
      refine (hinv.setQueue (by simp [hm]) ?_).complete hframe _ fun q hq => absurd hq (hlock q)
      unfold Contents.sent
      split <;> rfl
  | true =>
      have hunlock := (hinv.typed t frame hframe hm).resolve_left (hlock _)
      have hhold := hinv.unlocking t frame _ hframe hunlock (.inr hpc)
      have hreleased : v.released t frame.xQueue = v.setHeld t (v.held t - 1) := by
        simp [View.released, hm, hhold, (hinv.shape _ hm).2]
      -- the call is out of its critical section before the mutex is free
      have hmoved := hinv.setFrame hframe { frame with pc := .leave (.pass none) } rfl rfl
        (fun q _ hq => absurd hq (hlock q)) (by simp)
      have hleft {f : Frame α}
          (hf : (v.setFrame t (some { frame with pc := .leave (.pass none) })).frame t = some f) :
          f = { frame with pc := .leave (.pass none) } := by
        simpa [View.setFrame] using hf.symm
      have hdone := hmoved.release (q := frame.xQueue) hm hhold
        (hinv.apart t frame _ hframe (.inr hunlock)).2 (fun f hf => hleft hf ▸ hlock _)
        (fun f hf => by simp [hleft hf]) item
      rw [hreleased]
      exact hdone.congr rfl rfl rfl rfl rfl rfl

/-- Nothing is received from a mutex. -/
theorem received (hop : frame.op = .receive) :
    MutexInv ((v.setQueue frame.xQueue (v.queue frame.xQueue).received).complete t frame
      (.pass (v.queue frame.xQueue).front)) := by
  have hlock (q : QueueId) : frame.api.locks ≠ some q := by
    intro hlock
    have hbad := (hf.of_locks hlock).1
    simp [hop] at hbad
  have hm : (v.queue frame.xQueue).isMutex = false := by
    by_contra hm
    rcases hinv.typed t frame hframe (by simpa using hm) with hlocks | hunlocks
    · exact hlock _ hlocks
    · have hbad := (hf.of_unlocks hunlocks).1
      simp [hop] at hbad
  have hset := hinv.setQueue (q := frame.xQueue) (C := (v.queue frame.xQueue).received)
    (by simp [hm]) rfl
  exact hset.complete hframe _ fun q hq => absurd hq (hlock q)

/-- What is taken from a mutex makes the task its holder. -/
theorem taken (hspawned : t < v.nextTask) (hop : frame.op = .semaphoreTake)
    (hready : frame.op.ready (v.queue frame.xQueue)) :
    MutexInv (((v.acquired t frame.xQueue).setQueue frame.xQueue
      ((v.queue frame.xQueue).taken t)).complete t frame (.pass none)) := by
  cases hm : (v.queue frame.xQueue).isMutex with
  | false =>
      have hacquired : v.acquired t frame.xQueue = v := by simp [View.acquired, hm]
      rw [hacquired]
      have hset := hinv.setQueue (q := frame.xQueue) (C := (v.queue frame.xQueue).taken t)
        (by simp [hm]) rfl
      refine hset.complete hframe _ fun q hlocks => ?_
      have hmutex := (hinv.apart t frame q hframe (.inl hlocks)).1
      rw [← (hf.of_locks hlocks).2.1, hm] at hmutex
      simp at hmutex
  | true =>
      have hfree : (v.queue frame.xQueue).xMutexHolder = none := by
        have hcount := hinv.count _ hm
        rw [hop] at hready
        have hpos : 0 < (v.queue frame.xQueue).uxMessagesWaiting := hready
        cases hholder : (v.queue frame.xQueue).xMutexHolder with
        | none => rfl
        | some u =>
            rw [hholder] at hcount
            simp [hcount] at hpos
      have hacquired : v.acquired t frame.xQueue = v.setHeld t (v.held t + 1) := by
        simp [View.acquired, hm]
      rw [hacquired]
      refine (hinv.acquire hm hfree hspawned).complete hframe _ fun q hlocks _ => ?_
      rw [← (hf.of_locks hlocks).2.1]
      simp [View.setQueue, Contents.taken, hm]

omit hf in
/-- The call returns. One that locked a mutex now counts as its owner. -/
theorem left {res : QueueResult α} (hpc : frame.pc = .leave res) (ret : Ret α) :
    MutexInv (v.leave t frame.api res ret) := by
  have hcases {u : TaskId} {f : Frame α}
      (hf : ((v.setFrame t none).setRet t (some ret)).frame u = some f) :
      v.frame u = some f ∧ u ≠ t := by
    by_cases hu : u = t
    · simp [View.setFrame, View.setRet, hu] at hf
    · simp only [View.setFrame, View.setRet, Function.update_of_ne hu] at hf
      exact ⟨hf, hu⟩
  have hgone : MutexInv ((v.setFrame t none).setRet t (some ret)) :=
    ⟨hinv.created, hinv.shape, hinv.count, hinv.spawned, hinv.nodup, hinv.owned,
      fun u f hf => hinv.typed u f (hcases hf).1, fun u f q hf => hinv.apart u f q (hcases hf).1,
      fun u f q item hf => hinv.locking u f q item (hcases hf).1,
      fun u f q hf => hinv.unlocking u f q (hcases hf).1, hinv.held⟩
  unfold View.leave
  dsimp only
  split
  next q item hlock =>
    obtain ⟨hm, hnot⟩ := hinv.apart t frame q hframe (.inl hlock)
    have hholder := hinv.locking t frame q item hframe hlock hpc
    refine ⟨hgone.created, hgone.shape, hgone.count, hgone.spawned, fun u => ?_, fun u p hp => ?_,
      hgone.typed, fun u f p hf huse => ?_, hgone.locking, hgone.unlocking, hgone.held⟩
    · by_cases hu : u = t
      · subst hu
        simpa [View.setFrame, View.setRet] using ⟨hnot, hinv.nodup u⟩
      · simpa [View.setFrame, View.setRet, hu] using hinv.nodup u
    · by_cases hu : u = t
      · subst hu
        simp only [Function.update_self, List.mem_cons] at hp
        rcases hp with rfl | hp
        · exact ⟨hm, hholder⟩
        · exact hinv.owned u p hp
      · simp only [Function.update_of_ne hu] at hp
        exact hinv.owned u p hp
    · obtain ⟨hmp, hnp⟩ := hgone.apart u f p hf huse
      refine ⟨hmp, ?_⟩
      simpa [(hcases hf).2] using hnp
  next => exact hgone

/-- A step inside a blocking function. -/
theorem ran (hspawned : t < v.nextTask) (hran : Ran v t frame v') : MutexInv v' := by
  cases hran with
  | halted => exact hinv.congr rfl rfl rfl rfl rfl rfl
  | entered hpc =>
      refine hinv.setFrame hframe _ rfl rfl (by simp) fun q hunlock _ => ?_
      exact hinv.unlocking t frame q hframe hunlock (.inl hpc)
  | waits => exact hinv.setFrame hframe _ rfl rfl (by simp) (by simp)
  | moved frame' hpc hpc' hapi hop hqueue =>
      refine hinv.setFrame hframe _ hapi hqueue (fun q item _ hleave => ?_) fun q hunlock _ => ?_
      · simp [hleave, Pc.looping] at hpc'
      · exact absurd hpc (hf.of_unlocks hunlock).2.2
  | gaveUp => exact hinv.complete hframe _ (by simp)
  | timedOut => exact hinv.complete hframe _ (by simp)
  | sent item hpc hop => exact hinv.sent hframe hf hpc hop
  | received hpc hop => exact hinv.received hframe hf hop
  | taken hpc hop hlive hready => exact hinv.taken hframe hf hspawned hop hready
  | left res elapsed hpc => exact hinv.left hframe hpc _

end Ran

/-- The task enters an entry point of the shim. -/
theorem enter (hinv : MutexInv v) {api : Api α} (hframe : v.frame t = none)
    (htyped : ∀ q, api.target = some q → ((v.queue q).isMutex ↔ api.mutexUse q))
    (hlock : ∀ q, api.locks = some q → q ∉ v.locked t)
    (hunlock : ∀ q, api.unlocks = some q → q ∈ v.locked t) (startTick : Nat) :
    MutexInv (v.enter t api startTick) := by
  have hsub {u : TaskId} {q : QueueId} (hq : q ∈ (v.enter t api startTick).locked u) :
      q ∈ v.locked u := (v.enter_locked t api startTick u).subset hq
  have hcases {u : TaskId} {f : Frame α} (hf : (v.enter t api startTick).frame u = some f) :
      v.frame u = some f ∨ u = t ∧ f.api = api ∧ f.pc = .entry ∧ api.target = some f.xQueue := by
    rcases v.enter_frame_cases t api startTick hframe hf with hold | ⟨hu, hapi, hpc, hrequest⟩
    · exact .inl hold
    · exact .inr ⟨hu, hapi, hpc, by simp [Api.target, hrequest]⟩
  have hmutexes : (v.enter t api startTick).mutexes = v.mutexes := by
    funext u
    simp [View.mutexes]
  refine ⟨by simpa using hinv.created, by simpa using hinv.shape, by simpa using hinv.count,
    by simpa using hinv.spawned, fun u => (hinv.nodup u).sublist (v.enter_locked t api startTick u),
    fun u q hq => by simpa using hinv.owned u q (hsub hq), fun u f hf hm => ?_,
    fun u f q hf huse => ?_, fun u f q item hf hlocks hpc => ?_, fun u f q hf hunlocks hpc => ?_,
    fun u => ?_⟩
  · rw [View.enter_queue] at hm
    rcases hcases hf with hf | ⟨-, hapi, -, htarget⟩
    · exact hinv.typed u f hf hm
    · rw [hapi]
      exact (htyped _ htarget).mp hm
  · rw [View.enter_queue]
    rcases hcases hf with hf | ⟨rfl, rfl, -, -⟩
    · exact ⟨(hinv.apart u f q hf huse).1, fun hq => (hinv.apart u f q hf huse).2 (hsub hq)⟩
    · have hq : f.api.target = some q := huse.elim Api.target_of_locks Api.target_of_unlocks
      refine ⟨(htyped q hq).mpr huse, fun hmem => ?_⟩
      rcases huse with hlocks | hunlocks
      · exact hlock q hlocks (hsub hmem)
      · rw [View.enter_locked_self v u f.api startTick hunlocks] at hmem
        exact (hinv.nodup u).not_mem_erase hmem
  · rw [View.enter_queue]
    rcases hcases hf with hf | ⟨-, -, hentry, -⟩
    · exact hinv.locking u f q item hf hlocks hpc
    · simp [hentry] at hpc
  · rw [View.enter_queue]
    rcases hcases hf with hf | ⟨rfl, hapi, -, -⟩
    · exact hinv.unlocking u f q hf hunlocks hpc
    · rw [hapi] at hunlocks
      exact (hinv.owned u q (hunlock q hunlocks)).2
  · rw [hmutexes, View.enter_held]
    exact hinv.held u

/-- What every creation function makes of a mutex. -/
theorem build_mutex {spec : NewQueue} {Q : Queue α} (hbuild : spec.build = some Q)
    (hmutex : Q.isMutex) : Q = xQueueCreateMutex := by
  cases spec with
  | mutex => exact (Option.some.inj hbuild).symm
  | counting value =>
      simp only [NewQueue.build, xQueueCreateCountingSemaphore] at hbuild
      split at hbuild
      · cases hbuild
        simp [prvInitialiseNewQueue] at hmutex
      · simp at hbuild
  | mailbox size =>
      simp only [NewQueue.build] at hbuild
      split at hbuild
      · simp at hbuild
      · cases hbuild
        simp [prvInitialiseNewQueue] at hmutex
  | binary =>
      cases hbuild
      simp [xSemaphoreCreateBinary, prvInitialiseNewQueue] at hmutex

theorem addQueue (hinv : MutexInv v) {Q : Queue α} (hnew : Q.isMutex → Q = xQueueCreateMutex)
    (hcreated : ∀ u f, v.frame u = some f → f.xQueue < v.nextQueue) :
    MutexInv (v.addQueue Q.contents) := by
  have hold {p : QueueId} (hp : p < v.nextQueue) : (v.addQueue Q.contents).queue p = v.queue p := by
    have hne : p ≠ v.nextQueue := Nat.ne_of_lt hp
    simp [View.addQueue, hne]
  have hself : (v.addQueue Q.contents).queue v.nextQueue = Q.contents := by simp [View.addQueue]
  have hcases {p : QueueId} (hm : ((v.addQueue Q.contents).queue p).isMutex) :
      p < v.nextQueue ∧ (v.queue p).isMutex ∨
        p = v.nextQueue ∧ (v.addQueue Q.contents).queue p = xQueueCreateMutex.contents := by
    by_cases hp : p = v.nextQueue
    · rw [hp, hself] at hm
      refine .inr ⟨hp, ?_⟩
      rw [hp, hself, hnew hm]
    · simp only [View.addQueue, Function.update_of_ne hp] at hm
      exact .inl ⟨hinv.created p hm, hm⟩
  have hmutexes (u : TaskId) : (v.addQueue Q.contents).mutexes u = v.mutexes u := by
    ext p
    simp only [View.mem_mutexes]
    constructor
    · rintro ⟨-, hm, hholder⟩
      rcases hcases hm with ⟨hp, hm⟩ | ⟨hp, heq⟩
      · rw [hold hp] at hholder
        exact ⟨hp, hm, hholder⟩
      · rw [heq] at hholder
        exact absurd hholder (by simp [xQueueCreateMutex, prvInitialiseMutex, Queue.contents])
    · rintro ⟨hp, hm, hholder⟩
      rw [hold hp]
      exact ⟨Nat.lt_succ_of_lt hp, hm, hholder⟩
  refine ⟨fun p hp => ?_, fun p hp => ?_, fun p hp => ?_, fun p u hp hholder => ?_, hinv.nodup,
    fun u p hp => ?_, fun u f hf hm => ?_, fun u f p hf huse => ?_,
    fun u f p item hf hlock hpc => ?_, fun u f p hf hunlock hpc => ?_, fun u => ?_⟩
  · rcases hcases hp with ⟨hp, -⟩ | ⟨rfl, -⟩
    · exact Nat.lt_succ_of_lt hp
    · exact Nat.lt_succ_self _
  · rcases hcases hp with ⟨hp, hm⟩ | ⟨-, heq⟩
    · rw [hold hp]
      exact hinv.shape p hm
    · rw [heq]
      exact ⟨rfl, rfl⟩
  · rcases hcases hp with ⟨hp, hm⟩ | ⟨-, heq⟩
    · rw [hold hp]
      exact hinv.count p hm
    · rw [heq]
      rfl
  · rcases hcases hp with ⟨hp, hm⟩ | ⟨-, heq⟩
    · rw [hold hp] at hholder
      exact hinv.spawned p u hm hholder
    · rw [heq] at hholder
      simp [xQueueCreateMutex, prvInitialiseMutex, Queue.contents] at hholder
  · obtain ⟨hm, hholder⟩ := hinv.owned u p hp
    rw [hold (hinv.created p hm)]
    exact ⟨hm, hholder⟩
  · rw [hold (hcreated u f hf)] at hm
    exact hinv.typed u f hf hm
  · obtain ⟨hm, hnot⟩ := hinv.apart u f p hf huse
    rw [hold (hinv.created p hm)]
    exact ⟨hm, hnot⟩
  · rw [hold (hinv.created p (hinv.apart u f p hf (.inl hlock)).1)]
    exact hinv.locking u f p item hf hlock hpc
  · rw [hold (hinv.created p (hinv.apart u f p hf (.inr hunlock)).1)]
    exact hinv.unlocking u f p hf hunlock hpc
  · rw [hmutexes]
    exact hinv.held u

theorem addTask (hinv : MutexInv v) : MutexInv v.addTask := by
  have hcases {u : TaskId} {f : Frame α} (hf : v.addTask.frame u = some f) :
      v.frame u = some f := by
    by_cases hu : u = v.nextTask
    · simp [View.addTask, hu] at hf
    · simpa [View.addTask, hu] using hf
  refine ⟨hinv.created, hinv.shape, hinv.count,
    fun q u hm hholder => Nat.lt_succ_of_lt (hinv.spawned q u hm hholder), hinv.nodup, hinv.owned,
    fun u f hf => hinv.typed u f (hcases hf), fun u f q hf => hinv.apart u f q (hcases hf),
    fun u f q item hf => hinv.locking u f q item (hcases hf),
    fun u f q hf => hinv.unlocking u f q (hcases hf), fun u => ?_⟩
  have hsame : v.addTask.mutexes u = v.mutexes u := rfl
  rw [hsame]
  by_cases hu : u = v.nextTask
  · have hempty : v.mutexes u = ∅ := by
      refine Finset.eq_empty_of_forall_notMem fun q hq => ?_
      obtain ⟨-, hm, hholder⟩ := View.mem_mutexes.mp hq
      exact absurd (hinv.spawned q u hm hholder) (by rw [hu]; exact Nat.lt_irrefl _)
    simp [View.addTask, hu, hu ▸ hempty]
  · simpa [View.addTask, hu] using hinv.held u

/-- A step of the kernel by users of mutexes that keep their promises. -/
theorem step {k k' : State α} {act : Act α} (hinv : MutexInv k.view) (hkernel : KernelInv k)
    (hcalls : Calls k.view fun _ _ => True) (hok : ∀ t api, act = .call t api → api.Locks k t)
    (hstep : k.step act = some k') : MutexInv k'.view := by
  have hspawned {t : TaskId} (hactor : act.actor = some t) : t < k.view.nextTask := by
    refine hkernel.wait.spawned (t := t) ?_
    unfold State.step at hstep
    rw [hactor] at hstep
    by_contra hrun
    simp [hrun] at hstep
  have hstepped := State.stepped_step hstep
  generalize hv' : k'.view = v' at hstepped
  cases hstepped with
  | scheduled => exact hinv
  | asserted => exact hinv.congr rfl rfl rfl rfl rfl rfl
  | freed => exact hinv.congr rfl rfl rfl rfl rfl rfl
  | ran hframe hran =>
      exact hinv.ran hframe (hcalls.wellFormed _ _ hframe) (hspawned rfl) hran
  | called t api startTick hframe =>
      obtain ⟨htyped, hlock, hunlock⟩ := hok t api rfl
      exact hinv.enter hframe htyped hlock hunlock startTick
  | created t spec Q hbuild => exact hinv.addQueue (build_mutex hbuild) hcalls.created
  | deleted t q hlive => exact hinv.setQueue (fun _ => rfl) rfl
  | spawned => exact hinv.addTask
  | exited => exact hinv.congr rfl rfl rfl rfl rfl rfl
  | reaped =>
      unfold View.reap
      split
      · exact hinv
      · exact hinv.congr rfl rfl rfl rfl rfl rfl

theorem boot (uxMainPriority : Nat) : MutexInv (State.boot uxMainPriority : State α).view := by
  refine ⟨?_, ?_, ?_, ?_, ?_, ?_, ?_, ?_, ?_, ?_, ?_⟩
  all_goals simp [State.view, State.boot, Queue.none, Queue.contents, View.mutexes]

end MutexInv

/-! ## The locks of one task -/

/-- The locks of a task change only by its own steps. -/
theorem Stepped.locked_of_ne {v v' : View α} {a : Act α} (hstepped : Stepped v a v') {u : TaskId}
    (hactor : a.actor ≠ some u) : v'.locked u = v.locked u := by
  cases hstepped with
  | @ran t f v' hframe hran =>
      have hne : u ≠ t := fun heq => hactor (by rw [heq]; rfl)
      cases hran with
      | sent =>
          simp only [View.complete, View.setFrame, View.setQueue, View.released]
          split <;> rfl
      | taken =>
          simp only [View.complete, View.setFrame, View.setQueue, View.acquired]
          split <;> rfl
      | left res elapsed hpc =>
          unfold View.leave
          split
          · simp [View.setRet, View.setFrame, hne]
          · rfl
      | _ => rfl
  | called t api startTick =>
      have hne : u ≠ t := fun heq => hactor (by rw [heq]; rfl)
      exact v.enter_locked_ne t api startTick hne
  | reaped t =>
      unfold View.reap
      split <;> rfl
  | _ => rfl

/-- A step of another task. -/
theorem Stepped.others {v v' : View α} {a : Act α} (hstepped : Stepped v a v') {u : TaskId}
    (hactor : a.actor ≠ some u) (hborn : u < v.nextTask) :
    v'.frame u = v.frame u ∧ v'.locked u = v.locked u := by
  refine ⟨?_, hstepped.locked_of_ne hactor⟩
  cases hstepped with
  | @ran t f v' hframe hran => exact hran.frame_ne fun heq => hactor (by rw [heq]; rfl)
  | called t api startTick =>
      exact View.enter_frame_ne v t api startTick fun heq => hactor (by rw [heq]; rfl)
  | spawned => exact Function.update_of_ne (Nat.ne_of_lt hborn) ..
  | reaped t =>
      unfold View.reap
      split <;> rfl
  | _ => rfl

/-- A step inside a call changes the locks of its caller only where a lock returns. -/
theorem Ran.locked_cases {v v' : View α} {t : TaskId} {f : Frame α} (hran : Ran v t f v')
    (hframe : v.frame t = some f) (hf : f.WellFormed) :
    (∃ f', v'.frame t = some f' ∧ f'.api = f.api ∧ v'.locked t = v.locked t) ∨
      v'.frame t = none ∧ v'.locked t = (match f.api.locks with
        | some q => q :: v.locked t
        | none => v.locked t) := by
  have hkept : ∀ {f' : Frame α}, v'.frame t = some f' → v'.locked t = v.locked t →
      ∃ f', v'.frame t = some f' ∧ f'.api = f.api ∧ v'.locked t = v.locked t := fun hf' hlocked =>
    ⟨_, hf', (hran.wellFormed hframe hf hf').2.1, hlocked⟩
  cases hran with
  | halted fault hfaults => exact .inl ⟨f, hframe, rfl, rfl⟩
  | sent item =>
      refine .inl (hkept (Function.update_self ..) ?_)
      simp only [View.complete, View.setFrame, View.setQueue, View.released]
      split <;> rfl
  | taken =>
      refine .inl (hkept (Function.update_self ..) ?_)
      simp only [View.complete, View.setFrame, View.setQueue, View.acquired]
      split <;> rfl
  | left res elapsed hpc =>
      refine .inr ⟨?_, ?_⟩
      · unfold View.leave
        split <;> simp [View.setRet, View.setFrame]
      · cases hlocks : f.api.locks with
        | none => simp [View.leave, hlocks, View.setRet, View.setFrame]
        | some q =>
            cases res with
            | pass item => simp [View.leave, hlocks, View.setRet, View.setFrame]
            | fail => exact absurd hpc (hf.of_locks hlocks).2.2
  | _ => exact .inl (hkept (Function.update_self ..) rfl)

/-! ## The law -/

theorem MutexInv.exclusive {v : View α} (hinv : MutexInv v) {q : QueueId} {t u : TaskId}
    (ht : q ∈ v.locked t) (hu : q ∈ v.locked u) : t = u := by
  have hholder := (hinv.owned t q ht).2
  rw [(hinv.owned u q hu).2] at hholder
  exact (Option.some.inj hholder).symm

/-- The law follows from the invariants of the kernel. -/
theorem MutexInv.law {k : State α} (hinv : MutexInv k.view) (hkernel : KernelInv k)
    (hready : k.WokenReady) : MutexLaw k where
  exclusive := fun _ _ _ ht hu => hinv.exclusive ht hu
  owner := fun q t ht => (hinv.owned t q ht).2
  count := hinv.count
  held := hinv.held
  noLostWake := by
    intro q hm hwaiting
    have hcount : (k.queue q).uxMessagesWaiting =
        match (k.queue q).xMutexHolder with
        | some _ => 0
        | none => 1 := hinv.count q hm
    have hle : (k.queue q).uxMessagesWaiting ≤ (k.woken (.toReceive q)).length :=
      hkernel.wait.balanced.receive q hwaiting
    cases hholder : (k.queue q).xMutexHolder with
    | some t => exact .inl (by simp)
    | none =>
        refine .inr ?_
        have hone : (k.queue q).uxMessagesWaiting = 1 := by rw [hcount, hholder]
        have hpos : 0 < (k.woken (.toReceive q)).length := by
          rw [hone] at hle
          exact hle
        obtain ⟨t, ht⟩ := List.exists_mem_of_length_pos hpos
        obtain ⟨-, f, hf, hwait, hpc⟩ := hkernel.wait.lists.awoken t _ ht
        refine ⟨t, ht, hready _ t ht, f, hf, ?_, hpc⟩
        unfold Frame.waitList at hwait
        cases hop : f.op <;> simp_all [Op.waitList]

/-- A second task blocks on the mutex of the main task, which then unlocks it. -/
def mutexSchedule : List (Act Unit) :=
  [.create 1 .mutex, .call 1 (.pthreadMutexLock (some 0)), .run 1, .run 1, .run 1, .spawn 1 2,
    .call 2 (.sysMutexLock (some 0)), .run 2, .run 2, .run 2, .run 2, .run 2, .run 2, .run 2,
    .run 2, .run 2, .run 2, .run 2, .call 1 (.pthreadMutexUnlock (some 0)), .run 1, .run 1, .run 1]

/-- The guard of `mutexSchedule`. -/
def mutexCheck (k : State Unit) : Act Unit → Bool
  | .call t (.pthreadMutexLock (some q)) | .call t (.sysMutexLock (some q)) =>
      k.uxSchedulerSuspended = 0 && q < k.nextQueue && (k.queue q).isMutex && (k.queue q).live &&
        q ∉ k.locked t
  | .call t (.pthreadMutexUnlock (some q)) =>
      k.uxSchedulerSuspended = 0 && q < k.nextQueue && (k.queue q).isMutex && (k.queue q).live &&
        q ∈ k.locked t
  | .run _ | .create _ .mutex | .spawn _ _ => true
  | _ => false

theorem mutexCheck_uses (k : State Unit) (act : Act Unit) (hcheck : mutexCheck k act) :
    act.UsesMutexes k := by
  unfold mutexCheck at hcheck
  split at hcheck
  case h_4 => exact ⟨trivial, by simp, by simp, by simp, by simp, by simp, by simp⟩
  case h_5 => exact ⟨trivial, by simp, by simp, by simp, by simp, by simp, by simp⟩
  case h_6 => exact ⟨trivial, by simp, by simp, by simp, by simp, by simp, by simp⟩
  case h_7 => simp at hcheck
  all_goals
    simp only [Bool.and_eq_true, decide_eq_true_eq] at hcheck
    obtain ⟨⟨⟨⟨hrunning, hcreated⟩, hmutex⟩, hlive⟩, hmem⟩ := hcheck
    refine ⟨⟨hrunning, ?_⟩, ?_, ?_, ?_, ?_, by simp, by simp⟩
    · simpa [Api.target, Api.request] using hcreated
    · rintro u api p ⟨⟩ hp
      obtain rfl := Option.some.inj hp
      simp [hmutex, Api.mutexUse, Api.locks, Api.unlocks]
    · rintro u api p ⟨⟩ hp
      simp only [Api.mutexUse, Api.locks, Api.unlocks, Option.some.injEq, reduceCtorEq, or_false,
        false_or] at hp
      exact hp ▸ hlive
    · rintro u api p ⟨⟩ hp
      simp only [Api.locks, Option.some.injEq, reduceCtorEq] at hp
      try exact hp ▸ hmem
    · rintro u api p ⟨⟩ hp
      simp only [Api.unlocks, Option.some.injEq, reduceCtorEq] at hp
      try exact hp ▸ hmem

end SimulatedLinux.Kernel
