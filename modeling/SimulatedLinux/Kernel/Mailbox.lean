import SimulatedLinux.Lib.Ring
import SimulatedLinux.Kernel.Listing

/-! # Mailboxes

A mailbox of `sys_mbox_new` is a queue of pointers. Its storage area is a ring
that starts with the read position on the last slot; in every interleaving it
holds what has been posted and not yet fetched, in order.
-/

namespace SimulatedLinux.Kernel

variable {α : Type}

/-- `sizeof(void *)`. -/
def pointerSize : Nat := 4

namespace Api

/-- The mailbox a call posts to, and the message. -/
def mboxPosts : Api α → Option (QueueId × α)
  | sysMboxPost mbox msg | sysMboxTrypost mbox msg => some (mbox, msg)
  | _ => none

/-- The mailbox a call fetches from. -/
def mboxFetches : Api α → Option QueueId
  | sysArchMboxFetch mbox _ | sysArchMboxTryfetch mbox => some mbox
  | _ => none

/-- The entry points of a mailbox. -/
def mailboxUse (q : QueueId) (api : Api α) : Prop :=
  (∃ msg, api.mboxPosts = some (q, msg)) ∨ api.mboxFetches = some q

theorem request_of_mboxPosts {api : Api α} {q : QueueId} {msg : α}
    (hposts : api.mboxPosts = some (q, msg)) :
    ∃ n, api.request = some (.genericSend (some msg), q, n) := by
  cases api <;> simp_all [mboxPosts, request]

theorem request_of_mboxFetches {api : Api α} {q : QueueId} (hfetches : api.mboxFetches = some q) :
    ∃ n, api.request = some (.receive, q, n) := by
  cases api <;> simp_all [mboxFetches, request]

end Api

namespace Event

/-- The message of a post to the mailbox that succeeded. -/
def mboxPosted (q : QueueId) (e : Event α) : Option α :=
  match e.result, e.api.mboxPosts with
  | .pass _, some (mbox, msg) => if mbox = q then some msg else none
  | _, _ => none

/-- What a fetch from the mailbox that succeeded stored in `*msg`. -/
def mboxFetched (q : QueueId) (e : Event α) : Option (Option α) :=
  match e.result with
  | .pass msg => if e.api.mboxFetches = some q then some msg else none
  | .fail => none

end Event

/-- The messages posted to the mailbox, in the order of the posts. -/
def State.posted (k : State α) (q : QueueId) : List α := k.trace.filterMap (Event.mboxPosted q)

/-- What the fetches from the mailbox returned, in their order. -/
def State.fetched (k : State α) (q : QueueId) : List (Option α) :=
  k.trace.filterMap (Event.mboxFetched q)

/-- The law of the mailbox in a state of the kernel. -/
structure MailboxLaw (k : State α) (q : QueueId) (n : Nat) : Prop where
  /-- What has been fetched is what was posted first, each message once. -/
  fifo : k.fetched q <+: (k.posted q).map some
  stored : (k.queue q).uxMessagesWaiting + (k.fetched q).length = (k.posted q).length
  bounded : (k.queue q).uxMessagesWaiting ≤ n
  /-- The next fetch returns the oldest message that has not been fetched. -/
  next : ∀ t f k', (k.task t).frame = some f → f.api.mboxFetches = some q → f.pc = .attempt →
    k.step (.run t) = some k' → 0 < (k.queue q).uxMessagesWaiting →
    ∃ msg, (k.posted q)[(k.fetched q).length]? = some msg ∧
      (k'.task t).frame = some { f with pc := .leave (.pass (some msg)) }
  /-- `sys_mbox_trypost` fails exactly when the mailbox is full, and then no queue
  changes. -/
  trypost : ∀ t f k' msg, (k.task t).frame = some f → f.api = .sysMboxTrypost q msg →
    f.pc = .attempt → k.step (.run t) = some k' →
    if (k.queue q).uxMessagesWaiting = n then
      (k'.task t).frame = some { f with pc := .leave .fail } ∧ k'.queue = k.queue
    else (k'.task t).frame = some { f with pc := .leave (.pass none) }
  trypostReturned : ∀ t f k' msg res, (k.task t).frame = some f → f.api = .sysMboxTrypost q msg →
    f.pc = .leave res → k.step (.run t) = some k' →
    (k'.task t).ret = some (.int (match res with | .pass _ => errOk | .fail => errMem))
  /-- `sys_arch_mbox_tryfetch` fails exactly when the mailbox is empty. -/
  tryfetch : ∀ t f k', (k.task t).frame = some f → f.api = .sysArchMboxTryfetch q →
    f.pc = .attempt → k.step (.run t) = some k' →
    ((k'.task t).frame = some { f with pc := .leave .fail } ↔ (k.queue q).uxMessagesWaiting = 0)
  tryfetchReturned : ∀ t f k' res, (k.task t).frame = some f → f.api = .sysArchMboxTryfetch q →
    f.pc = .leave res → k.step (.run t) = some k' →
    (k'.task t).ret = some
      (match res with | .pass msg => .fetched 0 msg | .fail => .u32 sysArchTimeout)
  /-- A fetch that times out changes no contents. -/
  timedOut : ∀ t api k', api.mboxFetches = some q → k.step (.run t) = some k' →
    k'.trace = k.trace ++ [⟨t, api, .fail⟩] → ∀ p, (k'.queue p).contents = (k.queue p).contents
  noLostFetcher : (k.queue q).xTasksWaitingToReceive ≠ [] →
    (k.queue q).uxMessagesWaiting ≤ (k.woken (.toReceive q)).length
  noLostPoster : (k.queue q).xTasksWaitingToSend ≠ [] →
    n - (k.queue q).uxMessagesWaiting ≤ (k.woken (.toSend q)).length
  /-- The woken tasks are distinct, and each is ready and has still to run its critical
  section. -/
  retry : ∀ list, list = .toReceive q ∨ list = .toSend q → (k.woken list).Nodup ∧
    ∀ t ∈ k.woken list, (k.task t).xStateList = .ready ∧
      ∃ f, (k.task t).frame = some f ∧ f.waitList = list ∧ f.pc = .attempt

/-- The part of the law that the operations keep: the ring holds the messages
that have been posted and not yet fetched. -/
structure MailboxInv (q : QueueId) (n : Nat) (C : Contents α) (trace : List (Event α)) :
    Prop where
  live : C.live
  length : C.uxLength = n
  size : C.uxItemSize = pointerSize
  notMutex : C.isMutex = false
  tail : C.pcTail = pointerSize * n
  ring : ∃ read items, C.pcReadFrom = pointerSize * read ∧
    C.pcWriteTo = pointerSize * ((read + 1 + items.length) % n) ∧
    C.uxMessagesWaiting = items.length ∧
    Lib.Holds n (fun i => C.storage (pointerSize * i)) read items ∧
    (trace.filterMap (Event.mboxPosted q)).map some =
      trace.filterMap (Event.mboxFetched q) ++ items.map some

namespace MailboxInv

variable {q : QueueId} {n : Nat}

/-- A position inside the storage area wraps as its slot does. -/
theorem wrap {i : Nat} (hi : i < n) :
    (if pointerSize * n ≤ pointerSize * i + pointerSize then 0
      else pointerSize * i + pointerSize) = pointerSize * ((i + 1) % n) := by
  rw [Lib.wrap_succ hi]
  unfold pointerSize
  split <;> split <;> omega

/-- An operation on another queue does not count. -/
theorem not_counted {e : Event α} (htarget : e.api.target ≠ some q) :
    e.mboxPosted q = none ∧ e.mboxFetched q = none := by
  constructor
  · unfold Event.mboxPosted
    split
    next mbox msg _ hposts =>
      refine if_neg fun hq => htarget ?_
      obtain ⟨m, hrequest⟩ := Api.request_of_mboxPosts hposts
      simp [Api.target, hrequest, hq]
    next => rfl
  · unfold Event.mboxFetched
    split
    next =>
      refine if_neg fun hfetches => htarget ?_
      obtain ⟨m, hrequest⟩ := Api.request_of_mboxFetches hfetches
      simp [Api.target, hrequest]
    next => rfl

/-- A post appends its message to the ring. -/
theorem sent {C : Contents α} {trace : List (Event α)} (hinv : MailboxInv q n C trace)
    (hspace : C.uxMessagesWaiting < C.uxLength) {e : Event α} {msg : α}
    (hposted : e.mboxPosted q = some msg) (hfetched : e.mboxFetched q = none) :
    MailboxInv q n (C.sent (some msg)) (trace ++ [e]) := by
  obtain ⟨read, items, hread, hwrite, hcount, hholds, hhistory⟩ := hinv.ring
  have hlt : items.length < n := by
    rw [← hcount, ← hinv.length]
    exact hspace
  have hpos : 0 < n := Nat.lt_of_le_of_lt (Nat.zero_le _) hlt
  have hsize : C.uxItemSize ≠ 0 := by simp [hinv.size, pointerSize]
  unfold Contents.sent
  rw [if_neg hsize]
  refine ⟨hinv.live, hinv.length, hinv.size, hinv.notMutex, hinv.tail, read, items ++ [msg],
    hread, ?_, ?_, ?_, ?_⟩
  · simp only [hwrite, hinv.tail, hinv.size, wrap (Nat.mod_lt _ hpos), List.length_append,
      List.length_singleton]
    rw [Nat.mod_add_mod, Nat.add_assoc (read + 1)]
  · simp [hcount]
  · have hstorage : (fun i => Function.update C.storage C.pcWriteTo (some msg) (pointerSize * i)) =
        Function.update (fun i => C.storage (pointerSize * i)) ((read + 1 + items.length) % n)
          (some msg) := by
      funext i
      rw [hwrite]
      simp [Function.update_apply, pointerSize]
    simp only [hstorage]
    exact hholds.push hlt
  · simp [List.filterMap_append, hposted, hfetched, hhistory]

/-- The next message to be read is the oldest one in the ring. -/
theorem front_eq {C : Contents α} {trace : List (Event α)} (hinv : MailboxInv q n C trace)
    {read : Nat} {msg : α} {items : List α} (hread : C.pcReadFrom = pointerSize * read)
    (hholds : Lib.Holds n (fun i => C.storage (pointerSize * i)) read (msg :: items)) :
    C.nextRead = pointerSize * ((read + 1) % n) ∧ C.front = some msg := by
  have hnext : C.nextRead = pointerSize * ((read + 1) % n) := by
    unfold Contents.nextRead
    rw [hinv.tail, hinv.size, hread, wrap hholds.read_lt]
  refine ⟨hnext, ?_⟩
  unfold Contents.front
  rw [if_neg (by simp [hinv.size, pointerSize]), hnext]
  exact hholds.pop.1

/-- A fetch takes the oldest message out of the ring. -/
theorem received {C : Contents α} {trace : List (Event α)} (hinv : MailboxInv q n C trace)
    (hpos : 0 < C.uxMessagesWaiting) {e : Event α} (hposted : e.mboxPosted q = none)
    (hfetched : e.mboxFetched q = some C.front) : MailboxInv q n C.received (trace ++ [e]) := by
  obtain ⟨read, items, hread, hwrite, hcount, hholds, hhistory⟩ := hinv.ring
  have hsize : C.uxItemSize ≠ 0 := by simp [hinv.size, pointerSize]
  cases items with
  | nil => simp [hcount] at hpos
  | cons msg items =>
      obtain ⟨hnext, hfront⟩ := hinv.front_eq hread hholds
      refine ⟨hinv.live, hinv.length, hinv.size, hinv.notMutex, hinv.tail, (read + 1) % n, items,
        ?_, ?_, ?_, hholds.pop.2, ?_⟩
      · simp [Contents.received, hsize, hnext]
      · have hindex : (read + 1 + (items.length + 1)) % n =
            ((read + 1) % n + 1 + items.length) % n := by
          rw [Nat.add_assoc ((read + 1) % n), Nat.mod_add_mod, Nat.add_comm items.length 1]
        simpa [Contents.received, hwrite] using congrArg (pointerSize * ·) hindex
      · simp [Contents.received, hcount]
      · simp [List.filterMap_append, hposted, hfetched, hfront, hhistory]

theorem keeps : Keeps q (Api.mailboxUse q) (MailboxInv (α := α) q n) := by
  intro v act v' hinv hdelete hallowed hstep
  have hlast {e : Event α} (htrace : v'.trace = v.trace ++ [e]) (htarget : e.api.target = some q) :
      e.api.mailboxUse q :=
    hallowed e (by simp [htrace]) htarget
  have hquiet {e : Event α} (hqueue : v'.queue q = v.queue q) (htrace : v'.trace = v.trace ++ [e])
      (hposted : e.mboxPosted q = none) (hfetched : e.mboxFetched q = none) :
      MailboxInv q n (v'.queue q) v'.trace := by
    obtain ⟨read, items, hread, hwrite, hcount, hholds, hhistory⟩ := hinv.ring
    rw [hqueue, htrace]
    refine ⟨hinv.live, hinv.length, hinv.size, hinv.notMutex, hinv.tail, read, items, hread, hwrite,
      hcount, hholds, ?_⟩
    simpa [List.filterMap_append, hposted, hfetched] using hhistory
  cases hstep with
  | quiet hqueue htrace =>
      rcases htrace with htrace | ⟨e, htrace, hother⟩
      · rw [hqueue, htrace]
        exact hinv
      · exact hquiet hqueue htrace (not_counted hother).1 (not_counted hother).2
  | deleted t hact => exact absurd hact (hdelete t)
  | failed t api htarget hqueue htrace =>
      exact hquiet hqueue htrace (by simp [Event.mboxPosted]) (by simp [Event.mboxFetched])
  | sent t api item m hrequest hspace hqueue htrace =>
      rcases hlast htrace (by simp [Api.target, hrequest]) with ⟨msg, hposts⟩ | hfetches
      · obtain ⟨m', hrequest'⟩ := Api.request_of_mboxPosts hposts
        obtain ⟨rfl, -⟩ : item = some msg ∧ m = m' := by simpa [hrequest] using hrequest'
        have hnot : api.mboxFetches ≠ some q := by
          intro hfetches
          obtain ⟨m', hrequest'⟩ := Api.request_of_mboxFetches hfetches
          simp [hrequest] at hrequest'
        rw [hqueue, htrace]
        exact hinv.sent hspace (by simp [Event.mboxPosted, hposts]) (if_neg hnot)
      · obtain ⟨m', hrequest'⟩ := Api.request_of_mboxFetches hfetches
        simp [hrequest] at hrequest'
  | received t api m hrequest hpos hqueue htrace =>
      rcases hlast htrace (by simp [Api.target, hrequest]) with ⟨msg, hposts⟩ | hfetches
      · obtain ⟨m', hrequest'⟩ := Api.request_of_mboxPosts hposts
        simp [hrequest] at hrequest'
      · have hnot : api.mboxPosts = none := by
          cases api <;> simp_all [Api.mboxFetches, Api.mboxPosts]
        rw [hqueue, htrace]
        exact hinv.received hpos (by simp [Event.mboxPosted, hnot]) (if_pos hfetches)
  | taken t api m hrequest hpos hqueue htrace =>
      rcases hlast htrace (by simp [Api.target, hrequest]) with ⟨msg, hposts⟩ | hfetches
      · obtain ⟨m', hrequest'⟩ := Api.request_of_mboxPosts hposts
        simp [hrequest] at hrequest'
      · obtain ⟨m', hrequest'⟩ := Api.request_of_mboxFetches hfetches
        simp [hrequest] at hrequest'

theorem init (hn : 1 ≤ n) :
    ∃ Q : Queue α, (NewQueue.mailbox n).build = some Q ∧
      ∀ trace : List (Event α), (∀ e ∈ trace, e.api.target ≠ some q) →
        MailboxInv q n Q.contents trace := by
  have hne : n ≠ 0 := Nat.ne_of_gt hn
  refine ⟨_, if_neg hne, fun trace hfresh => ?_⟩
  have hposted : trace.filterMap (Event.mboxPosted q) = [] :=
    List.filterMap_eq_nil_iff.mpr fun e he => (not_counted (hfresh e he)).1
  have hfetched : trace.filterMap (Event.mboxFetched q) = [] :=
    List.filterMap_eq_nil_iff.mpr fun e he => (not_counted (hfresh e he)).2
  refine ⟨rfl, rfl, rfl, rfl, Nat.mul_comm _ _, n - 1, [], Nat.mul_comm _ _, ?_, rfl,
    .nil (by omega), by simp [hposted, hfetched]⟩
  have hwrap : (n - 1 + 1 + 0) % n = 0 := by
    rw [Nat.add_zero, Nat.sub_add_cancel hn, Nat.mod_self]
  simp [Queue.contents, prvInitialiseNewQueue, hwrap]

end MailboxInv

namespace QueueRun

variable {k k' : State α} {q : QueueId} {n : Nat} {t : TaskId} {f : Frame α}

/-- A call of the mailbox that may not wait and finds nothing to do. -/
theorem mailbox_fail (hrun : QueueRun k q (Api.mailboxUse q) (MailboxInv q n))
    (hframe : (k.task t).frame = some f) {op : Op α} (hrequest : f.api.request = some (op, q, 0))
    (hpc : f.pc = .attempt) (hready : ¬ op.ready (k.view.queue q))
    (hstep : k.step (.run t) = some k') :
    (k'.task t).frame = some { f with pc := .leave .fail } ∧ k'.queue = k.queue := by
  obtain ⟨m, hrequest', hzero, -⟩ := hrun.calls.wellFormed t f hframe
  obtain ⟨rfl, rfl, rfl⟩ : op = f.op ∧ q = f.xQueue ∧ 0 = m := by
    simpa [hrequest] using hrequest'
  have hlive : ((k.switchTo t).queue f.xQueue).live = true := hrun.law.live
  have hk' := State.step_run hframe hstep
  rw [State.runFrame_fail hpc hlive hready (hzero rfl).1] at hk'
  rw [hk']
  refine ⟨?_, rfl⟩
  have hframe' := congrArg (fun v => View.frame v t)
    (State.view_complete ((k.switchTo t).retried t f.waitList) t f .fail)
  exact hframe'.trans (by simp [View.complete, View.setFrame])

/-- A call of the mailbox that finds something to do. -/
theorem mailbox_pass (hrun : QueueRun k q (Api.mailboxUse q) (MailboxInv q n))
    (hframe : (k.task t).frame = some f) {op : Op α} {m : Nat}
    (hrequest : f.api.request = some (op, q, m)) (hpc : f.pc = .attempt)
    (hready : op.ready (k.view.queue q)) (hstep : k.step (.run t) = some k') :
    (k'.task t).frame =
      some { f with pc := .leave (.pass (op.answer (k.view.queue q))) } := by
  obtain ⟨m', hrequest', -⟩ := hrun.calls.wellFormed t f hframe
  obtain ⟨rfl, rfl, -⟩ : op = f.op ∧ q = f.xQueue ∧ m = m' := by
    simpa [hrequest] using hrequest'
  have hran : Ran (k.switchTo t).view t f ((k.switchTo t).runFrame t f).view :=
    State.ran_runFrame rfl
  rw [← State.step_run hframe hstep] at hran
  exact hran.attempt_pass hpc hrun.law.live hrun.law.notMutex hready

end QueueRun

/-- In every run in which a mailbox of `sys_mbox_new` is posted to and fetched
from, it behaves as a bounded FIFO and no wake-up is lost on either side. -/
theorem mailbox_refines_fifo {k₀ k₁ k : State α} {creator : TaskId} {n : Nat}
    (hbooted : Booted k₀) (hn : 1 ≤ n)
    (hcreate : k₀.step (.create creator (.mailbox n)) = some k₁)
    (hreach : Lib.Reach State.step
      (Act.uses k₀.nextQueue (Api.mailboxUse k₀.nextQueue)) k₁ k) :
    MailboxLaw k k₀.nextQueue n := by
  obtain ⟨Q, hbuild, hinit⟩ := MailboxInv.init (α := α) (q := k₀.nextQueue) hn
  have hrun := QueueRun.reach hbooted hcreate hbuild hinit MailboxInv.keeps hreach
  have hready := (QueueRun.booted hbooted hcreate hreach).wokenReady
  have hlaw := hrun.law
  have hlength : (k.queue k₀.nextQueue).uxLength = n := hlaw.length
  have hle : (k.queue k₀.nextQueue).uxMessagesWaiting ≤ n :=
    hlength ▸ hrun.kernel.wait.balanced.count_le k₀.nextQueue
  obtain ⟨read, items, hread, hwrite, hcount, hholds, hhistory⟩ := hlaw.ring
  have hcount' : (k.queue k₀.nextQueue).uxMessagesWaiting = items.length := hcount
  have hhistory' : (k.posted k₀.nextQueue).map some =
      k.fetched k₀.nextQueue ++ items.map some := hhistory
  have hsend (msg : α) : (Op.genericSend (some msg)).ready (k.view.queue k₀.nextQueue) ↔
      (k.queue k₀.nextQueue).uxMessagesWaiting < n := by
    rw [← hlength]
    rfl
  refine ⟨⟨_, hhistory'.symm⟩, ?_, hle, ?_, ?_, ?_, ?_, ?_, ?_, ?_, ?_, ?_⟩
  · have hlengths := congrArg List.length hhistory'
    simp only [List.length_map, List.length_append] at hlengths
    omega
  · intro t f k' hframe hfetches hpc hstep hpos
    obtain ⟨m, hrequest⟩ := Api.request_of_mboxFetches hfetches
    have hpass := hrun.mailbox_pass hframe hrequest hpc hpos hstep
    cases items with
    | nil => simp [hcount'] at hpos
    | cons msg items =>
        have hfront : (Op.receive : Op α).answer (k.view.queue k₀.nextQueue) = some msg :=
          (hlaw.front_eq hread hholds).2
        rw [hfront] at hpass
        refine ⟨msg, ?_, hpass⟩
        have hat := congrArg (·[(k.fetched k₀.nextQueue).length]?) hhistory'
        simpa using hat
  · intro t f k' msg hframe hapi hpc hstep
    split
    next hfull =>
      have hrequest : f.api.request = some (.genericSend (some msg), k₀.nextQueue, 0) := by
        rw [hapi]; rfl
      refine hrun.mailbox_fail hframe hrequest hpc ?_ hstep
      rw [hsend, hfull]
      exact Nat.lt_irrefl n
    next hfull =>
      have hrequest : f.api.request = some (.genericSend (some msg), k₀.nextQueue, 0) := by
        rw [hapi]; rfl
      refine hrun.mailbox_pass hframe hrequest hpc ?_ hstep
      rw [hsend]
      omega
  · intro t f k' msg res hframe hapi hpc hstep
    obtain ⟨elapsed, hret⟩ := State.step_leave hframe hpc hstep
    rw [hret, hapi]
    cases res <;> rfl
  · intro t f k' hframe hapi hpc hstep
    have hrequest : f.api.request = some (.receive, k₀.nextQueue, 0) := by
      rw [hapi]
      rfl
    constructor
    · intro hfail
      by_contra hne
      have hpass := hrun.mailbox_pass hframe hrequest hpc (Nat.pos_of_ne_zero hne) hstep
      simp [hfail] at hpass
    · intro hzero
      refine (hrun.mailbox_fail hframe hrequest hpc ?_ hstep).1
      have hzero' : (k.view.queue k₀.nextQueue).uxMessagesWaiting = 0 := hzero
      simp [Op.ready, hzero']
  · intro t f k' res hframe hapi hpc hstep
    obtain ⟨elapsed, hret⟩ := State.step_leave hframe hpc hstep
    rw [hret, hapi]
    cases res <;> rfl
  · intro t api k' hfetches hstep htrace p
    obtain ⟨f, hframe, hran⟩ := State.step_run_ran hstep
    exact hran.fail_queue (hrun.calls.wellFormed t f hframe) htrace p
  · exact hrun.kernel.wait.balanced.receive k₀.nextQueue
  · intro hne
    have hsend := hrun.kernel.wait.balanced.send k₀.nextQueue hne
    rwa [hlaw.length] at hsend
  · intro list _
    exact ⟨hrun.kernel.wait.lists.nodupWoken list, fun t ht =>
      ⟨hready list t ht, (hrun.kernel.wait.lists.awoken t list ht).2⟩⟩

/-- A second task blocks on an empty mailbox of one slot. The main task posts a message for it and
blocks on the full mailbox with the next one, until the second task takes the first message. -/
def mailboxSchedule : List (Act Nat) :=
  [.spawn 1 2, .call 2 (.sysArchMboxFetch 0 0)] ++ List.replicate 10 (.run 2) ++
  [.call 1 (.sysMboxPost 0 7), .run 1, .run 1, .run 1, .call 1 (.sysMboxPost 0 8)] ++
  List.replicate 10 (.run 1) ++ [.run 2, .run 2]

/-- The guard of `mailboxSchedule`. -/
def mailboxCheck (k : State Nat) : Act Nat → Bool
  | .call _ (.sysMboxPost 0 _) | .call _ (.sysArchMboxFetch 0 _) =>
      k.uxSchedulerSuspended = 0 && 0 < k.nextQueue
  | .run _ | .spawn _ _ => true
  | _ => false

theorem mailboxCheck_uses (k : State Nat) (act : Act Nat) (hcheck : mailboxCheck k act) :
    act.uses 0 (Api.mailboxUse 0) k := by
  unfold mailboxCheck at hcheck
  split at hcheck
  next t msg =>
    simp only [Bool.and_eq_true, decide_eq_true_eq] at hcheck
    refine ⟨⟨hcheck.1, fun q hq => ?_⟩, by simp, ?_⟩
    · obtain rfl : 0 = q := by simpa [Api.target, Api.request] using hq
      exact hcheck.2
    · rintro u api ⟨⟩ -
      exact .inl ⟨msg, rfl⟩
  next =>
    simp only [Bool.and_eq_true, decide_eq_true_eq] at hcheck
    refine ⟨⟨hcheck.1, fun q hq => ?_⟩, by simp, ?_⟩
    · obtain rfl : 0 = q := by simpa [Api.target, Api.request] using hq
      exact hcheck.2
    · rintro u api ⟨⟩ -
      exact .inr rfl
  next => exact ⟨trivial, by simp, by simp⟩
  next => exact ⟨trivial, by simp, by simp⟩
  next => simp at hcheck

theorem mailbox_refines_fifo_schedule :
    ∃ k₁ k : State Nat, (State.boot 1).step (.create 1 (.mailbox 1)) = some k₁ ∧
      Lib.execute State.step mailboxCheck k₁ mailboxSchedule = some k ∧
      (k.posted 0, k.fetched 0, k.woken (.toSend 0)) = ([7], [some 7], [1]) ∧
      MailboxLaw k 0 1 := by
  have hrun : ((((State.boot 1).step (.create 1 (.mailbox 1))).bind fun k₁ =>
      Lib.execute State.step mailboxCheck k₁ mailboxSchedule).map
        fun k => (k.posted 0, k.fetched 0, k.woken (.toSend 0))) =
          some ([7], [some 7], [1]) := by
    decide +kernel
  obtain ⟨k, hk, hposted⟩ := Option.map_eq_some_iff.mp hrun
  obtain ⟨k₁, hcreate, hk⟩ := Option.bind_eq_some_iff.mp hk
  exact ⟨k₁, k, hcreate, hk, hposted, mailbox_refines_fifo ⟨1, .refl⟩ (by decide) hcreate
    (Lib.execute_reach mailboxCheck_uses mailboxSchedule hk)⟩

end SimulatedLinux.Kernel
