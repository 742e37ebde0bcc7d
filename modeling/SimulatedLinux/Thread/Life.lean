import Mathlib.Data.Option.Basic

/-! # The life cycle of one thread

What a thread is, apart from memory and scheduling: its own task, the one call its
handle is passed to, the semaphore between the two, and the three things that have
to be reclaimed. The parties move independently, in any order. `Life.Ok` says which
combinations can be met; it is kept by every move, and the model of the code is
shown to make no other moves.
-/

namespace SimulatedLinux.Thread

/-- Where the thread's own task is. -/
inductive Body
  /-- Not yet in `pthread_exit`. -/
  | running
  | finding
  | storing
  | testing
  /-- It found the thread joinable, and has not given the semaphore. -/
  | giving
  | gave
  /-- It found the thread detached. -/
  | unlinking
  | deleting
  | freeing
  | freed
  deriving DecidableEq, Repr

/-- Where the call is that the handle was passed to. -/
inductive Handle
  | unused
  /-- `pthread_join` before its take of the semaphore succeeds. -/
  | waiting
  /-- `pthread_join` after that. -/
  | reading
  | unlinking
  | deleting
  | freeing
  | joined
  /-- `pthread_detach` before and after its write. -/
  | detaching
  | detached
  deriving DecidableEq, Repr

/-- `pthread_exit` has stored its value. -/
def Body.stored : Body → Bool
  | running | finding | storing => false
  | _ => true

/-- The thread reclaims itself. -/
def Body.reclaims : Body → Bool
  | unlinking | deleting | freeing | freed => true
  | _ => false

/-- The take of `pthread_join` has succeeded. -/
def Handle.taken : Handle → Bool
  | reading | unlinking | deleting | freeing | joined => true
  | _ => false

/-- `pthread_join` has read the value. -/
def Handle.read : Handle → Bool
  | unlinking | deleting | freeing | joined => true
  | _ => false

/-- The thread's own task has not unlinked the node. -/
def Body.keepsNode : Body → Bool
  | deleting | freeing | freed => false
  | _ => true

/-- It has not deleted the semaphore. -/
def Body.keepsSem : Body → Bool
  | freeing | freed => false
  | _ => true

/-- It has not freed the descriptor. -/
def Body.keepsDesc : Body → Bool
  | freed => false
  | _ => true

/-- The joiner has not unlinked the node. -/
def Handle.keepsNode : Handle → Bool
  | deleting | freeing | joined => false
  | _ => true

/-- It has not deleted the semaphore. -/
def Handle.keepsSem : Handle → Bool
  | freeing | joined => false
  | _ => true

/-- It has not freed the descriptor. -/
def Handle.keepsDesc : Handle → Bool
  | joined => false
  | _ => true

theorem Handle.keeps_of_not_taken {h : Handle} (htaken : h.taken = false) :
    h.keepsNode = true ∧ h.keepsSem = true ∧ h.keepsDesc = true ∧ h.read = false := by
  cases h <;> simp_all [taken, keepsNode, keepsSem, keepsDesc, read]

/-- One thread. `passed` is the value given to `pthread_exit`, and `out` the value
read by `pthread_join`. -/
@[ext]
structure Life where
  body : Body
  handle : Handle
  listed : Bool
  semLive : Bool
  descLive : Bool
  detached : Bool
  count : Nat
  retval : Nat
  passed : Option Nat
  out : Option Nat
  semFrees : Nat
  descFrees : Nat

namespace Life

/-- The count of the semaphore: one between the give and the take. -/
def permits (body : Body) (handle : Handle) : Nat :=
  if body = .gave ∧ handle.taken = false then 1 else 0

/-- The combinations that can be met. -/
structure Ok (l : Life) : Prop where
  listed : l.listed = (l.body.keepsNode && l.handle.keepsNode)
  sem : l.semLive = (l.body.keepsSem && l.handle.keepsSem)
  desc : l.descLive = (l.body.keepsDesc && l.handle.keepsDesc)
  count : l.semLive → l.count = permits l.body l.handle
  detached : l.detached = true ↔ l.handle = .detached
  taken : l.handle.taken → l.body = .gave
  reclaims : l.body.reclaims → l.handle = .detached
  stored : l.body.stored → l.passed = some l.retval
  passing : l.body ≠ .running → l.passed.isSome
  out : l.handle.read → ∀ value, l.out = some value → value = l.retval
  semFrees : l.semFrees = if l.semLive then 0 else 1
  descFrees : l.descFrees = if l.descLive then 0 else 1

/-- The moves of the parties. -/
inductive Move : Life → Life → Prop
  | enters (l : Life) (value : Nat) (h : l.body = .running) :
      Move l { l with body := .finding, passed := some value }
  | finds (l : Life) (h : l.body = .finding) : Move l { l with body := .storing }
  | stores (l : Life) (value : Nat) (h : l.body = .storing) (hvalue : l.passed = some value) :
      Move l { l with body := .testing, retval := value }
  | testsJoinable (l : Life) (h : l.body = .testing) (hdetached : l.detached = false) :
      Move l { l with body := .giving }
  | testsDetached (l : Life) (h : l.body = .testing) (hdetached : l.detached = true) :
      Move l { l with body := .unlinking }
  | gives (l : Life) (h : l.body = .giving) : Move l { l with body := .gave, count := l.count + 1 }
  | unlinks (l : Life) (h : l.body = .unlinking) :
    Move l { l with body := .deleting, listed := false }
  | deletes (l : Life) (h : l.body = .deleting) :
      Move l { l with body := .freeing, semLive := false, semFrees := l.semFrees + 1 }
  | frees (l : Life) (h : l.body = .freeing) :
      Move l { l with body := .freed, descLive := false, descFrees := l.descFrees + 1 }
  | joins (l : Life) (h : l.handle = .unused) : Move l { l with handle := .waiting }
  | takes (l : Life) (h : l.handle = .waiting) (hlive : l.semLive) (hcount : 0 < l.count) :
      Move l { l with handle := .reading, count := l.count - 1 }
  | reads (l : Life) (out : Option Nat) (h : l.handle = .reading)
      (hout : ∀ value, out = some value → value = l.retval) :
      Move l { l with handle := .unlinking, out := out }
  | joinUnlinks (l : Life) (h : l.handle = .unlinking) :
      Move l { l with handle := .deleting, listed := false }
  | joinDeletes (l : Life) (h : l.handle = .deleting) :
      Move l { l with handle := .freeing, semLive := false, semFrees := l.semFrees + 1 }
  | joinFrees (l : Life) (h : l.handle = .freeing) :
      Move l { l with handle := .joined, descLive := false, descFrees := l.descFrees + 1 }
  | detaches (l : Life) (h : l.handle = .unused) : Move l { l with handle := .detaching }
  | writes (l : Life) (h : l.handle = .detaching) :
      Move l { l with handle := .detached, detached := true }

namespace Ok

variable {l l' : Life}

/-- Before the take succeeds, only the thread's own task decides what is kept. -/
theorem ofUntaken (htaken : l.handle.taken = false) (hlisted : l.listed = l.body.keepsNode)
    (hsem : l.semLive = l.body.keepsSem) (hdesc : l.descLive = l.body.keepsDesc)
    (hcount : l.semLive → l.count = if l.body = .gave then 1 else 0)
    (hdetached : l.detached = true ↔ l.handle = .detached)
    (hreclaims : l.body.reclaims → l.handle = .detached)
    (hstored : l.body.stored → l.passed = some l.retval)
    (hpassing : l.body ≠ .running → l.passed.isSome)
    (hsemFrees : l.semFrees = if l.semLive then 0 else 1)
    (hdescFrees : l.descFrees = if l.descLive then 0 else 1) : l.Ok := by
  obtain ⟨hnode, hsemKept, hdescKept, hread⟩ := Handle.keeps_of_not_taken htaken
  refine ⟨by rw [hlisted, hnode, Bool.and_true], by rw [hsem, hsemKept, Bool.and_true],
    by
      rw [hdesc, hdescKept, Bool.and_true], fun hlive => ?_, hdetached, by simp [htaken], hreclaims,
    hstored, hpassing, by simp [hread], hsemFrees, hdescFrees⟩
  rw [hcount hlive]
  simp [permits, htaken]

/-- After the give, only the joiner decides what is kept. -/
theorem ofGave (hbody : l.body = .gave) (hlisted : l.listed = l.handle.keepsNode)
    (hsem : l.semLive = l.handle.keepsSem) (hdesc : l.descLive = l.handle.keepsDesc)
    (hcount : l.semLive → l.count = if l.handle.taken then 0 else 1)
    (hdetached : l.detached = true ↔ l.handle = .detached)
    (hpassed : l.passed = some l.retval)
    (hout : l.handle.read → ∀ value, l.out = some value → value = l.retval)
    (hsemFrees : l.semFrees = if l.semLive then 0 else 1)
    (hdescFrees : l.descFrees = if l.descLive then 0 else 1) : l.Ok := by
  refine ⟨by simp [hlisted, hbody, Body.keepsNode], by simp [hsem, hbody, Body.keepsSem],
    by simp [hdesc, hbody, Body.keepsDesc], fun hlive => ?_, hdetached, fun _ => hbody,
    by
      simp [hbody, Body.reclaims], fun _ => hpassed, by simp [hpassed], hout, hsemFrees, hdescFrees⟩
  rw [hcount hlive]
  cases htaken : l.handle.taken <;> simp [permits, hbody, htaken]

/-- Unless the thread has given the semaphore, the take has not succeeded. -/
theorem not_taken (hok : l.Ok) (hbody : l.body ≠ .gave) : l.handle.taken = false := by
  cases htaken : l.handle.taken with
  | false => rfl
  | true => exact absurd (hok.taken htaken) hbody

/-- What `ofUntaken` needs, read off the invariant. -/
theorem untaken (hok : l.Ok) (htaken : l.handle.taken = false) :
    l.listed = l.body.keepsNode ∧ l.semLive = l.body.keepsSem ∧ l.descLive = l.body.keepsDesc ∧
      (l.semLive → l.count = if l.body = .gave then 1 else 0) := by
  obtain ⟨hnode, hsemKept, hdescKept, -⟩ := Handle.keeps_of_not_taken htaken
  refine ⟨by rw [hok.listed, hnode, Bool.and_true], by rw [hok.sem, hsemKept, Bool.and_true],
    by rw [hok.desc, hdescKept, Bool.and_true], fun hlive => ?_⟩
  rw [hok.count hlive]
  simp [permits, htaken]

/-- What `ofGave` needs, read off the invariant. -/
theorem gave (hok : l.Ok) (hbody : l.body = .gave) :
    l.listed = l.handle.keepsNode ∧ l.semLive = l.handle.keepsSem ∧
      l.descLive = l.handle.keepsDesc ∧ l.passed = some l.retval := by
  refine ⟨by simp [hok.listed, hbody, Body.keepsNode], by simp [hok.sem, hbody, Body.keepsSem],
    by simp [hok.desc, hbody, Body.keepsDesc], hok.stored (by simp [hbody, Body.stored])⟩

/-- A node of the registry has not been freed. -/
theorem live_of_listed (hok : l.Ok) (hlisted : l.listed) : l.descLive := by
  rw [hok.listed] at hlisted
  rw [hok.desc]
  cases hbody : l.body <;> cases hhandle : l.handle <;>
    simp_all [Body.keepsNode, Handle.keepsNode, Body.keepsDesc, Handle.keepsDesc]

/-- Until the thread is found detached, only the joiner decides what is kept. -/
theorem kept_of_handle (hok : l.Ok) (hhandle : l.handle ≠ .detached) :
    l.listed = l.handle.keepsNode ∧ l.semLive = l.handle.keepsSem ∧
      l.descLive = l.handle.keepsDesc := by
  have hreclaims : ¬ l.body.reclaims := fun h => hhandle (hok.reclaims h)
  rw [hok.listed, hok.sem, hok.desc]
  cases hbody : l.body <;> simp_all [Body.reclaims, Body.keepsNode, Body.keepsSem, Body.keepsDesc]

/-- Before the thread's own task has given the semaphore. -/
theorem before (hok : l.Ok) {b : Body} (hbody : l.body = b) (hb : b ≠ .gave) :
    l.handle.taken = false ∧ l.listed = b.keepsNode ∧ l.semLive = b.keepsSem ∧
      l.descLive = b.keepsDesc ∧ (l.semLive → l.count = 0) := by
  subst hbody
  have htaken := hok.not_taken hb
  obtain ⟨hlisted, hsem, hdesc, hcount⟩ := hok.untaken htaken
  exact ⟨htaken, hlisted, hsem, hdesc, fun hlive => by rw [hcount hlive, if_neg hb]⟩

/-- After the joiner has taken it. -/
theorem after (hok : l.Ok) {h : Handle} (hhandle : l.handle = h) (htaken : h.taken) :
    l.body = .gave ∧ l.listed = h.keepsNode ∧ l.semLive = h.keepsSem ∧ l.descLive = h.keepsDesc ∧
      (l.semLive → l.count = 0) ∧ (l.detached = true ↔ h = .detached) ∧
      l.passed = some l.retval := by
  subst hhandle
  have hbody := hok.taken htaken
  obtain ⟨hlisted, hsem, hdesc, hpassed⟩ := hok.gave hbody
  exact ⟨hbody, hlisted, hsem, hdesc, fun hlive => by simp [hok.count hlive, permits, htaken],
    hok.detached, hpassed⟩

/-- Every move leads to a combination that can be met. -/
theorem move (hok : l.Ok) (hmove : Move l l') : l'.Ok := by
  -- up to `frees` the thread itself moves, and the handle is untouched; from `joins` on it is the
  -- joiner or the detacher
  cases hmove with
  | enters value h =>
      obtain ⟨htaken, hlisted, hsem, hdesc, hcount⟩ := hok.before h (by simp)
      exact ofUntaken htaken hlisted hsem hdesc hcount hok.detached (by simp [Body.reclaims])
        (by simp [Body.stored]) (by simp) hok.semFrees hok.descFrees
  | finds h =>
      obtain ⟨htaken, hlisted, hsem, hdesc, hcount⟩ := hok.before h (by simp)
      exact ofUntaken htaken hlisted hsem hdesc hcount hok.detached (by simp [Body.reclaims])
        (by simp [Body.stored]) (fun _ => hok.passing (by simp [h])) hok.semFrees hok.descFrees
  | stores value h hvalue =>
      obtain ⟨htaken, hlisted, hsem, hdesc, hcount⟩ := hok.before h (by simp)
      exact ofUntaken htaken hlisted hsem hdesc hcount hok.detached (by simp [Body.reclaims])
        (fun _ => hvalue) (by simp [hvalue]) hok.semFrees hok.descFrees
  | testsJoinable h _ =>
      obtain ⟨htaken, hlisted, hsem, hdesc, hcount⟩ := hok.before h (by simp)
      have hpassed := hok.stored (by simp [h, Body.stored])
      exact ofUntaken htaken hlisted hsem hdesc hcount hok.detached (by simp [Body.reclaims])
        (fun _ => hpassed) (by simp [hpassed]) hok.semFrees hok.descFrees
  | testsDetached h hdetached =>
      obtain ⟨htaken, hlisted, hsem, hdesc, hcount⟩ := hok.before h (by simp)
      have hpassed := hok.stored (by simp [h, Body.stored])
      exact ofUntaken htaken hlisted hsem hdesc hcount hok.detached
        (fun _ => hok.detached.mp hdetached) (fun _ => hpassed) (by simp [hpassed]) hok.semFrees
        hok.descFrees
  | gives h =>
      obtain ⟨htaken, hlisted, hsem, hdesc, hcount⟩ := hok.before h (by simp)
      have hpassed := hok.stored (by simp [h, Body.stored])
      exact ofUntaken htaken hlisted hsem hdesc (fun hlive => by simp [hcount hlive]) hok.detached
        (by simp [Body.reclaims]) (fun _ => hpassed) (by simp [hpassed]) hok.semFrees hok.descFrees
  | unlinks h =>
      obtain ⟨htaken, -, hsem, hdesc, hcount⟩ := hok.before h (by simp)
      have hpassed := hok.stored (by simp [h, Body.stored])
      have hdetached := hok.reclaims (by simp [h, Body.reclaims])
      exact ofUntaken htaken rfl hsem hdesc hcount hok.detached (fun _ => hdetached)
        (fun _ => hpassed) (by simp [hpassed]) hok.semFrees hok.descFrees
  | deletes h =>
      obtain ⟨htaken, hlisted, hsem, hdesc, -⟩ := hok.before h (by simp)
      have hpassed := hok.stored (by simp [h, Body.stored])
      have hdetached := hok.reclaims (by simp [h, Body.reclaims])
      have hfrees := hok.semFrees
      rw [hsem] at hfrees
      exact ofUntaken htaken hlisted rfl hdesc (by simp) hok.detached (fun _ => hdetached)
        (fun _ => hpassed) (by simp [hpassed]) (by simpa [Body.keepsSem] using hfrees) hok.descFrees
  | frees h =>
      obtain ⟨htaken, hlisted, hsem, hdesc, hcount⟩ := hok.before h (by simp)
      have hpassed := hok.stored (by simp [h, Body.stored])
      have hdetached := hok.reclaims (by simp [h, Body.reclaims])
      have hfrees := hok.descFrees
      rw [hdesc] at hfrees
      exact ofUntaken htaken hlisted hsem rfl hcount hok.detached
        (fun _ => hdetached) (fun _ => hpassed) (by simp [hpassed]) hok.semFrees
        (by simpa [Body.keepsDesc] using hfrees)
  | joins h =>
      obtain ⟨hlisted, hsem, hdesc, hcount⟩ := hok.untaken (by simp [h, Handle.taken])
      have hdetached := hok.detached
      rw [h] at hdetached
      refine ofUntaken rfl hlisted hsem hdesc hcount (by simpa using hdetached) (fun hbody => ?_)
        hok.stored hok.passing hok.semFrees hok.descFrees
      -- a thread that frees itself has seen the flag, so its handle is not unused
      simp [hok.reclaims hbody] at h
  | takes h hlive hpos =>
      -- the count is positive only once the semaphore has been given
      have hcount := (hok.untaken (by simp [h, Handle.taken])).2.2.2
      have hbody : l.body = .gave := by
        by_contra hne
        simp [hcount hlive, hne] at hpos
      obtain ⟨hlisted, hsem, hdesc, hpassed⟩ := hok.gave hbody
      have hdetached := hok.detached
      rw [h] at hlisted hsem hdesc hdetached
      refine ofGave hbody hlisted hsem hdesc (fun _ => ?_) (by simpa using hdetached) hpassed
        (by simp [Handle.read]) hok.semFrees hok.descFrees
      simp [hcount hlive, hbody, Handle.taken]
  | reads out h hout =>
      obtain ⟨hbody, hlisted, hsem, hdesc, hcount, hdetached, hpassed⟩ := hok.after h rfl
      exact ofGave hbody hlisted hsem hdesc hcount (by simpa using hdetached) hpassed
        (fun _ => hout) hok.semFrees hok.descFrees
  | joinUnlinks h =>
      obtain ⟨hbody, -, hsem, hdesc, hcount, hdetached, hpassed⟩ := hok.after h rfl
      have hout := hok.out (by simp [h, Handle.read])
      exact ofGave hbody rfl hsem hdesc hcount (by simpa using hdetached) hpassed (fun _ => hout)
        hok.semFrees hok.descFrees
  | joinDeletes h =>
      obtain ⟨hbody, hlisted, hsem, hdesc, -, hdetached, hpassed⟩ := hok.after h rfl
      have hout := hok.out (by simp [h, Handle.read])
      have hfrees := hok.semFrees
      rw [hsem] at hfrees
      exact ofGave hbody hlisted rfl hdesc (by simp) (by simpa using hdetached) hpassed
        (fun _ => hout) (by simpa [Handle.keepsSem] using hfrees) hok.descFrees
  | joinFrees h =>
      obtain ⟨hbody, hlisted, hsem, hdesc, hcount, hdetached, hpassed⟩ := hok.after h rfl
      have hout := hok.out (by simp [h, Handle.read])
      have hfrees := hok.descFrees
      rw [hdesc] at hfrees
      exact ofGave hbody hlisted hsem rfl hcount (by simpa using hdetached) hpassed (fun _ => hout)
        hok.semFrees (by simpa [Handle.keepsDesc] using hfrees)
  | detaches h =>
      obtain ⟨hlisted, hsem, hdesc, hcount⟩ := hok.untaken (by simp [h, Handle.taken])
      have hdetached := hok.detached
      rw [h] at hdetached
      refine ofUntaken rfl hlisted hsem hdesc hcount (by simpa using hdetached) (fun hbody => ?_)
        hok.stored hok.passing hok.semFrees hok.descFrees
      simp [hok.reclaims hbody] at h
  | writes h =>
      obtain ⟨hlisted, hsem, hdesc, hcount⟩ := hok.untaken (by simp [h, Handle.taken])
      exact ofUntaken rfl hlisted hsem hdesc hcount (by simp) (fun _ => rfl) hok.stored hok.passing
        hok.semFrees hok.descFrees

end Ok

end Life

end SimulatedLinux.Thread
