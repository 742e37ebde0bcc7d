import SimulatedLinux.Kernel.Clock
import SimulatedLinux.Kernel.Cpu
import SimulatedLinux.Kernel.Mutex

/-! # Timed waits

`sys_arch_sem_wait` and `sys_arch_mbox_fetch` return the time they took, or
`SYS_ARCH_TIMEOUT`. A call that is woken in vain goes on with the time that
`xTaskCheckForTimeOut` leaves it. What a call keeps is its deadline: the time at
which its `TimeOut_t` was last set and the ticks it had left then add up to no
less than the time of the call and the ticks it was made for.
-/

namespace SimulatedLinux.Kernel

variable {α : Type}

/-! ## The locals of a blocking function -/

/-- What one step inside a blocking function does to its locals. -/
inductive Locals (k : State α) (f : Frame α) : Frame α → Prop
  | halted : Locals k f f
  | goto (pc : Pc α) (hexpired : pc.expired → f.pc.expired)
      (hfail : pc = .leave .fail → f.pc.expired ∨ f.xTicksToWait = 0) :
    Locals k f { f with pc := pc }
  | waits (hticks : f.xTicksToWait ≠ 0) :
      Locals k f { f with
        xTimeOut := some (f.xTimeOut.getD k.vTaskInternalSetTimeOutState), pc := .suspendAll }
  | checked (expired : Bool) (timeOut : TimeOut) (xTicksToWait : Nat)
      (hcheck : k.xTaskCheckForTimeOut (f.xTimeOut.getD k.vTaskInternalSetTimeOutState)
        f.xTicksToWait =
        (expired, timeOut, xTicksToWait)) :
      Locals k f { f with
        xTimeOut := some timeOut
        xTicksToWait := xTicksToWait
        pc := if expired then .unlockTx .timedOut else .checkBlock }

namespace State

variable {k : State α} {t : TaskId} {f : Frame α}

/-- The call goes on with new locals. -/
def Continues (k : State α) (t : TaskId) (f : Frame α) (k' : State α) : Prop :=
  ∃ f', k'.view.frame t = some f' ∧ Locals k f f'

theorem continues_setPc (k' : State α) {pc : Pc α} (hexpired : pc.expired → f.pc.expired)
    (hfail : pc ≠ .leave .fail) : k.Continues t f (k'.setPc t f pc) :=
  ⟨{ f with pc := pc }, by simp [View.setFrame], .goto pc hexpired fun heq => absurd heq hfail⟩

theorem continues_complete (k' : State α) {res : QueueResult α}
    (hfail : res = .fail → f.pc.expired ∨ f.xTicksToWait = 0) :
    k.Continues t f (k'.complete t f res) := by
  refine ⟨{ f with pc := .leave res }, by
      simp [View.complete, View.setFrame], .goto _ (by simp [Pc.expired]) ?_⟩
  intro heq
  exact hfail (Pc.leave.inj heq)

theorem continues_failOrWait : k.Continues t f (k.failOrWait t f) := by
  unfold failOrWait
  dsimp only
  split
  next hticks => exact continues_complete _ fun _ => .inr hticks
  next hticks =>
    refine ⟨_, ?_, .waits hticks⟩
    rw [view_setFrame]
    exact Function.update_self ..

theorem continues_attempt (hframe : k.view.frame t = some f) : k.Continues t f (k.attempt t f) := by
  unfold attempt
  split
  · unfold xQueueGenericSend
    dsimp only
    split
    · split
      · exact ⟨f, hframe, .halted⟩
      · exact continues_complete _ (by simp)
    · exact continues_failOrWait
  · unfold xQueueReceive
    dsimp only
    split
    · exact continues_complete _ (by simp)
    · exact continues_failOrWait
  · unfold xQueueSemaphoreTake
    dsimp only
    split
    · exact continues_complete _ (by simp)
    · exact continues_failOrWait

/-- A step inside a blocking function goes on, or is the return of its caller. -/
theorem continues_runFrame (hframe : k.view.frame t = some f) :
    k.Continues t f (k.runFrame t f) ∨ ∃ res, f.pc = .leave res ∧
      k.runFrame t f = k.leave t f res := by
  unfold runFrame
  dsimp only
  split
  · exact .inl ⟨f, hframe, .halted⟩
  · split
    next =>
      refine .inl ?_
      split
      · exact continues_setPc _ (by simp [Pc.expired]) (by simp)
      · exact ⟨f, hframe, .halted⟩
    next => exact .inl (continues_attempt hframe)
    next => exact .inl (continues_setPc _ (by simp [Pc.expired]) (by simp))
    next => exact .inl (continues_setPc _ (by simp [Pc.expired]) (by simp))
    next =>
      refine .inl ⟨_, ?_, .checked _ _ _ (Eq.refl (k.xTaskCheckForTimeOut _ _))⟩
      rw [view_setFrame]
      exact Function.update_self ..
    next =>
      refine .inl ?_
      split
      · split
        · exact continues_setPc _ (by split <;> simp [Pc.expired]) (by split <;> simp)
        · exact continues_setPc _ (by simp [Pc.expired]) (by simp)
      · exact continues_setPc _ (by simp [Pc.expired]) (by simp)
    next => exact .inl (continues_setPc _ (by simp [Pc.expired]) (by simp))
    next => exact .inl (continues_setPc _ (by simp [Pc.expired]) (by simp))
    next after hpc =>
      refine .inl (continues_setPc _ ?_ (by simp))
      rw [hpc]
      cases after <;> exact id
    next after hpc =>
      refine .inl (continues_setPc _ ?_ (by simp))
      rw [hpc]
      cases after <;> exact id
    next after hpc =>
      refine .inl ?_
      unfold afterResume
      split
      · exact continues_complete _ fun _ => .inl (by rw [hpc]; rfl)
      · exact continues_setPc _ (fun _ => by rw [hpc]; rfl) (by simp)
      · exact continues_setPc _ (by simp [Pc.expired]) (by simp)
    next hpc =>
      refine .inl ?_
      split
      · exact continues_complete _ fun _ => .inl (by rw [hpc]; rfl)
      · exact continues_setPc _ (by simp [Pc.expired]) (by simp)
    next res hpc => exact .inr ⟨res, hpc, rfl⟩

end State

/-! ## Deadlines -/

/-- The time a `TimeOut_t` was set at. -/
def TimeOut.time (timeOut : TimeOut) : Nat :=
  timeOut.xOverflowCount * tickModulus + timeOut.xTimeOnEntering

/-- The time from which the ticks left to a call count. -/
def Frame.since (f : Frame α) (k : State α) : Nat :=
  match f.xTimeOut with
  | none => k.time
  | some timeOut => timeOut.time

/-- The difference of two tick counts is at most the difference of the times. -/
theorem elapsed_le {M o o' n n' : Nat} (hn : n < M) (hn' : n' < M) (hle : o * M + n ≤ o' * M + n') :
    o ≤ o' ∧ o * M + n + (n' + M - n) % M ≤ o' * M + n' := by
  have hoverflows : o ≤ o' := by
    by_contra hlt
    have hmul : (o' + 1) * M ≤ o * M := Nat.mul_le_mul_right M (by omega)
    rw [Nat.succ_mul] at hmul
    omega
  refine ⟨hoverflows, ?_⟩
  rcases Nat.lt_or_ge n' n with hlt | hge
  · have hne : o ≠ o' := by
      rintro rfl
      omega
    have hmul : (o + 1) * M ≤ o' * M := Nat.mul_le_mul_right M (by omega)
    rw [Nat.succ_mul] at hmul
    rw [Nat.mod_eq_of_lt (by omega)]
    omega
  · have hmul : o * M ≤ o' * M := Nat.mul_le_mul_right M hoverflows
    rw [Nat.sub_add_comm hge, Nat.add_mod_right, Nat.mod_eq_of_lt (by omega)]
    omega

/-- The verdict of `xTaskCheckForTimeOut` about a `TimeOut_t` of the past: the time is up
only when it is, and otherwise the time of the verdict and the ticks left make up
the same deadline. -/
theorem State.xTaskCheckForTimeOut_deadline {k : State α} (hok : k.ClockOk)
    {timeOut timeOut' : TimeOut} {xTicksToWait xTicksToWait' : Nat} {expired : Bool}
    (hpast : timeOut.time ≤ k.time) (hentering : timeOut.xTimeOnEntering < tickModulus)
    (hticks : 0 < xTicksToWait) (hlt : xTicksToWait < tickModulus)
    (hcheck : k.xTaskCheckForTimeOut timeOut xTicksToWait = (expired, timeOut', xTicksToWait')) :
    (expired = true → timeOut.time + xTicksToWait ≤ k.time) ∧
      (expired = false → 0 < xTicksToWait' ∧ xTicksToWait' ≤ xTicksToWait ∧
        timeOut.time + xTicksToWait ≤ timeOut'.time + xTicksToWait' ∧ timeOut'.time ≤ k.time ∧
        timeOut'.xTimeOnEntering < tickModulus) := by
  obtain ⟨hoverflows, helapsed⟩ := elapsed_le hentering hok hpast
  unfold xTaskCheckForTimeOut at hcheck
  dsimp only at hcheck
  split at hcheck
  · cases hcheck
    exact ⟨by simp, fun _ => ⟨hticks, Nat.le_refl _, Nat.le_refl _, hpast, hentering⟩⟩
  · split at hcheck
    next hwrapped =>
      cases hcheck
      refine ⟨fun _ => ?_, by simp⟩
      have hmul : (timeOut.xOverflowCount + 1) * tickModulus ≤ k.xNumOfOverflows * tickModulus :=
        Nat.mul_le_mul_right _ (by omega)
      rw [Nat.succ_mul] at hmul
      rw [TimeOut.time, State.time]
      omega
    · split at hcheck
      next hleft =>
        cases hcheck
        refine ⟨by simp, fun _ => ⟨by omega, by omega, ?_, Nat.le_refl _, hok⟩⟩
        have hnow : k.vTaskInternalSetTimeOutState.time = k.time := rfl
        rw [hnow, TimeOut.time, State.time]
        omega
      next hup =>
        cases hcheck
        refine ⟨fun _ => ?_, by simp⟩
        rw [TimeOut.time, State.time]
        omega

/-- A call made for `ticks` ticks has time left. -/
structure Pending (k : State α) (deadline ticks : Nat) (f : Frame α) : Prop where
  left : 0 < f.xTicksToWait
  le : f.xTicksToWait ≤ ticks
  notExpired : f.pc.expired = false
  notFailed : f.pc ≠ .leave .fail
  deadline : deadline ≤ f.since k + f.xTicksToWait
  past : ∀ timeOut, f.xTimeOut = some timeOut →
    timeOut.time ≤ k.time ∧ timeOut.xTimeOnEntering < tickModulus

/-- A deadline that has not passed while the call has time left. -/
def InTime (k : State α) (deadline ticks : Nat) (f : Frame α) : Prop :=
  deadline ≤ k.time ∨ Pending k deadline ticks f

theorem InTime.later {k k' : State α} {deadline ticks : Nat} {f : Frame α}
    (hin : InTime k deadline ticks f) (hle : k.time ≤ k'.time) : InTime k' deadline ticks f := by
  rcases hin with hover | hpending
  · exact .inl (Nat.le_trans hover hle)
  · refine .inr { hpending with deadline := ?_, past := fun timeOut hsome => ?_ }
    · have hsince : f.since k ≤ f.since k' := by
        unfold Frame.since
        split
        · exact hle
        · exact Nat.le_refl _
      have hdeadline := hpending.deadline
      omega
    · obtain ⟨hpast, hentering⟩ := hpending.past timeOut hsome
      exact ⟨Nat.le_trans hpast hle, hentering⟩

/-- A step of the call keeps its deadline. -/
theorem InTime.locals {k : State α} {deadline ticks : Nat} {f f' : Frame α} (hok : k.ClockOk)
    (hticks : ticks < tickModulus) (hin : InTime k deadline ticks f) (hlocals : Locals k f f') :
    InTime k deadline ticks f' := by
  rcases hin with hover | hpending
  · exact .inl hover
  have hsince : (f.xTimeOut.getD k.vTaskInternalSetTimeOutState).time = f.since k := by
    unfold Frame.since
    cases f.xTimeOut <;> rfl
  have hpast : (f.xTimeOut.getD k.vTaskInternalSetTimeOutState).time ≤ k.time ∧
      (f.xTimeOut.getD k.vTaskInternalSetTimeOutState).xTimeOnEntering < tickModulus := by
    cases htimeOut : f.xTimeOut with
    | none => exact ⟨Nat.le_refl _, hok⟩
    | some timeOut => exact hpending.past timeOut htimeOut
  cases hlocals with
  | halted => exact .inr hpending
  | goto pc hexpired hfail =>
      refine .inr ⟨hpending.left, hpending.le, ?_, fun heq => ?_, hpending.deadline, hpending.past⟩
      · by_contra hne
        have hbefore := hexpired (by simpa using hne)
        rw [hpending.notExpired] at hbefore
        cases hbefore
      · have hleft := hpending.left
        rcases hfail heq with hexpired | hzero
        · rw [hpending.notExpired] at hexpired
          cases hexpired
        · omega
  | waits =>
      refine .inr ⟨hpending.left, hpending.le, rfl, by simp, ?_, fun timeOut hsome => ?_⟩
      · have hdeadline := hpending.deadline
        rw [← hsince] at hdeadline
        exact hdeadline
      · obtain rfl := Option.some.inj hsome
        exact hpast
  | checked expired timeOut xTicksToWait hcheck =>
      obtain ⟨hup, hleft⟩ := k.xTaskCheckForTimeOut_deadline hok hpast.1 hpast.2 hpending.left
        (Nat.lt_of_le_of_lt hpending.le hticks) hcheck
      have hdeadline := hpending.deadline
      rw [← hsince] at hdeadline
      cases expired with
      | true => exact .inl (Nat.le_trans hdeadline (hup rfl))
      | false =>
          obtain ⟨hpos, hle, hsame, hpast', hentering⟩ := hleft rfl
          refine .inr ⟨hpos, Nat.le_trans hle hpending.le,
            rfl, by simp, Nat.le_trans hdeadline hsame, ?_⟩
          intro timeOut' hsome
          obtain rfl := Option.some.inj hsome
          exact ⟨hpast', hentering⟩

/-! ## Items -/

/-- The call has taken an item. -/
def Pc.passed : Pc α → Bool
  | leave (.pass _) => true
  | _ => false

/-- A receive or a take removes one item at the step that passes, and none at any other. -/
theorem Ran.removed {v v' : View α} {t : TaskId} {f f' : Frame α} (hran : Ran v t f v')
    (hframe : v.frame t = some f) (hframe' : v'.frame t = some f')
    (hop : ∀ item, f.op ≠ .genericSend item) :
    f.pc.passed = false ∧
      (v.queue f.xQueue).uxMessagesWaiting - (v'.queue f.xQueue).uxMessagesWaiting =
      if f'.pc.passed then 1 else 0 := by
  have hcomplete {v : View α} {res : QueueResult α}
      (hframe' : (v.complete t f res).frame t = some f') : f' = { f with pc := .leave res } := by
    simpa [View.complete, View.setFrame, eq_comm] using hframe'
  have hmoved {g : Frame α} (hframe' : (v.setFrame t (some g)).frame t = some f') : f' = g := by
    simpa [View.setFrame, eq_comm] using hframe'
  cases hran with
  | halted fault hfaults =>
      obtain rfl : f = f' := Option.some.inj (hframe.symm.trans hframe')
      have hpassed : f.pc.passed = false := by
        cases hfaults with
        | freed hpc =>
            cases h : f.pc with
            | leave res => simp [h, Pc.touchesQueue] at hpc
            | _ => rfl
        | asserted hpc => rw [hpc]; rfl
        | notHolder hpc => rw [hpc]; rfl
      simp [hpassed]
  | entered hpc =>
      rw [hmoved hframe', hpc]
      exact ⟨rfl, Nat.sub_self _⟩
  | waits timeOut hpc =>
      rw [hmoved hframe', hpc]
      exact ⟨rfl, Nat.sub_self _⟩
  | moved frame' hpc hpc' =>
      rw [hmoved hframe']
      refine ⟨?_, ?_⟩
      · cases h : f.pc <;> simp [h, Pc.looping, Pc.passed] at hpc ⊢
      · have hpassed : frame'.pc.passed = false := by
          rcases hpc' with hlooping | hattempt
          · cases h : frame'.pc <;> simp [h, Pc.looping, Pc.passed] at hlooping ⊢
          · rw [hattempt]; rfl
        simp [View.setFrame, hpassed]
  | gaveUp hpc =>
      rw [hcomplete hframe', hpc]
      exact ⟨rfl, Nat.sub_self _⟩
  | timedOut hpc =>
      rw [hcomplete hframe']
      refine ⟨?_, Nat.sub_self _⟩
      cases h : f.pc <;> simp [h, Pc.looping, Pc.passed] at hpc ⊢
  | sent item hpc hsend => exact absurd hsend (hop item)
  | received hpc hreceive hlive hready =>
      rw [hcomplete hframe', hpc]
      rw [hreceive] at hready
      simp only [Op.ready] at hready
      refine ⟨rfl, ?_⟩
      simp only [View.complete, View.setFrame, View.setQueue, Function.update_self,
        Contents.received, Pc.passed, if_true]
      omega
  | taken hpc htake hlive hready =>
      rw [hcomplete hframe', hpc]
      rw [htake] at hready
      simp only [Op.ready] at hready
      refine ⟨rfl, ?_⟩
      simp only [View.complete, View.setFrame, View.setQueue, Function.update_self, Contents.taken,
        Pc.passed, if_true]
      omega
  | left res elapsed hpc =>
      simp only [View.leave, View.setRet, View.setFrame] at hframe'
      split at hframe' <;> simp at hframe'

/-! ## A call from its entry to its return -/

/-- The items of `q` that a step of task `t` removed. -/
def removedBy (t : TaskId) (q : QueueId) (act : Act α) (k k' : State α) : Nat :=
  if act.actor = some t then (k.queue q).uxMessagesWaiting - (k'.queue q).uxMessagesWaiting else 0

/-- The steps of all tasks while task `t` is inside the call it entered in `k₁`, and the
items of `q` that the call has removed. -/
inductive CallRun (t : TaskId) (q : QueueId) (k₁ : State α) : State α → Nat → Prop
  | entered : CallRun t q k₁ k₁ 0
  | step {k k' : State α} {act : Act α} {n : Nat} (hrun : CallRun t q k₁ k n)
      (hinside : (k.task t).frame.isSome) (hvalid : act.valid k) (hstep : k.step act = some k') :
      CallRun t q k₁ k' (n + removedBy t q act k k')

/-- The number a wait returns. -/
def Ret.value : Ret α → Option Nat
  | u32 value | fetched value _ => some value
  | _ => none

/-- The two waits of the lwIP port that take a timeout. -/
def Api.isTimedWait (api : Api α) (q : QueueId) (timeout : Nat) : Prop :=
  api = .sysArchMboxFetch q timeout ∨ api = .sysArchSemWait q timeout

theorem Api.isTimedWait.request {api : Api α} {q : QueueId} {timeout : Nat}
    (hapi : api.isTimedWait q timeout) :
    ∃ op, api.request = some (op, q, timeoutTicks timeout) ∧ ∀ item, op ≠ .genericSend item := by
  rcases hapi with rfl | rfl
  · exact ⟨.receive, rfl, by simp⟩
  · exact ⟨.semaphoreTake, rfl, by simp⟩

theorem timeoutTicks_lt (timeout : Nat) : timeoutTicks timeout < tickModulus := by
  have hlt : pdMsToTicks timeout < tickModulus := Nat.mod_lt _ (by decide)
  unfold timeoutTicks
  split
  · decide
  · split
    · decide
    · exact hlt

theorem timeoutTicks_pos (timeout : Nat) : 0 < timeoutTicks timeout := by
  unfold timeoutTicks
  split
  · decide
  · split
    · decide
    · omega

/-- What holds while the call made in `k₀` is in progress, with `n` items removed. -/
structure InCall (k₀ : State α) (api : Api α) (op : Op α) (q : QueueId) (ticks : Nat)
    (k : State α) (n : Nat) (f : Frame α) : Prop where
  api : f.api = api
  op : f.op = op
  queue : f.xQueue = q
  startTick : f.startTick = k₀.xTickCount
  removed : n = if f.pc.passed then 1 else 0
  inTime : InTime k (k₀.time + ticks) ticks f

/-- The locals keep what the call was made with. -/
theorem Locals.keeps {k : State α} {f f' : Frame α} (hlocals : Locals k f f') :
    f'.api = f.api ∧ f'.op = f.op ∧ f'.xQueue = f.xQueue ∧ f'.startTick = f.startTick := by
  cases hlocals <;> exact ⟨rfl, rfl, rfl, rfl⟩

/-- How the call made in `k₀` came back: the blocking function passed iff an item was removed,
and it failed only after the deadline. -/
structure Returned (k₀ : State α) (api : Api α) (ticks : Nat) (t : TaskId) (k : State α) (n : Nat)
    (res : QueueResult α) : Prop where
  back : (k.task t).frame = none
  removed : n = if (Pc.leave res).passed then 1 else 0
  ret : (k.task t).ret =
    some (api.result res ((k.xTickCount + tickModulus - k₀.xTickCount) % tickModulus))
  failed : res = .fail → k₀.time + ticks ≤ k.time

section Call

variable {k₀ k k' : State α} {api : Api α} {op : Op α} {q : QueueId} {ticks n : Nat} {t : TaskId}
  {f : Frame α}

/-- A step of the task whose call it is. -/
theorem InCall.own (hcall : InCall k₀ api op q ticks k n f) (hok : k.ClockOk)
    (hticks : ticks < tickModulus) (hop : ∀ item, op ≠ .genericSend item)
    (hframe : (k.task t).frame = some f) (hle : k.time ≤ ((k.switchTo t).runFrame t f).time)
    {removed : Nat} (hremoved : removed = (k.queue q).uxMessagesWaiting -
      (((k.switchTo t).runFrame t f).queue q).uxMessagesWaiting) :
    (∃ f', (((k.switchTo t).runFrame t f).task t).frame = some f' ∧
        InCall k₀ api op q ticks ((k.switchTo t).runFrame t f) (n + removed) f') ∨
      ∃ res, Returned k₀ api ticks t ((k.switchTo t).runFrame t f) (n + removed) res := by
  have hran : Ran k.view t f ((k.switchTo t).runFrame t f).view :=
    State.ran_runFrame (show (k.switchTo t).pxCurrentTCB = t from rfl)
  obtain rfl := hcall.queue
  rcases State.continues_runFrame (show (k.switchTo t).view.frame t = some f from hframe) with
    ⟨f', hframe', hlocals⟩ | ⟨res, hpc, hleave⟩
  · obtain ⟨hapi, hop', hqueue, hstart⟩ := hlocals.keeps
    obtain ⟨hpassed, hcount⟩ := hran.removed hframe hframe' (hcall.op ▸ hop)
    refine .inl ⟨f', hframe', hapi.trans hcall.api, hop'.trans hcall.op, hqueue,
      hstart.trans hcall.startTick, ?_, ?_⟩
    · rw [hcall.removed, hpassed, hremoved, ← hcount]
      exact Nat.zero_add _
    · have hok' : (k.switchTo t).ClockOk := hok
      have hswitched : InTime (k.switchTo t) (k₀.time + ticks) ticks f :=
        hcall.inTime.later (Nat.le_refl _)
      exact (hswitched.locals hok' hticks hlocals).later hle
  · refine .inr ⟨res, ?_, ?_, ?_, fun hres => ?_⟩
    · rw [hleave]
      unfold State.leave
      cases f.api.locks <;> cases res <;> simp [State.modTask, State.switchTo]
    · have hsame : (((k.switchTo t).leave t f res).queue f.xQueue) = k.queue f.xQueue := by
        unfold State.leave
        cases f.api.locks <;> cases res <;> rfl
      rw [hremoved, hleave, hsame, Nat.sub_self, Nat.add_zero, hcall.removed, hpc]
    · rw [hleave, ← hcall.startTick, ← hcall.api]
      unfold State.leave
      cases f.api.locks <;> cases res <;> simp [State.modTask, State.switchTo]
    · refine Nat.le_trans ?_ hle
      rcases hcall.inTime with hover | hpending
      · exact hover
      · exact absurd (hres ▸ hpc) hpending.notFailed

/-- A step of the kernel while the call is in progress. -/
theorem InCall.step (hcall : InCall k₀ api op q ticks k n f) (hbooted : Booted k)
    (hticks : ticks < tickModulus) (hop : ∀ item, op ≠ .genericSend item)
    (hframe : (k.task t).frame = some f) {act : Act α} (hstep : k.step act = some k') :
    (∃ f', (k'.task t).frame = some f' ∧
      InCall k₀ api op q ticks k' (n + removedBy t q act k k') f') ∨
      ∃ res, Returned k₀ api ticks t k' (n + removedBy t q act k k') res := by
  obtain ⟨-, hle⟩ := State.time_step hbooted.clockOk hstep
  by_cases hactor : act.actor = some t
  · obtain rfl := State.step_inside hframe hactor hstep
    exact hcall.own hbooted.clockOk hticks hop hframe hle (if_pos hactor)
  · have hborn : t < k.view.nextTask := by
      by_contra hge
      have hnone := hbooted.inv.wait.window.unspawned t (Nat.le_of_not_lt hge)
      rw [State.view_frame, hframe] at hnone
      cases hnone
    have hsame := ((State.stepped_step hstep).others hactor hborn).1
    have hremoved : removedBy t q act k k' = 0 := if_neg hactor
    rw [hremoved]
    exact .inl ⟨f, hsame.trans hframe, { hcall with inTime := hcall.inTime.later hle }⟩

/-- The state right after the entry point was entered. -/
theorem inCall_entered (hrequest : api.request = some (op, q, ticks)) (hticks : 0 < ticks)
    (hstep : k₀.step (.call t api) = some k) :
    k.time = k₀.time ∧ ∃ f, (k.task t).frame = some f ∧ InCall k₀ api op q ticks k 0 f := by
  have hframe : (k₀.task t).frame = none := by
    cases hsome : (k₀.task t).frame with
    | none => rfl
    | some f => simp [State.step, Act.actor, hsome] at hstep
  have hentered := State.step_call hframe hstep
  have htime : k.time = k₀.time := by
    rw [hentered]
    unfold State.enter
    cases api.unlocks <;> cases api.request <;> rfl
  refine ⟨htime,
    { api, op, xQueue := q, xTicksToWait := ticks, xTimeOut := none, startTick := k₀.xTickCount,
      pc := .entry }, ?_, rfl, rfl, rfl, rfl, rfl,
      .inr ⟨hticks, Nat.le_refl _, rfl, by simp, ?_, by simp⟩⟩
  · rw [hentered]
    unfold State.enter
    cases api.unlocks <;> simp [hrequest, State.modTask, State.switchTo]
  · exact Nat.le_of_eq (congrArg (· + ticks) htime.symm)

/-- A call is in progress, or it has come back. -/
theorem CallRun.inCall {k₁ : State α} (hrun : CallRun t q k₁ k n) (hbooted : Booted k₁)
    (hle : k₀.time ≤ k₁.time) (hticks : ticks < tickModulus) (hop : ∀ item, op ≠ .genericSend item)
    (hentered : ∃ f, (k₁.task t).frame = some f ∧ InCall k₀ api op q ticks k₁ 0 f) :
    Booted k ∧ k₀.time ≤ k.time ∧
      ((∃ f, (k.task t).frame = some f ∧ InCall k₀ api op q ticks k n f) ∨
        ∃ res, Returned k₀ api ticks t k n res) := by
  -- on the run of the caller up to its return; other tasks may step in between
  induction hrun with
  | entered => exact ⟨hbooted, hle, .inl hentered⟩
  | step hrun hinside hvalid hstep ih =>
      obtain ⟨hbooted', hle', hcall⟩ := ih
      obtain ⟨-, hlater⟩ := State.time_step hbooted'.clockOk hstep
      refine ⟨hbooted'.step hvalid hstep, Nat.le_trans hle' hlater, ?_⟩
      rcases hcall with ⟨f, hframe, hcall⟩ | ⟨res, hreturned⟩
      · exact hcall.step hbooted' hticks hop hframe hstep
      · rw [hreturned.back] at hinside
        cases hinside

end Call

/-- The tick counts give the time between two states when it has less than 32 bits. -/
theorem elapsed_eq {M o o' n n' : Nat} (hn : n < M) (hn' : n' < M) (hle : o * M + n ≤ o' * M + n')
    (hlt : o' * M + n' - (o * M + n) < M) : (n' + M - n) % M = o' * M + n' - (o * M + n) := by
  obtain ⟨hoverflows, -⟩ := elapsed_le hn hn' hle
  obtain ⟨d, rfl⟩ := Nat.exists_eq_add_of_le hoverflows
  rw [Nat.add_mul] at hlt hle ⊢
  rcases Nat.lt_or_ge d 2 with hd | hd
  · have hd' : d = 0 ∨ d = 1 := by omega
    rcases hd' with rfl | rfl
    · rw [Nat.sub_add_comm (by omega), Nat.add_mod_right, Nat.mod_eq_of_lt (by omega)]
      omega
    · rw [Nat.mod_eq_of_lt (by omega)]
      omega
  · have hmul : 2 * M ≤ d * M := Nat.mul_le_mul_right M hd
    omega

/-- A wait with a timeout, in every run that makes fewer than `2 ^ 32 - 1` ticks while it is in
progress: it returns `SYS_ARCH_TIMEOUT` iff it removed nothing, and otherwise the ticks it took for
the one item it removed; it never gives up before its timeout, and never where that is zero. -/
theorem timed_wait {k₀ k₁ k : State α} {t : TaskId} {q : QueueId} {timeout n : Nat} {api : Api α}
    (hbooted : Booted k₀) (hapi : api.isTimedWait q timeout) (hvalid : (Act.call t api).valid k₀)
    (hcall : k₀.step (.call t api) = some k₁) (hrun : CallRun t q k₁ k n)
    (hreturned : (k.task t).frame = none) (hshort : k.time - k₀.time < 2 ^ 32 - 1) :
    ∃ ret value, (k.task t).ret = some ret ∧ ret.value = some value ∧
      (value = sysArchTimeout ↔ n = 0) ∧
      (value ≠ sysArchTimeout → n = 1 ∧ value = k.time - k₀.time) ∧
      (value = sysArchTimeout → timeout ≠ 0 ∧ max 1 (pdMsToTicks timeout) ≤ k.time - k₀.time) := by
  obtain ⟨op, hrequest, hop⟩ := hapi.request
  obtain ⟨htime, hentered⟩ := inCall_entered hrequest (timeoutTicks_pos timeout) hcall
  obtain ⟨hbooted', hle, hstate⟩ := hrun.inCall (hbooted.step hvalid hcall)
    (Nat.le_of_eq htime.symm) (timeoutTicks_lt timeout) hop hentered
  have hback : ∃ res, Returned k₀ api (timeoutTicks timeout) t k n res := by
    rcases hstate with ⟨f, hframe, -⟩ | hback
    · rw [hreturned] at hframe
      cases hframe
    · exact hback
  obtain ⟨res, hback⟩ := hback
  have helapsed : (k.xTickCount + tickModulus - k₀.xTickCount) % tickModulus = k.time - k₀.time :=
    elapsed_eq hbooted.clockOk hbooted'.clockOk hle (Nat.lt_of_lt_of_le hshort (by decide))
  have hret := hback.ret
  rw [helapsed] at hret
  have hne : k.time - k₀.time ≠ sysArchTimeout := Nat.ne_of_lt hshort
  cases res with
  | pass item =>
      have hremoved : n = 1 := hback.removed
      refine ⟨_, k.time - k₀.time, hret, ?_, ?_, fun _ => ⟨hremoved, rfl⟩, fun heq =>
          absurd heq hne⟩
      · rcases hapi with rfl | rfl <;> rfl
      · exact ⟨fun heq => absurd heq hne, fun hzero => by omega⟩
  | fail =>
      have hremoved : n = 0 := hback.removed
      refine ⟨_, sysArchTimeout, hret, ?_, ?_, fun heq => absurd rfl heq, fun _ => ?_⟩
      · rcases hapi with rfl | rfl <;> rfl
      · exact ⟨fun _ => hremoved, fun _ => rfl⟩
      · have hover := hback.failed rfl
        have hinfinite : portMaxDelay = 2 ^ 32 - 1 := rfl
        unfold timeoutTicks at hover
        split at hover
        · omega
        · split at hover <;> omega

/-- Execute the steps of a call, counting what it removes. -/
def runCall (t : TaskId) (q : QueueId) : State α → Nat → List (Act α) → Option (State α × Nat)
  | k, n, [] => some (k, n)
  | k, n, act :: rest =>
      if (k.task t).frame.isSome && validCheck k act then
        (k.step act).bind fun k' => runCall t q k' (n + removedBy t q act k k') rest
      else none

theorem runCall_callRun {t : TaskId} {q : QueueId} {k₁ k k' : State α} {n n' : Nat}
    (acts : List (Act α)) (hrun : CallRun t q k₁ k n)
    (hcall : runCall t q k n acts = some (k', n')) : CallRun t q k₁ k' n' := by
  induction acts generalizing k n with
  | nil =>
      obtain ⟨rfl, rfl⟩ := Prod.mk.inj (Option.some.inj hcall)
      exact hrun
  | cons act rest ih =>
      unfold runCall at hcall
      split at hcall
      next hcheck =>
        rw [Bool.and_eq_true] at hcheck
        obtain ⟨k₂, hstep, hrest⟩ := Option.bind_eq_some_iff.mp hcall
        exact ih (hrun.step hcheck.1 (validCheck_valid k act hcheck.2) hstep) hrest
      · simp at hcall

/-- A task waits for five ticks on a semaphore that another task posts after one. -/
def signalledWait : Option (State Unit × State Unit × State Unit × Nat) :=
  (Lib.execute State.step validCheck (State.boot 1) [.create 1 (.counting 0), .spawn 1 1]).bind
    fun k₀ =>
    (k₀.step (.call 1 (.sysArchSemWait 0 5))).bind fun k₁ =>
      (runCall 1 0 k₁ 0
        [.run 1, .run 1, .run 1, .run 1, .run 1, .run 1, .run 1, .run 1, .run 1, .run 1, .tick,
          .call 2 (.sysSemSignal (some 0)), .run 2, .run 2, .run 2, .run 1, .run 1]).map fun last =>
            (k₀, k₁, last)

theorem timed_wait_signalled : ∃ k₀ k₁ k n, signalledWait = some (k₀, k₁, k, n) ∧
    ∃ ret, (k.task 1).ret = some ret ∧ ret.value = some 1 ∧ n = 1 := by
  have hend :
      signalledWait.map (fun run =>
        ((run.2.2.1.task 1).frame.isNone, run.1.time, run.2.2.1.time, run.2.2.2)) =
          some (true, 0, 1, 1) := by
    decide +kernel
  obtain ⟨⟨k₀, k₁, k, n⟩, hsome, hend⟩ := Option.map_eq_some_iff.mp hend
  simp only [Prod.mk.injEq, Option.isNone_iff_eq_none] at hend
  obtain ⟨hback, hbefore, hafter, hremoved⟩ := hend
  refine ⟨k₀, k₁, k, n, hsome, ?_⟩
  obtain ⟨k₀', hk₀, hsome⟩ := Option.bind_eq_some_iff.mp hsome
  obtain ⟨k₁', hcall, hsome⟩ := Option.bind_eq_some_iff.mp hsome
  obtain ⟨⟨k', n'⟩, hrun, heq⟩ := Option.map_eq_some_iff.mp hsome
  obtain ⟨rfl, rfl, rfl, rfl⟩ : k₀' = k₀ ∧ k₁' = k₁ ∧ k' = k ∧ n' = n := by
    simpa only [Prod.mk.injEq] using heq
  have hbooted : Booted k₀' := ⟨1, Lib.execute_reach validCheck_valid _ hk₀⟩
  have hqueue : k₀'.nextQueue = 1 ∧ k₀'.uxSchedulerSuspended = 0 := by
    have hmap :
        (Lib.execute State.step validCheck (State.boot 1 : State Unit)
          [.create 1 (.counting 0), .spawn 1 1]).map
            (fun k => (k.nextQueue, k.uxSchedulerSuspended)) = some (1, 0) := by
      decide +kernel
    rw [hk₀] at hmap
    simpa using hmap
  have hvalid : (Act.call 1 (.sysArchSemWait 0 5) : Act Unit).valid k₀' := by
    refine ⟨hqueue.2, fun q hq => ?_⟩
    obtain rfl := Option.some.inj hq
    rw [hqueue.1]
    decide
  obtain ⟨ret, value, hret, hvalue, hiff, htook, -⟩ := timed_wait hbooted (.inr rfl) hvalid hcall
    (runCall_callRun _ .entered hrun) hback (by rw [hbefore, hafter]; decide)
  have hpassed : value ≠ sysArchTimeout := fun heq => by
    rw [hiff, hremoved] at heq
    cases heq
  refine ⟨ret, hret, ?_, hremoved⟩
  rw [hvalue, (htook hpassed).2, hbefore, hafter]

end SimulatedLinux.Kernel
