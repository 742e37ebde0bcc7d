import SimulatedLinux.Kernel.Reachable

/-! # Calls in progress

A call keeps the entry point, the queue and the operation it was made with, and a
call that may not wait never gets past its critical section. The boot state and
the promises of the callers that all runs start from are fixed here.
-/

namespace SimulatedLinux.Kernel

variable {α : Type}

/-! ## Boot -/

/-- A handle for which nothing has been created. -/
def Queue.none : Queue α where
  live := false
  isMutex := false
  uxLength := 0
  uxItemSize := 0
  uxMessagesWaiting := 0
  pcTail := 0
  pcWriteTo := 0
  pcReadFrom := 0
  storage := fun _ => Option.none
  xMutexHolder := Option.none
  xTasksWaitingToSend := []
  xTasksWaitingToReceive := []
  cRxLock := queueUnlocked
  cTxLock := queueUnlocked

/-- The kernel when the scheduler starts: the idle task and the application's
main task are ready. -/
def State.boot (uxMainPriority : Nat) : State α where
  queue := fun _ => .none
  task := fun t =>
    { xStateList := if t < 2 then .ready else .absent
      xWakeTime := 0
      xEventList := Option.none
      xEventValue := configMaxPriorities - if t = 1 then uxMainPriority else 0
      uxPriority := if t = 1 then uxMainPriority else 0
      uxBasePriority := if t = 1 then uxMainPriority else 0
      uxMutexesHeld := 0
      frame := Option.none
      ret := Option.none }
  nextQueue := 0
  nextTask := 2
  pxCurrentTCB := 1
  uxSchedulerSuspended := 0
  uxCurrentNumberOfTasks := 2
  xTickCount := 0
  xNumOfOverflows := 0
  xPendedTicks := 0
  xPendingReadyList := []
  xTasksWaitingTermination := []
  fault := Option.none
  woken := fun _ => []
  locked := fun _ => []
  trace := []

theorem State.boot_inv (uxMainPriority : Nat) :
    KernelInv (State.boot uxMainPriority : State α) := by
  have hevents : (State.boot uxMainPriority : State α).eventList = fun _ => [] := by
    funext list
    cases list <;> rfl
  have hunlocked : queueUnlocked ≤ 0 := by decide
  refine ⟨⟨⟨?_, ?_, ?_, ?_, ?_, ?_, ?_, fun t ht => if_neg (Nat.not_lt.mpr ht)⟩,
      ⟨?_, ?_, ?_, ?_, ?_, ?_, ?_⟩, ⟨?_, ?_, ?_⟩⟩,
    ⟨?_, ?_, ?_, ?_⟩⟩
  all_goals simp [sched, view, hevents, cpu]
  all_goals simp [boot, Queue.none, Queue.contents, hunlocked]
  intro t
  split <;> simp

/-! ## Promises of the callers -/

/-- The queue an entry point is called for. -/
def Api.target (api : Api α) : Option QueueId := api.request.map fun request => request.2.1

/-- What every caller keeps to: handles come from a creation call, and no
blocking function is entered while the scheduler is suspended. -/
def Act.valid (k : State α) : Act α → Prop
  | .call _ api => k.uxSchedulerSuspended = 0 ∧ ∀ q, api.target = some q → q < k.nextQueue
  | _ => True

/-- The promises of the callers, as a check of a concrete run. -/
def validCheck (k : State α) : Act α → Bool
  | .call _ api => k.uxSchedulerSuspended = 0 && api.target.all fun q => q < k.nextQueue
  | _ => true

theorem validCheck_valid (k : State α) (act : Act α) (hcheck : validCheck k act) : act.valid k := by
  cases act with
  | call t api =>
      simp only [validCheck, Bool.and_eq_true, decide_eq_true_eq] at hcheck
      refine ⟨hcheck.1, fun q hq => ?_⟩
      simpa [hq] using hcheck.2
  | _ => trivial

theorem Act.valid.unsuspended {k : State α} {act : Act α} (hvalid : act.valid k) :
    act.unsuspended k := by
  cases act <;> first | exact hvalid.1 | trivial

/-- The states of all runs from boot. -/
def Booted (k : State α) : Prop :=
  ∃ uxMainPriority, Lib.Reach State.step (fun k act => Act.valid k act)
    (State.boot uxMainPriority) k

theorem Booted.inv {k : State α} (hbooted : Booted k) : KernelInv k := by
  obtain ⟨uxMainPriority, hreach⟩ := hbooted
  exact hreach.invariant KernelInv (State.boot_inv uxMainPriority)
    fun _ _ _ hinv hvalid hstep => hinv.step hvalid.unsuspended hstep

theorem Booted.step {k k' : State α} {act : Act α} (hbooted : Booted k) (hvalid : act.valid k)
    (hstep : k.step act = some k') : Booted k' := by
  obtain ⟨uxMainPriority, hreach⟩ := hbooted
  exact ⟨uxMainPriority, hreach.tail ⟨act, hvalid, hstep⟩⟩

/-! ## Calls keep what they were made with -/

/-- The call is one its entry point makes, does not wait unless it may, and does
not fail if it may wait for ever. -/
def Frame.WellFormed (f : Frame α) : Prop :=
  ∃ xTicksToWait, f.api.request = some (f.op, f.xQueue, xTicksToWait) ∧
    (xTicksToWait = 0 → f.xTicksToWait = 0 ∧ ¬ f.pc.looping) ∧
    (xTicksToWait = portMaxDelay → f.Patient ∧ f.pc ≠ .leave .fail)

theorem Frame.WellFormed.target {f : Frame α} (hf : f.WellFormed) :
    f.api.target = some f.xQueue := by
  obtain ⟨xTicksToWait, hrequest, -, -⟩ := hf
  simp [Api.target, hrequest]

/-- What a step inside a call keeps of it. -/
theorem Ran.wellFormed {v v' : View α} {t : TaskId} {frame : Frame α} (hran : Ran v t frame v')
    (hframe : v.frame t = some frame) (hf : frame.WellFormed) {f : Frame α}
    (hf' : v'.frame t = some f) : f.WellFormed ∧ f.api = frame.api ∧ f.xQueue = frame.xQueue := by
  obtain ⟨n, hrequest, hzero, hforever⟩ := hf
  have hcomplete {v : View α} {res : QueueResult α}
      (hf' : (v.complete t frame res).frame t = some f) (hres : n = portMaxDelay → res ≠ .fail) :
      f.WellFormed ∧ f.api = frame.api ∧ f.xQueue = frame.xQueue := by
    simp only [View.complete, View.setFrame, Function.update_self, Option.some.injEq] at hf'
    subst hf'
    refine ⟨⟨n, hrequest, fun hn => ⟨(hzero hn).1, by simp [Pc.looping]⟩, fun hn => ?_⟩, rfl, rfl⟩
    exact ⟨⟨(hforever hn).1.1, rfl⟩, by simpa using hres hn⟩
  cases hran with
  | halted fault hfaults =>
      obtain rfl : frame = f := Option.some.inj (hframe.symm.trans hf')
      exact ⟨⟨n, hrequest, hzero, hforever⟩, rfl, rfl⟩
  | entered hpc =>
      simp only [View.setFrame, Function.update_self, Option.some.injEq] at hf'
      subst hf'
      exact ⟨⟨n, hrequest, fun hn => ⟨(hzero hn).1, by simp [Pc.looping]⟩,
        fun hn => ⟨⟨(hforever hn).1.1, rfl⟩, by simp⟩⟩, rfl, rfl⟩
  | waits timeOut hpc hticks hready =>
      simp only [View.setFrame, Function.update_self, Option.some.injEq] at hf'
      subst hf'
      exact ⟨⟨n, hrequest, fun hn => absurd (hzero hn).1 hticks,
        fun hn => ⟨⟨(hforever hn).1.1, rfl⟩, by simp⟩⟩, rfl, rfl⟩
  | moved frame' hpc hpc' hapi hop hqueue hpatient =>
      simp only [View.setFrame, Function.update_self, Option.some.injEq] at hf'
      subst hf'
      refine ⟨⟨n, ?_, fun hn => absurd hpc (hzero hn).2,
        fun hn => ⟨hpatient (hforever hn).1, fun hleave => ?_⟩⟩, hapi, hqueue⟩
      · rw [hapi, hop, hqueue]
        exact hrequest
      · simp [hleave, Pc.looping] at hpc'
  | gaveUp hpc hticks =>
      refine hcomplete hf' fun hn => ?_
      simp [(hforever hn).1.1, portMaxDelay, tickModulus] at hticks
  | timedOut hpc hpatient => exact hcomplete hf' fun hn => absurd (hforever hn).1 hpatient
  | sent => exact hcomplete hf' (by simp)
  | received => exact hcomplete hf' (by simp)
  | taken => exact hcomplete hf' (by simp)
  | left res elapsed hpc =>
      simp only [View.leave, View.setRet, View.setFrame] at hf'
      split at hf' <;> simp at hf'

theorem Ran.nextQueue {v v' : View α} {t : TaskId} {frame : Frame α} (hran : Ran v t frame v') :
    v'.nextQueue = v.nextQueue := by
  cases hran <;> simp [View.setFrame, View.complete, View.setQueue, View.released, View.acquired,
    View.setHeld, View.leave, View.setRet]
  · split <;> rfl
  · split <;> rfl
  · split <;> rfl

/-- A step completes at most one operation: the one of its own call. -/
theorem Ran.trace {v v' : View α} {t : TaskId} {frame : Frame α} (hran : Ran v t frame v') :
    v'.trace = v.trace ∨ ∃ res, v'.trace = v.trace ++ [⟨t, frame.api, res⟩] := by
  have hreleased : (v.released t frame.xQueue).trace = v.trace := by
    unfold View.released
    split <;> rfl
  have hacquired : (v.acquired t frame.xQueue).trace = v.trace := by
    unfold View.acquired
    split <;> rfl
  cases hran with
  | halted => exact .inl rfl
  | entered => exact .inl rfl
  | waits => exact .inl rfl
  | moved => exact .inl rfl
  | gaveUp => exact .inr ⟨_, rfl⟩
  | timedOut => exact .inr ⟨_, rfl⟩
  | sent => exact .inr ⟨_, congrArg (· ++ _) hreleased⟩
  | received => exact .inr ⟨_, rfl⟩
  | taken => exact .inr ⟨_, congrArg (· ++ _) hacquired⟩
  | left res elapsed hpc =>
      refine .inl ?_
      unfold View.leave
      cases frame.api.locks <;> cases res <;> rfl

/-- Every call in progress is well formed and was made for a queue that exists,
through an entry point that `allowed` permits for that queue. -/
structure Calls (v : View α) (allowed : QueueId → Api α → Prop) : Prop where
  wellFormed : ∀ t f, v.frame t = some f → f.WellFormed
  created : ∀ t f, v.frame t = some f → f.xQueue < v.nextQueue
  permitted : ∀ t f, v.frame t = some f → allowed f.xQueue f.api
  traced : ∀ e ∈ v.trace, ∀ q, e.api.target = some q → q < v.nextQueue ∧ allowed q e.api

theorem Calls.step {v v' : View α} {allowed : QueueId → Api α → Prop} {act : Act α}
    (hcalls : Calls v allowed)
    (hok : ∀ t api, act = .call t api → ∀ q, api.target = some q →
      q < v.nextQueue ∧ allowed q api) (hstep : Stepped v act v') : Calls v' allowed := by
  cases hstep with
  | scheduled => exact hcalls
  | asserted => exact ⟨hcalls.wellFormed, hcalls.created, hcalls.permitted, hcalls.traced⟩
  | freed => exact ⟨hcalls.wellFormed, hcalls.created, hcalls.permitted, hcalls.traced⟩
  | ran hframe hran =>
      rename_i t frame
      have hkeep : ∀ u f, v'.frame u = some f → f.WellFormed ∧
          ∃ f', v.frame u = some f' ∧ f.api = f'.api ∧ f.xQueue = f'.xQueue := by
        intro u f hf
        by_cases hu : u = t
        · subst hu
          obtain ⟨hwell, hapi, hqueue⟩ :=
            hran.wellFormed hframe (hcalls.wellFormed u frame hframe) hf
          exact ⟨hwell, frame, hframe, hapi, hqueue⟩
        · rw [hran.frame_ne hu] at hf
          exact ⟨hcalls.wellFormed u f hf, f, hf, rfl, rfl⟩
      refine ⟨fun u f hf => (hkeep u f hf).1, fun u f hf => ?_, fun u f hf => ?_, ?_⟩
      · obtain ⟨-, f', hf', -, hqueue⟩ := hkeep u f hf
        rw [hran.nextQueue, hqueue]
        exact hcalls.created u f' hf'
      · obtain ⟨-, f', hf', hapi, hqueue⟩ := hkeep u f hf
        rw [hapi, hqueue]
        exact hcalls.permitted u f' hf'
      -- a call that returns in this step leaves its event in the trace
      · intro e he q hq
        rw [hran.nextQueue]
        rcases hran.trace with htrace | ⟨res, htrace⟩ <;> rw [htrace] at he
        · exact hcalls.traced e he q hq
        · rcases List.mem_append.mp he with hold | hnew
          · exact hcalls.traced e hold q hq
          · obtain rfl := List.mem_singleton.mp hnew
            have htarget := (hcalls.wellFormed t frame hframe).target
            obtain rfl : frame.xQueue = q := Option.some.inj (htarget.symm.trans hq)
            exact ⟨hcalls.created t frame hframe, hcalls.permitted t frame hframe⟩
  | called t api startTick hframe =>
      have hkeep : ∀ u f, (v.enter t api startTick).frame u = some f → v.frame u = some f ∨
          f.WellFormed ∧ f.api = api := by
        intro u f hf
        rcases v.enter_frame_cases t api startTick hframe hf with hold | ⟨-, hapi, hentry, hrequest⟩
        · exact .inl hold
        · refine .inr ⟨⟨f.xTicksToWait, hapi ▸ hrequest, fun hn => ⟨hn, ?_⟩, fun hn =>
              ⟨⟨hn, ?_⟩, ?_⟩⟩,
            hapi⟩
          · simp [hentry, Pc.looping]
          · simp [hentry, Pc.expired]
          · simp [hentry]
      have hqueue := v.enter_nextQueue t api startTick
      have htrace := v.enter_trace t api startTick
      refine ⟨fun u f hf => ?_, fun u f hf => ?_, fun u f hf => ?_, ?_⟩
      rotate_right
      · rw [htrace, hqueue]
        exact hcalls.traced
      -- a frame is either an old one, or that of the call that has just been made
      all_goals rcases hkeep u f hf with hold | ⟨hwell, hapi⟩
      · exact hcalls.wellFormed u f hold
      · exact hwell
      · rw [hqueue]
        exact hcalls.created u f hold
      · rw [hqueue]
        exact (hok t api rfl f.xQueue (hapi ▸ hwell.target)).1
      · exact hcalls.permitted u f hold
      · rw [hapi]
        exact (hok t api rfl f.xQueue (hapi ▸ hwell.target)).2
  | created t spec Q hbuild =>
      exact ⟨hcalls.wellFormed, fun u f hf => Nat.lt_succ_of_lt (hcalls.created u f hf),
        hcalls.permitted,
        fun e he q hq =>
          ⟨Nat.lt_succ_of_lt (hcalls.traced e he q hq).1, (hcalls.traced e he q hq).2⟩⟩
  | deleted => exact ⟨hcalls.wellFormed, hcalls.created, hcalls.permitted, hcalls.traced⟩
  | spawned t uxPriority =>
      have hkeep : ∀ u f, v.addTask.frame u = some f → v.frame u = some f := by
        intro u f hf
        by_cases hu : u = v.nextTask
        · simp [View.addTask, hu] at hf
        · simpa [View.addTask, hu] using hf
      exact ⟨fun u f hf => hcalls.wellFormed u f (hkeep u f hf),
        fun u f hf => hcalls.created u f (hkeep u f hf),
        fun u f hf => hcalls.permitted u f (hkeep u f hf), hcalls.traced⟩
  | exited => exact ⟨hcalls.wellFormed, hcalls.created, hcalls.permitted, hcalls.traced⟩
  | reaped =>
      unfold View.reap
      split
      · exact hcalls
      · exact ⟨hcalls.wellFormed, hcalls.created, hcalls.permitted, hcalls.traced⟩

theorem Booted.calls {k : State α} (hbooted : Booted k) : Calls k.view fun _ _ => True := by
  obtain ⟨uxMainPriority, hreach⟩ := hbooted
  -- nothing is asked of the calls here, so the restriction on them is trivial
  refine hreach.invariant (fun k => Calls k.view fun _ _ => True) ?_ ?_
  · refine ⟨fun t f hf => ?_, fun t f hf => ?_, fun t f hf => ?_, fun e he => ?_⟩
    · simp [State.view, State.boot] at hf
    · simp [State.view, State.boot] at hf
    · trivial
    · simp [State.view, State.boot] at he
  · intro k act k' hcalls hvalid hstep
    refine hcalls.step ?_ (State.stepped_step hstep)
    rintro t api rfl q hq
    exact ⟨hvalid.2 q hq, trivial⟩

end SimulatedLinux.Kernel
