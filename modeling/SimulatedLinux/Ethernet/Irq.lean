import SimulatedLinux.Ethernet.Rx

/-! # The receive interrupt

`low_level_init`, `EthernetISR` and `ethernetif_input_task` hand each other the status
bit of the RX interrupt, its enable bit and the notification count of `LWIP_RX`. A frame
may arrive between any two of their steps. Here no frame is left in the FIFO while the
task sleeps and nothing will wake it, once the interrupt flags have been cleared in
`low_level_init`.

The device latches the status bit when a frame arrives, until a 1 is written to it. A
frame that does not fit into the FIFO does not arrive.
-/

namespace SimulatedLinux.Ethernet

/-- The steps of `low_level_init` behind `smsc9220_init` that matter here. -/
inductive InitPc
  /-- `nwNVIC_ICER`. -/
  | icer
  | disableAll
  | clearAll
  | enable
  | create
  /-- `nwNVIC_ISER`. -/
  | iser
  | returned
  deriving DecidableEq, Repr

/-- The steps of `EthernetISR`. -/
inductive IsrPc
  | status
  | notify
  | clear
  | disable
  | clearAll
  deriving DecidableEq, Repr

/-- The steps of `ethernetif_input_task`; those up to `take` are in `ulTaskNotifyTake`. -/
inductive RxPc
  | absent
  | test
  /-- The critical section inside the suspension of the scheduler. -/
  | check
  | place
  | resumeAll
  | blocked
  | take
  /-- The condition of the loop over the frames. -/
  | peek
  | enable
  deriving DecidableEq, Repr

/-- The interrupt logic. -/
structure Irq where
  /-- The RX bit of `irq_status`. -/
  latched : Bool
  /-- The RX bit of `irq_enable`; the driver never sets another one. -/
  enabled : Bool
  /-- IRQ 13 is enabled in the NVIC. -/
  nvic : Bool
  init : InitPc
  isr : Option IsrPc
  task : RxPc
  /-- `ucNotifyState` is `taskWAITING_NOTIFICATION`. -/
  waiting : Bool
  ulNotifiedValue : Nat
  deriving DecidableEq, Repr

structure RxSystem where
  rx : Rx
  irq : Irq

inductive RxAct
  | arrive (frame : Frame)
  /-- A step of `low_level_init`. -/
  | init
  /-- The interrupt is taken. -/
  | irq
  /-- A step of `EthernetISR`. -/
  | isr
  /-- A step of `ethernetif_input_task`; at the condition of its loop, with or without a
  `pbuf` for the frame. -/
  | task (allocated : Bool)

namespace Irq

def initStep (s : Irq) : Option Irq :=
  match s.init with
  | .icer => some { s with nvic := false, init := .disableAll }
  | .disableAll => some { s with enabled := false, init := .clearAll }
  | .clearAll => some { s with latched := false, init := .enable }
  | .enable => some { s with enabled := true, init := .create }
  -- the handle is stored by `xTaskCreate` itself
  | .create => some { s with task := .test, init := .iser }
  | .iser => some { s with nvic := true, init := .returned }
  | .returned => none

/-- `vTaskNotifyGiveFromISR`. -/
def vTaskNotifyGiveFromIsr (s : Irq) : Irq :=
  { s with waiting := false, ulNotifiedValue := (s.ulNotifiedValue + 1) % 2 ^ 32 }

/-- One step of `EthernetISR`. The handle of the task is NULL until it is created. -/
def isrStep (s : Irq) (pc : IsrPc) : Irq :=
  match pc with
  | .status => { s with isr := some (if s.latched then .notify else .clearAll) }
  -- the latched flag is cleared behind the notification, not before it
  | .notify =>
      { (if s.task ≠ .absent then s.vTaskNotifyGiveFromIsr else s) with isr := some .clear }
  | .clear => { s with latched := false, isr := some .disable }
  | .disable => { s with enabled := false, isr := some .clearAll }
  | .clearAll => { s with latched := false, isr := none }

/-- One step of the task outside of its loop over the frames. -/
def taskStep (s : Irq) : Option Irq :=
  match s.task with
  | .absent | .peek => none
  | .test => some { s with task := if s.ulNotifiedValue = 0 then .check else .take }
  -- `ulTaskNotifyTake` looks again with the scheduler suspended
  | .check =>
      some (if s.ulNotifiedValue = 0 then { s with waiting := true, task := .place }
        else { s with task := .take })
  | .place => some { s with task := .resumeAll }
  | .resumeAll => some { s with task := if s.waiting then .blocked else .take }
  | .blocked => if s.waiting then none else some { s with task := .take }
  | .take => some { s with ulNotifiedValue := 0, waiting := false, task := .peek }
  | .enable => some { s with enabled := true, task := .test }

end Irq

/-- The RX data FIFO is a part of the 16 KiB of the controller. -/
def rxFifoBytes : Nat := 16384

namespace RxSystem

def start : RxSystem := ⟨⟨⟨[], [], []⟩, []⟩, ⟨false, false, false, .icer, none, .absent, false, 0⟩⟩

/-- A step. Nothing but the device runs during an interrupt. -/
def step (underflow : Word) (s : RxSystem) : RxAct → Option RxSystem
  | .arrive frame =>
      if 4 * (s.rx.dev.rxData ++ frame.words).length ≤ rxFifoBytes then
        (s.rx.step underflow (.arrive frame)).map fun rx => ⟨rx, { s.irq with latched := true }⟩
      else none
  | .irq =>
      if s.irq.isr.isNone && s.irq.nvic && s.irq.latched && s.irq.enabled then
        some { s with irq := { s.irq with isr := some .status } }
      else none
  | .isr => s.irq.isr.map fun pc => { s with irq := s.irq.isrStep pc }
  | .init => if s.irq.isr.isNone then s.irq.initStep.map fun irq => { s with irq := irq } else none
  | .task allocated =>
      if s.irq.isr.isNone then
        match s.irq.task with
        | .peek =>
            if 0 < (peekNextPacketSize s.rx.dev).1 then
              (s.rx.step underflow (.iterate allocated)).map fun rx => { s with rx := rx }
            else some { s with irq := { s.irq with task := .enable } }
        | _ => s.irq.taskStep.map fun irq => { s with irq := irq }
      else none

/-- A frame is in the FIFO. -/
def hasFrame (s : RxSystem) : Prop := s.rx.dev.rxStatus ≠ []

/-- The task sleeps, with a frame in the FIFO that nothing will wake it for. -/
def Stranded (s : RxSystem) : Prop :=
  s.irq.init = .returned ∧ s.hasFrame ∧ s.irq.task = .blocked ∧ s.irq.ulNotifiedValue = 0 ∧
    ¬ (s.irq.latched ∧ s.irq.enabled)

end RxSystem

/-- `low_level_init` has cleared the interrupt flags. -/
def InitPc.cleared : InitPc → Bool
  | icer | disableAll | clearAll => false
  | _ => true

/-- The steps that keep clear of the two defects: no frame arrives before the flags have
been cleared, and a frame is taken off the FIFO word by word as it was put there. -/
def RxAct.Careful (s : RxSystem) : RxAct → Prop
  | .arrive _ => s.irq.init.cleared
  | .task allocated => ∀ frame : Frame, s.rx.dev.rxStatus.head? = some frame.status →
      s.irq.task = .peek → frame.clean allocated
  | _ => True

/-! ## The interrupt logic by itself -/

/-- How the parties agree, given whether a frame is in the FIFO. -/
structure Irq.Agrees (s : Irq) (frame : Prop) : Prop where
  early : ¬ s.init.cleared → ¬ frame
  absent : s.task = .absent ↔ s.init ≠ .iser ∧ s.init ≠ .returned
  unnotified : s.task = .absent → s.ulNotifiedValue = 0
  nvic : s.nvic → s.init = .returned
  isr : s.isr ≠ none → s.init = .returned
  raised : s.isr = some .status ∨ s.isr = some .notify → s.latched ∧ s.enabled ∧
    s.ulNotifiedValue = 0
  notified : s.isr = some .clear ∨ s.isr = some .disable ∨ s.isr = some .clearAll →
    s.ulNotifiedValue = 1
  disabled : s.isr = some .clearAll → ¬ s.enabled
  /-- A frame has the status bit set, or the task will look for it. -/
  attended : frame → s.latched ∨ s.ulNotifiedValue = 1 ∨ s.task = .peek
  /-- The interrupt is enabled while the task has nothing to do. -/
  armed : (s.init = .create ∨ s.init = .iser ∨ s.init = .returned) → s.ulNotifiedValue = 0 →
    s.task ≠ .peek → s.task ≠ .enable → s.enabled
  count : s.ulNotifiedValue = 0 ∨ s.ulNotifiedValue = 1
  quiet : s.isr = none → s.ulNotifiedValue = 1 → ¬ s.enabled
  busy : s.task = .peek ∨ s.task = .enable → ¬ s.enabled ∧ s.ulNotifiedValue = 0
  awake : s.task = .take → s.ulNotifiedValue = 1
  asleep : s.task = .place ∨ s.task = .resumeAll ∨ s.task = .blocked → s.waiting ∨
    s.ulNotifiedValue = 1

/-- The task is on its way into its sleep, or asleep. -/
def RxPc.idle : RxPc → Bool
  | test | check | place | resumeAll | blocked => true
  | _ => false

namespace Irq.Agrees

variable {s s' : Irq} {frame : Prop}

theorem initStep (h : s.Agrees frame) (hisr : s.isr = none) (hstep : s.initStep = some s') :
    s'.Agrees frame := by
  obtain ⟨h1, h2, h3, h4, h5, h6, h7, h8, h9, h10, h11, h12, h13, h14, h15⟩ := h
  unfold Irq.initStep at hstep
  cases hinit : s.init <;> simp only [hinit, reduceCtorEq, Option.some.injEq] at hstep <;>
    subst hstep <;>
    constructor <;> simp_all [InitPc.cleared]

/-- The interrupt is taken. -/
theorem enter (h : s.Agrees frame) (hisr : s.isr = none) (hnvic : s.nvic) (hlatched : s.latched)
    (henabled : s.enabled) : Agrees { s with isr := some .status } frame := by
  have hzero : s.ulNotifiedValue = 0 := h.count.resolve_right fun hone => h.quiet hisr hone henabled
  exact { h with
    isr := fun _ => h.nvic hnvic
    raised := fun _ => ⟨hlatched, henabled, hzero⟩
    notified := by simp
    disabled := by simp
    quiet := by simp }

theorem isrStep (h : s.Agrees frame) {pc : IsrPc} (hisr : s.isr = some pc) :
    (s.isrStep pc).Agrees frame := by
  obtain ⟨h1, h2, h3, h4, h5, h6, h7, h8, h9, h10, h11, h12, h13, h14, h15⟩ := h
  cases pc <;> simp only [Irq.isrStep, Irq.vTaskNotifyGiveFromIsr] <;> constructor <;> simp_all

/-- The task moves towards its sleep, or from it. -/
theorem move (h : s.Agrees frame) (hfrom : s.task.idle) {pc : RxPc} (hto : pc.idle) {waiting : Bool}
    (hasleep : pc = .place ∨ pc = .resumeAll ∨ pc = .blocked → waiting ∨ s.ulNotifiedValue = 1) :
    Agrees { s with task := pc, waiting := waiting } frame := by
  have hfrom' : s.task ≠ .absent ∧ s.task ≠ .peek ∧ s.task ≠ .enable ∧ s.task ≠ .take := by
    refine ⟨?_, ?_, ?_, ?_⟩ <;> rintro heq <;> simp [heq, RxPc.idle] at hfrom
  have hto' : pc ≠ .absent ∧ pc ≠ .peek ∧ pc ≠ .enable ∧ pc ≠ .take := by
    refine ⟨?_, ?_, ?_, ?_⟩ <;> rintro rfl <;> simp [RxPc.idle] at hto
  exact { h with
    absent := iff_of_false hto'.1 (mt h.absent.mpr hfrom'.1)
    unnotified := fun heq => absurd heq hto'.1
    attended :=
      fun hframe => (h.attended hframe).imp_right (.imp_right fun heq => absurd heq hfrom'.2.1)
    armed := fun hinit hzero _ _ => h.armed hinit hzero hfrom'.2.1 hfrom'.2.2.1
    busy := fun heq => absurd heq (not_or.mpr ⟨hto'.2.1, hto'.2.2.1⟩)
    awake := fun heq => absurd heq hto'.2.2.2
    asleep := hasleep }

/-- The task has been notified. -/
theorem wake (h : s.Agrees frame) (hfrom : s.task.idle) (hone : s.ulNotifiedValue = 1) :
    Agrees { s with task := .take } frame := by
  have hfrom' : s.task ≠ .absent ∧ s.task ≠ .peek := by
    refine ⟨?_, ?_⟩ <;> rintro heq <;> simp [heq, RxPc.idle] at hfrom
  exact { h with
    absent := iff_of_false (by simp) (mt h.absent.mpr hfrom'.1)
    unnotified := by simp
    attended := fun _ => .inr (.inl hone)
    armed := by simp [hone]
    busy := by simp
    awake := fun _ => hone
    asleep := by simp }

theorem take (h : s.Agrees frame) (hisr : s.isr = none) (htask : s.task = .take) :
    Agrees { s with ulNotifiedValue := 0, waiting := false, task := .peek } frame := by
  have hquiet := h.quiet hisr (h.awake htask)
  exact { h with
    absent := iff_of_false (by simp) (mt h.absent.mpr (by simp [htask]))
    unnotified := by simp
    raised := by simp [hisr]
    notified := by simp [hisr]
    attended := by simp
    armed := by simp
    count := by simp
    quiet := by simp
    busy := fun _ => ⟨hquiet, rfl⟩
    awake := by simp
    asleep := by simp }

theorem enable (h : s.Agrees frame) (hisr : s.isr = none) (htask : s.task = .enable) :
    Agrees { s with enabled := true, task := .test } frame := by
  have hzero := (h.busy (.inr htask)).2
  exact { h with
    absent := iff_of_false (by simp) (mt h.absent.mpr (by simp [htask]))
    unnotified := by simp
    raised := by simp [hisr]
    disabled := by simp [hisr]
    attended := fun hframe => (h.attended hframe).imp_right (.imp_right (by simp [htask]))
    armed := by simp
    quiet := by simp [hzero]
    busy := by simp
    awake := by simp
    asleep := by simp }

theorem taskStep (h : s.Agrees frame) (hisr : s.isr = none) (hstep : s.taskStep = some s') :
    s'.Agrees frame := by
  have hone (hne : s.ulNotifiedValue ≠ 0) : s.ulNotifiedValue = 1 := h.count.resolve_left hne
  unfold Irq.taskStep at hstep
  cases htask : s.task <;> simp only [htask, reduceCtorEq, Option.some.injEq] at hstep
  case test =>
    subst hstep
    split
    · exact h.move (by simp [htask, RxPc.idle]) rfl (by simp)
    · exact h.wake (by simp [htask, RxPc.idle]) (hone ‹_›)
  case check =>
    subst hstep
    split
    · exact h.move (by simp [htask, RxPc.idle]) rfl (by simp)
    · exact h.wake (by simp [htask, RxPc.idle]) (hone ‹_›)
  case place =>
    subst hstep
    exact h.move (by simp [htask, RxPc.idle]) rfl fun _ => h.asleep (by simp [htask])
  case resumeAll =>
    subst hstep
    split
    next hwaiting => exact h.move (by simp [htask, RxPc.idle]) rfl fun _ => .inl hwaiting
    next hwaiting =>
      exact h.wake (by simp [htask, RxPc.idle]) ((h.asleep (by simp [htask])).resolve_left hwaiting)
  case blocked =>
    split at hstep
    · simp at hstep
    next hwaiting =>
      cases hstep
      exact h.wake (by simp [htask, RxPc.idle]) ((h.asleep (by simp [htask])).resolve_left hwaiting)
  case take =>
    subst hstep
    exact h.take hisr htask
  case enable =>
    subst hstep
    exact h.enable hisr htask

/-- A frame arrives. -/
theorem arrive (h : s.Agrees frame) (hcleared : s.init.cleared) (frame' : Prop) :
    Agrees { s with latched := true } frame' :=
  { h with
    early := fun hnot => absurd hcleared hnot
    raised := fun hisr => ⟨rfl, (h.raised hisr).2⟩
    attended := fun _ => .inl rfl }

/-- The task has found the FIFO empty. -/
theorem done (h : s.Agrees frame) (htask : s.task = .peek) (hempty : ¬ frame) :
    Agrees { s with task := .enable } frame := by
  obtain ⟨h1, h2, h3, h4, h5, h6, h7, h8, h9, h10, h11, h12, h13, h14, h15⟩ := h
  constructor <;> simp_all

/-- Frames are taken off the FIFO by the task, in its loop. -/
theorem taken (h : s.Agrees frame) (htask : s.task = .peek) {frame' : Prop}
    (hless : frame' → frame) :
    s.Agrees frame' :=
  { h with
    early := fun hnot hframe => h.early hnot (hless hframe)
    attended := fun _ => .inr (.inr htask) }

end Irq.Agrees

/-! ## Runs -/

/-- The invariant of the careful runs. -/
structure RxSystem.Inv (s : RxSystem) : Prop where
  agrees : s.irq.Agrees s.hasFrame
  tracks : ∃ handled pending, Tracks s.rx handled pending ∧ ∀ h ∈ handled, h.frame.clean h.allocated
  fits : 4 * s.rx.dev.rxData.length ≤ rxFifoBytes

namespace RxSystem.Inv

variable {underflow : Word} {s s' : RxSystem}

theorem start : RxSystem.start.Inv := by
  refine ⟨?_, ⟨[], [], ⟨rfl, rfl, by simp, fun _ => ⟨rfl, by simp⟩⟩, by simp⟩, by decide⟩
  constructor <;> simp [RxSystem.start, hasFrame]

/-- Only the interrupt logic has moved. -/
theorem ofIrq (hinv : s.Inv) {irq : Irq} (hagrees : irq.Agrees s.hasFrame) :
    Inv { s with irq := irq } :=
  ⟨hagrees, hinv.tracks, hinv.fits⟩

/-- The task sees every frame that is in the FIFO. -/
theorem peek_pos (hinv : s.Inv) (hframe : s.hasFrame) : 0 < (peekNextPacketSize s.rx.dev).1 := by
  obtain ⟨handled, pending, htracks, hclean⟩ := hinv.tracks
  obtain ⟨hdata, -⟩ := htracks.inStep hclean
  cases pending with
  | nil => simp [hasFrame, htracks.status] at hframe
  | cons frame rest =>
      have hwords : 0 < frame.words.length := by
        have hpos := frame.nonempty
        rw [frame.occupies]
        omega
      have hlength : 0 < s.rx.dev.rxData.length := by
        rw [hdata, List.flatMap_cons, List.length_append]
        omega
      have hused : getRxfifoDataUsedSpace s.rx.dev = 4 * s.rx.dev.rxData.length := by
        have hfits := hinv.fits
        simp only [rxFifoBytes] at hfits
        rw [getRxfifoDataUsedSpace, show 0xFFFF = 2 ^ 16 - 1 from rfl,
          Nat.and_two_pow_sub_one_eq_mod]
        omega
      rw [peekNextPacketSize, if_pos (by omega)]
      simpa [htracks.status] using frame.nonempty

theorem arrive (hinv : s.Inv) {frame : Frame} (hcareful : (RxAct.arrive frame).Careful s)
    (hstep : s.step underflow (.arrive frame) = some s') : s'.Inv := by
  obtain ⟨handled, pending, htracks, hclean⟩ := hinv.tracks
  simp only [step] at hstep
  split at hstep
  next hfits =>
    obtain ⟨rx, hrx, rfl⟩ := Option.map_eq_some_iff.mp hstep
    refine ⟨hinv.agrees.arrive hcareful _, ⟨handled, _, htracks.arrive hrx, hclean⟩, ?_⟩
    cases hrx
    exact hfits
  next => simp at hstep

/-- The task takes a frame off the FIFO. -/
theorem iterate (hinv : s.Inv) {allocated : Bool} (hcareful : (RxAct.task allocated).Careful s)
    (htask : s.irq.task = .peek) {rx : Rx}
    (hrx : s.rx.step underflow (.iterate allocated) = some rx) :
    Inv { s with rx := rx } := by
  obtain ⟨handled, pending, htracks, hclean⟩ := hinv.tracks
  obtain ⟨hdata, -⟩ := htracks.inStep hclean
  obtain ⟨frame, rest, iteration, rfl, htracks'⟩ := htracks.iterate hrx
  have hthis : frame.clean allocated := hcareful frame (by simp [htracks.status]) htask
  have hclean' : ∀ h ∈ handled ++ [⟨frame, allocated, iteration⟩], h.frame.clean h.allocated := by
    intro h hh
    rcases List.mem_append.mp hh with hold | hnew
    · exact hclean h hold
    · obtain rfl := List.mem_singleton.mp hnew
      exact hthis
  obtain ⟨hdata', -⟩ := htracks'.inStep hclean'
  refine ⟨hinv.agrees.taken htask fun _ => ?_, ⟨_, rest, htracks', hclean'⟩, ?_⟩
  · simp [hasFrame, htracks.status]
  · have hfits := hinv.fits
    simp only [hdata, hdata', List.flatMap_cons, List.length_append] at hfits ⊢
    omega

theorem step (hinv : s.Inv) {act : RxAct} (hcareful : act.Careful s)
    (hstep : s.step underflow act = some s') :
    s'.Inv := by
  cases act with
  | arrive frame => exact hinv.arrive hcareful hstep
  | irq =>
      simp only [RxSystem.step] at hstep
      split at hstep
      next hraised =>
        cases hstep
        simp only [Bool.and_eq_true, Option.isNone_iff_eq_none] at hraised
        obtain ⟨⟨⟨hisr, hnvic⟩, hlatched⟩, henabled⟩ := hraised
        exact hinv.ofIrq (hinv.agrees.enter hisr hnvic hlatched henabled)
      next => simp at hstep
  | isr =>
      obtain ⟨pc, hisr, rfl⟩ := Option.map_eq_some_iff.mp hstep
      exact hinv.ofIrq (hinv.agrees.isrStep hisr)
  | init =>
      simp only [RxSystem.step] at hstep
      split at hstep
      next hisr =>
        obtain ⟨irq, hirq, rfl⟩ := Option.map_eq_some_iff.mp hstep
        exact hinv.ofIrq (hinv.agrees.initStep (Option.isNone_iff_eq_none.mp hisr) hirq)
      next => simp at hstep
  | task allocated =>
      simp only [RxSystem.step] at hstep
      split at hstep
      next hisr =>
        split at hstep
        next htask =>
          split at hstep
          next =>
            obtain ⟨rx, hrx, rfl⟩ := Option.map_eq_some_iff.mp hstep
            exact hinv.iterate hcareful htask hrx
          next hzero =>
            cases hstep
            exact hinv.ofIrq (hinv.agrees.done htask fun hframe => hzero (hinv.peek_pos hframe))
        next =>
          obtain ⟨irq, hirq, rfl⟩ := Option.map_eq_some_iff.mp hstep
          exact hinv.ofIrq (hinv.agrees.taskStep (Option.isNone_iff_eq_none.mp hisr) hirq)
      next => simp at hstep

theorem not_stranded (hinv : s.Inv) : ¬ s.Stranded := by
  rintro ⟨hinit, hframe, htask, hzero, hunarmed⟩
  refine hunarmed ⟨?_, hinv.agrees.armed (.inr (.inr hinit)) hzero (by simp [htask])
      (by simp [htask])⟩
  simpa [hzero, htask] using hinv.agrees.attended hframe

end RxSystem.Inv

/-- In every interleaving in which no frame arrives before the interrupt flags have been
cleared, and every frame is read as it was put into the FIFO, no frame is stranded. -/
theorem no_stranded_frame {underflow : Word} {s : RxSystem}
    (hreach : Lib.Reach (RxSystem.step underflow) (fun s act => act.Careful s) RxSystem.start s) :
    ¬ s.Stranded := by
  have hinv := hreach.invariant RxSystem.Inv RxSystem.Inv.start fun s act s' hinv hcareful hstep =>
    hinv.step hcareful hstep
  exact hinv.not_stranded

/-- The guard of `arrivalAfterInit`. -/
def carefulCheck (s : RxSystem) : RxAct → Bool
  | .arrive _ => s.irq.init.cleared
  | .task _ => s.irq.task ≠ .peek
  | _ => true

theorem carefulCheck_careful (s : RxSystem) (act : RxAct) (hcheck : carefulCheck s act) :
    act.Careful s := by
  cases act with
  | arrive frame => exact hcheck
  | task allocated => exact fun frame _ htask => absurd htask (by simpa [carefulCheck] using hcheck)
  | irq | isr | init => trivial

/-- A frame arrives when the task has gone to sleep. -/
def arrivalAfterInit : List RxAct :=
  [.init, .init, .init, .init, .init, .init, .task true, .task true, .task true, .task true,
    .arrive (shortFrame 1)]

theorem no_stranded_frame_asleep :
    ∃ s, Lib.execute (RxSystem.step fun _ => 0) carefulCheck RxSystem.start arrivalAfterInit =
    some s ∧ (s.irq.task, s.irq.ulNotifiedValue, s.rx.dev.rxStatus.length) = (.blocked, 0, 1) ∧
      ¬ s.Stranded := by
  have hrun :
      (Lib.execute (RxSystem.step fun _ => 0) carefulCheck RxSystem.start arrivalAfterInit).map
        (fun s => (s.irq.task, s.irq.ulNotifiedValue, s.rx.dev.rxStatus.length)) =
        some (.blocked, 0, 1) := by
    decide +kernel
  obtain ⟨s, hs, hstate⟩ := Option.map_eq_some_iff.mp hrun
  exact ⟨s, hs, hstate,
    no_stranded_frame (Lib.execute_reach carefulCheck_careful arrivalAfterInit hs)⟩

/-- A frame arrives as soon as reception is enabled. -/
def arrivalDuringInit : List RxAct :=
  [.arrive (shortFrame 1), .init, .init, .init, .init, .init, .init, .task true, .task true,
    .task true, .task true]

/-- Its status bit is cleared by `low_level_init`, and the task goes to sleep on it. -/
theorem stranded_frame : ∃ s,
    Lib.Reach (RxSystem.step fun _ => 0) (fun _ _ => True) RxSystem.start s ∧ s.Stranded := by
  have hrun :
      (Lib.execute (RxSystem.step fun _ => 0) (fun _ _ => true) RxSystem.start
        arrivalDuringInit).map (fun s =>
          (s.irq.init, s.rx.dev.rxStatus.length, s.irq.task, s.irq.ulNotifiedValue,
            s.irq.latched)) = some (.returned, 1, .blocked, 0, false) := by
    decide +kernel
  obtain ⟨s, hs, hstate⟩ := Option.map_eq_some_iff.mp hrun
  simp only [Prod.mk.injEq] at hstate
  obtain ⟨hinit, hframe, htask, hzero, hlatched⟩ := hstate
  refine ⟨s, Lib.execute_reach (fun _ _ _ => trivial) arrivalDuringInit hs, hinit, ?_, htask,
    hzero, by simp [hlatched]⟩
  exact List.ne_nil_of_length_eq_add_one hframe

end SimulatedLinux.Ethernet
