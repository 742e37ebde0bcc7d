import Mathlib.Algebra.GroupWithZero.Nat
import Mathlib.Data.List.Basic
import SimulatedLinux.Lib.Run

/-! # Receiving frames from the controller

`ethernetif_input_task` takes the length of a frame from the status FIFO of the
controller and its bytes from the data FIFO. The two FIFOs are read
independently: one word too many read for a frame is a word missing from the
next. Here every iteration of the task is compared with the frame it is for.

The device is as documented: a frame of length `L` takes `⌈L / 4⌉` words of the
data FIFO. What a read of an empty data FIFO returns is not, and is a parameter.
-/

namespace SimulatedLinux.Ethernet

/-- A `uint32_t` of the data FIFO, as its bytes in memory order. -/
abbrev Word := Fin 4 → UInt8

/-- `GET_BIT_FIELD(status, RX_FIFO_STATUS_PKT_LENGTH_MASK, RX_FIFO_STATUS_PKT_LENGTH_POS)`. -/
def packetLength (status : UInt32) : Nat := (status.toNat >>> 16) &&& 0x3FFF

/-- A frame as the controller stores it: its status word, and the words of the
data FIFO it occupies, with no offset and no padding. -/
structure Frame where
  status : UInt32
  words : List Word
  occupies : words.length = (packetLength status + 3) / 4
  nonempty : 0 < packetLength status

namespace Frame

def length (f : Frame) : Nat := packetLength f.status

/-- The bytes of the frame. -/
def bytes (f : Frame) : List UInt8 := (f.words.flatMap List.ofFn).take f.length

end Frame

/-- The receive FIFOs. The last field is history: the words read from the data
port during the current iteration of the task. -/
structure Dev where
  rxStatus : List UInt32
  rxData : List Word
  reads : List Word

section Driver

variable (underflow : Word)

/-- A read of `rx_data_port`. -/
def Dev.rxDataPort (dev : Dev) : Word × Dev :=
  (dev.rxData.headD underflow,
    { dev with
      rxData := dev.rxData.tail
      reads := dev.reads ++ [dev.rxData.headD underflow] })

/-- The loop of `empty_rx_fifo`; `size_bytes` is a multiple of four there. -/
def copyWords : Nat → Dev → List UInt8 × Dev
  | 0, dev => ([], dev)
  | count + 1, dev =>
      let (word, dev) := dev.rxDataPort underflow
      let (data, dev) := copyWords count dev
      (List.ofFn word ++ data, dev)

def emptyRxFifo (dev : Dev) (sizeBytes : Nat) : List UInt8 × Dev :=
  let remainderBytes := sizeBytes % 4
  let (data, dev) := copyWords underflow ((sizeBytes - remainderBytes) / 4) dev
  -- the last word is read even if no bytes are left over
  let (word, dev) := dev.rxDataPort underflow
  (data ++ (List.ofFn word).take remainderBytes, dev)

/-- `smsc9220_receive_by_chunks`; neither caller passes NULL. -/
def receiveByChunks (dev : Dev) (dlen : Nat) : List UInt8 × Dev :=
  emptyRxFifo underflow dev dlen

/-- `smsc9220_get_rxfifo_data_used_space`. -/
def getRxfifoDataUsedSpace (dev : Dev) : Nat := 4 * dev.rxData.length &&& 0xFFFF

/-- `smsc9220_peek_next_packet_size`, which takes the status word it reports. -/
def peekNextPacketSize (dev : Dev) : Nat × Dev :=
  if getRxfifoDataUsedSpace dev ≠ 0 then
    -- a read of the status port takes the word off its FIFO
    (packetLength (dev.rxStatus.headD 0), { dev with rxStatus := dev.rxStatus.tail })
  else (0, dev)

/-- `sizeof(drop_buf)`. -/
def dropBufSize : Nat := 64

/-- The size of the next chunk of a frame that is discarded. -/
def dropChunk (remaining : Nat) : Nat :=
  if remaining > dropBufSize then dropBufSize else remaining

theorem dropChunk_pos {remaining : Nat} (h : 0 < remaining) : 0 < dropChunk remaining := by
  unfold dropChunk dropBufSize
  split <;> omega

/-- The loop that discards a frame for which there is no `pbuf`. -/
def discard (dev : Dev) (remaining : Nat) : Dev :=
  if h : 0 < remaining then
    have : remaining - dropChunk remaining < remaining := Nat.sub_lt h (dropChunk_pos h)
    discard (receiveByChunks underflow dev (dropChunk remaining)).2
      (remaining - dropChunk remaining)
  else dev
termination_by remaining
decreasing_by exact this

/-- One iteration of `ethernetif_input_task`: the words it read, and the bytes it
passed to `netif->input`. -/
structure Iteration where
  reads : List Word
  input : Option (List UInt8)

/-- The device, and the iterations so far. -/
structure Rx where
  dev : Dev
  log : List Iteration

/-- A frame arrives, or the task goes through its loop once, with or without a
`pbuf`. -/
inductive Act
  | arrive (frame : Frame)
  | iterate (allocated : Bool)

/-- The body of the loop of `ethernetif_input_task`. -/
def inputTask (dev : Dev) (packetLen : Nat) (allocated : Bool) : Iteration × Dev :=
  if allocated then
    let (payload, dev) := receiveByChunks underflow dev packetLen
    (⟨dev.reads, some payload⟩, dev)
  else
    let dev := discard underflow dev packetLen
    (⟨dev.reads, none⟩, dev)

/-- The loop goes on as long as `smsc9220_peek_next_packet_size` reports a frame. -/
def Rx.step (rx : Rx) : Act → Option Rx
  | .arrive frame =>
      some { rx with
        dev := { rx.dev with
          rxStatus := rx.dev.rxStatus ++ [frame.status]
          rxData := rx.dev.rxData ++ frame.words } }
  | .iterate allocated =>
      let (packetLen, dev) := peekNextPacketSize rx.dev
      if 0 < packetLen then
        let (iteration, dev) := inputTask underflow { dev with reads := [] } packetLen allocated
        some ⟨dev, rx.log ++ [iteration]⟩
      else none

/-- A run from empty FIFOs. -/
def Rx.run (acts : List Act) : Option Rx :=
  Lib.execute (Rx.step underflow) (fun _ _ => true) ⟨⟨[], [], []⟩, []⟩ acts

end Driver

/-- The frames that arrive in a run. -/
def arrivals : List Act → List Frame
  | [] => []
  | .arrive frame :: acts => frame :: arrivals acts
  | .iterate _ :: acts => arrivals acts

/-- The allocations made in a run. -/
def allocations : List Act → List Bool
  | [] => []
  | .arrive _ :: acts => allocations acts
  | .iterate allocated :: acts => allocated :: allocations acts

/-- The iteration took exactly the words of the frame, and delivered its bytes. -/
def Iteration.isFor (frame : Frame) (allocated : Bool) (iteration : Iteration) : Prop :=
  iteration.reads = frame.words ∧
    iteration.input = if allocated then some frame.bytes else none

/-- Every iteration is for the frame of its number. -/
def StreamIntegrity (frames : List Frame) (allocated : List Bool) (log : List Iteration) : Prop :=
  ∀ (k : Nat) (iteration : Iteration), log[k]? = some iteration →
    ∃ frame ok, frames[k]? = some frame ∧ allocated[k]? = some ok ∧ iteration.isFor frame ok

/-- The frame has bytes in its last word, and it is discarded in one chunk only. -/
def Frame.clean (frame : Frame) (allocated : Bool) : Bool :=
  frame.length % 4 ≠ 0 ∧ (allocated ∨ frame.length < dropBufSize)

/-! ## What an iteration reads -/

section Reads

variable (underflow : Word)

/-- The words that `count` reads of the data port return. -/
def portWords : List Word → Nat → List Word
  | _, 0 => []
  | data, count + 1 => data.headD underflow :: portWords data.tail count

@[simp] theorem portWords_length (data : List Word) (count : Nat) :
    (portWords underflow data count).length = count := by
  induction count generalizing data with
  | zero => rfl
  | succ count ih => simp [portWords, ih]

theorem portWords_add (data : List Word) (m n : Nat) :
    portWords underflow data (m + n) =
      portWords underflow data m ++ portWords underflow (data.drop m) n := by
  induction m generalizing data with
  | zero => simp [portWords]
  | succ m ih => simp [Nat.succ_add, portWords, ih]

theorem portWords_append (words rest : List Word) :
    portWords underflow (words ++ rest) words.length = words := by
  induction words with
  | nil => rfl
  | cons word words ih => simp [portWords, ih]

/-- The device after `count` reads of the data port. -/
def Dev.advance (dev : Dev) (count : Nat) : Dev :=
  { dev with
    rxData := dev.rxData.drop count
    reads := dev.reads ++ portWords underflow dev.rxData count }

@[simp] theorem advance_zero (dev : Dev) : dev.advance underflow 0 = dev := by
  simp [Dev.advance, portWords]

theorem advance_add (dev : Dev) (m n : Nat) :
    (dev.advance underflow m).advance underflow n = dev.advance underflow (m + n) := by
  simp [Dev.advance, portWords_add]

theorem rxDataPort_eq (dev : Dev) :
    dev.rxDataPort underflow = (dev.rxData.headD underflow, dev.advance underflow 1) := by
  simp [Dev.rxDataPort, Dev.advance, portWords]

theorem flatMap_ofFn_length (words : List Word) :
    (words.flatMap List.ofFn).length = 4 * words.length := by
  induction words with
  | nil => rfl
  | cons word words ih =>
      simp only [List.flatMap_cons, List.length_append, List.length_ofFn, ih, List.length_cons]
      omega

theorem copyWords_eq (count : Nat) (dev : Dev) :
    copyWords underflow count dev =
      ((portWords underflow dev.rxData count).flatMap List.ofFn, dev.advance underflow count) := by
  induction count generalizing dev with
  | zero => simp [copyWords, portWords]
  | succ count ih =>
      simp only [copyWords, rxDataPort_eq, ih, advance_add]
      rw [Nat.add_comm 1 count]
      simp [Dev.advance, portWords]

/-- `empty_rx_fifo` reads one word more than there are whole words to copy, also
when there is no remainder. -/
theorem emptyRxFifo_eq (dev : Dev) (size : Nat) :
    emptyRxFifo underflow dev size =
      (((portWords underflow dev.rxData (size / 4 + 1)).flatMap List.ofFn).take size,
        dev.advance underflow (size / 4 + 1)) := by
  have hwhole : (size - size % 4) / 4 = size / 4 := by omega
  have hlength := flatMap_ofFn_length (portWords underflow dev.rxData (size / 4))
  rw [portWords_length] at hlength
  have hremainder : size - 4 * (size / 4) = size % 4 := by omega
  simp only [emptyRxFifo, copyWords_eq, rxDataPort_eq, advance_add, hwhole]
  refine Prod.ext ?_ rfl
  have hcopied : ((portWords underflow dev.rxData (size / 4)).flatMap List.ofFn).take size =
      (portWords underflow dev.rxData (size / 4)).flatMap List.ofFn :=
    List.take_of_length_le (by rw [hlength]; omega)
  simp only [portWords_add, List.flatMap_append, List.take_append, hlength, hremainder, hcopied]
  simp [portWords, Dev.advance]

/-- The words read while a frame is discarded. -/
def wordsDiscarded (remaining : Nat) : Nat :=
  if h : 0 < remaining then
    have : remaining - dropChunk remaining < remaining := Nat.sub_lt h (dropChunk_pos h)
    dropChunk remaining / 4 + 1 + wordsDiscarded (remaining - dropChunk remaining)
  else 0
termination_by remaining
decreasing_by exact this

theorem discard_eq (dev : Dev) (remaining : Nat) :
    discard underflow dev remaining = dev.advance underflow (wordsDiscarded remaining) := by
  -- on the bytes that are left, one chunk of the drop buffer at a time
  induction remaining using Nat.strongRecOn generalizing dev with
  | ind remaining ih =>
      rw [discard, wordsDiscarded]
      split
      next hpos =>
        rw [ih _ (Nat.sub_lt hpos (dropChunk_pos hpos)), receiveByChunks, emptyRxFifo_eq,
          advance_add]
      next => simp

/-- Discarding reads at least the words of the frame, and exactly those only when
the frame fits in one chunk and has a remainder. -/
theorem wordsDiscarded_eq_iff (remaining : Nat) :
    (remaining + 3) / 4 ≤ wordsDiscarded remaining ∧ (0 < remaining →
      (wordsDiscarded remaining = (remaining + 3) / 4 ↔
        remaining % 4 ≠ 0 ∧ remaining < dropBufSize)) := by
  induction remaining using Nat.strongRecOn with
  | ind remaining ih =>
      rw [wordsDiscarded]
      split
      next hpos =>
        have hrest := (ih _ (Nat.sub_lt hpos (dropChunk_pos hpos))).1
        unfold dropChunk dropBufSize at *
        split at hrest
        next hlong =>
          simp only [if_pos hlong]
          omega
        next hshort =>
          have hzero : wordsDiscarded (remaining - remaining) = 0 := by
            rw [Nat.sub_self, wordsDiscarded]
            simp
          simp only [if_neg hshort, hzero]
          omega
      next hzero => omega

/-- The words read by an iteration for a frame of this length. -/
def wordsRead (length : Nat) (allocated : Bool) : Nat :=
  if allocated then length / 4 + 1 else wordsDiscarded length

theorem wordsRead_eq_iff (frame : Frame) (allocated : Bool) :
    wordsRead frame.length allocated = frame.words.length ↔ frame.clean allocated := by
  have hpos : 0 < frame.length := frame.nonempty
  have hwords : frame.words.length = (frame.length + 3) / 4 := frame.occupies
  rw [hwords]
  cases allocated with
  | true =>
      simp only [wordsRead, Frame.clean, if_true, true_or, and_true, decide_eq_true_eq]
      omega
  | false =>
      simpa [wordsRead, Frame.clean] using (wordsDiscarded_eq_iff frame.length).2 hpos

/-- The words an iteration reads, and the bytes it delivers. -/
theorem inputTask_eq (dev : Dev) (length : Nat) (allocated : Bool) :
    inputTask underflow dev length allocated =
      (⟨(dev.advance underflow (wordsRead length allocated)).reads,
        if allocated then
          some (((portWords underflow dev.rxData (length / 4 + 1)).flatMap List.ofFn).take length)
        else none⟩, dev.advance underflow (wordsRead length allocated)) := by
  cases allocated with
  | true => simp [inputTask, receiveByChunks, emptyRxFifo_eq, wordsRead]
  | false => simp [inputTask, discard_eq, wordsRead]

end Reads

/-! ## Whole runs -/

/-- A frame that has been taken off the status FIFO, with what became of it. -/
structure Handled where
  frame : Frame
  allocated : Bool
  iteration : Iteration

/-- The state of the FIFOs after some frames have been handled and others have
arrived. The data FIFO is in step with the status FIFO as long as all handled
frames were clean. -/
structure Tracks (rx : Rx) (handled : List Handled) (pending : List Frame) : Prop where
  log : rx.log = handled.map Handled.iteration
  status : rx.dev.rxStatus = pending.map Frame.status
  count : ∀ h ∈ handled, h.iteration.reads.length = wordsRead h.frame.length h.allocated
  inStep : (∀ h ∈ handled, h.frame.clean h.allocated) →
    rx.dev.rxData = pending.flatMap Frame.words ∧
      ∀ h ∈ handled, h.iteration.isFor h.frame h.allocated

section Runs

variable {underflow : Word} {rx rx' : Rx} {handled : List Handled} {pending : List Frame}

theorem Tracks.arrive (htracks : Tracks rx handled pending) {frame : Frame}
    (hstep : rx.step underflow (.arrive frame) = some rx') :
    Tracks rx' handled (pending ++ [frame]) := by
  cases hstep
  refine ⟨htracks.log, ?_, htracks.count, fun hclean => ?_⟩
  · simp [htracks.status]
  · obtain ⟨hdata, hfor⟩ := htracks.inStep hclean
    exact ⟨by simp [hdata], hfor⟩

/-- An iteration for a clean frame at the head of the data FIFO reads that frame. -/
theorem inputTask_isFor {dev : Dev} {frame : Frame} {rest : List Word} {allocated : Bool}
    (hdata : dev.rxData = frame.words ++ rest) (hreads : dev.reads = [])
    (hclean : frame.clean allocated) :
    (inputTask underflow dev frame.length allocated).1.isFor frame allocated ∧
      (inputTask underflow dev frame.length allocated).2.rxData = rest := by
  have hcount := (wordsRead_eq_iff frame allocated).mpr hclean
  rw [inputTask_eq, hcount]
  refine ⟨⟨?_, ?_⟩, ?_⟩
  · simp [Dev.advance, hdata, hreads, portWords_append]
  · cases allocated with
    | false => rfl
    | true =>
        have hlength : frame.length / 4 + 1 = frame.words.length := by
          simpa [wordsRead] using hcount
        simp [hlength, hdata, portWords_append, Frame.bytes]
  · simp [Dev.advance, hdata]

/-- An iteration takes the first pending frame. -/
theorem Tracks.iterate (htracks : Tracks rx handled pending) {allocated : Bool}
    (hstep : rx.step underflow (.iterate allocated) = some rx') :
    ∃ frame rest iteration, pending = frame :: rest ∧
      Tracks rx' (handled ++ [⟨frame, allocated, iteration⟩]) rest := by
  unfold Rx.step peekNextPacketSize at hstep
  by_cases hspace : getRxfifoDataUsedSpace rx.dev = 0
  · simp [hspace] at hstep
  · simp only [ne_eq, hspace, not_false_eq_true, if_true] at hstep
    cases pending with
    | nil =>
        have hnone : packetLength 0 = 0 := by decide
        simp [htracks.status, hnone] at hstep
    | cons frame rest =>
        have hpos : 0 < packetLength frame.status := frame.nonempty
        simp only [htracks.status, List.map_cons, List.headD_cons, List.tail_cons, if_pos hpos,
          Option.some.injEq] at hstep
        subst hstep
        let dev : Dev := { rx.dev with rxStatus := rest.map Frame.status, reads := [] }
        refine ⟨frame, rest, (inputTask underflow dev frame.length allocated).1, rfl, ?_, ?_, ?_,
          ?_⟩
        · simp [htracks.log, dev, Frame.length]
        · rw [inputTask_eq]
          rfl
        · intro h hh
          rcases List.mem_append.mp hh with hold | hnew
          · exact htracks.count h hold
          · obtain rfl := List.mem_singleton.mp hnew
            simp [inputTask_eq, Dev.advance, dev]
        · intro hclean
          obtain ⟨hdata, hfor⟩ :=
            htracks.inStep fun h hh => hclean h (List.mem_append.mpr (.inl hh))
          have hlast : frame.clean allocated :=
            hclean ⟨frame, allocated, (inputTask underflow dev frame.length allocated).1⟩ (by simp)
          have hthis : (inputTask underflow dev frame.length allocated).1.isFor frame allocated ∧
              (inputTask underflow dev frame.length allocated).2.rxData =
                rest.flatMap Frame.words :=
            inputTask_isFor hdata rfl hlast
          refine ⟨hthis.2, fun h hh => ?_⟩
          rcases List.mem_append.mp hh with hold | hnew
          · exact hfor h hold
          · obtain rfl := List.mem_singleton.mp hnew
            exact hthis.1

/-- A run handles the frames in the order of their arrival, one for each
iteration. -/
theorem Tracks.run (htracks : Tracks rx handled pending) (acts : List Act)
    (hrun : Lib.execute (Rx.step underflow) (fun _ _ => true) rx acts = some rx') :
    ∃ handled' pending', Tracks rx' (handled ++ handled') pending' ∧
      pending ++ arrivals acts = handled'.map Handled.frame ++ pending' ∧
      allocations acts = handled'.map Handled.allocated := by
  -- the frames are handled in the order in which they came, and the words of those that wait are
  -- the contents of the FIFO
  induction acts generalizing rx handled pending with
  | nil =>
      obtain rfl := Option.some.inj hrun
      exact ⟨[], pending, by simpa using htracks, by simp [arrivals], rfl⟩
  | cons act acts ih =>
      simp only [Lib.execute, if_true] at hrun
      obtain ⟨next, hstep, hrest⟩ := Option.bind_eq_some_iff.mp hrun
      cases act with
      | arrive frame =>
          obtain ⟨handled', pending', hdone, hframes, halloc⟩ := ih (htracks.arrive hstep) hrest
          exact ⟨handled', pending', hdone, by simpa [arrivals] using hframes, halloc⟩
      | iterate allocated =>
          obtain ⟨frame, rest, iteration, rfl, hnext⟩ := htracks.iterate hstep
          obtain ⟨handled', pending', hdone, hframes, halloc⟩ := ih hnext hrest
          refine ⟨⟨frame, allocated, iteration⟩ :: handled', pending', ?_, ?_, ?_⟩
          · simpa using hdone
          · simpa [arrivals] using hframes
          · simp [allocations, halloc]

end Runs

theorem streamIntegrity_iff (handled : List Handled) (pending : List Frame) :
    StreamIntegrity (handled.map Handled.frame ++ pending) (handled.map Handled.allocated)
        (handled.map Handled.iteration) ↔
      ∀ h ∈ handled, h.iteration.isFor h.frame h.allocated := by
  constructor
  · intro hintegrity h hh
    obtain ⟨k, hk⟩ := List.mem_iff_getElem?.mp hh
    obtain ⟨frame, ok, hframe, hok, hfor⟩ := hintegrity k h.iteration (by simp [hk])
    have hlt : k < (handled.map Handled.frame).length := by
      simpa using (List.getElem?_eq_some_iff.mp hk).1
    rw [List.getElem?_append_left hlt] at hframe
    simp only [List.getElem?_map, hk, Option.map_some, Option.some.injEq] at hframe hok
    subst hframe hok
    exact hfor
  · intro hfor k iteration hk
    simp only [List.getElem?_map, Option.map_eq_some_iff] at hk
    obtain ⟨h, hk, rfl⟩ := hk
    have hlt : k < (handled.map Handled.frame).length := by
      simpa using (List.getElem?_eq_some_iff.mp hk).1
    refine ⟨h.frame, h.allocated, ?_, by simp [hk], hfor h (List.mem_of_getElem? hk)⟩
    rw [List.getElem?_append_left hlt]
    simp [hk]

/-- Every iteration consumes exactly the words of its frame, and delivers its
bytes, if and only if every frame that is taken off the FIFO has a remainder in
its last word and, where it is discarded, is shorter than one chunk. -/
theorem streamIntegrity_iff_clean {underflow : Word} {acts : List Act} {rx : Rx}
    (hrun : Rx.run underflow acts = some rx) :
    StreamIntegrity (arrivals acts) (allocations acts) rx.log ↔
      ∀ p ∈ (arrivals acts).zip (allocations acts), p.1.clean p.2 := by
  have hinit : Tracks ⟨⟨[], [], []⟩, []⟩ [] [] := ⟨rfl, rfl, by simp, by simp⟩
  obtain ⟨handled, pending, htracks, hframes, halloc⟩ := hinit.run acts hrun
  simp only [List.nil_append] at htracks hframes
  rw [hframes, halloc, htracks.log, streamIntegrity_iff]
  have hzip : (handled.map Handled.frame ++ pending).zip (handled.map Handled.allocated) =
      handled.map fun h => (h.frame, h.allocated) := by
    have happend : (handled.map Handled.frame ++ pending).zip
        (handled.map Handled.allocated ++ []) =
        (handled.map Handled.frame).zip (handled.map Handled.allocated) ++ pending.zip [] :=
      List.zip_append (by simp)
    simpa [List.zip_map'] using happend
  rw [hzip, List.forall_mem_map]
  constructor
  · intro hfor h hh
    -- the number of words read is fixed by the length, whatever the FIFO holds
    refine (wordsRead_eq_iff h.frame h.allocated).mp ?_
    rw [← htracks.count h hh, (hfor h hh).1]
  · exact fun hclean => (htracks.inStep hclean).2

/-- A frame of 64 bytes, the shortest on the wire, all with the same value. -/
def shortFrame (byte : UInt8) : Frame where
  status := 0x400000
  words := List.replicate 16 fun _ => byte
  occupies := by
    rw [List.length_replicate]
    decide
  nonempty := by decide

/-- Two frames of 64 bytes arrive and are received. -/
def shortFrames : List Act :=
  [.arrive (shortFrame 1), .arrive (shortFrame 2), .iterate true, .iterate true]

/-- The first iteration takes a word of the second frame, whose last bytes are
then read from an empty FIFO. -/
theorem streamIntegrity_shortFrames : ∃ rx, Rx.run (fun _ => 0) shortFrames = some rx ∧
    rx.log.map Iteration.input =
      [some (List.replicate 64 1), some (List.replicate 60 2 ++ List.replicate 4 0)] ∧
    ¬ StreamIntegrity (arrivals shortFrames) (allocations shortFrames) rx.log := by
  have hrun : (Rx.run (fun _ => 0) shortFrames).map (fun rx => rx.log.map Iteration.input) =
      some [some (List.replicate 64 1), some (List.replicate 60 2 ++ List.replicate 4 0)] := by
    decide +kernel
  obtain ⟨rx, hrx, hinput⟩ := Option.map_eq_some_iff.mp hrun
  refine ⟨rx, hrx, hinput, fun hintegrity => ?_⟩
  have hsecond : (rx.log.map Iteration.input)[1]? =
      some (some (List.replicate 60 2 ++ List.replicate 4 0)) := by
    rw [hinput]
    rfl
  rw [List.getElem?_map, Option.map_eq_some_iff] at hsecond
  obtain ⟨iteration, hk, hbytes⟩ := hsecond
  obtain ⟨frame, ok, hframe, hok, hfor⟩ := hintegrity 1 iteration hk
  have hframe' : shortFrame 2 = frame := Option.some.inj hframe
  have hok' : true = ok := Option.some.inj hok
  subst hframe' hok'
  rw [hfor.2] at hbytes
  exact absurd hbytes (by decide +kernel)

/-- A frame of 65 bytes. -/
def oddFrame : Frame where
  status := 0x410000
  words := List.replicate 17 fun _ => 7
  occupies := by decide
  nonempty := by decide

theorem streamIntegrity_oddFrame : ∃ rx,
    Rx.run (fun _ => 0) [.arrive oddFrame, .arrive oddFrame, .iterate true, .iterate true] =
      some rx ∧
      StreamIntegrity [oddFrame, oddFrame] [true, true] rx.log := by
  have hsome : (Rx.run (fun _ => 0)
      [.arrive oddFrame, .arrive oddFrame, .iterate true, .iterate true]).isSome := by
    decide +kernel
  obtain ⟨rx, hrx⟩ := Option.isSome_iff_exists.mp hsome
  refine ⟨rx, hrx, (streamIntegrity_iff_clean hrx).mpr ?_⟩
  decide

end SimulatedLinux.Ethernet
