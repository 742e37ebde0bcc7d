import SimulatedLinux.Ethernet.Rx

/-! # The buffer of a received frame

`ethernetif_input_task` allocates a `pbuf` for the length that the controller reports,
and reads the whole frame to its payload. `pbuf_alloc` takes one buffer of the pool, or
a chain of them where the length asks for it; the task treats both alike.
-/

namespace SimulatedLinux.Ethernet

/-- `MEM_ALIGNMENT`. -/
def memAlignment : Nat := 4

/-- `LWIP_MEM_ALIGN_SIZE`. -/
def lwipMemAlignSize (size : Nat) : Nat := (size + memAlignment - 1) / memAlignment * memAlignment

/-- `PBUF_POOL_BUFSIZE`. -/
def pbufPoolBufsize : Nat := 1514

/-- `PBUF_POOL_BUFSIZE_ALIGNED`, the size of the payload area of each buffer. -/
def pbufPoolBufsizeAligned : Nat := lwipMemAlignSize pbufPoolBufsize

/-- A `u16_t`. -/
def u16 (n : Nat) : Nat := n % 2 ^ 16

/-- A `struct pbuf` of the pool, without its links. A chain is the list of its buffers. -/
structure Pbuf where
  len : Nat
  totLen : Nat
  deriving DecidableEq

/-- The loop of `pbuf_alloc` that allocates the tail of a chain. `available` counts the
free buffers of the pool. -/
def pbufTail : Nat → Nat → Option (List Pbuf × Nat)
  | available, 0 => some ([], available)
  | 0, _ + 1 => none
  | available + 1, remLen + 1 =>
      let q : Pbuf := ⟨min (u16 (remLen + 1)) pbufPoolBufsizeAligned, u16 (remLen + 1)⟩
      (pbufTail available (remLen + 1 - q.len)).map fun (chain, available) =>
        (q :: chain, available)

/-- `pbuf_alloc(PBUF_RAW, length, PBUF_POOL)`: a raw buffer has no room for headers, so
the offset is zero. When the pool runs out, what was allocated is freed again. -/
def pbufAlloc : Nat → Nat → Option (List Pbuf × Nat)
  | 0, _ => none
  | available + 1, length =>
      let p : Pbuf := ⟨min length (pbufPoolBufsizeAligned - lwipMemAlignSize 0), length⟩
      (pbufTail available (length - p.len)).map fun (chain, available) => (p :: chain, available)

/-- What `ethernetif_input_task` writes to `p->payload`, and the chain it passes on. -/
structure Input where
  written : List UInt8
  chain : List Pbuf

section Task

variable (underflow : Word)

/-- The branch of `ethernetif_input_task` for a buffer that was allocated. `read_len` is
the length it asked for, and the head of the chain gets it as both of its lengths. -/
def inputPbuf (dev : Dev) (available packetLen : Nat) : Option (Input × Dev) :=
  match pbufAlloc available (u16 packetLen) with
  | some (p :: rest, _) =>
      let (payload, dev) := receiveByChunks underflow dev packetLen
      some (⟨payload, { p with len := u16 packetLen, totLen := u16 packetLen } :: rest⟩, dev)
  | _ => none

theorem inputPbuf_of_alloc (dev : Dev) {available packetLen rest : Nat} {p : Pbuf}
    {chain : List Pbuf} (halloc : pbufAlloc available (u16 packetLen) = some (p :: chain, rest)) :
    inputPbuf underflow dev available packetLen =
      some (⟨(receiveByChunks underflow dev packetLen).1, ⟨u16 packetLen, u16 packetLen⟩ :: chain⟩,
        (receiveByChunks underflow dev packetLen).2) := by
  simp [inputPbuf, halloc]

/-- It is the branch of the task that delivers a frame. -/
theorem inputTask_of_pbuf {dev dev' : Dev} {available packetLen : Nat} {input : Input}
    (hinput : inputPbuf underflow dev available packetLen = some (input, dev')) :
    inputTask underflow dev packetLen true = (⟨dev'.reads, some input.written⟩, dev') := by
  unfold inputPbuf at hinput
  split at hinput
  next p rest _ _ =>
    cases hinput
    rfl
  next => simp at hinput

end Task

/-- A chain whose first buffer knows the length of all of them, and each of which holds
what it says. -/
def wellFormed : List Pbuf → Prop
  | [] => False
  | p :: rest => p.totLen = ((p :: rest).map Pbuf.len).sum ∧
    ∀ q ∈ p :: rest, q.len ≤ pbufPoolBufsizeAligned

/-- The task stays inside of the first buffer, and passes a well-formed chain on. -/
def Input.Safe (input : Input) : Prop :=
  input.written.length ≤ pbufPoolBufsizeAligned ∧ wellFormed input.chain

/-- The length field of a status word has 14 bits. -/
theorem packetLength_lt (status : UInt32) : packetLength status < 2 ^ 14 := by
  have hmask : packetLength status ≤ 0x3FFF := Nat.and_le_right
  omega

theorem peekNextPacketSize_lt (dev : Dev) : (peekNextPacketSize dev).1 < 2 ^ 14 := by
  unfold peekNextPacketSize
  split
  · exact packetLength_lt _
  · exact Nat.two_pow_pos 14

theorem u16_of_lt {n : Nat} (hn : n < 2 ^ 14) : u16 n = n := Nat.mod_eq_of_lt (by omega)

section Safe

variable {underflow : Word} {dev dev' : Dev} {available packetLen : Nat} {input : Input}

/-- The reader writes the whole length. -/
theorem receiveByChunks_length (dev : Dev) (dlen : Nat) :
    (receiveByChunks underflow dev dlen).1.length = dlen := by
  rw [receiveByChunks, emptyRxFifo_eq, List.length_take, flatMap_ofFn_length, portWords_length]
  omega

theorem written_length (hinput : inputPbuf underflow dev available packetLen = some (input, dev')) :
    input.written.length = packetLen := by
  unfold inputPbuf at hinput
  split at hinput
  next p rest _ _ =>
    cases hinput
    exact receiveByChunks_length dev packetLen
  next => simp at hinput

/-- A length that one buffer holds gets one buffer. -/
theorem pbufAlloc_single (hfits : packetLen ≤ pbufPoolBufsizeAligned) (available : Nat) :
    pbufAlloc (available + 1) packetLen = some ([⟨packetLen, packetLen⟩], available) := by
  have hroom : pbufPoolBufsizeAligned - lwipMemAlignSize 0 = pbufPoolBufsizeAligned := rfl
  have hlen : min packetLen pbufPoolBufsizeAligned = packetLen := Nat.min_eq_left hfits
  simp [pbufAlloc, hroom, hlen, pbufTail]

/-- The buffer of a received frame is safe if and only if one buffer of the pool holds
the length that the controller reports, which counts the check sequence of the frame. -/
theorem rx_buffer_safe_iff (hpeek : (peekNextPacketSize dev).1 = packetLen)
    (hinput : inputPbuf underflow (peekNextPacketSize dev).2 available packetLen =
      some (input, dev')) :
    input.Safe ↔ packetLen ≤ pbufPoolBufsizeAligned := by
  have hlength := written_length hinput
  have hlt : packetLen < 2 ^ 14 := hpeek ▸ peekNextPacketSize_lt dev
  constructor
  · intro hsafe
    rw [← hlength]
    exact hsafe.1
  · intro hfits
    refine ⟨hlength ▸ hfits, ?_⟩
    unfold inputPbuf at hinput
    rw [u16_of_lt hlt] at hinput
    cases available with
    | zero => simp [pbufAlloc] at hinput
    | succ available =>
        rw [pbufAlloc_single hfits] at hinput
        cases hinput
        simpa [wellFormed] using hfits

end Safe

/-- The controller after the arrival of a frame. -/
def arrived (status : UInt32) (words : Nat) : Dev := ⟨[status], List.replicate words fun _ => 0, []⟩

theorem rx_buffer_safe_iff_short : ∃ (input : Input) (dev' : Dev),
    inputPbuf (fun _ => 0) (peekNextPacketSize (arrived 0x003C0000 15)).2 8 60 =
      some (input, dev') ∧
      input.Safe := by
  have hpeek : (peekNextPacketSize (arrived 0x003C0000 15)).1 = 60 := by decide
  have halloc : pbufAlloc 8 (u16 60) = some ([⟨60, 60⟩], 7) := by decide
  have hinput :=
    inputPbuf_of_alloc (fun _ => 0) (peekNextPacketSize (arrived 0x003C0000 15)).2 halloc
  exact ⟨_, _, hinput, (rx_buffer_safe_iff hpeek hinput).mpr (by decide)⟩

/-- An Ethernet frame of 1514 bytes is reported with its check sequence. It gets a chain,
and is written beyond the first buffer. -/
theorem rx_buffer_overrun : ∃ (input : Input) (dev' : Dev),
    (peekNextPacketSize (arrived 0x05EE0000 380)).1 = 1518 ∧
    inputPbuf (fun _ => 0) (peekNextPacketSize (arrived 0x05EE0000 380)).2 8 1518 =
      some (input, dev') ∧
    pbufPoolBufsizeAligned < input.written.length ∧ ¬ wellFormed input.chain := by
  have hpeek : (peekNextPacketSize (arrived 0x05EE0000 380)).1 = 1518 := by
    have hspace : getRxfifoDataUsedSpace (arrived 0x05EE0000 380) ≠ 0 := by
      rw [getRxfifoDataUsedSpace, arrived, List.length_replicate]
      decide
    rw [peekNextPacketSize, if_pos hspace]
    rfl
  have halloc : pbufAlloc 8 (u16 1518) = some ([⟨1516, 1518⟩, ⟨2, 2⟩], 6) := by decide
  have hinput :=
    inputPbuf_of_alloc (fun _ => 0) (peekNextPacketSize (arrived 0x05EE0000 380)).2 halloc
  refine ⟨_, _, hpeek, hinput, ?_, fun hformed => ?_⟩
  · rw [written_length hinput]
    decide
  · -- the lengths of the two buffers are 1518 and 2
    have hsum := hformed.1
    simp [u16] at hsum

end SimulatedLinux.Ethernet
