import Mathlib.Data.BitVec
import Mathlib.Data.List.Basic
import Mathlib.Tactic.IntervalCases

/-! # Sending frames to the controller

`low_level_output` writes each `pbuf` of a chain to the TX data port as a segment of its
own: two command words, and the bytes behind a filler that makes up whole words. The
first and the last segment of the frame are marked in command A.
-/

namespace SimulatedLinux.Ethernet

abbrev Byte := BitVec 8

/-- A `uint32_t` of the TX data port. -/
abbrev PortWord := BitVec 32

/-- The `uint32_t` with these bytes in memory. -/
def wordOf (b₀ b₁ b₂ b₃ : Byte) : PortWord :=
  b₀.setWidth 32 ||| b₁.setWidth 32 <<< 8 ||| b₂.setWidth 32 <<< 16 ||| b₃.setWidth 32 <<< 24

def wordBytes (w : PortWord) : List Byte :=
  [w.extractLsb' 0 8, w.extractLsb' 8 8, w.extractLsb' 16 8, w.extractLsb' 24 8]

/-! ## The driver -/

/-- One call of `smsc9220_send_by_chunks` that wrote to the port, with the free space of
the FIFO before it. -/
structure Chunk where
  room : Nat
  words : List PortWord

/-- The driver's data, the free space of the TX data FIFO in bytes, and the writes so
far. -/
structure TxDev where
  ongoingPacketLength : Nat
  ongoingPacketLengthSent : Nat
  txFifoFree : Nat
  written : List Chunk

inductive SmscError
  | none
  | param
  | internal
  deriving DecidableEq, Repr

/-- The loop of `fill_tx_fifo`; `size_bytes` is a multiple of four there. -/
def dataWords : List Byte → List PortWord
  | b₀ :: b₁ :: b₂ :: b₃ :: data => wordOf b₀ b₁ b₂ b₃ :: dataWords data
  | _ => []

/-- The first word of `fill_tx_fifo`: the filler, and the bytes that are left over. -/
def fillerWord (data : List Byte) : PortWord :=
  let fillerBytes := 4 - data.length % 4
  let byte (i : Nat) : Byte := if i < fillerBytes then 0 else data.getD (i - fillerBytes) 0
  wordOf (byte 0) (byte 1) (byte 2) (byte 3)

/-- The words that `fill_tx_fifo` writes. -/
def fillTxFifo (data : List Byte) : List PortWord :=
  fillerWord data :: dataWords (data.drop (data.length % 4))

def setBit (w : PortWord) (index : Nat) : PortWord := w ||| (1#32 <<< index)

def setBitField (w mask : PortWord) (offset : Nat) (value : PortWord) : PortWord :=
  w ||| ((value &&& mask) <<< offset)

def txCmdPktLenBytesMask : PortWord := 0x7FF

def txCmdDataStartOffsetBytesMask : PortWord := 0x1F

def txCmdPktTagMask : PortWord := 0xFFFF

def txcmdA (isFirstSegment isLastSegment : Bool) (currentSize : Nat) : PortWord :=
  let w : PortWord := 0
  let w := if isLastSegment then setBit w 12 else w
  let w := if isFirstSegment then setBit w 13 else w
  let w := setBitField w txCmdPktLenBytesMask 0 (BitVec.ofNat 32 currentSize)
  setBitField w txCmdDataStartOffsetBytesMask 16 (BitVec.ofNat 32 (4 - currentSize % 4))

def txcmdB (currentSize : Nat) : PortWord :=
  let w : PortWord := setBitField 0 txCmdPktLenBytesMask 0 (BitVec.ofNat 32 currentSize)
  -- the tag is the size of the segment too
  setBitField w txCmdPktTagMask 16 (BitVec.ofNat 32 currentSize)

/-- The words of one chunk. -/
def segmentWords (isFirstSegment isLastSegment : Bool) (data : List Byte) : List PortWord :=
  txcmdA isFirstSegment isLastSegment data.length :: txcmdB data.length :: fillTxFifo data

namespace TxDev

/-- The device sends what it has been given, which makes room. -/
def drain (dev : TxDev) (bytes : Nat) : TxDev := { dev with txFifoFree := dev.txFifoFree + bytes }

/-- Words are written to `tx_data_port`. -/
def write (dev : TxDev) (words : List PortWord) : TxDev :=
  { dev with
    txFifoFree := dev.txFifoFree - 4 * words.length
    written := dev.written ++ [⟨dev.txFifoFree, words⟩] }

/-- `smsc9220_send_by_chunks` from its check of the free space on. -/
def sendChunk (dev : TxDev) (totalPayloadLength : Nat) (isFirstSegment : Bool) (data : List Byte) :
    SmscError × TxDev :=
  let currentSize := data.length
  -- the commands and the filler are not counted
  if dev.txFifoFree < currentSize then (.internal, dev)
  else
    let isLastSegment : Bool := dev.ongoingPacketLengthSent + currentSize = totalPayloadLength
    let dev := dev.write (segmentWords isFirstSegment isLastSegment data)
    (.none, { dev with ongoingPacketLengthSent := dev.ongoingPacketLengthSent + currentSize })

/-- `smsc9220_send_by_chunks`. The data pointer may be NULL. -/
def sendByChunks (dev : TxDev) (totalPayloadLength : Nat) (isNewPacket : Bool)
    (data : Option (List Byte)) :
    SmscError × TxDev :=
  match data with
  | none => (.param, dev)
  | some data =>
      if isNewPacket then
        { dev with
          ongoingPacketLength := totalPayloadLength
          ongoingPacketLengthSent := 0 }.sendChunk totalPayloadLength true data
      else if dev.ongoingPacketLength ≠ totalPayloadLength ∨
          totalPayloadLength ≤ dev.ongoingPacketLengthSent then
        (.param, dev)
      else dev.sendChunk totalPayloadLength false data

/-- The loop of `low_level_output`: whether it came to the end of the chain. The device
drains `drains i` bytes behind the chunk of that number. -/
def outputLoop (totalLen : Nat) (drains : Nat → Nat) :
    Bool → TxDev → List (List Byte) → Bool × TxDev
  | _, dev, [] => (true, dev)
  | isStart, dev, q :: rest =>
      match dev.sendByChunks totalLen isStart (some q) with
      | (.none, dev) =>
          outputLoop totalLen (fun i => drains (i + 1)) false (dev.drain (drains 0)) rest
      | (_, dev) => (false, dev)

/-- `low_level_output`, for a chain with these payloads: `true` for `ERR_OK`, and `false`
for `ERR_IF`. -/
def lowLevelOutput (dev : TxDev) (totLen : Nat) (drains : Nat → Nat) (chain : List (List Byte)) :
    Bool × TxDev :=
  outputLoop totLen drains true dev chain

end TxDev

/-! ## The device -/

/-- A segment of a frame as the device reads it. -/
structure Segment where
  first : Bool
  last : Bool
  /-- The packet length of command B. -/
  packetLength : Nat
  bytes : List Byte
  deriving DecidableEq

/-- Command A, command B, and the words of a buffer, of which the offset is skipped. -/
def decodeSegments : Nat → List PortWord → Option (List Segment)
  | _, [] => some []
  | fuel + 1, a :: b :: words =>
      let size := (a &&& 0x7FF).toNat
      let offset := ((a >>> 16) &&& 0x1F).toNat
      let count := (offset + size + 3) / 4
      if count ≤ words.length then
        (decodeSegments fuel (words.drop count)).map fun segments =>
          ⟨a.getLsbD 13, a.getLsbD 12, (b &&& 0x7FF).toNat,
            (((words.take count).flatMap wordBytes).drop offset).take size⟩ :: segments
      else none
  | _, _ => none

/-- The segments in the words that have been written. -/
def decode (words : List PortWord) : Option (List Segment) := decodeSegments words.length words

/-- The segments are one frame with these bytes. -/
structure IsFrame (payload : List Byte) (segments : List Segment) : Prop where
  first : ∀ i seg, segments[i]? = some seg → (seg.first ↔ i = 0)
  last : ∀ i seg, segments[i]? = some seg → (seg.last ↔ i + 1 = segments.length)
  nonempty : segments ≠ []
  bytes : segments.flatMap Segment.bytes = payload

/-! ## Words and commands -/

@[simp] theorem wordBytes_wordOf (b₀ b₁ b₂ b₃ : Byte) :
    wordBytes (wordOf b₀ b₁ b₂ b₃) = [b₀, b₁, b₂, b₃] := by
  simp only [wordBytes, wordOf, List.cons.injEq, and_true]
  refine ⟨?_, ?_, ?_, ?_⟩ <;>
    · apply BitVec.eq_of_getLsbD_eq
      intro i hi
      interval_cases i <;> simp

theorem and_lenMask (n : Nat) : n &&& 2047 = n % 2 ^ 11 := Nat.and_two_pow_sub_one_eq_mod n 11

theorem and_offsetMask (n : Nat) : n &&& 31 = n % 2 ^ 5 := Nat.and_two_pow_sub_one_eq_mod n 5

/-- Fields that do not overlap are added. -/
theorem or_shift {n i : Nat} (hn : n < 2 ^ i) (k : Nat) : n ||| k <<< i = n + k * 2 ^ i := by
  rw [Nat.or_comm, ← Nat.shiftLeft_add_eq_or_of_lt hn, Nat.shiftLeft_eq, Nat.add_comm]

section Commands

variable {size : Nat} (first last : Bool)

/-- The two flags of command A. -/
def segmentFlags : Nat := 2 * first.toNat + last.toNat

theorem segmentFlags_lt : segmentFlags first last < 4 := by
  cases first <;> cases last <;> decide

theorem txcmdA_toNat (hsize : size < 2 ^ 11) :
    (txcmdA first last size).toNat =
      size + segmentFlags first last * 2 ^ 12 + (4 - size % 4) * 2 ^ 16 := by
  have hflags :
      (if first then setBit (if last then setBit 0 12 else 0) 13
        else if last then setBit 0 12 else 0) =
      (BitVec.ofNat 32 (segmentFlags first last <<< 12) : PortWord) := by
    cases first <;> cases last <;> decide
  have hlt := segmentFlags_lt first last
  have hflag : segmentFlags first last <<< 12 % 2 ^ 32 = segmentFlags first last <<< 12 := by
    rw [Nat.shiftLeft_eq]
    omega
  have hshift : (4 - size % 4) <<< 16 % 2 ^ 32 = (4 - size % 4) <<< 16 := by
    rw [Nat.shiftLeft_eq]
    omega
  have hmod : (4 - size % 4) % 2 ^ 32 = 4 - size % 4 := by omega
  have hlen : (size % 2 ^ 32 &&& txCmdPktLenBytesMask.toNat) <<< 0 % 2 ^ 32 = size := by
    rw [show txCmdPktLenBytesMask.toNat = 2047 from rfl, and_lenMask, Nat.shiftLeft_zero]
    omega
  have hoffset : 4 - size % 4 &&& txCmdDataStartOffsetBytesMask.toNat = 4 - size % 4 := by
    rw [show txCmdDataStartOffsetBytesMask.toNat = 31 from rfl, and_offsetMask]
    omega
  simp only [txcmdA, hflags, setBitField, BitVec.toNat_or, BitVec.toNat_shiftLeft, BitVec.toNat_and,
    BitVec.toNat_ofNat, hflag, hmod, hlen, hoffset, hshift]
  have hlow : size < 2 ^ 12 := by omega
  have hboth : size + segmentFlags first last * 2 ^ 12 < 2 ^ 16 := by omega
  rw [Nat.or_comm _ size, or_shift hlow, or_shift hboth]

theorem txcmdA_size (hsize : size < 2 ^ 11) : (txcmdA first last size &&& 0x7FF).toNat = size := by
  rw [BitVec.toNat_and, txcmdA_toNat first last hsize, show (0x7FF : PortWord).toNat = 2047
      from rfl, and_lenMask]
  omega

theorem txcmdA_offset (hsize : size < 2 ^ 11) :
    ((txcmdA first last size >>> 16) &&& 0x1F).toNat = 4 - size % 4 := by
  have hlt := segmentFlags_lt first last
  rw [BitVec.toNat_and, BitVec.toNat_ushiftRight, txcmdA_toNat first last hsize,
    show (0x1F : PortWord).toNat = 31 from rfl, and_offsetMask, Nat.shiftRight_eq_div_pow,
    Nat.add_mul_div_right _ _ (by decide), Nat.div_eq_of_lt (by omega)]
  omega

theorem txcmdA_first : (txcmdA first last size).getLsbD 13 = first := by
  cases first <;> cases last <;>
    simp [txcmdA, setBit, setBitField, txCmdPktLenBytesMask, txCmdDataStartOffsetBytesMask]

theorem txcmdA_last : (txcmdA first last size).getLsbD 12 = last := by
  cases first <;> cases last <;>
    simp [txcmdA, setBit, setBitField, txCmdPktLenBytesMask, txCmdDataStartOffsetBytesMask]

theorem txcmdB_packetLength (hsize : size < 2 ^ 11) : (txcmdB size &&& 0x7FF).toNat = size := by
  have hlen : (size % 2 ^ 32 &&& txCmdPktLenBytesMask.toNat) <<< 0 % 2 ^ 32 = size := by
    rw [show txCmdPktLenBytesMask.toNat = 2047 from rfl, and_lenMask, Nat.shiftLeft_zero]
    omega
  have htag : (size % 2 ^ 32 &&& txCmdPktTagMask.toNat) <<< 16 % 2 ^ 32 = size <<< 16 := by
    rw [show txCmdPktTagMask.toNat = 2 ^ 16 - 1 from rfl, Nat.and_two_pow_sub_one_eq_mod,
      Nat.shiftLeft_eq, Nat.shiftLeft_eq]
    omega
  simp only [txcmdB, setBitField, BitVec.toNat_and, BitVec.toNat_or, BitVec.toNat_shiftLeft,
    BitVec.toNat_ofNat, hlen, htag]
  rw [show (0x7FF : PortWord).toNat = 2047 from rfl, and_lenMask, show (0 : PortWord).toNat = 0
      from rfl, Nat.zero_or,
    or_shift (by omega)]
  omega

end Commands

/-! ## Data -/

theorem dataWords_length : ∀ data : List Byte, (dataWords data).length = data.length / 4
  | b₀ :: b₁ :: b₂ :: b₃ :: data => by
      simp only [dataWords, List.length_cons, dataWords_length data]
      omega
  | [] | [_] | [_, _] | [_, _, _] => by simp [dataWords]

theorem dataWords_bytes :
    ∀ data : List Byte, 4 ∣ data.length → (dataWords data).flatMap wordBytes = data
  | b₀ :: b₁ :: b₂ :: b₃ :: data, hdvd => by
      have hrest : 4 ∣ data.length := by simpa [Nat.dvd_add_left] using hdvd
      simp [dataWords, dataWords_bytes data hrest]
  | [], _ => rfl
  | [_], hdvd | [_, _], hdvd | [_, _, _], hdvd => by simp at hdvd

theorem fillTxFifo_length (data : List Byte) : (fillTxFifo data).length = data.length / 4 + 1 := by
  simp only [fillTxFifo, List.length_cons, dataWords_length, List.length_drop]
  omega

theorem fillerWord_bytes (data : List Byte) :
    wordBytes (fillerWord data) = List.replicate (4 - data.length % 4) 0 ++
      data.take (data.length % 4) := by
  have hle : data.length % 4 ≤ data.length := Nat.mod_le ..
  have hlt : data.length % 4 < 4 := Nat.mod_lt _ (by decide)
  simp only [fillerWord, wordBytes_wordOf]
  generalize data.length % 4 = r at hle hlt
  interval_cases r
  · simp
  · match data, hle with
    | b₀ :: _, _ => simp [List.replicate]
  · match data, hle with
    | b₀ :: b₁ :: _, _ => simp [List.replicate]
  · match data, hle with
    | b₀ :: b₁ :: b₂ :: _, _ => simp

/-- What is written for a chunk is its bytes behind the filler. -/
theorem fillTxFifo_bytes (data : List Byte) :
    (fillTxFifo data).flatMap wordBytes = List.replicate (4 - data.length % 4) 0 ++ data := by
  have hdvd : 4 ∣ (data.drop (data.length % 4)).length := by
    rw [List.length_drop]
    exact Nat.dvd_sub_mod data.length
  rw [fillTxFifo, List.flatMap_cons, fillerWord_bytes, dataWords_bytes _ hdvd, List.append_assoc,
    List.take_append_drop]

theorem segmentWords_length (first last : Bool) (data : List Byte) :
    (segmentWords first last data).length = data.length / 4 + 3 := by
  simp [segmentWords, fillTxFifo_length]

/-- The device reads a chunk back as it was. -/
theorem decodeSegments_cons {data : List Byte} (hsize : data.length < 2 ^ 11)
    (first last : Bool) (fuel : Nat) (words : List PortWord) :
    decodeSegments (fuel + 1) (segmentWords first last data ++ words) =
      (decodeSegments fuel words).map (⟨first, last, data.length, data⟩ :: ·) := by
  have hcount : (4 - data.length % 4 + data.length + 3) / 4 = (fillTxFifo data).length := by
    rw [fillTxFifo_length]
    omega
  have hroom : (fillTxFifo data).length ≤ (fillTxFifo data ++ words).length := by simp
  have hbytes :
      ((List.replicate (4 - data.length % 4) (0 : Byte) ++ data).drop (4 - data.length % 4)).take
        data.length = data := by
    rw [List.drop_left' (List.length_replicate ..), List.take_length]
  simp only [segmentWords, List.cons_append, decodeSegments, txcmdA_size first last hsize,
    txcmdA_offset first last hsize, txcmdA_first, txcmdA_last, txcmdB_packetLength hsize, hcount,
    if_pos hroom,
    List.take_left, List.drop_left, fillTxFifo_bytes, hbytes]

/-! ## What a call writes -/

/-- The chunks of a chain, if each of them is written: `sent` bytes of the frame have
been written before, and `free` bytes of the FIFO are free. -/
def chunksOf (totalLen : Nat) : (Nat → Nat) → Nat → Bool → Nat → List (List Byte) → List Chunk
  | _, _, _, _, [] => []
  | drains, free, isStart, sent, q :: rest =>
      let words := segmentWords isStart (sent + q.length = totalLen) q
      ⟨free, words⟩ ::
      chunksOf totalLen (fun i => drains (i + 1)) (free - 4 * words.length + drains 0) false
        (sent + q.length) rest

/-- The bytes of the frame are complete with the last chunk and not before. -/
def Proper (totalLen : Nat) : Nat → List (List Byte) → Prop
  | _, [] => True
  | sent, q :: rest => (rest ≠ [] → sent + q.length < totalLen) ∧
    Proper totalLen (sent + q.length) rest

namespace TxDev

variable {totalLen : Nat} {drains : Nat → Nat} {dev : TxDev} {q : List Byte}
  {rest chain : List (List Byte)}

/-- The driver's record of the frame at the start of a chunk. -/
def begin (dev : TxDev) (totalLen : Nat) (isStart : Bool) : TxDev :=
  if isStart then { dev with ongoingPacketLength := totalLen, ongoingPacketLengthSent := 0 }
  else dev

/-- A chunk is refused where its frame is complete, or its bytes have no room. -/
def Refused (dev : TxDev) (totalLen : Nat) (isStart : Bool) (q : List Byte) : Prop :=
  (isStart = false ∧
      (dev.ongoingPacketLength ≠ totalLen ∨ totalLen ≤ dev.ongoingPacketLengthSent)) ∨
    dev.txFifoFree < q.length

/-- The loop stops at a chunk that is refused, and leaves the writes as they were. -/
theorem outputLoop_refused {isStart : Bool} (hrefused : dev.Refused totalLen isStart q) :
    (outputLoop totalLen drains isStart dev (q :: rest)).1 = false ∧
      (outputLoop totalLen drains isStart dev (q :: rest)).2.written = dev.written := by
  cases isStart with
  | true =>
      have hroom : dev.txFifoFree < q.length := by simpa [Refused] using hrefused
      simp [outputLoop, sendByChunks, sendChunk, hroom]
  | false =>
      by_cases hparam : dev.ongoingPacketLength ≠ totalLen ∨ totalLen ≤ dev.ongoingPacketLengthSent
      · simp [outputLoop, sendByChunks, if_pos hparam]
      · have hroom : dev.txFifoFree < q.length := by simpa [Refused, hparam] using hrefused
        simp [outputLoop, sendByChunks, if_neg hparam, sendChunk, hroom]

/-- What a chunk that is written does, and the drain behind it. -/
def accept (dev : TxDev) (totalLen : Nat) (isStart : Bool) (q : List Byte) (drained : Nat) :
    TxDev :=
  let dev := dev.begin totalLen isStart
  let words := segmentWords isStart (dev.ongoingPacketLengthSent + q.length = totalLen) q
  { dev with
    ongoingPacketLengthSent := dev.ongoingPacketLengthSent + q.length
    txFifoFree := dev.txFifoFree - 4 * words.length + drained
    written := dev.written ++ [⟨dev.txFifoFree, words⟩] }

@[simp] theorem begin_false (dev : TxDev) (totalLen : Nat) : dev.begin totalLen false = dev := rfl

@[simp] theorem begin_txFifoFree (dev : TxDev) (totalLen : Nat) (isStart : Bool) :
    (dev.begin totalLen isStart).txFifoFree = dev.txFifoFree := by
  cases isStart <;> rfl

/-- The chunk itself is the next write. -/
theorem accept_written (dev : TxDev) (totalLen : Nat) (isStart : Bool) (q : List Byte)
    (drained : Nat) :
    (dev.accept totalLen isStart q drained).written =
      dev.written ++
        [⟨dev.txFifoFree, segmentWords isStart
          ((dev.begin totalLen isStart).ongoingPacketLengthSent + q.length = totalLen) q⟩] := by
  cases isStart <;> rfl

theorem outputLoop_accepted {isStart : Bool} (haccepted : ¬ dev.Refused totalLen isStart q) :
    outputLoop totalLen drains isStart dev (q :: rest) =
      outputLoop totalLen (fun i => drains (i + 1)) false
        (dev.accept totalLen isStart q (drains 0)) rest := by
  obtain ⟨hparam, hroom⟩ := not_or.mp haccepted
  cases isStart with
  | true => simp [outputLoop, sendByChunks, sendChunk, hroom, accept, begin, write, drain]
  | false =>
      have hparam' :
          ¬ (dev.ongoingPacketLength ≠ totalLen ∨ totalLen ≤ dev.ongoingPacketLengthSent) :=
        fun h => hparam ⟨rfl, h⟩
      simp [outputLoop, sendByChunks, if_neg hparam', sendChunk, hroom, accept, begin, write, drain]

/-- Writes are only added. -/
theorem outputLoop_prefix (isStart : Bool) :
    ∃ more, (outputLoop totalLen drains isStart dev chain).2.written = dev.written ++ more := by
  -- on the chain; each chunk that is accepted has been written in full
  induction chain generalizing dev drains isStart with
  | nil => exact ⟨[], by simp [outputLoop]⟩
  | cons q rest ih =>
      by_cases hrefused : dev.Refused totalLen isStart q
      · exact ⟨[], by simp [(outputLoop_refused hrefused).2]⟩
      · rw [outputLoop_accepted hrefused]
        obtain ⟨more, hmore⟩ :=
          @ih (fun i => drains (i + 1)) (dev.accept totalLen isStart q (drains 0)) false
        rw [hmore, accept_written, List.append_assoc]
        exact ⟨_, rfl⟩

/-- A call that succeeds has written every chunk, and the frame was not complete before
the last. -/
theorem outputLoop_ok {isStart : Bool}
    (hok : (outputLoop totalLen drains isStart dev chain).1 = true) :
    (outputLoop totalLen drains isStart dev chain).2.written = dev.written ++
        chunksOf totalLen drains dev.txFifoFree isStart
          (dev.begin totalLen isStart).ongoingPacketLengthSent chain ∧
      Proper totalLen (dev.begin totalLen isStart).ongoingPacketLengthSent chain ∧
      (isStart = false → chain ≠ [] → dev.ongoingPacketLengthSent < totalLen) := by
  induction chain generalizing dev drains isStart with
  | nil => simp [outputLoop, chunksOf, Proper]
  | cons q rest ih =>
      by_cases hrefused : dev.Refused totalLen isStart q
      · simp [(outputLoop_refused hrefused).1] at hok
      · rw [outputLoop_accepted hrefused] at hok ⊢
        obtain ⟨hwritten, hproper, hopen⟩ := ih hok
        refine ⟨?_, ⟨hopen rfl, hproper⟩, fun hstart _ => ?_⟩
        · rw [hwritten, accept_written]
          simp [accept, chunksOf]
        · by_contra hsent
          exact hrefused (.inl ⟨hstart, .inr (Nat.le_of_not_lt hsent)⟩)

/-- A chain whose chunks all have room is written, if its frame is complete with its last
chunk and not before. -/
theorem outputLoop_fits {isStart : Bool}
    (hroom : ∀ c ∈ chunksOf totalLen drains dev.txFifoFree isStart
      (dev.begin totalLen isStart).ongoingPacketLengthSent chain, 4 * c.words.length ≤ c.room)
    (hproper : Proper totalLen (dev.begin totalLen isStart).ongoingPacketLengthSent chain)
    (hopen : isStart = false → dev.ongoingPacketLength = totalLen ∧
      (chain ≠ [] → dev.ongoingPacketLengthSent < totalLen)) :
    (outputLoop totalLen drains isStart dev chain).1 = true := by
  -- a chunk counts for more words than the check of the driver asks for
  induction chain generalizing dev drains isStart with
  | nil => rfl
  | cons q rest ih =>
      obtain ⟨hfirst, hrest⟩ := List.forall_mem_cons.mp hroom
      have hrefused : ¬ dev.Refused totalLen isStart q := by
        rintro (⟨hstart, hparam⟩ | hfull)
        · obtain ⟨hlength, hsent⟩ := hopen hstart
          exact hparam.elim (absurd hlength) (Nat.not_le.mpr (hsent (by simp)))
        · simp only [segmentWords_length] at hfirst
          omega
      rw [outputLoop_accepted hrefused]
      refine ih ?_ hproper.2 fun _ => ⟨?_, hproper.1⟩
      · simpa [accept] using hrest
      · cases isStart with
        | true => rfl
        | false => exact (hopen rfl).1

end TxDev

/-! ## Round trip -/

/-- The segments of a chain. -/
def segmentsOf (totalLen : Nat) : Bool → Nat → List (List Byte) → List Segment
  | _, _, [] => []
  | isStart, sent, q :: rest =>
      ⟨isStart, sent + q.length = totalLen, q.length, q⟩ ::
        segmentsOf totalLen false (sent + q.length) rest

/-- The number of bytes in a chain. -/
def chainLength (chain : List (List Byte)) : Nat := (chain.map List.length).sum

@[simp] theorem chainLength_cons (q : List Byte) (rest : List (List Byte)) :
    chainLength (q :: rest) = q.length + chainLength rest := rfl

theorem length_le_chainLength {q : List Byte} {chain : List (List Byte)} (hq : q ∈ chain) :
    q.length ≤ chainLength chain := by
  induction chain with
  | nil => simp at hq
  | cons r rest ih =>
      rw [chainLength_cons]
      rcases List.mem_cons.mp hq with rfl | hq
      · exact Nat.le_add_right ..
      · exact Nat.le_trans (ih hq) (Nat.le_add_left ..)

section Segments

variable {totalLen : Nat} {chain : List (List Byte)}

theorem segmentsOf_length (isStart : Bool) (sent : Nat) :
    (segmentsOf totalLen isStart sent chain).length = chain.length := by
  induction chain generalizing isStart sent with
  | nil => rfl
  | cons q rest ih => simp [segmentsOf, ih]

theorem segmentsOf_bytes (isStart : Bool) (sent : Nat) :
    (segmentsOf totalLen isStart sent chain).flatMap Segment.bytes = chain.flatten := by
  induction chain generalizing isStart sent with
  | nil => rfl
  | cons q rest ih => simp [segmentsOf, ih]

theorem segmentsOf_not_first {sent : Nat} {seg : Segment}
    (hseg : seg ∈ segmentsOf totalLen false sent chain) :
    seg.first = false := by
  induction chain generalizing sent with
  | nil => simp [segmentsOf] at hseg
  | cons q rest ih =>
      rcases List.mem_cons.mp hseg with rfl | hseg
      · rfl
      · exact ih hseg

theorem segmentsOf_last {sent : Nat} (isStart : Bool) (hproper : Proper totalLen sent chain)
    (htotal : sent + chainLength chain = totalLen) {i : Nat} {seg : Segment}
    (hseg : (segmentsOf totalLen isStart sent chain)[i]? = some seg) :
    seg.last ↔ i + 1 = chain.length := by
  induction chain generalizing isStart sent i with
  | nil => simp [segmentsOf] at hseg
  | cons q rest ih =>
      cases i with
      | zero =>
          simp only [segmentsOf, List.getElem?_cons_zero, Option.some.injEq] at hseg
          subst hseg
          cases rest with
          | nil => simpa [chainLength] using htotal
          | cons r rest =>
              have hopen := hproper.1 (by simp)
              simp only [decide_eq_true_eq, List.length_cons]
              omega
      | succ i =>
          simp only [segmentsOf, List.getElem?_cons_succ] at hseg
          rw [ih false hproper.2 (by rw [← htotal, chainLength_cons]; omega) hseg]
          simp

theorem decodeSegments_chunksOf {drains : Nat → Nat} {free fuel : Nat} (isStart : Bool) (sent : Nat)
    (hsize : ∀ q ∈ chain, q.length < 2 ^ 11) (hfuel : chain.length ≤ fuel) :
    decodeSegments fuel ((chunksOf totalLen drains free isStart sent chain).flatMap Chunk.words) =
      some (segmentsOf totalLen isStart sent chain) := by
  -- the decoder takes off one segment, and what was sent before it only decides its flags
  induction chain generalizing drains free fuel isStart sent with
  | nil => cases fuel <;> rfl
  | cons q rest ih =>
      rw [List.forall_mem_cons] at hsize
      obtain ⟨fuel, rfl⟩ : ∃ n, fuel = n + 1 :=
        Nat.exists_eq_add_one.mpr (Nat.lt_of_lt_of_le (by simp) hfuel)
      simp only [chunksOf, List.flatMap_cons, decodeSegments_cons hsize.1]
      rw [ih false _ hsize.2 (Nat.le_of_succ_le_succ hfuel)]
      rfl

theorem chunksOf_words_length {drains : Nat → Nat} {free : Nat} (isStart : Bool) (sent : Nat) :
    chain.length ≤
      ((chunksOf totalLen drains free isStart sent chain).flatMap Chunk.words).length := by
  induction chain generalizing drains free isStart sent with
  | nil => exact Nat.zero_le _
  | cons q rest ih =>
      have hrest := @ih (fun i => drains (i + 1))
        (free - 4 * (segmentWords isStart (sent + q.length = totalLen) q).length + drains 0)
        false (sent + q.length)
      simp only [chunksOf, List.flatMap_cons, List.length_append, segmentWords_length,
        List.length_cons] at hrest ⊢
      omega

end Segments

/-- The words that a call has written. -/
def TxDev.words (dev : TxDev) : List PortWord := dev.written.flatMap Chunk.words

/-- Whatever the shape of the chain, the device reads one frame with its bytes where the
call succeeds. -/
theorem lowLevelOutput_isFrame {dev : TxDev} {totLen : Nat} {drains : Nat → Nat}
    {chain : List (List Byte)} (hdev : dev.written = []) (htotal : chainLength chain = totLen)
    (hne : chain ≠ []) (hsize : ∀ q ∈ chain, q.length < 2 ^ 11)
    (hok : (dev.lowLevelOutput totLen drains chain).1 = true) :
    decode (dev.lowLevelOutput totLen drains chain).2.words =
      some (segmentsOf totLen true 0 chain) ∧
      IsFrame chain.flatten (segmentsOf totLen true 0 chain) := by
  obtain ⟨hwritten, hproper, -⟩ := TxDev.outputLoop_ok hok
  have hwords : (dev.lowLevelOutput totLen drains chain).2.words =
      (chunksOf totLen drains dev.txFifoFree true 0 chain).flatMap Chunk.words := by
    rw [TxDev.words, TxDev.lowLevelOutput, hwritten, hdev]
    rfl
  refine ⟨?_, ?_, ?_, ?_, segmentsOf_bytes true 0⟩
  · rw [hwords]
    exact decodeSegments_chunksOf true 0 hsize (chunksOf_words_length true 0)
  · intro i seg hseg
    obtain ⟨q, rest, rfl⟩ := List.exists_cons_of_ne_nil hne
    cases i with
    | zero =>
        simp only [segmentsOf, List.getElem?_cons_zero, Option.some.injEq] at hseg
        simp [← hseg]
    | succ i =>
        simp only [segmentsOf, List.getElem?_cons_succ] at hseg
        simp [segmentsOf_not_first (List.mem_of_getElem? hseg)]
  · intro i seg hseg
    rw [segmentsOf_length]
    exact segmentsOf_last true hproper ((Nat.zero_add _).trans htotal) hseg
  · rw [← List.length_pos_iff, segmentsOf_length]
    exact List.length_pos_iff.mpr hne

/-! ## Room -/

/-- Each chunk has room for all of its words when its turn comes. -/
def Fits : (Nat → Nat) → Nat → List (List Byte) → Prop
  | _, _, [] => True
  | drains, free, q :: rest =>
      4 * (q.length / 4 + 3) ≤ free ∧
        Fits (fun i => drains (i + 1)) (free - 4 * (q.length / 4 + 3) + drains 0) rest

theorem fits_iff {drains : Nat → Nat} {free : Nat} {chain : List (List Byte)} (totalLen : Nat)
    (isStart : Bool) (sent : Nat) : Fits drains free chain ↔
      ∀ c ∈ chunksOf totalLen drains free isStart sent chain, 4 * c.words.length ≤ c.room := by
  -- the free space changes with each chunk, and the device drains in between
  induction chain generalizing drains free isStart sent with
  | nil => simp [Fits, chunksOf]
  | cons q rest ih =>
      simp only [Fits, chunksOf, List.forall_mem_cons, segmentWords_length]
      rw [← ih]

/-- The frame is complete with the last chunk and not before where no empty chunk follows
its last byte. -/
theorem proper_iff {totalLen sent : Nat} {q : List Byte} {rest : List (List Byte)}
    (htotal : sent + chainLength (q :: rest) = totalLen) :
    Proper totalLen sent (q :: rest) ↔ rest = [] ∨ (q :: rest).getLast (by simp) ≠ [] := by
  -- the sizes of the chunks before it decide whether a chunk is the last
  induction rest generalizing q sent with
  | nil => simp [Proper]
  | cons r rest ih =>
      have hrest : sent + q.length + chainLength (r :: rest) = totalLen := by
        rw [← htotal, chainLength_cons q]
        omega
      have hlast : ∀ {chain : List (List Byte)} (hne : chain ≠ []), chain.getLast hne ≠ [] →
          0 < chainLength chain := by
        intro chain hne hlast
        exact Nat.lt_of_lt_of_le (List.length_pos_iff.mpr hlast)
          (length_le_chainLength (List.getLast_mem hne))
      rw [Proper, ih hrest, List.getLast_cons (List.cons_ne_nil r rest)]
      simp only [ne_eq, reduceCtorEq, not_false_eq_true, forall_const, false_or]
      constructor
      · rintro ⟨hopen, rfl | hne⟩
        · have hpos : 0 < chainLength [r] := by omega
          simpa [chainLength, List.length_pos_iff] using hpos
        · exact hne
      · intro hne
        have hpos := hlast (List.cons_ne_nil r rest) hne
        exact ⟨by omega, .inr hne⟩

/-! ## One frame -/

/-- The call succeeds, the device reads one frame with these bytes, and command B has the
length of the frame in every segment. -/
def FrameSent (result : Bool × TxDev) (payload : List Byte) : Prop :=
  result.1 = true ∧ ∃ segments, decode result.2.words = some segments ∧ IsFrame payload segments ∧
    ∀ seg ∈ segments, seg.packetLength = payload.length

theorem chainLength_eq (chain : List (List Byte)) : chainLength chain = chain.flatten.length := by
  simp [chainLength, List.length_flatten]

/-- A frame with enough room is sent as the device wants it just where it is one `pbuf`:
command B has the length of the segment, and an empty `pbuf` behind the last byte is
refused. -/
theorem output_frame_iff {dev : TxDev} {totLen : Nat} {drains : Nat → Nat}
    {chain : List (List Byte)} (hdev : dev.written = []) (htotal : chainLength chain = totLen)
    (hpos : 1 ≤ totLen) (hmax : totLen ≤ 1514) (hfits : Fits drains dev.txFifoFree chain) :
    FrameSent (dev.lowLevelOutput totLen drains chain) chain.flatten ↔ chain.length = 1 := by
  have hne : chain ≠ [] := by
    rintro rfl
    simp [chainLength] at htotal
    omega
  have hsize : ∀ q ∈ chain, q.length < 2 ^ 11 := by
    intro q hq
    have hle := length_le_chainLength hq
    omega
  constructor
  · rintro ⟨hok, segments, hdecode, -, hlength⟩
    obtain ⟨hdecode', -⟩ := lowLevelOutput_isFrame hdev htotal hne hsize hok
    obtain rfl := Option.some.inj (hdecode.symm.trans hdecode')
    obtain ⟨-, hproper, -⟩ := TxDev.outputLoop_ok hok
    obtain ⟨q, rest, rfl⟩ := List.exists_cons_of_ne_nil hne
    -- the first segment has the length of the frame, so there is no second one
    have hfirst : q.length = totLen := by
      rw [← htotal, chainLength_eq]
      exact hlength ⟨_, _, q.length, q⟩ (List.mem_cons_self ..)
    cases rest with
    | nil => rfl
    | cons r rest =>
        have hopen : 0 + q.length < totLen := hproper.1 (by simp)
        omega
  · intro hone
    obtain ⟨q, rfl⟩ := List.length_eq_one_iff.mp hone
    have hok : (dev.lowLevelOutput totLen drains [q]).1 = true :=
      TxDev.outputLoop_fits ((fits_iff totLen true 0).mp hfits) ⟨by simp, trivial⟩ (by simp)
    obtain ⟨hdecode, hframe⟩ := lowLevelOutput_isFrame hdev htotal hne hsize hok
    exact ⟨hok, _, hdecode, hframe, by simp [segmentsOf]⟩

/-- A controller with an empty FIFO of 4 KiB. -/
def idleDev : TxDev := ⟨0, 0, 4096, []⟩

theorem output_frame_iff_single :
    FrameSent (idleDev.lowLevelOutput 5 (fun _ => 0) [[1, 2, 3, 4, 5]]) [1, 2, 3, 4, 5] := by
  have hfits : Fits (fun _ => 0) idleDev.txFifoFree [[1, 2, 3, 4, 5]] := by simp [Fits, idleDev]
  exact (output_frame_iff rfl rfl (by decide) (by decide) hfits).mpr rfl

/-- A frame in two parts: the two segments disagree about its length. -/
theorem output_frame_split :
    ¬ FrameSent (idleDev.lowLevelOutput 5 (fun _ => 0) [[1, 2], [3, 4, 5]]) [1, 2, 3, 4, 5] := by
  rintro ⟨-, segments, hdecode, -, hlength⟩
  have hdecode' : decode (idleDev.lowLevelOutput 5 (fun _ => 0) [[1, 2], [3, 4, 5]]).2.words =
      some [⟨true, false, 2, [1, 2]⟩, ⟨false, true, 3, [3, 4, 5]⟩] := by
    decide +kernel
  obtain rfl := Option.some.inj (hdecode.symm.trans hdecode')
  simp at hlength

/-! ## All or nothing -/

/-- Command A of the chunk marks the first segment of a frame. -/
def Chunk.first (c : Chunk) : Bool := (c.words.headD 0).getLsbD 13

/-- Command A of the chunk marks the last segment of a frame. -/
def Chunk.last (c : Chunk) : Bool := (c.words.headD 0).getLsbD 12

/-- A first segment has no last segment at it or behind it. -/
def Unfinished (written : List Chunk) : Prop :=
  ∃ before c after, written = before ++ c :: after ∧ c.first ∧ ∀ d ∈ c :: after, ¬ d.last

/-- A frame has been written from its first to its last segment. -/
def Complete (written : List Chunk) : Prop :=
  ∃ before c after, written = before ++ c :: after ∧ c.first ∧ ∃ d ∈ c :: after, d.last

/-- A call that fails leaves no part of a frame and no whole frame behind, and no call
writes more than there is room for. -/
structure AllOrNothing (result : Bool × TxDev) : Prop where
  nothing : result.1 = false → ¬ Unfinished result.2.written ∧ ¬ Complete result.2.written
  room : ∀ c ∈ result.2.written, 4 * c.words.length ≤ c.room

/-- A call is all or nothing just where it is refused at its first chunk, or has room for
all words of every chunk and no empty `pbuf` behind its last byte. -/
theorem output_atomic_iff {dev : TxDev} {totLen : Nat} {drains : Nat → Nat} {q : List Byte}
    {rest : List (List Byte)} (hdev : dev.written = [])
    (htotal : chainLength (q :: rest) = totLen) :
    AllOrNothing (dev.lowLevelOutput totLen drains (q :: rest)) ↔
      dev.txFifoFree < q.length ∨
        (Fits drains dev.txFifoFree (q :: rest) ∧
          (rest = [] ∨ (q :: rest).getLast (by simp) ≠ [])) := by
  rw [← proper_iff ((Nat.zero_add _).trans htotal)]
  constructor
  · intro hatomic
    refine or_iff_not_imp_left.mpr fun hroom => ?_
    have haccepted : ¬ dev.Refused totLen true q := by
      rintro (⟨hstart, -⟩ | hfull)
      · simp at hstart
      · exact hroom hfull
    -- the first chunk is written, so the call may not fail any more
    obtain ⟨c, more, hwritten, hfirst⟩ :
        ∃ c more, (dev.lowLevelOutput totLen drains (q :: rest)).2.written = c :: more ∧
        c.first := by
      obtain ⟨more, hmore⟩ := @TxDev.outputLoop_prefix totLen (fun i => drains (i + 1))
        (dev.accept totLen true q (drains 0)) rest false
      rw [TxDev.lowLevelOutput, TxDev.outputLoop_accepted haccepted, hmore, TxDev.accept_written,
        hdev]
      exact ⟨_, more, rfl, txcmdA_first ..⟩
    have hok : (dev.lowLevelOutput totLen drains (q :: rest)).1 = true := by
      by_contra hfails
      obtain ⟨hunfinished, hcomplete⟩ := hatomic.nothing (by simpa using hfails)
      rw [hwritten] at hunfinished hcomplete
      by_cases hlast : ∃ d ∈ c :: more, d.last
      · exact hcomplete ⟨[], c, more, rfl, hfirst, hlast⟩
      · exact hunfinished ⟨[], c, more, rfl, hfirst, fun d hd hlast' => hlast ⟨d, hd, hlast'⟩⟩
    obtain ⟨hall, hproper, -⟩ := TxDev.outputLoop_ok hok
    refine ⟨(fits_iff totLen true 0).mpr fun c hc => hatomic.room c ?_, hproper⟩
    rw [TxDev.lowLevelOutput, hall]
    exact List.mem_append_right _ hc
  · rintro (hroom | ⟨hfits, hproper⟩)
    · have hnone : (dev.lowLevelOutput totLen drains (q :: rest)).2.written = [] :=
        (TxDev.outputLoop_refused (.inr hroom)).2.trans hdev
      refine ⟨fun _ => ⟨?_, ?_⟩, by simp [hnone]⟩ <;> rintro ⟨before, c, after, heq, -⟩ <;>
        simp [hnone] at heq
    · have hchunks := (fits_iff totLen true 0).mp hfits
      have hok : (dev.lowLevelOutput totLen drains (q :: rest)).1 = true :=
        TxDev.outputLoop_fits hchunks hproper (by simp)
      refine ⟨by simp [hok], fun c hc => hchunks c ?_⟩
      rw [TxDev.lowLevelOutput, (TxDev.outputLoop_ok hok).1, hdev] at hc
      exact hc

theorem output_atomic_iff_fits :
    AllOrNothing (idleDev.lowLevelOutput 5 (fun _ => 0) [[1, 2], [3, 4, 5]]) := by
  have hfits : Fits (fun _ => 0) idleDev.txFifoFree [[1, 2], [3, 4, 5]] := by simp [Fits, idleDev]
  have hdev : idleDev.written = [] := rfl
  exact (output_atomic_iff hdev rfl).mpr (.inr ⟨hfits, .inr (by simp)⟩)

/-- With room for the first part of a frame only, the call fails and leaves that part in
the FIFO. -/
theorem output_unfinished :
    ¬ AllOrNothing
      (TxDev.lowLevelOutput ⟨0, 0, 16, []⟩ 10 (fun _ => 0)
        [[1, 2], [3, 4, 5, 6, 7, 8, 9, 10]]) := by
  intro hatomic
  have hwritten : (TxDev.lowLevelOutput ⟨0, 0, 16, []⟩ 10 (fun _ => 0)
      [[1, 2], [3, 4, 5, 6, 7, 8, 9, 10]]).2.written =
      [⟨16, segmentWords true false [1, 2]⟩] := by rfl
  obtain ⟨hunfinished, -⟩ := hatomic.nothing rfl
  rw [hwritten] at hunfinished
  exact hunfinished ⟨[], _, [], rfl, by decide, by decide⟩

end SimulatedLinux.Ethernet
