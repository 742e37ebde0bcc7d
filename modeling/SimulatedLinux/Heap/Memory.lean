import Mathlib.Data.Nat.Bitwise
import SimulatedLinux.Heap.Client
import SimulatedLinux.Lib.Bytes
import SimulatedLinux.Lib.Dialogue
import SimulatedLinux.Lib.Trail

/-! # The heap in memory

`heap_4.c` keeps the free list in the memory that it hands out: each block begins with a
`BlockLink_t`, whose link leads to the next free block and whose size has its top bit set while the
block is allocated. Here the functions work on the bytes, and the users write what they like behind
the headers of their blocks.
-/

namespace SimulatedLinux.Heap

open Lib

/-- Where the linker has put the array of the heap and the marker `xStart`, and whether the
`vApplicationMallocFailedHook` that it has linked returns. The one of `main.c` does not. -/
structure Layout where
  ucHeap : Nat
  configTotalHeapSize : Nat
  xStart : Nat
  hookReturns : Bool

/-- The memory, and the static data of `heap_4.c`. -/
structure HeapMemory where
  bytes : Bytes
  pxEnd : Nat
  xFreeBytesRemaining : Nat
  xMinimumEverFreeBytesRemaining : Nat
  xNumberOfSuccessfulAllocations : Nat
  xNumberOfSuccessfulFrees : Nat

/-- `size_t` and pointers have 32 bits. -/
def sizeModulus : Nat := 2 ^ 32

/-- `heapBLOCK_IS_ALLOCATED`. -/
def heapBlockIsAllocated (xBlockSize : Nat) : Bool := xBlockSize &&& heapBlockAllocatedBitmask ≠ 0

/-- `heapALLOCATE_BLOCK`. -/
def heapAllocateBlock (xBlockSize : Nat) : Nat := xBlockSize ||| heapBlockAllocatedBitmask

/-- `heapFREE_BLOCK`: all bits but the mask are kept. -/
def heapFreeBlock (xBlockSize : Nat) : Nat := xBlockSize &&& (sizeMax - heapBlockAllocatedBitmask)

/-- What `heapVALIDATE_BLOCK_POINTER` asserts: the pointer is into the array of the heap. -/
def heapValidateBlockPointer (L : Layout) (pxBlock : Nat) : Bool :=
  L.ucHeap ≤ pxBlock ∧ pxBlock ≤ L.ucHeap + (L.configTotalHeapSize - 1)

/-- The bits under the alignment are cleared. -/
def alignDown (x : Nat) : Nat := x / portByteAlignment * portByteAlignment

/-- What `vPortGetHeapStats` reports. -/
structure HeapStats where
  xAvailableHeapSpaceInBytes : Nat
  xSizeOfLargestFreeBlockInBytes : Nat
  xSizeOfSmallestFreeBlockInBytes : Nat
  xNumberOfFreeBlocks : Nat
  xMinimumEverFreeBytesRemaining : Nat
  xNumberOfSuccessfulAllocations : Nat
  xNumberOfSuccessfulFrees : Nat
  deriving DecidableEq, Repr

namespace HeapMemory

/-- `pxNextFreeBlock` of the header at an address. -/
def next (m : HeapMemory) (p : Nat) : Nat := m.bytes.load p

/-- `xBlockSize` of the header at an address. -/
def size (m : HeapMemory) (p : Nat) : Nat := m.bytes.load (p + 4)

def setNext (m : HeapMemory) (p v : Nat) : HeapMemory := { m with bytes := m.bytes.store p v }

def setSize (m : HeapMemory) (p v : Nat) : HeapMemory := { m with bytes := m.bytes.store (p + 4) v }

/-- `prvHeapInit`. -/
def prvHeapInit (L : Layout) (m : HeapMemory) : HeapMemory :=
  let uxStartAddress :=
    if L.ucHeap % portByteAlignment ≠ 0 then alignDown (L.ucHeap + (portByteAlignment - 1))
    else L.ucHeap
  let xTotalHeapSize := L.configTotalHeapSize - (uxStartAddress - L.ucHeap)
  let m := m.setNext L.xStart uxStartAddress
  let m := m.setSize L.xStart 0
  let pxEnd := alignDown (uxStartAddress + xTotalHeapSize - xHeapStructSize)
  let m := { m with pxEnd }
  let m := m.setSize pxEnd 0
  let m := m.setNext pxEnd 0
  let pxFirstFreeBlock := uxStartAddress
  let m := m.setSize pxFirstFreeBlock (pxEnd - pxFirstFreeBlock)
  let m := m.setNext pxFirstFreeBlock pxEnd
  { m with
    xMinimumEverFreeBytesRemaining := m.size pxFirstFreeBlock
    xFreeBytesRemaining := m.size pxFirstFreeBlock }

/-- The search of `pvPortMalloc`: the block where it ends, and the one before it. Each block is
validated when its pointer has been loaded. The search does not end when the fuel runs out. -/
def findBlock (L : Layout) (m : HeapMemory) (xWantedSize : Nat) :
    Nat → Nat → Nat → Option (Nat × Nat)
  | 0, _, _ => none
  | fuel + 1, pxPreviousBlock, pxBlock =>
      if heapValidateBlockPointer L pxBlock then
        -- only the end marker has a NULL as its next block
        if m.size pxBlock < xWantedSize ∧ m.next pxBlock ≠ 0 then
          m.findBlock L xWantedSize fuel pxBlock (m.next pxBlock)
        else some (pxPreviousBlock, pxBlock)
      else none

/-- The block is split in two where enough is left over, or there is no result where the new header
is not aligned. -/
def splitBlock (m : HeapMemory) (pxPreviousBlock pxBlock xWantedSize : Nat) : Option HeapMemory :=
  if m.size pxBlock - xWantedSize > heapMinimumBlockSize then
    let pxNewBlockLink := (pxBlock + xWantedSize) % sizeModulus
    if pxNewBlockLink % portByteAlignment = 0 then
      let m := m.setSize pxNewBlockLink (m.size pxBlock - xWantedSize)
      let m := m.setSize pxBlock xWantedSize
      let m := m.setNext pxNewBlockLink (m.next pxPreviousBlock)
      some (m.setNext pxPreviousBlock pxNewBlockLink)
    else none
  else some m

/-- The block is counted and marked as allocated, and has no next block. -/
def markAllocated (m : HeapMemory) (pxBlock : Nat) : HeapMemory :=
  let m := { m with xFreeBytesRemaining := m.xFreeBytesRemaining - m.size pxBlock }
  let m := { m with
    xMinimumEverFreeBytesRemaining :=
      if m.xFreeBytesRemaining < m.xMinimumEverFreeBytesRemaining then m.xFreeBytesRemaining
      else m.xMinimumEverFreeBytesRemaining }
  let m := m.setSize pxBlock (heapAllocateBlock (m.size pxBlock))
  let m := m.setNext pxBlock 0
  { m with xNumberOfSuccessfulAllocations := (m.xNumberOfSuccessfulAllocations + 1) % sizeModulus }

/-- What `pvPortMalloc` does with a block that is large enough, and the pointer behind its
header. -/
def takeFrom (L : Layout) (m : HeapMemory) (pxPreviousBlock pxBlock xWantedSize : Nat) :
    Option (HeapMemory × Nat) :=
  -- the pointer is read from the block before, which is then made to skip this one
  let pvReturn := (m.next pxPreviousBlock + xHeapStructSize) % sizeModulus
  if heapValidateBlockPointer L pvReturn then
    let m := m.setNext pxPreviousBlock (m.next pxBlock)
    if m.size pxBlock < xWantedSize then none
    else
      (m.splitBlock pxPreviousBlock pxBlock xWantedSize).map fun m =>
        (m.markAllocated pxBlock, pvReturn)
  else none

/-- `pvPortMalloc`, with 0 for NULL. There is no result where an assertion fails, and where the
allocation fails and the hook does not return. -/
def pvPortMalloc (L : Layout) (fuel : Nat) (m : HeapMemory) (xWantedSize : Nat) :
    Option (HeapMemory × Nat) :=
  let xWantedSize := requiredSize xWantedSize
  let m := if m.pxEnd = 0 then m.prvHeapInit L else m
  let result :=
    -- the top bit of a size is the mark, so such a size cannot be served
    if heapBlockIsAllocated xWantedSize then some (m, 0)
    else if 0 < xWantedSize ∧ xWantedSize ≤ m.xFreeBytesRemaining then
      (m.findBlock L xWantedSize fuel L.xStart (m.next L.xStart)).bind
        fun (pxPreviousBlock, pxBlock) =>
        if pxBlock ≠ m.pxEnd then m.takeFrom L pxPreviousBlock pxBlock xWantedSize else some (m, 0)
    else some (m, 0)
  result.bind fun (m, pvReturn) =>
    if pvReturn = 0 ∧ L.hookReturns = false then none
    else if pvReturn % portByteAlignment = 0 then some (m, pvReturn)
    else none

/-- The loop of `prvInsertBlockIntoFreeList`. -/
def insertPoint (m : HeapMemory) (pxBlockToInsert : Nat) : Nat → Nat → Option Nat
  | 0, _ => none
  | fuel + 1, pxIterator =>
      if m.next pxIterator < pxBlockToInsert then
        m.insertPoint pxBlockToInsert fuel (m.next pxIterator)
      else some pxIterator

/-- The block is made part of the one before it, if that ends where the block begins. -/
def mergeBefore (m : HeapMemory) (pxIterator pxBlockToInsert : Nat) : HeapMemory × Nat :=
  if (pxIterator + m.size pxIterator) % sizeModulus = pxBlockToInsert then
    (m.setSize pxIterator (m.size pxIterator + m.size pxBlockToInsert), pxIterator)
  else (m, pxBlockToInsert)

/-- The block takes in the one behind it, if it ends where that begins. -/
def mergeBehind (m : HeapMemory) (pxIterator pxBlockToInsert : Nat) : HeapMemory :=
  if (pxBlockToInsert + m.size pxBlockToInsert) % sizeModulus = m.next pxIterator then
    if m.next pxIterator ≠ m.pxEnd then
      let m := m.setSize pxBlockToInsert (m.size pxBlockToInsert + m.size (m.next pxIterator))
      m.setNext pxBlockToInsert (m.next (m.next pxIterator))
    -- the end marker is kept apart, even where it is adjacent
    else m.setNext pxBlockToInsert m.pxEnd
  else m.setNext pxBlockToInsert (m.next pxIterator)

/-- What `prvInsertBlockIntoFreeList` does after its loop. -/
def linkBlock (m : HeapMemory) (pxIterator pxBlockToInsert : Nat) : HeapMemory :=
  let merged := m.mergeBefore pxIterator pxBlockToInsert
  let m := merged.1.mergeBehind pxIterator merged.2
  if pxIterator ≠ merged.2 then m.setNext pxIterator merged.2 else m

/-- `prvInsertBlockIntoFreeList`. -/
def prvInsertBlockIntoFreeList (L : Layout) (fuel : Nat) (m : HeapMemory) (pxBlockToInsert : Nat) :
    Option HeapMemory :=
  (m.insertPoint pxBlockToInsert fuel L.xStart).bind fun pxIterator =>
    -- the start marker lies outside of the array
    if pxIterator = L.xStart ∨ heapValidateBlockPointer L pxIterator then
      some (m.linkBlock pxIterator pxBlockToInsert)
    else none

/-- `vPortFree`. -/
def vPortFree (L : Layout) (fuel : Nat) (m : HeapMemory) (pv : Nat) : Option HeapMemory :=
  if pv ≠ 0 then
    let pxLink := (pv + (sizeModulus - xHeapStructSize)) % sizeModulus
    -- the assertions, and the tests behind them that say the same
    if heapValidateBlockPointer L pxLink ∧ heapBlockIsAllocated (m.size pxLink) ∧
        m.next pxLink = 0 then
      let m := m.setSize pxLink (heapFreeBlock (m.size pxLink))
      let m :=
        { m with xFreeBytesRemaining := (m.xFreeBytesRemaining + m.size pxLink) % sizeModulus }
      (m.prvInsertBlockIntoFreeList L fuel pxLink).map fun m =>
        { m with xNumberOfSuccessfulFrees := (m.xNumberOfSuccessfulFrees + 1) % sizeModulus }
    else none
  else some m

/-- `pvPortCalloc`. -/
def pvPortCalloc (L : Layout) (fuel : Nat) (m : HeapMemory) (xNum xSize : Nat) :
    Option (HeapMemory × Nat) :=
  if 0 < xNum ∧ xSize > sizeMax / xNum then some (m, 0)
  else
    (m.pvPortMalloc L fuel (xNum * xSize)).map fun (m, pv) =>
      if pv ≠ 0 then ({ m with bytes := m.bytes.fill pv (xNum * xSize) 0 }, pv) else (m, pv)

/-- The loop of `vPortGetHeapStats`: the number of blocks, and the sizes of the largest and of the
smallest of them. -/
def surveyBlocks (m : HeapMemory) : Nat → Nat → Nat × Nat × Nat → Option (Nat × Nat × Nat)
  | 0, _, _ => none
  | fuel + 1, pxBlock, (xBlocks, xMaxSize, xMinSize) =>
      if pxBlock ≠ m.pxEnd then
        m.surveyBlocks fuel (m.next pxBlock)
          ((xBlocks + 1) % sizeModulus,
            if m.size pxBlock > xMaxSize then m.size pxBlock else xMaxSize,
            if m.size pxBlock < xMinSize then m.size pxBlock else xMinSize)
      else some (xBlocks, xMaxSize, xMinSize)

/-- `vPortGetHeapStats`. -/
def vPortGetHeapStats (L : Layout) (fuel : Nat) (m : HeapMemory) : Option HeapStats :=
  let pxBlock := m.next L.xStart
  let survey :=
    if pxBlock ≠ 0 then m.surveyBlocks fuel pxBlock (0, 0, sizeMax) else some (0, 0, sizeMax)
  survey.map fun (xBlocks, xMaxSize, xMinSize) =>
    { xAvailableHeapSpaceInBytes := m.xFreeBytesRemaining
      xSizeOfLargestFreeBlockInBytes := xMaxSize
      xSizeOfSmallestFreeBlockInBytes := xMinSize
      xNumberOfFreeBlocks := xBlocks
      xMinimumEverFreeBytesRemaining := m.xMinimumEverFreeBytesRemaining
      xNumberOfSuccessfulAllocations := m.xNumberOfSuccessfulAllocations
      xNumberOfSuccessfulFrees := m.xNumberOfSuccessfulFrees }

end HeapMemory

/-! ## The top bit of a size -/

section TopBit

variable {x : Nat}

theorem heapBlockIsAllocated_iff (hx : x < sizeModulus) :
    heapBlockIsAllocated x ↔ heapBlockAllocatedBitmask ≤ x := by
  have hbit : x.testBit 31 = decide (heapBlockAllocatedBitmask ≤ x) := by
    rw [Nat.testBit_eq_decide_div_mod_eq]
    apply decide_eq_decide.mpr
    simp only [sizeModulus, heapBlockAllocatedBitmask] at *
    omega
  have hand : x &&& heapBlockAllocatedBitmask = (x.testBit 31).toNat * 2 ^ 31 :=
    Nat.and_two_pow x 31
  unfold heapBlockIsAllocated
  rw [hand, hbit]
  by_cases hle : heapBlockAllocatedBitmask ≤ x
  · simp [hle]
  · simp [hle]

theorem heapAllocateBlock_eq (hx : x < heapBlockAllocatedBitmask) :
    heapAllocateBlock x = x + heapBlockAllocatedBitmask := by
  have hor := Nat.two_pow_add_eq_or_of_lt hx 1
  rw [Nat.mul_one] at hor
  rw [heapAllocateBlock, Nat.or_comm, Nat.add_comm]
  exact hor.symm

theorem heapFreeBlock_eq (hx : x < heapBlockAllocatedBitmask) :
    heapFreeBlock (x + heapBlockAllocatedBitmask) = x := by
  have hmask : sizeMax - heapBlockAllocatedBitmask = 2 ^ 31 - 1 := by decide
  rw [heapFreeBlock, hmask, Nat.and_two_pow_sub_one_eq_mod]
  simp only [heapBlockAllocatedBitmask] at *
  omega

end TopBit

/-! ## Headers -/

/-- The headers at two addresses do not overlap. -/
def Apart (p q : Nat) : Prop := p + xHeapStructSize ≤ q ∨ q + xHeapStructSize ≤ p

theorem Apart.symm {p q : Nat} (h : Apart p q) : Apart q p := Or.symm h

namespace HeapMemory

variable {m : HeapMemory} {p q v : Nat}

theorem next_lt (m : HeapMemory) (p : Nat) : m.next p < sizeModulus := Bytes.load_lt ..

theorem next_setNext (hv : v < sizeModulus) : (m.setNext p v).next p = v := Bytes.load_store hv

theorem size_setSize (hv : v < sizeModulus) : (m.setSize p v).size p = v := Bytes.load_store hv

theorem next_setNext_of_apart (h : Apart p q) : (m.setNext p v).next q = m.next q := by
  apply Bytes.load_store_of_apart
  simp only [Apart, xHeapStructSize] at h
  omega

theorem size_setSize_of_apart (h : Apart p q) : (m.setSize p v).size q = m.size q := by
  apply Bytes.load_store_of_apart
  simp only [Apart, xHeapStructSize] at h
  omega

theorem size_setNext (h : p = q ∨ Apart p q) : (m.setNext p v).size q = m.size q := by
  apply Bytes.load_store_of_apart
  simp only [Apart, xHeapStructSize] at h
  omega

theorem next_setSize (h : p = q ∨ Apart p q) : (m.setSize p v).next q = m.next q := by
  apply Bytes.load_store_of_apart
  simp only [Apart, xHeapStructSize] at h
  omega

end HeapMemory

/-- No two headers of the set overlap. -/
def Scattered (D : Nat → Prop) : Prop := ∀ p q, D p → D q → p = q ∨ Apart p q

/-- The headers at the places `D` have the links `N` and the sizes `Z`, and elsewhere the memory has
the bytes of `before`. -/
structure Shows (D : Nat → Prop) (before m : HeapMemory) (N Z : Nat → Nat) : Prop where
  next : ∀ p, D p → m.next p = N p
  size : ∀ p, D p → m.size p = Z p
  others : ∀ x, (∀ p, D p → x < p ∨ p + xHeapStructSize ≤ x) → m.bytes x = before.bytes x

namespace Shows

variable {D : Nat → Prop} {before m m' : HeapMemory} {N Z : Nat → Nat} {p v : Nat}

theorem refl (D : Nat → Prop) (m : HeapMemory) : Shows D m m m.next m.size :=
  ⟨fun _ _ => rfl, fun _ _ => rfl, fun _ _ => rfl⟩

/-- The static data is not in the headers. -/
theorem of_bytes (h : Shows D before m N Z) (hbytes : m'.bytes = m.bytes) :
    Shows D before m' N Z := by
  refine ⟨fun p hp => ?_, fun p hp => ?_, fun x hx => ?_⟩
  · rw [← h.next p hp, HeapMemory.next, HeapMemory.next, hbytes]
  · rw [← h.size p hp, HeapMemory.size, HeapMemory.size, hbytes]
  · rw [← h.others x hx, hbytes]

theorem setNext (h : Shows D before m N Z) (hD : Scattered D) (hp : D p) (hv : v < sizeModulus) :
    Shows D before (m.setNext p v) (Function.update N p v) Z := by
  refine ⟨fun q hq => ?_, fun q hq => ?_, fun x hx => ?_⟩
  · by_cases hqp : q = p
    · rw [hqp, Function.update_self]
      exact HeapMemory.next_setNext hv
    · rw [Function.update_of_ne hqp, ← h.next q hq]
      exact HeapMemory.next_setNext_of_apart ((hD p q hp hq).resolve_left (Ne.symm hqp))
  · rw [← h.size q hq]
    exact HeapMemory.size_setNext (hD p q hp hq)
  · rw [← h.others x hx]
    have hout := hx p hp
    apply Bytes.store_of_outside
    simp only [xHeapStructSize] at hout
    omega

theorem setSize (h : Shows D before m N Z) (hD : Scattered D) (hp : D p) (hv : v < sizeModulus) :
    Shows D before (m.setSize p v) N (Function.update Z p v) := by
  refine ⟨fun q hq => ?_, fun q hq => ?_, fun x hx => ?_⟩
  · rw [← h.next q hq]
    exact HeapMemory.next_setSize (hD p q hp hq)
  · by_cases hqp : q = p
    · rw [hqp, Function.update_self]
      exact HeapMemory.size_setSize hv
    · rw [Function.update_of_ne hqp, ← h.size q hq]
      exact HeapMemory.size_setSize_of_apart ((hD p q hp hq).resolve_left (Ne.symm hqp))
  · rw [← h.others x hx]
    have hout := hx p hp
    apply Bytes.store_of_outside
    simp only [xHeapStructSize] at hout
    omega

end Shows

end SimulatedLinux.Heap
