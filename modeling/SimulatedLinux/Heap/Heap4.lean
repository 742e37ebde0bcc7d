import Mathlib.Algebra.GroupWithZero.Nat
import Mathlib.Logic.Function.Basic
import SimulatedLinux.Lib.Span

/-! # The allocator `heap_4.c`

The free blocks are a list in the order of their addresses, between the markers
`xStart` and `pxEnd`. An allocation takes the first block that is large enough and
splits it; a release puts the block back and merges it with its neighbours.

Every release and every split leaves a list without adjacent blocks, so the free
list is determined by the allocated blocks alone, whatever the order in which they
were taken and given back.
-/

namespace SimulatedLinux.Heap

open Lib

/-- `BlockLink_t` with the address of its header. -/
abbrev Block := Span

def portByteAlignment : Nat := 8

/-- `xHeapStructSize`: `sizeof(BlockLink_t)` is already aligned. -/
def xHeapStructSize : Nat := 8

def heapMinimumBlockSize : Nat := 2 * xHeapStructSize

def sizeMax : Nat := 2 ^ 32 - 1

/-- `heapBLOCK_ALLOCATED_BITMASK`. -/
def heapBlockAllocatedBitmask : Nat := 2 ^ 31

/-- The allocator after `prvHeapInit`. -/
structure Heap4 where
  /-- The blocks from `xStart` to `pxEnd`. -/
  free : List Block
  /-- `xBlockSize` of the headers whose allocated bit is set, by header address. -/
  allocated : Nat → Option Nat
  xFreeBytesRemaining : Nat

/-- The size of the block for a request, 0 where the computation overflows. -/
def requiredSize (xWantedSize : Nat) : Nat :=
  if 0 < xWantedSize then
    if xWantedSize + xHeapStructSize ≤ sizeMax then
      let xWantedSize := xWantedSize + xHeapStructSize
      if xWantedSize % portByteAlignment ≠ 0 then
        let xAdditionalRequiredSize := portByteAlignment - xWantedSize % portByteAlignment
        if xWantedSize + xAdditionalRequiredSize ≤ sizeMax then
          xWantedSize + xAdditionalRequiredSize
        else 0
      else xWantedSize
    else 0
  else 0

/-- The search of `pvPortMalloc` and the split: the block that is handed out, and
the free list without it. -/
def takeBlock (xWantedSize : Nat) : List Block → Option (Block × List Block)
  | [] => none
  | pxBlock :: rest =>
      if pxBlock.size < xWantedSize then
        (takeBlock xWantedSize rest).map fun (taken, rest) => (taken, pxBlock :: rest)
      else if pxBlock.size - xWantedSize > heapMinimumBlockSize then
        some (⟨pxBlock.addr, xWantedSize⟩,
          ⟨pxBlock.addr + xWantedSize, pxBlock.size - xWantedSize⟩ :: rest)
      else some (pxBlock, rest)

/-- `pvPortMalloc`: the pointer it returns, or `none` for NULL. -/
def pvPortMalloc (h : Heap4) (xWantedSize : Nat) : Option (Nat × Heap4) :=
  let xWantedSize := requiredSize xWantedSize
  if xWantedSize < heapBlockAllocatedBitmask then
    if 0 < xWantedSize ∧ xWantedSize ≤ h.xFreeBytesRemaining then
      (takeBlock xWantedSize h.free).map fun (pxBlock, free) =>
        (pxBlock.addr + xHeapStructSize,
          { free
            allocated := Function.update h.allocated pxBlock.addr (some pxBlock.size)
            xFreeBytesRemaining := h.xFreeBytesRemaining - pxBlock.size })
    else none
  else none

/-- The block is merged with the free block behind it when they are adjacent. The
end marker is not a block. -/
def mergeNext (pxBlockToInsert : Block) : List Block → List Block
  | [] => [pxBlockToInsert]
  | next :: rest =>
      if pxBlockToInsert.limit = next.addr then
        ⟨pxBlockToInsert.addr, pxBlockToInsert.size + next.size⟩ :: rest
      else pxBlockToInsert :: next :: rest

/-- The loop of `prvInsertBlockIntoFreeList` from a block with a lower address. -/
def insertAfter (pxBlockToInsert pxIterator : Block) : List Block → List Block
  | next :: rest =>
      if next.addr < pxBlockToInsert.addr then
        pxIterator :: insertAfter pxBlockToInsert next rest
      else if pxIterator.limit = pxBlockToInsert.addr then
        mergeNext ⟨pxIterator.addr, pxIterator.size + pxBlockToInsert.size⟩ (next :: rest)
      else pxIterator :: mergeNext pxBlockToInsert (next :: rest)
  | [] =>
      if pxIterator.limit = pxBlockToInsert.addr then
        mergeNext ⟨pxIterator.addr, pxIterator.size + pxBlockToInsert.size⟩ []
      else pxIterator :: mergeNext pxBlockToInsert []

/-- `prvInsertBlockIntoFreeList`. The marker `xStart` is not adjacent to any block. -/
def prvInsertBlockIntoFreeList (pxBlockToInsert : Block) : List Block → List Block
  | first :: rest =>
      if first.addr < pxBlockToInsert.addr then insertAfter pxBlockToInsert first rest
      else mergeNext pxBlockToInsert (first :: rest)
  | [] => mergeNext pxBlockToInsert []

/-- `vPortFree`, or `none` where it asserts that the block is allocated. -/
def vPortFree (h : Heap4) (pv : Nat) : Option Heap4 :=
  if pv ≠ 0 then
    let pxLink := pv - xHeapStructSize
    (h.allocated pxLink).map fun xBlockSize =>
      { free := prvInsertBlockIntoFreeList ⟨pxLink, xBlockSize⟩ h.free
        allocated := Function.update h.allocated pxLink none
        xFreeBytesRemaining := h.xFreeBytesRemaining + xBlockSize }
  else some h

/-- `prvHeapInit`: one free block from the aligned start to the end marker. -/
def prvHeapInit (ucHeap configTotalHeapSize : Nat) : Heap4 :=
  let uxStartAddress := (ucHeap + (portByteAlignment - 1)) / portByteAlignment * portByteAlignment
  let uxEndAddress :=
    (ucHeap + configTotalHeapSize - xHeapStructSize) / portByteAlignment * portByteAlignment
  { free := [⟨uxStartAddress, uxEndAddress - uxStartAddress⟩]
    allocated := fun _ => none
    xFreeBytesRemaining := uxEndAddress - uxStartAddress }

/-! ## Free lists -/

/-- The bytes of a list of blocks. -/
def total (blocks : List Block) : Nat := (blocks.map Span.size).sum

@[simp] theorem total_nil : total [] = 0 := rfl

@[simp] theorem total_cons (b : Block) (blocks : List Block) :
    total (b :: blocks) = b.size + total blocks := by
  simp [total]

/-- The list is the free list `before` with the block `b` added to it. -/
structure Adds (b : Block) (before after : List Block) : Prop where
  separated : Separated after
  covers : ∀ x, Covers after x ↔ b.Mem x ∨ Covers before x
  total : total after = b.size + total before

variable {b c : Block} {blocks : List Block}

theorem limit_le_of_disjoint {a : Block} (hlt : a.addr < b.addr) (hsize : 0 < b.size)
    (hdisjoint : ∀ x, b.Mem x → ¬ a.Mem x) : a.limit ≤ b.addr := by
  by_contra hover
  refine hdisjoint b.addr ⟨Nat.le_refl _, ?_⟩ ⟨Nat.le_of_lt hlt, by omega⟩
  exact Nat.lt_add_of_pos_right hsize

theorem mergeNext_adds (hsep : Separated blocks) (hsize : 0 < b.size)
    (hbefore : ∀ c ∈ blocks, b.limit ≤ c.addr) :
    Adds b blocks (mergeNext b blocks) ∧ ∀ c ∈ mergeNext b blocks, b.addr ≤ c.addr := by
  cases blocks with
  | nil =>
      refine ⟨⟨hsep.cons hsize (by simp), fun x => ?_, rfl⟩, by simp [mergeNext]⟩
      simp [mergeNext]
  | cons next rest =>
      have hnext := hbefore next (by simp)
      have hpos := hsep.nonempty next (by simp)
      have hgap := hsep.head_gap
      simp only [mergeNext]
      split
      next hadjacent =>
        have hlimit : (⟨b.addr, b.size + next.size⟩ : Block).limit = next.limit := by
          simp only [Span.limit] at hadjacent ⊢
          omega
        refine ⟨⟨hsep.tail.cons (by simp only; omega) fun c hc => ?_, fun x => ?_, ?_⟩,
          fun c hc => ?_⟩
        · rw [hlimit]
          exact hgap c hc
        · simp only [covers_cons, Span.Mem, hlimit]
          simp only [Span.limit] at hadjacent ⊢
          constructor
          · rintro (h | h)
            · by_cases hx : x < b.addr + b.size
              · exact .inl ⟨h.1, hx⟩
              · exact .inr (.inl ⟨by omega, h.2⟩)
            · exact .inr (.inr h)
          · rintro (h | h | h)
            · exact .inl ⟨h.1, by omega⟩
            · exact .inl ⟨by omega, h.2⟩
            · exact .inr h
        · simp only [total_cons]
          omega
        · rcases List.mem_cons.mp hc with rfl | hc
          · exact Nat.le_refl _
          · have := hgap c hc
            simp only [Span.limit] at *
            omega
      next hapart =>
        have hlow : ∀ c ∈ next :: rest, b.limit < c.addr := by
          intro c hc
          rcases List.mem_cons.mp hc with rfl | hc
          · omega
          · have := hgap c hc
            simp only [Span.limit] at *
            omega
        refine ⟨⟨hsep.cons hsize hlow, fun x => by simp, by simp⟩, fun c hc => ?_⟩
        rcases List.mem_cons.mp hc with rfl | hc
        · exact Nat.le_refl _
        · have := hlow c hc
          simp only [Span.limit] at this
          omega

/-- The block goes between the iterator, with which it may merge, and the rest. -/
theorem insertHere_adds {it : Block} (hsep : Separated (it :: blocks)) (hsize : 0 < b.size)
    (hlow : it.limit ≤ b.addr) (hhigh : ∀ c ∈ blocks, b.limit ≤ c.addr) :
    Adds b (it :: blocks)
        (if it.limit = b.addr then mergeNext ⟨it.addr, it.size + b.size⟩ blocks
          else it :: mergeNext b blocks) ∧
      ∀ c ∈ (if it.limit = b.addr then mergeNext ⟨it.addr, it.size + b.size⟩ blocks
          else it :: mergeNext b blocks), it.addr ≤ c.addr := by
  have hpos := hsep.nonempty it (by simp)
  split
  next hadjacent =>
    have hlimit : (⟨it.addr, it.size + b.size⟩ : Block).limit = b.limit := by
      simp only [Span.limit] at hadjacent ⊢
      omega
    obtain ⟨hadds, hfirst⟩ := mergeNext_adds (b := ⟨it.addr, it.size + b.size⟩) hsep.tail
      (by simp only; omega) (by rw [hlimit]; exact hhigh)
    refine ⟨⟨hadds.separated, fun x => ?_, ?_⟩, hfirst⟩
    · rw [hadds.covers]
      simp only [covers_cons, Span.Mem, hlimit]
      simp only [Span.limit] at hadjacent ⊢
      constructor
      · rintro (h | h)
        · by_cases hx : x < b.addr
          · exact .inr (.inl ⟨h.1, by omega⟩)
          · exact .inl ⟨by omega, h.2⟩
        · exact .inr (.inr h)
      · rintro (h | h | h)
        · exact .inl ⟨by omega, h.2⟩
        · exact .inl ⟨h.1, by omega⟩
        · exact .inr h
    · rw [hadds.total]
      simp only [total_cons]
      omega
  next hapart =>
    obtain ⟨hadds, hfirst⟩ := mergeNext_adds hsep.tail hsize hhigh
    refine ⟨⟨hadds.separated.cons hpos fun c hc => ?_, fun x => ?_, ?_⟩, fun c hc => ?_⟩
    · have := hfirst c hc
      omega
    · rw [covers_cons, hadds.covers, covers_cons]
      tauto
    · rw [total_cons, hadds.total, total_cons]
      omega
    · rcases List.mem_cons.mp hc with rfl | hc
      · exact Nat.le_refl _
      · have := hfirst c hc
        simp only [Span.limit] at hlow
        omega

theorem insertAfter_adds {it : Block} (hsep : Separated (it :: blocks)) (hsize : 0 < b.size)
    (hlt : it.addr < b.addr) (hdisjoint : ∀ x, b.Mem x → ¬ Covers (it :: blocks) x) :
    Adds b (it :: blocks) (insertAfter b it blocks) ∧
      ∀ c ∈ insertAfter b it blocks, it.addr ≤ c.addr := by
  have hlow : it.limit ≤ b.addr :=
    limit_le_of_disjoint hlt hsize fun x hx hit => hdisjoint x hx ⟨it, by simp, hit⟩
  -- the induction follows the iterator down the free list
  induction blocks generalizing it with
  | nil => exact insertHere_adds hsep hsize hlow (by simp)
  | cons next rest ih =>
      simp only [insertAfter]
      split
      next hnext =>
        have hrest : ∀ x, b.Mem x → ¬ Covers (next :: rest) x := by
          intro x hx hcover
          exact hdisjoint x hx ((covers_cons ..).mpr (.inr hcover))
        have hnextLow : next.limit ≤ b.addr :=
          limit_le_of_disjoint hnext hsize fun x hx hn => hrest x hx ⟨next, by simp, hn⟩
        obtain ⟨hadds, hfirst⟩ := ih hsep.tail hnext hrest hnextLow
        have hgap := hsep.head_gap next (by simp)
        have hpos := hsep.nonempty it (by simp)
        refine ⟨⟨hadds.separated.cons hpos fun c hc => ?_, fun x => ?_, ?_⟩, fun c hc => ?_⟩
        · have := hfirst c hc
          omega
        · rw [covers_cons, hadds.covers, covers_cons it]
          tauto
        · rw [total_cons, hadds.total, total_cons it]
          omega
        · rcases List.mem_cons.mp hc with rfl | hc
          · exact Nat.le_refl _
          · have := hfirst c hc
            simp only [Span.limit] at hgap
            omega
      next hnext =>
        refine insertHere_adds hsep hsize hlow fun c hc => ?_
        by_contra hover
        have hle : next.addr ≤ c.addr := by
          rcases List.mem_cons.mp hc with rfl | hc
          · exact Nat.le_refl _
          · have := hsep.tail.head_gap c hc
            simp only [Span.limit] at this
            omega
        have hpos := hsep.nonempty c (List.mem_cons_of_mem _ hc)
        refine hdisjoint c.addr ⟨by omega, by omega⟩ ⟨c, List.mem_cons_of_mem _ hc, Nat.le_refl _,
          ?_⟩
        exact Nat.lt_add_of_pos_right hpos

/-- Inserting a block that was not free adds its bytes to the free list. -/
theorem prvInsertBlockIntoFreeList_adds (hsep : Separated blocks) (hsize : 0 < b.size)
    (hdisjoint : ∀ x, b.Mem x → ¬ Covers blocks x) :
    Adds b blocks (prvInsertBlockIntoFreeList b blocks) := by
  cases blocks with
  | nil => exact (mergeNext_adds hsep hsize (by simp)).1
  | cons first rest =>
      simp only [prvInsertBlockIntoFreeList]
      split
      next hfirst => exact (insertAfter_adds hsep hsize hfirst hdisjoint).1
      next hfirst =>
        refine (mergeNext_adds hsep hsize fun c hc => ?_).1
        by_contra hover
        have hle : first.addr ≤ c.addr := by
          rcases List.mem_cons.mp hc with rfl | hc
          · exact Nat.le_refl _
          · have := hsep.head_gap c hc
            simp only [Span.limit] at this
            omega
        have hpos := hsep.nonempty c hc
        refine hdisjoint c.addr ⟨by omega, by omega⟩ ⟨c, hc, Nat.le_refl _, ?_⟩
        exact Nat.lt_add_of_pos_right hpos

/-- Taking a block is the reverse of adding it. -/
theorem takeBlock_adds {w : Nat} (hw : 0 < w) (hsep : Separated blocks) {rest : List Block}
    (htake : takeBlock w blocks = some (b, rest)) :
    Separated rest ∧ 0 < b.size ∧ (∀ x, Covers blocks x ↔ b.Mem x ∨ Covers rest x) ∧
      (∀ x, b.Mem x → ¬ Covers rest x) ∧ total blocks = b.size + total rest ∧
      (∀ c ∈ rest, ∃ d ∈ blocks, d.addr ≤ c.addr) ∧ (∃ d ∈ blocks, d.addr ≤ b.addr) := by
  -- on the walk over the free list; the first block that is large enough is taken
  induction blocks generalizing rest with
  | nil => simp [takeBlock] at htake
  | cons first blocks ih =>
      have hpos := hsep.nonempty first (by simp)
      have hgap := hsep.head_gap
      simp only [takeBlock] at htake
      split at htake
      next hsmall =>
        obtain ⟨⟨taken, rest'⟩, htail, heq⟩ := Option.map_eq_some_iff.mp htake
        simp only [Prod.mk.injEq] at heq
        obtain ⟨rfl, rfl⟩ := heq
        obtain ⟨hsep', hsize, hcovers, hapart, htotal, hlow, d, hd, hdle⟩ := ih hsep.tail htail
        have htaken : first.limit < taken.addr := Nat.lt_of_lt_of_le (hgap d hd) hdle
        refine ⟨hsep'.cons hpos fun c hc => ?_, hsize, fun x => ?_, fun x hx hcover => ?_, ?_, ?_,
          d, List.mem_cons_of_mem _ hd, hdle⟩
        · obtain ⟨e, he, hele⟩ := hlow c hc
          exact Nat.lt_of_lt_of_le (hgap e he) hele
        · rw [covers_cons, hcovers, covers_cons]
          tauto
        · rcases (covers_cons ..).mp hcover with hmem | hcover
          · have := hmem.2
            have := hx.1
            omega
          · exact hapart x hx hcover
        · simp only [total_cons, htotal]
          omega
        · intro c hc
          rcases List.mem_cons.mp hc with rfl | hc
          · exact ⟨c, by simp, Nat.le_refl _⟩
          · obtain ⟨e, he, hele⟩ := hlow c hc
            exact ⟨e, List.mem_cons_of_mem _ he, hele⟩
      next hlarge =>
        split at htake
        next hsplit =>
          simp only [Option.some.injEq, Prod.mk.injEq] at htake
          obtain ⟨rfl, rfl⟩ := htake
          -- what is left over ends where the block ended
          have hlimit : (⟨first.addr + w, first.size - w⟩ : Block).limit = first.limit := by
            simp only [Span.limit]
            omega
          refine ⟨hsep.tail.cons (by simp only; omega) (by rw [hlimit]; exact hgap), hw,
            fun x => ?_, fun x hx hcover => ?_, ?_, ?_, first, by simp, Nat.le_refl _⟩
          · simp only [covers_cons, Span.Mem, hlimit]
            simp only [Span.limit]
            constructor
            · rintro (h | h)
              · by_cases hx : x < first.addr + w
                · exact .inl ⟨h.1, hx⟩
                · exact .inr (.inl ⟨by omega, h.2⟩)
              · exact .inr (.inr h)
            · rintro (h | h | h)
              · exact .inl ⟨h.1, by omega⟩
              · exact .inl ⟨by omega, h.2⟩
              · exact .inr h
          · have hin := hx.2
            simp only [Span.limit] at hin
            rcases (covers_cons ..).mp hcover with hmem | ⟨c, hc, hmem⟩
            · have := hmem.1
              simp only at this
              omega
            · have hlow := hgap c hc
              have := hmem.1
              simp only [Span.limit] at hlow
              omega
          · simp only [total_cons]
            omega
          · intro c hc
            rcases List.mem_cons.mp hc with rfl | hc
            · exact ⟨first, by simp, Nat.le_add_right _ _⟩
            · exact ⟨c, List.mem_cons_of_mem _ hc, Nat.le_refl _⟩
        next hwhole =>
          simp only [Option.some.injEq, Prod.mk.injEq] at htake
          obtain ⟨rfl, rfl⟩ := htake
          refine ⟨hsep.tail, hpos, fun x => covers_cons .., ?_, total_cons .., ?_,
            first, by simp, Nat.le_refl _⟩
          · rintro x hx ⟨c, hc, hmem⟩
            have hlow := hgap c hc
            have := hmem.1
            have := hx.2
            omega
          · exact fun c hc => ⟨c, List.mem_cons_of_mem _ hc, Nat.le_refl _⟩

/-! ## The invariant of the allocator -/

/-- The block whose header is at `addr` is allocated, and holds the byte `x`. -/
def Heap4.Holds (h : Heap4) (addr x : Nat) : Prop :=
  ∃ size, h.allocated addr = some size ∧ (⟨addr, size⟩ : Block).Mem x

/-- Free and allocated blocks partition the memory from `low` to `high`, and the
free list is in its normal form. -/
structure Sound (h : Heap4) (low high : Nat) : Prop where
  separated : Separated h.free
  bytes : h.xFreeBytesRemaining = total h.free
  nonempty : ∀ addr size, h.allocated addr = some size → 0 < size
  region : ∀ x, (Covers h.free x ∨ ∃ addr, h.Holds addr x) ↔ low ≤ x ∧ x < high
  apart : ∀ addr x, h.Holds addr x → ¬ Covers h.free x
  disjoint : ∀ addr addr' x, h.Holds addr x → h.Holds addr' x → addr = addr'

namespace Sound

variable {h h' : Heap4} {low high : Nat}

theorem holds_update {addr : Nat} {value : Option Nat} {a x : Nat} {free : List Block} {n : Nat} :
    (⟨free, Function.update h.allocated addr value, n⟩ : Heap4).Holds a x ↔
      if a = addr then ∃ size, value = some size ∧ (⟨addr, size⟩ : Block).Mem x
      else h.Holds a x := by
  unfold Heap4.Holds
  split
  next ha =>
    subst ha
    simp
  next ha => simp [ha]

/-- An allocation makes one block allocated that was free. -/
theorem malloc (hsound : Sound h low high) {wanted pv : Nat}
    (hmalloc : pvPortMalloc h wanted = some (pv, h')) :
    Sound h' low high ∧ ∃ addr size, pv = addr + xHeapStructSize ∧ h.allocated addr = none ∧
      h'.allocated = Function.update h.allocated addr (some size) := by
  unfold pvPortMalloc at hmalloc
  dsimp only at hmalloc
  split at hmalloc
  next =>
    split at hmalloc
    next hwanted =>
      obtain ⟨⟨block, rest⟩, htake, heq⟩ := Option.map_eq_some_iff.mp hmalloc
      simp only [Prod.mk.injEq] at heq
      obtain ⟨rfl, rfl⟩ := heq
      obtain ⟨hsep, hsize, hcovers, hapart, htotal, -⟩ :=
        takeBlock_adds hwanted.1 hsound.separated htake
      have hblock : ∀ x, block.Mem x → Covers h.free x := fun x hx => (hcovers x).mpr (.inl hx)
      have hfirst : block.Mem block.addr := ⟨Nat.le_refl _, Nat.lt_add_of_pos_right hsize⟩
      -- the block was free, so no allocated block holds its first byte
      have hfresh : h.allocated block.addr = none := by
        cases hold : h.allocated block.addr with
        | none => rfl
        | some size =>
            have hpos := hsound.nonempty _ _ hold
            exact absurd (hblock _ hfirst) (hsound.apart block.addr block.addr
              ⟨size, hold, Nat.le_refl _, Nat.lt_add_of_pos_right hpos⟩)
      refine ⟨⟨hsep, ?_, fun addr size hsome => ?_, fun x => ?_, fun addr x hholds => ?_,
        fun addr addr' x hholds hholds' => ?_⟩, block.addr, block.size, rfl, hfresh, rfl⟩
      · simp only [hsound.bytes, htotal, Nat.add_sub_cancel_left]
      · by_cases ha : addr = block.addr
        · subst ha
          simp only [Function.update_self, Option.some.injEq] at hsome
          omega
        · simp only [Function.update_of_ne ha] at hsome
          exact hsound.nonempty addr size hsome
      -- a byte of the new block leaves the free list and belongs to the allocated block
      · rw [← hsound.region x, hcovers x]
        constructor
        · rintro (hcover | ⟨addr, hholds⟩)
          · exact .inl (.inr hcover)
          · rw [holds_update] at hholds
            split at hholds
            · obtain ⟨size, heq, hmem⟩ := hholds
              cases heq
              exact .inl (.inl hmem)
            · exact .inr ⟨addr, hholds⟩
        · rintro ((hmem | hcover) | ⟨addr, hholds⟩)
          · exact .inr ⟨block.addr, holds_update.mpr (by simpa using hmem)⟩
          · exact .inl hcover
          · refine .inr ⟨addr, holds_update.mpr ?_⟩
            have hne : addr ≠ block.addr := by
              rintro rfl
              obtain ⟨size, hsome, -⟩ := hholds
              simp [hfresh] at hsome
            rw [if_neg hne]
            exact hholds
      · rw [holds_update] at hholds
        split at hholds
        · obtain ⟨size, heq, hmem⟩ := hholds
          cases heq
          exact hapart x hmem
        · exact fun hcover => hsound.apart addr x hholds ((hcovers x).mpr (.inr hcover))
      · rw [holds_update] at hholds hholds'
        split at hholds
        next ha =>
          obtain ⟨size, heq, hmem⟩ := hholds
          cases heq
          split at hholds'
          next ha' => rw [ha, ha']
          next => exact absurd (hblock x hmem) (hsound.apart addr' x hholds')
        next =>
          split at hholds'
          next =>
            obtain ⟨size, heq, hmem⟩ := hholds'
            cases heq
            exact absurd (hblock x hmem) (hsound.apart addr x hholds)
          next => exact hsound.disjoint addr addr' x hholds hholds'
    next => simp at hmalloc
  next => simp at hmalloc

/-- A release makes one allocated block free. -/
theorem free (hsound : Sound h low high) {addr size : Nat} (halloc : h.allocated addr = some size) :
    ∃ h', vPortFree h (addr + xHeapStructSize) = some h' ∧ Sound h' low high ∧
      h'.allocated = Function.update h.allocated addr none := by
  have hpos := hsound.nonempty addr size halloc
  have hmine : ∀ x, (⟨addr, size⟩ : Block).Mem x → h.Holds addr x := fun x hx => ⟨size, halloc, hx⟩
  have hadds := prvInsertBlockIntoFreeList_adds (b := ⟨addr, size⟩) hsound.separated hpos
    fun x hx => hsound.apart addr x (hmine x hx)
  have hne : addr + xHeapStructSize ≠ 0 := by simp [xHeapStructSize]
  have hfree : vPortFree h (addr + xHeapStructSize) = some
      ⟨prvInsertBlockIntoFreeList ⟨addr, size⟩ h.free, Function.update h.allocated addr none,
        h.xFreeBytesRemaining + size⟩ := by
    rw [vPortFree, if_pos hne]
    simp [halloc]
  refine ⟨_, hfree, ⟨hadds.separated, ?_, fun a n hsome => ?_, fun x => ?_,
    fun a x hholds => ?_, fun a a' x hholds hholds' => ?_⟩, rfl⟩
  · simp only [hadds.total, hsound.bytes]
    omega
  · by_cases ha : a = addr
    · subst ha
      simp at hsome
    · simp only [Function.update_of_ne ha] at hsome
      exact hsound.nonempty a n hsome
  · rw [← hsound.region x, hadds.covers x]
    constructor
    · rintro ((hmem | hcover) | ⟨a, hholds⟩)
      · exact .inr ⟨addr, hmine x hmem⟩
      · exact .inl hcover
      · rw [holds_update] at hholds
        split at hholds
        · simp at hholds
        · exact .inr ⟨a, hholds⟩
    · rintro (hcover | ⟨a, hholds⟩)
      · exact .inl (.inr hcover)
      · by_cases ha : a = addr
        · subst ha
          obtain ⟨n, hsome, hmem⟩ := hholds
          obtain rfl : size = n := Option.some.inj (halloc.symm.trans hsome)
          exact .inl (.inl hmem)
        · exact .inr ⟨a, holds_update.mpr (by rw [if_neg ha]; exact hholds)⟩
  · rw [holds_update] at hholds
    split at hholds
    · simp at hholds
    next ha =>
      intro hcover
      rcases (hadds.covers x).mp hcover with hmem | hcover
      · exact ha (hsound.disjoint a addr x hholds (hmine x hmem))
      · exact hsound.apart a x hholds hcover
  · rw [holds_update] at hholds hholds'
    split at hholds
    · simp at hholds
    · split at hholds'
      · simp at hholds'
      · exact hsound.disjoint a a' x hholds hholds'

/-- The free list is determined by the allocated blocks. -/
theorem unique (hsound : Sound h low high) (hsound' : Sound h' low high)
    (halloc : h.allocated = h'.allocated) :
    h.free = h'.free ∧ h.xFreeBytesRemaining = h'.xFreeBytesRemaining := by
  have hholds (addr x : Nat) : h.Holds addr x ↔ h'.Holds addr x := by
    unfold Heap4.Holds
    rw [halloc]
  have hfree : h.free = h'.free := by
    refine hsound.separated.unique hsound'.separated fun x => ?_
    constructor
    · intro hcover
      rcases (hsound'.region x).mpr ((hsound.region x).mp (.inl hcover)) with hcover' | ⟨addr, hx⟩
      · exact hcover'
      · exact absurd hcover (hsound.apart addr x ((hholds addr x).mpr hx))
    · intro hcover
      rcases (hsound.region x).mpr ((hsound'.region x).mp (.inl hcover)) with hcover' | ⟨addr, hx⟩
      · exact hcover'
      · exact absurd hcover (hsound'.apart addr x ((hholds addr x).mp hx))
  exact ⟨hfree, by rw [hsound.bytes, hsound'.bytes, hfree]⟩

end Sound

/-! ## Pointers -/

/-- The size of the block that a pointer was returned for, or `none`. -/
def Heap4.block (h : Heap4) (pv : Nat) : Option Nat :=
  if xHeapStructSize ≤ pv then h.allocated (pv - xHeapStructSize) else none

theorem block_update {h : Heap4} {addr : Nat} {value : Option Nat} {h' : Heap4}
    (halloc : h'.allocated = Function.update h.allocated addr value) :
    h'.block = Function.update h.block (addr + xHeapStructSize) value := by
  funext pv
  by_cases hpv : pv = addr + xHeapStructSize
  · simp [hpv, Heap4.block, halloc]
  · rw [Function.update_of_ne hpv]
    unfold Heap4.block
    split
    next hle =>
      have hne : pv - xHeapStructSize ≠ addr := by omega
      rw [halloc, Function.update_of_ne hne]
    next => rfl

/-- An allocation returns a pointer that was not in use. -/
theorem Sound.pvPortMalloc {h h' : Heap4} {low high wanted pv : Nat} (hsound : Sound h low high)
    (hmalloc : Heap.pvPortMalloc h wanted = some (pv, h')) :
    Sound h' low high ∧ h.block pv = none ∧
      ∃ size, h'.block = Function.update h.block pv (some size) := by
  obtain ⟨hsound', addr, size, rfl, hfresh, halloc⟩ := hsound.malloc hmalloc
  exact ⟨hsound', by simpa [Heap4.block] using hfresh, size, block_update halloc⟩

/-- A pointer that is in use can be released. -/
theorem Sound.vPortFree {h : Heap4} {low high pv size : Nat} (hsound : Sound h low high)
    (hblock : h.block pv = some size) :
    ∃ h', Heap.vPortFree h pv = some h' ∧ Sound h' low high ∧
      h'.block = Function.update h.block pv none := by
  unfold Heap4.block at hblock
  split at hblock
  next hle =>
    obtain ⟨h', hfree, hsound', halloc⟩ := hsound.free hblock
    rw [Nat.sub_add_cancel hle] at hfree
    refine ⟨h', hfree, hsound', ?_⟩
    have hupdate := block_update halloc
    rwa [Nat.sub_add_cancel hle] at hupdate
  next => simp at hblock

/-- Two heaps with the same pointers in use have the same free list. -/
theorem Sound.free_eq {h h' : Heap4} {low high : Nat} (hsound : Sound h low high)
    (hsound' : Sound h' low high) (hblock : h.block = h'.block) :
    h.free = h'.free ∧ h.xFreeBytesRemaining = h'.xFreeBytesRemaining := by
  refine hsound.unique hsound' (funext fun addr => ?_)
  simpa [Heap4.block] using congrFun hblock (addr + xHeapStructSize)

/-- The bounds of the heap: its aligned start, and its end marker. -/
def heapStart (ucHeap : Nat) : Nat :=
  (ucHeap + (portByteAlignment - 1)) / portByteAlignment * portByteAlignment

def heapEnd (ucHeap configTotalHeapSize : Nat) : Nat :=
  (ucHeap + configTotalHeapSize - xHeapStructSize) / portByteAlignment * portByteAlignment

/-- The heap is sound from its initialisation on. -/
theorem prvHeapInit_sound_at {ucHeap size : Nat} (hsize : 32 ≤ size) :
    Sound (prvHeapInit ucHeap size) (heapStart ucHeap) (heapEnd ucHeap size) := by
  have hlt : heapStart ucHeap < heapEnd ucHeap size := by
    simp only [heapStart, heapEnd, portByteAlignment, xHeapStructSize]
    omega
  have hfree : (prvHeapInit ucHeap size).free =
      [⟨heapStart ucHeap, heapEnd ucHeap size - heapStart ucHeap⟩] := rfl
  refine ⟨⟨List.pairwise_singleton ..,
      ?_⟩, by simp [prvHeapInit], by simp [prvHeapInit], fun x => ?_,
    ?_, ?_⟩
  · intro b hb
    obtain rfl := List.mem_singleton.mp hb
    exact Nat.sub_pos_of_lt hlt
  · simp only [hfree, covers_cons, covers_nil, or_false, Heap4.Holds, Span.Mem, Span.limit]
    constructor
    · rintro (h | ⟨addr, size, hsome, -⟩)
      · omega
      · simp [prvHeapInit] at hsome
    · intro h
      exact .inl (by omega)
  · rintro addr x ⟨size, hsome, -⟩
    simp [prvHeapInit] at hsome
  · rintro addr addr' x ⟨size, hsome, -⟩
    simp [prvHeapInit] at hsome

theorem prvHeapInit_sound {ucHeap size : Nat} (hsize : 32 ≤ size) :
    ∃ low high, Sound (prvHeapInit ucHeap size) low high :=
  ⟨_, _, prvHeapInit_sound_at hsize⟩

end SimulatedLinux.Heap
