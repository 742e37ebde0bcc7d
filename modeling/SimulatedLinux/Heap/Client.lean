import SimulatedLinux.Heap.Heap4
import SimulatedLinux.Lib.Run

/-! # The users of the heap

All objects of the shim, of the lwIP layer and of the kernel come from one heap. Here its
users are anybody who allocates any size and releases each pointer once. Whatever they
do, every object has an aligned block of its own, and an allocation fails only where no
free block is large enough.
-/

namespace SimulatedLinux.Heap

open Lib

/-! ## Alignment -/

/-- The header and the size of the block are aligned. -/
def Aligned (b : Block) : Prop := portByteAlignment ∣ b.addr ∧ portByteAlignment ∣ b.size

section Aligned

variable {b c it : Block} {blocks rest : List Block} {w : Nat}

theorem Aligned.merge (hb : Aligned b) (hc : Aligned c) : Aligned ⟨b.addr, b.size + c.size⟩ :=
  ⟨hb.1, Nat.dvd_add hb.2 hc.2⟩

theorem mergeNext_aligned (hb : Aligned b) (hblocks : ∀ c ∈ blocks, Aligned c) :
    ∀ c ∈ mergeNext b blocks, Aligned c := by
  cases blocks with
  | nil => simpa [mergeNext] using hb
  | cons next rest =>
      rw [List.forall_mem_cons] at hblocks
      simp only [mergeNext]
      split
      · exact List.forall_mem_cons.mpr ⟨hb.merge hblocks.1, hblocks.2⟩
      · exact List.forall_mem_cons.mpr ⟨hb, List.forall_mem_cons.mpr hblocks⟩

theorem insertAfter_aligned (hb : Aligned b) (hblocks : ∀ c ∈ it :: blocks, Aligned c) :
    ∀ c ∈ insertAfter b it blocks, Aligned c := by
  have hhere : ∀ {it : Block} {blocks : List Block}, (∀ c ∈ it :: blocks, Aligned c) →
      ∀ c ∈ (if it.limit = b.addr then mergeNext ⟨it.addr, it.size + b.size⟩ blocks
        else it :: mergeNext b blocks), Aligned c := by
    intro it blocks hblocks
    rw [List.forall_mem_cons] at hblocks
    split
    · exact mergeNext_aligned (hblocks.1.merge hb) hblocks.2
    · exact List.forall_mem_cons.mpr ⟨hblocks.1, mergeNext_aligned hb hblocks.2⟩
  -- on the walk to the place of insertion; a merged block begins where an aligned one began
  induction blocks generalizing it with
  | nil => exact hhere hblocks
  | cons next rest ih =>
      simp only [insertAfter]
      split
      · rw [List.forall_mem_cons] at hblocks
        exact List.forall_mem_cons.mpr ⟨hblocks.1, ih hblocks.2⟩
      · exact hhere hblocks

theorem prvInsertBlockIntoFreeList_aligned (hb : Aligned b) (hblocks : ∀ c ∈ blocks, Aligned c) :
    ∀ c ∈ prvInsertBlockIntoFreeList b blocks, Aligned c := by
  cases blocks with
  | nil => exact mergeNext_aligned hb hblocks
  | cons first rest =>
      simp only [prvInsertBlockIntoFreeList]
      split
      · exact insertAfter_aligned hb hblocks
      · exact mergeNext_aligned hb hblocks

/-- The block that is taken is large enough, and what is left is aligned. -/
theorem takeBlock_aligned (hw : portByteAlignment ∣ w) (hblocks : ∀ c ∈ blocks, Aligned c)
    (htake : takeBlock w blocks = some (b, rest)) :
    w ≤ b.size ∧ Aligned b ∧ ∀ c ∈ rest, Aligned c := by
  induction blocks generalizing rest with
  | nil => simp [takeBlock] at htake
  | cons first blocks ih =>
      rw [List.forall_mem_cons] at hblocks
      simp only [takeBlock] at htake
      split at htake
      next =>
        obtain ⟨⟨taken, rest'⟩, htail, heq⟩ := Option.map_eq_some_iff.mp htake
        simp only [Prod.mk.injEq] at heq
        obtain ⟨rfl, rfl⟩ := heq
        obtain ⟨hsize, haligned, hrest⟩ := ih hblocks.2 htail
        exact ⟨hsize, haligned, List.forall_mem_cons.mpr ⟨hblocks.1, hrest⟩⟩
      next hlarge =>
        split at htake <;> cases htake
        · refine ⟨Nat.le_refl _, ⟨hblocks.1.1, hw⟩, List.forall_mem_cons.mpr ⟨⟨?_, ?_⟩, hblocks.2⟩⟩
          · exact Nat.dvd_add hblocks.1.1 hw
          · exact Nat.dvd_sub hblocks.1.2 hw
        · exact ⟨Nat.le_of_not_lt hlarge, hblocks.1, hblocks.2⟩

/-- No block is taken only where each of them is too small. -/
theorem takeBlock_eq_none : takeBlock w blocks = none ↔ ∀ c ∈ blocks, c.size < w := by
  induction blocks with
  | nil => simp [takeBlock]
  | cons first blocks ih =>
      simp only [takeBlock, List.forall_mem_cons]
      split
      next hsmall => simp [hsmall, ih]
      next hlarge =>
        split <;> simp [hlarge]

end Aligned

/-! ## Sizes -/

/-- The size of a request with its header, rounded up to the alignment. -/
def roundedSize (xWantedSize : Nat) : Nat :=
  (xWantedSize + xHeapStructSize + (portByteAlignment - 1)) / portByteAlignment * portByteAlignment

/-- The checks for overflow let the rounded size through, and no other. -/
theorem requiredSize_eq {n : Nat} (hn : 0 < n) :
    requiredSize n = if roundedSize n ≤ sizeMax then roundedSize n else 0 := by
  unfold requiredSize roundedSize
  dsimp only
  repeat' split
  all_goals simp only [xHeapStructSize, portByteAlignment, sizeMax] at *
  all_goals omega

theorem roundedSize_spec (n : Nat) :
    portByteAlignment ∣ roundedSize n ∧ n + xHeapStructSize ≤ roundedSize n := by
  refine ⟨Nat.dvd_mul_left _ _, ?_⟩
  simp only [roundedSize, xHeapStructSize, portByteAlignment]
  omega

theorem size_le_total {b : Block} {blocks : List Block} (hb : b ∈ blocks) :
    b.size ≤ total blocks := by
  induction blocks with
  | nil => simp at hb
  | cons first rest ih =>
      rw [total_cons]
      rcases List.mem_cons.mp hb with rfl | hb
      · exact Nat.le_add_right ..
      · exact Nat.le_trans (ih hb) (Nat.le_add_left ..)

variable {h h' : Heap4} {low high n pv : Nat}

/-- What a successful allocation does. -/
theorem pvPortMalloc_some (hmalloc : pvPortMalloc h n = some (pv, h')) :
    0 < n ∧ ∃ b rest, takeBlock (roundedSize n) h.free = some (b, rest) ∧
      pv = b.addr + xHeapStructSize ∧
      h' = ⟨rest, Function.update h.allocated b.addr (some b.size),
        h.xFreeBytesRemaining - b.size⟩ := by
  unfold pvPortMalloc at hmalloc
  dsimp only at hmalloc
  split at hmalloc
  next =>
    split at hmalloc
    next hwanted =>
      have hn : 0 < n := by
        by_contra hzero
        simp [requiredSize, hzero] at hwanted
      rw [requiredSize_eq hn] at hwanted hmalloc
      split at hwanted
      next hfits =>
        rw [if_pos hfits] at hmalloc
        obtain ⟨⟨b, rest⟩, htake, heq⟩ := Option.map_eq_some_iff.mp hmalloc
        simp only [Prod.mk.injEq] at heq
        exact ⟨hn, b, rest, htake, heq.1.symm, heq.2.symm⟩
      next => simp at hwanted
    next => simp at hmalloc
  next => simp at hmalloc

/-- What the release of a pointer that is in use does. -/
theorem vPortFree_some {size : Nat} (hblock : h.block pv = some size) :
    h.allocated (pv - xHeapStructSize) = some size ∧
      vPortFree h pv = some ⟨prvInsertBlockIntoFreeList ⟨pv - xHeapStructSize, size⟩ h.free,
        Function.update h.allocated (pv - xHeapStructSize) none, h.xFreeBytesRemaining + size⟩ := by
  unfold Heap4.block at hblock
  split at hblock
  next hle =>
    have hne : pv ≠ 0 := by
      rintro rfl
      simp [xHeapStructSize] at hle
    simp [vPortFree, hne, hblock]
  next => simp at hblock

/-- An allocation fails exactly where the size is not acceptable, or no free block is
large enough. -/
theorem Sound.pvPortMalloc_eq_none (hsound : Sound h low high) (hn : 0 < n) :
    Heap.pvPortMalloc h n = none ↔ sizeMax < roundedSize n ∨
      heapBlockAllocatedBitmask ≤ roundedSize n ∨
      ∀ b ∈ h.free, b.size < roundedSize n := by
  have hpos : 0 < roundedSize n :=
    Nat.lt_of_lt_of_le hn (Nat.le_trans (Nat.le_add_right ..) (roundedSize_spec n).2)
  have hroom : (∃ b ∈ h.free, roundedSize n ≤ b.size) → roundedSize n ≤ h.xFreeBytesRemaining := by
    rintro ⟨b, hb, hle⟩
    rw [hsound.bytes]
    exact Nat.le_trans hle (size_le_total hb)
  unfold Heap.pvPortMalloc
  rw [requiredSize_eq hn]
  dsimp only
  by_cases hfits : roundedSize n ≤ sizeMax
  · simp only [if_pos hfits, Nat.not_lt.mpr hfits, false_or, hpos, true_and]
    by_cases hbit : roundedSize n < heapBlockAllocatedBitmask
    · simp only [if_pos hbit, Nat.not_le.mpr hbit, false_or]
      split
      next => rw [Option.map_eq_none_iff, takeBlock_eq_none]
      next hshort =>
        simp only [true_iff]
        intro b hb
        by_contra hlarge
        exact hshort (hroom ⟨b, hb, Nat.le_of_not_lt hlarge⟩)
    · simp [hbit, Nat.le_of_not_lt hbit]
  · simp [hfits, Nat.lt_of_not_le hfits]

/-! ## Users -/

/-- The heap, and the pointers that its users hold, with the sizes they asked for. -/
structure Users where
  heap : Heap4
  live : Nat → Option Nat

inductive UserAct
  | alloc (xWantedSize : Nat)
  | release (pv : Nat)

namespace Users

/-- A call of `pvPortMalloc` or `vPortFree`. -/
def step (c : Users) : UserAct → Option Users
  | .alloc xWantedSize =>
      match pvPortMalloc c.heap xWantedSize with
      | some (pv, heap) => some ⟨heap, Function.update c.live pv (some xWantedSize)⟩
      | none => some c
  | .release pv => (vPortFree c.heap pv).map fun heap => ⟨heap, Function.update c.live pv none⟩

/-- Each pointer is released at most once. -/
def Ok (c : Users) : UserAct → Prop
  | .alloc _ => True
  | .release pv => (c.live pv).isSome

/-- The heap after its initialisation, with no users. -/
def start (ucHeap configTotalHeapSize : Nat) :
    Users := ⟨prvHeapInit ucHeap configTotalHeapSize, fun _ => none⟩

/-- The invariant: the users hold the allocated blocks, each large enough. -/
structure Inv (low high : Nat) (c : Users) : Prop where
  sound : Sound c.heap low high
  free : ∀ b ∈ c.heap.free, Aligned b
  allocated : ∀ addr size, c.heap.allocated addr = some size → Aligned ⟨addr, size⟩
  held : ∀ pv, (c.live pv).isSome ↔ (c.heap.block pv).isSome
  large : ∀ pv n size, c.live pv = some n → c.heap.block pv = some size → roundedSize n ≤ size

variable {c c' : Users} {act : UserAct}

theorem Inv.alloc (hinv : Inv low high c) (hmalloc : pvPortMalloc c.heap n = some (pv, h')) :
    Inv low high ⟨h', Function.update c.live pv (some n)⟩ := by
  have hsound := (hinv.sound.malloc hmalloc).1
  obtain ⟨-, b, rest, htake, rfl, rfl⟩ := pvPortMalloc_some hmalloc
  obtain ⟨hsize, haligned, hrest⟩ := takeBlock_aligned (roundedSize_spec n).1 hinv.free htake
  have hblock : (⟨rest, Function.update c.heap.allocated b.addr (some b.size),
      c.heap.xFreeBytesRemaining - b.size⟩ :
      Heap4).block = Function.update c.heap.block (b.addr + xHeapStructSize) (some b.size) :=
    block_update rfl
  refine ⟨hsound, hrest, fun addr size hsome => ?_, fun p => ?_, fun p m size hlive hsome => ?_⟩
  · by_cases ha : addr = b.addr
    · subst ha
      obtain rfl : b.size = size := by simpa using hsome
      exact haligned
    · exact hinv.allocated addr size (by simpa [ha] using hsome)
  · rw [hblock]
    by_cases hp : p = b.addr + xHeapStructSize
    · simp [hp]
    · simpa [hp] using hinv.held p
  · rw [hblock] at hsome
    by_cases hp : p = b.addr + xHeapStructSize
    · subst hp
      obtain rfl : n = m := by simpa using hlive
      obtain rfl : b.size = size := by simpa using hsome
      exact hsize
    · exact hinv.large p m size (by simpa [hp] using hlive) (by simpa [hp] using hsome)

theorem Inv.release (hinv : Inv low high c) (hlive : (c.live pv).isSome) :
    ∃ heap, vPortFree c.heap pv = some heap ∧
      Inv low high ⟨heap, Function.update c.live pv none⟩ := by
  obtain ⟨size, hsize⟩ := Option.isSome_iff_exists.mp ((hinv.held pv).mp hlive)
  obtain ⟨heap, hfree, hsound, hblock⟩ := hinv.sound.vPortFree hsize
  obtain ⟨hused, hheap⟩ := vPortFree_some hsize
  obtain rfl := Option.some.inj (hfree.symm.trans hheap)
  refine ⟨_, hfree, hsound, ?_, fun addr n hsome => ?_, fun p => ?_, fun p m n hlive hsome => ?_⟩
  · exact prvInsertBlockIntoFreeList_aligned (hinv.allocated _ _ hused) hinv.free
  · by_cases ha : addr = pv - xHeapStructSize
    · simp [ha] at hsome
    · exact hinv.allocated addr n (by simpa [ha] using hsome)
  · rw [hblock]
    by_cases hp : p = pv
    · simp [hp]
    · simpa [hp] using hinv.held p
  · rw [hblock] at hsome
    by_cases hp : p = pv
    · simp [hp] at hsome
    · exact hinv.large p m n (by simpa [hp] using hlive) (by simpa [hp] using hsome)

theorem Inv.step (hinv : Inv low high c) (hok : c.Ok act) (hstep : c.step act = some c') :
    Inv low high c' := by
  cases act with
  | alloc n =>
      simp only [Users.step] at hstep
      split at hstep <;> cases hstep
      next pv heap hmalloc => exact hinv.alloc hmalloc
      next => exact hinv
  | release pv =>
      obtain ⟨heap, hfree, hinv'⟩ := hinv.release hok
      simp only [Users.step, hfree, Option.map_some, Option.some.injEq] at hstep
      exact hstep ▸ hinv'

theorem start_inv {ucHeap size : Nat} (hsize : 32 ≤ size) :
    Inv (heapStart ucHeap) (heapEnd ucHeap size) (start ucHeap size) := by
  have haligned : portByteAlignment ∣ heapStart ucHeap ∧ portByteAlignment ∣ heapEnd ucHeap size :=
    ⟨Nat.dvd_mul_left .., Nat.dvd_mul_left ..⟩
  refine ⟨prvHeapInit_sound_at hsize,
    fun b hb => ?_, by simp [start, prvHeapInit], ?_, by simp [start]⟩
  · obtain rfl := List.mem_singleton.mp hb
    exact ⟨haligned.1, Nat.dvd_sub haligned.2 haligned.1⟩
  · simp [start, prvHeapInit, Heap4.block]

end Users

/-! ## The law of the heap -/

/-- A free block, or an allocated one. -/
def Heap4.HasBlock (h : Heap4) (b : Block) : Prop := b ∈ h.free ∨ h.allocated b.addr = some b.size

/-- The law of a heap in the memory from `low` to `high`. -/
structure HeapLaw (low high : Nat) (c : Users) : Prop where
  /-- The blocks cover the memory, and no two of them share a byte. -/
  tiles : ∀ x, low ≤ x ∧ x < high ↔ ∃ b, c.heap.HasBlock b ∧ b.Mem x
  apart : ∀ b b' x, c.heap.HasBlock b → c.heap.HasBlock b' → b.Mem x → b'.Mem x → b = b'
  /-- No free block is allocated. -/
  exclusive : ∀ b ∈ c.heap.free, c.heap.allocated b.addr = none
  sorted : c.heap.free.Pairwise fun b b' => b.addr < b'.addr
  /-- No two free blocks are adjacent. -/
  coalesced : ∀ b ∈ c.heap.free, ∀ b' ∈ c.heap.free, b.limit ≠ b'.addr
  bytes : c.heap.xFreeBytesRemaining = (c.heap.free.map Span.size).sum
  /-- Every object has a block of its own, behind the header. -/
  object : ∀ pv n, c.live pv = some n → portByteAlignment ∣ pv ∧
    ∃ b : Block, c.heap.allocated b.addr = some b.size ∧ pv = b.addr + xHeapStructSize ∧
    pv + n ≤ b.limit
  disjoint : ∀ pv n pv' n' x, c.live pv = some n → c.live pv' = some n' → pv ≤ x → x < pv + n →
    pv' ≤ x → x < pv' + n' → pv = pv'
  /-- A returned pointer is not that of a live object. -/
  fresh : ∀ n pv heap, pvPortMalloc c.heap n = some (pv, heap) → c.live pv = none
  fails : ∀ n, 0 < n → (pvPortMalloc c.heap n = none ↔ sizeMax < roundedSize n ∨
    heapBlockAllocatedBitmask ≤ roundedSize n ∨ ∀ b ∈ c.heap.free, b.size < roundedSize n)

namespace Users

variable {c : Users}

theorem Inv.object (hinv : Inv low high c) (hlive : c.live pv = some n) :
    portByteAlignment ∣ pv ∧ ∃ b : Block,
    c.heap.allocated b.addr = some b.size ∧ pv = b.addr + xHeapStructSize ∧ pv + n ≤ b.limit := by
  obtain ⟨size, hsize⟩ := Option.isSome_iff_exists.mp ((hinv.held pv).mp (by simp [hlive]))
  have hlarge := hinv.large pv n size hlive hsize
  have hrounded := (roundedSize_spec n).2
  obtain ⟨hused, -⟩ := vPortFree_some hsize
  unfold Heap4.block at hsize
  split at hsize
  next hle =>
    have haligned := (hinv.allocated _ _ hused).1
    have hpv : pv = pv - xHeapStructSize + xHeapStructSize := (Nat.sub_add_cancel hle).symm
    refine ⟨?_, ⟨pv - xHeapStructSize, size⟩, hused, hpv, ?_⟩
    · rw [hpv]
      exact Nat.dvd_add haligned (by decide)
    · simp only [Span.limit]
      omega
  next => simp at hsize

theorem Inv.free_ne_used (hinv : Inv low high c) {b : Block} (hb : b ∈ c.heap.free)
    {addr size : Nat} (hused : c.heap.allocated addr = some size) : b.addr ≠ addr := by
  rintro rfl
  have hpos := hinv.sound.separated.nonempty b hb
  have hpos' := hinv.sound.nonempty _ _ hused
  apply hinv.sound.apart b.addr b.addr
  · exact ⟨size, hused, Nat.le_refl _, Nat.lt_add_of_pos_right hpos'⟩
  · exact ⟨b, hb, Nat.le_refl _, Nat.lt_add_of_pos_right hpos⟩

theorem Inv.law (hinv : Inv low high c) : HeapLaw low high c := by
  have hsound := hinv.sound
  have hcover : ∀ x, (∃ b, c.heap.HasBlock b ∧ b.Mem x) ↔ Covers c.heap.free x ∨
      ∃ addr, c.heap.Holds addr x := by
    intro x
    constructor
    · rintro ⟨b, hfree | hused, hmem⟩
      · exact .inl ⟨b, hfree, hmem⟩
      · exact .inr ⟨b.addr, b.size, hused, hmem⟩
    · rintro (⟨b, hfree, hmem⟩ | ⟨addr, size, hused, hmem⟩)
      · exact ⟨b, .inl hfree, hmem⟩
      · exact ⟨⟨addr, size⟩, .inr hused, hmem⟩
  have happart : ∀ b b' x, c.heap.HasBlock b → c.heap.HasBlock b' → b.Mem x → b'.Mem x →
      b = b' := by
    rintro b b' x (hfree | hused) (hfree' | hused') hmem hmem'
    · exact hsound.separated.eq_of_mem hfree hfree' hmem hmem'
    · exact absurd ⟨b, hfree, hmem⟩ (hsound.apart b'.addr x ⟨b'.size, hused', hmem'⟩)
    · exact absurd ⟨b', hfree', hmem'⟩ (hsound.apart b.addr x ⟨b.size, hused, hmem⟩)
    · have haddr := hsound.disjoint b.addr b'.addr x ⟨b.size, hused, hmem⟩ ⟨b'.size, hused', hmem'⟩
      rw [haddr, hused', Option.some.injEq] at hused
      cases b
      cases b'
      simp_all
  refine ⟨fun x => ?_, happart, fun b hb => ?_, ?_, ?_, hsound.bytes,
    fun pv n hlive => hinv.object hlive, ?_, fun n pv heap hmalloc => ?_,
    fun n hn => hsound.pvPortMalloc_eq_none hn⟩
  · rw [hcover, hsound.region]
  · by_contra hused
    obtain ⟨size, hused⟩ := Option.ne_none_iff_exists'.mp hused
    exact hinv.free_ne_used hb hused rfl
  · refine hsound.separated.gap.imp fun {b b'} hgap => ?_
    simp only [Span.limit] at hgap
    omega
  · intro b hb b' hb' hadjacent
    exact hsound.separated.not_adjacent hb hb' hadjacent
  · intro pv n pv' n' x hlive hlive' hlow hhigh hlow' hhigh'
    obtain ⟨-, b, hused, rfl, hlimit⟩ := hinv.object hlive
    obtain ⟨-, b', hused', rfl, hlimit'⟩ := hinv.object hlive'
    have hsame := happart b b' x (.inr hused) (.inr hused') ⟨by omega, by omega⟩
      ⟨by omega, by omega⟩
    rw [hsame]
  · have hheld := hinv.held pv
    rw [(hsound.pvPortMalloc hmalloc).2.1] at hheld
    simpa using hheld

end Users

/-- The law of the heap holds after every sequence of allocations and releases. -/
theorem heap_tiles {ucHeap configTotalHeapSize : Nat} (hsize : 32 ≤ configTotalHeapSize) {c : Users}
    (hreach : Lib.Reach Users.step Users.Ok (Users.start ucHeap configTotalHeapSize) c) :
    HeapLaw (heapStart ucHeap) (heapEnd ucHeap configTotalHeapSize) c := by
  have hinv : Users.Inv (heapStart ucHeap) (heapEnd ucHeap configTotalHeapSize) c :=
    hreach.invariant _ (Users.start_inv hsize) fun _ _ _ hinv hok hstep => hinv.step hok hstep
  exact hinv.law

/-- A descriptor and a semaphore are allocated, the first is released, and a larger block
does not fit in the gap. -/
theorem heap_tiles_demo : ∃ c : Users,
    Lib.execute Users.step (fun c act => match act with
      | .alloc _ => true
      | .release pv => (c.live pv).isSome) (Users.start 0x20000000 (100 * 1024))
      [.alloc 36, .alloc 80, .release 0x20000008, .alloc 96] = some c ∧
    c.heap.free.length = 2 ∧
      HeapLaw (heapStart 0x20000000) (heapEnd 0x20000000 (100 * 1024)) c := by
  have hrun : (Lib.execute Users.step (fun c act => match act with
      | .alloc _ => true
      | .release pv => (c.live pv).isSome) (Users.start 0x20000000 (100 * 1024))
      [.alloc 36, .alloc 80, .release 0x20000008, .alloc 96]).map (fun c => c.heap.free.length) =
      some 2 := by
    decide +kernel
  obtain ⟨c, hc, hlength⟩ := Option.map_eq_some_iff.mp hrun
  refine ⟨c, hc, hlength, heap_tiles (by decide) (Lib.execute_reach (fun c act hcheck => ?_) _ hc)⟩
  cases act with
  | alloc n => trivial
  | release pv => exact hcheck

end SimulatedLinux.Heap
