import SimulatedLinux.Heap.Take

/-! # Objects in the heap

For its users the heap is a store of objects: each has a size and bytes of its own, which nobody
else changes. The functions of `heap_4.c` on the memory are shown to give what this store gives, in
every sequence of calls in which the users keep to their objects.
-/

namespace SimulatedLinux.Heap

open Lib

/-- The objects and what is known of their bytes. -/
structure Objects where
  /-- The heap with the sizes of the objects, or `none` before the first allocation. -/
  users : Option Users
  /-- The bytes of an object that were written since its allocation. -/
  contents : Nat → Nat → Option (BitVec 8)
  /-- The smallest amount of free memory that there was. -/
  minimum : Nat
  allocations : Nat
  frees : Nat

/-- A call of a function of `heap_4.c`, or an access to a byte of an object. -/
inductive HeapCall
  | malloc (xWantedSize : Nat)
  | calloc (xNum xSize : Nat)
  | free (pv : Nat)
  | write (pv offset : Nat) (value : BitVec 8)
  | read (pv offset : Nat)
  | getFreeHeapSize
  | getMinimumEverFreeHeapSize
  | resetHeapMinimumEverFreeHeapSize
  | getHeapStats
  deriving DecidableEq

inductive HeapReply
  | pointer (pv : Nat)
  | byte (value : BitVec 8)
  | bytes (n : Nat)
  | stats (pxHeapStats : HeapStats)
  | done
  deriving DecidableEq

namespace Objects

/-- Before the first allocation. -/
def empty : Objects := ⟨none, fun _ _ => none, 0, 0, 0⟩

/-- The free blocks. -/
def free (S : Objects) : List Block :=
  match S.users with
  | none => []
  | some U => U.heap.free

def stats (S : Objects) : HeapStats where
  xAvailableHeapSpaceInBytes := total S.free
  xSizeOfLargestFreeBlockInBytes := (S.free.map Span.size).foldl max 0
  xSizeOfSmallestFreeBlockInBytes := (S.free.map Span.size).foldl min sizeMax
  xNumberOfFreeBlocks := S.free.length
  xMinimumEverFreeBytesRemaining := S.minimum
  xNumberOfSuccessfulAllocations := S.allocations % sizeModulus
  xNumberOfSuccessfulFrees := S.frees % sizeModulus

/-- The objects at the time of an allocation. The first one initialises the heap. -/
def ready (L : Layout) (S : Objects) : Objects × Users :=
  match S.users with
  | some U => (S, U)
  | none =>
      let U := Users.start L.ucHeap L.configTotalHeapSize
      ({ S with users := some U, minimum := total U.heap.free }, U)

theorem ready_of_none {L : Layout} {S : Objects} (h : S.users = none) :
    S.ready L = ({ S with users := some (Users.start L.ucHeap L.configTotalHeapSize)
                          minimum := total (Users.start L.ucHeap L.configTotalHeapSize).heap.free },
      Users.start L.ucHeap L.configTotalHeapSize) := by
  simp only [ready, h]

theorem ready_of_some {L : Layout} {S : Objects} {U : Users} (h : S.users = some U) :
    S.ready L = (S, U) := by
  simp only [ready, h]

/-- A new object, of whose bytes nothing is known, or 0 where there is no room. -/
def malloc (L : Layout) (S : Objects) (xWantedSize : Nat) : Objects × Nat :=
  match pvPortMalloc (S.ready L).2.heap xWantedSize with
  | none => ((S.ready L).1, 0)
  | some (pv, heap) =>
      ({ users := some ⟨heap, Function.update (S.ready L).2.live pv (some xWantedSize)⟩
         contents := Function.update (S.ready L).1.contents pv fun _ => none
         minimum := min (S.ready L).1.minimum (total heap.free)
         allocations := S.allocations + 1
         frees := S.frees }, pv)

/-- A new object. The users stay in the hook where there is no room and the hook does not return. -/
def allocate (L : Layout) (S : Objects) (xWantedSize : Nat) : Option (Objects × Nat) :=
  if (S.malloc L xWantedSize).2 = 0 ∧ L.hookReturns = false then none
  else some (S.malloc L xWantedSize)

/-- A new object of zeros. The hook is not called where the product overflows. -/
def calloc (L : Layout) (S : Objects) (xNum xSize : Nat) : Option (Objects × Nat) :=
  if 0 < xNum ∧ xSize > sizeMax / xNum then some (S, 0)
  else
    (S.allocate L (xNum * xSize)).map fun (S, pv) =>
      if pv ≠ 0 then
        ({ S with
          contents := Function.update S.contents pv fun offset =>
            if offset < xNum * xSize then some 0 else none }, pv)
      else (S, pv)

/-- An object is gone. Only NULL and objects may be released. -/
def release (S : Objects) (pv : Nat) : Option Objects :=
  if pv = 0 then some S
  else
    S.users.bind fun U =>
      if (U.live pv).isSome then
        (vPortFree U.heap pv).map fun heap =>
          { S with
            users := some ⟨heap, Function.update U.live pv none⟩
            contents := Function.update S.contents pv fun _ => none
            frees := S.frees + 1 }
      else none

/-- The size of an object. -/
def size (S : Objects) (pv : Nat) : Option Nat := S.users.bind fun U => U.live pv

/-- A byte of an object is written. Only bytes of objects may be. -/
def write (S : Objects) (pv offset : Nat) (value : BitVec 8) : Option Objects :=
  (S.size pv).bind fun n =>
    if offset < n then
      some
        { S with
          contents :=
            Function.update S.contents pv (Function.update (S.contents pv) offset (some value)) }
    else none

def call (L : Layout) (S : Objects) : HeapCall → Option (Objects × HeapReply)
  | .malloc xWantedSize => (S.allocate L xWantedSize).map fun (S, pv) => (S, .pointer pv)
  | .calloc xNum xSize => (S.calloc L xNum xSize).map fun (S, pv) => (S, .pointer pv)
  | .free pv => (S.release pv).map fun S => (S, .done)
  | .write pv offset value => (S.write pv offset value).map fun S => (S, .done)
  | .read pv offset => (S.contents pv offset).map fun value => (S, .byte value)
  | .getFreeHeapSize => some (S, .bytes (total S.free))
  | .getMinimumEverFreeHeapSize => some (S, .bytes S.minimum)
  | .resetHeapMinimumEverFreeHeapSize => some ({ S with minimum := total S.free }, .done)
  | .getHeapStats => some (S, .stats S.stats)

end Objects

/-- The calls on the memory. The users' accesses are loads and stores of bytes. -/
def HeapMemory.call (L : Layout) (fuel : Nat) (m : HeapMemory) :
    HeapCall → Option (HeapMemory × HeapReply)
  | .malloc xWantedSize => (m.pvPortMalloc L fuel xWantedSize).map fun (m, pv) => (m, .pointer pv)
  | .calloc xNum xSize => (m.pvPortCalloc L fuel xNum xSize).map fun (m, pv) => (m, .pointer pv)
  | .free pv => (m.vPortFree L fuel pv).map fun m => (m, .done)
  | .write pv offset value =>
    some ({ m with bytes := Function.update m.bytes (pv + offset) value }, .done)
  | .read pv offset => some (m, .byte (m.bytes (pv + offset)))
  | .getFreeHeapSize => some (m, .bytes m.xFreeBytesRemaining)
  | .getMinimumEverFreeHeapSize => some (m, .bytes m.xMinimumEverFreeBytesRemaining)
  | .resetHeapMinimumEverFreeHeapSize =>
      some ({ m with xMinimumEverFreeBytesRemaining := m.xFreeBytesRemaining }, .done)
  | .getHeapStats => (m.vPortGetHeapStats L fuel).map fun stats => (m, .stats stats)

/-! ## Objects in memory -/

/-- The memory holds the objects, from the first allocation on. -/
structure HoldsObjects (L : Layout) (contents : Nat → Nat → Option (BitVec 8)) (U : Users)
    (m : HeapMemory) : Prop where
  inv : U.Inv L.low L.high
  pxEnd : m.pxEnd = L.high
  shape : Shape L U.heap m.next m.size
  bytes : m.xFreeBytesRemaining = total U.heap.free
  contents : ∀ pv offset value, contents pv offset = some value →
    ∃ n, U.live pv = some n ∧ offset < n ∧ m.bytes (pv + offset) = value

/-- The memory before the first allocation: the static data is cleared. -/
structure Untouched (L : Layout) (m : HeapMemory) : Prop where
  pxEnd : m.pxEnd = 0
  next : m.next L.xStart = 0
  bytes : m.xFreeBytesRemaining = 0

/-- The memory and its static data show the objects. -/
structure Refines (L : Layout) (S : Objects) (m : HeapMemory) : Prop where
  memory : (S.users = none ∧ Untouched L m ∧ ∀ pv offset, S.contents pv offset = none) ∨
    ∃ U, S.users = some U ∧ HoldsObjects L S.contents U m
  minimum : m.xMinimumEverFreeBytesRemaining = S.minimum
  allocations : m.xNumberOfSuccessfulAllocations = S.allocations % sizeModulus
  frees : m.xNumberOfSuccessfulFrees = S.frees % sizeModulus

/-! ## Sizes -/

theorem total_le {blocks : List Block} {low high : Nat} (hsep : Separated blocks)
    (hin : ∀ b ∈ blocks, low ≤ b.addr ∧ b.limit ≤ high) : total blocks ≤ high - low := by
  induction blocks generalizing low with
  | nil => exact Nat.zero_le _
  | cons b rest ih =>
      obtain ⟨hb, hrest⟩ := List.forall_mem_cons.mp hin
      have hbelow : total rest ≤ high - b.limit :=
        ih hsep.tail fun c hc => ⟨Nat.le_of_lt (hsep.head_gap c hc), (hrest c hc).2⟩
      rw [total_cons]
      simp only [Span.limit] at *
      omega

theorem length_le_total {blocks : List Block} (hsize : ∀ b ∈ blocks, xHeapStructSize ≤ b.size) :
    xHeapStructSize * blocks.length ≤ total blocks := by
  induction blocks with
  | nil => exact Nat.le_refl _
  | cons b rest ih =>
      obtain ⟨hb, hrest⟩ := List.forall_mem_cons.mp hsize
      have hlength := ih hrest
      rw [total_cons, List.length_cons, Nat.mul_succ]
      omega

variable {L : Layout} {U : Users} {m : HeapMemory} {contents : Nat → Nat → Option (BitVec 8)}
  {fuel n : Nat}

theorem Users.Inv.total_le (hinv : U.Inv L.low L.high) (hfits : L.Fits) :
    total U.heap.free ≤ L.configTotalHeapSize := by
  have htotal : total U.heap.free ≤ L.high - L.low := by
    apply Heap.total_le hinv.sound.separated
    intro b hb
    obtain ⟨hlow, hhigh, -, -⟩ := hinv.block_bounds (.inl hb)
    exact ⟨hlow, hhigh⟩
  have hbounds := hfits.bounds
  omega

/-- The searches are over after one round for each eight bytes of the heap. -/
theorem Users.Inv.rounds (hinv : U.Inv L.low L.high) (hfits : L.Fits)
    (hfuel : L.configTotalHeapSize / xHeapStructSize < fuel) : U.heap.free.length < fuel := by
  have hlength := length_le_total fun b hb => (hinv.block_bounds (.inl hb)).2.2.2
  have htotal := hinv.total_le hfits
  simp only [xHeapStructSize] at *
  omega

theorem requiredSize_facts (n : Nat) :
    requiredSize n < sizeModulus ∧ portByteAlignment ∣ requiredSize n ∧
    (0 < requiredSize n → xHeapStructSize ≤ requiredSize n) := by
  rcases Nat.eq_zero_or_pos n with rfl | hn
  · decide
  · obtain ⟨haligned, hlarge⟩ := roundedSize_spec n
    rw [requiredSize_eq hn]
    split
    next hfits =>
      refine ⟨?_, haligned, fun _ => by omega⟩
      simp only [sizeMax, sizeModulus] at *
      omega
    next => exact ⟨by decide, Nat.dvd_zero _, fun h => absurd h (Nat.lt_irrefl 0)⟩

/-! ## Allocations -/

namespace HoldsObjects

theorem pxEnd_ne (h : HoldsObjects L contents U m) (hfits : L.Fits) : m.pxEnd ≠ 0 := by
  have hbounds := hfits.bounds
  rw [h.pxEnd]
  omega

/-- The search on the memory. -/
theorem findBlock (h : HoldsObjects L contents U m) (hfits : L.Fits)
    (hfuel : L.configTotalHeapSize / xHeapStructSize < fuel) (w : Nat) :
    (∃ before b after, U.heap.free = before ++ b :: after ∧ (∀ c ∈ before, c.size < w) ∧
      w ≤ b.size ∧
        m.findBlock L w fuel L.xStart (m.next L.xStart) =
          some (Trail.last L.xStart (before.map Span.addr), b.addr)) ∨
      (∀ b ∈ U.heap.free, b.size < w) ∧ ∃ p, m.findBlock L w fuel L.xStart (m.next L.xStart) =
        some (p, L.high) := by
  have hbounds := hfits.bounds
  have hnonnull := hfits.nonnull
  apply findBlock_eq h.shape.trail h.shape.free
  · intro b hb
    have hlow := (h.inv.block_bounds (.inl hb)).1
    exact ⟨by omega, (h.inv.block_valid hfits (.inl hb)).1⟩
  · exact ⟨h.shape.stop.1, by omega, hfits.high_valid⟩
  · exact h.inv.rounds hfits hfuel

/-- An allocation for which a block is found. -/
theorem malloc_take (h : HoldsObjects L contents U m) {before after : List Block} {b : Block}
    (htaking : Taking L U m before b after (requiredSize n))
    (hsmall : ∀ c ∈ before, c.size < requiredSize n)
    (hbit : requiredSize n < heapBlockAllocatedBitmask)
    (hroom : 0 < requiredSize n ∧ requiredSize n ≤ m.xFreeBytesRemaining) :
    ∃ heap m' t, Heap.pvPortMalloc U.heap n = some (b.addr + xHeapStructSize, heap) ∧
      m.takeFrom L (Trail.last L.xStart (before.map Span.addr)) b.addr (requiredSize n) =
        some (m', b.addr + xHeapStructSize) ∧
      HoldsObjects L (Function.update contents (b.addr + xHeapStructSize) fun _ => none)
        ⟨heap, Function.update U.live (b.addr + xHeapStructSize) (some n)⟩ m' ∧
      m'.static = m.charged t ∧ total heap.free = m.xFreeBytesRemaining - t := by
  have hbytes : U.heap.xFreeBytesRemaining = m.xFreeBytesRemaining :=
    h.inv.sound.bytes.trans h.bytes.symm
  obtain ⟨t, rest, m', htake, hmemory, hstatic, hshape, hothers⟩ := htaking.take hsmall 0
  have hmalloc : Heap.pvPortMalloc U.heap n = some (b.addr + xHeapStructSize,
      ⟨rest, Function.update U.heap.allocated b.addr (some t),
       U.heap.xFreeBytesRemaining - t⟩) := by
    unfold Heap.pvPortMalloc
    dsimp only
    rw [if_pos hbit, if_pos (by rwa [hbytes]), htake]
    rfl
  have hinv := h.inv.alloc hmalloc
  have htotal : total rest = m.xFreeBytesRemaining - t := by
    rw [← hbytes]
    exact hinv.sound.bytes.symm
  have hfields := hstatic
  simp only [HeapMemory.static, HeapMemory.charged, Prod.mk.injEq] at hfields
  refine ⟨_, m', t, hmalloc, hmemory,
    ⟨hinv, hfields.1.trans h.pxEnd, hshape.of_lists rfl rfl, ?_, ?_⟩, hstatic, htotal⟩
  · rw [hfields.2.1, htotal]
  · intro pv offset value hvalue
    by_cases hpv : pv = b.addr + xHeapStructSize
    · simp [hpv] at hvalue
    · rw [Function.update_of_ne hpv] at hvalue
      obtain ⟨k, hlive, hoffset, hbyte⟩ := h.contents pv offset value hvalue
      refine ⟨k, ?_, hoffset, (hothers pv k offset hlive hoffset).trans hbyte⟩
      exact (Function.update_of_ne hpv ..).trans hlive

/-- An allocation fails on the memory where it fails on the blocks, and otherwise takes the same
block. -/
theorem malloc (h : HoldsObjects L contents U m) (hfits : L.Fits)
    (hfuel : L.configTotalHeapSize / xHeapStructSize < fuel) (n : Nat) :
    Heap.pvPortMalloc U.heap n = none ∧
        m.pvPortMalloc L fuel n = (if L.hookReturns = false then none else some (m, 0)) ∨
      ∃ pv heap m' t, Heap.pvPortMalloc U.heap n = some (pv, heap) ∧
      m.pvPortMalloc L fuel n = some (m', pv) ∧
        HoldsObjects L (Function.update contents pv fun _ => none)
          ⟨heap, Function.update U.live pv (some n)⟩ m' ∧
        m'.static = m.charged t ∧ total heap.free = m.xFreeBytesRemaining - t := by
  obtain ⟨hword, haligned, hheader⟩ := requiredSize_facts n
  have hbytes : U.heap.xFreeBytesRemaining = m.xFreeBytesRemaining :=
    h.inv.sound.bytes.trans h.bytes.symm
  unfold HeapMemory.pvPortMalloc
  dsimp only
  rw [if_neg (h.pxEnd_ne hfits)]
  -- where there is no block the hook is called
  have hfailed : (if 0 = 0 ∧ L.hookReturns = false then none
      else if 0 % portByteAlignment = 0 then some (m, 0) else none) =
        if L.hookReturns = false then none else some (m, 0) := by
    simp
  by_cases hbit : requiredSize n < heapBlockAllocatedBitmask
  · have hvalid : ¬ heapBlockIsAllocated (requiredSize n) :=
      fun hset => Nat.not_le_of_lt hbit ((heapBlockIsAllocated_iff hword).mp hset)
    rw [if_neg hvalid]
    by_cases hroom : 0 < requiredSize n ∧ requiredSize n ≤ m.xFreeBytesRemaining
    · rw [if_pos hroom]
      rcases h.findBlock hfits hfuel (requiredSize n) with
        ⟨before, b, after, hfree, hsmall, hlarge, hfind⟩ | ⟨hall, p, hfind⟩
      · right
        have htaking : Taking L U m before b after (requiredSize n) :=
          ⟨h.inv, hfits, h.shape, hfree, haligned, hheader hroom.1, hlarge⟩
        obtain ⟨heap, m', t, hmalloc, hmemory, hholds, hstatic, htotal⟩ :=
          h.malloc_take htaking hsmall hbit hroom
        have hne : b.addr ≠ m.pxEnd := by
          rw [h.pxEnd]
          exact Ne.symm (h.inv.markers_ne hfits (.inl htaking.mem)).2
        have hpointer : (b.addr + xHeapStructSize) % portByteAlignment = 0 :=
          Nat.mod_eq_zero_of_dvd (Nat.dvd_add (h.inv.free b htaking.mem).1 (by decide))
        have hnonnull : ¬ (b.addr + xHeapStructSize = 0 ∧ L.hookReturns = false) := by
          simp [xHeapStructSize]
        refine ⟨_, heap, m', t, hmalloc, ?_, hholds, hstatic, htotal⟩
        rw [hfind, Option.bind_some, if_pos hne, hmemory, Option.bind_some, if_neg hnonnull,
          if_pos hpointer]
      · left
        constructor
        · unfold Heap.pvPortMalloc
          dsimp only
          rw [if_pos hbit, takeBlock_eq_none.mpr hall]
          simp
        · rw [hfind, Option.bind_some, h.pxEnd, if_neg (not_not.mpr rfl)]
          exact hfailed
    · rw [if_neg hroom]
      refine .inl ⟨?_, hfailed⟩
      unfold Heap.pvPortMalloc
      dsimp only
      rw [if_pos hbit, if_neg (by rwa [hbytes])]
  · have hinvalid : heapBlockIsAllocated (requiredSize n) :=
      (heapBlockIsAllocated_iff hword).mpr (Nat.le_of_not_lt hbit)
    rw [if_pos hinvalid]
    refine .inl ⟨?_, hfailed⟩
    unfold Heap.pvPortMalloc
    dsimp only
    rw [if_neg hbit]

end HoldsObjects

/-! ## The first allocation -/

/-- The addresses that `prvHeapInit` computes are the bounds of the heap. -/
theorem prvHeapInit_addresses (hfits : L.Fits) :
    (if L.ucHeap % portByteAlignment ≠ 0 then alignDown (L.ucHeap + (portByteAlignment - 1))
      else L.ucHeap) = L.low ∧
      alignDown (L.low + (L.configTotalHeapSize - (L.low - L.ucHeap)) - xHeapStructSize) =
        L.high := by
  have hbounds := hfits.bounds
  have hlarge := hfits.large
  constructor
  · split
    · rfl
    · simp only [Layout.low, heapStart, portByteAlignment] at *
      omega
  · have hsum : L.low + (L.configTotalHeapSize - (L.low - L.ucHeap)) = L.ucHeap +
        L.configTotalHeapSize := by
      simp only [xHeapStructSize] at hbounds
      omega
    rw [hsum]
    rfl

theorem holds_prvHeapInit (hfits : L.Fits) (m : HeapMemory)
    (hcontents : ∀ pv offset, contents pv offset = none) :
    HoldsObjects L contents (Users.start L.ucHeap L.configTotalHeapSize) (m.prvHeapInit L) ∧
      (m.prvHeapInit L).static =
        (L.high, total (Users.start L.ucHeap L.configTotalHeapSize).heap.free,
        total (Users.start L.ucHeap L.configTotalHeapSize).heap.free,
        m.xNumberOfSuccessfulAllocations,
        m.xNumberOfSuccessfulFrees) := by
  have hinv : (Users.start L.ucHeap L.configTotalHeapSize).Inv L.low L.high :=
    Users.start_inv hfits.large
  have hbounds := hfits.bounds
  have hspace := hfits.high_lt
  have hfree : (Users.start L.ucHeap L.configTotalHeapSize).heap.free = [⟨L.low, L.high - L.low⟩] :=
    rfl
  have htotal : total (Users.start L.ucHeap L.configTotalHeapSize).heap.free = L.high - L.low := by
    simp [hfree]
  have hmem : (⟨L.low, L.high - L.low⟩ : Block) ∈
      (Users.start L.ucHeap L.configTotalHeapSize).heap.free := by
    simp [hfree]
  have hD := hinv.scattered hfits
  have hfirst : Place L (Users.start L.ucHeap L.configTotalHeapSize).heap L.low := .free hmem
  obtain ⟨hlow, hhigh⟩ := prvHeapInit_addresses hfits
  have hlowSpace : L.low < sizeModulus := by
    simp only [xHeapStructSize] at *
    omega
  have hhighSpace : L.high < sizeModulus := by
    simp only [xHeapStructSize] at *
    omega
  -- the six stores in the order of the source
  have hshows₁ := (Shows.refl (Place L (Users.start L.ucHeap L.configTotalHeapSize).heap) m).setNext
    hD .start hlowSpace
  have hshows₂ := hshows₁.setSize hD .start (v := 0) (by decide)
  have hshows₃ := hshows₂.setSize hD .stop (v := 0) (by decide)
  have hshows₄ := hshows₃.setNext hD .stop (v := 0) (by decide)
  have hshows₅ := hshows₄.setSize hD hfirst (v := L.high - L.low) (by omega)
  have hshows := hshows₅.setNext hD hfirst hhighSpace
  have hmarkers := hinv.markers_ne hfits (.inl hmem)
  -- `prvHeapInit` makes these stores and no others
  have hbytes : (m.prvHeapInit L).bytes =
      ((((((m.setNext L.xStart L.low).setSize L.xStart 0).setSize L.high 0).setNext L.high
        0).setSize L.low (L.high - L.low)).setNext L.low L.high).bytes := by
    unfold HeapMemory.prvHeapInit
    dsimp only
    rw [hlow, hhigh]
    rfl
  have hinit := hshows.of_bytes hbytes
  have hsize : (m.prvHeapInit L).size L.low = L.high - L.low := by
    rw [hinit.size L.low hfirst, Function.update_self]
  have hstatic : (m.prvHeapInit L).static =
      (L.high, (m.prvHeapInit L).size L.low, (m.prvHeapInit L).size L.low,
        m.xNumberOfSuccessfulAllocations, m.xNumberOfSuccessfulFrees) := by
    unfold HeapMemory.prvHeapInit HeapMemory.static
    dsimp only
    rw [hlow, hhigh]
    rfl
  rw [hsize] at hstatic
  have hfields := hstatic
  simp only [HeapMemory.static, Prod.mk.injEq] at hfields
  rw [htotal]
  refine ⟨⟨hinv, hfields.1, ?_, hfields.2.1.trans htotal.symm, fun pv offset value hvalue => ?_⟩,
    hstatic⟩
  · have hne := hfits.start_ne_stop
    refine Shape.congr ⟨?_, ?_, ⟨?_, ?_⟩, fun b hb => ?_, fun addr size hused => ?_⟩
      hinit.next hinit.size
    · refine ⟨?_, ?_⟩
      · show _ = L.low
        simp [hmarkers.1, hne]
      · exact Function.update_self ..
    · simp [hmarkers.1, hne]
    · simp [hmarkers.2]
    · simp [hmarkers.2]
    · obtain rfl := List.mem_singleton.mp hb
      exact Function.update_self ..
    · cases hused
  · rw [hcontents] at hvalue
    cases hvalue

/-! ## Releases -/

namespace HoldsObjects

/-- The release of an object. -/
theorem free (h : HoldsObjects L contents U m) (hfits : L.Fits)
    (hfuel : L.configTotalHeapSize / xHeapStructSize < fuel) {pv : Nat}
    (hlive : (U.live pv).isSome) :
    ∃ heap m', Heap.vPortFree U.heap pv = some heap ∧ m.vPortFree L fuel pv = some m' ∧
      HoldsObjects L (Function.update contents pv fun _ => none)
        ⟨heap, Function.update U.live pv none⟩ m' ∧
      m'.static = (m.pxEnd, total heap.free, m.xMinimumEverFreeBytesRemaining,
        m.xNumberOfSuccessfulAllocations,
        (m.xNumberOfSuccessfulFrees + 1) % sizeModulus) := by
  obtain ⟨n, hn⟩ := Option.isSome_iff_exists.mp hlive
  obtain ⟨-, b, hused, rfl, hlimit⟩ := h.inv.object hn
  obtain ⟨heap, hfree, hinv⟩ := h.inv.release hlive
  obtain ⟨hlow, hhigh, -, hheader⟩ := h.inv.block_bounds (b := b) (.inr hused)
  have hsmall := hfits.size_lt hlow hhigh
  have hD := h.inv.scattered hfits
  have hplace : Place L U.heap b.addr := .used hused
  have hmarkers := h.inv.markers_ne hfits (c := b) (.inr hused)
  obtain ⟨hnull, hmarked⟩ := h.shape.used b.addr b.size hused
  have hsizeSpace : b.size < sizeModulus := by
    simp only [heapBlockAllocatedBitmask, sizeModulus] at *
    omega
  have hset : heapBlockIsAllocated (b.size + heapBlockAllocatedBitmask) := by
    rw [heapBlockIsAllocated_iff]
    · exact Nat.le_add_left ..
    · simp only [heapBlockAllocatedBitmask, sizeModulus] at *
      omega
  -- the store that clears the top bit of the size is the first change to the memory
  have hcleared := (Shows.refl (Place L U.heap) m).setSize hD hplace hsizeSpace
  have hblock : U.heap.block (b.addr + xHeapStructSize) = some b.size := by
    simp [Heap4.block, hused]
  obtain ⟨-, hheap⟩ := vPortFree_some hblock
  rw [Nat.add_sub_cancel] at hheap
  obtain rfl := Option.some.inj (hfree.symm.trans hheap)
  have hbytes : U.heap.xFreeBytesRemaining = m.xFreeBytesRemaining :=
    h.inv.sound.bytes.trans h.bytes.symm
  -- the counter cannot wrap, since the free blocks fit into the heap
  have htotal : m.xFreeBytesRemaining + b.size =
      total (prvInsertBlockIntoFreeList ⟨b.addr, b.size⟩ U.heap.free) := by
    rw [← hbytes]
    exact hinv.sound.bytes
  have hsum : (m.xFreeBytesRemaining + b.size) % sizeModulus = m.xFreeBytesRemaining + b.size := by
    apply Nat.mod_eq_of_lt
    have hle := hinv.total_le hfits
    have hlt := hfits.small
    simp only [heapBlockAllocatedBitmask, sizeModulus] at *
    omega
  -- from here on the block is the parameter of `prvInsertBlockIntoFreeList`
  have hreturning : Returning L U b.addr b.size m
      { m.setSize b.addr b.size with xFreeBytesRemaining := m.xFreeBytesRemaining + b.size } m.next
      (Function.update m.size b.addr b.size) := by
    refine ⟨h.inv, hfits, hused, hcleared.of_bytes rfl, h.pxEnd,
      ⟨h.shape.trail, ?_, ⟨h.shape.stop.1, ?_⟩, fun c hc => ?_, fun addr t hsome => ?_⟩,
      Function.update_self ..⟩
    · rw [Function.update_of_ne hmarkers.1, h.shape.start]
    · rw [Function.update_of_ne hmarkers.2, h.shape.stop.2]
    · rw [Function.update_of_ne (h.inv.free_ne_used hc hused)]
      exact h.shape.free c hc
    · obtain ⟨hne, hsome⟩ := Heap4.between_allocated hsome
      rw [Function.update_of_ne hne]
      exact h.shape.used addr t hsome
  obtain ⟨m', N', Z', hinsert, hstatic, hshows, hshape⟩ :=
    hreturning.insert (h.inv.rounds hfits hfuel) 0
  have hfields := hstatic
  simp only [HeapMemory.static, Prod.mk.injEq] at hfields
  refine ⟨_,
    { m' with xNumberOfSuccessfulFrees := (m'.xNumberOfSuccessfulFrees + 1) % sizeModulus }, hfree,
    ?_, ⟨hinv, hfields.1.trans h.pxEnd, ?_, hfields.2.1.trans htotal,
      fun pv offset value hvalue => ?_⟩, ?_⟩
  · have hcleared : (m.setSize b.addr b.size).size b.addr = b.size :=
      HeapMemory.size_setSize hsizeSpace
    have hlink : (b.addr + xHeapStructSize + (sizeModulus - xHeapStructSize)) % sizeModulus =
        b.addr := by
      have hspace := hfits.high_lt
      simp only [Span.limit, xHeapStructSize, sizeModulus] at *
      omega
    unfold HeapMemory.vPortFree
    dsimp only
    rw [if_pos (by simp [xHeapStructSize]), hlink, hmarked,
      if_pos ⟨(h.inv.block_valid hfits (.inr hused)).1, hset, hnull⟩, heapFreeBlock_eq hsmall,
      hcleared]
    have hcount : (m.setSize b.addr b.size).xFreeBytesRemaining = m.xFreeBytesRemaining := rfl
    rw [hcount, hsum, hinsert, Option.map_some]
  · have hold (q : Nat) (hq : Place L ⟨prvInsertBlockIntoFreeList ⟨b.addr, b.size⟩ U.heap.free,
        Function.update U.heap.allocated b.addr none, 0⟩ q) : Place L U.heap q := by
      rcases hq with rfl | rfl | ⟨c, hc | hc, rfl⟩
      · exact .start
      · exact .stop
      · rcases insert_addr hc with heq | ⟨d, hd, heq⟩
        · rw [heq]
          exact hplace
        · rw [← heq]
          exact .free hd
      · exact .used (Heap4.between_allocated (h := U.heap) hc).2
    exact (hshape.congr (fun q hq => hshows.next q (hold q hq)) fun q hq =>
        hshows.size q (hold q hq)).of_lists rfl rfl
  -- the bytes of the other objects lie in no header that was written
  · by_cases hpv : pv = b.addr + xHeapStructSize
    · simp [hpv] at hvalue
    · rw [Function.update_of_ne hpv] at hvalue
      obtain ⟨k, hlive', hoffset, hbyte⟩ := h.contents pv offset value hvalue
      refine ⟨k, (Function.update_of_ne hpv ..).trans hlive', hoffset, ?_⟩
      rw [← hbyte]
      exact hshows.others _ fun q hq => h.inv.payload_outside hfits hlive' hoffset hq
  · have hfields' : m'.xMinimumEverFreeBytesRemaining = m.xMinimumEverFreeBytesRemaining ∧
        m'.xNumberOfSuccessfulAllocations = m.xNumberOfSuccessfulAllocations ∧
        m'.xNumberOfSuccessfulFrees = m.xNumberOfSuccessfulFrees := hfields.2.2
    simp only [HeapMemory.static, Prod.mk.injEq]
    refine ⟨hfields.1, hfields.2.1.trans htotal, hfields'.1, hfields'.2.1, ?_⟩
    rw [hfields'.2.2]

end HoldsObjects

end SimulatedLinux.Heap
