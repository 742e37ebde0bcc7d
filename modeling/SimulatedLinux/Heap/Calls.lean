import SimulatedLinux.Heap.Objects

/-! # Calls of the heap

Each call of a function of `heap_4.c` gives on the memory what it gives on the store of objects, and
the memory holds the objects again afterwards.
-/

namespace SimulatedLinux.Heap

open Lib

variable {L : Layout} {U : Users} {S S' : Objects} {m : HeapMemory}
  {contents : Nat → Nat → Option (BitVec 8)} {fuel n pv : Nat}

/-! ## Bytes of objects -/

/-- The bytes of one object are written. -/
theorem HoldsObjects.overwrite (h : HoldsObjects L contents U m) (hfits : L.Fits)
    (hlive : U.live pv = some n) {bytes : Bytes}
    (hout : ∀ x, x < pv ∨ pv + n ≤ x → bytes x = m.bytes x) {known : Nat → Option (BitVec 8)}
    (hknown : ∀ offset value, known offset = some value →
      offset < n ∧ bytes (pv + offset) = value) :
    HoldsObjects L (Function.update contents pv known) U { m with bytes } := by
  have hheader {q x : Nat} (hq : Place L U.heap q) (hlow : q ≤ x)
      (hhigh : x < q + xHeapStructSize) : bytes x = m.bytes x := by
    apply hout
    by_contra hin
    have hoffset : x - pv < n := by omega
    have hpayload := h.inv.payload_outside hfits hlive hoffset hq
    omega
  refine ⟨h.inv, h.pxEnd, h.shape.congr (fun q hq => ?_) (fun q hq => ?_), h.bytes,
    fun pv' offset value hvalue => ?_⟩
  · apply Bytes.load_congr
    intro x hlow hhigh
    exact hheader hq hlow (by simp only [xHeapStructSize]; omega)
  · apply Bytes.load_congr
    intro x hlow hhigh
    exact hheader hq (by omega) (by simp only [xHeapStructSize]; omega)
  · by_cases hpv : pv' = pv
    · rw [hpv, Function.update_self] at hvalue
      obtain ⟨hoffset, hbyte⟩ := hknown offset value hvalue
      rw [hpv]
      exact ⟨n, hlive, hoffset, hbyte⟩
    · rw [Function.update_of_ne hpv] at hvalue
      obtain ⟨k, hlive', hoffset, hbyte⟩ := h.contents pv' offset value hvalue
      refine ⟨k, hlive', hoffset, (hout _ ?_).trans hbyte⟩
      by_contra hin
      exact hpv (h.inv.law.disjoint pv' k pv n (pv' + offset) hlive' hlive (by omega) (by omega)
          (by omega) (by omega))

/-! ## Statistics -/

theorem surveyBlocks_eq {blocks : List Block} {prev : Nat}
    (htrail : Trail m.next prev (blocks.map Span.addr) m.pxEnd)
    (hsize : ∀ b ∈ blocks, m.size b.addr = b.size) (hne : ∀ b ∈ blocks, b.addr ≠ m.pxEnd)
    (hfuel : blocks.length < fuel) (xBlocks xMaxSize xMinSize : Nat)
    (hcount : xBlocks + blocks.length < sizeModulus) :
    m.surveyBlocks fuel (m.next prev) (xBlocks, xMaxSize, xMinSize) =
      some (xBlocks + blocks.length, (blocks.map Span.size).foldl max xMaxSize,
        (blocks.map Span.size).foldl min xMinSize) := by
  -- on the free list, which the links of the headers spell out
  induction blocks generalizing prev fuel xBlocks xMaxSize xMinSize with
  | nil =>
      obtain ⟨fuel, rfl⟩ := Nat.exists_eq_add_of_lt hfuel
      have hend : m.next prev = m.pxEnd := htrail
      simp [HeapMemory.surveyBlocks, hend]
  | cons b rest ih =>
      obtain ⟨fuel, rfl⟩ : ∃ k, fuel = k + 1 := ⟨fuel - 1, by omega⟩
      obtain ⟨hfirst, hrest⟩ := htrail
      rw [List.forall_mem_cons] at hsize hne
      rw [List.length_cons] at hcount hfuel
      have hmax : (if b.size > xMaxSize then b.size else xMaxSize) = max xMaxSize b.size := by
        split <;> omega
      have hmin : (if b.size < xMinSize then b.size else xMinSize) = min xMinSize b.size := by
        split <;> omega
      have hnumber : (xBlocks + 1) % sizeModulus = xBlocks + 1 := Nat.mod_eq_of_lt (by omega)
      rw [hfirst, HeapMemory.surveyBlocks, if_pos hne.1, hsize.1, hmax, hmin, hnumber,
        ih hrest hsize.2 hne.2 (by omega) _ _ _ (by omega)]
      simp only [List.length_cons, List.map_cons, List.foldl_cons, Option.some.injEq, Prod.mk.injEq,
        and_true]
      omega

theorem HoldsObjects.survey (h : HoldsObjects L contents U m) (hfits : L.Fits)
    (hfuel : L.configTotalHeapSize / xHeapStructSize < fuel) :
    m.next L.xStart ≠ 0 ∧ m.surveyBlocks fuel (m.next L.xStart) (0, 0, sizeMax) =
      some (U.heap.free.length, (U.heap.free.map Span.size).foldl max 0,
        (U.heap.free.map Span.size).foldl min sizeMax) := by
  have hbounds := hfits.bounds
  have hnonnull := hfits.nonnull
  have hrounds : U.heap.free.length < L.configTotalHeapSize / xHeapStructSize + 1 :=
    h.inv.rounds hfits (Nat.lt_succ_self _)
  have hsmall := hfits.small
  constructor
  · have htrail := h.shape.trail
    cases hfree : U.heap.free with
    | nil =>
        rw [hfree] at htrail
        have hend : m.next L.xStart = L.high := htrail
        omega
    | cons b rest =>
        rw [hfree] at htrail
        have hlow := (h.inv.block_bounds (b := b) (.inl (by simp [hfree]))).1
        have hfirst : m.next L.xStart = b.addr := htrail.1
        omega
  · have hsurvey := surveyBlocks_eq (by rw [h.pxEnd]; exact h.shape.trail) h.shape.free
      (fun b hb => by rw [h.pxEnd]; exact Ne.symm (h.inv.markers_ne hfits (.inl hb)).2)
      (h.inv.rounds hfits hfuel) 0 0 sizeMax
      (by simp only [heapBlockAllocatedBitmask, sizeModulus, xHeapStructSize] at *; omega)
    rwa [Nat.zero_add] at hsurvey

/-! ## Calls -/

namespace Refines

/-- The counter of free bytes is the size of the free blocks. -/
theorem available (h : Refines L S m) : m.xFreeBytesRemaining = total S.free := by
  rcases h.memory with ⟨hnone, huntouched, -⟩ | ⟨U, hsome, hholds⟩
  · simp [Objects.free, hnone, huntouched.bytes]
  · simp [Objects.free, hsome, hholds.bytes]

/-- The object that is read or written is in the memory. -/
theorem holds (h : Refines L S m) {n : Nat} (hsize : S.size pv = some n) :
    ∃ U, S.users = some U ∧ U.live pv = some n ∧ HoldsObjects L S.contents U m := by
  obtain ⟨U, hsome, hlive⟩ := Option.bind_eq_some_iff.mp hsize
  rcases h.memory with ⟨hnone, -⟩ | ⟨U', hsome', hholds⟩
  · simp [hnone] at hsome
  · obtain rfl := Option.some.inj (hsome.symm.trans hsome')
    exact ⟨U, hsome, hlive, hholds⟩

/-- The first allocation initialises the heap. -/
theorem ready (h : Refines L S m) (hfits : L.Fits) (fuel : Nat) :
    ∃ m₁, HoldsObjects L (S.ready L).1.contents (S.ready L).2 m₁ ∧
    Refines L (S.ready L).1 m₁ ∧ (S.ready L).1.users = some (S.ready L).2 ∧
    (S.ready L).1.allocations = S.allocations ∧ (S.ready L).1.frees = S.frees ∧
    ∀ n, m.pvPortMalloc L fuel n = m₁.pvPortMalloc L fuel n := by
  rcases h.memory with ⟨hnone, huntouched, hunknown⟩ | ⟨U, hsome, hholds⟩
  · obtain ⟨hholds, hstatic⟩ := holds_prvHeapInit hfits m hunknown
    simp only [HeapMemory.static, Prod.mk.injEq] at hstatic
    obtain ⟨hend, -, hminimum, hallocations, hfrees⟩ := hstatic
    rw [Objects.ready_of_none hnone]
    refine ⟨m.prvHeapInit L, hholds,
      ⟨.inr ⟨_, rfl, hholds⟩, hminimum, hallocations.trans h.allocations, hfrees.trans h.frees⟩,
      rfl, rfl, rfl, fun n => ?_⟩
    unfold HeapMemory.pvPortMalloc
    dsimp only
    rw [if_pos huntouched.pxEnd, if_neg (hholds.pxEnd_ne hfits)]
  · rw [Objects.ready_of_some hsome]
    exact ⟨m, hholds, h, hsome, rfl, rfl, fun _ => rfl⟩

theorem allocate (h : Refines L S m) (hfits : L.Fits)
    (hfuel : L.configTotalHeapSize / xHeapStructSize < fuel) {n : Nat} {result : Objects × Nat}
    (hallocate : S.allocate L n = some result) :
    ∃ m', m.pvPortMalloc L fuel n = some (m', result.2) ∧ Refines L result.1 m' ∧
      (result.2 ≠ 0 → result.1.size result.2 = some n) := by
  obtain ⟨m₁, hholds, hrefines, husers, hallocations, hfrees, hsame⟩ := h.ready hfits fuel
  rw [hsame]
  unfold Objects.allocate at hallocate
  split at hallocate
  next => cases hallocate
  next hreturns =>
    obtain rfl := Option.some.inj hallocate
    rcases hholds.malloc hfits hfuel n with
      ⟨hnone, hmemory⟩ | ⟨pv, heap, m', t, hsome, hmemory, hholds', hstatic, htotal⟩
    · have hfailed : S.malloc L n = ((S.ready L).1, 0) := by
        simp only [Objects.malloc, hnone]
      rw [hfailed] at hreturns ⊢
      rw [if_neg fun hhook => hreturns ⟨rfl, hhook⟩] at hmemory
      exact ⟨m₁, hmemory, hrefines, fun hne => absurd rfl hne⟩
    · simp only [HeapMemory.static, HeapMemory.charged, Prod.mk.injEq] at hstatic
      obtain ⟨-, -, hminimum, hallocated, hfreed⟩ := hstatic
      simp only [Objects.malloc, hsome]
      refine ⟨m', hmemory, ⟨.inr ⟨_, rfl, hholds'⟩, ?_, ?_, ?_⟩, fun _ => ?_⟩
      · have hmin : (if m₁.xFreeBytesRemaining - t < m₁.xMinimumEverFreeBytesRemaining then
              m₁.xFreeBytesRemaining - t else m₁.xMinimumEverFreeBytesRemaining) =
            min m₁.xMinimumEverFreeBytesRemaining (m₁.xFreeBytesRemaining - t) := by
          split <;> omega
        rw [hminimum, hmin, hrefines.minimum, htotal]
      · rw [hallocated, hrefines.allocations, hallocations, Nat.mod_add_mod]
      · rw [hfreed, hrefines.frees, hfrees]
      · simp [Objects.size]

theorem calloc (h : Refines L S m) (hfits : L.Fits)
    (hfuel : L.configTotalHeapSize / xHeapStructSize < fuel) {xNum xSize : Nat}
    {result : Objects × Nat} (hcalloc : S.calloc L xNum xSize = some result) :
    ∃ m', m.pvPortCalloc L fuel xNum xSize = some (m', result.2) ∧ Refines L result.1 m' := by
  unfold HeapMemory.pvPortCalloc
  unfold Objects.calloc at hcalloc
  by_cases hoverflow : 0 < xNum ∧ xSize > sizeMax / xNum
  · rw [if_pos hoverflow] at hcalloc ⊢
    obtain rfl := Option.some.inj hcalloc
    exact ⟨m, rfl, h⟩
  · rw [if_neg hoverflow] at hcalloc ⊢
    obtain ⟨⟨S₁, pv⟩, hallocate, rfl⟩ := Option.map_eq_some_iff.mp hcalloc
    obtain ⟨m', hmemory, hrefines, hsize⟩ := h.allocate hfits hfuel hallocate
    rw [hmemory, Option.map_some]
    by_cases hnull : pv ≠ 0
    · dsimp only
      rw [if_pos hnull, if_pos hnull]
      obtain ⟨U, husers, hlive, hholds⟩ := hrefines.holds (hsize hnull)
      refine ⟨_, rfl, ⟨.inr ⟨U, husers, ?_⟩, hrefines.minimum, hrefines.allocations,
        hrefines.frees⟩⟩
      apply hholds.overwrite hfits hlive
      · exact fun x hx => Bytes.fill_of_outside hx
      · intro offset value hvalue
        simp only [Option.ite_none_right_eq_some, Option.some.injEq] at hvalue
        obtain ⟨hoffset, rfl⟩ := hvalue
        refine ⟨hoffset, if_pos ?_⟩
        omega
    · dsimp only
      rw [if_neg hnull, if_neg hnull]
      exact ⟨m', rfl, hrefines⟩

theorem release (h : Refines L S m) (hfits : L.Fits)
    (hfuel : L.configTotalHeapSize / xHeapStructSize < fuel) (hrelease : S.release pv = some S') :
    ∃ m', m.vPortFree L fuel pv = some m' ∧ Refines L S' m' := by
  unfold Objects.release at hrelease
  split at hrelease
  next hnull =>
    cases hrelease
    refine ⟨m, ?_, h⟩
    unfold HeapMemory.vPortFree
    rw [if_neg (not_not.mpr hnull)]
  next hnull =>
    obtain ⟨U, husers, hrelease⟩ := Option.bind_eq_some_iff.mp hrelease
    split at hrelease
    next hlive =>
      obtain ⟨heap, hfree, rfl⟩ := Option.map_eq_some_iff.mp hrelease
      obtain ⟨n, hn⟩ := Option.isSome_iff_exists.mp hlive
      have hsize : S.size pv = some n := by simp [Objects.size, husers, hn]
      obtain ⟨U', husers', -, hholds⟩ := h.holds hsize
      obtain rfl := Option.some.inj (husers.symm.trans husers')
      obtain ⟨heap', m', hfree', hmemory, hholds', hstatic⟩ := hholds.free hfits hfuel hlive
      obtain rfl := Option.some.inj (hfree.symm.trans hfree')
      simp only [HeapMemory.static, Prod.mk.injEq] at hstatic
      obtain ⟨-, -, hminimum, hallocations, hfrees⟩ := hstatic
      refine ⟨m', hmemory, ⟨.inr ⟨_, rfl, hholds'⟩, hminimum.trans h.minimum,
          hallocations.trans h.allocations, ?_⟩⟩
      rw [hfrees, h.frees, Nat.mod_add_mod]
    next => cases hrelease

theorem write (h : Refines L S m) (hfits : L.Fits) {offset : Nat} {value : BitVec 8}
    (hwrite : S.write pv offset value = some S') :
    Refines L S' { m with bytes := Function.update m.bytes (pv + offset) value } := by
  obtain ⟨n, hsize, hwrite⟩ := Option.bind_eq_some_iff.mp hwrite
  split at hwrite
  next hoffset =>
    cases hwrite
    obtain ⟨U, husers, hlive, hholds⟩ := h.holds hsize
    refine ⟨.inr ⟨U, husers, ?_⟩, h.minimum, h.allocations, h.frees⟩
    apply hholds.overwrite hfits hlive
    · exact fun x hx => Function.update_of_ne (by omega) ..
    · intro other known hknown
      by_cases heq : other = offset
      · rw [heq, Function.update_self, Option.some.injEq] at hknown
        rw [heq, Function.update_self]
        exact ⟨hoffset, hknown⟩
      · rw [Function.update_of_ne heq] at hknown
        obtain ⟨k, hlive', hother, hbyte⟩ := hholds.contents pv other known hknown
        obtain rfl := Option.some.inj (hlive.symm.trans hlive')
        rw [Function.update_of_ne (by omega)]
        exact ⟨hother, hbyte⟩
  next => cases hwrite

theorem read (h : Refines L S m) {offset : Nat} {value : BitVec 8}
    (hread : S.contents pv offset = some value) :
    m.bytes (pv + offset) = value := by
  rcases h.memory with ⟨-, -, hunknown⟩ | ⟨U, -, hholds⟩
  · simp [hunknown] at hread
  · obtain ⟨n, -, -, hbyte⟩ := hholds.contents pv offset value hread
    exact hbyte

theorem stats (h : Refines L S m) (hfits : L.Fits)
    (hfuel : L.configTotalHeapSize / xHeapStructSize < fuel) :
    m.vPortGetHeapStats L fuel = some S.stats := by
  unfold HeapMemory.vPortGetHeapStats Objects.stats
  dsimp only
  rw [← h.available, ← h.minimum, ← h.allocations, ← h.frees]
  rcases h.memory with ⟨hnone, huntouched, -⟩ | ⟨U, hsome, hholds⟩
  · rw [huntouched.next, if_neg (not_not.mpr rfl)]
    simp [Objects.free, hnone]
  · obtain ⟨hne, hsurvey⟩ := hholds.survey hfits hfuel
    rw [if_pos hne, hsurvey]
    simp [Objects.free, hsome]

/-- Each call gives on the memory what it gives on the objects. -/
theorem call (h : Refines L S m) (hfits : L.Fits)
    (hfuel : L.configTotalHeapSize / xHeapStructSize < fuel) {act : HeapCall} {reply : HeapReply}
    (hcall : S.call L act = some (S', reply)) :
    ∃ m', m.call L fuel act = some (m', reply) ∧ Refines L S' m' := by
  cases act with
  | malloc n =>
      obtain ⟨⟨S'', pv⟩, hallocate, hsame⟩ := Option.map_eq_some_iff.mp hcall
      cases hsame
      obtain ⟨m', hmemory, hrefines, -⟩ := h.allocate hfits hfuel hallocate
      exact ⟨m', by rw [HeapMemory.call, hmemory, Option.map_some], hrefines⟩
  | calloc xNum xSize =>
      obtain ⟨⟨S'', pv⟩, hcalloc, hsame⟩ := Option.map_eq_some_iff.mp hcall
      cases hsame
      obtain ⟨m', hmemory, hrefines⟩ := h.calloc hfits hfuel hcalloc
      exact ⟨m', by rw [HeapMemory.call, hmemory, Option.map_some], hrefines⟩
  | free pv =>
      obtain ⟨S'', hrelease, hsame⟩ := Option.map_eq_some_iff.mp hcall
      cases hsame
      obtain ⟨m', hmemory, hrefines⟩ := h.release hfits hfuel hrelease
      exact ⟨m', by rw [HeapMemory.call, hmemory, Option.map_some], hrefines⟩
  | write pv offset value =>
      obtain ⟨S'', hwrite, hsame⟩ := Option.map_eq_some_iff.mp hcall
      cases hsame
      exact ⟨_, rfl, h.write hfits hwrite⟩
  | read pv offset =>
      obtain ⟨value, hread, hsame⟩ := Option.map_eq_some_iff.mp hcall
      cases hsame
      exact ⟨m, by rw [HeapMemory.call, h.read hread], h⟩
  | getFreeHeapSize =>
      cases hcall
      exact ⟨m, by rw [HeapMemory.call, h.available], h⟩
  | getMinimumEverFreeHeapSize =>
      cases hcall
      exact ⟨m, by rw [HeapMemory.call, h.minimum], h⟩
  | resetHeapMinimumEverFreeHeapSize =>
      cases hcall
      refine ⟨_, rfl, ⟨?_, h.available, h.allocations, h.frees⟩⟩
      rcases h.memory with ⟨hnone, huntouched, hunknown⟩ | ⟨U, hsome, hholds⟩
      · exact .inl ⟨hnone, ⟨huntouched.pxEnd, huntouched.next, huntouched.bytes⟩, hunknown⟩
      · exact .inr ⟨U, hsome, ⟨hholds.inv, hholds.pxEnd, hholds.shape, hholds.bytes,
            hholds.contents⟩⟩
  | getHeapStats =>
      cases hcall
      exact ⟨m, by rw [HeapMemory.call, h.stats hfits hfuel, Option.map_some], h⟩

end Refines

/-- The static data at the start of the program. -/
structure HeapMemory.Cleared (L : Layout) (m : HeapMemory) : Prop where
  next : m.next L.xStart = 0
  static : m.static = (0, 0, 0, 0, 0)

theorem HeapMemory.Cleared.refines (h : m.Cleared L) : Refines L Objects.empty m := by
  obtain ⟨hend, hbytes, hminimum, hallocations, hfrees⟩ : m.pxEnd = 0 ∧ m.xFreeBytesRemaining = 0 ∧
      m.xMinimumEverFreeBytesRemaining = 0 ∧ m.xNumberOfSuccessfulAllocations = 0 ∧
      m.xNumberOfSuccessfulFrees = 0 := by
    simpa [HeapMemory.static] using h.static
  exact ⟨.inl ⟨rfl, ⟨hend, h.next, hbytes⟩, fun _ _ => rfl⟩, hminimum, hallocations, hfrees⟩

/-- From the start of the program on, the memory gives the replies of the store of objects to every
list of calls in which the users release only their objects, write only bytes of them, and read only
what they have written. Where the hook of a failed allocation does not return, the list is over with
the first one. -/
theorem heap_refines_objects (hfits : L.Fits)
    (hfuel : L.configTotalHeapSize / xHeapStructSize < fuel) (hcleared : m.Cleared L)
    (acts : List HeapCall) {last : Objects × List HeapReply}
    (hrun : Lib.converse (Objects.call L) Objects.empty acts = some last) :
    ∃ m', Lib.converse (HeapMemory.call L fuel) m acts = some (m', last.2) ∧
      Refines L last.1 m' := by
  -- the allocator answers as the objects do, call by call
  apply Lib.converse_follows (Refines L) _ hcleared.refines acts hrun
  intro S m act S' reply hrefines hcall
  exact hrefines.call hfits hfuel hcall

/-- Objects of several sizes, a block that is used again, and the statistics before and after. -/
def heapSchedule : List HeapCall :=
  [.getHeapStats, .malloc 20, .write 0x20000010 19 7, .malloc 40, .calloc 3 5,
    .write 0x20000030 0 9, .free 0x20000010, .read 0x20000030 0, .malloc 8, .read 0x20000060 14,
    .free 0x20000060, .free 0x20000030, .getHeapStats]

def heapReplies : List HeapReply :=
  [.stats ⟨0, 0, sizeMax, 0, 0, 0, 0⟩, .pointer 0x20000010, .done, .pointer 0x20000030,
    .pointer 0x20000060, .done, .done, .byte 9, .pointer 0x20000010, .byte 0, .done, .done,
    .stats ⟨208, 208, 208, 1, 136, 4, 3⟩]

/-- A heap of 256 bytes at an address that is not aligned. -/
def unalignedHeap (hookReturns : Bool) : Layout := ⟨0x20000004, 256, 0x20010000, hookReturns⟩

/-- With the hook of `main.c` no allocation of the run fails, and with one that returns the run goes
on behind an allocation that fails. -/
theorem heap_refines_objects_schedule :
    (∃ m' S', Lib.converse (HeapMemory.call (unalignedHeap false) 33) ⟨fun _ => 0, 0, 0, 0, 0, 0⟩
        heapSchedule = some (m', heapReplies) ∧ Refines (unalignedHeap false) S' m') ∧
      ∃ m' S', Lib.converse (HeapMemory.call (unalignedHeap true) 33) ⟨fun _ => 0, 0, 0, 0, 0, 0⟩
        (.malloc 300 :: heapSchedule.tail) =
          some (m', .pointer 0 :: heapReplies.tail) ∧ Refines (unalignedHeap true) S' m' := by
  have hfits (hookReturns : Bool) : (unalignedHeap hookReturns).Fits := by
    refine ⟨?_, ?_, ?_, ?_, .inr ?_, ?_⟩ <;> decide +revert
  have hcleared (hookReturns : Bool) :
      HeapMemory.Cleared (unalignedHeap hookReturns) ⟨fun _ => 0, 0, 0, 0, 0, 0⟩ := ⟨rfl, rfl⟩
  have hfuel : 256 / xHeapStructSize < 33 := by decide
  constructor
  · have hrun : (Lib.converse (Objects.call (unalignedHeap false)) Objects.empty heapSchedule).map
        Prod.snd = some heapReplies := by
      decide +kernel
    obtain ⟨last, hlast, hreplies⟩ := Option.map_eq_some_iff.mp hrun
    obtain ⟨m', hmemory, hrefines⟩ :=
      heap_refines_objects (hfits false) hfuel (hcleared false) heapSchedule hlast
    exact ⟨m', last.1, hreplies ▸ hmemory, hrefines⟩
  · have hrun : (Lib.converse (Objects.call (unalignedHeap true)) Objects.empty
        (.malloc 300 :: heapSchedule.tail)).map Prod.snd =
          some (.pointer 0 :: heapReplies.tail) := by
      decide +kernel
    obtain ⟨last, hlast, hreplies⟩ := Option.map_eq_some_iff.mp hrun
    obtain ⟨m', hmemory, hrefines⟩ :=
      heap_refines_objects (hfits true) hfuel (hcleared true) _ hlast
    exact ⟨m', last.1, hreplies ▸ hmemory, hrefines⟩

end SimulatedLinux.Heap
