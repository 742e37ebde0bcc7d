import SimulatedLinux.Heap.Links

/-! # Taking a block

`pvPortMalloc` takes a block out of the free list by its links and leaves what is left over of it in
its place.
-/

namespace SimulatedLinux.Heap

open Lib

variable {L : Layout} {U : Users} {N Z : Nat → Nat} {m first : HeapMemory} {b : Block}
  {before after : List Block} {w bytes : Nat}

/-! ## The headers -/

section Headers

variable {D : Nat → Prop} {p x new s : Nat}

theorem splitBlock_shows (hshows : Shows D first m N Z) (hD : Scattered D) (hp : D p) (hx : D x)
    (hnew : D (x + w)) (hs : Z x = s) (hsplit : s - w > heapMinimumBlockSize)
    (hlimit : x + s < sizeModulus) (haligned : portByteAlignment ∣ x + w) :
    ∃ m', m.splitBlock p x w = some m' ∧ m'.static = m.static ∧
      Shows D first m' (Function.update (Function.update N (x + w) (N p)) p (x + w))
        (Function.update (Function.update Z (x + w) (s - w)) x w) := by
  have hsize : m.size x = s := (hshows.size x hx).trans hs
  have hmod : (x + w) % sizeModulus = x + w := Nat.mod_eq_of_lt (by omega)
  have hnext : m.next p < sizeModulus := m.next_lt p
  have hrest := hshows.setSize hD hnew (v := s - w) (by omega)
  have hwanted := hrest.setSize hD hx (v := w) (by omega)
  have hlink : ((m.setSize (x + w) (s - w)).setSize x w).next p = N p := hwanted.next p hp
  have hchained := hwanted.setNext hD hnew (v := N p) (by rw [← hshows.next p hp]; exact hnext)
  refine ⟨_, ?_, ?_, hchained.setNext hD hp (v := x + w) (by omega)⟩
  · unfold HeapMemory.splitBlock
    dsimp only
    rw [hsize, if_pos hsplit, hmod, if_pos (Nat.mod_eq_zero_of_dvd haligned), hlink]
  · rfl

/-- The static data after a block of `s` bytes was handed out. -/
def HeapMemory.charged (m : HeapMemory) (s : Nat) : Nat × Nat × Nat × Nat × Nat :=
  (m.pxEnd, m.xFreeBytesRemaining - s,
    if m.xFreeBytesRemaining - s < m.xMinimumEverFreeBytesRemaining then m.xFreeBytesRemaining - s
    else m.xMinimumEverFreeBytesRemaining,
    (m.xNumberOfSuccessfulAllocations + 1) % sizeModulus, m.xNumberOfSuccessfulFrees)

theorem HeapMemory.charged_congr {m' : HeapMemory} (h : m'.static = m.static) (s : Nat) :
    m'.charged s = m.charged s := by
  simp only [HeapMemory.static, Prod.mk.injEq] at h
  obtain ⟨hend, hfree, hminimum, hallocations, hfrees⟩ := h
  rw [HeapMemory.charged, HeapMemory.charged, hend, hfree, hminimum, hallocations, hfrees]

theorem markAllocated_shows (hshows : Shows D first m N Z) (hD : Scattered D) (hx : D x)
    (hs : Z x = s) (hsmall : s < heapBlockAllocatedBitmask) :
    (m.markAllocated x).static = m.charged s ∧
      Shows D first (m.markAllocated x) (Function.update N x 0)
        (Function.update Z x (s + heapBlockAllocatedBitmask)) := by
  have hsize : m.size x = s := (hshows.size x hx).trans hs
  have hbit : heapAllocateBlock s = s + heapBlockAllocatedBitmask := heapAllocateBlock_eq hsmall
  have hmarked := (hshows.setSize hD hx (v := s + heapBlockAllocatedBitmask)
    (by simp only [heapBlockAllocatedBitmask, sizeModulus] at *; omega)).setNext hD hx (v :=
      0) (by decide)
  constructor
  · unfold HeapMemory.markAllocated HeapMemory.charged
    dsimp only [HeapMemory.static, HeapMemory.setNext, HeapMemory.setSize]
    rw [hsize]
  · refine hmarked.of_bytes ?_
    rw [← hbit, ← hsize]
    rfl

end Headers

/-! ## The links -/

/-- What is known when the block `b` of the free list is taken for a request of `w` bytes. -/
structure Taking (L : Layout) (U : Users) (m : HeapMemory) (before : List Block) (b : Block)
    (after : List Block) (w : Nat) : Prop where
  inv : U.Inv L.low L.high
  fits : L.Fits
  shape : Shape L U.heap m.next m.size
  free : U.heap.free = before ++ b :: after
  aligned : portByteAlignment ∣ w
  header : xHeapStructSize ≤ w
  large : w ≤ b.size

namespace Taking

theorem mem (h : Taking L U m before b after w) : b ∈ U.heap.free := by
  simp [h.free]

theorem mem_of (h : Taking L U m before b after w) {c : Block} (hc : c ∈ before ∨ c ∈ after) :
    c ∈ U.heap.free ∧ c.addr ≠ b.addr := by
  have hsorted := h.inv.law.sorted
  rw [h.free] at hsorted
  obtain ⟨-, hsorted, hbelow⟩ := List.pairwise_append.mp hsorted
  have habove := (List.pairwise_cons.mp hsorted).1
  rcases hc with hc | hc
  · have := hbelow c hc b (by simp)
    exact ⟨by simp [h.free, hc], by omega⟩
  · have := habove c hc
    exact ⟨by simp [h.free, hc], by omega⟩

theorem bounds (h : Taking L U m before b after w) :
    L.low ≤ b.addr ∧ b.limit ≤ L.high ∧ L.high + xHeapStructSize ≤ sizeModulus ∧
      b.size < heapBlockAllocatedBitmask := by
  obtain ⟨hlow, hhigh, -, -⟩ := h.inv.block_bounds (.inl h.mem)
  exact ⟨hlow, hhigh, h.fits.high_lt, h.fits.size_lt hlow hhigh⟩

/-- The links before the block and those behind it. -/
theorem links (h : Taking L U m before b after w) :
    Trail m.next L.xStart (before.map Span.addr) b.addr ∧
      Trail m.next b.addr (after.map Span.addr) L.high ∧
      (L.xStart :: before.map Span.addr).Nodup := by
  have htrail := h.shape.trail
  simp only [h.free, List.map_append, List.map_cons, Trail.append_iff] at htrail
  have hnodup := h.inv.addrs_nodup h.fits
  simp only [h.free, List.map_append, ← List.cons_append] at hnodup
  exact ⟨htrail.1, htrail.2, (List.nodup_append.mp hnodup).1⟩

/-- The pointer is the one behind the header of the block. -/
theorem takeFrom_eq (h : Taking L U m before b after w) {p : Nat} (hlead : m.next p = b.addr)
    (hsize : (m.setNext p (m.next b.addr)).size b.addr = m.size b.addr) {m' : HeapMemory}
    (hsplit : (m.setNext p (m.next b.addr)).splitBlock p b.addr w = some m') :
    m.takeFrom L p b.addr w = some (m'.markAllocated b.addr, b.addr + xHeapStructSize) := by
  obtain ⟨hlow, hhigh, hspace, hsmall⟩ := h.bounds
  have hlarge := h.large
  have hmod : (b.addr + xHeapStructSize) % sizeModulus = b.addr + xHeapStructSize := by
    apply Nat.mod_eq_of_lt
    have hheader := (h.inv.block_bounds (.inl h.mem)).2.2.2
    simp only [Span.limit, xHeapStructSize] at *
    omega
  unfold HeapMemory.takeFrom
  dsimp only
  rw [hlead, hmod, if_pos (h.inv.block_valid h.fits (.inl h.mem)).2, hsize, h.shape.free b h.mem,
    if_neg (by omega), hsplit, Option.map_some]

/-- The block is split in two. -/
theorem split (h : Taking L U m before b after w) (hsplit : b.size - w > heapMinimumBlockSize)
    (bytes : Nat) :
    ∃ m' N' Z', m.takeFrom L (Trail.last L.xStart (before.map Span.addr)) b.addr w =
      some (m', b.addr + xHeapStructSize) ∧
      m'.static = m.charged w ∧ Shows (PlaceOr L U.heap (b.addr + w)) m m' N' Z' ∧
      Shape L ⟨before ++ ⟨b.addr + w, b.size - w⟩ :: after,
        Function.update U.heap.allocated b.addr (some w), bytes⟩ N' Z' := by
  obtain ⟨hlow, hhigh, hspace, hsmall⟩ := h.bounds
  have hheader := h.header
  have hlead := h.links.1.next_last
  generalize hlast : Trail.last L.xStart (before.map Span.addr) = p at *
  obtain ⟨hp, hphigh, hcross, hpused⟩ := h.inv.last_place h.fits h.free hlast
  have hpb : p ≠ b.addr := Ne.symm (hcross b (by simp))
  -- the header of the rest lies inside the block, apart from every other header
  have hinside : b.addr + xHeapStructSize ≤ b.addr + w ∧
      b.addr + w + xHeapStructSize ≤ b.limit := by
    simp only [heapMinimumBlockSize, xHeapStructSize, Span.limit] at *
    omega
  have hD := h.inv.scattered_new h.fits h.mem hinside.1 hinside.2
  have hnew {q : Nat} (hq : Place L U.heap q) : q ≠ b.addr + w := by
    have hapart := h.inv.apart_new h.fits h.mem hinside.1 hinside.2 hq
    simp only [Apart, xHeapStructSize] at hapart
    omega
  -- the stores in the order of the source: skip the block, split it, mark it
  have hskipped := (Shows.refl (PlaceOr L U.heap (b.addr + w)) m).setNext hD (.inl hp)
    (m.next_lt b.addr)
  obtain ⟨m₂, hsplits, hstatic, hshows⟩ := splitBlock_shows hskipped hD (.inl hp)
    (.inl (.free h.mem)) (.inr rfl) (h.shape.free b h.mem) hsplit
    (by simp only [Span.limit, xHeapStructSize] at *; omega)
    (Nat.dvd_add (h.inv.free b h.mem).1 h.aligned)
  obtain ⟨hcharged, hmarked⟩ := markAllocated_shows hshows hD (.inl (.free h.mem))
    (Function.update_self ..) (show w < heapBlockAllocatedBitmask by omega)
  refine ⟨_, _, _, h.takeFrom_eq hlead (hskipped.size b.addr (.inl (.free h.mem))) hsplits,
    hcharged.trans (HeapMemory.charged_congr hstatic w), hmarked, ?_⟩
  have hblock {c : Block} (hc : c ∈ before ∨ c ∈ after) : c.addr ≠ b.addr ∧ c.addr ≠ b.addr + w :=
    ⟨(h.mem_of hc).2, hnew (.free (h.mem_of hc).1)⟩
  have hmarkers := h.inv.markers_ne h.fits (.inl h.mem)
  have hpos : w ≠ 0 := by
    simp only [xHeapStructSize] at hheader
    omega
  refine ⟨?_, ?_, ⟨?_, ?_⟩, fun c hc => ?_, fun addr t hused => ?_⟩
  -- the trail up to the block is turned to the rest, and the trail behind it starts there
  · simp only [List.map_append, List.map_cons, Trail.append_iff]
    have hturned := h.links.1.redirect h.links.2.2 (b.addr + w)
    rw [hlast] at hturned
    constructor
    · refine hturned.congr fun q hq => ?_
      have hne : q ≠ b.addr ∧ q ≠ b.addr + w := by
        rcases List.mem_cons.mp hq with rfl | hq
        · exact ⟨hmarkers.1, hnew .start⟩
        · obtain ⟨c, hc, rfl⟩ := List.mem_map.mp hq
          exact hblock (.inl hc)
      simp only [Function.update_apply, hne.1, hne.2, if_false]
      split
      · rfl
      · rfl
    · refine h.links.2.1.restart ?_ fun q hq => ?_
      · simp [hpos, Ne.symm (hnew hp)]
      · obtain ⟨c, hc, rfl⟩ := List.mem_map.mp hq
        have hne := hblock (.inr hc)
        simp [hne.1, hne.2, hcross c (List.mem_cons_of_mem _ hc)]
  · simp [hmarkers.1, hnew .start, h.shape.start]
  · simp [hmarkers.2, hnew .stop, Ne.symm hphigh, h.shape.stop.1]
  · simp [hmarkers.2, hnew .stop, h.shape.stop.2]
  · rcases List.mem_append.mp hc with hc | hc
    · have hne := hblock (.inl hc)
      simp [hne.1, hne.2, h.shape.free c (h.mem_of (.inl hc)).1]
    · rcases List.mem_cons.mp hc with rfl | hc
      · simp [hpos]
      · have hne := hblock (.inr hc)
        simp [hne.1, hne.2, h.shape.free c (h.mem_of (.inr hc)).1]
  · by_cases haddr : addr = b.addr
    · obtain rfl : w = t := by simpa [haddr] using hused
      simp [haddr]
    · have hsome : U.heap.allocated addr = some t := by simpa [haddr] using hused
      have hne := hnew (.used hsome)
      have hshown := h.shape.used addr t hsome
      simp [haddr, hne, Ne.symm (hpused addr t hsome), hshown.1, hshown.2]

/-- What is left of the block would be too small for a block of its own. -/
theorem whole (h : Taking L U m before b after w) (hwhole : ¬ b.size - w > heapMinimumBlockSize)
    (bytes : Nat) :
    ∃ m' N' Z', m.takeFrom L (Trail.last L.xStart (before.map Span.addr)) b.addr w =
      some (m', b.addr + xHeapStructSize) ∧
      m'.static = m.charged b.size ∧ Shows (Place L U.heap) m m' N' Z' ∧
      Shape L ⟨before ++ after, Function.update U.heap.allocated b.addr (some b.size), bytes⟩ N'
        Z' := by
  obtain ⟨hlow, hhigh, hspace, hsmall⟩ := h.bounds
  have hlead := h.links.1.next_last
  generalize hlast : Trail.last L.xStart (before.map Span.addr) = p at *
  obtain ⟨hp, hphigh, hcross, hpused⟩ := h.inv.last_place h.fits h.free hlast
  have hpb : p ≠ b.addr := Ne.symm (hcross b (by simp))
  have hD := h.inv.scattered h.fits
  have hskipped := (Shows.refl (Place L U.heap) m).setNext hD hp (m.next_lt b.addr)
  have hsize := hskipped.size b.addr (.free h.mem)
  have hsplits : (m.setNext p (m.next b.addr)).splitBlock p b.addr w =
      some (m.setNext p (m.next b.addr)) := by
    unfold HeapMemory.splitBlock
    rw [hsize, h.shape.free b h.mem, if_neg hwhole]
  obtain ⟨hcharged, hmarked⟩ :=
    markAllocated_shows hskipped hD (.free h.mem) (h.shape.free b h.mem) hsmall
  refine ⟨_, _, _, h.takeFrom_eq hlead hsize hsplits, hcharged, hmarked, ?_⟩
  have hmarkers := h.inv.markers_ne h.fits (.inl h.mem)
  refine ⟨?_, ?_, ⟨?_, ?_⟩, fun c hc => ?_, fun addr t hused => ?_⟩
  · have hturned := h.links.1.redirect h.links.2.2 (m.next b.addr)
    rw [hlast] at hturned
    rw [List.map_append]
    refine Trail.join (hturned.congr fun q hq => Function.update_of_ne ?_ _ _) ?_
    · rcases List.mem_cons.mp hq with rfl | hq
      · exact hmarkers.1
      · obtain ⟨c, hc, rfl⟩ := List.mem_map.mp hq
        exact (h.mem_of (.inl hc)).2
    · rw [hlast]
      refine h.links.2.1.restart ?_ fun q hq => ?_
      · simp [hpb]
      · obtain ⟨c, hc, rfl⟩ := List.mem_map.mp hq
        simp [(h.mem_of (.inr hc)).2, hcross c (List.mem_cons_of_mem _ hc)]
  · simp [hmarkers.1, h.shape.start]
  · simp [hmarkers.2, Ne.symm hphigh, h.shape.stop.1]
  · simp [hmarkers.2, h.shape.stop.2]
  · have hmem := h.mem_of (List.mem_append.mp hc)
    simp [hmem.2, h.shape.free c hmem.1]
  · by_cases haddr : addr = b.addr
    · obtain rfl : b.size = t := by simpa [haddr] using hused
      simp [haddr]
    · have hsome : U.heap.allocated addr = some t := by simpa [haddr] using hused
      have hshown := h.shape.used addr t hsome
      simp [haddr, Ne.symm (hpused addr t hsome), hshown.1, hshown.2]

/-- The places after an allocation are places from before it, or the one that is new. -/
theorem place_of (h : Taking L U m before b after w) {rest : List Block}
    {D : Nat → Prop} {t q : Nat} (hplaces : ∀ p, Place L U.heap p → D p)
    (hrest : ∀ c ∈ rest, (c ∈ before ∨ c ∈ after) ∨ D c.addr)
    (hq : Place L ⟨rest, Function.update U.heap.allocated b.addr (some t), bytes⟩ q) : D q := by
  rcases hq with rfl | rfl | ⟨c, hc | hc, rfl⟩
  · exact hplaces _ .start
  · exact hplaces _ .stop
  · rcases hrest c hc with hold | hnew
    · exact hplaces _ (.free (h.mem_of hold).1)
    · exact hnew
  · by_cases haddr : c.addr = b.addr
    · rw [haddr]
      exact hplaces _ (.free h.mem)
    · have hsome : U.heap.allocated c.addr = some c.size := by simpa [haddr] using hc
      exact hplaces _ (.used hsome)

/-- The allocation takes the block from the links as from the sequence, and no user's byte is
changed. -/
theorem take (h : Taking L U m before b after w) (hsmall : ∀ c ∈ before, c.size < w) (bytes : Nat) :
    ∃ t rest m', takeBlock w U.heap.free = some (⟨b.addr, t⟩, rest) ∧
      m.takeFrom L (Trail.last L.xStart (before.map Span.addr)) b.addr w =
        some (m', b.addr + xHeapStructSize) ∧
      m'.static = m.charged t ∧
      Shape L ⟨rest, Function.update U.heap.allocated b.addr (some t), bytes⟩ m'.next m'.size ∧
      ∀ pv n offset, U.live pv = some n → offset < n →
      m'.bytes (pv + offset) = m.bytes (pv + offset) := by
  have hlarge := Nat.not_lt.mpr h.large
  rw [h.free, takeBlock_append hsmall, takeBlock, if_neg hlarge]
  by_cases hsplit : b.size - w > heapMinimumBlockSize
  · obtain ⟨m', N', Z', htake, hstatic, hshows, hshape⟩ := h.split hsplit bytes
    have hplaces : ∀ c ∈ before ++ ⟨b.addr + w, b.size - w⟩ :: after,
        (c ∈ before ∨ c ∈ after) ∨ PlaceOr L U.heap (b.addr + w) c.addr := by
      intro c hc
      rcases List.mem_append.mp hc with hc | hc
      · exact .inl (.inl hc)
      · rcases List.mem_cons.mp hc with rfl | hc
        · exact .inr (.inr rfl)
        · exact .inl (.inr hc)
    refine ⟨w, _, m', ?_, htake, hstatic, hshape.congr (fun q hq => ?_) (fun q hq => ?_),
      fun pv n offset hlive hoffset => ?_⟩
    · rw [if_pos hsplit]
      rfl
    · exact hshows.next q (h.place_of (fun _ => .inl) hplaces hq)
    · exact hshows.size q (h.place_of (fun _ => .inl) hplaces hq)
    · refine hshows.others _ fun q hq => ?_
      rcases hq with hq | rfl
      · exact h.inv.payload_outside h.fits hlive hoffset hq
      · have hout := h.inv.payload_outside_free hlive hoffset h.mem
        simp only [heapMinimumBlockSize, xHeapStructSize, Span.limit] at *
        omega
  · obtain ⟨m', N', Z', htake, hstatic, hshows, hshape⟩ := h.whole hsplit bytes
    refine ⟨b.size, _, m', ?_, htake, hstatic, hshape.congr (fun q hq => ?_) (fun q hq => ?_),
      fun pv n offset hlive hoffset => ?_⟩
    · rw [if_neg hsplit]
      rfl
    · exact hshows.next q (h.place_of (fun _ => id) (fun c hc => .inl (List.mem_append.mp hc)) hq)
    · exact hshows.size q (h.place_of (fun _ => id) (fun c hc => .inl (List.mem_append.mp hc)) hq)
    · exact hshows.others _ fun q hq => h.inv.payload_outside h.fits hlive hoffset hq

end Taking

end SimulatedLinux.Heap
