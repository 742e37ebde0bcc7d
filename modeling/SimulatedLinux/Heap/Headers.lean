import SimulatedLinux.Heap.Memory

/-! # The headers of the heap

The headers of the blocks, of the marker `xStart` and of the end marker do not overlap, and no user
has a byte of them. The links and the sizes in them show the free list and the allocated blocks.
-/

namespace SimulatedLinux.Heap

open Lib

namespace Layout

/-- The aligned start of the heap. -/
def low (L : Layout) : Nat := heapStart L.ucHeap

/-- The address of the end marker. -/
def high (L : Layout) : Nat := heapEnd L.ucHeap L.configTotalHeapSize

/-- The array is in the address space and does not begin at NULL, its size leaves the top bit free,
and the marker `xStart` is outside of it. -/
structure Fits (L : Layout) : Prop where
  nonnull : 0 < L.ucHeap
  large : 32 ≤ L.configTotalHeapSize
  small : L.configTotalHeapSize < heapBlockAllocatedBitmask
  space : L.ucHeap + L.configTotalHeapSize ≤ sizeModulus
  marker : L.xStart + xHeapStructSize ≤ L.ucHeap ∨ L.ucHeap + L.configTotalHeapSize ≤ L.xStart
  markerSpace : L.xStart + xHeapStructSize ≤ sizeModulus

variable {L : Layout}

theorem Fits.bounds (hfits : L.Fits) :
    L.ucHeap ≤ L.low ∧ L.low < L.high ∧
      L.high + xHeapStructSize ≤ L.ucHeap + L.configTotalHeapSize := by
  have hlarge := hfits.large
  simp only [low, high, heapStart, heapEnd, portByteAlignment, xHeapStructSize]
  omega

/-- The marker is apart from the heap with its end marker. -/
theorem Fits.marker_outside (hfits : L.Fits) :
    L.xStart + xHeapStructSize ≤ L.low ∨ L.high + xHeapStructSize ≤ L.xStart := by
  have hbounds := hfits.bounds
  have hmarker := hfits.marker
  omega

theorem Fits.high_lt (hfits : L.Fits) : L.high + xHeapStructSize ≤ sizeModulus :=
  Nat.le_trans hfits.bounds.2.2 hfits.space

/-- The pointer to the end marker is into the array of the heap. -/
theorem Fits.high_valid (hfits : L.Fits) : heapValidateBlockPointer L L.high := by
  have hbounds := hfits.bounds
  simp only [heapValidateBlockPointer, Bool.decide_and, Bool.and_eq_true, decide_eq_true_eq]
  simp only [xHeapStructSize] at hbounds
  omega

/-- A block of the heap has a size under the top bit. -/
theorem Fits.size_lt (hfits : L.Fits) {b : Block} (hlow : L.low ≤ b.addr)
    (hhigh : b.limit ≤ L.high) :
    b.size < heapBlockAllocatedBitmask := by
  have hbounds := hfits.bounds
  have hsmall := hfits.small
  simp only [Span.limit] at hhigh
  omega

end Layout

variable {L : Layout} {U : Users} {b c : Block}

namespace Users.Inv

theorem block_bounds (hinv : U.Inv L.low L.high) (hb : U.heap.HasBlock b) :
    L.low ≤ b.addr ∧ b.limit ≤ L.high ∧ Aligned b ∧ xHeapStructSize ≤ b.size := by
  have haligned : Aligned b := by
    rcases hb with hfree | hused
    · exact hinv.free b hfree
    · exact hinv.allocated b.addr b.size hused
  have hpos : 0 < b.size := by
    rcases hb with hfree | hused
    · exact hinv.sound.separated.nonempty b hfree
    · exact hinv.sound.nonempty b.addr b.size hused
  have hsize : xHeapStructSize ≤ b.size := Nat.le_of_dvd hpos haligned.2
  have hin (x : Nat) (hx : b.Mem x) : L.low ≤ x ∧ x < L.high := (hinv.law.tiles x).mpr ⟨b, hb, hx⟩
  have hfirst := hin b.addr ⟨Nat.le_refl _, Nat.lt_add_of_pos_right hpos⟩
  have hlast := hin (b.addr + b.size - 1) ⟨by omega, by unfold Span.limit; omega⟩
  refine ⟨hfirst.1, ?_, haligned, hsize⟩
  unfold Span.limit
  omega

/-- The pointer to a block, and the one behind its header, are into the array of the heap. -/
theorem block_valid (hinv : U.Inv L.low L.high) (hfits : L.Fits) (hb : U.heap.HasBlock b) :
    heapValidateBlockPointer L b.addr ∧ heapValidateBlockPointer L (b.addr + xHeapStructSize) := by
  obtain ⟨hlow, hhigh, -, hsize⟩ := hinv.block_bounds hb
  have hbounds := hfits.bounds
  simp only [heapValidateBlockPointer, Bool.decide_and, Bool.and_eq_true, decide_eq_true_eq]
  simp only [Span.limit, xHeapStructSize] at *
  omega

theorem blocks_apart (hinv : U.Inv L.low L.high) (hb : U.heap.HasBlock b) (hc : U.heap.HasBlock c)
    (hne : b.addr ≠ c.addr) : b.limit ≤ c.addr ∨ c.limit ≤ b.addr := by
  by_contra hover
  have hsize := (hinv.block_bounds hb).2.2.2
  have hsize' := (hinv.block_bounds hc).2.2.2
  simp only [Span.limit, xHeapStructSize] at hover hsize hsize'
  -- the larger of the two addresses is in both blocks
  have hsame : b = c := by
    apply hinv.law.apart b c (max b.addr c.addr) hb hc
    · exact ⟨Nat.le_max_left .., by unfold Span.limit; omega⟩
    · exact ⟨Nat.le_max_right .., by unfold Span.limit; omega⟩
  exact hne (by rw [hsame])

end Users.Inv

/-! ## Places -/

/-- The places of the headers. -/
def Place (L : Layout) (h : Heap4) (p : Nat) : Prop :=
  p = L.xStart ∨ p = L.high ∨ ∃ b, h.HasBlock b ∧ b.addr = p

/-- The places, and one more in a free block. -/
def PlaceOr (L : Layout) (h : Heap4) (new p : Nat) : Prop := Place L h p ∨ p = new

namespace Place

variable {h : Heap4}

theorem start : Place L h L.xStart := .inl rfl

theorem stop : Place L h L.high := .inr (.inl rfl)

theorem free (hb : b ∈ h.free) : Place L h b.addr := .inr (.inr ⟨b, .inl hb, rfl⟩)

theorem used {addr size : Nat} (hused : h.allocated addr = some size) : Place L h addr :=
  .inr (.inr ⟨⟨addr, size⟩, .inr hused, rfl⟩)

end Place

theorem Users.Inv.scattered (hinv : U.Inv L.low L.high) (hfits : L.Fits) :
    Scattered (Place L U.heap) := by
  have hbounds := hfits.bounds
  have hmarker := hfits.marker_outside
  have hblock {b : Block} (hb : U.heap.HasBlock b) :
      Apart L.xStart b.addr ∧ Apart b.addr L.high := by
    obtain ⟨hlow, hhigh, -, hsize⟩ := hinv.block_bounds hb
    simp only [Apart, Span.limit] at *
    omega
  have hends : Apart L.xStart L.high := by
    simp only [Apart, xHeapStructSize] at *
    omega
  rintro p q (rfl | rfl | ⟨b, hb, rfl⟩) (rfl | rfl | ⟨c, hc, rfl⟩)
  · exact .inl rfl
  · exact .inr hends
  · exact .inr (hblock hc).1
  · exact .inr hends.symm
  · exact .inl rfl
  · exact .inr (hblock hc).2.symm
  · exact .inr (hblock hb).1.symm
  · exact .inr (hblock hb).2
  · by_cases hne : b.addr = c.addr
    · exact .inl hne
    · right
      have hsize := (hinv.block_bounds hb).2.2.2
      have hsize' := (hinv.block_bounds hc).2.2.2
      have hapart := hinv.blocks_apart hb hc hne
      simp only [Apart, Span.limit] at *
      omega

/-- A header inside of a free block is apart from the others. -/
theorem Users.Inv.apart_new (hinv : U.Inv L.low L.high) (hfits : L.Fits)
    (hb : b ∈ U.heap.free) {new : Nat} (hlow : b.addr + xHeapStructSize ≤ new)
    (hhigh : new + xHeapStructSize ≤ b.limit) {p : Nat} (hp : Place L U.heap p) : Apart p new := by
  have hmarker := hfits.marker_outside
  obtain ⟨hfirst, hlast, -, -⟩ := hinv.block_bounds (.inl hb)
  rcases hp with rfl | rfl | ⟨c, hc, rfl⟩
  · simp only [Apart] at *
    omega
  · simp only [Apart] at *
    omega
  · by_cases hne : b.addr = c.addr
    · rw [← hne]
      exact .inl hlow
    · have hsize := (hinv.block_bounds hc).2.2.2
      have hapart := hinv.blocks_apart (.inl hb) hc hne
      simp only [Apart, Span.limit] at *
      omega

theorem Users.Inv.scattered_new (hinv : U.Inv L.low L.high) (hfits : L.Fits)
    (hb : b ∈ U.heap.free) {new : Nat} (hlow : b.addr + xHeapStructSize ≤ new)
    (hhigh : new + xHeapStructSize ≤ b.limit) :
    Scattered (PlaceOr L U.heap new) := by
  rintro p q (hp | rfl) (hq | rfl)
  · exact hinv.scattered hfits p q hp hq
  · exact .inr (hinv.apart_new hfits hb hlow hhigh hp)
  · exact .inr (hinv.apart_new hfits hb hlow hhigh hq).symm
  · exact .inl rfl

/-- The users' bytes are in no header. -/
theorem Users.Inv.payload_outside (hinv : U.Inv L.low L.high) (hfits : L.Fits) {pv n offset p : Nat}
    (hlive : U.live pv = some n) (hoffset : offset < n) (hp : Place L U.heap p) :
    pv + offset < p ∨ p + xHeapStructSize ≤ pv + offset := by
  obtain ⟨-, c, hused, rfl, hlimit⟩ := hinv.object hlive
  obtain ⟨hlow, hhigh, -, -⟩ := hinv.block_bounds (b := c) (.inr hused)
  have hbounds := hfits.bounds
  have hmarker := hfits.marker_outside
  rcases hp with rfl | rfl | ⟨d, hd, rfl⟩
  · omega
  · omega
  · by_cases hne : c.addr = d.addr
    · right
      omega
    · have hsize := (hinv.block_bounds hd).2.2.2
      have hapart := hinv.blocks_apart (.inr hused) hd hne
      simp only [Span.limit] at *
      omega

theorem Users.Inv.payload_outside_free (hinv : U.Inv L.low L.high) {pv n offset : Nat}
    (hlive : U.live pv = some n) (hoffset : offset < n) (hb : b ∈ U.heap.free) :
    pv + offset < b.addr ∨ b.limit ≤ pv + offset := by
  obtain ⟨-, c, hused, rfl, hlimit⟩ := hinv.object hlive
  have hapart := hinv.blocks_apart (.inl hb) (.inr hused) (hinv.free_ne_used hb hused)
  simp only [Span.limit] at *
  omega

end SimulatedLinux.Heap
