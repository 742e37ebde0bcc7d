import SimulatedLinux.Heap.Headers

/-! # The links of the heap

The searches of `pvPortMalloc` and of `prvInsertBlockIntoFreeList` follow the links, and what they
do to them is what the model of the free list does to its sequence of blocks.
-/

namespace SimulatedLinux.Heap

open Lib

/-- The links lead from `xStart` over the free blocks to the end marker, and the sizes are those of
the blocks, with the top bit for those that are allocated. -/
structure Shape (L : Layout) (h : Heap4) (N Z : Nat → Nat) : Prop where
  trail : Trail N L.xStart (h.free.map Span.addr) L.high
  start : Z L.xStart = 0
  stop : N L.high = 0 ∧ Z L.high = 0
  free : ∀ b ∈ h.free, Z b.addr = b.size
  used : ∀ addr size, h.allocated addr = some size →
    N addr = 0 ∧ Z addr = size + heapBlockAllocatedBitmask

variable {L : Layout} {N N' Z Z' : Nat → Nat} {m : HeapMemory}

theorem Shape.congr {h : Heap4} (hshape : Shape L h N Z) (hnext : ∀ p, Place L h p → N' p = N p)
    (hsize : ∀ p, Place L h p → Z' p = Z p) : Shape L h N' Z' := by
  refine ⟨hshape.trail.congr fun p hp => hnext p ?_, ?_, ⟨?_, ?_⟩, fun b hb => ?_,
    fun addr size hused => ?_⟩
  · rcases List.mem_cons.mp hp with rfl | hp
    · exact .start
    · obtain ⟨b, hb, rfl⟩ := List.mem_map.mp hp
      exact .free hb
  · rw [hsize _ .start, hshape.start]
  · rw [hnext _ .stop, hshape.stop.1]
  · rw [hsize _ .stop, hshape.stop.2]
  · rw [hsize _ (.free hb), hshape.free b hb]
  · rw [hnext _ (.used hused), hsize _ (.used hused)]
    exact hshape.used addr size hused

/-- The count of free bytes is not in the memory. -/
theorem Shape.of_lists {h h' : Heap4} (hshape : Shape L h N Z) (hfree : h'.free = h.free)
    (hallocated : h'.allocated = h.allocated) : Shape L h' N Z := by
  refine ⟨?_, hshape.start, hshape.stop, ?_, ?_⟩
  · rw [hfree]
    exact hshape.trail
  · rw [hfree]
    exact hshape.free
  · rw [hallocated]
    exact hshape.used

/-! ## Searching for a block -/

/-- The search ends at the first block that is large enough, or at the end marker. -/
theorem findBlock_eq {w fuel prev stop : Nat} {blocks : List Block}
    (htrail : Trail m.next prev (blocks.map Span.addr) stop)
    (hsize : ∀ b ∈ blocks, m.size b.addr = b.size)
    (hvalid : ∀ b ∈ blocks, b.addr ≠ 0 ∧ heapValidateBlockPointer L b.addr)
    (hstop : m.next stop = 0 ∧ stop ≠ 0 ∧ heapValidateBlockPointer L stop)
    (hfuel : blocks.length < fuel) :
    (∃ before b after, blocks = before ++ b :: after ∧ (∀ c ∈ before, c.size < w) ∧ w ≤ b.size ∧
        m.findBlock L w fuel prev (m.next prev) =
          some (Trail.last prev (before.map Span.addr), b.addr)) ∨
      (∀ b ∈ blocks, b.size < w) ∧
        ∃ p, m.findBlock L w fuel prev (m.next prev) = some (p, stop) := by
  -- the search stands at the head of what is left of the list, and each block on it is valid
  induction blocks generalizing prev fuel with
  | nil =>
      obtain ⟨fuel, rfl⟩ := Nat.exists_eq_add_of_lt hfuel
      have hend : m.next prev = stop := htrail
      refine .inr ⟨by simp, prev, ?_⟩
      simp [HeapMemory.findBlock, hend, hstop.1, hstop.2.2]
  | cons b rest ih =>
      obtain ⟨fuel, rfl⟩ : ∃ k, fuel = k + 1 := ⟨fuel - 1, by omega⟩
      obtain ⟨hfirst, hrest⟩ := htrail
      rw [List.forall_mem_cons] at hsize hvalid
      rw [hfirst, HeapMemory.findBlock, if_pos hvalid.1.2, hsize.1]
      by_cases hsmall : b.size < w
      · have hnext : m.next b.addr ≠ 0 := by
          cases rest with
          | nil =>
              rw [show m.next b.addr = stop from hrest]
              exact hstop.2.1
          | cons c rest =>
              rw [hrest.1]
              exact (hvalid.2 c (by simp)).1
        rw [if_pos ⟨hsmall, hnext⟩]
        rcases ih hrest hsize.2 hvalid.2 (by simpa using hfuel) with
          ⟨before, c, after, rfl, hbefore, hlarge, hfind⟩ | ⟨hall, p, hfind⟩
        · refine .inl ⟨b :: before, c, after, rfl, List.forall_mem_cons.mpr ⟨hsmall, hbefore⟩,
            hlarge, ?_⟩
          rw [hfind, List.map_cons, Trail.last_cons]
        · exact .inr ⟨List.forall_mem_cons.mpr ⟨hsmall, hall⟩, p, hfind⟩
      · rw [if_neg fun h => hsmall h.1]
        exact .inl ⟨[], b, rest, rfl, by simp, Nat.le_of_not_lt hsmall, rfl⟩

theorem takeBlock_append {w : Nat} {before blocks : List Block}
    (hsmall : ∀ c ∈ before, c.size < w) :
    takeBlock w (before ++ blocks) = (takeBlock w blocks).map fun taken =>
      (taken.1, before ++ taken.2) := by
  induction before with
  | nil => simp
  | cons c before ih =>
      rw [List.forall_mem_cons] at hsmall
      rw [List.cons_append, takeBlock, if_pos hsmall.1, ih hsmall.2, Option.map_map]
      rfl

/-! ## Searching for a place -/

/-- The loop stops before the first block that is not below the block to insert. -/
theorem insertPoint_eq {x fuel start stop : Nat} {blocks : List Block}
    (htrail : Trail m.next start (blocks.map Span.addr) stop)
    (hsorted : blocks.Pairwise fun b c => b.addr < c.addr) (hstop : x ≤ stop)
    (hfuel : blocks.length < fuel) :
    ∃ before after, blocks = before ++ after ∧ (∀ b ∈ before, b.addr < x) ∧
      (∀ b ∈ after, x ≤ b.addr) ∧
      m.insertPoint x fuel start = some (Trail.last start (before.map Span.addr)) := by
  -- the iterator stops before the first block behind the address
  induction blocks generalizing start fuel with
  | nil =>
      obtain ⟨fuel, rfl⟩ := Nat.exists_eq_add_of_lt hfuel
      have hend : m.next start = stop := htrail
      refine ⟨[], [], rfl, by simp, by simp, ?_⟩
      simp [HeapMemory.insertPoint, hend, Nat.not_lt.mpr hstop]
  | cons b rest ih =>
      obtain ⟨fuel, rfl⟩ : ∃ k, fuel = k + 1 := ⟨fuel - 1, by omega⟩
      obtain ⟨hfirst, hrest⟩ := htrail
      obtain ⟨hbelow, hsorted⟩ := List.pairwise_cons.mp hsorted
      rw [HeapMemory.insertPoint, hfirst]
      by_cases hlt : b.addr < x
      · obtain ⟨before, after, rfl, hbefore, hafter, hpoint⟩ :=
          ih hrest hsorted (by simpa using hfuel)
        refine ⟨b :: before, after, rfl, List.forall_mem_cons.mpr ⟨hlt, hbefore⟩, hafter, ?_⟩
        rw [if_pos hlt, hpoint, List.map_cons, Trail.last_cons]
      · refine ⟨[], b :: rest,
          rfl, by simp, List.forall_mem_cons.mpr ⟨Nat.le_of_not_lt hlt, fun c hc => ?_⟩, ?_⟩
        · exact Nat.le_trans (Nat.le_of_not_lt hlt) (Nat.le_of_lt (hbelow c hc))
        · rw [if_neg hlt]
          rfl

section Sequence

variable {b it : Block} {before after : List Block}

theorem insertAfter_append (hbefore : ∀ c ∈ before ++ [it], c.addr < b.addr)
    (hafter : ∀ c ∈ after, b.addr ≤ c.addr) (first : Block) (rest : List Block)
    (hfirst : first :: rest = before ++ it :: after) :
    insertAfter b first rest = before ++
      if it.limit = b.addr then mergeNext ⟨it.addr, it.size + b.size⟩ after
      else it :: mergeNext b after := by
  induction before generalizing first rest with
  | nil =>
      obtain ⟨rfl, rfl⟩ := List.cons.inj hfirst
      cases rest with
      | nil => rfl
      | cons next rest =>
          have hnext := Nat.not_lt.mpr (hafter next (by simp))
          rw [insertAfter, if_neg hnext]
          rfl
  | cons c before ih =>
      rw [List.cons_append] at hfirst
      obtain ⟨rfl, rfl⟩ := List.cons.inj hfirst
      rw [List.cons_append, List.forall_mem_cons] at hbefore
      have hsecond : ∃ next rest, before ++ it :: after = next :: rest ∧ next.addr < b.addr := by
        cases before with
        | nil => exact ⟨it, after, rfl, hbefore.2 it (by simp)⟩
        | cons next before => exact ⟨next, before ++ it :: after, rfl, hbefore.2 next (by simp)⟩
      obtain ⟨next, rest, hrest, hnext⟩ := hsecond
      rw [hrest, insertAfter, if_pos hnext, ih hbefore.2 next rest hrest.symm, List.cons_append]

/-- The block goes between the iterator and the blocks behind it. -/
theorem insert_between (hbefore : ∀ c ∈ before ++ [it], c.addr < b.addr)
    (hafter : ∀ c ∈ after, b.addr ≤ c.addr) :
    prvInsertBlockIntoFreeList b (before ++ it :: after) = before ++
      if it.limit = b.addr then mergeNext ⟨it.addr, it.size + b.size⟩ after
      else it :: mergeNext b after := by
  obtain ⟨first, rest, hfirst, hlt⟩ : ∃ first rest, first :: rest = before ++ it :: after ∧
      first.addr < b.addr := by
    cases before with
    | nil => exact ⟨it, after, rfl, hbefore it (by simp)⟩
    | cons first before => exact ⟨first, before ++ it :: after, rfl, hbefore first (by simp)⟩
  rw [← hfirst, prvInsertBlockIntoFreeList, if_pos hlt]
  exact insertAfter_append hbefore hafter first rest hfirst

/-- The block goes before all others. -/
theorem insert_first (hafter : ∀ c ∈ after, b.addr ≤ c.addr) :
    prvInsertBlockIntoFreeList b after = mergeNext b after := by
  cases after with
  | nil => rfl
  | cons next rest =>
      have hnext := Nat.not_lt.mpr (hafter next (by simp))
      rw [prvInsertBlockIntoFreeList, if_neg hnext]

/-- The blocks of the list begin where they did, or where the new one does. -/
theorem mergeNext_addr {blocks : List Block} {c : Block} (hc : c ∈ mergeNext b blocks) :
    c.addr = b.addr ∨ ∃ d ∈ blocks, d.addr = c.addr := by
  cases blocks with
  | nil =>
      obtain rfl := List.mem_singleton.mp hc
      exact .inl rfl
  | cons next rest =>
      simp only [mergeNext] at hc
      split at hc
      · rcases List.mem_cons.mp hc with rfl | hc
        · exact .inl rfl
        · exact .inr ⟨c, List.mem_cons_of_mem _ hc, rfl⟩
      · rcases List.mem_cons.mp hc with rfl | hc
        · exact .inl rfl
        · exact .inr ⟨c, hc, rfl⟩

theorem insertAfter_addr {blocks : List Block} {c : Block} (hc : c ∈ insertAfter b it blocks) :
    c.addr = b.addr ∨ ∃ d ∈ it :: blocks, d.addr = c.addr := by
  have hhere {it : Block} {blocks : List Block} (hc : c ∈ if it.limit = b.addr then
      mergeNext ⟨it.addr, it.size + b.size⟩ blocks else it :: mergeNext b blocks) :
      c.addr = b.addr ∨ ∃ d ∈ it :: blocks, d.addr = c.addr := by
    split at hc
    · rcases mergeNext_addr hc with heq | ⟨d, hd, heq⟩
      · exact .inr ⟨it, by simp, heq.symm⟩
      · exact .inr ⟨d, List.mem_cons_of_mem _ hd, heq⟩
    · rcases List.mem_cons.mp hc with rfl | hc
      · exact .inr ⟨c, by simp, rfl⟩
      · rcases mergeNext_addr hc with heq | ⟨d, hd, heq⟩
        · exact .inl heq
        · exact .inr ⟨d, List.mem_cons_of_mem _ hd, heq⟩
  induction blocks generalizing it with
  | nil => exact hhere hc
  | cons next rest ih =>
      simp only [insertAfter] at hc
      split at hc
      · rcases List.mem_cons.mp hc with rfl | hc
        · exact .inr ⟨c, by simp, rfl⟩
        · rcases ih hc with heq | ⟨d, hd, heq⟩
          · exact .inl heq
          · exact .inr ⟨d, List.mem_cons_of_mem _ hd, heq⟩
      · exact hhere hc

theorem insert_addr {blocks : List Block} {c : Block}
    (hc : c ∈ prvInsertBlockIntoFreeList b blocks) :
    c.addr = b.addr ∨ ∃ d ∈ blocks, d.addr = c.addr := by
  cases blocks with
  | nil => exact mergeNext_addr hc
  | cons first rest =>
      simp only [prvInsertBlockIntoFreeList] at hc
      split at hc
      · exact insertAfter_addr hc
      · exact mergeNext_addr hc

end Sequence

/-! ## Inserting a block -/

namespace HeapMemory

/-- The data that is not in the memory. -/
def static (m : HeapMemory) : Nat × Nat × Nat × Nat × Nat :=
  (m.pxEnd, m.xFreeBytesRemaining, m.xMinimumEverFreeBytesRemaining,
    m.xNumberOfSuccessfulAllocations, m.xNumberOfSuccessfulFrees)

@[simp] theorem static_setNext (m : HeapMemory) (p v : Nat) : (m.setNext p v).static = m.static :=
  rfl

@[simp] theorem static_setSize (m : HeapMemory) (p v : Nat) : (m.setSize p v).static = m.static :=
  rfl

@[simp] theorem static_mergeBehind (m : HeapMemory) (p q : Nat) :
    (m.mergeBehind p q).static = m.static := by
  unfold mergeBehind
  split
  · split
    · rfl
    · rfl
  · rfl

theorem linkBlock_apart (m : HeapMemory) {it x : Nat} (hapart : (it + m.size it) % sizeModulus ≠ x)
    (hne : it ≠ x) :
    m.linkBlock it x = (m.mergeBehind it x).setNext it x := by
  have hbefore : m.mergeBefore it x = (m, x) := if_neg hapart
  rw [linkBlock, hbefore]
  exact if_pos hne

theorem linkBlock_adjacent (m : HeapMemory) {it x : Nat}
    (hadjacent : (it + m.size it) % sizeModulus = x) :
    m.linkBlock it x = (m.setSize it (m.size it + m.size x)).mergeBehind it it := by
  have hbefore : m.mergeBefore it x = (m.setSize it (m.size it + m.size x), it) := if_pos hadjacent
  rw [linkBlock, hbefore]
  exact if_neg (not_not.mpr rfl)

end HeapMemory

theorem Users.Inv.addrs_nodup {U : Users} (hinv : U.Inv L.low L.high) (hfits : L.Fits) :
    (L.xStart :: U.heap.free.map Span.addr).Nodup := by
  refine List.nodup_cons.mpr ⟨fun hmem => ?_, ?_⟩
  · obtain ⟨b, hb, haddr⟩ := List.mem_map.mp hmem
    obtain ⟨hlow, hhigh, -, hsize⟩ := hinv.block_bounds (.inl hb)
    have hmarker := hfits.marker_outside
    simp only [Span.limit, xHeapStructSize] at *
    omega
  · exact List.pairwise_map.mpr (hinv.law.sorted.imp Nat.ne_of_lt)

theorem Users.Inv.markers_ne {U : Users} (hinv : U.Inv L.low L.high) (hfits : L.Fits) {c : Block}
    (hc : U.heap.HasBlock c) :
    L.xStart ≠ c.addr ∧ L.high ≠ c.addr := by
  obtain ⟨hlow, hhigh, -, hsize⟩ := hinv.block_bounds hc
  have hmarker := hfits.marker_outside
  simp only [Span.limit, xHeapStructSize] at *
  omega

theorem Layout.Fits.start_ne_stop (hfits : L.Fits) : L.xStart ≠ L.high := by
  have hbounds := hfits.bounds
  have hmarker := hfits.marker_outside
  simp only [xHeapStructSize] at *
  omega

/-- The place before some of the free blocks is the marker or another free block. -/
theorem Users.Inv.last_place {U : Users} (hinv : U.Inv L.low L.high) (hfits : L.Fits)
    {before after : List Block} (hfree : U.heap.free = before ++ after) {it : Nat}
    (hit : Trail.last L.xStart (before.map Span.addr) = it) :
    Place L U.heap it ∧ it ≠ L.high ∧ (∀ c ∈ after, c.addr ≠ it) ∧
      ∀ addr s, U.heap.allocated addr = some s → it ≠ addr := by
  have hmem : it ∈ L.xStart :: before.map Span.addr := by
    rw [← hit]
    exact Trail.last_mem
  have hnodup := hinv.addrs_nodup hfits
  simp only [hfree, List.map_append, ← List.cons_append] at hnodup
  have hcross := (List.nodup_append.mp hnodup).2.2
  have hafter (c : Block) (hc : c ∈ after) : c.addr ≠ it :=
    fun heq => hcross it hmem c.addr (List.mem_map_of_mem hc) heq.symm
  rcases List.mem_cons.mp hmem with rfl | hmem
  · refine ⟨.start, hfits.start_ne_stop, hafter, fun addr s hused => ?_⟩
    exact (hinv.markers_ne hfits (c := ⟨addr, s⟩) (.inr hused)).1
  · obtain ⟨c, hc, rfl⟩ := List.mem_map.mp hmem
    have hc' : c ∈ U.heap.free := by simp [hfree, hc]
    refine ⟨.free hc', Ne.symm (hinv.markers_ne hfits (.inl hc')).2, hafter, fun addr s hused => ?_⟩
    exact hinv.free_ne_used hc' hused

/-- The block gets the link of the iterator, or it takes in the block to which that leads. -/
theorem mergeBehind_shows {D : Nat → Prop} {first : HeapMemory} {it : Nat} {B : Block}
    {blocks : List Block} (hshows : Shows D first m N Z) (hD : Scattered D)
    (hend : m.pxEnd = L.high) (hhigh : L.high < sizeModulus) (hit : D it) (hB : D B.addr)
    (hsize : Z B.addr = B.size) (hpos : 0 < B.size) (hlimit : B.limit ≤ L.high)
    (hblocks : ∀ c ∈ blocks, D c.addr ∧ Z c.addr = c.size ∧ B.limit ≤ c.addr ∧ 0 < c.size ∧
      c.limit ≤ L.high) (htrail : Trail N it (blocks.map Span.addr) L.high) :
    ∃ n s rest, mergeNext B blocks = ⟨B.addr, s⟩ :: rest ∧ (∀ c ∈ rest, c ∈ blocks) ∧
      Shows D first (m.mergeBehind it B.addr) (Function.update N B.addr n)
        (Function.update Z B.addr s) ∧
      Trail (Function.update N B.addr n) B.addr (rest.map Span.addr) L.high := by
  have hnext := hshows.next it hit
  have hB' : m.size B.addr = B.size := (hshows.size B.addr hB).trans hsize
  have hsum : (B.addr + m.size B.addr) % sizeModulus = B.limit := by
    rw [hB']
    exact Nat.mod_eq_of_lt (Nat.lt_of_le_of_lt hlimit hhigh)
  have hkeep : Function.update Z B.addr B.size = Z := by
    rw [← hsize, Function.update_eq_self]
  unfold HeapMemory.mergeBehind
  rw [hsum, hnext]
  -- the iterator leads to the end marker, or to the next block
  cases blocks with
  | nil =>
      have hit' : N it = L.high := htrail
      have hset : Shows D first (m.setNext B.addr L.high) (Function.update N B.addr L.high)
          (Function.update Z B.addr B.size) := by
        rw [hkeep]
        exact hshows.setNext hD hB hhigh
      refine ⟨L.high, B.size, [], rfl, by simp, ?_, Function.update_self ..⟩
      rw [hit', hend, if_neg (not_not.mpr rfl)]
      split
      · exact hset
      · exact hset
  | cons c rest =>
      obtain ⟨hc, hrest⟩ := htrail
      obtain ⟨⟨hDc, hsizec, hlow, hposc, hhighc⟩, hothers⟩ := List.forall_mem_cons.mp hblocks
      have hbelow (d : Block) (hd : d ∈ c :: rest) : d.addr ≠ B.addr := by
        have := (hblocks d hd).2.2.1
        simp only [Span.limit] at this
        omega
      have hlt : c.addr < sizeModulus := by
        simp only [Span.limit] at hhighc
        omega
      rw [hc]
      -- the end marker is no block, although it may begin where the block ends
      by_cases hadjacent : B.limit = c.addr
      · have hne : c.addr ≠ m.pxEnd := by
          rw [hend]
          simp only [Span.limit] at hhighc
          omega
        have hsum : B.size + c.size < sizeModulus := by
          simp only [Span.limit] at *
          omega
        have hgrown := hshows.setSize hD hB hsum
        have hnextc := hgrown.next c.addr hDc
        refine ⟨N c.addr, B.size + c.size, rest, ?_, fun d hd => List.mem_cons_of_mem _ hd, ?_, ?_⟩
        · rw [mergeNext, if_pos hadjacent]
        · rw [if_pos hadjacent, if_pos hne]
          have hnc : N c.addr < sizeModulus := by
            rw [← hnextc]
            exact HeapMemory.next_lt ..
          have hitg := hgrown.next it hit
          dsimp only
          rw [hB', hshows.size c.addr hDc, hsizec, hitg, hc, hnextc]
          exact hgrown.setNext hD hB hnc
        · apply hrest.restart (Function.update_self ..)
          intro y hy
          obtain ⟨d, hd, rfl⟩ := List.mem_map.mp hy
          exact Function.update_of_ne (hbelow d (List.mem_cons_of_mem _ hd)) ..
      · refine ⟨c.addr, B.size, c :: rest, ?_, fun d hd => hd, ?_, ?_⟩
        · rw [mergeNext, if_neg hadjacent]
        · rw [if_neg hadjacent, hkeep]
          exact hshows.setNext hD hB hlt
        · refine ⟨Function.update_self .., hrest.congr fun y hy => ?_⟩
          rw [← List.map_cons (f := Span.addr)] at hy
          obtain ⟨d, hd, rfl⟩ := List.mem_map.mp hy
          exact Function.update_of_ne (hbelow d hd) ..

section Insert

variable {U : Users} {x size fuel : Nat} {first : HeapMemory} {before after : List Block}

/-- The heap while the block at `x` is neither allocated nor free. -/
def Heap4.between (h : Heap4) (x : Nat) :
    Heap4 := { h with allocated := Function.update h.allocated x none }

theorem Heap4.between_allocated {h : Heap4} {addr s : Nat}
    (hused : (h.between x).allocated addr = some s) :
    addr ≠ x ∧ h.allocated addr = some s := by
  by_cases hne : addr = x
  · simp [Heap4.between, hne] at hused
  · exact ⟨hne, by simpa [Heap4.between, hne] using hused⟩

/-- What is known when a block goes back to the free list. -/
structure Returning (L : Layout) (U : Users) (x size : Nat) (first m : HeapMemory)
    (N Z : Nat → Nat) : Prop where
  inv : U.Inv L.low L.high
  fits : L.Fits
  used : U.heap.allocated x = some size
  shown : Shows (Place L U.heap) first m N Z
  pxEnd : m.pxEnd = L.high
  shape : Shape L (U.heap.between x) N Z
  sized : Z x = size

namespace Returning

theorem bounds (h : Returning L U x size first m N Z) :
    L.low ≤ x ∧ x + size ≤ L.high ∧ 0 < size ∧ L.high < sizeModulus := by
  obtain ⟨hlow, hhigh, -, hsize⟩ := h.inv.block_bounds (b := ⟨x, size⟩) (.inr h.used)
  have hspace := h.fits.high_lt
  refine ⟨hlow, hhigh, Nat.lt_of_lt_of_le (by decide) hsize, ?_⟩
  simp only [xHeapStructSize] at hspace
  omega

theorem apart (h : Returning L U x size first m N Z) {c : Block} (hc : c ∈ U.heap.free) :
    c.limit ≤ x ∨ x + size ≤ c.addr :=
  h.inv.blocks_apart (.inl hc) (c := ⟨x, size⟩) (.inr h.used) (h.inv.free_ne_used hc h.used)

/-- The blocks behind the place of the block are beyond its end. -/
theorem behind (h : Returning L U x size first m N Z) {c : Block} (hc : c ∈ U.heap.free)
    (hle : x ≤ c.addr) :
    x + size ≤ c.addr := by
  have hsize := (h.inv.block_bounds (.inl hc)).2.2.2
  have hapart := h.apart hc
  simp only [Span.limit, xHeapStructSize] at *
  omega

/-- The facts about the blocks behind the place, for the block that will be before them. -/
theorem blocks_behind (h : Returning L U x size first m N Z) {B : Block} (hB : B.limit = x + size)
    (hafter : ∀ c ∈ after, c ∈ U.heap.free ∧ x ≤ c.addr)
    (hsame : ∀ c ∈ after, Z' c.addr = Z c.addr) :
    ∀ c ∈ after, Place L U.heap c.addr ∧ Z' c.addr = c.size ∧ B.limit ≤ c.addr ∧ 0 < c.size ∧
      c.limit ≤ L.high := by
  intro c hc
  obtain ⟨hfree, hle⟩ := hafter c hc
  obtain ⟨-, hhigh, -, hsize⟩ := h.inv.block_bounds (.inl hfree)
  refine ⟨.free hfree, ?_, ?_, Nat.lt_of_lt_of_le (by decide) hsize, hhigh⟩
  · rw [hsame c hc]
    exact h.shape.free c hfree
  · rw [hB]
    exact h.behind hfree hle

/-- The block is made part of the one before it. -/
theorem adjacent (h : Returning L U x size first m N Z) {I : Block}
    (hfree : U.heap.free = before ++ I :: after) (hafter : ∀ c ∈ after, x ≤ c.addr)
    (hadjacent : I.limit = x) (bytes : Nat) :
    ∃ N' Z', Shows (Place L U.heap) first
      ((m.setSize I.addr (I.size + size)).mergeBehind I.addr I.addr) N' Z' ∧
      Shape L ⟨before ++ mergeNext ⟨I.addr, I.size + size⟩ after,
        Function.update U.heap.allocated x none, bytes⟩ N' Z' := by
  obtain ⟨hlow, hhigh, hpos, hspace⟩ := h.bounds
  have hsorted := h.inv.law.sorted
  rw [hfree] at hsorted
  obtain ⟨-, hsorted, hbelow⟩ := List.pairwise_append.mp hsorted
  have habove := (List.pairwise_cons.mp hsorted).1
  have hI : I ∈ U.heap.free := by simp [hfree]
  have hbefore {c : Block} (hc : c ∈ before) : c ∈ U.heap.free ∧ c.addr ≠ I.addr := by
    refine ⟨by simp [hfree, hc], ?_⟩
    have := hbelow c hc I (by simp)
    omega
  have hbehind {c : Block} (hc : c ∈ after) : c ∈ U.heap.free ∧ c.addr ≠ I.addr := by
    refine ⟨by simp [hfree, hc], ?_⟩
    have := habove c hc
    omega
  have hplace : Place L U.heap I.addr := .free hI
  have hmarkers := h.inv.markers_ne h.fits (.inl hI)
  have hsum : I.size + size < sizeModulus := by
    simp only [Span.limit] at hadjacent
    omega
  have htrail := h.shape.trail
  simp only [Heap4.between, hfree, List.map_append, List.map_cons, Trail.append_iff] at htrail
  have hgrown := h.shown.setSize (h.inv.scattered h.fits) hplace hsum
  have hblocks := h.blocks_behind (B := ⟨I.addr, I.size + size⟩)
    (by simp only [Span.limit] at *; omega) (fun c hc => ⟨(hbehind hc).1, hafter c hc⟩)
    (fun c hc => Function.update_of_ne (hbehind hc).2 (I.size + size) Z)
  obtain ⟨n, s, rest, hmerge, hrest, hshows, hlinks⟩ := mergeBehind_shows
    (B := ⟨I.addr, I.size + size⟩) hgrown (h.inv.scattered h.fits) h.pxEnd hspace hplace hplace
    (Function.update_self ..) (by simp only; omega) (by simp only [Span.limit] at *; omega)
    hblocks htrail.2
  refine ⟨_, _, hshows, ?_⟩
  simp only [Function.update_idem] at hshows ⊢
  rw [hmerge]
  refine ⟨?_, ?_, ⟨?_, ?_⟩, fun c hc => ?_, fun addr t hused => ?_⟩
  · simp only [List.map_append, List.map_cons, Trail.append_iff]
    refine ⟨htrail.1.congr fun p hp => Function.update_of_ne ?_ _ _, hlinks⟩
    rcases List.mem_cons.mp hp with rfl | hp
    · exact hmarkers.1
    · obtain ⟨c, hc, rfl⟩ := List.mem_map.mp hp
      exact (hbefore hc).2
  · rw [Function.update_of_ne hmarkers.1, h.shape.start]
  · rw [Function.update_of_ne hmarkers.2, h.shape.stop.1]
  · rw [Function.update_of_ne hmarkers.2, h.shape.stop.2]
  · rcases List.mem_append.mp hc with hc | hc
    · rw [Function.update_of_ne (hbefore hc).2]
      exact h.shape.free c (hbefore hc).1
    · rcases List.mem_cons.mp hc with rfl | hc
      · exact Function.update_self ..
      · rw [Function.update_of_ne (hbehind (hrest c hc)).2]
        exact h.shape.free c (hbehind (hrest c hc)).1
  · have hne := Ne.symm (h.inv.free_ne_used hI (Heap4.between_allocated hused).2)
    rw [Function.update_of_ne hne, Function.update_of_ne hne]
    exact h.shape.used addr t hused

/-- The block gets a place of its own. -/
theorem own (h : Returning L U x size first m N Z) (hfree : U.heap.free = before ++ after)
    (hbefore : ∀ c ∈ before, c.addr < x) (hafter : ∀ c ∈ after, x ≤ c.addr) (bytes : Nat) :
    ∃ N' Z', Shows (Place L U.heap) first
        ((m.mergeBehind (Trail.last L.xStart (before.map Span.addr)) x).setNext
          (Trail.last L.xStart (before.map Span.addr)) x) N' Z' ∧
      Shape L ⟨before ++ mergeNext ⟨x, size⟩ after, Function.update U.heap.allocated x none, bytes⟩
        N' Z' := by
  obtain ⟨hlow, hhigh, hpos, hspace⟩ := h.bounds
  have hscattered := h.inv.scattered h.fits
  have hplace : Place L U.heap x := .used h.used
  have hmarkers := h.inv.markers_ne h.fits (c := ⟨x, size⟩) (.inr h.used)
  have hin {c : Block} (hc : c ∈ before ∨ c ∈ after) : c ∈ U.heap.free := by
    rw [hfree]
    exact List.mem_append.mpr hc
  have hne {c : Block} (hc : c ∈ U.heap.free) : c.addr ≠ x := h.inv.free_ne_used hc h.used
  generalize hlast : Trail.last L.xStart (before.map Span.addr) = it
  obtain ⟨hDit, hithigh, hcross, hitused⟩ := h.inv.last_place h.fits hfree hlast
  have hitx := hitused x size h.used
  have hfront : (L.xStart :: before.map Span.addr).Nodup := by
    have hnodup := h.inv.addrs_nodup h.fits
    simp only [hfree, List.map_append, ← List.cons_append] at hnodup
    exact (List.nodup_append.mp hnodup).1
  have htrail := h.shape.trail
  simp only [Heap4.between, hfree, List.map_append] at htrail
  obtain ⟨hlead, hrest⟩ := htrail.cut
  rw [hlast] at hlead hrest
  have hblocks := h.blocks_behind (B := ⟨x, size⟩) rfl (fun c hc => ⟨hin (.inr hc), hafter c hc⟩)
    fun _ _ => rfl
  obtain ⟨n, s, rest, hmerge, hsub, hshows, hlinks⟩ := mergeBehind_shows (B := ⟨x, size⟩) h.shown
    hscattered h.pxEnd hspace hDit hplace h.sized hpos hhigh hblocks hrest
  refine ⟨_, _, hshows.setNext hscattered hDit (v := x) (by omega), ?_⟩
  rw [hmerge]
  refine ⟨?_, ?_, ⟨?_, ?_⟩, fun c hc => ?_, fun addr t hused => ?_⟩
  · simp only [List.map_append, List.map_cons, Trail.append_iff]
    have hturned := hlead.redirect hfront x
    rw [hlast] at hturned
    refine ⟨?_, hlinks.congr fun p hp => Function.update_of_ne ?_ _ _⟩
    · rw [Function.update_comm (Ne.symm hitx)]
      refine hturned.congr fun p hp => Function.update_of_ne ?_ _ _
      rcases List.mem_cons.mp hp with rfl | hp
      · exact hmarkers.1
      · obtain ⟨c, hc, rfl⟩ := List.mem_map.mp hp
        exact hne (hin (.inl hc))
    · rcases List.mem_cons.mp hp with rfl | hp
      · exact Ne.symm hitx
      · obtain ⟨c, hc, rfl⟩ := List.mem_map.mp hp
        exact hcross c (hsub c hc)
  · rw [Function.update_of_ne hmarkers.1, h.shape.start]
  · rw [Function.update_of_ne (Ne.symm hithigh), Function.update_of_ne hmarkers.2, h.shape.stop.1]
  · rw [Function.update_of_ne hmarkers.2, h.shape.stop.2]
  · rcases List.mem_append.mp hc with hc | hc
    · rw [Function.update_of_ne (hne (hin (.inl hc)))]
      exact h.shape.free c (hin (.inl hc))
    · rcases List.mem_cons.mp hc with rfl | hc
      · exact Function.update_self ..
      · rw [Function.update_of_ne (hne (hin (.inr (hsub c hc))))]
        exact h.shape.free c (hin (.inr (hsub c hc)))
  · obtain ⟨haddr, hsome⟩ := Heap4.between_allocated hused
    rw [Function.update_of_ne (Ne.symm (hitused addr t hsome)), Function.update_of_ne haddr,
      Function.update_of_ne haddr]
    exact h.shape.used addr t hused

/-- `prvInsertBlockIntoFreeList` does to the links what it does to the sequence of blocks. -/
theorem insert (h : Returning L U x size first m N Z) (hfuel : U.heap.free.length < fuel)
    (bytes : Nat) :
    ∃ m' N' Z', m.prvInsertBlockIntoFreeList L fuel x = some m' ∧ m'.static = m.static ∧
      Shows (Place L U.heap) first m' N' Z' ∧
      Shape L ⟨Heap.prvInsertBlockIntoFreeList ⟨x, size⟩ U.heap.free,
        Function.update U.heap.allocated x none, bytes⟩ N' Z' := by
  obtain ⟨hlow, hhigh, hpos, hspace⟩ := h.bounds
  have hmarkers := h.inv.markers_ne h.fits (c := ⟨x, size⟩) (.inr h.used)
  have hmemory : Trail m.next L.xStart (U.heap.free.map Span.addr) L.high := by
    refine h.shape.trail.congr fun p hp => h.shown.next p ?_
    rcases List.mem_cons.mp hp with rfl | hp
    · exact .start
    · obtain ⟨c, hc, rfl⟩ := List.mem_map.mp hp
      exact .free hc
  obtain ⟨before, after, hfree, hbefore, hafter, hpoint⟩ :=
    insertPoint_eq (x := x) hmemory h.inv.law.sorted (by omega) hfuel
  unfold HeapMemory.prvInsertBlockIntoFreeList
  rw [hpoint, Option.bind_some]
  rcases List.eq_nil_or_concat before with rfl | ⟨before, I, rfl⟩
  · -- the iterator is the marker, whose size is 0
    obtain ⟨N', Z', hshows, hshape⟩ := h.own hfree hbefore hafter bytes
    have hapart : (L.xStart + m.size L.xStart) % sizeModulus ≠ x := by
      have hspace' := h.fits.markerSpace
      simp only [xHeapStructSize] at hspace'
      rw [h.shown.size _ .start, h.shape.start, Nat.add_zero, Nat.mod_eq_of_lt (by omega)]
      exact hmarkers.1
    rw [List.nil_append] at hfree
    rw [hfree, insert_first hafter, if_pos (.inl rfl)]
    exact ⟨_, N', Z', congrArg some (m.linkBlock_apart hapart hmarkers.1), by simp, hshows, hshape⟩
  · rw [List.concat_eq_append] at *
    have hI : I ∈ U.heap.free := by simp [hfree]
    have hIx := hbefore I (by simp)
    have hsize : m.size I.addr = I.size :=
      (h.shown.size I.addr (.free hI)).trans (h.shape.free I hI)
    have hsum : (I.addr + m.size I.addr) % sizeModulus = I.limit := by
      have hlimit := (h.inv.block_bounds (.inl hI)).2.1
      rw [hsize]
      exact Nat.mod_eq_of_lt (Nat.lt_of_le_of_lt hlimit hspace)
    have hlast : Trail.last L.xStart ((before ++ [I]).map Span.addr) = I.addr := by
      simp [Trail.last]
    rw [hlast, if_pos (.inr (h.inv.block_valid h.fits (.inl hI)).1)]
    by_cases hadjacent : I.limit = x
    · rw [List.append_assoc, List.singleton_append] at hfree
      obtain ⟨N', Z', hshows, hshape⟩ := h.adjacent hfree hafter hadjacent bytes
      have hx : m.size x = size := (h.shown.size x (.used h.used)).trans h.sized
      have hlink := m.linkBlock_adjacent (hsum.trans hadjacent)
      rw [hsize, hx] at hlink
      rw [hfree, insert_between hbefore hafter, if_pos hadjacent]
      exact ⟨_, N', Z', congrArg some hlink, by simp, hshows, hshape⟩
    · obtain ⟨N', Z', hshows, hshape⟩ := h.own hfree hbefore hafter bytes
      rw [hlast] at hshows
      have hlink :=
        m.linkBlock_apart (show (I.addr + m.size I.addr) % sizeModulus ≠ x by rwa [hsum])
          (Nat.ne_of_lt hIx)
      rw [List.append_assoc, List.singleton_append] at hfree hshape
      rw [hfree, insert_between hbefore hafter, if_neg hadjacent]
      exact ⟨_, N', Z', congrArg some hlink, by simp, hshows, hshape⟩

end Returning

end Insert

end SimulatedLinux.Heap
