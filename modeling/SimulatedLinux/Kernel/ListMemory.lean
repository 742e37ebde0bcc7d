import Mathlib.Data.Fintype.Card
import Mathlib.Data.List.TakeWhile
import SimulatedLinux.Lib.Dialogue
import SimulatedLinux.Lib.Linked
import SimulatedLinux.Lib.Turns
import SimulatedLinux.Kernel.Queue

/-! # The lists in memory

`list.c` keeps a list as a circle of items with links in both directions, an end marker that is part
of the list, and an index that walks around the circle. The scheduler above uses sequences; here
each function of `list.c` is shown to do to the links what the operation on sequences does to them.
-/

namespace SimulatedLinux.Kernel

/-- What a `ListItem_t *` points to: an item, or the `xListEnd` of a list. -/
inductive ItemPtr (ι τ : Type)
  | item (x : τ)
  | listEnd (n : ι)
  deriving DecidableEq, Repr

/-- The fields of all items and of all lists. -/
structure ListMemory (ι τ : Type) where
  pxNext : ItemPtr ι τ → ItemPtr ι τ
  pxPrevious : ItemPtr ι τ → ItemPtr ι τ
  xItemValue : ItemPtr ι τ → Nat
  pxContainer : τ → Option ι
  pxIndex : ι → ItemPtr ι τ
  uxNumberOfItems : ι → Nat

/-- `UBaseType_t` has 32 bits. -/
def baseModulus : Nat := 2 ^ 32

namespace ListMemory

variable {ι τ : Type} [DecidableEq ι] [DecidableEq τ]

def setNext (m : ListMemory ι τ) (p q : ItemPtr ι τ) : ListMemory ι τ :=
  { m with pxNext := Function.update m.pxNext p q }

def setPrevious (m : ListMemory ι τ) (p q : ItemPtr ι τ) : ListMemory ι τ :=
  { m with pxPrevious := Function.update m.pxPrevious p q }

/-- `vListInitialise`. -/
def vListInitialise (m : ListMemory ι τ) (pxList : ι) : ListMemory ι τ :=
  let xListEnd := ItemPtr.listEnd pxList
  { (m.setNext xListEnd xListEnd).setPrevious xListEnd xListEnd with
    pxIndex := Function.update m.pxIndex pxList xListEnd
    xItemValue := Function.update m.xItemValue xListEnd portMaxDelay
    uxNumberOfItems := Function.update m.uxNumberOfItems pxList 0 }

/-- `vListInitialiseItem`. -/
def vListInitialiseItem (m : ListMemory ι τ) (x : τ) : ListMemory ι τ :=
  { m with pxContainer := Function.update m.pxContainer x none }

/-- The end of both insertions: the item remembers its list, which has one item more. -/
def join (m : ListMemory ι τ) (pxList : ι) (x : τ) : ListMemory ι τ :=
  { m with
    pxContainer := Function.update m.pxContainer x (some pxList)
    uxNumberOfItems :=
      Function.update m.uxNumberOfItems pxList ((m.uxNumberOfItems pxList + 1) % baseModulus) }

/-- `vListInsertEnd`. -/
def vListInsertEnd (m : ListMemory ι τ) (pxList : ι) (x : τ) : ListMemory ι τ :=
  let pxIndex := m.pxIndex pxList
  let pxNewListItem := ItemPtr.item x
  let m := m.setNext pxNewListItem pxIndex
  let m := m.setPrevious pxNewListItem (m.pxPrevious pxIndex)
  let m := m.setNext (m.pxPrevious pxIndex) pxNewListItem
  let m := m.setPrevious pxIndex pxNewListItem
  m.join pxList x

/-- The loop of `vListInsert`, which does not end when the fuel runs out. -/
def iterate (m : ListMemory ι τ) (xValueOfInsertion : Nat) :
    Nat → ItemPtr ι τ → Option (ItemPtr ι τ)
  | 0, _ => none
  | fuel + 1, pxIterator =>
      if m.xItemValue (m.pxNext pxIterator) ≤ xValueOfInsertion then
        m.iterate xValueOfInsertion fuel (m.pxNext pxIterator)
      else some pxIterator

/-- The links that `vListInsert` sets after its search. -/
def insertAfter (m : ListMemory ι τ) (pxList : ι) (x : τ) (pxIterator : ItemPtr ι τ) :
    ListMemory ι τ :=
  let pxNewListItem := ItemPtr.item x
  let m := m.setNext pxNewListItem (m.pxNext pxIterator)
  let m := m.setPrevious (m.pxNext pxNewListItem) pxNewListItem
  let m := m.setPrevious pxNewListItem pxIterator
  let m := m.setNext pxIterator pxNewListItem
  m.join pxList x

/-- `vListInsert`. -/
def vListInsert (m : ListMemory ι τ) (fuel : Nat) (pxList : ι) (x : τ) : Option (ListMemory ι τ) :=
  let xValueOfInsertion := m.xItemValue (.item x)
  let pxIterator :=
    if xValueOfInsertion = portMaxDelay then some (m.pxPrevious (.listEnd pxList))
    else m.iterate xValueOfInsertion fuel (.listEnd pxList)
  pxIterator.map (m.insertAfter pxList x)

/-- `uxListRemove` once it knows the list. -/
def removeFrom (m : ListMemory ι τ) (pxList : ι) (x : τ) : ListMemory ι τ :=
  let pxItemToRemove := ItemPtr.item x
  let m := m.setPrevious (m.pxNext pxItemToRemove) (m.pxPrevious pxItemToRemove)
  let m := m.setNext (m.pxPrevious pxItemToRemove) (m.pxNext pxItemToRemove)
  let m := if m.pxIndex pxList = pxItemToRemove then
      { m with pxIndex := Function.update m.pxIndex pxList (m.pxPrevious pxItemToRemove) }
    else m
  { m with
    pxContainer := Function.update m.pxContainer x none
    uxNumberOfItems :=
      Function.update m.uxNumberOfItems pxList
        ((m.uxNumberOfItems pxList + (baseModulus - 1)) % baseModulus) }

/-- `uxListRemove`, with the number of items that are left. There is no result for an item without a
container: the code would follow a null pointer. -/
def uxListRemove (m : ListMemory ι τ) (x : τ) : Option (ListMemory ι τ × Nat) :=
  (m.pxContainer x).map fun pxList =>
    (m.removeFrom pxList x, (m.removeFrom pxList x).uxNumberOfItems pxList)

/-- `listGET_OWNER_OF_NEXT_ENTRY`, with the item whose owner is returned. -/
def listGetOwnerOfNextEntry (m : ListMemory ι τ) (pxList : ι) : ListMemory ι τ × ItemPtr ι τ :=
  let pxIndex := m.pxNext (m.pxIndex pxList)
  let pxIndex := if pxIndex = .listEnd pxList then m.pxNext (.listEnd pxList) else pxIndex
  ({ m with pxIndex := Function.update m.pxIndex pxList pxIndex }, pxIndex)

/-- `listSET_LIST_ITEM_VALUE`. -/
def listSetListItemValue (m : ListMemory ι τ) (x : τ) (xValue : Nat) : ListMemory ι τ :=
  { m with xItemValue := Function.update m.xItemValue (.item x) xValue }

end ListMemory

/-! ## Sequences -/

variable {ι τ : Type}

/-- The place of an index: `none` is the end marker. -/
def indexPtr (n : ι) : Option τ → ItemPtr ι τ
  | none => .listEnd n
  | some x => .item x

theorem indexPtr_eq_item {n : ι} {x : τ} {i : Option τ} : indexPtr n i = .item x ↔ i = some x := by
  cases i with
  | none => simp [indexPtr]
  | some y => simp [indexPtr]

theorem indexPtr_head (n : ι) (xs : List τ) :
    (xs.map ItemPtr.item ++ [ItemPtr.listEnd n]).head (by simp) = indexPtr n xs.head? := by
  cases xs with
  | nil => rfl
  | cons y ys => rfl

theorem indexPtr_getLast (n : ι) (xs : List τ) :
    (ItemPtr.listEnd n :: xs.map ItemPtr.item).getLast (by simp) = indexPtr n xs.getLast? := by
  rcases List.eq_nil_or_concat xs with rfl | ⟨ys, y, rfl⟩
  · rfl
  · simp [indexPtr]

/-- The places of a list, the end marker first. -/
def places (S : Lib.Shelf ι τ) (n : ι) :
    List (ItemPtr ι τ) := .listEnd n :: (S.list n).items.map .item

/-- The memory holds the lists of the shelf. -/
structure Represents (m : ListMemory ι τ) (S : Lib.Shelf ι τ) : Prop where
  sound : S.Sound
  circle : ∀ n, Lib.Circle m.pxNext m.pxPrevious (.listEnd n) ((S.list n).items.map .item)
  index : ∀ n, m.pxIndex n = indexPtr n (S.list n).index
  indexed : ∀ n x, (S.list n).index = some x → x ∈ (S.list n).items
  container : m.pxContainer = S.container
  number : ∀ n, m.uxNumberOfItems n = (S.list n).items.length % baseModulus
  last : ∀ n, m.xItemValue (.listEnd n) = portMaxDelay
  typed : ∀ x, m.xItemValue (.item x) ≤ portMaxDelay

namespace Represents

variable {m m' : ListMemory ι τ} {S : Lib.Shelf ι τ} {n : ι} {x : τ}

/-- Different lists have different places. -/
theorem places_disjoint (h : Represents m S) {k : ι} (hne : k ≠ n) {p q : ItemPtr ι τ}
    (hp : p ∈ places S k) (hq : q ∈ places S n) : p ≠ q := by
  rintro rfl
  simp only [places, List.mem_cons, List.mem_map] at hp hq
  rcases hp with rfl | ⟨y, hy, rfl⟩ <;> rcases hq with hq | ⟨z, hz, hzy⟩
  · exact hne (ItemPtr.listEnd.inj hq)
  · cases hzy
  · cases hq
  · cases hzy
    exact hne (Option.some.inj (((h.sound.mem k y).mp hy).symm.trans ((h.sound.mem n y).mp hz)))

theorem fresh (h : Represents m S) (hfree : S.container x = none) (k : ι) :
    ItemPtr.item x ∉ places S k := by
  simp only [places, List.mem_cons, List.mem_map, reduceCtorEq, ItemPtr.item.injEq, exists_eq_right,
    false_or]
  intro hmem
  rw [(h.sound.mem k x).mp hmem] at hfree
  cases hfree

theorem next_listEnd (h : Represents m S) (n : ι) :
    m.pxNext (.listEnd n) = indexPtr n (S.list n).items.head? := by
  rw [(h.circle n).path.next_start, indexPtr_head]

/-- The links at an item. -/
theorem links_item (h : Represents m S) {before after : List τ}
    (hitems : (S.list n).items = before ++ x :: after) :
    m.pxNext (.item x) = indexPtr n after.head? ∧
      m.pxPrevious (.item x) = indexPtr n before.getLast? := by
  have hpath := (h.circle n).path
  rw [hitems, List.map_append, List.map_cons] at hpath
  obtain ⟨hbefore, hafter⟩ := Lib.Path.append_iff.mp hpath
  exact ⟨hafter.next_start.trans (indexPtr_head n after),
    hbefore.prev_end.trans (indexPtr_getLast n before)⟩

variable [DecidableEq τ]

/-- The index cuts the sequence where `vListInsertEnd` puts a new item. -/
theorem atEnd_cut (h : Represents m S) (n : ι) (x : τ) :
    ∃ xs ys, (S.list n).items = xs ++ ys ∧ (S.list n).atEnd x = xs ++ x :: ys ∧
      m.pxIndex n = indexPtr n ys.head? := by
  rw [h.index]
  unfold Lib.Circular.atEnd
  split
  next hindex =>
    exact ⟨(S.list n).items, [], (List.append_nil _).symm, rfl, by rw [hindex, List.head?_nil]⟩
  next i hindex =>
    obtain ⟨before, after, hitems, -, -, htake, hdrop⟩ :=
      Lib.exists_cut (h.sound.nodup n) (h.indexed n i hindex)
    exact ⟨before, i :: after, hitems, by rw [htake, hdrop], by rw [hindex, List.head?_cons]⟩

variable [DecidableEq ι]

/-- An item is linked in after a place of the list. -/
theorem link (h : Represents m S) (hfree : S.container x = none) {xs ys : List τ}
    (hitems : (S.list n).items = xs ++ ys) {p : ItemPtr ι τ}
    (hp : p = (ItemPtr.listEnd n :: xs.map .item).getLast (by simp))
    (hnext : m'.pxNext = Function.update (Function.update m.pxNext (.item x) (m.pxNext p)) p
      (.item x)) (hprevious : m'.pxPrevious =
      Function.update (Function.update m.pxPrevious (.item x) p) (m.pxNext p) (.item x))
    (hindex : m'.pxIndex = m.pxIndex)
    (hcontainer : m'.pxContainer = Function.update m.pxContainer x (some n))
    (hnumber : m'.uxNumberOfItems =
      Function.update m.uxNumberOfItems n ((m.uxNumberOfItems n + 1) % baseModulus))
    (hvalue : m'.xItemValue = m.xItemValue) : Represents m' (S.put n x (xs ++ x :: ys)) := by
  have hcircle := h.circle n
  rw [hitems, List.map_append] at hcircle
  have hpn : p ∈ places S n := by
    rw [places, hitems, List.map_append, hp, ← List.cons_append]
    exact List.mem_append_left _ (List.getLast_mem _)
  have hqn : m.pxNext p ∈ places S n := by
    rw [hp, hcircle.path.links.1, places, hitems, List.map_append]
    have hmem := List.head_mem (show ys.map ItemPtr.item ++ [ItemPtr.listEnd n] ≠ [] by simp)
    rcases List.mem_append.mp hmem with hmem | hmem
    · exact List.mem_cons_of_mem _ (List.mem_append_right _ hmem)
    · rw [List.mem_singleton] at hmem
      rw [hmem]
      exact List.mem_cons_self
  have hperm : (xs ++ x :: ys).Perm (x :: (S.list n).items) := by
    rw [hitems]
    exact List.perm_middle
  refine ⟨h.sound.put hfree hperm, fun k => ?_, fun k => ?_, fun k y hy => ?_, ?_, fun k => ?_,
    fun k => ?_, fun y => ?_⟩
  · by_cases hk : k = n
    · subst hk
      rw [Lib.Shelf.items_put_self, List.map_append, List.map_cons, hnext, hprevious]
      refine hcircle.link hp ?_
      rw [← List.map_append, ← hitems]
      exact h.fresh hfree k
    · rw [Lib.Shelf.items_put_ne hk, hnext, hprevious]
      refine (h.circle k).congr (fun r hr => ?_) fun r hr => ?_
      · have hrx : r ≠ .item x := ne_of_mem_of_not_mem hr (h.fresh hfree k)
        rw [Function.update_of_ne (h.places_disjoint hk hr hpn), Function.update_of_ne hrx]
      · have hrx : r ≠ .item x := ne_of_mem_of_not_mem hr (h.fresh hfree k)
        rw [Function.update_of_ne (h.places_disjoint hk hr hqn), Function.update_of_ne hrx]
  · rw [hindex, h.index]
    by_cases hk : k = n
    · subst hk
      simp [Lib.Shelf.put]
    · simp [Lib.Shelf.put, hk]
  · by_cases hk : k = n
    · subst hk
      rw [Lib.Shelf.items_put_self]
      have hold : (S.list k).index = some y := by simpa [Lib.Shelf.put] using hy
      exact hperm.mem_iff.mpr (List.mem_cons_of_mem _ (h.indexed k y hold))
    · rw [Lib.Shelf.items_put_ne hk]
      have hold : (S.list k).index = some y := by simpa [Lib.Shelf.put, hk] using hy
      exact h.indexed k y hold
  · rw [hcontainer, h.container]
    rfl
  · rw [hnumber]
    by_cases hk : k = n
    · subst hk
      rw [Function.update_self, Lib.Shelf.items_put_self, hperm.length_eq, List.length_cons,
        h.number, Nat.mod_add_mod]
    · rw [Function.update_of_ne hk, Lib.Shelf.items_put_ne hk]
      exact h.number k
  · rw [hvalue]
    exact h.last k
  · rw [hvalue]
    exact h.typed y

/-- `vListInsertEnd` puts the item just before the index. -/
theorem insertEnd (h : Represents m S) (hfree : S.container x = none) (n : ι) :
    Represents (m.vListInsertEnd n x) (S.putEnd n x) := by
  obtain ⟨xs, ys, hitems, hatEnd, hindex⟩ := h.atEnd_cut n x
  have hcircle := h.circle n
  rw [hitems, List.map_append] at hcircle
  obtain ⟨hnext, hprevious⟩ := hcircle.path.links
  rw [indexPtr_head, ← hindex] at hnext hprevious
  have hne : m.pxIndex n ≠ .item x := by
    refine ne_of_mem_of_not_mem ?_ (h.fresh hfree n)
    rw [h.index]
    cases hi : (S.list n).index with
    | none => exact List.mem_cons_self
    | some i => exact List.mem_cons_of_mem _ (List.mem_map_of_mem (h.indexed n i hi))
  rw [Lib.Shelf.putEnd, hatEnd]
  refine h.link hfree hitems rfl ?_ ?_ rfl rfl rfl rfl
  · simp only [ListMemory.vListInsertEnd, ListMemory.join, ListMemory.setNext,
      ListMemory.setPrevious, Function.update_of_ne hne, hnext, hprevious]
  · simp only [ListMemory.vListInsertEnd, ListMemory.join, ListMemory.setNext,
      ListMemory.setPrevious, hnext, hprevious]

end Represents

/-! ## Sorted insertion -/

section Sorted

variable {m : ListMemory ι τ} {S : Lib.Shelf ι τ} {x : τ}

/-- The loop comes to the last item that is not greater. -/
theorem ListMemory.iterate_eq {xs : List τ} {a e : ItemPtr ι τ} {v : Nat}
    (hpath : Lib.Path m.pxNext m.pxPrevious a (xs.map .item) e)
    (hend : v < m.xItemValue e) {fuel : Nat} (hfuel : xs.length < fuel) :
    m.iterate v fuel a =
      some ((a :: (xs.takeWhile fun u => m.xItemValue (.item u) ≤ v).map .item).getLast
        (by simp)) := by
  -- the iterator walks along the items whose value is not above the new one
  induction xs generalizing a fuel with
  | nil =>
      obtain ⟨fuel, rfl⟩ := Nat.exists_eq_add_one.mpr hfuel
      cases hpath with
      | nil hn => simp [iterate, hn, Nat.not_le.mpr hend]
  | cons u us ih =>
      obtain ⟨fuel, rfl⟩ := Nat.exists_eq_add_one.mpr (Nat.zero_lt_of_lt hfuel)
      cases hpath with
      | cons hn _ htail =>
          rw [iterate, hn]
          by_cases hle : m.xItemValue (.item u) ≤ v
          · rw [if_pos hle, ih htail (Nat.lt_of_succ_lt_succ hfuel)]
            simp [hle]
          · rw [if_neg hle]
            simp [hle]

/-- `vListInsert` finds its place in at most one round for each item and one more. -/
theorem Represents.insert [DecidableEq ι] [DecidableEq τ] (h : Represents m S)
    (hfree : S.container x = none) (n : ι) {fuel : Nat} (hfuel : (S.list n).items.length < fuel) :
    ∃ m', m.vListInsert fuel n x = some m' ∧
      Represents m' (S.put n x (vListInsert (fun u => m.xItemValue (.item u)) x (S.list n).items)) ∧
      m'.xItemValue = m.xItemValue := by
  let xs := (S.list n).items.takeWhile fun u => m.xItemValue (.item u) ≤ m.xItemValue (.item x)
  let ys := (S.list n).items.dropWhile fun u => m.xItemValue (.item u) ≤ m.xItemValue (.item x)
  have hitems : (S.list n).items = xs ++ ys := List.takeWhile_append_dropWhile.symm
  have hcircle := h.circle n
  let p := (ItemPtr.listEnd n :: xs.map .item).getLast (by simp)
  have hpoint : (if m.xItemValue (.item x) = portMaxDelay then some (m.pxPrevious (.listEnd n))
      else m.iterate (m.xItemValue (.item x)) fuel (.listEnd n)) = some p := by
    split
    next hmax =>
      -- every item stands before the end marker
      have hall : xs = (S.list n).items := by
        rw [List.takeWhile_eq_self_iff]
        intro u _
        rw [hmax]
        exact decide_eq_true (h.typed u)
      rw [hcircle.path.prev_end]
      simp only [p, hall]
    next hne =>
      refine ListMemory.iterate_eq hcircle.path ?_ hfuel
      rw [h.last]
      exact Nat.lt_of_le_of_ne (h.typed x) hne
  have hnext : m.pxNext p ≠ .item x := by
    refine ne_of_mem_of_not_mem ?_ (h.fresh hfree n)
    rw [hitems, List.map_append] at hcircle
    rw [show m.pxNext p = _ from hcircle.path.links.1, places, hitems, List.map_append]
    have hmem := List.head_mem (show ys.map ItemPtr.item ++ [ItemPtr.listEnd n] ≠ [] by simp)
    rcases List.mem_append.mp hmem with hmem | hmem
    · exact List.mem_cons_of_mem _ (List.mem_append_right _ hmem)
    · rw [List.mem_singleton] at hmem
      rw [hmem]
      exact List.mem_cons_self
  refine ⟨m.insertAfter n x p, by rw [ListMemory.vListInsert, hpoint, Option.map_some], ?_, rfl⟩
  refine h.link hfree hitems (p := p) rfl ?_ ?_ rfl rfl rfl rfl
  · simp only [ListMemory.insertAfter, ListMemory.join, ListMemory.setNext, ListMemory.setPrevious]
  · simp only [ListMemory.insertAfter, ListMemory.join, ListMemory.setNext, ListMemory.setPrevious,
      Function.update_self]
    exact Function.update_comm hnext _ _ _

end Sorted

/-! ## Removal and the index -/

/-- The fields after a removal, of an item that is not its own successor. -/
theorem ListMemory.removeFrom_fields [DecidableEq ι] [DecidableEq τ] (m : ListMemory ι τ)
    (n : ι) {x : τ} (hself : m.pxNext (.item x) ≠ .item x) :
    (m.removeFrom n x).pxNext =
      Function.update m.pxNext (m.pxPrevious (.item x)) (m.pxNext (.item x)) ∧
      (m.removeFrom n x).pxPrevious =
        Function.update m.pxPrevious (m.pxNext (.item x)) (m.pxPrevious (.item x)) ∧
      (m.removeFrom n x).pxIndex =
        (if m.pxIndex n = .item x then Function.update m.pxIndex n (m.pxPrevious (.item x))
          else m.pxIndex) ∧
      (m.removeFrom n x).pxContainer = Function.update m.pxContainer x none ∧
      (m.removeFrom n x).uxNumberOfItems =
        Function.update m.uxNumberOfItems n
          ((m.uxNumberOfItems n + (baseModulus - 1)) % baseModulus) ∧
      (m.removeFrom n x).xItemValue = m.xItemValue := by
  have hkept : Function.update m.pxPrevious (m.pxNext (.item x))
      (m.pxPrevious (.item x)) (.item x) = m.pxPrevious (.item x) :=
    Function.update_of_ne hself.symm ..
  by_cases hindex : m.pxIndex n = .item x
  · simp [removeFrom, setNext, setPrevious, hindex, hkept]
  · simp [removeFrom, setNext, setPrevious, hindex, hkept]

namespace Represents

variable [DecidableEq ι] [DecidableEq τ] {m : ListMemory ι τ} {S : Lib.Shelf ι τ} {n : ι} {x : τ}

/-- `uxListRemove` takes the item out, moves an index at it back, and counts what is left. -/
theorem remove (h : Represents m S) (hcontainer : S.container x = some n) :
    ∃ m', m.uxListRemove x = some (m', ((S.remove x).list n).items.length % baseModulus) ∧
      Represents m' (S.remove x) ∧ m'.xItemValue = m.xItemValue := by
  obtain ⟨before, after, hitems, hbefore, hafter, htake, -⟩ :=
    Lib.exists_cut (h.sound.nodup n) ((h.sound.mem n x).mpr hcontainer)
  obtain ⟨hnext, hprevious⟩ := h.links_item hitems
  -- the end marker is in the circle, so the item does not follow itself
  have hself : m.pxNext (.item x) ≠ .item x := by
    rw [hnext, ne_eq, indexPtr_eq_item]
    exact fun hhead => hafter (List.mem_of_mem_head? hhead)
  have herase : ((S.remove x).list n).items = before ++ after := by
    rw [h.sound.items_remove, hitems, List.erase_append_right _ hbefore, List.erase_cons_head]
  -- the counter is decremented modulo its width
  have hcount : (m.uxNumberOfItems n + (baseModulus - 1)) % baseModulus =
      ((S.remove x).list n).items.length % baseModulus := by
    rw [h.number, herase, hitems, Nat.mod_add_mod]
    have hlength : (before ++ x :: after).length + (baseModulus - 1) = (before ++ after).length +
        baseModulus := by
      simp only [List.length_append, List.length_cons, baseModulus]
      omega
    rw [hlength, Nat.add_mod_right]
  have hat : m.pxIndex n = .item x ↔ (S.list n).index = some x := by
    rw [h.index, indexPtr_eq_item]
  have hlist : (S.remove x).list = Function.update S.list n ((S.list n).remove x) := by
    simp only [Lib.Shelf.remove, hcontainer]
  have hmoved : ((S.list n).remove x).index =
      if (S.list n).index = some x then before.getLast? else (S.list n).index := by
    rw [← htake]
    rfl
  obtain ⟨hnexts, hpreviouses, hindexes, hcontainers, hnumbers, hvalues⟩ :=
    m.removeFrom_fields n hself
  have hcircle := h.circle n
  rw [hitems, List.map_append, List.map_cons] at hcircle
  refine ⟨m.removeFrom n x, ?_,
    ⟨h.sound.remove x, fun k => ?_, fun k => ?_, fun k y hy => ?_, ?_, fun k => ?_, fun k => ?_,
     fun y => ?_⟩, hvalues⟩
  · rw [ListMemory.uxListRemove, h.container, hcontainer, Option.map_some, hnumbers,
      Function.update_self, hcount]
  · rw [hnexts, hpreviouses]
    by_cases hk : k = n
    · subst hk
      rw [herase, List.map_append]
      exact hcircle.unlink
    · have hsame : ((S.remove x).list k).items = (S.list k).items := by
        rw [h.sound.items_remove]
        apply List.erase_of_not_mem
        intro hmem
        rw [h.sound.mem, hcontainer] at hmem
        exact hk (Option.some.inj hmem).symm
      have hother {i : Option τ} (hi : ∀ y, i = some y → y ∈ (S.list n).items) :
          indexPtr n i ∈ places S n := by
        cases i with
        | none => exact List.mem_cons_self
        | some y => exact List.mem_cons_of_mem _ (List.mem_map_of_mem (hi y rfl))
      rw [hsame]
      -- the two fields that change lie in the circle of the list that the item was in
      refine (h.circle k).congr (fun r hr => ?_) fun r hr => ?_
      · refine Function.update_of_ne (h.places_disjoint hk hr ?_) ..
        rw [hprevious]
        refine hother fun y hy => ?_
        rw [hitems]
        exact List.mem_append_left _ (List.mem_of_mem_getLast? hy)
      · refine Function.update_of_ne (h.places_disjoint hk hr ?_) ..
        rw [hnext]
        refine hother fun y hy => ?_
        rw [hitems]
        exact List.mem_append_right _ (List.mem_cons_of_mem _ (List.mem_of_mem_head? hy))
  · rw [hlist]
    by_cases hk : k = n
    · subst hk
      rw [hindexes, Function.update_self, hmoved]
      by_cases hi : (S.list k).index = some x
      · rw [if_pos (hat.mpr hi), if_pos hi, Function.update_self, hprevious]
      · rw [if_neg (mt hat.mp hi), if_neg hi, h.index]
    · rw [hindexes, Function.update_of_ne hk, ← h.index]
      split
      · exact Function.update_of_ne hk ..
      · rfl
  · by_cases hk : k = n
    · subst hk
      rw [hlist, Function.update_self, hmoved] at hy
      split at hy
      next =>
        rw [herase]
        exact List.mem_append_left _ (List.mem_of_mem_getLast? hy)
      next hi =>
        rw [h.sound.items_remove]
        refine (List.mem_erase_of_ne ?_).mpr (h.indexed k y hy)
        rintro rfl
        exact hi hy
    · rw [hlist, Function.update_of_ne hk] at hy ⊢
      exact h.indexed k y hy
  · rw [hcontainers, h.container, Lib.Shelf.container_remove]
  · rw [hnumbers]
    by_cases hk : k = n
    · subst hk
      rw [Function.update_self, hcount]
    · rw [hlist, Function.update_of_ne hk, Function.update_of_ne hk, h.number]
  · rw [hvalues]
    exact h.last k
  · rw [hvalues]
    exact h.typed y

/-- `listGET_OWNER_OF_NEXT_ENTRY` moves the index past the end marker. -/
theorem next (h : Represents m S) (n : ι) :
    Represents (m.listGetOwnerOfNextEntry n).1 (S.advance n) ∧
      (m.listGetOwnerOfNextEntry n).2 = indexPtr n (S.list n).next := by
  have hptr : (m.listGetOwnerOfNextEntry n).2 = indexPtr n (S.list n).next := by
    have hfirst := h.next_listEnd n
    simp only [ListMemory.listGetOwnerOfNextEntry, h.index, hfirst]
    cases hindex : (S.list n).index with
    | none =>
        simp only [indexPtr, hfirst, Lib.Circular.next, hindex]
        exact ite_self _
    | some i =>
        obtain ⟨before, after, hitems, -, -, -, hdrop⟩ :=
          Lib.exists_cut (h.sound.nodup n) (h.indexed n i hindex)
        simp only [indexPtr, (h.links_item hitems).1, Lib.Circular.next, hindex, hdrop,
          List.tail_cons]
        cases after with
        | nil => exact if_pos rfl
        | cons y ys => exact if_neg (by simp)
  have hself : ((S.advance n).list n).index = (S.list n).next := by
    simp [Lib.Shelf.advance, Lib.Circular.advance]
  have hother (k : ι) (hk : k ≠ n) : ((S.advance n).list k).index = (S.list k).index := by
    simp [Lib.Shelf.advance, hk]
  refine ⟨⟨h.sound.advance n, fun k => ?_, fun k => ?_, fun k y hy => ?_, h.container, fun k => ?_,
      h.last, h.typed⟩, hptr⟩
  · rw [Lib.Shelf.items_advance]
    exact h.circle k
  · by_cases hk : k = n
    · subst hk
      rw [hself, ← hptr]
      exact Function.update_self ..
    · rw [hother k hk, ← h.index]
      exact Function.update_of_ne hk ..
  · rw [Lib.Shelf.items_advance]
    by_cases hk : k = n
    · subst hk
      rw [hself] at hy
      exact Lib.Circular.mem_of_next hy
    · rw [hother k hk] at hy
      exact h.indexed k y hy
  · rw [Lib.Shelf.items_advance]
    exact h.number k

/-- A value may change while the item is in a list. -/
theorem setValue (h : Represents m S) (x : τ) {xValue : Nat} (hvalue : xValue ≤ portMaxDelay) :
    Represents (m.listSetListItemValue x xValue) S := by
  refine ⟨h.sound, h.circle, h.index, h.indexed, h.container, h.number, fun n => ?_, fun y => ?_⟩
  · simpa [ListMemory.listSetListItemValue] using h.last n
  · by_cases hy : y = x
    · subst hy
      simpa [ListMemory.listSetListItemValue] using hvalue
    · simpa [ListMemory.listSetListItemValue, hy] using h.typed y

end Represents

/-! ## Calls -/

/-- The calls to `list.c`, with those macros of `list.h` that write. -/
inductive ListAct (ι τ : Type)
  | insert (pxList : ι) (x : τ)
  | insertEnd (pxList : ι) (x : τ)
  | remove (x : τ)
  | nextEntry (pxList : ι)
  | setValue (x : τ) (xValue : Nat)
  deriving DecidableEq, Repr

/-- What a call returns: nothing, the number of items left, or an owner. -/
inductive ListReply (τ : Type)
  | done
  | left (uxNumberOfItems : Nat)
  | owner (x : τ)
  deriving DecidableEq, Repr

/-- A call on the memory. The end marker has no owner. -/
def ListMemory.call [DecidableEq ι] [DecidableEq τ] (fuel : Nat) (m : ListMemory ι τ) :
    ListAct ι τ → Option (ListMemory ι τ × ListReply τ)
  | .insert pxList x => (m.vListInsert fuel pxList x).map fun m => (m, .done)
  | .insertEnd pxList x => some (m.vListInsertEnd pxList x, .done)
  | .remove x => (m.uxListRemove x).map fun (m, left) => (m, .left left)
  | .nextEntry pxList =>
      match m.listGetOwnerOfNextEntry pxList with
      | (m, .item x) => some (m, .owner x)
      | (_, .listEnd _) => none
  | .setValue x xValue => some (m.listSetListItemValue x xValue, .done)

/-- Every list and every item is as its initialisation leaves it. -/
structure ListMemory.Initialised [DecidableEq ι] [DecidableEq τ] (m : ListMemory ι τ) : Prop where
  lists : ∀ n, m.vListInitialise n = m
  items : ∀ x, m.vListInitialiseItem x = m
  typed : ∀ x, m.xItemValue (.item x) ≤ portMaxDelay

/-- Lists as sequences, with the values of the items. -/
structure Sequences (ι τ : Type) where
  shelf : Lib.Shelf ι τ
  value : τ → Nat

/-- All lists are empty. -/
def Sequences.empty (value : τ → Nat) :
    Sequences ι τ := ⟨⟨fun _ => ⟨[], none⟩, fun _ => none⟩, value⟩

/-- A call on sequences. There is no answer to an insertion of an item that is in a list, to a
removal of one that is not, or when an empty list is asked for an entry. -/
def Sequences.call [DecidableEq ι] [DecidableEq τ] (Q : Sequences ι τ) :
    ListAct ι τ → Option (Sequences ι τ × ListReply τ)
  | .insert n x =>
      if Q.shelf.container x = none then
        some ({ Q with shelf := Q.shelf.put n x (vListInsert Q.value x (Q.shelf.list n).items) },
          .done)
      else none
  | .insertEnd n x =>
      if Q.shelf.container x = none then some ({ Q with shelf := Q.shelf.putEnd n x }, .done)
      else none
  | .remove x =>
      (Q.shelf.container x).map fun n =>
        ({ Q with shelf := Q.shelf.remove x }, .left ((Q.shelf.remove x).list n).items.length)
  | .nextEntry n => ((Q.shelf.list n).next).map fun x =>
    ({ Q with shelf := Q.shelf.advance n }, .owner x)
  | .setValue x xValue =>
      if xValue ≤ portMaxDelay then
        some ({ Q with value := Function.update Q.value x xValue }, .done)
      else none

section Calls

variable [DecidableEq ι] [DecidableEq τ] {m : ListMemory ι τ} {Q Q' : Sequences ι τ}

/-- The memory holds the sequences and the values. -/
structure Holds (Q : Sequences ι τ) (m : ListMemory ι τ) : Prop where
  lists : Represents m Q.shelf
  values : ∀ x, m.xItemValue (.item x) = Q.value x

theorem ListMemory.Initialised.holds (h : m.Initialised) :
    Holds (Sequences.empty fun x => m.xItemValue (.item x)) m := by
  have hnext (n : ι) : m.pxNext (.listEnd n) = .listEnd n := by
    rw [← h.lists n]
    exact Function.update_self ..
  have hprevious (n : ι) : m.pxPrevious (.listEnd n) = .listEnd n := by
    rw [← h.lists n]
    exact Function.update_self ..
  refine ⟨⟨⟨fun _ => List.nodup_nil, fun n x => ?_⟩, fun n =>
      ⟨.nil (hnext n) (hprevious n), List.nodup_singleton _⟩,
    fun n => ?_, fun n x hx => ?_, ?_, fun n => ?_, fun n => ?_, h.typed⟩, fun _ => rfl⟩
  · simp [Sequences.empty]
  · rw [← h.lists n]
    exact Function.update_self ..
  · cases hx
  · funext x
    rw [← h.items x]
    exact Function.update_self ..
  · rw [← h.lists n]
    exact Function.update_self ..
  · rw [← h.lists n]
    exact Function.update_self ..

variable [Fintype τ]

omit [DecidableEq ι] [DecidableEq τ] in
theorem Represents.length_le {S : Lib.Shelf ι τ} (h : Represents m S) (n : ι) :
    (S.list n).items.length ≤ Fintype.card τ :=
  (h.sound.nodup n).length_le_card

/-- Each call on the memory does what it does to the sequences. -/
theorem Holds.call (hsmall : Fintype.card τ < baseModulus) {fuel : Nat}
    (hfuel : Fintype.card τ < fuel) (h : Holds Q m) {act : ListAct ι τ} {reply : ListReply τ}
    (hcall : Q.call act = some (Q', reply)) :
    ∃ m', m.call fuel act = some (m', reply) ∧ Holds Q' m' := by
  have hvalue : (fun x => m.xItemValue (.item x)) = Q.value := funext h.values
  cases act with
  | insert n x =>
      simp only [Sequences.call] at hcall
      split at hcall
      next hfree =>
        cases hcall
        obtain ⟨m', hrun, hlists, hvalues⟩ :=
          h.lists.insert hfree n ((h.lists.length_le n).trans_lt hfuel)
        rw [hvalue] at hlists
        refine ⟨m', by rw [ListMemory.call, hrun, Option.map_some], hlists, fun y => ?_⟩
        rw [hvalues]
        exact h.values y
      next => cases hcall
  | insertEnd n x =>
      simp only [Sequences.call] at hcall
      split at hcall
      next hfree =>
        cases hcall
        exact ⟨m.vListInsertEnd n x, rfl, h.lists.insertEnd hfree n, h.values⟩
      next => cases hcall
  | remove x =>
      obtain ⟨n, hcontainer, hanswer⟩ := Option.map_eq_some_iff.mp hcall
      cases hanswer
      obtain ⟨m', hrun, hlists, hvalues⟩ := h.lists.remove hcontainer
      have hcount := Nat.mod_eq_of_lt ((hlists.length_le n).trans_lt hsmall)
      rw [hcount] at hrun
      refine ⟨m', by rw [ListMemory.call, hrun, Option.map_some], hlists, fun y => ?_⟩
      rw [hvalues]
      exact h.values y
  | nextEntry n =>
      obtain ⟨x, hnext, hanswer⟩ := Option.map_eq_some_iff.mp hcall
      cases hanswer
      obtain ⟨hlists, hptr⟩ := h.lists.next n
      rw [hnext] at hptr
      refine ⟨(m.listGetOwnerOfNextEntry n).1, ?_, hlists, h.values⟩
      rw [ListMemory.call, ← Prod.mk.eta (p := m.listGetOwnerOfNextEntry n), hptr]
      rfl
  | setValue x xValue =>
      simp only [Sequences.call] at hcall
      split at hcall
      next htyped =>
        cases hcall
        refine ⟨m.listSetListItemValue x xValue, rfl, h.lists.setValue x htyped, fun y => ?_⟩
        by_cases hy : y = x
        · subst hy
          simp [ListMemory.listSetListItemValue]
        · simpa [ListMemory.listSetListItemValue, hy] using h.values y
      next => cases hcall

/-- From initialised lists on, the links answer every list of calls as sequences do. The search of
`vListInsert` takes at most one round for each item there is and one more. -/
theorem lists_refine_sequences (hsmall : Fintype.card τ < baseModulus) {fuel : Nat}
    (hfuel : Fintype.card τ < fuel) (hinit : m.Initialised) (acts : List (ListAct ι τ))
    {last : Sequences ι τ × List (ListReply τ)}
    (hrun : Lib.converse Sequences.call (Sequences.empty fun x => m.xItemValue (.item x)) acts =
      some last) :
    ∃ m', Lib.converse (ListMemory.call fuel) m acts = some (m', last.2) ∧ Holds last.1 m' := by
  -- the links answer as the sequences do, call by call
  apply Lib.converse_follows Holds _ hinit.holds acts hrun
  intro Q m act Q' reply hholds hcall
  exact hholds.call hsmall hfuel hcall

end Calls

/-- Memory in which no item has been used. -/
def ListMemory.cleared : ListMemory ι τ where
  pxNext := id
  pxPrevious := id
  xItemValue
    | .item _ => 0
    | .listEnd _ => portMaxDelay
  pxContainer _ := none
  pxIndex := .listEnd
  uxNumberOfItems _ := 0

theorem ListMemory.cleared_initialised [DecidableEq ι] [DecidableEq τ] :
    (ListMemory.cleared : ListMemory ι τ).Initialised := by
  refine ⟨fun n => ?_, fun x => ?_, fun x => Nat.zero_le _⟩
  · simp [vListInitialise, setNext, setPrevious, cleared]
  · simp [vListInitialiseItem, cleared]

/-- Three items in a list sorted by value, an index that goes around, and a removal at the index. -/
theorem lists_refine_sequences_calls :
    ∃ m' : ListMemory Unit (Fin 3), ∃ Q', Holds Q' m' ∧
      Lib.converse (ListMemory.call 4) ListMemory.cleared
        [.setValue 0 5, .insert () 0, .setValue 1 5, .insert () 1, .setValue 2 3, .insert () 2,
          .nextEntry (),
          .nextEntry (), .remove 0, .nextEntry (), .insertEnd () 0, .nextEntry ()] =
      some (m', [.done, .done, .done, .done, .done, .done, .owner 2, .owner 0, .left 2, .owner 1,
        .done, .owner 2]) := by
  obtain ⟨last, hrun, hreplies⟩ := Option.map_eq_some_iff.mp
    (show
      (Lib.converse Sequences.call (Sequences.empty fun x : Fin 3 =>
        (ListMemory.cleared : ListMemory Unit (Fin 3)).xItemValue (.item x))
        [.setValue 0 5, .insert () 0, .setValue 1 5, .insert () 1, .setValue 2 3, .insert () 2,
         .nextEntry (),
          .nextEntry (), .remove 0, .nextEntry (), .insertEnd () 0, .nextEntry ()]).map Prod.snd =
      some [.done, .done, .done, .done, .done, .done, .owner 2, .owner 0, .left 2, .owner 1, .done,
        .owner 2] by
        decide +kernel)
  have hfuel : Fintype.card (Fin 3) < 4 := by decide
  obtain ⟨m', hmemory, hholds⟩ :=
    lists_refine_sequences (by decide) hfuel ListMemory.cleared_initialised _ hrun
  exact ⟨m', last.1, hholds, hreplies ▸ hmemory⟩

end SimulatedLinux.Kernel
