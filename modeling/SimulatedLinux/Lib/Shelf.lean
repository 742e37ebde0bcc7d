import Mathlib.Data.List.Nodup
import Mathlib.Logic.Function.Basic

/-! # Lists whose items know where they are

A shelf is a family of circular lists. Every item is in at most one of them and has a pointer to it,
so that it can be taken out without a search for the list. A list also has an index that
walks around it: a new item at the end is one the index reaches last.
-/

namespace SimulatedLinux.Lib

variable {ι τ : Type*} [DecidableEq τ]

/-- The items in order, and the item at which the index is; `none` is the end marker of the list. -/
structure Circular (τ : Type*) where
  items : List τ
  index : Option τ

namespace Circular

variable (l : Circular τ) (x : τ)

/-- The items with a new one just before the index. -/
def atEnd : List τ :=
  match l.index with
  | none => l.items ++ [x]
  | some i => l.items.takeWhile (· ≠ i) ++ x :: l.items.dropWhile (· ≠ i)

/-- Take an item out. The index moves back when it is at the item. -/
def remove : Circular τ where
  items := l.items.erase x
  index := if l.index = some x then (l.items.takeWhile (· ≠ x)).getLast? else l.index

/-- The item after the index, past the end marker. -/
def next : Option τ :=
  match l.index with
  | none => l.items.head?
  | some i => (l.items.dropWhile (· ≠ i)).tail.head? <|> l.items.head?

/-- Move the index to the next item. -/
def advance : Circular τ := { l with index := l.next }

theorem atEnd_perm : (l.atEnd x).Perm (x :: l.items) := by
  unfold atEnd
  split
  · exact List.perm_append_singleton x l.items
  · refine List.perm_middle.trans (.cons _ ?_)
    rw [List.takeWhile_append_dropWhile]

theorem next_mem {l : Circular τ} (hne : l.items ≠ []) : ∃ x ∈ l.items, l.next = some x := by
  obtain ⟨y, rest, hitems⟩ := List.exists_cons_of_ne_nil hne
  have hhead : l.items.head? = some y := by rw [hitems, List.head?_cons]
  have hy : y ∈ l.items := by rw [hitems]; exact List.mem_cons_self
  unfold next
  split
  · exact ⟨y, hy, hhead⟩
  next i _ =>
    cases htail : (l.items.dropWhile (· ≠ i)).tail with
    | nil => exact ⟨y, hy, by simp [hhead]⟩
    | cons z more =>
        refine ⟨z, ?_, by simp⟩
        apply (List.dropWhile_sublist fun u => decide (u ≠ i)).mem
        apply List.mem_of_mem_tail
        rw [htail]
        exact List.mem_cons_self

theorem mem_of_next {l : Circular τ} {x : τ} (hnext : l.next = some x) : x ∈ l.items := by
  by_cases hnil : l.items = []
  · unfold next at hnext
    split at hnext <;> simp [hnil] at hnext
  · obtain ⟨y, hy, hnext'⟩ := next_mem hnil
    rw [hnext] at hnext'
    cases hnext'
    exact hy

end Circular

/-- A family of lists, and for each item the list it is in. -/
structure Shelf (ι τ : Type*) where
  list : ι → Circular τ
  container : τ → Option ι

namespace Shelf

variable [DecidableEq ι]

/-- Put an item in a list, whose items are then `items`. -/
def put (S : Shelf ι τ) (n : ι) (x : τ) (items : List τ) : Shelf ι τ where
  list := Function.update S.list n { S.list n with items }
  container := Function.update S.container x (some n)

def putEnd (S : Shelf ι τ) (n : ι) (x : τ) : Shelf ι τ := S.put n x ((S.list n).atEnd x)

/-- Take an item out of the list it is in. -/
def remove (S : Shelf ι τ) (x : τ) : Shelf ι τ :=
  match S.container x with
  | none => S
  | some n =>
      { list := Function.update S.list n ((S.list n).remove x)
        container := Function.update S.container x none }

/-- Move the index of a list. -/
def advance (S : Shelf ι τ) (n : ι) : Shelf ι τ :=
  { S with list := Function.update S.list n (S.list n).advance }

/-- The lists and the pointers of the items agree. -/
structure Sound (S : Shelf ι τ) : Prop where
  nodup : ∀ n, (S.list n).items.Nodup
  mem : ∀ n x, x ∈ (S.list n).items ↔ S.container x = some n

variable {S : Shelf ι τ} {n m : ι} {x y : τ} {items : List τ}

theorem container_remove (S : Shelf ι τ) (x : τ) :
    (S.remove x).container = Function.update S.container x none := by
  unfold remove
  split
  next hnone =>
    rw [← hnone]
    exact (Function.update_eq_self x S.container).symm
  next => rfl

theorem items_put_self : ((S.put n x items).list n).items = items := by
  simp [put]

theorem items_put_ne (hne : m ≠ n) : ((S.put n x items).list m).items = (S.list m).items := by
  simp [put, hne]

theorem items_advance (S : Shelf ι τ) (n m : ι) :
    ((S.advance n).list m).items = (S.list m).items := by
  by_cases hm : m = n
  · subst hm
    simp [advance, Circular.advance]
  · simp [advance, hm]

namespace Sound

/-- An item that is in no list leaves every list as it is. -/
theorem items_remove (hS : S.Sound) (x : τ) (m : ι) :
    ((S.remove x).list m).items = (S.list m).items.erase x := by
  have hother (hm : S.container x ≠ some m) : (S.list m).items = (S.list m).items.erase x := by
    rw [List.erase_of_not_mem]
    exact fun hmem => hm ((hS.mem m x).mp hmem)
  unfold remove
  split
  next hnone => exact hother (by simp [hnone])
  next n hn =>
    by_cases hm : m = n
    · subst hm
      simp [Circular.remove]
    · simp only [ne_eq, hm, not_false_eq_true, Function.update_of_ne]
      refine hother fun heq => hm ?_
      exact Option.some.inj (heq.symm.trans hn)

theorem remove (hS : S.Sound) (x : τ) : (S.remove x).Sound := by
  refine ⟨fun m => ?_, fun m y => ?_⟩
  · rw [hS.items_remove]
    exact (hS.nodup m).erase x
  · rw [hS.items_remove, container_remove]
    by_cases hy : y = x
    · subst hy
      simpa using (hS.nodup m).not_mem_erase
    · rw [Function.update_of_ne hy, List.mem_erase_of_ne hy]
      exact hS.mem m y

theorem put (hS : S.Sound) (hfree : S.container x = none)
    (hperm : items.Perm (x :: (S.list n).items)) :
    (S.put n x items).Sound := by
  have hfresh (m : ι) : x ∉ (S.list m).items := by
    intro hmem
    rw [(hS.mem m x).mp hmem] at hfree
    cases hfree
  refine ⟨fun m => ?_, fun m y => ?_⟩
  · by_cases hm : m = n
    · subst hm
      rw [items_put_self, hperm.nodup_iff]
      exact List.nodup_cons.mpr ⟨hfresh m, hS.nodup m⟩
    · rw [items_put_ne hm]
      exact hS.nodup m
  · have hy := hS.mem m y
    simp only [Shelf.put]
    by_cases hm : m = n
    · subst hm
      rw [Function.update_self, hperm.mem_iff, List.mem_cons]
      by_cases hyx : y = x
      · simp [hyx]
      · simpa [hyx] using hy
    · rw [Function.update_of_ne hm]
      by_cases hyx : y = x
      · subst hyx
        simpa [Ne.symm hm] using hfresh m
      · simpa [hyx] using hy

theorem advance (hS : S.Sound) (n : ι) : (S.advance n).Sound := by
  refine ⟨fun m => ?_, fun m y => ?_⟩
  · rw [items_advance]
    exact hS.nodup m
  · rw [items_advance]
    exact hS.mem m y

end Sound

end Shelf

end SimulatedLinux.Lib
