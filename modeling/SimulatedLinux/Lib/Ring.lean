import Mathlib.Logic.Function.Basic
import Mathlib.Data.Nat.ModEq
import Mathlib.Tactic.Ring

/-! # Ring buffers

A ring of `n` slots holds a list of items in the slots after the read position.
Pushing writes the first free slot and popping reads the slot after the read
position, whatever the number of wrap-arounds.
-/

namespace SimulatedLinux.Lib

variable {α : Type*}

/-- The slot an index wraps to after one increment of a position inside the ring. -/
theorem wrap_succ {n i : Nat} (hi : i < n) : (i + 1) % n = if n ≤ i + 1 then 0 else i + 1 := by
  split
  next hwrap =>
    have heq : i + 1 = n := by omega
    rw [heq, Nat.mod_self]
  next hwrap => exact Nat.mod_eq_of_lt (by omega)

/-- The ring holds `items`, oldest first, in the slots after `read`. -/
structure Holds (n : Nat) (slot : Nat → Option α) (read : Nat) (items : List α) : Prop where
  read_lt : read < n
  length_le : items.length ≤ n
  stored : ∀ i a, items[i]? = some a → slot ((read + 1 + i) % n) = some a

namespace Holds

variable {n read : Nat} {slot : Nat → Option α} {items : List α} {a : α}

theorem nil (hread : read < n) : Holds n slot read ([] : List α) :=
  ⟨hread, Nat.zero_le n, by simp⟩

/-- Two indices below the capacity are stored in different slots. -/
theorem slot_ne (read : Nat) {i j : Nat} (hi : i < n) (hj : j < n) (hne : i ≠ j) :
    (read + 1 + i) % n ≠ (read + 1 + j) % n := by
  intro heq
  have hmod : i ≡ j [MOD n] := Nat.ModEq.add_left_cancel' (read + 1) heq
  exact hne (Nat.ModEq.eq_of_lt_of_lt hmod hi hj)

theorem push (hholds : Holds n slot read items) (hspace : items.length < n) :
    Holds n (Function.update slot ((read + 1 + items.length) % n) (some a)) read
      (items ++ [a]) := by
  refine ⟨hholds.read_lt, by simpa [Nat.succ_le_iff] using hspace, ?_⟩
  intro i b hb
  rcases Nat.lt_trichotomy i items.length with hlt | heq | hgt
  · rw [List.getElem?_append_left hlt] at hb
    rw [Function.update_of_ne (slot_ne read (Nat.lt_trans hlt hspace) hspace (Nat.ne_of_lt hlt))]
    exact hholds.stored i b hb
  · subst heq
    simpa using hb
  · rw [List.getElem?_eq_none (by simp only [List.length_append, List.length_singleton]; omega)]
      at hb
    simp at hb

theorem pop (hholds : Holds n slot read (a :: items)) :
    slot ((read + 1) % n) = some a ∧ Holds n slot ((read + 1) % n) items := by
  have hlength := hholds.length_le
  have hpos : 0 < n := Nat.lt_of_le_of_lt (Nat.zero_le _) hholds.read_lt
  refine ⟨by simpa using hholds.stored 0 a rfl, Nat.mod_lt _ hpos, ?_, ?_⟩
  · simp only [List.length_cons] at hlength
    omega
  · intro i b hb
    have hstored := hholds.stored (i + 1) b (by simpa using hb)
    have hindex : ((read + 1) % n + 1 + i) % n = (read + 1 + (i + 1)) % n := by
      rw [Nat.add_assoc, Nat.mod_add_mod]
      ring_nf
    rwa [hindex]

end Holds

end SimulatedLinux.Lib
