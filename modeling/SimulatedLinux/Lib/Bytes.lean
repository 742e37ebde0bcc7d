import Mathlib.Algebra.GroupWithZero.Nat
import Mathlib.Data.BitVec
import Mathlib.Logic.Function.Basic

/-! # Words in a memory of bytes

A word takes four bytes, the lowest first. What is stored at an address is loaded from it again, and
a store is seen by no byte outside the four it writes.
-/

namespace SimulatedLinux.Lib

/-- A byte for each address. -/
abbrev Bytes := Nat → BitVec 8

namespace Bytes

variable {bytes bytes' : Bytes} {a b v x : Nat}

def load (bytes : Bytes) (a : Nat) : Nat :=
  (bytes a).toNat + 2 ^ 8 * (bytes (a + 1)).toNat + 2 ^ 16 * (bytes (a + 2)).toNat + 2 ^ 24 *
    (bytes (a + 3)).toNat

def store (bytes : Bytes) (a v : Nat) : Bytes := fun x =>
  if a ≤ x ∧ x < a + 4 then BitVec.ofNat 8 (v / 2 ^ (8 * (x - a))) else bytes x

/-- `memset`. -/
def fill (bytes : Bytes) (a n : Nat) (value : BitVec 8) : Bytes := fun x =>
  if a ≤ x ∧ x < a + n then value else bytes x

theorem load_lt (bytes : Bytes) (a : Nat) : bytes.load a < 2 ^ 32 := by
  have h₀ := (bytes a).isLt
  have h₁ := (bytes (a + 1)).isLt
  have h₂ := (bytes (a + 2)).isLt
  have h₃ := (bytes (a + 3)).isLt
  unfold load
  omega

theorem load_congr (h : ∀ x, a ≤ x → x < a + 4 → bytes x = bytes' x) :
    bytes.load a = bytes'.load a := by
  unfold load
  rw [h a (by omega) (by omega), h (a + 1) (by omega) (by omega), h (a + 2) (by omega) (by omega),
    h (a + 3) (by omega) (by omega)]

theorem store_of_outside (h : x < a ∨ a + 4 ≤ x) : bytes.store a v x = bytes x := by
  unfold store
  exact if_neg (by omega)

theorem fill_of_outside {n : Nat} {value : BitVec 8} (h : x < a ∨ a + n ≤ x) :
    bytes.fill a n value x = bytes x := by
  unfold fill
  exact if_neg (by omega)

theorem load_store (hv : v < 2 ^ 32) : (bytes.store a v).load a = v := by
  have hbyte (i : Nat) (hi : i < 4) :
      bytes.store a v (a + i) = BitVec.ofNat 8 (v / 2 ^ (8 * i)) := by
    unfold store
    rw [if_pos (by omega), Nat.add_sub_cancel_left]
  have hfirst := hbyte 0 (by omega)
  rw [Nat.add_zero] at hfirst
  unfold load
  rw [hfirst, hbyte 1 (by omega), hbyte 2 (by omega), hbyte 3 (by omega)]
  simp only [BitVec.toNat_ofNat]
  omega

theorem load_store_of_apart (h : a + 4 ≤ b ∨ b + 4 ≤ a) :
    (bytes.store a v).load b = bytes.load b := by
  apply load_congr
  intro x hlow hhigh
  exact store_of_outside (by omega)

end Bytes

/-! ## Text -/

/-- The bytes from an address on are those of the text. -/
def Spells (bytes : Bytes) : Nat → List (BitVec 8) → Prop
  | _, [] => True
  | a, c :: rest => bytes a = c ∧ Spells bytes (a + 1) rest

instance Spells.decidable (bytes : Bytes) :
    (a : Nat) → (text : List (BitVec 8)) → Decidable (Spells bytes a text)
  | _, [] => .isTrue trivial
  | a, c :: rest =>
      have := Spells.decidable bytes (a + 1) rest
      inferInstanceAs (Decidable (bytes a = c ∧ Spells bytes (a + 1) rest))

namespace Spells

variable {bytes bytes' : Bytes} {a : Nat} {text rest : List (BitVec 8)}

theorem append_iff :
    Spells bytes a (text ++ rest) ↔ Spells bytes a text ∧ Spells bytes (a + text.length) rest := by
  induction text generalizing a with
  | nil => simp [Spells]
  | cons c text ih =>
      rw [List.cons_append, Spells, Spells, ih, List.length_cons, and_assoc]
      have hlength : a + 1 + text.length = a + (text.length + 1) := by omega
      rw [hlength]

theorem congr (h : Spells bytes a text)
    (hsame : ∀ x, a ≤ x → x < a + text.length → bytes' x = bytes x) :
    Spells bytes' a text := by
  induction text generalizing a with
  | nil => trivial
  | cons c text ih =>
      obtain ⟨hfirst, hrest⟩ := h
      rw [List.length_cons] at hsame
      refine ⟨(hsame a (Nat.le_refl _) (by omega)).trans hfirst, ih hrest fun x hlow hhigh => ?_⟩
      exact hsame x (by omega) (by omega)

end Spells

end SimulatedLinux.Lib
