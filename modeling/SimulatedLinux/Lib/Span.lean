import Mathlib.Data.List.Basic
import Mathlib.Data.List.Pairwise

/-! # Lists of separated intervals

A set of addresses kept as a list of intervals in ascending order, with a gap
after each of them. Such a list is determined by the set it covers, so that two
histories which leave the same addresses free leave the same list.
-/

namespace SimulatedLinux.Lib

/-- A half-open interval of addresses. -/
structure Span where
  addr : Nat
  size : Nat
  deriving DecidableEq, Repr

namespace Span

def limit (b : Span) : Nat := b.addr + b.size

def Mem (b : Span) (x : Nat) : Prop := b.addr ≤ x ∧ x < b.limit

end Span

/-- Some interval of the list holds the address. -/
def Covers (spans : List Span) (x : Nat) : Prop := ∃ b ∈ spans, b.Mem x

@[simp] theorem covers_nil (x : Nat) : ¬ Covers [] x := by
  rintro ⟨b, hb, -⟩
  simp at hb

@[simp] theorem covers_cons (b : Span) (spans : List Span) (x : Nat) :
    Covers (b :: spans) x ↔ b.Mem x ∨ Covers spans x := by
  simp [Covers]

/-- Non-empty intervals in ascending order, no two of them adjacent. -/
structure Separated (spans : List Span) : Prop where
  gap : spans.Pairwise fun a b => a.limit < b.addr
  nonempty : ∀ b ∈ spans, 0 < b.size

namespace Separated

variable {b c : Span} {spans spans' : List Span}

theorem tail (hsep : Separated (b :: spans)) : Separated spans :=
  ⟨(List.pairwise_cons.mp hsep.gap).2, fun c hc => hsep.nonempty c (List.mem_cons_of_mem _ hc)⟩

theorem cons (hsep : Separated spans) (hsize : 0 < b.size) (hgap : ∀ c ∈ spans, b.limit < c.addr) :
    Separated (b :: spans) :=
  ⟨List.pairwise_cons.mpr ⟨hgap, hsep.gap⟩, by
    simp only [List.mem_cons, forall_eq_or_imp]
    exact ⟨hsize, hsep.nonempty⟩⟩

theorem head_gap (hsep : Separated (b :: spans)) : ∀ c ∈ spans, b.limit < c.addr :=
  (List.pairwise_cons.mp hsep.gap).1

/-- Two intervals of the list are the same, or there is a gap between them. -/
theorem eq_or_gap (hsep : Separated spans) (hb : b ∈ spans) (hc : c ∈ spans) :
    b = c ∨ b.limit < c.addr ∨ c.limit < b.addr := by
  induction spans with
  | nil => simp at hb
  | cons first rest ih =>
      rcases List.mem_cons.mp hb with rfl | hb' <;> rcases List.mem_cons.mp hc with rfl | hc'
      · exact .inl rfl
      · exact .inr (.inl (hsep.head_gap c hc'))
      · exact .inr (.inr (hsep.head_gap b hb'))
      · exact ih hsep.tail hb' hc'

theorem eq_of_mem (hsep : Separated spans) (hb : b ∈ spans) (hc : c ∈ spans) {x : Nat}
    (hxb : b.Mem x) (hxc : c.Mem x) : b = c := by
  rcases hsep.eq_or_gap hb hc with heq | hgap | hgap
  · exact heq
  · exact absurd hxc.1 (Nat.not_le_of_lt (Nat.lt_trans hxb.2 hgap))
  · exact absurd hxb.1 (Nat.not_le_of_lt (Nat.lt_trans hxc.2 hgap))

theorem not_adjacent (hsep : Separated spans) (hb : b ∈ spans) (hc : c ∈ spans) :
    b.limit ≠ c.addr := by
  intro hadjacent
  have hpos := hsep.nonempty b hb
  rcases hsep.eq_or_gap hb hc with rfl | hgap | hgap <;> simp only [Span.limit] at * <;> omega

/-- The address just after an interval is free of the list. -/
theorem limit_not_covered (hsep : Separated (b :: spans)) : ¬ Covers (b :: spans) b.limit := by
  rintro ⟨c, hc, hmem⟩
  rcases List.mem_cons.mp hc with rfl | hc
  · exact Nat.lt_irrefl _ hmem.2
  · exact absurd hmem.1 (Nat.not_le_of_lt (hsep.head_gap c hc))

theorem first_covered (hsep : Separated (b :: spans)) : Covers (b :: spans) b.addr :=
  ⟨b, by simp, Nat.le_refl _, Nat.lt_add_of_pos_right (hsep.nonempty b (by simp))⟩

theorem first_least (hsep : Separated (b :: spans)) {x : Nat} (hx : Covers (b :: spans) x) :
    b.addr ≤ x := by
  obtain ⟨c, hc, hmem⟩ := hx
  rcases List.mem_cons.mp hc with rfl | hc
  · exact hmem.1
  · have hgap := hsep.head_gap c hc
    have hlow := hmem.1
    unfold Span.limit at hgap
    omega

/-- The first interval ends at the first address that is not covered. -/
theorem limit_le (hsep : Separated (c :: spans'))
    (hcovers : ∀ x, Covers (b :: spans) x ↔ Covers (c :: spans') x) (haddr : b.addr = c.addr) :
    b.limit ≤ c.limit := by
  by_contra hlt
  have hin : Covers (b :: spans) c.limit := by
    refine ⟨b, by simp, ?_, by omega⟩
    rw [haddr]
    exact Nat.le_add_right _ _
  exact hsep.limit_not_covered ((hcovers _).mp hin)

/-- The list is determined by the addresses it covers. -/
theorem unique (hsep : Separated spans) (hsep' : Separated spans')
    (hcovers : ∀ x, Covers spans x ↔ Covers spans' x) : spans = spans' := by
  -- the first spans begin at the first covered place, and end at the first gap behind it
  induction spans generalizing spans' with
  | nil =>
      cases spans' with
      | nil => rfl
      | cons c spans' => exact absurd ((hcovers c.addr).mpr hsep'.first_covered) (covers_nil _)
  | cons b spans ih =>
      cases spans' with
      | nil => exact absurd ((hcovers b.addr).mp hsep.first_covered) (covers_nil _)
      | cons c spans' =>
          have haddr : b.addr = c.addr := by
            apply Nat.le_antisymm
            · exact hsep.first_least ((hcovers _).mpr hsep'.first_covered)
            · exact hsep'.first_least ((hcovers _).mp hsep.first_covered)
          have hlimit : b.limit = c.limit := by
            apply Nat.le_antisymm
            · exact hsep'.limit_le hcovers haddr
            · exact hsep.limit_le (fun x => (hcovers x).symm) haddr.symm
          have hsame : b = c := by
            cases b
            cases c
            simp only [Span.limit] at hlimit
            simp_all
          subst hsame
          have hrest : ∀ x, Covers spans x ↔ Covers spans' x := by
            intro x
            have hx := hcovers x
            simp only [covers_cons] at hx
            constructor
            · intro hcover
              rcases hx.mp (.inr hcover) with hmem | hcover'
              · obtain ⟨d, hd, hlow⟩ := hcover
                exact absurd hmem.2 (Nat.not_lt_of_le
                  (Nat.le_trans (Nat.le_of_lt (hsep.head_gap d hd)) hlow.1))
              · exact hcover'
            · intro hcover
              rcases hx.mpr (.inr hcover) with hmem | hcover'
              · obtain ⟨d, hd, hlow⟩ := hcover
                exact absurd hmem.2 (Nat.not_lt_of_le
                  (Nat.le_trans (Nat.le_of_lt (hsep'.head_gap d hd)) hlow.1))
              · exact hcover'
          rw [ih hsep.tail hsep'.tail hrest]

end Separated

end SimulatedLinux.Lib
