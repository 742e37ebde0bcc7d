import SimulatedLinux.Lib.Shelf

/-! # Taking turns

The index of a circular list comes to its items one after the other. `turns` is the order in which
it does. When the index moves, the first of them becomes the last; the order of the others changes
neither then nor when an item comes or goes.
-/

namespace SimulatedLinux.Lib

variable {ι τ : Type*} [DecidableEq τ]

/-- An item cuts a list in which it stands once. -/
theorem exists_cut {items : List τ} {x : τ} (hnodup : items.Nodup) (hmem : x ∈ items) :
    ∃ before after, items = before ++ x :: after ∧ x ∉ before ∧ x ∉ after ∧
      items.takeWhile (fun u => decide (u ≠ x)) = before ∧
      items.dropWhile (fun u => decide (u ≠ x)) = x :: after := by
  obtain ⟨before, after, rfl⟩ := List.append_of_mem hmem
  have hbefore : x ∉ before :=
    fun hx => (List.nodup_append.mp hnodup).2.2 x hx x List.mem_cons_self rfl
  have hafter : x ∉ after := (List.nodup_cons.mp (List.nodup_append.mp hnodup).2.1).1
  have hne : ∀ u ∈ before, decide (u ≠ x) = true :=
    fun u hu => decide_eq_true (ne_of_mem_of_not_mem hu hbefore)
  refine ⟨before, after, rfl, hbefore, hafter, ?_, ?_⟩
  · rw [List.takeWhile_append_of_pos hne, List.takeWhile_cons_of_neg (by simp), List.append_nil]
  · rw [List.dropWhile_append_of_pos hne, List.dropWhile_cons_of_neg (by simp)]

namespace Circular

/-- The items in the order in which the index comes to them. -/
def turns (l : Circular τ) : List τ :=
  match l.index with
  | none => l.items
  | some i => (l.items.dropWhile (· ≠ i)).tail ++ l.items.takeWhile (· ≠ i) ++ [i]

/-- The index is at an item or at the end marker. -/
structure Sound (l : Circular τ) : Prop where
  nodup : l.items.Nodup
  index : ∀ i, l.index = some i → i ∈ l.items

variable {l : Circular τ} {x i : τ} {before after rest : List τ}

theorem turns_cut (hindex : l.index = some i) (hitems : l.items = before ++ i :: after)
    (hbefore : i ∉ before) :
    l.turns = after ++ before ++ [i] := by
  have hne : ∀ u ∈ before, decide (u ≠ i) = true :=
    fun u hu => decide_eq_true (ne_of_mem_of_not_mem hu hbefore)
  simp only [turns, hindex, hitems]
  rw [List.takeWhile_append_of_pos hne, List.takeWhile_cons_of_neg (by simp), List.append_nil,
    List.dropWhile_append_of_pos hne, List.dropWhile_cons_of_neg (by simp), List.tail_cons]

namespace Sound

theorem turns_perm (h : l.Sound) : l.turns.Perm l.items := by
  cases hindex : l.index with
  | none => simp [turns, hindex]
  | some i =>
      obtain ⟨before, after, hitems, hbefore, -⟩ := exists_cut h.nodup (h.index i hindex)
      rw [turns_cut hindex hitems hbefore, hitems, List.append_assoc]
      refine List.perm_append_comm.trans ?_
      simp

theorem next_eq (h : l.Sound) : l.next = l.turns.head? := by
  cases hindex : l.index with
  | none => simp [next, turns, hindex]
  | some i =>
      obtain ⟨before, after, hitems, hbefore, -, -, hdrop⟩ := exists_cut h.nodup (h.index i hindex)
      rw [turns_cut hindex hitems hbefore]
      simp only [next, hindex, hdrop, List.tail_cons]
      cases after with
      | nil =>
          rw [hitems]
          rfl
      | cons y ys => rfl

/-- The first becomes the last. -/
theorem turns_advance (h : l.Sound) (hturns : l.turns = x :: rest) :
    l.advance.turns = rest ++ [x] := by
  have hnext : l.advance.index = some x := by
    rw [advance, h.next_eq, hturns, List.head?_cons]
  have hcut {before after : List τ} (hitems : l.items = before ++ x :: after) :
      l.advance.turns = after ++ before ++ [x] := by
    refine turns_cut hnext hitems ?_
    have hnodup := h.nodup
    rw [hitems] at hnodup
    exact fun hx => (List.nodup_append.mp hnodup).2.2 x hx x List.mem_cons_self rfl
  cases hindex : l.index with
  | none =>
      have hitems : l.items = [] ++ x :: rest := by simpa [turns, hindex] using hturns
      rw [hcut hitems, List.append_nil]
  | some i =>
      obtain ⟨before, after, hitems, hbefore, -⟩ := exists_cut h.nodup (h.index i hindex)
      rw [turns_cut hindex hitems hbefore] at hturns
      cases after with
      | nil =>
          -- past the end marker
          have hfirst : l.items = [] ++ x :: rest := by
            rw [hitems]
            exact hturns
          rw [hcut hfirst, List.append_nil]
      | cons y ys =>
          simp only [List.cons_append, List.cons.injEq] at hturns
          obtain ⟨rfl, rfl⟩ := hturns
          rw [hcut (show l.items = (before ++ [i]) ++ y :: ys by simp [hitems])]
          simp

theorem items_remove (h : l.Sound) (x : τ) : (l.remove x).items = l.items.filter (· != x) :=
  h.nodup.erase_eq_filter x

/-- The order of the others stays as it is. -/
theorem turns_remove (h : l.Sound) (x : τ) : (l.remove x).turns = l.turns.filter (· != x) := by
  have hitems' := h.items_remove x
  cases hindex : l.index with
  | none =>
      have hback : (l.remove x).index = none := by simp [remove, hindex]
      simp only [turns, hback, hindex]
      exact hitems'
  | some i =>
      obtain ⟨before, after, hitems, hbefore, hafter, htake, -⟩ :=
        exists_cut h.nodup (h.index i hindex)
      rw [turns_cut hindex hitems hbefore, List.filter_append, List.filter_append]
      rw [hitems, List.filter_append] at hitems'
      by_cases hix : i = x
      · -- the index moves back
        subst hix
        have hall {ys : List τ} (hi : i ∉ ys) : ys.filter (· != i) = ys :=
          List.filter_eq_self.mpr fun y hy => by simpa using ne_of_mem_of_not_mem hy hi
        rw [List.filter_cons_of_neg (by simp), hall hbefore, hall hafter] at hitems'
        rw [hall hbefore, hall hafter, List.filter_cons_of_neg (by simp), List.filter_nil,
          List.append_nil]
        have hback : (l.remove i).index = before.getLast? := by
          rw [← htake]
          exact if_pos hindex
        rcases List.eq_nil_or_concat before with rfl | ⟨ys, y, rfl⟩
        · rw [List.getLast?_nil] at hback
          simp only [turns, hback, hitems', List.nil_append, List.append_nil]
        · rw [List.concat_eq_append] at hback hitems' hitems
          rw [List.getLast?_concat] at hback
          rw [List.append_assoc, List.singleton_append] at hitems'
          have hnodup := h.nodup
          rw [hitems, List.append_assoc, List.nodup_append] at hnodup
          rw [turns_cut hback hitems' fun hy => hnodup.2.2 y hy y List.mem_cons_self rfl,
            List.concat_eq_append, List.append_assoc]
      · have hkept : (l.remove x).index = some i := by
          rw [← hindex]
          refine if_neg ?_
          rw [hindex]
          exact fun heq => hix (Option.some.inj heq)
        have hpos : (i != x) = true := by simpa using hix
        rw [List.filter_cons_of_pos (p := (· != x)) hpos] at hitems'
        rw [turns_cut hkept hitems' fun hmem => hbefore (List.mem_of_mem_filter hmem),
          List.filter_cons_of_pos (p := (· != x)) hpos, List.filter_nil]

/-- A new item comes in between. -/
theorem turns_atEnd (h : l.Sound) (hx : x ∉ l.items) :
    l.turns.Sublist { l with items := l.atEnd x : Circular τ }.turns := by
  cases hindex : l.index with
  | none => simp [turns, hindex, atEnd]
  | some i =>
      obtain ⟨before, after, hitems, hbefore, -, htake, hdrop⟩ :=
        exists_cut h.nodup (h.index i hindex)
      have hatEnd : l.atEnd x = (before ++ [x]) ++ i :: after := by
        simp only [atEnd, hindex, htake, hdrop, List.append_assoc, List.singleton_append]
      have hfirst : i ∉ before ++ [x] := by
        have hix : i ≠ x := ne_of_mem_of_not_mem (h.index i hindex) hx
        simp [hbefore, hix]
      rw [turns_cut hindex hitems hbefore,
        turns_cut (l := ⟨l.atEnd x, some i⟩) rfl hatEnd hfirst]
      simp

/-- The first in turn was not chosen last, and now comes last. -/
theorem turn_taken (h : l.Sound) {a b : τ}
    (hne : a ≠ b) (hturns : l.turns = a :: rest) (hb : b ∈ l.items) :
    ¬ [b, a].Sublist l.turns ∧ [b, a].Sublist l.advance.turns := by
  have hnodup : (a :: rest).Nodup := hturns ▸ (h.turns_perm.nodup_iff.mpr h.nodup)
  have hrest : b ∈ rest := by
    have hmem := h.turns_perm.mem_iff.mpr hb
    rw [hturns, List.mem_cons] at hmem
    exact hmem.resolve_left hne.symm
  constructor
  · rw [hturns]
    intro hsub
    cases hsub with
    | cons _ hsub => exact (List.nodup_cons.mp hnodup).1 (hsub.mem (by simp))
    | cons_cons _ _ => exact hne rfl
  · rw [h.turns_advance hturns]
    exact (List.singleton_sublist.mpr hrest).append (List.Sublist.refl [a])

/-- The order of two others when the first in turn is chosen. -/
theorem turn_other (h : l.Sound) {a b w : τ}
    (hturns : l.turns = w :: rest) (hne : a ≠ w) (horder : [a, b].Sublist l.turns) :
    [a, b].Sublist l.advance.turns := by
  rw [h.turns_advance hturns]
  rw [hturns] at horder
  cases horder with
  | cons _ hsub => exact hsub.trans (List.sublist_append_left rest [w])
  | cons_cons _ _ => exact absurd rfl hne

theorem advance (h : l.Sound) : l.advance.Sound := by
  refine ⟨h.nodup, fun i hi => ?_⟩
  have hmem : i ∈ l.items := mem_of_next hi
  exact hmem

theorem remove (h : l.Sound) (x : τ) : (l.remove x).Sound := by
  refine ⟨h.nodup.erase x, fun i hi => ?_⟩
  have hmem : i ∈ (l.remove x).turns := by
    rw [turns, hi]
    simp
  rw [h.turns_remove] at hmem
  rw [h.items_remove]
  obtain ⟨hmem, hne⟩ := List.mem_filter.mp hmem
  exact List.mem_filter.mpr ⟨h.turns_perm.mem_iff.mp hmem, hne⟩

omit [DecidableEq τ] in
theorem put (h : l.Sound) (hx : x ∉ l.items) {items : List τ} (hperm : items.Perm (x :: l.items)) :
    Sound { l with items } := by
  refine ⟨hperm.nodup_iff.mpr (List.nodup_cons.mpr ⟨hx, h.nodup⟩), fun i hi => ?_⟩
  exact hperm.mem_iff.mpr (List.mem_cons_of_mem _ (h.index i hi))

end Sound

end Circular

/-! ## Changes to a shelf -/

namespace Shelf

variable [DecidableEq ι]

/-- Items of `W` are taken out and free items are put in, at the end of the lists of `R`. -/
inductive Edits (W : τ → Prop) (R : ι → Prop) : Shelf ι τ → Shelf ι τ → Prop
  | refl (S : Shelf ι τ) : Edits W R S S
  | take (S : Shelf ι τ) {x : τ} (hx : W x) : Edits W R S (S.remove x)
  | putEnd (n : ι) {S : Shelf ι τ} {x : τ} (hfree : S.container x = none) :
    Edits W R S (S.putEnd n x)
  | put {S : Shelf ι τ} {n : ι} {x : τ} {items : List τ} (hfree : S.container x = none)
      (hperm : items.Perm (x :: (S.list n).items)) (hn : ¬ R n) : Edits W R S (S.put n x items)
  | trans {S S' S'' : Shelf ι τ} (hfirst : Edits W R S S') (hsecond : Edits W R S' S'') :
    Edits W R S S''

/-- Every index is at an item of its list. -/
structure Walkable (S : Shelf ι τ) : Prop where
  sound : S.Sound
  lists : ∀ n, (S.list n).Sound

variable {W : τ → Prop} {R : ι → Prop} {S S' : Shelf ι τ} {n : ι} {x : τ}

namespace Walkable

theorem put (h : S.Walkable) (hfree : S.container x = none) {items : List τ}
    (hperm : items.Perm (x :: (S.list n).items)) :
    (S.put n x items).Walkable := by
  refine ⟨h.sound.put hfree hperm, fun m => ?_⟩
  by_cases hm : m = n
  · subst hm
    have hfresh : x ∉ (S.list m).items := by
      rw [h.sound.mem, hfree]
      simp
    simpa [Shelf.put] using (h.lists m).put hfresh hperm
  · simpa [Shelf.put, hm] using h.lists m

theorem remove (h : S.Walkable) (x : τ) : (S.remove x).Walkable := by
  refine ⟨h.sound.remove x, fun m => ?_⟩
  unfold Shelf.remove
  split
  · exact h.lists m
  next n _ =>
    by_cases hm : m = n
    · subst hm
      simpa using (h.lists m).remove x
    · simpa [hm] using h.lists m

theorem advance (h : S.Walkable) (n : ι) : (S.advance n).Walkable := by
  refine ⟨h.sound.advance n, fun m => ?_⟩
  by_cases hm : m = n
  · subst hm
    simpa [Shelf.advance] using (h.lists m).advance
  · simpa [Shelf.advance, hm] using h.lists m

theorem edits (h : S.Walkable) (hedits : Edits W R S S') : S'.Walkable := by
  induction hedits with
  | refl => exact h
  | take => exact h.remove _
  | putEnd n hfree => exact h.put hfree (Circular.atEnd_perm _ _)
  | put hfree hperm _ => exact h.put hfree hperm
  | trans _ _ ihfirst ihsecond => exact ihsecond (ihfirst h)

end Walkable

/-- Two items that are not taken out keep their order. -/
theorem Edits.order (hedits : Edits W R S S') (h : S.Walkable) (hn : R n) {a b : τ}
    (ha : ¬ W a) (hb : ¬ W b) (horder : [a, b].Sublist (S.list n).turns) :
    [a, b].Sublist (S'.list n).turns := by
  -- an edit of another item keeps the order of the two, seen from the index
  induction hedits with
  | refl => exact horder
  | @take S x hx =>
      have hax : a ≠ x := fun heq => ha (heq ▸ hx)
      have hbx : b ≠ x := fun heq => hb (heq ▸ hx)
      unfold Shelf.remove
      split
      · exact horder
      next m _ =>
        by_cases hm : n = m
        · subst hm
          simp only [Function.update_self, (h.lists n).turns_remove]
          have hfilter := horder.filter (· != x)
          rwa [List.filter_eq_self.mpr (by simp [hax, hbx])] at hfilter
        · simpa [hm] using horder
  | @putEnd m S x hfree =>
      by_cases hm : n = m
      · subst hm
        have hfresh : x ∉ (S.list n).items := by
          rw [h.sound.mem, hfree]
          simp
        simpa [Shelf.putEnd, Shelf.put] using horder.trans ((h.lists n).turns_atEnd hfresh)
      · simpa [Shelf.putEnd, Shelf.put, hm] using horder
  | @put S m x items hfree hperm hm =>
      have hne : n ≠ m := fun heq => hm (heq ▸ hn)
      simpa [Shelf.put, hne] using horder
  | trans hfirst _ ihfirst ihsecond => exact ihsecond (h.edits hfirst) (ihfirst h horder)

end Shelf

end SimulatedLinux.Lib
