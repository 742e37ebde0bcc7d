import Mathlib.Data.List.Nodup
import Mathlib.Logic.Function.Basic

/-! # Doubly linked lists

Places are linked by a `next` and a `prev` field. `Path` relates the two fields to the sequence of
places between two ends. A list that ends where it begins is a path from its end marker back to it.
-/

namespace SimulatedLinux.Lib

variable {π : Type*}

/-- From one place over a sequence of places to another, along `next` and back along `prev`. -/
inductive Path (next prev : π → π) : π → List π → π → Prop
  | nil {a b : π} (hnext : next a = b) (hprev : prev b = a) : Path next prev a [] b
  | cons {a b x : π} {xs : List π} (hnext : next a = x) (hprev : prev x = a)
    (htail : Path next prev x xs b) :
      Path next prev a (x :: xs) b

namespace Path

variable {next prev next' prev' : π → π} {a b x : π} {xs ys : List π}

/-- A path depends on the `next` fields of all but its last place, and on the `prev` fields of all
but its first. -/
theorem congr (h : Path next prev a xs b) (hnext : ∀ p ∈ a :: xs, next' p = next p)
    (hprev : ∀ p ∈ xs ++ [b], prev' p = prev p) : Path next' prev' a xs b := by
  induction h with
  | nil hn hp =>
      refine .nil ?_ ?_
      · rw [hnext _ List.mem_cons_self, hn]
      · rw [hprev _ (by simp), hp]
  | cons hn hp _ ih =>
      refine .cons ?_ ?_ (ih (fun p hmem => hnext p (List.mem_cons_of_mem _ hmem)) fun p hmem => ?_)
      · rw [hnext _ List.mem_cons_self, hn]
      · rw [hprev _ (by simp), hp]
      · exact hprev p (List.mem_cons_of_mem _ hmem)

theorem append_iff :
    Path next prev a (xs ++ x :: ys) b ↔ Path next prev a xs x ∧ Path next prev x ys b := by
  induction xs generalizing a with
  | nil =>
      constructor
      · intro h
        cases h with
        | cons hn hp htail => exact ⟨.nil hn hp, htail⟩
      · rintro ⟨hfirst, hrest⟩
        cases hfirst with
        | nil hn hp => exact .cons hn hp hrest
  | cons z zs ih =>
      constructor
      · intro h
        cases h with
        | cons hn hp htail =>
            obtain ⟨hfirst, hrest⟩ := ih.mp htail
            exact ⟨.cons hn hp hfirst, hrest⟩
      · rintro ⟨hfirst, hrest⟩
        cases hfirst with
        | cons hn hp htail => exact .cons hn hp (ih.mpr ⟨htail, hrest⟩)

/-- The first place after the start of a path. -/
theorem next_start (h : Path next prev a xs b) : next a = (xs ++ [b]).head (by simp) := by
  cases h with
  | nil hn => exact hn
  | cons hn => exact hn

/-- The last place before the end of a path. -/
theorem prev_end (h : Path next prev a xs b) : prev b = (a :: xs).getLast (by simp) := by
  induction h with
  | nil _ hp => exact hp
  | cons _ _ _ ih => rw [List.getLast_cons (by simp), ih]

/-- The two links at a cut of a path. -/
theorem links (h : Path next prev a (xs ++ ys) b) :
    next ((a :: xs).getLast (by simp)) = (ys ++ [b]).head (by simp) ∧
      prev ((ys ++ [b]).head (by simp)) = (a :: xs).getLast (by simp) := by
  have hstart {c : π} (hc : Path next prev c ys b) :
      next c = (ys ++ [b]).head (by simp) ∧ prev ((ys ++ [b]).head (by simp)) = c := by
    cases hc with
    | nil hn hp => exact ⟨hn, hp⟩
    | cons hn hp => exact ⟨hn, hp⟩
  rcases List.eq_nil_or_concat xs with rfl | ⟨zs, z, rfl⟩
  · exact hstart h
  · simp only [List.concat_eq_append, List.append_assoc, List.cons_append, List.nil_append] at h
    have hlast : (a :: zs.concat z).getLast (by simp) = z := by simp
    rw [hlast]
    exact hstart (append_iff.mp h).2

variable [DecidableEq π]

/-- A new place is linked in at the start. -/
theorem link_start (h : Path next prev a ys b) (hfresh : x ∉ a :: (ys ++ [b])) (hstart : a ∉ ys)
    (hnodup : (ys ++ [b]).Nodup) :
    Path (Function.update (Function.update next x (next a)) a x)
      (Function.update (Function.update prev x a) (next a) x) a (x :: ys) b := by
  simp only [List.mem_cons, List.mem_append, not_or, List.not_mem_nil, not_false_eq_true, and_true]
    at hfresh
  obtain ⟨hxa, hxs, hxb⟩ := hfresh
  have hxq : x ≠ next a := by
    rw [h.next_start]
    intro heq
    have hmem := List.head_mem (show ys ++ [b] ≠ [] by simp)
    rw [← heq] at hmem
    simp [hxs, hxb] at hmem
  refine .cons (Function.update_self ..) ?_ ?_
  · rw [Function.update_of_ne hxq, Function.update_self]
  · cases h with
    | nil hn hp =>
        refine .nil ?_ ?_
        · rw [Function.update_of_ne hxa, Function.update_self, hn]
        · rw [hn, Function.update_self]
    | @cons _ _ y ys hn hp htail =>
        refine .cons ?_ ?_ (htail.congr (fun r hr => ?_) fun r hr => ?_)
        · rw [Function.update_of_ne hxa, Function.update_self, hn]
        · rw [hn, Function.update_self]
        · rw [Function.update_of_ne (ne_of_mem_of_not_mem hr hstart),
            Function.update_of_ne (ne_of_mem_of_not_mem hr hxs)]
        · have hry : r ≠ next a := by
            rw [hn]
            exact ne_of_mem_of_not_mem hr (List.nodup_cons.mp hnodup).1
          have hrx : r ≠ x := by
            refine ne_of_mem_of_not_mem hr ?_
            simp only [List.mem_append, List.mem_singleton, not_or]
            exact ⟨fun hmem => hxs (List.mem_cons_of_mem _ hmem), hxb⟩
          rw [Function.update_of_ne hry, Function.update_of_ne hrx]

/-- A new place is linked in after the place `p`. -/
theorem link (h : Path next prev a (xs ++ ys) b) {p : π} (hp : p = (a :: xs).getLast (by simp))
    (hfresh : x ∉ a :: (xs ++ ys ++ [b])) (hfirst : (a :: (xs ++ ys)).Nodup)
    (hlast : (xs ++ ys ++ [b]).Nodup) :
    Path (Function.update (Function.update next x (next p)) p x)
      (Function.update (Function.update prev x p) (next p) x) a (xs ++ x :: ys) b := by
  rcases List.eq_nil_or_concat xs with rfl | ⟨zs, z, rfl⟩
  · obtain rfl : p = a := hp
    exact h.link_start hfresh (List.nodup_cons.mp hfirst).1 hlast
  · obtain rfl : p = z := by simpa using hp
    simp only [List.concat_eq_append, List.append_assoc, List.cons_append, List.nil_append]
      at h hfresh hfirst hlast ⊢
    obtain ⟨hbefore, hafter⟩ := append_iff.mp h
    have hnext : next p ∈ ys ++ [b] := by
      rw [hafter.next_start]
      exact List.head_mem _
    simp only [List.mem_cons, List.mem_append, not_or] at hfresh
    have htail := hafter.link_start (x := x) (by simp [hfresh])
      (List.nodup_cons.mp (List.nodup_append.mp (List.nodup_cons.mp hfirst).2).2.1).1
      (List.nodup_cons.mp (List.nodup_append.mp hlast).2.1).2
    refine append_iff.mpr ⟨hbefore.congr (fun r hr => ?_) fun r hr => ?_, htail⟩
    · have hrp : r ≠ p := by
        rintro rfl
        rw [← List.cons_append, List.nodup_append] at hfirst
        exact hfirst.2.2 r hr r List.mem_cons_self rfl
      have hrx : r ≠ x := by
        rintro rfl
        simp [hfresh] at hr
      rw [Function.update_of_ne hrp, Function.update_of_ne hrx]
    · have hrq : r ≠ next p := by
        rintro heq
        have hsplit : (zs ++ [p]) ++ (ys ++ [b]) = zs ++ p :: (ys ++ [b]) := by simp
        rw [← hsplit, List.nodup_append] at hlast
        exact hlast.2.2 r hr (next p) hnext heq
      have hrx : r ≠ x := by
        rintro rfl
        simp [hfresh] at hr
      rw [Function.update_of_ne hrq, Function.update_of_ne hrx]

/-- The place after the start is taken out. -/
theorem unlink_start (h : Path next prev a (x :: ys) b) (hstart : a ∉ ys)
    (hnodup : (ys ++ [b]).Nodup) :
    Path (Function.update next (prev x) (next x))
      (Function.update prev (next x) (prev x)) a ys b := by
  cases h with
  | cons hn hp htail =>
      rw [hp]
      cases htail with
      | nil hn' hp' =>
          refine .nil ?_ ?_
          · rw [Function.update_self, hn']
          · rw [hn', Function.update_self]
      | @cons _ _ y zs hn' hp' htail =>
          refine .cons ?_ ?_ (htail.congr (fun r hr => ?_) fun r hr => ?_)
          · rw [Function.update_self, hn']
          · rw [hn', Function.update_self]
          · rw [Function.update_of_ne (ne_of_mem_of_not_mem hr hstart)]
          · have hry : r ≠ next x := by
              rw [hn']
              exact ne_of_mem_of_not_mem hr (List.nodup_cons.mp hnodup).1
            rw [Function.update_of_ne hry]

/-- A place is taken out. -/
theorem unlink (h : Path next prev a (xs ++ x :: ys) b) (hfirst : (a :: (xs ++ x :: ys)).Nodup)
    (hlast : (xs ++ x :: ys ++ [b]).Nodup) :
    Path (Function.update next (prev x) (next x)) (Function.update prev (next x) (prev x)) a
      (xs ++ ys) b := by
  rcases List.eq_nil_or_concat xs with rfl | ⟨zs, z, rfl⟩
  · simp only [List.nil_append, List.nodup_cons, List.mem_cons, not_or] at h hfirst
    exact h.unlink_start hfirst.1.2 (List.nodup_cons.mp hlast).2
  · simp only [List.concat_eq_append, List.append_assoc, List.cons_append, List.nil_append]
      at h hfirst hlast ⊢
    obtain ⟨hbefore, hafter⟩ := append_iff.mp h
    have hprev : prev x = z := by
      cases hafter with
      | cons _ hp => exact hp
    have hnext : next x ∈ ys ++ [b] := by
      cases hafter with
      | cons _ _ htail =>
          rw [htail.next_start]
          exact List.head_mem _
    have hz := (List.nodup_append.mp (List.nodup_cons.mp hfirst).2).2.1
    simp only [List.nodup_cons, List.mem_cons, not_or] at hz
    have htail := hafter.unlink_start hz.1.2 (by
      have hend := (List.nodup_append.mp hlast).2.1
      simp only [List.nodup_cons] at hend
      exact hend.2.2)
    refine append_iff.mpr ⟨hbefore.congr (fun r hr => ?_) fun r hr => ?_, htail⟩
    · have hrz : r ≠ prev x := by
        rw [hprev]
        rintro rfl
        rw [← List.cons_append, List.nodup_append] at hfirst
        exact hfirst.2.2 r hr r List.mem_cons_self rfl
      rw [Function.update_of_ne hrz]
    · have hrq : r ≠ next x := by
        intro heq
        have hsplit : (zs ++ [z]) ++ (x :: (ys ++ [b])) = zs ++ z :: x :: (ys ++ [b]) := by simp
        rw [← hsplit, List.nodup_append] at hlast
        exact hlast.2.2 r hr (next x) (List.mem_cons_of_mem _ hnext) heq
      rw [Function.update_of_ne hrq]

end Path

/-! ## Circles -/

/-- The places of a list that leads from its end marker back to it. -/
structure Circle (next prev : π → π) (e : π) (items : List π) : Prop where
  path : Path next prev e items e
  nodup : (e :: items).Nodup

namespace Circle

variable {next prev next' prev' : π → π} {e x : π} {items xs ys : List π}

theorem nodup_end (h : Circle next prev e items) : (items ++ [e]).Nodup :=
  (List.perm_append_singleton e items).nodup_iff.mpr h.nodup

theorem congr (h : Circle next prev e items) (hnext : ∀ p ∈ e :: items, next' p = next p)
    (hprev : ∀ p ∈ e :: items, prev' p = prev p) : Circle next' prev' e items := by
  refine ⟨h.path.congr hnext fun p hp => hprev p ?_, h.nodup⟩
  exact (List.perm_append_singleton e items).mem_iff.mp hp

variable [DecidableEq π]

/-- A new place is linked in after the place `p`, which may be the end marker. -/
theorem link (h : Circle next prev e (xs ++ ys)) {p : π} (hp : p = (e :: xs).getLast (by simp))
    (hfresh : x ∉ e :: (xs ++ ys)) :
    Circle (Function.update (Function.update next x (next p)) p x)
      (Function.update (Function.update prev x p) (next p) x) e (xs ++ x :: ys) := by
  refine ⟨h.path.link hp ?_ h.nodup h.nodup_end, ?_⟩
  · simp only [List.mem_cons, List.mem_append, not_or] at hfresh ⊢
    exact ⟨hfresh.1, ⟨hfresh.2, hfresh.1, by simp⟩⟩
  · have hperm : (e :: (xs ++ x :: ys)).Perm (x :: e :: (xs ++ ys)) :=
      (List.perm_middle.cons e).trans (.swap ..)
    exact hperm.nodup_iff.mpr (List.nodup_cons.mpr ⟨hfresh, h.nodup⟩)

theorem unlink (h : Circle next prev e (xs ++ x :: ys)) :
    Circle (Function.update next (prev x) (next x)) (Function.update prev (next x) (prev x)) e
      (xs ++ ys) := by
  refine ⟨h.path.unlink h.nodup h.nodup_end, ?_⟩
  have hsub : (e :: (xs ++ ys)).Sublist (e :: (xs ++ x :: ys)) :=
    ((List.sublist_cons_self x ys).append_left xs).cons_cons e
  exact h.nodup.sublist hsub

end Circle

end SimulatedLinux.Lib
