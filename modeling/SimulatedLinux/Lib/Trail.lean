import Mathlib.Data.List.Basic
import Mathlib.Logic.Function.Basic

/-! # Trails

Nodes with one link each, followed from a start to a stop. The stop and the start need not be
different in kind from the nodes between them: both may be markers. A trail is cut at any of its
nodes, and its last link may be turned to another place.
-/

namespace SimulatedLinux.Lib

/-- Following `next` from `start` visits the nodes of the list, and then comes to `stop`. -/
def Trail {ι : Type*} (next : ι → ι) : ι → List ι → ι → Prop
  | start, [], stop => next start = stop
  | start, node :: rest, stop => next start = node ∧ Trail next node rest stop

namespace Trail

variable {ι : Type*} {next next' : ι → ι} {start stop node : ι} {nodes before after : List ι}

/-- The last node of a trail, which leads to its end. -/
def last (start : ι) (nodes : List ι) : ι := (start :: nodes).getLast (by simp)

@[simp] theorem last_nil : last start [] = start := rfl

@[simp] theorem last_cons : last start (node :: nodes) = last node nodes := by
  simp [last]

theorem last_mem : last start nodes ∈ start :: nodes := List.getLast_mem _

theorem append_iff : Trail next start (before ++ node :: after) stop ↔
    Trail next start before node ∧ Trail next node after stop := by
  induction before generalizing start with
  | nil => rfl
  | cons first before ih =>
      simp only [List.cons_append, Trail, ih, and_assoc]

/-- A trail that is entered from another place. -/
theorem restart {start' : ι} (h : Trail next start nodes stop) (hstart : next' start' = next start)
    (hnext : ∀ x ∈ nodes, next' x = next x) : Trail next' start' nodes stop := by
  induction nodes generalizing start start' with
  | nil => exact hstart.trans h
  | cons node rest ih =>
      refine ⟨hstart.trans h.1, ih h.2 (hnext node (by simp)) fun x hx => ?_⟩
      exact hnext x (List.mem_cons_of_mem _ hx)

theorem congr (h : Trail next start nodes stop) (hnext : ∀ x ∈ start :: nodes, next' x = next x) :
    Trail next' start nodes stop := by
  apply h.restart (hnext start (by simp))
  intro x hx
  exact hnext x (List.mem_cons_of_mem _ hx)

theorem next_last (h : Trail next start nodes stop) : next (last start nodes) = stop := by
  induction nodes generalizing start with
  | nil => exact h
  | cons node rest ih =>
      rw [last_cons]
      exact ih h.2

/-- A trail is cut behind its first nodes. -/
theorem cut (h : Trail next start (before ++ after) stop) :
    Trail next start before (next (last start before)) ∧
      Trail next (last start before) after stop := by
  induction before generalizing start with
  | nil => exact ⟨rfl, h⟩
  | cons node before ih =>
      rw [last_cons]
      obtain ⟨hfirst, hrest⟩ := h
      obtain ⟨hbefore, hafter⟩ := ih hrest
      exact ⟨⟨hfirst, hbefore⟩, hafter⟩

theorem join (h : Trail next start before node)
    (hafter : Trail next (last start before) after stop) :
    Trail next start (before ++ after) stop := by
  induction before generalizing start with
  | nil => exact hafter
  | cons first before ih =>
      rw [last_cons] at hafter
      exact ⟨h.1, ih h.2 hafter⟩

/-- The last link is turned to another place. -/
theorem redirect [DecidableEq ι] (h : Trail next start nodes stop) (hnodup : (start :: nodes).Nodup)
    (target : ι) :
    Trail (Function.update next (last start nodes) target) start nodes target := by
  -- only the last link of the trail is changed
  induction nodes generalizing start with
  | nil => exact Function.update_self ..
  | cons node rest ih =>
      obtain ⟨hstart, hrest⟩ := List.nodup_cons.mp hnodup
      rw [last_cons]
      have hne : start ≠ last node rest := by
        rintro rfl
        exact hstart last_mem
      refine ⟨?_, ih h.2 hrest⟩
      rw [Function.update_of_ne hne]
      exact h.1

end Trail

end SimulatedLinux.Lib
