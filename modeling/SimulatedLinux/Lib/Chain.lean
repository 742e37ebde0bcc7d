import Mathlib.Data.List.Basic
import Mathlib.Logic.Function.Basic

/-! # Singly linked lists

A list threaded through a `next` field of its nodes, with a head pointer. Nodes
may have been freed; a walk that comes to a freed node fails, and so does one that
does not end within its fuel. `Chain` relates such a list to the sequence of its
nodes, and the two walks are shown to search and to erase in that sequence.
-/

namespace SimulatedLinux.Lib

variable {ι : Type*}

/-- Following `next` from `head` visits the nodes of the list, and then ends. -/
inductive Chain (next : ι → Option ι) : Option ι → List ι → Prop
  | nil : Chain next none []
  | cons {node : ι} {rest : List ι} (tail : Chain next (next node) rest) :
      Chain next (some node) (node :: rest)

/-- How a walk fails. -/
inductive WalkFault (ι : Type*)
  | freed (node : ι)
  | endless
  deriving DecidableEq

namespace Chain

variable {next next' : ι → Option ι} {head : Option ι} {nodes nodes' : List ι}

theorem unique (hchain : Chain next head nodes) (hchain' : Chain next head nodes') :
    nodes = nodes' := by
  induction hchain generalizing nodes' with
  | nil =>
      cases hchain'
      rfl
  | cons _ ih =>
      cases hchain' with
      | cons htail => rw [ih htail]

theorem head_eq (hchain : Chain next head nodes) : head = nodes.head? := by
  cases hchain <;> rfl

theorem congr (hchain : Chain next head nodes) (hnext : ∀ node ∈ nodes, next' node = next node) :
    Chain next' head nodes := by
  induction hchain with
  | nil => exact .nil
  | @cons node rest _ ih =>
      refine .cons ?_
      rw [hnext node (by simp)]
      exact ih fun other hother => hnext other (List.mem_cons_of_mem _ hother)

/-- The nodes after a node are the ones reached from it. -/
theorem drop (hchain : Chain next head nodes) {before after : List ι} {node : ι}
    (hnodes : nodes = before ++ node :: after) : Chain next (next node) after := by
  induction hchain generalizing before with
  | nil => simp at hnodes
  | cons htail ih =>
      cases before with
      | nil =>
          simp only [List.nil_append, List.cons.injEq] at hnodes
          obtain ⟨rfl, rfl⟩ := hnodes
          exact htail
      | cons first before =>
          simp only [List.cons_append, List.cons.injEq] at hnodes
          exact ih hnodes.2

/-- A list that ends does not come to a node twice. -/
theorem nodup (hchain : Chain next head nodes) : nodes.Nodup := by
  induction hchain with
  | nil => exact List.nodup_nil
  | @cons node rest htail ih =>
      refine List.nodup_cons.mpr ⟨fun hmem => ?_, ih⟩
      obtain ⟨before, after, rfl⟩ := List.append_of_mem hmem
      have hshort := (htail.drop rfl).unique htail
      have hlength := congrArg List.length hshort
      simp only [List.length_append, List.length_cons] at hlength
      omega

variable [DecidableEq ι]

theorem push (hchain : Chain next head nodes) {node : ι} (hnew : node ∉ nodes) :
    Chain (Function.update next node head) (some node) (node :: nodes) := by
  refine .cons ?_
  rw [Function.update_self]
  refine hchain.congr fun other hother => Function.update_of_ne ?_ _ _
  rintro rfl
  exact hnew hother

end Chain

/-! ## Searching -/

/-- The first node that satisfies `p`. -/
def search (live p : ι → Bool) (next : ι → Option ι) :
    Nat → Option ι → Except (WalkFault ι) (Option ι)
  | _, none => .ok none
  | 0, some _ => .error .endless
  | fuel + 1, some node =>
      if live node then
        if p node then .ok (some node) else search live p next fuel (next node)
      else .error (.freed node)

theorem Chain.search_eq {live p : ι → Bool} {next : ι → Option ι} {head : Option ι} {nodes : List ι}
    (hchain : Chain next head nodes) (hlive : ∀ node ∈ nodes, live node) {fuel : Nat}
    (hfuel : nodes.length ≤ fuel) :
    search live p next fuel head = .ok (nodes.find? p) := by
  -- on the chain, which is acyclic, so that the length bounds the search
  induction hchain generalizing fuel with
  | nil => cases fuel <;> rfl
  | @cons node rest _ ih =>
      cases fuel with
      | zero => simp at hfuel
      | succ fuel =>
          have hnode : live node := hlive node (by simp)
          have hrest := ih (fun other hother => hlive other (List.mem_cons_of_mem _ hother))
            (Nat.le_of_succ_le_succ hfuel)
          cases hp : p node with
          | true => simp [search, hnode, hp]
          | false => simp [search, hnode, hp, hrest]

/-! ## Unlinking -/

variable [DecidableEq ι]

/-- The link that led to a node: the head pointer, or the `next` field of the node
before it. -/
def setLink (head : Option ι) (next : ι → Option ι) (prev : Option ι) (link : Option ι) :
    Option ι × (ι → Option ι) :=
  match prev with
  | none => (link, next)
  | some node => (head, Function.update next node link)

/-- Walk to `target` and make the link that led to it skip it. -/
def unlink (live : ι → Bool) (target : ι) (head : Option ι) (next : ι → Option ι) :
    Nat → Option ι → Option ι → Except (WalkFault ι) (Option ι × (ι → Option ι))
  | _, _, none => .ok (head, next)
  | 0, _, some _ => .error .endless
  | fuel + 1, prev, some node =>
      if live node then
        if node = target then .ok (setLink head next prev (next target))
        else unlink live target head next fuel (some node) (next node)
      else .error (.freed node)

namespace Chain

variable {live : ι → Bool} {next : ι → Option ι} {head : Option ι} {target : ι}

theorem unlink_walk {curr : Option ι} {rest : List ι} (hrest : Chain next curr rest)
    (hlive : ∀ node ∈ rest, live node) {fuel : Nat} (hfuel : rest.length ≤ fuel)
    (prev : Option ι) {before after : List ι} (hsplit : rest = before ++ target :: after)
    (hfirst : target ∉ before) :
    unlink live target head next fuel prev curr =
      .ok (setLink head next (before.getLast?.or prev) (next target)) := by
  -- the nodes that the walk has passed are in `before`
  induction hrest generalizing fuel prev before with
  | nil => simp at hsplit
  | @cons node rest _ ih =>
      cases fuel with
      | zero => simp at hfuel
      | succ fuel =>
          have hnode : live node := hlive node (by simp)
          cases before with
          | nil =>
              simp only [List.nil_append, List.cons.injEq] at hsplit
              obtain ⟨rfl, -⟩ := hsplit
              simp [unlink, hnode]
          | cons first before =>
              simp only [List.cons_append, List.cons.injEq] at hsplit
              obtain ⟨rfl, hsplit⟩ := hsplit
              simp only [List.mem_cons, not_or] at hfirst
              have hnext := ih (fun other hother => hlive other (List.mem_cons_of_mem _ hother))
                (Nat.le_of_succ_le_succ hfuel) (some node) hsplit hfirst.2
              simp only [unlink, hnode, if_true, if_neg (Ne.symm hfirst.1), hnext]
              cases before with
              | nil => rfl
              | cons second before => simp [List.getLast?_cons]

/-- The link of a node of the chain is made to skip the next one. -/
theorem relink {nodes : List ι} (hchain : Chain next head nodes) {before after : List ι} {node : ι}
    (hsplit : nodes = before ++ node :: target :: after) :
    Chain (Function.update next node (next target)) head (before ++ node :: after) := by
  have hnodup := hchain.nodup
  induction hchain generalizing before with
  | nil => simp at hsplit
  | @cons first rest htail ih =>
      cases before with
      | nil =>
          simp only [List.nil_append, List.cons.injEq] at hsplit
          obtain ⟨rfl, rfl⟩ := hsplit
          refine .cons ?_
          rw [Function.update_self]
          have hafter : Chain next (next target) after :=
            htail.drop (show target :: after = [] ++ target :: after from rfl)
          refine hafter.congr fun other hother => Function.update_of_ne ?_ _ _
          rintro rfl
          simp [hother] at hnodup
      | cons other before =>
          simp only [List.cons_append, List.cons.injEq] at hsplit
          obtain ⟨rfl, rfl⟩ := hsplit
          have hne : first ≠ node := by
            rintro rfl
            simp at hnodup
          refine .cons ?_
          rw [Function.update_of_ne hne]
          exact ih rfl (List.nodup_cons.mp hnodup).2

/-- Unlinking a node of the list erases it from the sequence of nodes. -/
theorem unlink_eq {nodes : List ι} (hchain : Chain next head nodes)
    (hlive : ∀ node ∈ nodes, live node) {fuel : Nat} (hfuel : nodes.length ≤ fuel)
    (hmem : target ∈ nodes) :
    ∃ head' next', unlink live target head next fuel none head = .ok (head', next') ∧
      Chain next' head' (nodes.erase target) := by
  obtain ⟨before, after, rfl⟩ := List.append_of_mem hmem
  have hnodup := hchain.nodup
  have hfirst : target ∉ before := by
    intro hbefore
    exact (List.nodup_append.mp hnodup).2.2 target hbefore target (by simp) rfl
  have herase : (before ++ target :: after).erase target = before ++ after := by
    rw [List.erase_append_right _ hfirst, List.erase_cons_head]
  refine ⟨_, _, hchain.unlink_walk hlive hfuel none rfl hfirst, ?_⟩
  rw [herase]
  rcases List.eq_nil_or_concat before with rfl | ⟨init, last, rfl⟩
  · exact hchain.drop rfl
  · have hrelink : Chain (Function.update next last (next target)) head (init ++ last :: after) :=
      hchain.relink (by simp)
    simpa [setLink] using hrelink

end Chain

end SimulatedLinux.Lib
