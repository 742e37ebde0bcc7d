import Mathlib.Data.List.Perm.Subperm
import SimulatedLinux.Thread.Turn

/-! # Looking up a thread

The address of a control block is not a key: the idle task frees the blocks of exited
threads whose nodes are still listed. A task finds its own thread because its node was
put before every older node with the same address.
-/

namespace SimulatedLinux.Thread

open Kernel Heap

variable {α : Type}

namespace Sys.Inv

variable {s : Sys α} {base : Nat → Option Nat} {low high : Nat} {nodes : List ThreadId}
  {i : ThreadId} {u : TaskId} (hinv : s.Inv base low high nodes)
include hinv

theorem made_of_mem (hi : i ∈ nodes) : s.Made i := by
  by_contra hnot
  exact ((hinv.threads i).fresh hnot).2.2.2.2.2 hi

theorem live_of_mem (hi : i ∈ nodes) : s.live i :=
  ((hinv.threads i).life (hinv.made_of_mem hi)).live_of_listed (by simpa [life] using hi)

theorem length_le : nodes.length ≤ s.nextThread := by
  have hsub : nodes ⊆ List.range s.nextThread := fun i hi =>
    List.mem_range.mpr (hinv.made_of_mem hi).1
  have hle := (List.Nodup.subperm hinv.registry.chain.nodup hsub).length_le
  simpa using hle

/-- What `find_thread` returns. -/
theorem findThread_eq (xTask : Nat) :
    s.findThread xTask = .ok (nodes.find? fun h => (s.desc h).xTask = xTask) :=
  hinv.registry.chain.search_eq (fun _ hi => hinv.live_of_mem hi) hinv.length_le

theorem findThread_none {xTask : Nat} :
    s.findThread xTask = .ok none ↔ ∀ i ∈ nodes, (s.desc i).xTask ≠ xTask := by
  rw [hinv.findThread_eq]
  simp

/-- A task whose memory has not been freed finds its own thread. -/
theorem findThread_own (hi : i ∈ nodes) (htask : (s.past i).task = some u)
    (hlive : (s.info u).tcbLive) : s.findThread (s.info u).tcb = .ok (some i) := by
  obtain ⟨before, after, rfl⟩ := List.append_of_mem hi
  have hxTask : (s.desc i).xTask = (s.info u).tcb := by
    obtain ⟨u', hu', hxTask⟩ := (hinv.threads i).task (hinv.made_of_mem hi)
    obtain rfl : u' = u := Option.some.inj (hu'.symm.trans htask)
    exact hxTask
  have hbefore : ∀ newer ∈ before, (s.desc newer).xTask ≠ (s.info u).tcb := by
    intro newer hnewer
    exact (List.pairwise_append.mp hinv.registry.order).2.2 newer hnewer i (by simp) u htask hlive
  rw [hinv.findThread_eq, List.find?_append]
  have hnone : before.find? (fun h => (s.desc h).xTask = (s.info u).tcb) = none := by
    simpa using hbefore
  simp [hnone, hxTask]

/-- The task of a thread exists until the idle task has freed it. -/
theorem tcbLive_of_task (htask : (s.past i).task = some u) (halive : s.pc u ≠ .dead) :
    (s.info u).tcbLive := by
  have hparam : (s.info u).param = some i := (hinv.roles.tasks i u).mp htask
  refine (hinv.tasks.tcb u).mpr ⟨?_, ?_, .inl halive⟩
  · by_contra hge
    simp [(hinv.tasks.unborn u (Nat.le_of_not_lt hge)).2] at hparam
  · rintro rfl
    simp [hinv.tasks.idle.2] at hparam

/-- Until `pthread_exit` has looked for it, a thread finds itself. -/
theorem findThread_self (hmade : s.Made i) (htask : (s.past i).task = some u)
    (hbody : s.body i = .running ∨ s.body i = .finding) :
    s.findThread (s.info u).tcb = .ok (some i) := by
  have hok := (hinv.threads i).life hmade
  have hlisted : i ∈ nodes := by
    have hne : (s.life nodes i).body ≠ .gave := by
      rcases hbody with hbody | hbody <;> simp [life, hbody]
    have hlisted := (hok.untaken (hok.not_taken hne)).1
    rcases hbody with hbody | hbody <;> simpa [life, hbody, Body.keepsNode] using hlisted
  have halive : s.pc u ≠ .dead := by
    intro hdead
    have hbodyOf : s.body i = bodyOf (s.pc u) (s.frame u) (s.past i).selfFreed := by
      simp [body, htask]
    rw [hdead] at hbodyOf
    rcases hbody with hbody | hbody <;> rw [hbodyOf] at hbody <;> simp only [bodyOf] at hbody <;>
      split at hbody <;> simp at hbody
  exact hinv.findThread_own hlisted htask (hinv.tcbLive_of_task htask halive)

end Sys.Inv

end SimulatedLinux.Thread
