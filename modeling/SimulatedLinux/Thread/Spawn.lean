import SimulatedLinux.Thread.Links

/-! # Tasks are created

The last step of `xTaskCreate`: the kernel adds the task, and the stack and the control
block become its own.
-/

namespace SimulatedLinux.Thread

open Kernel Heap

variable {α : Type}

/-- Between these points a task creates another one. -/
structure Pc.Spawns (α : Type) (old new : Pc) (pxStack pxNewTCB : Nat) : Prop where
  creates : new.creates = old.creates
  joins : new.joins = old.joins
  detaches : new.detaches = old.detaches
  own : new.own = none
  passes : new.passes = none
  reads : new.reads = none
  inWindow : new.inWindow = old.inWindow
  alive : old ≠ .dead
  alive' : new ≠ .dead
  frees : new.frees = none
  idles : old.idles = false
  memory : old.memory = (some pxStack, some pxNewTCB)
  memory' : new.memory = (none, none)
  untaken : ∀ i retval, new ≠ .join i retval .taken
  maker : ∀ i q, old ≠ .create i (.joinSem q)
  body : ∀ freed, bodyOf new (none : Option (Frame α)) freed = .running ∧
    bodyOf old (none : Option (Frame α)) freed = .running

namespace Sys

variable {s s' : Sys α} {t n : TaskId} {nodes : List ThreadId} {i : ThreadId}
  {base : Nat → Option Nat} {low high : Nat} {old new : Pc} {k : State α} {param : Option ThreadId}
  {pxStack pxNewTCB : Nat}

theorem newInfo_app (g : Pc → Option Nat) (hwrapper : ∀ i, g (.wrapper i) = none)
    (happ : g .app = none) :
    g (newInfo pxStack pxNewTCB param).pc = none := by
  cases param with
  | none => exact happ
  | some i => exact hwrapper i

/-- What a step that creates the task `n` does to the records of the shim. -/
structure Spawned (s s' : Sys α) (t n : TaskId) (param : Option ThreadId) (pxStack pxNewTCB : Nat) :
    Prop where
  born : s'.info n = newInfo pxStack pxNewTCB param
  creator : s'.info t = { s.info t with pc := s'.pc t, ret := (s'.info t).ret }
  info : ∀ u, u ≠ t → u ≠ n → s'.info u = s.info u
  desc : ∀ i, param ≠ some i → s'.desc i = s.desc i
  newDesc : ∀ i, param = some i → s'.desc i = { s.desc i with xTask := pxNewTCB }
  past : ∀ i, param ≠ some i → s'.past i = s.past i
  newPast : ∀ i, param = some i → s'.past i = { s.past i with task := some n }
  rest : s' = { s with kern := s'.kern, info := s'.info, desc := s'.desc, past := s'.past }

namespace Spawned

variable (hspawned : Spawned s s' t n param pxStack pxNewTCB)
include hspawned

theorem pc_ne {u : TaskId} (hu : u ≠ t) (hn : u ≠ n) : s'.pc u = s.pc u :=
  congrArg Info.pc (hspawned.info u hu hn)

theorem joinSem (i : ThreadId) : (s'.desc i).joinSem = (s.desc i).joinSem := by
  by_cases hi : param = some i
  · rw [hspawned.newDesc i hi]
  · rw [hspawned.desc i hi]

/-- A property of the program points that the new task does not have. -/
theorem pc_map (hold : s.pc t = old) (hnew : s'.pc t = new) (hnt : t ≠ n) (happ : s.pc n = .app)
    (g : Pc → Option Nat) (hwrapper : ∀ i, g (.wrapper i) = none) (hnone : g .app = none)
    (ht : g new = g old) : (fun u => g (s'.pc u)) = fun u => g (s.pc u) := by
  funext u
  by_cases hn : u = n
  · subst hn
    rw [pc, hspawned.born, newInfo_app g hwrapper hnone, happ, hnone]
  · by_cases hu : u = t
    · rw [hu, hnew, hold, ht]
    · rw [hspawned.pc_ne hu hn]

theorem past_map {β : Type} (g : Past → β) (htask : ∀ P task, g { P with task := task } = g P) :
    (fun i => g (s'.past i)) = fun i => g (s.past i) := by
  funext i
  by_cases hi : param = some i
  · rw [hspawned.newPast i hi, htask]
  · rw [hspawned.past i hi]

end Spawned

namespace Turn

variable (hturn : Turn base low high s t nodes)
  (hspawned : Spawned s s' t s.kern.nextTask param pxStack pxNewTCB)
  (hview : s'.kern.view = s.kern.view.addTask)
  (hold : s.pc t = old) (hnew : s'.pc t = new) (hpoints : Pc.Spawns α old new pxStack pxNewTCB)

include hturn in
theorem ne_next : t ≠ s.kern.nextTask := Nat.ne_of_lt hturn.born

include hturn in
theorem unbornFrame : s.frame s.kern.nextTask = none :=
  hturn.inv.core.kernel.wait.window.unspawned s.kern.nextTask (Nat.le_refl _)

include hview

theorem spawn_ret {u : TaskId} (hu : u ≠ s.kern.nextTask) :
    (s'.kern.task u).ret = (s.kern.task u).ret := by
  have hret : s'.kern.view.ret = Function.update s.kern.view.ret s.kern.nextTask none := by
    rw [hview]
    rfl
  have hsame : (s'.kern.task u).ret = s'.kern.view.ret u := rfl
  rw [hsame, hret]
  exact Function.update_of_ne hu ..

include hturn

theorem spawn_frame (u : TaskId) : s'.frame u = s.frame u := by
  have hframe : s'.kern.view.frame = Function.update s.kern.view.frame s.kern.nextTask none := by
    rw [hview]
    rfl
  have hsame : s'.frame u = s'.kern.view.frame u := rfl
  rw [hsame, hframe]
  by_cases hu : u = s.kern.nextTask
  · subst hu
    rw [hturn.unbornFrame, Function.update_self]
  · exact Function.update_of_ne hu ..

include hspawned hold hnew hpoints
omit hview

theorem spawn_roles (htask : ∀ i, param = some i → (s.past i).task = none) : s'.Roles := by
  obtain ⟨hunborn, hparam⟩ := hturn.inv.tasks.unborn s.kern.nextTask (Nat.le_refl _)
  have hroles := hturn.inv.roles
  have htn := hturn.ne_next
  have hparamT : (s'.info t).param = (s.info t).param := by rw [hspawned.creator]
  refine ⟨?_, ?_, ?_, ?_, fun u i hu => ?_, fun u value hu => ?_⟩
  · rw [hspawned.pc_map hold hnew htn hunborn Pc.creates (fun _ => rfl) rfl hpoints.creates,
      hspawned.past_map Past.creator fun _ _ => rfl]
    exact hroles.creates
  · rw [hspawned.pc_map hold hnew htn hunborn Pc.joins (fun _ => rfl) rfl hpoints.joins,
      hspawned.past_map (fun P => P.use.joiner) fun _ _ => rfl]
    exact hroles.joins
  · rw [hspawned.pc_map hold hnew htn hunborn Pc.detaches (fun _ => rfl) rfl hpoints.detaches,
      hspawned.past_map (fun P => P.use.detacher) fun _ _ => rfl]
    exact hroles.detaches
  · have hparams : (fun u => (s'.info u).param) =
        Function.update (fun u => (s.info u).param) s.kern.nextTask param := by
      funext u
      by_cases hn : u = s.kern.nextTask
      · subst hn
        rw [hspawned.born, Function.update_self]
        rfl
      · rw [Function.update_of_ne hn]
        by_cases hu : u = t
        · rw [hu, hparamT]
        · rw [hspawned.info u hu hn]
    rw [hparams]
    cases param with
    | none =>
        have hsame : Function.update (fun u => (s.info u).param) s.kern.nextTask none =
            fun u => (s.info u).param := by
          rw [← hparam]
          exact Function.update_eq_self ..
        rw [hsame, show (fun i => (s'.past i).task) = fun i => (s.past i).task from
          funext fun i => by rw [hspawned.past i (by simp)]]
        exact hroles.tasks
    | some i =>
        have hpasts : (fun i => (s'.past i).task) =
            Function.update (fun i => (s.past i).task) i (some s.kern.nextTask) := by
          funext i'
          by_cases hi : i' = i
          · subst hi
            rw [hspawned.newPast i' rfl, Function.update_self]
          · rw [Function.update_of_ne hi, hspawned.past i' (by simpa using Ne.symm hi)]
        rw [hpasts]
        exact hroles.tasks.link (htask i rfl) hparam
  · by_cases hn : u = s.kern.nextTask
    · subst hn
      rw [hspawned.born]
      rw [pc, hspawned.born] at hu
      cases param with
      | none => simp [newInfo, Pc.own] at hu
      | some i' => exact hu
    · by_cases hut : u = t
      · rw [hut, hnew, hpoints.own] at hu
        simp at hu
      · rw [hspawned.pc_ne hut hn] at hu
        rw [hspawned.info u hut hn]
        exact hroles.own u i hu
  · by_cases hn : u = s.kern.nextTask
    · subst hn
      rw [pc, hspawned.born, newInfo_app Pc.passes (fun _ => rfl) rfl] at hu
      simp at hu
    · by_cases hut : u = t
      · rw [hut, hnew, hpoints.passes] at hu
        simp at hu
      · rw [hspawned.pc_ne hut hn] at hu
        rw [hspawned.info u hut hn]
        exact hroles.passes u value hu

include hview

theorem spawn_tasks : s'.Tasks := by
  obtain ⟨hunborn, hparam⟩ := hturn.inv.tasks.unborn s.kern.nextTask (Nat.le_refl _)
  have htasks := hturn.inv.tasks
  have hidle : t ≠ idleTask := hturn.not_idle hold hpoints.idles
  have hnIdle : idleTask ≠ s.kern.nextTask :=
    Nat.ne_of_lt (Nat.lt_of_le_of_lt (Nat.zero_le t) hturn.born)
  have hnext : s'.kern.view.nextTask = s.kern.nextTask + 1 := by
    rw [hview]
    rfl
  have hwait : s'.kern.view.xTasksWaitingTermination = s.kern.view.xTasksWaitingTermination := by
    rw [hview]
    rfl
  have hbornPc : s'.pc s.kern.nextTask ≠ .dead := by
    rw [pc, hspawned.born]
    cases param <;> simp [newInfo]
  -- no task ends in this step, and the new one is alive
  have hdead : ∀ u, s'.pc u = .dead ↔ s.pc u = .dead := by
    intro u
    by_cases hn : u = s.kern.nextTask
    · subst hn
      simp [hbornPc, hunborn]
    · by_cases hu : u = t
      · rw [hu, hnew, hold]
        simp [hpoints.alive, hpoints.alive']
      · rw [hspawned.pc_ne hu hn]
  have hidlePc : s'.pc idleTask = s.pc idleTask := hspawned.pc_ne (Ne.symm hidle) hnIdle
  have hlt : ∀ u, u ≠ s.kern.nextTask → (u < s.kern.nextTask + 1 ↔ u < s.kern.nextTask) := by
    intro u hu
    exact ⟨fun h => Nat.lt_of_le_of_ne (Nat.le_of_lt_succ h) hu, Nat.lt_succ_of_lt⟩
  have hlives : ∀ u, u ≠ s.kern.nextTask → (s'.info u).stackLive = (s.info u).stackLive ∧
      (s'.info u).tcbLive = (s.info u).tcbLive := by
    intro u hn
    by_cases hu : u = t
    · rw [hu, hspawned.creator]
      exact ⟨rfl, rfl⟩
    · rw [hspawned.info u hu hn]
      exact ⟨rfl, rfl⟩
  refine ⟨fun u hu => ?_, fun u hu => ?_, ?_, fun u w hu => ?_, fun u => ?_, fun u => ?_⟩
  · rw [hnext] at hu
    have hn : u ≠ s.kern.nextTask := Nat.ne_of_gt hu
    have hut : u ≠ t := Nat.ne_of_gt (Nat.lt_trans hturn.born hu)
    rw [hspawned.pc_ne hut hn, hspawned.info u hut hn]
    exact htasks.unborn u (Nat.le_of_succ_le hu)
  · rw [hwait] at hu
    exact (hdead u).mpr (htasks.waiting u hu)
  · rw [hidlePc, hspawned.info _ (Ne.symm hidle) hnIdle]
    exact htasks.idle
  · have hn : u ≠ s.kern.nextTask := by
      rintro rfl
      rw [pc, hspawned.born, newInfo_app Pc.frees (fun _ => rfl) rfl] at hu
      simp at hu
    have hut : u ≠ t := by
      rintro rfl
      rw [hnew, hpoints.frees] at hu
      simp at hu
    rw [hspawned.pc_ne hut hn] at hu
    obtain ⟨huIdle, hw, hwdead, hwait'⟩ := htasks.frees u w hu
    rw [hnext, hwait]
    exact ⟨huIdle, Nat.lt_succ_of_lt hw, (hdead w).mpr hwdead, hwait'⟩
  · rw [hnext, hwait, hidlePc, ne_eq (s'.pc u), hdead u]
    by_cases hn : u = s.kern.nextTask
    · subst hn
      rw [hspawned.born]
      simp [newInfo, hunborn, Ne.symm hnIdle]
    · rw [(hlives u hn).1, hlt u hn]
      exact htasks.stack u
  · rw [hnext, hwait, hidlePc, ne_eq (s'.pc u), hdead u]
    by_cases hn : u = s.kern.nextTask
    · subst hn
      rw [hspawned.born]
      simp [newInfo, hunborn, Ne.symm hnIdle]
    · rw [(hlives u hn).2, hlt u hn]
      exact htasks.tcb u

theorem spawn_sems : s'.Sems := by
  obtain ⟨hunborn, hparam⟩ := hturn.inv.tasks.unborn s.kern.nextTask (Nat.le_refl _)
  have hsems := hturn.inv.sems
  have hframe := hturn.spawn_frame hview
  have howner : s'.semOwner = s.semOwner := by rw [hspawned.rest]
  have hqueue : s'.kern.view.queue = s.kern.view.queue ∧
      s'.kern.view.nextQueue = s.kern.view.nextQueue := by
    rw [hview]
    exact ⟨rfl, rfl⟩
  refine ⟨fun u f hf => ?_, fun u i retval hu hnone => ?_, fun u i q hu => ?_, fun i q hq => ?_,
    fun i q hq => ?_, fun i q hq => ?_⟩
  · rw [hframe] at hf
    have hut : u ≠ t := by
      rintro rfl
      simp [hturn.frame] at hf
    have hn : u ≠ s.kern.nextTask := by
      rintro rfl
      simp [hturn.unbornFrame] at hf
    exact (hsems.calls u f hf).keep (hspawned.pc_ne hut hn) hspawned.joinSem
      (by rw [howner]; exact id)
  · have hn : u ≠ s.kern.nextTask := by
      rintro rfl
      rw [pc, hspawned.born] at hu
      cases param <;> simp [newInfo] at hu
    have hut : u ≠ t := by
      rintro rfl
      exact hpoints.untaken i retval (hnew.symm.trans hu)
    rw [hspawned.pc_ne hut hn] at hu
    rw [hframe] at hnone
    rw [spawn_ret hview hn]
    exact hsems.returned u i retval hu hnone
  · rw [hspawned.joinSem]
    have hn : u ≠ s.kern.nextTask := by
      rintro rfl
      rw [pc, hspawned.born] at hu
      cases param <;> simp [newInfo, Pc.reads] at hu
    have hut : u ≠ t := by
      rintro rfl
      simp [hnew, hpoints.reads] at hu
    rw [hspawned.pc_ne hut hn] at hu
    exact hsems.reads u i q hu
  · rw [howner]
    rw [hspawned.joinSem] at hq
    exact hsems.owner i q hq
  · rw [howner] at hq
    rw [hspawned.joinSem]
    rcases hsems.maker i q hq with hsem | ⟨c, hc⟩
    · exact .inl hsem
    · have hct : c ≠ t := by
        rintro rfl
        exact hpoints.maker i q (hold.symm.trans hc)
      have hn : c ≠ s.kern.nextTask := by
        rintro rfl
        simp [hunborn] at hc
      exact .inr ⟨c, (hspawned.pc_ne hct hn).trans hc⟩
  · rw [howner] at hq
    rw [hqueue.1, hqueue.2]
    exact hsems.binary i q hq

/-- A thread the new task is not made for. -/
theorem spawn_other (hsubject : ∀ i, old.subject = some i → param = some i)
    (hsubject' : ∀ i, new.subject = some i → param = some i) (hi : param ≠ some i) :
    s'.ThreadOk nodes i := by
  obtain ⟨hunborn, hparam⟩ := hturn.inv.tasks.unborn s.kern.nextTask (Nat.le_refl _)
  have hframe := hturn.spawn_frame hview
  refine (hturn.inv.threads i).keep hturn.inv.roles hturn.inv.sems
    (by rw [hspawned.rest]) (hspawned.past i hi) (by rw [hspawned.desc i hi]) Iff.rfl
    (fun q hq => ?_) (fun c pc hpc => ?_) (fun u htask => ?_) fun j hj => ?_
  · rw [hview]
    exact ⟨by rw [hspawned.rest]; exact hq, rfl⟩
  · by_cases hn : c = s.kern.nextTask
    · subst hn
      rw [hunborn, Sys.pc, hspawned.born]
      cases param <;> simp [newInfo]
    · by_cases hct : c = t
      · subst hct
        constructor <;> intro hcreate
        · exact absurd (hsubject' i (by rw [← hnew, hcreate, Pc.subject_of_create hpc])) hi
        · exact absurd (hsubject i (by rw [← hold, hcreate, Pc.subject_of_create hpc])) hi
      · rw [hspawned.pc_ne hct hn]
  · have hn : u ≠ s.kern.nextTask := by
      rintro rfl
      have hsome : (s.info s.kern.nextTask).param = some i := (hturn.inv.roles.tasks i _).mp htask
      simp [hparam] at hsome
    by_cases hut : u = t
    · subst hut
      refine ⟨by rw [hspawned.creator], by rw [hspawned.creator], ?_, fun hfreed => ?_,
        fun hnot => absurd (hturn.made_of_task htask) hnot⟩
      · rw [hnew, hold, hframe, hturn.frame, (hpoints.body _).1, (hpoints.body _).2]
      · have hends : s.pc u ≠ .exit .taskDelete := by
          intro hpc
          have hrunning := (hpoints.body false).2
          rw [← hold, hpc] at hrunning
          simp [bodyOf] at hrunning
        simp [hturn.not_freed hends (hold ▸ hpoints.alive) htask] at hfreed
    · have hpc := hspawned.pc_ne hut hn
      have hinfo := hspawned.info u hut hn
      exact ⟨by rw [hinfo], by rw [hinfo], by rw [hpc, hframe], fun _ => hpc,
        fun _ => ⟨hpc, hframe u⟩⟩
  · have hjoins : (s.pc j).joins = some i := (hturn.inv.roles.joins i j).mp hj
    have hn : j ≠ s.kern.nextTask := by
      rintro rfl
      simp [hunborn, Pc.joins] at hjoins
    have hjt : j ≠ t := by
      rintro rfl
      rw [hold] at hjoins
      exact hi (hsubject i (Pc.subject_of_joins hjoins))
    exact ⟨hspawned.pc_ne hjt hn, hframe j, spawn_ret hview hn⟩

omit hview in
/-- The stack and the control block pass to the new task. -/
theorem spawn_ledger (hqueue : s'.kern.view.queue = s.kern.view.queue) :
    Lib.Ledger base s'.heap.block s'.owned := by
  obtain ⟨hunborn, hparam⟩ := hturn.inv.tasks.unborn s.kern.nextTask (Nat.le_refl _)
  have hstackDead : (s.info s.kern.nextTask).stackLive = false := by
    refine Bool.eq_false_iff.mpr fun hlive => ?_
    exact Nat.lt_irrefl _ ((hturn.inv.tasks.stack _).mp hlive).1
  have htcbDead : (s.info s.kern.nextTask).tcbLive = false := by
    refine Bool.eq_false_iff.mpr fun hlive => ?_
    exact Nat.lt_irrefl _ ((hturn.inv.tasks.tcb _).mp hlive).1
  have hstack : s.owned (.newStack t) = some pxStack := by simp [owned, hold, hpoints.memory]
  have htcb : s.owned (.newTcb t) = some pxNewTCB := by simp [owned, hold, hpoints.memory]
  have hfirst : Lib.Ledger base s.heap.block (Function.update
      (Function.update s.owned (.newStack t) none) (.stack s.kern.nextTask) (some pxStack)) :=
    hturn.inv.ledger.pass hstack (by simp [owned, hstackDead])
  have hsecond : Lib.Ledger base s.heap.block (Function.update (Function.update (Function.update
      (Function.update s.owned (.newStack t) none) (.stack s.kern.nextTask) (some pxStack))
      (.newTcb t) none) (.tcb s.kern.nextTask) (some pxNewTCB)) :=
    hfirst.pass (by simp [htcb]) (by simp [owned, htcbDead])
  have hkept :
      ((s'.info t).stackLive = (s.info t).stackLive ∧ (s'.info t).pxStack = (s.info t).pxStack) ∧
      (s'.info t).tcbLive = (s.info t).tcbLive ∧ (s'.info t).tcb = (s.info t).tcb := by
    rw [hspawned.creator]
    exact ⟨⟨rfl, rfl⟩, rfl, rfl⟩
  have hheap : s'.heap = s.heap := by rw [hspawned.rest]
  rw [hheap]
  convert hsecond using 1
  funext o
  have hmem : ∀ c, c ≠ t → (s'.pc c).memory = (s.pc c).memory := by
    intro c hc
    by_cases hn : c = s.kern.nextTask
    · subst hn
      rw [hunborn, pc, hspawned.born]
      cases param <;> rfl
    · rw [hspawned.pc_ne hc hn]
  cases o with
  | desc i =>
      by_cases hi : param = some i
      · simp [owned, hspawned.newDesc i hi]
      · simp [owned, hspawned.desc i hi]
  | queue q =>
      have haddr : s'.queueAddr = s.queueAddr := by rw [hspawned.rest]
      simp [owned, hqueue, haddr]
  | stack u =>
      by_cases hn : u = s.kern.nextTask
      · subst hn
        simp [owned, hspawned.born, newInfo]
      · by_cases hu : u = t
        · subst hu
          simp [owned, hn, hkept]
        · simp [owned, hn, hspawned.info u hu hn]
  | tcb u =>
      by_cases hn : u = s.kern.nextTask
      · subst hn
        simp [owned, hspawned.born, newInfo]
      · by_cases hu : u = t
        · subst hu
          simp [owned, hn, hkept]
        · simp [owned, hn, hspawned.info u hu hn]
  | newStack c =>
      by_cases hc : c = t
      · subst hc
        simp [owned, hnew, hpoints.memory']
      · simp [owned, hc, hmem c hc]
  | newTcb c =>
      by_cases hc : c = t
      · subst hc
        simp [owned, hnew, hpoints.memory']
      · simp [owned, hc, hmem c hc]
  | block a =>
      have hblocks : s'.blocks = s.blocks := by rw [hspawned.rest]
      simp [owned, hblocks]

/-- A task is created. The thread it is made for is left to show. -/
theorem spawn (hcore : KernelInv s'.kern ∧ Calls s'.kern.view fun _ _ => True)
    (hcpu : s'.kern.cpu = (s.kern.cpu.1, t)) (htask : ∀ i, param = some i → (s.past i).task = none)
    (hnodes : ∀ i, param = some i → i ∉ nodes)
    (hsubject : ∀ i, old.subject = some i → param = some i)
    (hsubject' : ∀ i, new.subject = some i → param = some i)
    (hthread : ∀ i, param = some i → s'.Roles → s'.ThreadOk nodes i) :
    s'.Inv base low high nodes := by
  obtain ⟨hunborn, hparam⟩ := hturn.inv.tasks.unborn s.kern.nextTask (Nat.le_refl _)
  have hframe := hturn.spawn_frame hview
  have hroles := hturn.spawn_roles hspawned hold hnew hpoints htask
  have hregistry := hturn.inv.registry
  have hdesc : ∀ i ∈ nodes, s'.desc i = s.desc i := fun i hi => hspawned.desc i fun heq =>
    hnodes i heq hi
  have hpast : ∀ i ∈ nodes, s'.past i = s.past i := fun i hi => hspawned.past i fun heq =>
    hnodes i heq hi
  have htcb : ∀ u, u ≠ s.kern.nextTask → (s'.info u).tcb = (s.info u).tcb ∧
      (s'.info u).tcbLive = (s.info u).tcbLive ∧ (s'.info u).param = (s.info u).param := by
    intro u hn
    by_cases hu : u = t
    · rw [hu, hspawned.creator]
      exact ⟨rfl, rfl, rfl⟩
    · rw [hspawned.info u hu hn]
      exact ⟨rfl, rfl, rfl⟩
  have hnone : s'.kern.view.fault = none := by
    rw [hview]
    exact hturn.kernFault
  refine ⟨⟨hcore.1, hcore.2, fun c hc => ?_, fun hne => ?_, ?_, fun q hq => ?_⟩, hroles,
    hturn.spawn_tasks hspawned hview hold hnew hpoints,
    hturn.spawn_sems hspawned hview hold hnew hpoints,
    fun i => ?_, ⟨?_, ?_, fun u value hu huparam i hi => ?_⟩, ?_,
    hturn.spawn_ledger hspawned hold hnew hpoints (by rw [hview]; rfl)⟩
  · have hn : c ≠ s.kern.nextTask := by
      rintro rfl
      rw [pc, hspawned.born] at hc
      cases param <;> simp [newInfo, Pc.inWindow] at hc
    have hold' : (s.pc c).inWindow := by
      by_cases hct : c = t
      · rwa [hct, hold, ← hpoints.inWindow, ← hnew, ← hct]
      · rwa [hspawned.pc_ne hct hn] at hc
    obtain ⟨hwindow, hcframe⟩ := hturn.inv.core.window c hold'
    rw [hcpu, hframe, ← hturn.current]
    exact ⟨hwindow, hcframe⟩
  · rw [hcpu] at hne ⊢
    have hrunning := hturn.suspended
    refine .inl ?_
    rw [hnew, hpoints.inWindow, ← hold]
    by_contra hin
    rw [if_neg hin] at hrunning
    exact hne hrunning
  · rw [hspawned.rest]
    exact hturn.inv.core.fault
  · have hq' : s'.kern.view.fault = some (.useAfterFree q) := hq
    simp [hnone] at hq'
  · by_cases hi : param = some i
    · exact hthread i hi hroles
    · exact hturn.spawn_other hspawned hview hold hnew hpoints hsubject hsubject' hi
  · rw [show s'.gThreadList = s.gThreadList by rw [hspawned.rest]]
    exact hregistry.chain.congr fun i hi => by rw [Sys.next, hdesc i hi]; rfl
  -- the new task has an address of its own, but it is the task of no older thread
  · refine hregistry.order.imp_of_mem fun {newer older} hnewer holder horder u hu hlive => ?_
    rw [hpast older holder] at hu
    have hn : u ≠ s.kern.nextTask := by
      rintro rfl
      have hsome : (s.info s.kern.nextTask).param = some older :=
        (hturn.inv.roles.tasks older _).mp hu
      simp [hparam] at hsome
    rw [hdesc newer hnewer, (htcb u hn).1]
    exact horder u hu ((htcb u hn).2.1 ▸ hlive)
  · have hn : u ≠ s.kern.nextTask := by
      rintro rfl
      rw [pc, hspawned.born] at hu
      cases param <;> simp [newInfo] at hu
    have hut : u ≠ t := by
      rintro rfl
      have hpasses := hpoints.passes
      rw [← hnew, hu] at hpasses
      simp [Pc.passes] at hpasses
    rw [hspawned.pc_ne hut hn] at hu
    rw [(htcb u hn).2.2] at huparam
    rw [hdesc i hi, (htcb u hn).1]
    exact hregistry.untracked u value hu huparam i hi
  · rw [show s'.heap = s.heap by rw [hspawned.rest]]
    exact hturn.inv.sound

omit hspawned hview hold hnew hpoints

/-- What the kernel does when it does not refuse the priority. -/
theorem spawnCall {uxPriority : Nat} (hk : s.kern.step (.spawn t uxPriority) = some k)
    (hfault : k.fault = none) : (KernelInv k ∧ Calls k.view fun _ _ => True) ∧
      k.cpu = (s.kern.cpu.1, t) ∧ k.view = s.kern.view.addTask := by
  obtain ⟨hkernel, hcalls, hcpu, hstepped⟩ := hturn.kernelCall rfl (by simp) hk
  refine ⟨⟨hkernel, hcalls⟩, hcpu, ?_⟩
  generalize hv : k.view = v at hstepped
  have hnone : v.fault = none := by
    rw [← hv]
    exact hfault
  cases hstepped with
  | scheduled _ hact => simp [Act.schedules] at hact
  | asserted => simp at hnone
  | spawned => rfl

/-- A native task is created. -/
theorem taskStart {sizes : Sizes} {uxPriority : Nat}
    (hpc : s.pc t = .task (.start uxPriority pxStack pxNewTCB))
    (hstep : s.createTask sizes t none .task (fun s => s.returns t (.int 1))
      (.start uxPriority pxStack pxNewTCB) = some s') : s'.Inv base low high nodes := by
  simp only [createTask] at hstep
  obtain ⟨k, hk, ⟨hfault, hs'⟩ | ⟨hfault, rfl⟩⟩ := kernel_cases hstep
  · obtain ⟨hcore, hcpu, hview⟩ := hturn.spawnCall hk hfault
    have htn := hturn.ne_next
    have hkern : s'.kern = k := by rw [hs']; rfl
    have hnew : s'.pc t = .app := by rw [hs', pc_returns]
    have hspawned : Spawned s s' t s.kern.nextTask none pxStack pxNewTCB := by
      refine ⟨?_, ?_, fun u hu hn => ?_,
        fun _ _ => by rw [hs']; rfl, by simp, fun _ _ => by rw [hs']; rfl,
        by simp, by rw [hs']; rfl⟩
      · simp [hs', returns, modInfo, Ne.symm htn]
      · simp [hs', returns, modInfo, htn, pc]
      · simp [hs', returns, modInfo, hu, hn]
    have hpoints : Pc.Spawns α (.task (.start uxPriority pxStack pxNewTCB)) .app pxStack
        pxNewTCB := by
      constructor <;>
        simp [Pc.creates, Pc.joins, Pc.detaches, Pc.own, Pc.passes, Pc.reads, Pc.inWindow, Pc.frees,
          Pc.idles, Pc.memory, TaskPc.memory, bodyOf]
    exact hturn.spawn hspawned (by rw [hkern, hview]) hpc hnew hpoints (by rw [hkern]; exact hcore)
      (by rw [hkern]; exact hcpu) (by simp) (by simp) (by simp [Pc.subject])
      (by simp [Pc.subject]) (by simp)
  · exact hturn.kernelFault rfl (by simp) rfl (by simp) hk hfault

/-- The task of a thread is created. -/
theorem createTaskStart {sizes : Sizes} {uxPriority : Nat}
    (hpc : s.pc t = .create i (.task (.start uxPriority pxStack pxNewTCB)))
    (hstep : s.create sizes t i (.task (.start uxPriority pxStack pxNewTCB)) = some s') :
    s'.Inv base low high nodes := by
  obtain ⟨hbuilding, hborn, hnot⟩ := hturn.building hpc rfl
  obtain ⟨huse, hhandle, hselfFreed, hdescFrees, hsemFrees, hnode⟩ :=
    (hturn.inv.threads i).fresh hnot
  obtain ⟨q, hq, howner, hlive, hcount⟩ := hbuilding.hasSem rfl
  simp only [create, createTask] at hstep
  obtain ⟨k, hk, ⟨hfault, hs'⟩ | ⟨hfault, rfl⟩⟩ := kernel_cases hstep
  · obtain ⟨hcore, hcpu, hview⟩ := hturn.spawnCall hk hfault
    have htn := hturn.ne_next
    have hkern : s'.kern = k := by rw [hs']; rfl
    have hnew : s'.pc t = .create i .addThread := by rw [hs', pc_goto]
    have hdesc : s'.desc i = { s.desc i with xTask := pxNewTCB } := by
      simp [hs', goto, modInfo, modPast, modDesc, newInfo]
    have hpast : s'.past i = { s.past i with task := some s.kern.nextTask } := by
      simp [hs', goto, modInfo, modPast, modDesc]
    have hspawned : Spawned s s' t s.kern.nextTask (some i) pxStack pxNewTCB := by
      refine ⟨?_, ?_, fun u hu hn => ?_, fun i' hi' => ?_, ?_, fun i' hi' => ?_,
        ?_, by rw [hs']; rfl⟩
      · simp [hs', goto, modInfo, modPast, modDesc, Ne.symm htn]
      · simp [hs', goto, modInfo, modPast, modDesc, htn, pc]
      · simp [hs', goto, modInfo, modPast, modDesc, hu, hn]
      · have hne : i' ≠ i := fun heq => hi' (congrArg some heq.symm)
        simp [hs', goto, modInfo, modPast, modDesc, hne]
      · rintro i' ⟨⟩
        exact hdesc
      · have hne : i' ≠ i := fun heq => hi' (congrArg some heq.symm)
        simp [hs', goto, modInfo, modPast, modDesc, hne]
      · rintro i' ⟨⟩
        exact hpast
    have hview' : s'.kern.view = s.kern.view.addTask := by rw [hkern, hview]
    have hframe := hturn.spawn_frame hview'
    have hpoints : Pc.Spawns α (.create i (.task (.start uxPriority pxStack pxNewTCB)))
        (.create i .addThread) pxStack pxNewTCB := by
      constructor <;> simp [Pc.creates, CreatePc.added, Pc.joins, Pc.detaches, Pc.own, Pc.passes,
        Pc.reads, Pc.inWindow, CreatePc.inWindow, Pc.frees, Pc.idles, Pc.memory, TaskPc.memory,
        bodyOf]
    refine hturn.spawn hspawned hview' hpc hnew hpoints (by rw [hkern]; exact hcore)
      (by rw [hkern]; exact hcpu) ?_ ?_ (by simp [Pc.subject]) (by simp [Pc.subject]) ?_
    · rintro i' ⟨⟩
      exact hbuilding.noTask rfl
    · rintro i' ⟨⟩
      exact hnode
    · rintro i' ⟨⟩ hroles
      -- the thread is still being created: it has a task now, but no node in the list
      refine .ofBuilding hroles (by rw [hspawned.rest]; exact hborn) hnew rfl
        (by rw [hpast]; exact ⟨huse, hhandle, hselfFreed, hdescFrees, hsemFrees, hnode⟩)
        (fun c hc => ?_)
        ⟨by rw [hdesc]; exact hbuilding.live, by rw [hdesc]; exact hbuilding.joinable, by simp,
          fun _ => ⟨q, by rw [hdesc]; exact hq, by rw [hspawned.rest]; exact howner, ?_, ?_⟩,
          by simp [CreatePc.hasSem], fun _ => ⟨s.kern.nextTask, by rw [hpast], ?_, ?_, ?_⟩,
          by simp [CreatePc.hasTask]⟩
      · by_cases hn : c = s.kern.nextTask
        · subst hn
          rw [pc, hspawned.born] at hc
          simp [newInfo] at hc
        · by_cases hct : c = t
          · rw [hct, hnew] at hc
            simp at hc
          · rw [hspawned.pc_ne hct hn] at hc
            exact hnot ((hturn.inv.threads i).storing c hc)
      · rw [hview']
        exact hlive
      · rw [hview']
        exact hcount
      · rw [pc, hspawned.born]
        rfl
      · rw [hframe]
        exact hturn.unbornFrame
      · rw [hdesc, hspawned.born]
        rfl
  · exact hturn.kernelFault rfl (by simp) rfl (by simp) hk hfault

end Turn

end Sys

end SimulatedLinux.Thread
