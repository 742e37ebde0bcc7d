import SimulatedLinux.Kernel.Inherit
import SimulatedLinux.Kernel.Slots

/-! # The lists and the tasks agree

Every state item is in the list its task belongs to, the bitmap names the ready lists that are
not empty, the delayed lists are sorted by wake time, and no task of the list in use is due
before the cached time. Each primitive that moves a state item keeps this.
-/

namespace SimulatedLinux.Kernel

variable {α : Type}

/-- The lists hold the tasks as their slots say. -/
structure Agrees (M : Machine α) (slot : TaskId → Slot) : Prop where
  sound : M.lists.Sound
  home : ∀ t, M.lists.container t = (slot t).home M.pxDelayedTaskList
  bitmap : ∀ p, M.uxTopReadyPriority.getLsbD p = true ↔ M.items (.ready p) ≠ []
  sorted : ∀ second, (M.items (.delayedTask second)).Pairwise fun t u =>
    (slot t).wake ≤ (slot u).wake
  next : ∀ t ∈ M.items M.delayedName, M.xNextTaskUnblockTime ≤ (slot t).wake

namespace Slot

variable {slot : Slot} {second : Bool}

theorem home_ready {p : Nat} :
    slot.home second = some (.ready p) ↔ slot.state = .ready ∧ slot.priority = p := by
  unfold home
  split <;> simp_all

theorem home_delayed : slot.home second = some (.delayedTask second) ↔ slot.state = .delayed := by
  unfold home
  split <;> simp_all

theorem home_overflow :
    slot.home second = some (.delayedTask !second) ↔ slot.state = .overflowDelayed := by
  unfold home
  split <;> simp_all

theorem home_absent : slot.home second = none ↔ slot.state = .absent := by
  unfold home
  split <;> simp_all

end Slot

/-- A slot that changes without its wake time leaves all wake times. -/
theorem wake_update (slot : TaskId → Slot) (t : TaskId) {s : Slot} (hwake : s.wake = (slot t).wake)
    (u : TaskId) :
    (Function.update slot t s u).wake = (slot u).wake := by
  by_cases hu : u = t
  · subst hu
    rw [Function.update_self, hwake]
  · rw [Function.update_of_ne hu]

/-! ## The bitmap -/

/-- The bits after `portRECORD_READY_PRIORITY`. -/
theorem getLsbD_record (top : BitVec 32) {p : Nat} (hp : p < 32) (i : Nat) :
    (top ||| 1#32 <<< p).getLsbD i = true ↔ top.getLsbD i = true ∨ i = p := by
  simp only [BitVec.getLsbD_or, BitVec.getLsbD_shiftLeft, BitVec.getLsbD_one, Bool.or_eq_true]
  refine or_congr_right ?_
  simp
  omega

/-- The bits after `portRESET_READY_PRIORITY`. -/
theorem getLsbD_reset (top : BitVec 32) (p i : Nat) :
    (top &&& ~~~(1#32 <<< p)).getLsbD i = true ↔ top.getLsbD i = true ∧ i ≠ p := by
  by_cases hi : i < 32
  · simp [hi]
    intro _
    omega
  · have hnot : top.getLsbD i = false := BitVec.getLsbD_of_ge top i (Nat.le_of_not_lt hi)
    simp [hnot]

/-! ## State items -/

namespace Agrees

variable {M M' : Machine α} {slot : TaskId → Slot} {t u : TaskId}

theorem mem (h : Agrees M slot) {name : ListName} :
    t ∈ M.items name ↔ (slot t).home M.pxDelayedTaskList = some name := by
  rw [← h.home]
  exact h.sound.mem name t

/-- The predicate does not look at the kernel. -/
theorem of_lists (h : Agrees M slot) (hlists : M'.lists = M.lists)
    (hsecond : M'.pxDelayedTaskList = M.pxDelayedTaskList)
    (htop : M'.uxTopReadyPriority = M.uxTopReadyPriority)
    (hnext : M'.xNextTaskUnblockTime = M.xNextTaskUnblockTime) :
    Agrees M' slot := by
  obtain ⟨hsound, hhome, hbitmap, hsorted, hle⟩ := h
  constructor
  · rwa [hlists]
  · rwa [hlists, hsecond]
  · unfold Machine.items at hbitmap ⊢
    rwa [hlists, htop]
  · unfold Machine.items at hsorted ⊢
    rwa [hlists]
  · unfold Machine.items Machine.delayedName at hle ⊢
    rwa [hlists, hsecond, hnext]

theorem onKernel (h : Agrees M slot) (f : State α → State α) : Agrees (M.onKernel f) slot :=
  h.of_lists rfl rfl rfl rfl

/-- The tasks in a delayed list stay in order when some leave. -/
theorem sorted_sublist (h : Agrees M slot) {second : Bool} {tasks : List TaskId}
    {slot' : TaskId → Slot} (hsub : tasks.Sublist (M.items (.delayedTask second)))
    (hwake : ∀ u, (slot' u).wake = (slot u).wake) :
    tasks.Pairwise fun t u => (slot' t).wake ≤ (slot' u).wake := by
  refine ((h.sorted second).sublist hsub).imp fun hle => ?_
  rw [hwake, hwake]
  exact hle

/-- A state item leaves its list, with the bitmap kept right. -/
theorem remove (h : Agrees M slot) (hk : M'.lists = M.lists.remove t)
    (hsecond : M'.pxDelayedTaskList = M.pxDelayedTaskList)
    (hnext : M'.xNextTaskUnblockTime = M.xNextTaskUnblockTime)
    (hbitmap : ∀ p, M'.uxTopReadyPriority.getLsbD p = true ↔ (M.items (.ready p)).erase t ≠ []) :
    Agrees M' (Function.update slot t ((slot t).setState .absent)) := by
  have hitems (name : ListName) : M'.items name = (M.items name).erase t := by
    unfold Machine.items
    rw [hk]
    exact h.sound.items_remove t name
  have hwake := wake_update slot t (s := (slot t).setState .absent) rfl
  refine ⟨?_, fun u => ?_, fun p => ?_, fun second => ?_, fun u hu => ?_⟩
  · rw [hk]
    exact h.sound.remove t
  · rw [hk, Lib.Shelf.container_remove, hsecond]
    by_cases hu : u = t
    · subst hu
      simp [Slot.setState, Slot.home]
    · rw [Function.update_of_ne hu, Function.update_of_ne hu]
      exact h.home u
  · rw [hitems]
    exact hbitmap p
  · rw [hitems]
    exact h.sorted_sublist List.erase_sublist hwake
  · rw [hitems] at hu
    unfold Machine.delayedName at hu
    rw [hsecond] at hu
    rw [hwake, hnext]
    exact h.next u (List.mem_of_mem_erase hu)

/-- A blocked or dead task leaves its list. -/
theorem removeStateItem (h : Agrees M slot) (hstate : (slot t).state ≠ .ready) :
    Agrees (M.removeStateItem t) (Function.update slot t ((slot t).setState .absent)) := by
  refine h.remove rfl rfl rfl fun p => ?_
  rw [List.erase_of_not_mem]
  · exact h.bitmap p
  · rw [h.mem, Slot.home_ready]
    exact fun hready => hstate hready.1

/-- A ready task leaves its list, and the bit goes with the last one. -/
theorem removeReady (h : Agrees M slot) (hready : (slot t).state = .ready)
    (hprio : (slot t).priority = (M.k.task t).uxPriority) :
    Agrees (M.removeReady t) (Function.update slot t ((slot t).setState .absent)) := by
  have hcontainer : M.lists.container t = some (.ready (M.k.task t).uxPriority) := by
    rw [h.home]
    exact Slot.home_ready.mpr ⟨hready, hprio⟩
  have hother (p : Nat) (hp : p ≠ (M.k.task t).uxPriority) :
      (M.items (.ready p)).erase t = M.items (.ready p) := by
    apply List.erase_of_not_mem
    rw [h.mem, Slot.home_ready]
    exact fun hmem => hp (hmem.2.symm.trans hprio)
  have hleft : (M.uxListRemove t).2 =
      ((M.items (.ready (M.k.task t).uxPriority)).erase t).length := by
    simp only [Machine.uxListRemove, hcontainer]
    exact congrArg List.length (h.sound.items_remove t _)
  have hmem : t ∈ M.items (.ready (M.k.task t).uxPriority) := (h.sound.mem _ t).mpr hcontainer
  unfold Machine.removeReady
  simp only
  split
  next hzero =>
    have hempty : (M.items (.ready (M.k.task t).uxPriority)).erase t = [] :=
      List.length_eq_zero_iff.mp (hleft.symm.trans hzero)
    refine h.remove rfl rfl rfl fun p => ?_
    simp only [Machine.portResetReadyPriority]
    rw [getLsbD_reset]
    by_cases hp : p = (M.k.task t).uxPriority
    · simp [hp, hempty]
    · rw [hother p hp, ← h.bitmap p]
      simp only [ne_eq, hp, not_false_eq_true, and_true]
      rfl
  next hsome =>
    have hmore : (M.items (.ready (M.k.task t).uxPriority)).erase t ≠ [] :=
      fun hnil => hsome (hleft.trans (List.length_eq_zero_iff.mpr hnil))
    refine h.remove rfl rfl rfl fun p => ?_
    by_cases hp : p = (M.k.task t).uxPriority
    · subst hp
      simp only [hmore, ne_eq, not_false_eq_true, iff_true]
      exact (h.bitmap _).mpr (List.ne_nil_of_mem hmem)
    · rw [hother p hp]
      exact h.bitmap p

theorem fresh (h : Agrees M slot) (habsent : (slot t).state = .absent) (name : ListName) :
    t ∉ M.items name := by
  rw [h.mem, Slot.home_absent.mpr habsent]
  simp

/-- A state item that is in no list is put in the list where it belongs now. -/
theorem put (h : Agrees M slot) (habsent : (slot t).state = .absent) {name : ListName}
    {items : List TaskId} {s : Slot} (hhome : s.home M.pxDelayedTaskList = some name)
    (hperm : items.Perm (t :: M.items name)) (hlists : M'.lists = M.lists.put name t items)
    (hsecond : M'.pxDelayedTaskList = M.pxDelayedTaskList)
    (hbitmap : ∀ p, M'.uxTopReadyPriority.getLsbD p = true ↔ M'.items (.ready p) ≠ [])
    (hsorted : ∀ second, name = .delayedTask second →
      items.Pairwise fun a b => (Function.update slot t s a).wake ≤
      (Function.update slot t s b).wake)
    (hnext : ∀ u ∈ M'.items M.delayedName, M'.xNextTaskUnblockTime ≤
      (Function.update slot t s u).wake) :
    Agrees M' (Function.update slot t s) := by
  have hfree : M.lists.container t = none := by
    rw [h.home]
    exact Slot.home_absent.mpr habsent
  refine ⟨?_, fun u => ?_, hbitmap, fun second => ?_, ?_⟩
  · rw [hlists]
    exact h.sound.put hfree hperm
  · rw [hlists, hsecond]
    simp only [Lib.Shelf.put]
    by_cases hu : u = t
    · subst hu
      simp [hhome]
    · rw [Function.update_of_ne hu, Function.update_of_ne hu]
      exact h.home u
  · unfold Machine.items
    rw [hlists]
    by_cases hname : ListName.delayedTask second = name
    · rw [hname, Lib.Shelf.items_put_self]
      exact hsorted second hname.symm
    · rw [Lib.Shelf.items_put_ne hname]
      refine (h.sorted second).imp_of_mem fun {a b} ha hb hle => ?_
      have hne {c : TaskId} (hc : c ∈ M.items (.delayedTask second)) : c ≠ t :=
        fun heq => h.fresh habsent _ (heq ▸ hc)
      rw [Function.update_of_ne (hne ha), Function.update_of_ne (hne hb)]
      exact hle
  · unfold Machine.delayedName at hnext ⊢
    rwa [hsecond]

/-- Nothing depends on the other fields of a task that is in no list. -/
theorem absent (h : Agrees M slot) (habsent : (slot t).state = .absent) {s : Slot}
    (hs : s.state = .absent) :
    Agrees M (Function.update slot t s) := by
  have hsame {name : ListName} {u : TaskId} (hu : u ∈ M.items name) :
      Function.update slot t s u = slot u :=
    Function.update_of_ne (fun heq => h.fresh habsent _ (heq ▸ hu)) _ _
  refine ⟨h.sound, fun u => ?_, h.bitmap, fun second => ?_, fun u hu => ?_⟩
  · by_cases hu : u = t
    · subst hu
      rw [h.home, Function.update_self, Slot.home_absent.mpr habsent, Slot.home_absent.mpr hs]
    · rw [Function.update_of_ne hu]
      exact h.home u
  · refine (h.sorted second).imp_of_mem fun {a b} ha hb hle => ?_
    rw [hsame ha, hsame hb]
    exact hle
  · rw [hsame hu]
    exact h.next u hu

/-- The tasks that are in the delayed list already are not due before the cached time. -/
theorem next_update (h : Agrees M slot) (habsent : (slot t).state = .absent) {s : Slot}
    (hu : u ∈ M.items M.delayedName) :
    M.xNextTaskUnblockTime ≤ (Function.update slot t s u).wake := by
  have hne : u ≠ t := fun heq => h.fresh habsent _ (heq ▸ hu)
  rw [Function.update_of_ne hne]
  exact h.next u hu

/-- A task is put in the ready list of its priority. -/
theorem recordReady (h : Agrees M slot) (habsent : (slot t).state = .absent)
    (hlt : (M.k.task t).uxPriority < 32) :
    Agrees (M.recordReady t)
      (Function.update slot t ⟨.ready, (slot t).wake, (M.k.task t).uxPriority⟩) := by
  have hperm := (M.lists.list (.ready (M.k.task t).uxPriority)).atEnd_perm t
  refine h.put habsent rfl hperm rfl rfl (fun p => ?_) (by simp) fun u hu => ?_
  · simp only [Machine.recordReady, Machine.portRecordReadyPriority]
    rw [getLsbD_record _ hlt]
    unfold Machine.items Lib.Shelf.putEnd
    by_cases hp : p = (M.k.task t).uxPriority
    · subst hp
      rw [Lib.Shelf.items_put_self]
      have hmem : t ∈ (M.lists.list (.ready (M.k.task t).uxPriority)).atEnd t :=
        hperm.mem_iff.mpr List.mem_cons_self
      simp [List.ne_nil_of_mem hmem]
    · rw [Lib.Shelf.items_put_ne (by simpa using hp)]
      simp only [hp, or_false]
      exact h.bitmap p
  · refine h.next_update habsent (u := u) ?_
    unfold Machine.items at hu ⊢
    simp only [Machine.recordReady, Lib.Shelf.putEnd] at hu
    rw [Lib.Shelf.items_put_ne (by simp [Machine.delayedName])] at hu
    exact hu

/-- A task is put in a list that is no ready list and no delayed list. -/
theorem putEnd (h : Agrees M slot) (name : ListName) (habsent : (slot t).state = .absent) {s : Slot}
    (hhome : s.home M.pxDelayedTaskList = some name) (hready : ∀ p, name ≠ .ready p)
    (hdelayed : ∀ second, name ≠ .delayedTask second) :
    Agrees { M with lists := M.lists.putEnd name t } (Function.update slot t s) := by
  have hperm := (M.lists.list name).atEnd_perm t
  refine h.put habsent hhome hperm rfl rfl (fun p => ?_)
    (fun second hname => absurd hname (hdelayed second)) fun u hu => ?_
  · unfold Machine.items Lib.Shelf.putEnd
    rw [Lib.Shelf.items_put_ne (hready p).symm]
    exact h.bitmap p
  · refine h.next_update habsent (u := u) ?_
    simp only [Machine.items, Machine.delayedName, Lib.Shelf.putEnd] at hu
    rw [Lib.Shelf.items_put_ne (hdelayed _).symm] at hu
    exact hu

/-- A task finds its place in a delayed list by its wake time. -/
theorem vListInsert_wake (h : Agrees M slot) (habsent : (slot t).state = .absent) {s : Slot}
    (second : Bool) :
    (vListInsert (fun u => (Function.update slot t s u).wake) t
      (M.items (.delayedTask second))).Pairwise fun a b =>
      (Function.update slot t s a).wake ≤ (Function.update slot t s b).wake := by
  have hsorted : (M.items (.delayedTask second)).Pairwise fun a b =>
      (Function.update slot t s a).wake ≤ (Function.update slot t s b).wake := by
    refine (h.sorted second).imp_of_mem fun {a b} ha hb hle => ?_
    have hne {c : TaskId} (hc : c ∈ M.items (.delayedTask second)) : c ≠ t :=
      fun heq => h.fresh habsent _ (heq ▸ hc)
    rw [Function.update_of_ne (hne ha), Function.update_of_ne (hne hb)]
    exact hle
  refine vListInsert_pairwise hsorted (fun u hu => (mem_takeWhile_value hu).2) ?_
  have hfirst (u : TaskId)
      (hu : ¬ decide ((Function.update slot t s u).wake ≤ (Function.update slot t s t).wake)) :
      (Function.update slot t s t).wake ≤ (Function.update slot t s u).wake := by
    rw [decide_eq_true_eq] at hu
    exact Nat.le_of_not_le hu
  exact forall_mem_dropWhile hsorted hfirst fun u w hu hle => Nat.le_trans (hfirst u hu) hle

theorem putDelayed (h : Agrees M slot) (habsent : (slot t).state = .absent) {s : Slot}
    {second : Bool} (hhome : s.home M.pxDelayedTaskList = some (.delayedTask second))
    {value : TaskId → Nat} (hvalue : ∀ u, value u = (Function.update slot t s u).wake)
    {xNextTaskUnblockTime : Nat} (hnext : xNextTaskUnblockTime ≤ M.xNextTaskUnblockTime)
    (hwake : second = M.pxDelayedTaskList → xNextTaskUnblockTime ≤ s.wake) :
    Agrees { M with
      lists :=
        M.lists.put (.delayedTask second) t (vListInsert value t (M.items (.delayedTask second)))
      xNextTaskUnblockTime } (Function.update slot t s) := by
  have hperm := vListInsert_perm value t (M.items (.delayedTask second))
  refine h.put habsent hhome hperm rfl rfl (fun p => ?_) (fun other hname => ?_) fun u hu => ?_
  · unfold Machine.items
    rw [Lib.Shelf.items_put_ne (by simp)]
    exact h.bitmap p
  · obtain rfl : value = fun u => (Function.update slot t s u).wake := funext hvalue
    exact h.vListInsert_wake habsent second
  · by_cases hsecond : second = M.pxDelayedTaskList
    · subst hsecond
      simp only [Machine.items, Machine.delayedName] at hu
      rw [Lib.Shelf.items_put_self] at hu
      rcases List.mem_cons.mp (hperm.mem_iff.mp hu) with rfl | hu
      · rw [Function.update_self]
        exact hwake rfl
      · exact Nat.le_trans hnext (h.next_update habsent hu)
    · simp only [Machine.items, Machine.delayedName] at hu
      rw [Lib.Shelf.items_put_ne (by simpa using Ne.symm hsecond)] at hu
      exact Nat.le_trans hnext (h.next_update habsent hu)

/-- The index of a list moves. -/
theorem advance (h : Agrees M slot) (name : ListName) :
    Agrees { M with lists := M.lists.advance name } slot := by
  have hitems (other : ListName) :
      Machine.items { M with lists := M.lists.advance name } other = M.items other :=
    Lib.Shelf.items_advance M.lists name other
  refine ⟨h.sound.advance name, h.home, fun p => ?_, fun second => ?_, fun u hu => ?_⟩
  · rw [hitems]
    exact h.bitmap p
  · rw [hitems]
    exact h.sorted second
  · rw [hitems] at hu
    exact h.next u hu

end Agrees

/-! ## Functions of the kernel -/

namespace Machine

/-- The lists agree with the tasks of the kernel. -/
abbrev Listed (M : Machine α) : Prop := Agrees M M.k.slot

variable {M : Machine α} {t : TaskId}

theorem k_removeReady (M : Machine α) (t : TaskId) : (M.removeReady t).k = M.k := by
  unfold removeReady
  dsimp only
  split <;> rfl

/-- A task that is not ready is moved to the ready list of its priority. -/
theorem Listed.makeReady (h : M.Listed) (hstate : (M.k.slot t).state ≠ .ready)
    (hlt : (M.k.task t).uxPriority < 32) {k k' : State α}
    (hprio : (k.task t).uxPriority = (M.k.task t).uxPriority)
    (hslot : k'.slot = Function.update M.k.slot t ((M.k.slot t).setState .ready)) :
    Listed ((recordReady { M.removeStateItem t with k := k } t).onKernel fun _ => k') := by
  have hremoved := (h.removeStateItem hstate).onKernel fun _ => k
  have hrecorded :=
    hremoved.recordReady (t := t) (by simp [Slot.setState])
      (Nat.lt_of_le_of_lt (Nat.le_of_eq hprio) hlt)
  have hready : Function.update (Function.update M.k.slot t ((M.k.slot t).setState .absent)) t
      ⟨.ready, (Function.update M.k.slot t ((M.k.slot t).setState .absent) t).wake,
       (k.task t).uxPriority⟩ = k'.slot := by
    rw [hslot, Function.update_idem, Function.update_self, hprio]
    rfl
  have hagrees : Agrees (((M.removeStateItem t).onKernel fun _ => k).recordReady t) k'.slot :=
    hready ▸ hrecorded
  exact hagrees.of_lists rfl rfl rfl rfl

theorem Listed.unblock (h : M.Listed) (hstate : (M.k.slot t).state ≠ .ready)
    (hlt : (M.k.task t).uxPriority < 32) :
    (M.unblock t).Listed := by
  have hprio : ((M.k.removeEventItem t).task t).uxPriority = (M.k.task t).uxPriority :=
    congrArg Slot.priority (congrFun (M.k.slot_removeEventItem t) t)
  have hready := h.makeReady hstate hlt hprio (M.k.slot_readyPended t)
  exact hready

theorem Listed.xTaskRemoveFromEventList (h : M.Listed) {list : EventList} {rest : List TaskId}
    (hlist : M.k.eventList list = t :: rest) (hstate : (M.k.slot t).state ≠ .ready)
    (hlt : (M.k.task t).uxPriority < 32) : (M.xTaskRemoveFromEventList list).Listed := by
  have hslot := M.k.slot_xTaskRemoveFromEventList t hlist
  simp only [Machine.xTaskRemoveFromEventList, hlist]
  split
  next hzero =>
    rw [if_pos hzero] at hslot
    have hprio : ((M.k.xTaskRemoveFromEventList list).task t).uxPriority =
        (M.k.task t).uxPriority := by
      have hself := congrFun hslot t
      rw [Function.update_self] at hself
      exact congrArg Slot.priority hself
    have hready := h.makeReady hstate hlt hprio hslot
    exact hready
  next hne =>
    rw [if_neg hne] at hslot
    have hsame : Agrees M (M.k.xTaskRemoveFromEventList list).slot := hslot ▸ h
    exact hsame.of_lists rfl rfl rfl rfl

theorem removeReady_fields (M : Machine α) (t : TaskId) :
    (M.removeReady t).pxDelayedTaskList = M.pxDelayedTaskList ∧
      (M.removeReady t).xNextTaskUnblockTime = M.xNextTaskUnblockTime := by
  unfold removeReady
  dsimp only
  split <;> exact ⟨rfl, rfl⟩

/-- The current task leaves its ready list for a delayed list or the suspended list. -/
theorem Listed.prvAddCurrentTaskToDelayedList (h : M.Listed)
    (hready : (M.k.slot M.k.pxCurrentTCB).state = .ready) (xTicksToWait : Nat) (forever : Bool) :
    (M.prvAddCurrentTaskToDelayedList xTicksToWait forever).Listed := by
  have hslot := M.k.slot_prvAddCurrentTaskToDelayedList xTicksToWait forever
  have hremoved := (h.removeReady (t := M.k.pxCurrentTCB) hready rfl).onKernel
    (·.prvAddCurrentTaskToDelayedList xTicksToWait forever)
  have habsent :
      (Function.update M.k.slot M.k.pxCurrentTCB ((M.k.slot M.k.pxCurrentTCB).setState .absent)
        M.k.pxCurrentTCB).state = .absent := by simp [Slot.setState]
  obtain ⟨hsecond, -⟩ := M.removeReady_fields M.k.pxCurrentTCB
  have hk : (((M.removeReady M.k.pxCurrentTCB).onKernel
      (·.prvAddCurrentTaskToDelayedList xTicksToWait forever)).k) =
        M.k.prvAddCurrentTaskToDelayedList xTicksToWait forever :=
    congrArg (·.prvAddCurrentTaskToDelayedList xTicksToWait forever) (M.k_removeReady _)
  have htick : (M.k.prvAddCurrentTaskToDelayedList xTicksToWait forever).xTickCount =
      M.k.xTickCount := rfl
  unfold Machine.prvAddCurrentTaskToDelayedList
  dsimp only
  -- from here on the machine without the task's state item is one variable
  generalize hM' : (M.removeReady M.k.pxCurrentTCB).onKernel
    (·.prvAddCurrentTaskToDelayedList xTicksToWait forever) = M' at hremoved hk ⊢
  have hsecond' : M'.pxDelayedTaskList = M.pxDelayedTaskList := by rw [← hM']; exact hsecond
  have hfinal {s : Slot} (hs : M.k.delayedSlot (M.k.slot M.k.pxCurrentTCB) xTicksToWait forever = s)
      {M'' : Machine α}
      (hagrees : Agrees M'' (Function.update (Function.update M.k.slot M.k.pxCurrentTCB
        ((M.k.slot M.k.pxCurrentTCB).setState .absent)) M.k.pxCurrentTCB s)) (hk'' : M''.k = M'.k) :
        M''.Listed := by
    rw [Function.update_idem, ← hs, ← hslot, ← hk, ← hk''] at hagrees
    exact hagrees
  split
  next hforever =>
    refine hfinal (s := (M.k.slot M.k.pxCurrentTCB).setState .suspended) (if_pos hforever) ?_ rfl
    exact hremoved.putEnd _ habsent rfl (by simp) (by simp)
  next hlimited =>
    have hs : M.k.delayedSlot (M.k.slot M.k.pxCurrentTCB) xTicksToWait forever =
        ⟨if (M.k.xTickCount + xTicksToWait) % tickModulus < M.k.xTickCount then .overflowDelayed
          else .delayed,
          (M.k.xTickCount + xTicksToWait) % tickModulus, (M.k.slot M.k.pxCurrentTCB).priority⟩ :=
      if_neg hlimited
    have hvalue (u : TaskId) :
        (M'.k.task u).xWakeTime =
          (Function.update
            (Function.update M.k.slot M.k.pxCurrentTCB
              ((M.k.slot M.k.pxCurrentTCB).setState .absent))
            M.k.pxCurrentTCB
            (M.k.delayedSlot (M.k.slot M.k.pxCurrentTCB) xTicksToWait forever) u).wake := by
      rw [Function.update_idem, ← hslot, ← hk]
      rfl
    rw [show M'.k.xTickCount = M.k.xTickCount by rw [hk]; rfl]
    unfold overflowName delayedName
    split
    next hwrap =>
      rw [if_pos hwrap] at hs
      refine hfinal rfl ?_ rfl
      refine hremoved.putDelayed habsent ?_ hvalue (Nat.le_refl _) fun heq => ?_
      · rw [hs]
        rfl
      · simp at heq
    next hlater =>
      rw [if_neg hlater] at hs
      refine hfinal rfl ?_ rfl
      refine hremoved.putDelayed habsent ?_ hvalue ?_ fun _ => ?_
      · rw [hs]
        rfl
      · split
        next hlt => exact Nat.le_of_lt hlt
        next => exact Nat.le_refl _
      · rw [hs]
        split
        next => exact Nat.le_refl _
        next hle => exact Nat.le_of_not_lt hle

end Machine

end SimulatedLinux.Kernel
