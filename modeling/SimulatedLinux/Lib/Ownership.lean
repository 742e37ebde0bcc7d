import Mathlib.Logic.Function.Basic

/-! # Partners and owners

Two ways in which the parts of a concurrent system agree about each other. Two
parties are paired when each names the other. A ledger says which object owns
which allocated address, over a base of addresses that belong to nobody in it.
-/

namespace SimulatedLinux.Lib

/-! ## Partners -/

variable {ι κ : Type*}

/-- Each side names its partner, and the two agree. -/
def Paired (f : ι → Option κ) (g : κ → Option ι) : Prop := ∀ a b, f a = some b ↔ g b = some a

namespace Paired

variable [DecidableEq ι] [DecidableEq κ] {f : ι → Option κ} {g : κ → Option ι} {a : ι} {b : κ}

/-- A new pair of two that had no partner. -/
theorem link (hpaired : Paired f g) (ha : f a = none) (hb : g b = none) :
    Paired (Function.update f a (some b)) (Function.update g b (some a)) := by
  intro a' b'
  by_cases haa : a' = a <;> by_cases hbb : b' = b
  · simp [haa, hbb]
  · have hnot : g b' ≠ some a := fun h => by simp [(hpaired a b').mpr h] at ha
    simpa [haa, hbb, Ne.symm hbb] using hnot
  · have hnot : f a' ≠ some b := fun h => by simp [(hpaired a' b).mp h] at hb
    simpa [haa, hbb, Ne.symm haa] using hnot
  · simpa [haa, hbb] using hpaired a' b'

/-- A pair parts. -/
theorem unlink (hpaired : Paired f g) (hab : f a = some b) :
    Paired (Function.update f a none) (Function.update g b none) := by
  intro a' b'
  by_cases haa : a' = a <;> by_cases hbb : b' = b
  · simp [haa, hbb]
  · have hnot : g b' ≠ some a := fun h => by
      have heq := (hpaired a b').mpr h
      rw [hab, Option.some.injEq] at heq
      exact hbb heq.symm
    simpa [haa, hbb] using hnot
  · have hnot : f a' ≠ some b := fun h => by
      have heq := ((hpaired a' b).mp h).symm.trans ((hpaired a b).mp hab)
      exact haa (Option.some.inj heq)
    simpa [haa, hbb] using hnot
  · simpa [haa, hbb] using hpaired a' b'

end Paired

/-! ## Owners -/

/-- `owned` gives the address of each object that has one, and `block` what is
allocated at an address. What no object owns is as in `base`. -/
structure Ledger {ω : Type*} {β : Type*} (base block : ι → Option β) (owned : ω → Option ι) :
    Prop where
  allocated : ∀ o addr, owned o = some addr → (block addr).isSome
  fresh : ∀ o addr, owned o = some addr → base addr = none
  distinct : ∀ o o' addr, owned o = some addr → owned o' = some addr → o = o'
  rest : ∀ addr, (∀ o, owned o ≠ some addr) → block addr = base addr

namespace Ledger

variable {ω β : Type*} {base block : ι → Option β} {owned : ω → Option ι} {o o' : ω} {addr : ι}

theorem start (base : ι → Option β) : Ledger base base fun _ : ω => none where
  allocated := by simp
  fresh := by simp
  distinct := by simp
  rest := fun _ _ => rfl

variable [DecidableEq ι] [DecidableEq ω]

/-- An object without memory is given a newly allocated block. -/
theorem alloc (hledger : Ledger base block owned) (hnone : owned o = none)
    (hfree : block addr = none) (value : β) :
    Ledger base (Function.update block addr (some value))
      (Function.update owned o (some addr)) := by
  have hunowned : ∀ o', owned o' ≠ some addr := by
    intro o' ho'
    have hsome := hledger.allocated o' addr ho'
    simp [hfree] at hsome
  refine ⟨fun o' a ho' => ?_, fun o' a ho' => ?_, fun o₁ o₂ a h₁ h₂ => ?_, fun a ha => ?_⟩
  · by_cases hoo : o' = o
    · subst hoo
      obtain rfl : addr = a := by simpa using ho'
      simp
    · rw [Function.update_of_ne hoo] at ho'
      have hne : a ≠ addr := fun heq => hunowned o' (heq ▸ ho')
      simpa [hne] using hledger.allocated o' a ho'
  · by_cases hoo : o' = o
    · subst hoo
      obtain rfl : addr = a := by simpa using ho'
      rw [← hledger.rest addr hunowned, hfree]
    · rw [Function.update_of_ne hoo] at ho'
      exact hledger.fresh o' a ho'
  · by_cases hoo₁ : o₁ = o <;> by_cases hoo₂ : o₂ = o
    · rw [hoo₁, hoo₂]
    · subst hoo₁
      obtain rfl : addr = a := by simpa using h₁
      rw [Function.update_of_ne hoo₂] at h₂
      exact absurd h₂ (hunowned o₂)
    · subst hoo₂
      obtain rfl : addr = a := by simpa using h₂
      rw [Function.update_of_ne hoo₁] at h₁
      exact absurd h₁ (hunowned o₁)
    · rw [Function.update_of_ne hoo₁] at h₁
      rw [Function.update_of_ne hoo₂] at h₂
      exact hledger.distinct o₁ o₂ a h₁ h₂
  · have hne : a ≠ addr := by
      rintro rfl
      exact ha o (by simp)
    rw [Function.update_of_ne hne]
    refine hledger.rest a fun o' ho' => ha o' ?_
    have hoo : o' ≠ o := by
      rintro rfl
      simp [hnone] at ho'
    simpa [hoo] using ho'

/-- The block of an object is freed. -/
theorem free (hledger : Ledger base block owned) (howned : owned o = some addr) :
    Ledger base (Function.update block addr none) (Function.update owned o none) := by
  have hold : ∀ o' a, Function.update owned o none o' = some a → owned o' = some a ∧ o' ≠ o := by
    intro o' a ho'
    by_cases hoo : o' = o
    · subst hoo
      simp at ho'
    · exact ⟨by simpa [hoo] using ho', hoo⟩
  refine ⟨fun o' a ho' => ?_, fun o' a ho' => hledger.fresh o' a (hold o' a ho').1,
    fun o₁ o₂ a h₁ h₂ => hledger.distinct o₁ o₂ a (hold o₁ a h₁).1 (hold o₂ a h₂).1, fun a ha => ?_⟩
  · obtain ⟨ho', hoo⟩ := hold o' a ho'
    have hne : a ≠ addr := by
      rintro rfl
      exact hoo (hledger.distinct o' o a ho' howned)
    simpa [hne] using hledger.allocated o' a ho'
  · by_cases hne : a = addr
    · subst hne
      simp [hledger.fresh o a howned]
    · rw [Function.update_of_ne hne]
      refine hledger.rest a fun o' ho' => ha o' ?_
      have hoo : o' ≠ o := by
        rintro rfl
        exact hne (Option.some.inj (ho'.symm.trans howned))
      simpa [hoo] using ho'

/-- A block passes from one object to another. -/
theorem pass (hledger : Ledger base block owned) (howned : owned o = some addr)
    (hnone : owned o' = none) :
    Ledger base block (Function.update (Function.update owned o none) o' (some addr)) := by
  have hfreed := hledger.free howned
  obtain ⟨value, hvalue⟩ := Option.isSome_iff_exists.mp (hledger.allocated o addr howned)
  have hne : o' ≠ o := by
    rintro rfl
    simp [howned] at hnone
  have hfree : Function.update block addr none addr = none := by simp
  have hpassed := hfreed.alloc (o := o') (by simpa [hne] using hnone) hfree value
  rwa [Function.update_idem, ← hvalue, Function.update_eq_self] at hpassed

end Ledger

end SimulatedLinux.Lib
