import Mathlib.Logic.Relation

/-! # Guarded runs of a deterministic step function

A system is given by `step : σ → α → Option σ`, where the label resolves every
choice (which task runs, which call it makes). A guard `ok` restricts which
labels may be taken from which states; it states what the callers of the system
promise. All safety results of the development are invariants of `Reach`.
-/

namespace SimulatedLinux.Lib

variable {σ τ α β : Type*}

/-- One step whose label satisfies the guard. -/
def Next (step : σ → α → Option σ) (ok : σ → α → Prop) (state next : σ) : Prop :=
  ∃ label, ok state label ∧ step state label = some next

/-- States reachable by guarded steps. -/
abbrev Reach (step : σ → α → Option σ) (ok : σ → α → Prop) : σ → σ → Prop :=
  Relation.ReflTransGen (Next step ok)

namespace Reach

variable {step : σ → α → Option σ} {ok ok' : σ → α → Prop} {init state : σ}

/-- A predicate that holds initially and is preserved by every guarded step
holds in every reachable state. -/
theorem invariant (hreach : Reach step ok init state) (inv : σ → Prop) (hinit : inv init)
    (hstep : ∀ state label next, inv state → ok state label →
      step state label = some next → inv next) : inv state := by
  induction hreach with
  | refl => exact hinit
  | tail _ hnext ih =>
      obtain ⟨label, hok, hnext⟩ := hnext
      exact hstep _ label _ ih hok hnext

/-- A run whose guard implies a second guard is a run of the second system. The
comparison may use an invariant of the first. -/
theorem weaken {inv : σ → Prop} (hreach : Reach step ok init state)
    (hinv : ∀ {state}, Reach step ok init state → inv state)
    (hguard : ∀ state label, inv state → ok state label → ok' state label) :
    Reach step ok' init state := by
  induction hreach with
  | refl => exact .refl
  | tail prior hnext ih =>
      obtain ⟨label, hok, hnext⟩ := hnext
      exact ih.tail ⟨label, hguard _ _ (hinv prior) hok, hnext⟩

end Reach

/-- Execute a list of labels, checking the guard before each of them. -/
def execute (step : σ → α → Option σ) (check : σ → α → Bool) : σ → List α → Option σ
  | state, [] => some state
  | state, label :: rest =>
      if check state label then (step state label).bind fun next => execute step check next rest
      else none

theorem execute_reach {step : σ → α → Option σ} {ok : σ → α → Prop} {check : σ → α → Bool}
    (hcheck : ∀ state label, check state label = true → ok state label)
    (labels : List α) {init state : σ} (hrun : execute step check init labels = some state) :
    Reach step ok init state := by
  induction labels generalizing init with
  | nil =>
      simp only [execute, Option.some.injEq] at hrun
      exact hrun ▸ .refl
  | cons label rest ih =>
      simp only [execute] at hrun
      split at hrun
      next hlabel =>
        obtain ⟨next, hnext, htail⟩ := Option.bind_eq_some_iff.mp hrun
        exact (ih htail).head ⟨label, hcheck _ _ hlabel, hnext⟩
      next => simp at hrun

end SimulatedLinux.Lib
