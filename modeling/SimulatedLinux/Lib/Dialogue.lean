import Mathlib.Data.Option.Basic

/-! # Calls and replies

An object answers a call with a reply and goes to another state, or has no answer. Two objects give
the same replies to every list of calls when a relation between their states is kept by each call.
-/

namespace SimulatedLinux.Lib

variable {σ σ' α ρ : Type*}

/-- The state after a list of calls, and the replies in order. -/
def converse (call : σ → α → Option (σ × ρ)) : σ → List α → Option (σ × List ρ)
  | state, [] => some (state, [])
  | state, label :: rest =>
      (call state label).bind fun answer =>
        (converse call answer.1 rest).map fun last => (last.1, answer.2 :: last.2)

variable {call : σ → α → Option (σ × ρ)} {call' : σ' → α → Option (σ' × ρ)} {state : σ} {label : α}
  {rest : List α}

theorem converse_cons {last : σ × List ρ} (h : converse call state (label :: rest) = some last) :
    ∃ next reply replies, call state label = some (next, reply) ∧
      converse call next rest = some (last.1, replies) ∧ last.2 = reply :: replies := by
  obtain ⟨⟨next, reply⟩, hcall, htail⟩ := Option.bind_eq_some_iff.mp h
  obtain ⟨⟨state', replies⟩, hrest, rfl⟩ := Option.map_eq_some_iff.mp htail
  exact ⟨next, reply, replies, hcall, hrest, rfl⟩

/-- An object that follows another gives its replies. -/
theorem converse_follows (rel : σ → σ' → Prop)
    (hcall : ∀ state state' label next reply, rel state state' →
      call state label = some (next, reply) →
      ∃ next', call' state' label = some (next', reply) ∧ rel next next')
    {state : σ} {state' : σ'} (hrel : rel state state') (labels : List α) {last : σ × List ρ}
    (hrun : converse call state labels = some last) :
    ∃ last', converse call' state' labels = some (last', last.2) ∧ rel last.1 last' := by
  -- one call after the other, each from a state that is related
  induction labels generalizing state state' last with
  | nil =>
      cases hrun
      exact ⟨state', rfl, hrel⟩
  | cons label rest ih =>
      obtain ⟨next, reply, replies, hfirst, hrest, hreplies⟩ := converse_cons hrun
      obtain ⟨next', hfirst', hnext⟩ := hcall _ _ _ _ _ hrel hfirst
      obtain ⟨last', hrest', hlast⟩ := ih hnext hrest
      refine ⟨last', ?_, hlast⟩
      rw [converse, hfirst', Option.bind_some, hrest', Option.map_some, hreplies]

end SimulatedLinux.Lib
