import Cs118.Lib.Run
/-!
# Forward simulation and outputs along a run

A system is explained by another one when each of its steps is a run, possibly an
empty one, of the other.  What holds in every state the other can reach then holds
in every state of the first.
-/

namespace Cs118.Lib.Simulation

open Cs118.Lib.Run

variable {σ τ α β ω : Type}

/-- Every allowed step from related states is answered by a run of the other system. -/
structure Simulates (step : σ → α → Option σ) (allowed : α → Prop) (other : τ → β → Option τ)
    (allowed' : β → Prop) (R : σ → τ → Prop) : Prop where
  answers : ∀ s a s' t, R s t → allowed a → step s a = some s' →
    ∃ t', Reach other allowed' t t' ∧ R s' t'

/-- A run is answered by a run. -/
theorem Simulates.reach {step : σ → α → Option σ} {allowed : α → Prop} {other : τ → β → Option τ}
    {allowed' : β → Prop} {R : σ → τ → Prop} (h : Simulates step allowed other allowed' R)
    {s s' : σ} {t : τ} (hR : R s t) (hs : Reach step allowed s s') :
    ∃ t', Reach other allowed' t t' ∧ R s' t' := by
  induction hs with
  | refl => exact ⟨t, .refl t, hR⟩
  | tail _ hmove ih =>
      obtain ⟨u, hreach, hu⟩ := ih
      obtain ⟨a, ha, hstep⟩ := hmove
      obtain ⟨t', hnext, ht'⟩ := h.answers _ a _ u hu ha hstep
      exact ⟨t', hreach.trans hnext, ht'⟩

/-! ## Outputs -/

variable (step : σ → α → Option (σ × List ω))

def emits : σ → List α → Option (σ × List ω)
  | s, [] => some (s, [])
  | s, a :: inputs =>
    (step s a).bind fun next => (emits next.1 inputs).map fun rest => (rest.1, next.2 ++ rest.2)

variable {step}

theorem emits_cons {s : σ} {a : α} {inputs : List α} {last : σ × List ω}
    (h : emits step s (a :: inputs) = some last) :
    ∃ next rest, step s a = some next ∧ emits step next.1 inputs = some rest ∧
      last = (rest.1, next.2 ++ rest.2) := by
  obtain ⟨next, hnext, hrest⟩ := Option.bind_eq_some_iff.mp h
  obtain ⟨rest, hemits, rfl⟩ := Option.map_eq_some_iff.mp hrest
  exact ⟨next, rest, hnext, hemits, rfl⟩

theorem emits_invariant {allowed : α → Prop} {P : σ → Nat → Prop}
    (preserved : ∀ s a next n, P s n → allowed a → step s a = some next →
      P next.1 (n + next.2.length))
    {inputs : List α} (hallowed : ∀ a ∈ inputs, allowed a) {s : σ} {n : Nat} (hs : P s n)
    {last : σ × List ω} (h : emits step s inputs = some last) :
    P last.1 (n + last.2.length) := by
  induction inputs generalizing s n last with
  | nil =>
      obtain rfl := Option.some.inj h
      exact hs
  | cons a inputs ih =>
      obtain ⟨next, rest, hnext, hrest, rfl⟩ := emits_cons h
      have hstep := preserved s a next n hs (hallowed a (by simp)) hnext
      have hlast := ih (fun b hb => hallowed b (by simp [hb])) hstep hrest
      rwa [List.length_append, ← Nat.add_assoc]

end Cs118.Lib.Simulation
