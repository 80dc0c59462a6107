import Cs118.Lib.Run
/-!
# Machines that answer

A machine takes one input after another and answers each with a list of outputs.
Two of its runs are compared through the outputs an observer sees, where the second
run leaves out the inputs that should make no difference to the observer.
-/

namespace Cs118.Lib.Machine

open Cs118.Lib.Run

variable {σ α ω : Type} (step : σ → α → σ × List ω)

def final (s : σ) (inputs : List α) : σ := inputs.foldl (fun s a => (step s a).1) s

def outputs : σ → List α → List ω
  | _, [] => []
  | s, a :: inputs => (step s a).2 ++ outputs (step s a).1 inputs

@[simp] theorem final_nil (s : σ) : final step s [] = s := rfl

theorem final_cons (s : σ) (a : α) (inputs : List α) :
    final step s (a :: inputs) = final step (step s a).1 inputs := rfl

@[simp] theorem outputs_nil (s : σ) : outputs step s [] = [] := rfl

theorem outputs_cons (s : σ) (a : α) (inputs : List α) :
    outputs step s (a :: inputs) = (step s a).2 ++ outputs step (step s a).1 inputs := rfl

theorem run_final (s : σ) (inputs : List α) :
    run (fun s a => some (step s a).1) s inputs = some (final step s inputs) := by
  induction inputs generalizing s with
  | nil => rfl
  | cons a inputs ih => exact ih (step s a).1

/-! ## Leaving inputs out -/

variable {step}

/-- Related states stay related and look the same to the observer, when both take a
visible input and when the first alone takes a hidden one. -/
structure Unwinds (step : σ → α → σ × List ω) (visible : α → Prop) (seen : ω → Bool)
    (allowed : σ → α → Prop) (R : σ → σ → Prop) : Prop where
  both : ∀ s t a, R s t → allowed s a → visible a →
    R (step s a).1 (step t a).1 ∧ (step s a).2.filter seen = (step t a).2.filter seen
  first : ∀ s t a, R s t → allowed s a → ¬ visible a →
    R (step s a).1 t ∧ (step s a).2.filter seen = []

/-- The observer does not notice that the hidden inputs have been left out. -/
theorem Unwinds.purge {visible : α → Prop} [DecidablePred visible] {seen : ω → Bool}
    {allowed : σ → α → Prop} {R : σ → σ → Prop} (h : Unwinds step visible seen allowed R)
    {inputs : List α} {s t : σ}
    (hallowed : AlongRun (fun s a => some (step s a).1) (fun s a _ => allowed s a) s inputs)
    (hR : R s t) :
    R (final step s inputs) (final step t (inputs.filter (visible ·))) ∧
      (outputs step s inputs).filter seen =
        (outputs step t (inputs.filter (visible ·))).filter seen := by
  induction inputs generalizing s t with
  | nil => exact ⟨hR, rfl⟩
  | cons a inputs ih =>
      obtain ⟨hfirst, hrest⟩ := hallowed _ rfl
      by_cases hvisible : visible a
      · obtain ⟨hnext, houtput⟩ := h.both s t a hR hfirst hvisible
        obtain ⟨hend, houtputs⟩ := ih hrest hnext
        rw [List.filter_cons_of_pos (by simpa using hvisible), final_cons, final_cons,
          outputs_cons, outputs_cons, List.filter_append, List.filter_append, houtput, houtputs]
        exact ⟨hend, rfl⟩
      · obtain ⟨hnext, houtput⟩ := h.first s t a hR hfirst hvisible
        obtain ⟨hend, houtputs⟩ := ih hrest hnext
        rw [List.filter_cons_of_neg (by simpa using hvisible), final_cons, outputs_cons,
          List.filter_append, houtput, houtputs]
        exact ⟨hend, rfl⟩

end Cs118.Lib.Machine
