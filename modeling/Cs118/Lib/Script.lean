import Mathlib.Logic.Function.Iterate
/-!
# Programs that call a shared component

A script is the tree of the calls a program makes: each node is a call, with one
continuation for every reply.  Running a script to its end and interleaving its
calls with other activity are two readings of the same tree.
-/

namespace Cs118.Lib

/-- A program over the calls `Op` that returns an `α` or fails with an `ε`. -/
inductive Script (Op : Type) (Rep : Op → Type) (ε α : Type) : Type
  | pure (a : α)
  | throw (e : ε)
  | call (op : Op) (k : Rep op → Script Op Rep ε α)

variable {Op : Type} {Rep : Op → Type} {ε α β σ ι : Type}

namespace Script

def bind : Script Op Rep ε α → (α → Script Op Rep ε β) → Script Op Rep ε β
  | .pure a, f => f a
  | .throw e, _ => .throw e
  | .call op k, f => .call op fun r => (k r).bind f

instance : Monad (Script Op Rep ε) where
  pure := .pure
  bind := .bind

def perform (op : Op) : Script Op Rep ε (Rep op) := .call op .pure

@[simp] theorem pure_bind (a : α) (f : α → Script Op Rep ε β) :
    (Pure.pure a : Script Op Rep ε α) >>= f = f a := rfl

@[simp] theorem throw_bind (e : ε) (f : α → Script Op Rep ε β) :
    (Script.throw e : Script Op Rep ε α) >>= f = .throw e := rfl

@[simp] theorem perform_bind (op : Op) (f : Rep op → Script Op Rep ε β) :
    (perform op : Script Op Rep ε (Rep op)) >>= f = .call op f := rfl

/-! ## Execution -/

variable (handle : σ → (op : Op) → σ × Except ε (Rep op))

def exec : Script Op Rep ε α → σ → σ × Except ε α
  | .pure a, s => (s, .ok a)
  | .throw e, s => (s, .error e)
  | .call op k, s =>
    match handle s op with
    | (s', .ok r) => (k r).exec s'
    | (s', .error e) => (s', .error e)

def resume (s : σ) : Script Op Rep ε α → σ × Script Op Rep ε α
  | .pure a => (s, .pure a)
  | .throw e => (s, .throw e)
  | .call op k =>
    match handle s op with
    | (s', .ok r) => (s', k r)
    | (s', .error e) => (s', .throw e)

variable {handle}

@[simp] theorem exec_pure (a : α) (s : σ) :
    (Script.pure a : Script Op Rep ε α).exec handle s = (s, .ok a) := rfl

@[simp] theorem exec_throw (e : ε) (s : σ) :
    (Script.throw e : Script Op Rep ε α).exec handle s = (s, .error e) := rfl

theorem exec_call (op : Op) (k : Rep op → Script Op Rep ε α) (s : σ) :
    (Script.call op k).exec handle s =
      match handle s op with
      | (s', .ok r) => (k r).exec handle s'
      | (s', .error e) => (s', .error e) := by
  rw [exec]

theorem exec_call_ok {op : Op} {k : Rep op → Script Op Rep ε α} {s s' : σ} {r : Rep op}
    (h : handle s op = (s', .ok r)) :
    (Script.call op k).exec handle s = (k r).exec handle s' := by
  rw [exec_call, h]

theorem exec_call_error {op : Op} {k : Rep op → Script Op Rep ε α} {s s' : σ} {e : ε}
    (h : handle s op = (s', .error e)) :
    (Script.call op k).exec handle s = (s', .error e) := by
  rw [exec_call, h]

/-! ## Failing by itself -/

variable (handle)

/-- The script itself fails with `e` when it is run from `s`, and no call does before. -/
def Throws (e : ε) : Script Op Rep ε α → σ → Prop
  | .pure _, _ => False
  | .throw e', _ => e' = e
  | .call op k, s =>
    match handle s op with
    | (s', .ok r) => (k r).Throws e s'
    | (_, .error _) => False

variable {handle}

@[simp] theorem throws_pure {e : ε} (a : α) (s : σ) :
    (Pure.pure a : Script Op Rep ε α).Throws handle e s ↔ False := Iff.rfl

@[simp] theorem throws_throw {e e' : ε} (s : σ) :
    (Script.throw e' : Script Op Rep ε α).Throws handle e s ↔ e' = e := Iff.rfl

theorem throws_call_ok {e : ε} {op : Op} {k : Rep op → Script Op Rep ε α} {s s' : σ} {r : Rep op}
    (h : handle s op = (s', .ok r)) :
    (Script.call op k).Throws handle e s ↔ (k r).Throws handle e s' := by
  rw [Throws, h]

theorem not_throws_perform {e : ε} {op : Op} {s : σ} :
    ¬ (perform op : Script Op Rep ε (Rep op)).Throws handle e s := by
  unfold perform Throws
  split <;> exact id

/-! ## Scripts that obey a discipline -/

/-- Every call of the script is allowed by what the replies so far have told.
`i` stands for that knowledge. -/
def Follows (allowed : ι → Op → Prop) (after : ι → (op : Op) → Rep op → ι) :
    ι → Script Op Rep ε α → Prop
  | _, .pure _ => True
  | _, .throw _ => True
  | i, .call op k => allowed i op ∧ ∀ r, (k r).Follows allowed after (after i op r)

variable {allowed : ι → Op → Prop} {after : ι → (op : Op) → Rep op → ι}

theorem Follows.bind {p : Script Op Rep ε α} {f : α → Script Op Rep ε β} {i : ι}
    (hp : p.Follows allowed after i) (hf : ∀ i a, (f a).Follows allowed after i) :
    (p >>= f).Follows allowed after i := by
  induction p generalizing i with
  | pure a => exact hf i a
  | throw e => trivial
  | call op k ih => exact ⟨hp.1, fun r => ih r (hp.2 r)⟩

/-- What every allowed call preserves holds after the next call of a script that
follows the discipline. -/
theorem Follows.resume {J : ι → σ → Prop} {i : ι} {s : σ} {p : Script Op Rep ε α}
    (hp : p.Follows allowed after i) (hs : J i s)
    (hcall : ∀ i s op r, J i s → allowed i op → (handle s op).2 = .ok r →
      J (after i op r) (handle s op).1)
    (hfail : ∀ i s op e, J i s → allowed i op → (handle s op).2 = .error e →
      J i (handle s op).1) :
    ∃ i', (resume handle s p).2.Follows allowed after i' ∧ J i' (resume handle s p).1 := by
  cases p with
  | pure a => exact ⟨i, trivial, hs⟩
  | throw e => exact ⟨i, trivial, hs⟩
  | call op k =>
      obtain ⟨hallowed, hrest⟩ := hp
      rcases hstep : handle s op with ⟨s', e | r⟩
      · refine ⟨i, ?_, ?_⟩
        · simp only [Script.resume, hstep]
          trivial
        · have hnext := hfail i s op e hs hallowed (by rw [hstep])
          simpa only [Script.resume, hstep] using hnext
      · refine ⟨after i op r, ?_, ?_⟩
        · simpa only [Script.resume, hstep] using hrest r
        · have hnext := hcall i s op r hs hallowed (by rw [hstep])
          simpa only [Script.resume, hstep] using hnext

end Script

end Cs118.Lib
