import Mathlib.Logic.Relation
import Mathlib.Order.WellFounded
/-!
# Runs of a labelled transition function

A system is given by `step : σ → α → Option σ`: the action `a` is enabled in
`s` when `step s a` is `some`.  Reachability is taken along actions that satisfy
a predicate, so that one system can be studied under several environments.
-/

namespace Cs118.Lib.Run

variable {σ α : Type} (step : σ → α → Option σ)

/-- Perform the actions one after another, stopping at the first disabled one. -/
def run : σ → List α → Option σ
  | s, [] => some s
  | s, a :: actions => (step s a).bind fun t => run t actions

@[simp] theorem run_nil (s : σ) : run step s [] = some s := rfl

theorem run_cons (s : σ) (a : α) (actions : List α) :
    run step s (a :: actions) = (step s a).bind fun t => run step t actions := rfl

def Moves (allowed : α → Prop) (s t : σ) : Prop :=
  ∃ a, allowed a ∧ step s a = some t

def Reach (allowed : α → Prop) : σ → σ → Prop :=
  Relation.ReflTransGen (Moves step allowed)

variable {step} {allowed : α → Prop}

namespace Reach

theorem refl (s : σ) : Reach step allowed s s := Relation.ReflTransGen.refl

theorem trans {s t u : σ} (hst : Reach step allowed s t) (htu : Reach step allowed t u) :
    Reach step allowed s u :=
  Relation.ReflTransGen.trans hst htu

theorem single {s t : σ} {a : α} (ha : allowed a) (h : step s a = some t) :
    Reach step allowed s t :=
  Relation.ReflTransGen.single ⟨a, ha, h⟩

theorem tail {s t u : σ} {a : α} (hst : Reach step allowed s t) (ha : allowed a)
    (h : step t a = some u) : Reach step allowed s u :=
  Relation.ReflTransGen.tail hst ⟨a, ha, h⟩

theorem weaken {wider : α → Prop} (hwider : ∀ a, allowed a → wider a) {s t : σ}
    (h : Reach step allowed s t) : Reach step wider s t := by
  induction h with
  | refl => exact refl s
  | tail _ hmove ih =>
      obtain ⟨a, ha, hstep⟩ := hmove
      exact ih.tail (hwider a ha) hstep

theorem invariant {P : σ → Prop}
    (preserved : ∀ s a t, P s → allowed a → step s a = some t → P t)
    {s t : σ} (hs : P s) (h : Reach step allowed s t) : P t := by
  induction h with
  | refl => exact hs
  | tail _ hmove ih =>
      obtain ⟨a, ha, hstep⟩ := hmove
      exact preserved _ a _ ih ha hstep

/-- When every state short of the goal has an allowed step that reaches it or lowers the
rank, the goal is reached. -/
theorem of_rank {ι : Type} [Preorder ι] [WellFoundedLT ι] (rank : σ → ι) {P goal : σ → Prop}
    (progress : ∀ s, P s → ¬ goal s →
      ∃ a t, allowed a ∧ step s a = some t ∧ P t ∧ (goal t ∨ rank t < rank s))
    {s : σ} (hs : P s) : ∃ t, Reach step allowed s t ∧ P t ∧ goal t := by
  induction hrank : rank s using WellFoundedLT.induction generalizing s with
  | ind r ih =>
      by_cases hgoal : goal s
      · exact ⟨s, refl s, hs, hgoal⟩
      · obtain ⟨a, t, ha, hstep, ht, hnext⟩ := progress s hs hgoal
        rcases hnext with hdone | hlower
        · exact ⟨t, single ha hstep, ht, hdone⟩
        · obtain ⟨u, hu, hPu, hgoalu⟩ := ih (rank t) (hrank ▸ hlower) ht rfl
          exact ⟨u, (single ha hstep).trans hu, hPu, hgoalu⟩

end Reach

theorem reach_of_run {actions : List α} (hallowed : ∀ a ∈ actions, allowed a) {s t : σ}
    (h : run step s actions = some t) : Reach step allowed s t := by
  induction actions generalizing s with
  | nil =>
      obtain rfl : s = t := by simpa using h
      exact .refl s
  | cons a actions ih =>
      rw [run_cons, Option.bind_eq_some_iff] at h
      obtain ⟨u, hstep, hrest⟩ := h
      exact (Reach.single (hallowed a (by simp)) hstep).trans
        (ih (fun b hb => hallowed b (by simp [hb])) hrest)

/-! ## Conditions on the steps of a run -/

variable (step)

def AlongRun (ok : σ → α → σ → Prop) : σ → List α → Prop
  | _, [] => True
  | s, a :: actions => ∀ t, step s a = some t → ok s a t ∧ AlongRun ok t actions

instance AlongRun.decidable (ok : σ → α → σ → Prop) [∀ s a t, Decidable (ok s a t)] :
    ∀ (s : σ) (actions : List α), Decidable (AlongRun step ok s actions)
  | _, [] => isTrue trivial
  | s, a :: actions =>
      haveI := fun t => AlongRun.decidable ok t actions
      inferInstanceAs (Decidable (∀ t ∈ step s a, ok s a t ∧ AlongRun step ok t actions))

variable {step} {ok : σ → α → σ → Prop} {I P : σ → Prop}

theorem run_cons_eq_some {a : α} {actions : List α} {s u : σ}
    (h : run step s (a :: actions) = some u) :
    ∃ t, step s a = some t ∧ run step t actions = some u := by
  rwa [run_cons, Option.bind_eq_some_iff] at h

theorem run_invariant (hI : ∀ s a t, I s → step s a = some t → I t) {actions : List α} {s u : σ}
    (hs : I s) (h : run step s actions = some u) : I u := by
  induction actions generalizing s with
  | nil =>
      obtain rfl : s = u := by simpa using h
      exact hs
  | cons a actions ih =>
      obtain ⟨t, hstep, hrest⟩ := run_cons_eq_some h
      exact ih (hI s a t hs hstep) hrest

theorem AlongRun.invariant (hP : ∀ s a t, P s → step s a = some t → ok s a t → P t)
    {actions : List α} {s u : σ} (hs : P s) (hok : AlongRun step ok s actions)
    (h : run step s actions = some u) : P u := by
  induction actions generalizing s with
  | nil =>
      obtain rfl : s = u := by simpa using h
      exact hs
  | cons a actions ih =>
      obtain ⟨t, hstep, hrest⟩ := run_cons_eq_some h
      obtain ⟨hfirst, hothers⟩ := hok t hstep
      exact ih (hP s a t hs hstep hfirst) hothers hrest

theorem AlongRun.and_actions {Q : α → Prop} {actions : List α} {s : σ}
    (h : AlongRun step ok s actions) (hQ : ∀ a ∈ actions, Q a) :
    AlongRun step (fun s a t => ok s a t ∧ Q a) s actions := by
  induction actions generalizing s with
  | nil => trivial
  | cons a actions ih =>
      intro t hstep
      obtain ⟨hfirst, hothers⟩ := h t hstep
      exact ⟨⟨hfirst, hQ a (by simp)⟩, ih hothers fun b hb => hQ b (by simp [hb])⟩

theorem alongRun_and {other : σ → α → σ → Prop} {actions : List α} {s : σ} :
    AlongRun step (fun s a t => ok s a t ∧ other s a t) s actions ↔
      AlongRun step ok s actions ∧ AlongRun step other s actions := by
  induction actions generalizing s with
  | nil => exact (and_self_iff (a := True)).symm
  | cons a actions ih =>
      simp only [AlongRun, ih]
      constructor
      · intro h
        exact ⟨fun t hstep => ⟨(h t hstep).1.1, (h t hstep).2.1⟩,
          fun t hstep => ⟨(h t hstep).1.2, (h t hstep).2.2⟩⟩
      · rintro ⟨hok, hother⟩ t hstep
        exact ⟨⟨(hok t hstep).1, (hother t hstep).1⟩, (hok t hstep).2, (hother t hstep).2⟩

theorem AlongRun.imp {other : σ → α → σ → Prop}
    (hI : ∀ s a t, I s → step s a = some t → ok s a t → other s a t ∧ I t) {actions : List α}
    {s : σ} (hs : I s) (h : AlongRun step ok s actions) : AlongRun step other s actions := by
  induction actions generalizing s with
  | nil => trivial
  | cons a actions ih =>
      intro t hstep
      obtain ⟨hok, hothers⟩ := h t hstep
      obtain ⟨hother, ht⟩ := hI s a t hs hstep hok
      exact ⟨hother, ih ht hothers⟩

/-- Two conditions that agree on every step agree along every run.  The invariant they
agree under need only survive the steps that satisfy them. -/
theorem alongRun_congr {other : σ → α → σ → Prop}
    (hI : ∀ s a t, I s → allowed a → step s a = some t → other s a t → I t)
    (hagree : ∀ s a t, I s → allowed a → step s a = some t → (ok s a t ↔ other s a t))
    {actions : List α} (hallowed : ∀ a ∈ actions, allowed a) {s : σ} (hs : I s) :
    AlongRun step ok s actions ↔ AlongRun step other s actions := by
  induction actions generalizing s with
  | nil => exact Iff.rfl
  | cons a actions ih =>
      have ha : allowed a := hallowed a (by simp)
      have hrest : ∀ b ∈ actions, allowed b := fun b hb => hallowed b (by simp [hb])
      constructor
      · intro h t hstep
        obtain ⟨hok, hothers⟩ := h t hstep
        have hother := (hagree s a t hs ha hstep).mp hok
        exact ⟨hother, (ih hrest (hI s a t hs ha hstep hother)).mp hothers⟩
      · intro h t hstep
        obtain ⟨hother, hothers⟩ := h t hstep
        exact ⟨(hagree s a t hs ha hstep).mpr hother,
          (ih hrest (hI s a t hs ha hstep hother)).mpr hothers⟩

/-- A property that a step spoils exactly when it is not `ok` holds at the end of a
run exactly when it held at the start and every step was. -/
theorem iff_alongRun (hI : ∀ s a t, I s → allowed a → step s a = some t → I t)
    (hP : ∀ s a t, I s → allowed a → step s a = some t → (P t ↔ P s ∧ ok s a t))
    {actions : List α} (hallowed : ∀ a ∈ actions, allowed a) {s u : σ} (hs : I s)
    (h : run step s actions = some u) : P u ↔ P s ∧ AlongRun step ok s actions := by
  induction actions generalizing s with
  | nil =>
      obtain rfl : s = u := by simpa using h
      simp [AlongRun]
  | cons a actions ih =>
      have ha : allowed a := hallowed a (by simp)
      obtain ⟨t, hstep, hrest⟩ := run_cons_eq_some h
      have hcons : AlongRun step ok s (a :: actions) ↔ ok s a t ∧ AlongRun step ok t actions := by
        constructor
        · exact fun hall => hall t hstep
        · intro hboth t' hstep'
          obtain rfl := Option.some.inj (hstep.symm.trans hstep')
          exact hboth
      rw [ih (fun b hb => hallowed b (by simp [hb])) (hI s a t hs ha hstep) hrest,
        hP s a t hs ha hstep, hcons, and_assoc]

theorem exists_step_of_run {before after : List α} {a : α} {s t u : σ}
    (h : run step s (before ++ a :: after) = some u) (hbefore : run step s before = some t) :
    ∃ t', step t a = some t' := by
  induction before generalizing s with
  | nil =>
      obtain rfl : s = t := by simpa using hbefore
      obtain ⟨t', hstep, -⟩ := run_cons_eq_some h
      exact ⟨t', hstep⟩
  | cons b before ih =>
      obtain ⟨v, hstep, hrest⟩ := run_cons_eq_some h
      rw [run_cons, hstep] at hbefore
      exact ih hrest hbefore

theorem not_alongRun_iff {actions : List α} {s u : σ} (h : run step s actions = some u) :
    ¬ AlongRun step ok s actions ↔ ∃ before a after t t', actions = before ++ a :: after ∧
      run step s before = some t ∧ step t a = some t' ∧ ¬ ok t a t' := by
  induction actions generalizing s with
  | nil => simp [AlongRun]
  | cons b actions ih =>
      obtain ⟨t, hstep, hrest⟩ := run_cons_eq_some h
      constructor
      · intro hnot
        by_cases hok : ok s b t
        · have hlater : ¬ AlongRun step ok t actions := fun hothers => hnot fun t' hstep' => by
            obtain rfl := Option.some.inj (hstep.symm.trans hstep')
            exact ⟨hok, hothers⟩
          obtain ⟨before, a, after, v, v', rfl, hrun, hmove, hbad⟩ := (ih hrest).mp hlater
          refine ⟨b :: before, a, after, v, v', rfl, ?_, hmove, hbad⟩
          rw [run_cons, hstep]
          exact hrun
        · exact ⟨[], b, actions, s, t, rfl, rfl, hstep, hok⟩
      · rintro ⟨before, a, after, v, v', hsplit, hrun, hmove, hbad⟩ hall
        obtain ⟨hfirst, hothers⟩ := hall t hstep
        cases before with
        | nil =>
            obtain ⟨rfl, rfl⟩ := List.cons.inj hsplit
            obtain rfl : s = v := by simpa using hrun
            obtain rfl := Option.some.inj (hstep.symm.trans hmove)
            exact hbad hfirst
        | cons c before =>
            obtain ⟨rfl, rfl⟩ := List.cons.inj hsplit
            rw [run_cons, hstep] at hrun
            exact (ih hrest).mpr ⟨before, a, after, v, v', rfl, hrun, hmove, hbad⟩ hothers

/-! ## Conditions on the actions a run attempts -/

variable (step)

/-- Every action satisfies `ok` in the state it is attempted in, whether or not it is
enabled there. -/
def Throughout (ok : σ → α → Prop) : σ → List α → Prop
  | _, [] => True
  | s, a :: actions => ok s a ∧ ∀ t, step s a = some t → Throughout ok t actions

variable {step}

theorem throughout_congr {ok other : σ → α → Prop}
    (hI : ∀ s a t, I s → other s a → step s a = some t → I t)
    (hagree : ∀ s a, I s → (ok s a ↔ other s a)) {actions : List α} {s : σ} (hs : I s) :
    Throughout step ok s actions ↔ Throughout step other s actions := by
  induction actions generalizing s with
  | nil => exact Iff.rfl
  | cons a actions ih =>
      rw [Throughout, Throughout, hagree s a hs]
      refine and_congr_right fun hother => forall_congr' fun t => forall_congr' fun hstep => ?_
      exact ih (hI s a t hs hother hstep)

end Cs118.Lib.Run
