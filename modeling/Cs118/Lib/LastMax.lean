import Mathlib.Order.Lattice
import Mathlib.Data.List.Basic
/-!
# The last of the greatest elements

One pass over a list that keeps the best element so far and lets a later one win a
tie.  It finds the last element whose key is the greatest.
-/

namespace Cs118.Lib.LastMax

variable {α κ : Type} [LinearOrder κ] (key : α → κ)

/-- `x` is the last of the elements of `xs` with the greatest key. -/
def IsLastMax (xs : List α) (x : α) : Prop :=
  ∃ before after, xs = before ++ x :: after ∧
    (∀ y ∈ before, key y ≤ key x) ∧ ∀ y ∈ after, key y < key x

def lastMax : Option α → List α → Option α
  | best, [] => best
  | none, x :: xs => lastMax (some x) xs
  | some best, x :: xs => if key best ≤ key x then lastMax (some x) xs else lastMax (some best) xs

variable {key}

theorem IsLastMax.unique {xs : List α} {x y : α} (hx : IsLastMax key xs x)
    (hy : IsLastMax key xs y) : x = y := by
  obtain ⟨before, after, rfl, hbefore, hafter⟩ := hx
  obtain ⟨before', after', heq, hbefore', hafter'⟩ := hy
  rcases List.append_eq_append_iff.mp heq with ⟨gap, hgap, hrest⟩ | ⟨gap, hgap, hrest⟩
  · cases gap with
    | nil => exact (List.cons.inj hrest).1
    | cons first gap =>
        obtain ⟨rfl, hafterEq⟩ := List.cons.inj hrest
        have hlt := hafter y (by rw [hafterEq]; simp)
        have hle := hbefore' x (by rw [hgap]; simp)
        exact absurd hlt (not_lt_of_ge hle)
  · cases gap with
    | nil => exact (List.cons.inj hrest).1.symm
    | cons first gap =>
        obtain ⟨rfl, hafterEq⟩ := List.cons.inj hrest
        have hlt := hafter' x (by rw [hafterEq]; simp)
        have hle := hbefore y (by rw [hgap]; simp)
        exact absurd hlt (not_lt_of_ge hle)

theorem IsLastMax.singleton (key : α → κ) (x : α) : IsLastMax key [x] x := ⟨[], [], rfl, by simp, by simp⟩

theorem IsLastMax.concat {xs : List α} {best : α} (h : IsLastMax key xs best) (x : α) :
    IsLastMax key (xs ++ [x]) (if key best ≤ key x then x else best) := by
  obtain ⟨before, after, rfl, hbefore, hafter⟩ := h
  split_ifs with hle
  · refine ⟨before ++ best :: after, [], rfl, fun y hy => ?_, by simp⟩
    rcases List.mem_append.mp hy with hy | hy
    · exact (hbefore y hy).trans hle
    · rcases List.mem_cons.mp hy with rfl | hy
      · exact hle
      · exact (hafter y hy).le.trans hle
  · refine ⟨before, after ++ [x], by simp, hbefore, fun y hy => ?_⟩
    rcases List.mem_append.mp hy with hy | hy
    · exact hafter y hy
    · rw [List.mem_singleton.mp hy]
      exact lt_of_not_ge hle

/-- The pass keeps the last maximum of what it has seen. -/
theorem isLastMax_lastMax_some {seen : List α} {best : α} (h : IsLastMax key seen best)
    (xs : List α) :
    ∃ x, lastMax key (some best) xs = some x ∧ IsLastMax key (seen ++ xs) x := by
  induction xs generalizing seen best with
  | nil => exact ⟨best, rfl, by rwa [List.append_nil]⟩
  | cons x xs ih =>
      obtain ⟨last, hpass, hlast⟩ := ih (h.concat x)
      refine ⟨last, ?_, by simpa using hlast⟩
      unfold lastMax
      split_ifs at hpass ⊢ <;> exact hpass

theorem lastMax_eq_none_iff {xs : List α} : lastMax key none xs = none ↔ xs = [] := by
  cases xs with
  | nil => simp [lastMax]
  | cons x xs =>
      obtain ⟨last, hpass, -⟩ := isLastMax_lastMax_some (IsLastMax.singleton key x) xs
      simp [lastMax, hpass]

theorem lastMax_eq_some_iff {xs : List α} {x : α} :
    lastMax key none xs = some x ↔ IsLastMax key xs x := by
  cases xs with
  | nil => simp [lastMax, IsLastMax]
  | cons first xs =>
      obtain ⟨last, hpass, hlast⟩ :=
        isLastMax_lastMax_some (IsLastMax.singleton key first) xs
      rw [lastMax, hpass, Option.some.injEq]
      constructor
      · rintro rfl
        exact hlast
      · exact fun hx => hlast.unique hx

theorem isLastMax_congr {κ' : Type} [LinearOrder κ'] {key' : α → κ'} {xs : List α}
    (h : ∀ x ∈ xs, ∀ y ∈ xs, key x ≤ key y ↔ key' x ≤ key' y) {x : α} :
    IsLastMax key xs x ↔ IsLastMax key' xs x := by
  unfold IsLastMax
  apply exists_congr
  intro before
  apply exists_congr
  intro after
  apply and_congr_right
  rintro rfl
  have hx : x ∈ before ++ x :: after := by simp
  apply and_congr
  · exact forall₂_congr fun y hy => h y (List.mem_append_left _ hy) x hx
  · refine forall₂_congr fun y hy => ?_
    rw [← not_le, ← not_le, h x hx y (List.mem_append_right _ (List.mem_cons_of_mem _ hy))]

/-- Only the order of the keys matters. -/
theorem lastMax_congr {κ' : Type} [LinearOrder κ'] {key' : α → κ'} {xs : List α}
    (h : ∀ x ∈ xs, ∀ y ∈ xs, key x ≤ key y ↔ key' x ≤ key' y) :
    lastMax key none xs = lastMax key' none xs := by
  cases hpass : lastMax key' none xs with
  | none =>
      rw [lastMax_eq_none_iff] at hpass ⊢
      exact hpass
  | some x =>
      rw [lastMax_eq_some_iff] at hpass ⊢
      exact (isLastMax_congr h).mpr hpass

theorem isLastMax_filter_iff {p : α → Prop} [DecidablePred p] {xs : List α} {x : α} :
    IsLastMax key (xs.filter (p ·)) x ↔
      ∃ before after, xs = before ++ x :: after ∧ p x ∧
        (∀ y ∈ before, p y → key y ≤ key x) ∧ ∀ y ∈ after, p y → key y < key x := by
  constructor
  · rintro ⟨front, back, heq, hbefore, hafter⟩
    obtain ⟨before, rest, rfl, hfront, hrest⟩ := List.filter_eq_append_iff.mp heq
    obtain ⟨skipped, after, rfl, hskipped, hx, hback⟩ := List.filter_eq_cons_iff.mp hrest
    refine ⟨before ++ skipped, after, by simp, by simpa using hx, fun y hy hpy => ?_,
      fun y hy hpy => ?_⟩
    · rcases List.mem_append.mp hy with hy | hy
      · exact hbefore y (by rw [← hfront]; exact List.mem_filter.mpr ⟨hy, by simpa using hpy⟩)
      · exact absurd hpy (by simpa using hskipped y hy)
    · exact hafter y (by rw [← hback]; exact List.mem_filter.mpr ⟨hy, by simpa using hpy⟩)
  · rintro ⟨before, after, rfl, hx, hbefore, hafter⟩
    refine ⟨before.filter (p ·), after.filter (p ·), ?_, fun y hy => ?_, fun y hy => ?_⟩
    · rw [List.filter_append, List.filter_cons_of_pos (by simpa using hx)]
    · obtain ⟨hy, hpy⟩ := List.mem_filter.mp hy
      exact hbefore y hy (by simpa using hpy)
    · obtain ⟨hy, hpy⟩ := List.mem_filter.mp hy
      exact hafter y hy (by simpa using hpy)

/-! ## Other orders of the same elements -/

variable (key) in
def MaxIn (xs : List α) (x : α) : Prop := x ∈ xs ∧ ∀ y ∈ xs, key y ≤ key x

theorem IsLastMax.maxIn {xs : List α} {x : α} (h : IsLastMax key xs x) : MaxIn key xs x := by
  obtain ⟨before, after, rfl, hbefore, hafter⟩ := h
  refine ⟨by simp, fun y hy => ?_⟩
  rcases List.mem_append.mp hy with hy | hy
  · exact hbefore y hy
  · rcases List.mem_cons.mp hy with rfl | hy
    · exact le_refl _
    · exact (hafter y hy).le

theorem MaxIn.perm {xs ys : List α} (hperm : xs.Perm ys) {x : α} (h : MaxIn key xs x) :
    MaxIn key ys x :=
  ⟨hperm.mem_iff.mp h.1, fun y hy => h.2 y (hperm.mem_iff.mpr hy)⟩

/-- With one greatest element, the pass finds it in every order. -/
theorem lastMax_perm {xs ys : List α} (hperm : xs.Perm ys)
    (h : ∀ x y, MaxIn key xs x → MaxIn key xs y → x = y) :
    lastMax key none ys = lastMax key none xs := by
  cases hxs : lastMax key none xs with
  | none =>
      rw [lastMax_eq_none_iff] at hxs ⊢
      rw [hxs] at hperm
      exact hperm.symm.eq_nil
  | some x =>
      have hx := (lastMax_eq_some_iff.mp hxs).maxIn
      cases hys : lastMax key none ys with
      | none =>
          rw [lastMax_eq_none_iff.mp hys] at hperm
          rw [hperm.eq_nil] at hx
          exact absurd hx.1 (by simp)
      | some y =>
          have hy := (lastMax_eq_some_iff.mp hys).maxIn
          rw [h y x (hy.perm hperm.symm) hx]

theorem lastMax_concat {xs : List α} {x : α} (h : ∀ y ∈ xs, key y ≤ key x) :
    lastMax key none (xs ++ [x]) = some x :=
  lastMax_eq_some_iff.mpr ⟨xs, [], rfl, h, by simp⟩

end Cs118.Lib.LastMax
