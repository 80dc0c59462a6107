import Mathlib.Data.List.Nodup
import Mathlib.Tactic.SplitIfs
/-!
# Lists of keyed records

A list whose elements carry a key, searched for the first element with a given
key.  While the keys are distinct, each element can be changed or removed without
any effect on what is found under the other keys.
-/

namespace Cs118.Lib.Keyed

variable {α β κ : Type} [DecidableEq κ] (key : α → κ) (value : α → β) (absent : β)

/-- The value of the first element under `k`, and `absent` if there is none. -/
def valueAt (k : κ) : List α → β
  | [] => absent
  | x :: xs => if key x = k then value x else valueAt k xs

variable {key value absent}

@[simp] theorem valueAt_nil (k : κ) : valueAt key value absent k [] = absent := rfl

theorem valueAt_cons (k : κ) (x : α) (xs : List α) :
    valueAt key value absent k (x :: xs) =
      if key x = k then value x else valueAt key value absent k xs := rfl

theorem valueAt_of_not_mem {k : κ} {xs : List α} (h : k ∉ xs.map key) :
    valueAt key value absent k xs = absent := by
  induction xs with
  | nil => rfl
  | cons x xs ih =>
      simp only [List.map_cons, List.mem_cons, not_or] at h
      rw [valueAt_cons, if_neg (Ne.symm h.1), ih h.2]

theorem valueAt_eq_find? (k : κ) (xs : List α) :
    valueAt key value absent k xs = ((xs.find? fun x => key x = k).map value).getD absent := by
  induction xs with
  | nil => rfl
  | cons x xs ih =>
      rw [valueAt_cons, List.find?_cons]
      by_cases hkey : key x = k
      · simp [hkey]
      · simp [hkey, ih]

theorem find?_key_of_mem {xs : List α} (hdistinct : (xs.map key).Nodup) {x : α} (hx : x ∈ xs) :
    (xs.find? fun y => key y = key x) = some x := by
  induction xs with
  | nil => simp at hx
  | cons y ys ih =>
      simp only [List.map_cons, List.nodup_cons] at hdistinct
      rw [List.find?_cons]
      rcases List.mem_cons.mp hx with rfl | hx
      · simp
      · have hne : key y ≠ key x := fun heq => hdistinct.1 (heq ▸ List.mem_map_of_mem hx)
        simp [hne, ih hdistinct.2 hx]

theorem valueAt_of_mem {xs : List α} (hdistinct : (xs.map key).Nodup) {x : α} (hx : x ∈ xs) :
    valueAt key value absent (key x) xs = value x := by
  rw [valueAt_eq_find?, find?_key_of_mem hdistinct hx]
  rfl

/-- Removing the element under one key empties that key only. -/
theorem valueAt_eraseP {xs : List α} (hdistinct : (xs.map key).Nodup) (k removed : κ) :
    valueAt key value absent k (xs.eraseP fun x => key x = removed) =
      if k = removed then absent else valueAt key value absent k xs := by
  induction xs with
  | nil => simp
  | cons x xs ih =>
      simp only [List.map_cons, List.nodup_cons] at hdistinct
      by_cases hx : key x = removed
      · rw [List.eraseP_cons_of_pos (by simpa using hx)]
        by_cases hk : k = removed
        · rw [if_pos hk, valueAt_of_not_mem (by rw [hk, ← hx]; exact hdistinct.1)]
        · rw [if_neg hk, valueAt_cons, if_neg (by rw [hx]; exact Ne.symm hk)]
      · rw [List.eraseP_cons_of_neg (by simpa using hx), valueAt_cons, valueAt_cons,
          ih hdistinct.2]
        by_cases hkey : key x = k
        · rw [if_pos hkey, if_pos hkey, if_neg (by rw [← hkey]; exact hx)]
        · rw [if_neg hkey, if_neg hkey]

theorem not_mem_map_key_eraseP {xs : List α} (hdistinct : (xs.map key).Nodup) (removed : κ) :
    removed ∉ (xs.eraseP fun x => key x = removed).map key := by
  induction xs with
  | nil => simp
  | cons x xs ih =>
      simp only [List.map_cons, List.nodup_cons] at hdistinct
      by_cases hx : key x = removed
      · rw [List.eraseP_cons_of_pos (by simpa using hx), ← hx]
        exact hdistinct.1
      · rw [List.eraseP_cons_of_neg (by simpa using hx)]
        simp [Ne.symm hx, ih hdistinct.2]

end Cs118.Lib.Keyed
