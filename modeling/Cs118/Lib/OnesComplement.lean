import Cs118.Lib.Bytes
import Mathlib.Data.Nat.ModEq
/-!
# Ones' complement sums of 16-bit words

The sum of the big-endian words of a byte string, an odd last byte being padded
with zero, and the end-around carry.  Everything about checksums follows from
one fact: folding the carries keeps the sum modulo 65535.
-/

namespace Cs118.Lib.OnesComplement

open Cs118.Lib.Bytes

/-- The sum of the big-endian 16-bit words. -/
def wordSum : Buffer → Nat
  | [] => 0
  | [high] => 256 * high.toNat
  | high :: low :: rest => 256 * high.toNat + low.toNat + wordSum rest

@[simp] theorem wordSum_nil : wordSum [] = 0 := rfl

@[simp] theorem wordSum_singleton (high : UInt8) : wordSum [high] = 256 * high.toNat := rfl

@[simp] theorem wordSum_cons_cons (high low : UInt8) (rest : Buffer) :
    wordSum (high :: low :: rest) = 256 * high.toNat + low.toNat + wordSum rest := rfl

theorem wordSum_append {first : Buffer} (heven : first.length % 2 = 0) (second : Buffer) :
    wordSum (first ++ second) = wordSum first + wordSum second := by
  induction first using wordSum.induct with
  | case1 => simp
  | case2 high => simp at heven
  | case3 high low rest ih =>
      have hrest : rest.length % 2 = 0 := by
        simp only [List.length_cons] at heven
        omega
      simp [ih hrest, Nat.add_assoc]

theorem wordSum_le (bytes : Buffer) : wordSum bytes ≤ 65535 * ((bytes.length + 1) / 2) := by
  induction bytes using wordSum.induct with
  | case1 => simp
  | case2 high =>
      have := high.toNat_lt
      simp
      omega
  | case3 high low rest ih =>
      have := high.toNat_lt
      have := low.toNat_lt
      simp only [wordSum_cons_cons, List.length_cons]
      omega

theorem wordSum_setBytes {bytes word : Buffer} {offset : Nat} (heven : offset % 2 = 0)
    (hword : word.length % 2 = 0) (h : offset + word.length ≤ bytes.length) :
    wordSum (setBytes bytes offset word) + wordSum (getBytes bytes offset word.length) =
      wordSum bytes + wordSum word := by
  have htake : (bytes.take offset).length = offset := by simp; omega
  have hget : (getBytes bytes offset word.length).length = word.length := length_getBytes h
  have hsplit : bytes = bytes.take offset ++
      (getBytes bytes offset word.length ++ bytes.drop (offset + word.length)) := by
    rw [getBytes, ← List.drop_drop, List.take_append_drop, List.take_append_drop]
  have hsum : wordSum bytes = wordSum (bytes.take offset) +
      (wordSum (getBytes bytes offset word.length) +
        wordSum (bytes.drop (offset + word.length))) := by
    conv_lhs => rw [hsplit]
    rw [wordSum_append (by rw [htake, heven]), wordSum_append (by rw [hget, hword])]
  rw [setBytes, List.append_assoc, wordSum_append (by rw [htake, heven]),
    wordSum_append hword, hsum]
  omega

theorem wordSum_cons (high : UInt8) (rest : Buffer) :
    wordSum (high :: rest) = 256 * high.toNat + wordSum (0 :: rest) := by
  cases rest with
  | nil => simp
  | cons low rest =>
      simp
      omega

theorem wordSum_setByte {bytes : Buffer} {offset : Nat} (heven : offset % 2 = 0)
    (h : offset < bytes.length) (byte : UInt8) :
    wordSum (setBytes bytes offset [byte]) + 256 * bytes[offset].toNat =
      wordSum bytes + 256 * byte.toNat := by
  have htake : (bytes.take offset).length % 2 = 0 := by
    rw [List.length_take, Nat.min_eq_left (by omega), heven]
  have hsplit : bytes.take offset ++ bytes[offset] :: bytes.drop (offset + 1) = bytes := by
    rw [← List.drop_eq_getElem_cons h, List.take_append_drop]
  have hsum : wordSum bytes = wordSum (bytes.take offset) +
      (256 * bytes[offset].toNat + wordSum (0 :: bytes.drop (offset + 1))) := by
    conv_lhs => rw [← hsplit]
    rw [wordSum_append htake, wordSum_cons]
  have hset : wordSum (setBytes bytes offset [byte]) = wordSum (bytes.take offset) +
      (256 * byte.toNat + wordSum (0 :: bytes.drop (offset + 1))) := by
    rw [setBytes, List.append_assoc, List.singleton_append, wordSum_append htake, wordSum_cons]
    rfl
  omega

/-- Two words that agree modulo 65535 are equal, or they are the two zeros. -/
theorem eq_or_zeros_of_modEq {word word' : Buffer} (hlen : word.length = 2)
    (hlen' : word'.length = 2) (h : wordSum word % 65535 = wordSum word' % 65535) :
    word = word' ∨ word = [0, 0] ∧ word' = [0xff, 0xff] ∨ word = [0xff, 0xff] ∧ word' = [0, 0] := by
  obtain ⟨high, low, rfl⟩ := List.length_eq_two.mp hlen
  obtain ⟨high', low', rfl⟩ := List.length_eq_two.mp hlen'
  have hhigh := high.toNat_lt
  have hlow := low.toNat_lt
  have hhigh' := high'.toNat_lt
  have hlow' := low'.toNat_lt
  simp only [wordSum_cons_cons, wordSum_nil, Nat.add_zero] at h
  have hcases : 256 * high.toNat + low.toNat = 256 * high'.toNat + low'.toNat ∨
      256 * high.toNat + low.toNat = 0 ∧ 256 * high'.toNat + low'.toNat = 65535 ∨
      256 * high.toNat + low.toNat = 65535 ∧ 256 * high'.toNat + low'.toNat = 0 := by omega
  simp only [List.cons.injEq, and_true, ← UInt8.toNat_inj, UInt8.reduceToNat]
  rcases hcases with hsame | hfilled | hcleared
  · left
    omega
  · right; left
    omega
  · right; right
    omega

/-! ## End-around carry -/

def foldOnce (sum : Nat) : Nat := sum / 65536 + sum % 65536

/-- The sum with its carries folded in, between 0 and 65535. -/
def folded (sum : Nat) : Nat := if sum = 0 then 0 else (sum - 1) % 65535 + 1

theorem folded_le (sum : Nat) : folded sum ≤ 65535 := by
  unfold folded
  split_ifs <;> omega

theorem folded_modEq (sum : Nat) : folded sum ≡ sum [MOD 65535] := by
  unfold folded Nat.ModEq
  split_ifs <;> omega

theorem folded_foldOnce (sum : Nat) : folded (foldOnce sum) = folded sum := by
  unfold folded foldOnce
  split_ifs <;> omega

theorem folded_of_le {sum : Nat} (h : sum ≤ 65535) : folded sum = sum := by
  unfold folded
  split_ifs <;> omega

theorem folded_eq_zero_iff {sum : Nat} : folded sum = 0 ↔ sum = 0 := by
  unfold folded
  split_ifs with h <;> simp [h]

end Cs118.Lib.OnesComplement
