import Mathlib.Tactic.SplitIfs
import Cs118.Lib.OnesComplement
/-!
# The Internet checksum (`cksum` in `core/utils.cpp`)
-/

namespace Cs118.Router

open Cs118.Lib.Bytes
open Cs118.Lib.OnesComplement

/-- The loop over the words and the odd last byte.  A `len` beyond the data would
read past it; nothing is added then. -/
def addWords : Buffer → Int → UInt32 → UInt32
  | high :: low :: rest, len, sum =>
    if 2 ≤ len then
      addWords rest (len - 2) (sum + UInt32.ofNat (high.toNat <<< 8 ||| low.toNat))
    else if 0 < len then sum + UInt32.ofNat (high.toNat <<< 8)
    else sum
  | [high], len, sum => if 0 < len then sum + UInt32.ofNat (high.toNat <<< 8) else sum
  | [], _, sum => sum

/-- `while (sum > 0xffff)`; two rounds are always enough. -/
def foldCarries : Nat → UInt32 → UInt32
  | 0, sum => sum
  | rounds + 1, sum =>
    if 0xffff < sum then foldCarries rounds ((sum >>> 16) + (sum &&& 0xffff)) else sum

def cksum (data : Buffer) (len : Int) : UInt16 :=
  let sum := foldCarries 2 (addWords data len 0)
  let sum := htons (~~~sum).toUInt16
  if sum = 0 then 0xffff else sum

/-! ## The sum -/

theorem addWords_toNat (data : Buffer) (sum : UInt32) :
    (addWords data data.length sum).toNat = (sum.toNat + wordSum data) % 2 ^ 32 := by
  induction data using wordSum.induct generalizing sum with
  | case1 => simp [addWords, Nat.mod_eq_of_lt sum.toNat_lt]
  | case2 high =>
      have hhigh := high.toNat_lt
      simp [addWords, Nat.shiftLeft_eq, Nat.mul_comm high.toNat]
  | case3 high low rest ih =>
      have hhigh := high.toNat_lt
      have hlow := low.toNat_lt
      have hlen : ((high :: low :: rest).length : Int) - 2 = (rest.length : Int) := by
        simp only [List.length_cons]
        omega
      have hword : (UInt32.ofNat (high.toNat <<< 8 ||| low.toNat)).toNat =
          256 * high.toNat + low.toNat := by
        rw [← Nat.shiftLeft_add_eq_or_of_lt (by omega), Nat.shiftLeft_eq, UInt32.toNat_ofNat']
        omega
      rw [addWords, if_pos (by simp only [List.length_cons]; omega), hlen, ih, UInt32.toNat_add,
        hword, wordSum_cons_cons]
      omega

theorem addWords_of_nonpos (data : Buffer) {len : Int} (h : len ≤ 0) (sum : UInt32) :
    addWords data len sum = sum := by
  rcases data with _ | ⟨high, _ | ⟨low, rest⟩⟩
  · rfl
  · rw [addWords, if_neg (by omega)]
  · rw [addWords, if_neg (by omega), if_neg (by omega)]

/-- With a length that is not positive every checksum is right. -/
theorem cksum_of_nonpos (data : Buffer) {len : Int} (h : len ≤ 0) : cksum data len = 0xffff := by
  rw [cksum, addWords_of_nonpos data h]
  decide

theorem foldCarries_step (sum : UInt32) :
    ((sum >>> 16) + (sum &&& 0xffff)).toNat = foldOnce sum.toNat := by
  have hlow : sum.toNat &&& 65535 = sum.toNat % 65536 := Nat.and_two_pow_sub_one_eq_mod _ 16
  have hhigh : sum.toNat >>> 16 = sum.toNat / 65536 := Nat.shiftRight_eq_div_pow _ 16
  have hlt := sum.toNat_lt
  rw [UInt32.toNat_add, UInt32.toNat_shiftRight, UInt32.toNat_and]
  simp only [UInt32.reduceToNat, Nat.reduceMod, hlow, hhigh, foldOnce]
  omega

/-- The loop ends within its two rounds. -/
theorem foldCarries_toNat (sum : UInt32) : (foldCarries 2 sum).toNat = folded sum.toNat := by
  have hlt := sum.toNat_lt
  unfold foldCarries
  split_ifs with hfirst
  · unfold foldCarries
    split_ifs with hsecond
    · rw [foldCarries, foldCarries_step, foldCarries_step,
        ← folded_foldOnce sum.toNat, ← folded_foldOnce (foldOnce sum.toNat), folded_of_le]
      unfold foldOnce
      omega
    · have hle : foldOnce sum.toNat ≤ 65535 := by
        rw [← foldCarries_step]
        exact Nat.le_of_not_lt hsecond
      rw [foldCarries_step, ← folded_foldOnce sum.toNat, folded_of_le hle]
  · exact (folded_of_le (Nat.le_of_not_lt hfirst)).symm

theorem htons_eq_zero_iff {x : UInt16} : htons x = 0 ↔ x = 0 := by
  constructor
  · intro h
    have := ntohs_htons x
    rw [h] at this
    rw [← this]
    decide
  · rintro rfl
    decide

theorem wordSum_image16_htons (x : UInt16) : wordSum (image16 (htons x)) = x.toNat := by
  have hlt := x.toNat_lt
  rw [image16, htons_toNat, leBytes_byteSwap]
  simp [leBytes]
  omega

theorem cksum_eq {data : Buffer} (h : data.length ≤ 131074) :
    cksum data data.length =
      if folded (wordSum data) = 65535 then 0xffff
      else htons (UInt16.ofNat (65535 - folded (wordSum data))) := by
  have hsum := wordSum_le data
  have hle := folded_le (wordSum data)
  have htoNat : (foldCarries 2 (addWords data data.length 0)).toNat = folded (wordSum data) := by
    rw [foldCarries_toNat, addWords_toNat, UInt32.toNat_zero, Nat.zero_add, Nat.mod_eq_of_lt]
    omega
  have hnot : (~~~(foldCarries 2 (addWords data data.length 0))).toUInt16 =
      UInt16.ofNat (65535 - folded (wordSum data)) := by
    apply UInt16.toNat.inj
    rw [UInt32.toNat_toUInt16, UInt32.toNat_not, htoNat, UInt16.toNat_ofNat']
    show (4294967296 - 1 - folded (wordSum data)) % 65536 = _
    omega
  have hzero : htons (UInt16.ofNat (65535 - folded (wordSum data))) = 0 ↔
      folded (wordSum data) = 65535 := by
    rw [htons_eq_zero_iff, ← UInt16.toNat_inj, UInt16.toNat_ofNat', UInt16.toNat_zero]
    omega
  unfold cksum
  simp only [hnot, hzero]

theorem cksum_eq_ones_iff {data : Buffer} (h : data.length ≤ 131074) :
    cksum data data.length = 0xffff ↔ wordSum data % 65535 = 0 := by
  have hle := folded_le (wordSum data)
  have hmod := folded_modEq (wordSum data)
  unfold Nat.ModEq at hmod
  rw [cksum_eq h]
  split_ifs with hones
  · simp only [true_iff]
    omega
  · have hhtons : htons 0xffff = 0xffff := by decide
    constructor
    · intro heq
      have hback := congrArg ntohs heq
      rw [ntohs_htons, show ntohs 0xffff = 0xffff by decide] at hback
      have htoNat := congrArg UInt16.toNat hback
      rw [UInt16.toNat_ofNat'] at htoNat
      simp only [UInt16.reduceToNat] at htoNat
      omega
    · intro hzero
      have hfolded : folded (wordSum data) = 0 := by omega
      rw [hfolded]
      exact hhtons

theorem wordSum_add_cksum {data : Buffer} (h : data.length ≤ 131074) :
    (wordSum data + wordSum (image16 (cksum data data.length))) % 65535 = 0 := by
  have hle := folded_le (wordSum data)
  have hmod := folded_modEq (wordSum data)
  unfold Nat.ModEq at hmod
  rw [cksum_eq h]
  split_ifs with hones
  · have hword : wordSum (image16 0xffff) = 65535 := by decide
    rw [hword]
    omega
  · rw [wordSum_image16_htons, UInt16.toNat_ofNat']
    omega

/-- A field of zeros at an even offset, overwritten with the checksum of the
whole, makes the whole verify. -/
theorem cksum_store {data : Buffer} (h : data.length ≤ 131074) {offset : Nat}
    (heven : offset % 2 = 0) (hfits : offset + 2 ≤ data.length)
    (hfield : wordSum (getBytes data offset 2) = 0) :
    cksum (setBytes data offset (image16 (cksum data data.length))) data.length = 0xffff := by
  generalize hword : image16 (cksum data data.length) = word
  have hwordLength : word.length = 2 := by rw [← hword, length_image16]
  have hlen : (setBytes data offset word).length = data.length :=
    length_setBytes (by omega)
  have hset := wordSum_setBytes heven (by omega) (by omega : offset + word.length ≤ data.length)
  have hsum := wordSum_add_cksum h
  rw [hwordLength, hfield] at hset
  rw [hword] at hsum
  have hones : cksum (setBytes data offset word) (setBytes data offset word).length = 0xffff :=
    (cksum_eq_ones_iff (by omega)).mpr (by omega)
  rwa [hlen] at hones

end Cs118.Router
