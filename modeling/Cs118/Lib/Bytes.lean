import Mathlib.Data.List.Basic
import Mathlib.Tactic.Ring
import Mathlib.Tactic.SplitIfs
/-!
# Byte buffers and host byte order

Memory images of C structures on a little-endian host, `memcpy` into and out
of a buffer, and the `hton`/`ntoh` conversions.  Everything is stated over
plain byte lists, so that a wire format only has to name its offsets.
-/

namespace Cs118.Lib.Bytes

abbrev Buffer := List UInt8

/-! ## Little-endian images of machine words -/

/-- The `width` bytes of `n` as a little-endian host stores them. -/
def leBytes : Nat → Nat → Buffer
  | 0, _ => []
  | width + 1, n => UInt8.ofNat (n % 256) :: leBytes width (n / 256)

def ofLeBytes : Buffer → Nat
  | [] => 0
  | byte :: bytes => byte.toNat + 256 * ofLeBytes bytes

@[simp] theorem length_leBytes (width n : Nat) : (leBytes width n).length = width := by
  induction width generalizing n with
  | zero => rfl
  | succ width ih => simp [leBytes, ih]

theorem ofLeBytes_lt (bytes : Buffer) : ofLeBytes bytes < 256 ^ bytes.length := by
  induction bytes with
  | nil => simp [ofLeBytes]
  | cons byte bytes ih =>
      have hbyte := byte.toNat_lt
      simp only [ofLeBytes, List.length_cons, pow_succ]
      omega

theorem ofLeBytes_leBytes (width n : Nat) :
    ofLeBytes (leBytes width n) = n % 256 ^ width := by
  induction width generalizing n with
  | zero => simp [leBytes, ofLeBytes, Nat.mod_one]
  | succ width ih =>
      have hsplit : n % (256 * 256 ^ width) = n % 256 + 256 * (n / 256 % 256 ^ width) :=
        Nat.mod_mul
      simp [leBytes, ofLeBytes, ih, pow_succ', hsplit]

theorem leBytes_ofLeBytes (bytes : Buffer) :
    leBytes bytes.length (ofLeBytes bytes) = bytes := by
  induction bytes with
  | nil => rfl
  | cons byte bytes ih =>
      have hbyte := byte.toNat_lt
      have hlow : (byte.toNat + 256 * ofLeBytes bytes) % 256 = byte.toNat := by omega
      have hhigh : (byte.toNat + 256 * ofLeBytes bytes) / 256 = ofLeBytes bytes := by omega
      simp [leBytes, ofLeBytes, hlow, hhigh, ih]

/-! ## Byte-order conversion -/

def byteSwap (width n : Nat) : Nat :=
  ofLeBytes (leBytes width n).reverse

theorem byteSwap_lt (width n : Nat) : byteSwap width n < 256 ^ width := by
  simpa [byteSwap] using ofLeBytes_lt (leBytes width n).reverse

theorem leBytes_byteSwap (width n : Nat) :
    leBytes width (byteSwap width n) = (leBytes width n).reverse := by
  simpa [byteSwap] using leBytes_ofLeBytes (leBytes width n).reverse

theorem byteSwap_byteSwap {width n : Nat} (hn : n < 256 ^ width) :
    byteSwap width (byteSwap width n) = n := by
  rw [byteSwap, leBytes_byteSwap, List.reverse_reverse, ofLeBytes_leBytes,
    Nat.mod_eq_of_lt hn]

/-- `htons` of a little-endian host; `ntohs` is the same function. -/
def htons (x : UInt16) : UInt16 := UInt16.ofNat (byteSwap 2 x.toNat)

def ntohs (x : UInt16) : UInt16 := htons x

def htonl (x : UInt32) : UInt32 := UInt32.ofNat (byteSwap 4 x.toNat)

def ntohl (x : UInt32) : UInt32 := htonl x

@[simp] theorem htons_toNat (x : UInt16) : (htons x).toNat = byteSwap 2 x.toNat := by
  have h := byteSwap_lt 2 x.toNat
  simp [htons]
  omega

@[simp] theorem htonl_toNat (x : UInt32) : (htonl x).toNat = byteSwap 4 x.toNat := by
  have h := byteSwap_lt 4 x.toNat
  simp [htonl]
  omega

@[simp] theorem ntohs_htons (x : UInt16) : ntohs (htons x) = x := by
  apply UInt16.toNat.inj
  rw [ntohs, htons_toNat, htons_toNat, byteSwap_byteSwap x.toNat_lt]

@[simp] theorem ntohl_htonl (x : UInt32) : ntohl (htonl x) = x := by
  apply UInt32.toNat.inj
  rw [ntohl, htonl_toNat, htonl_toNat, byteSwap_byteSwap x.toNat_lt]

/-! ## Words in memory -/

def image16 (x : UInt16) : Buffer := leBytes 2 x.toNat

def image32 (x : UInt32) : Buffer := leBytes 4 x.toNat

def load16 (bytes : Buffer) : UInt16 := UInt16.ofNat (ofLeBytes (bytes.take 2))

def load32 (bytes : Buffer) : UInt32 := UInt32.ofNat (ofLeBytes (bytes.take 4))

@[simp] theorem length_image16 (x : UInt16) : (image16 x).length = 2 := by simp [image16]

@[simp] theorem length_image32 (x : UInt32) : (image32 x).length = 4 := by simp [image32]

@[simp] theorem load16_image16 (x : UInt16) (rest : Buffer) :
    load16 (image16 x ++ rest) = x := by
  apply UInt16.toNat.inj
  rw [load16, List.take_left' (length_image16 x), image16, ofLeBytes_leBytes]
  simp [Nat.mod_eq_of_lt x.toNat_lt]

@[simp] theorem load32_image32 (x : UInt32) (rest : Buffer) :
    load32 (image32 x ++ rest) = x := by
  apply UInt32.toNat.inj
  rw [load32, List.take_left' (length_image32 x), image32, ofLeBytes_leBytes]
  simp [Nat.mod_eq_of_lt x.toNat_lt]

theorem image16_load16 {bytes : Buffer} (h : 2 ≤ bytes.length) :
    image16 (load16 bytes) = bytes.take 2 := by
  have hlen : (bytes.take 2).length = 2 := by simpa using h
  have hlt := ofLeBytes_lt (bytes.take 2)
  rw [hlen] at hlt
  have hback := leBytes_ofLeBytes (bytes.take 2)
  rw [hlen] at hback
  rw [image16, load16, UInt16.toNat_ofNat', Nat.mod_eq_of_lt (by simpa using hlt), hback]

theorem image32_load32 {bytes : Buffer} (h : 4 ≤ bytes.length) :
    image32 (load32 bytes) = bytes.take 4 := by
  have hlen : (bytes.take 4).length = 4 := by simpa using h
  have hlt := ofLeBytes_lt (bytes.take 4)
  rw [hlen] at hlt
  have hback := leBytes_ofLeBytes (bytes.take 4)
  rw [hlen] at hback
  rw [image32, load32, UInt32.toNat_ofNat', Nat.mod_eq_of_lt (by simpa using hlt), hback]

/-! ## `memcpy` -/

/-- Copy `count` bytes out of `buffer` from `offset` on. -/
def getBytes (buffer : Buffer) (offset count : Nat) : Buffer :=
  (buffer.drop offset).take count

/-- Copy `bytes` over `buffer` from `offset` on. -/
def setBytes (buffer : Buffer) (offset : Nat) (bytes : Buffer) : Buffer :=
  buffer.take offset ++ bytes ++ buffer.drop (offset + bytes.length)

theorem length_getBytes {buffer : Buffer} {offset count : Nat}
    (h : offset + count ≤ buffer.length) : (getBytes buffer offset count).length = count := by
  simp [getBytes]
  omega

theorem length_setBytes {buffer bytes : Buffer} {offset : Nat}
    (h : offset + bytes.length ≤ buffer.length) :
    (setBytes buffer offset bytes).length = buffer.length := by
  simp [setBytes]
  omega

theorem le_length_setBytes {n : Nat} {buffer : Buffer} (h : n ≤ buffer.length) (offset : Nat)
    (bytes : Buffer) : n ≤ (setBytes buffer offset bytes).length := by
  simp [setBytes]
  omega

theorem getElem?_setBytes {buffer bytes : Buffer} {offset : Nat}
    (h : offset + bytes.length ≤ buffer.length) (i : Nat) :
    (setBytes buffer offset bytes)[i]? =
      if offset ≤ i ∧ i < offset + bytes.length then bytes[i - offset]? else buffer[i]? := by
  have htake : (buffer.take offset).length = offset := by simp; omega
  rw [setBytes, List.append_assoc]
  by_cases hlow : i < offset
  · rw [List.getElem?_append_left (by omega), List.getElem?_take_of_lt hlow,
      if_neg (by omega)]
  · rw [List.getElem?_append_right (by omega), htake]
    by_cases hhigh : i < offset + bytes.length
    · rw [List.getElem?_append_left (by omega), if_pos (by omega)]
    · rw [List.getElem?_append_right (by omega), List.getElem?_drop, if_neg (by omega)]
      congr 1
      omega

theorem getElem?_getBytes (buffer : Buffer) (offset count i : Nat) :
    (getBytes buffer offset count)[i]? = if i < count then buffer[offset + i]? else none := by
  rw [getBytes, List.getElem?_take, List.getElem?_drop]

theorem getBytes_setBytes_same {buffer bytes : Buffer} {offset : Nat}
    (h : offset + bytes.length ≤ buffer.length) :
    getBytes (setBytes buffer offset bytes) offset bytes.length = bytes := by
  apply List.ext_getElem?
  intro i
  rw [getElem?_getBytes, getElem?_setBytes h]
  by_cases hi : i < bytes.length
  · rw [if_pos hi, if_pos (by omega), Nat.add_sub_cancel_left]
  · rw [if_neg hi, List.getElem?_eq_none (by omega)]

theorem getBytes_setBytes_disjoint {buffer bytes : Buffer} {offset start count : Nat}
    (h : offset + bytes.length ≤ buffer.length)
    (hdisjoint : start + count ≤ offset ∨ offset + bytes.length ≤ start) :
    getBytes (setBytes buffer offset bytes) start count = getBytes buffer start count := by
  apply List.ext_getElem?
  intro i
  rw [getElem?_getBytes, getElem?_getBytes, getElem?_setBytes h]
  by_cases hi : i < count
  · rw [if_pos hi, if_pos hi, if_neg (by omega)]
  · rw [if_neg hi, if_neg hi]

theorem getBytes_setBytes_within {buffer bytes : Buffer} {offset start count : Nat}
    (h : start + count ≤ buffer.length) (hlow : start ≤ offset)
    (hhigh : offset + bytes.length ≤ start + count) :
    getBytes (setBytes buffer offset bytes) start count =
      setBytes (getBytes buffer start count) (offset - start) bytes := by
  apply List.ext_getElem?
  intro i
  have hlen := length_getBytes h
  rw [getElem?_getBytes, getElem?_setBytes (by omega), getElem?_setBytes (by omega),
    getElem?_getBytes]
  by_cases hi : i < count
  · simp only [if_pos hi]
    by_cases hin : offset ≤ start + i ∧ start + i < offset + bytes.length
    · rw [if_pos hin, if_pos (by omega)]
      congr 1
      omega
    · rw [if_neg hin, if_neg (by omega)]
  · simp only [if_neg hi]
    rw [if_neg (by omega)]

theorem drop_setBytes_before {buffer bytes : Buffer} {offset n : Nat}
    (hfits : offset + bytes.length ≤ buffer.length) (h : offset + bytes.length ≤ n) :
    (setBytes buffer offset bytes).drop n = buffer.drop n := by
  apply List.ext_getElem?
  intro i
  rw [List.getElem?_drop, List.getElem?_drop, getElem?_setBytes hfits, if_neg (by omega)]

theorem drop_setBytes_after {buffer bytes : Buffer} {offset n : Nat}
    (hfits : offset + bytes.length ≤ buffer.length) (h : n ≤ offset) :
    (setBytes buffer offset bytes).drop n = setBytes (buffer.drop n) (offset - n) bytes := by
  have hrest : offset - n + bytes.length ≤ (buffer.drop n).length := by
    rw [List.length_drop]
    omega
  apply List.ext_getElem?
  intro i
  rw [List.getElem?_drop, getElem?_setBytes hfits, getElem?_setBytes hrest, List.getElem?_drop]
  by_cases hi : offset ≤ n + i ∧ n + i < offset + bytes.length
  · rw [if_pos hi, if_pos (by omega)]
    congr 1
    omega
  · rw [if_neg hi, if_neg (by omega)]

theorem getBytes_getBytes {buffer : Buffer} {start count offset size : Nat}
    (h : offset + size ≤ count) :
    getBytes (getBytes buffer start count) offset size = getBytes buffer (start + offset) size := by
  rw [getBytes, getBytes, getBytes, List.drop_take, List.take_take, List.drop_drop,
    Nat.min_eq_left (by omega)]

theorem setBytes_setBytes_same {buffer first second : Buffer} {offset : Nat}
    (hlen : first.length = second.length) (h : offset + first.length ≤ buffer.length) :
    setBytes (setBytes buffer offset first) offset second = setBytes buffer offset second := by
  apply List.ext_getElem?
  intro i
  rw [getElem?_setBytes (by rw [length_setBytes h]; omega), getElem?_setBytes h,
    getElem?_setBytes (by omega), hlen]
  split_ifs <;> rfl

end Cs118.Lib.Bytes
