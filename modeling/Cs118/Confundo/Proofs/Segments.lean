import Mathlib.Data.Nat.ModEq
import Mathlib.Tactic.IntervalCases
import Cs118.Confundo.Client
/-!
# Segments of a file and their sequence numbers

The client cuts its file into segments of 512 bytes at offsets that are
multiples of 512, the last one shorter and possibly empty.  The segment at
offset `pos` has number `12346 + pos` modulo 102401.
-/

namespace Cs118.Confundo

open Cs118.Lib.Bytes

def seqAt (pos : Nat) : UInt32 := UInt32.ofNat ((12346 + pos) % seqModulus)

def chunk (file : Buffer) (pos : Nat) : Buffer := getBytes file pos dataSize

def endOf (file : Buffer) (pos : Nat) : Nat := pos + (chunk file pos).length

/-- An offset at which the client cuts the file. -/
def Cut (file : Buffer) (pos : Nat) : Prop := pos % dataSize = 0 ∧ pos ≤ file.length

/-- An offset at which some segment starts or ends. -/
def Boundary (file : Buffer) (pos : Nat) : Prop :=
  pos ≤ file.length ∧ (pos % dataSize = 0 ∨ pos = file.length)

theorem seqAt_toNat (pos : Nat) : (seqAt pos).toNat = (12346 + pos) % seqModulus := by
  unfold seqAt seqModulus
  rw [UInt32.toNat_ofNat']
  omega

theorem seqAt_zero : seqAt 0 = 12346 := by decide

theorem seqAt_add (pos : Nat) {n : Nat} (hn : n ≤ dataSize) :
    (seqAt pos + UInt32.ofNat n) % UInt32.ofNat seqModulus = seqAt (pos + n) := by
  apply UInt32.toNat.inj
  have hpos := seqAt_toNat pos
  have hsum := seqAt_toNat (pos + n)
  have hmodulus : (UInt32.ofNat seqModulus).toNat = seqModulus := by decide
  rw [UInt32.toNat_mod, UInt32.toNat_add, UInt32.toNat_ofNat', hmodulus, hpos, hsum]
  unfold dataSize at hn
  unfold seqModulus
  omega

theorem seqAt_eq_iff {p q : Nat} : seqAt p = seqAt q ↔ p ≡ q [MOD seqModulus] := by
  rw [← UInt32.toNat_inj, seqAt_toNat, seqAt_toNat]
  exact Nat.ModEq.add_iff_left rfl

theorem seqAt_inj {p q : Nat} (hp : p < seqModulus) (hq : q < seqModulus)
    (h : seqAt p = seqAt q) : p = q :=
  Nat.ModEq.eq_of_lt_of_lt (seqAt_eq_iff.mp h) hp hq

theorem seqAt_ne_zero {pos : Nat} (h : 12346 + pos < seqModulus) : seqAt pos ≠ 0 := by
  intro h0
  have := congrArg UInt32.toNat h0
  rw [seqAt_toNat, Nat.mod_eq_of_lt h, UInt32.toNat_zero] at this
  omega

theorem length_chunk (file : Buffer) (pos : Nat) :
    (chunk file pos).length = min dataSize (file.length - pos) := by
  simp [chunk, getBytes]

theorem length_chunk_le (file : Buffer) (pos : Nat) : (chunk file pos).length ≤ dataSize := by
  rw [length_chunk]
  exact min_le_left _ _

theorem endOf_eq {file : Buffer} {pos : Nat} (hpos : pos ≤ file.length) :
    endOf file pos = min (pos + dataSize) file.length := by
  rw [endOf, length_chunk]
  omega

theorem le_endOf (file : Buffer) (pos : Nat) : pos ≤ endOf file pos := Nat.le_add_right _ _

theorem endOf_le {file : Buffer} {pos : Nat} (hpos : pos ≤ file.length) :
    endOf file pos ≤ file.length := by
  rw [endOf_eq hpos]
  exact min_le_right _ _

theorem Cut.boundary {file : Buffer} {pos : Nat} (h : Cut file pos) : Boundary file pos :=
  ⟨h.2, Or.inl h.1⟩

theorem Cut.boundary_endOf {file : Buffer} {pos : Nat} (h : Cut file pos) :
    Boundary file (endOf file pos) := by
  refine ⟨endOf_le h.2, ?_⟩
  have hmod := h.1
  rw [endOf_eq h.2]
  unfold dataSize at *
  omega

theorem Cut.endOf_le_of_lt {file : Buffer} {pos a : Nat} (h : Cut file pos)
    (ha : Boundary file a) (hlt : pos < a) : endOf file pos ≤ a := by
  obtain ⟨hmod, hle⟩ := h
  obtain ⟨hale, ha⟩ := ha
  rw [endOf_eq hle]
  unfold dataSize at *
  omega

theorem take_append_chunk (file : Buffer) (pos : Nat) :
    file.take pos ++ chunk file pos = file.take (endOf file pos) := by
  have hsplit : file.take (pos + dataSize) = file.take pos ++ chunk file pos := by
    rw [List.take_add]
    rfl
  by_cases hpos : pos ≤ file.length
  · rw [← hsplit, endOf_eq hpos]
    by_cases hfull : pos + dataSize ≤ file.length
    · rw [min_eq_left hfull]
    · rw [min_eq_right (by omega), List.take_of_length_le (by omega),
        List.take_of_length_le le_rfl]
  · have hempty : chunk file pos = [] := by
      apply List.eq_nil_of_length_eq_zero
      rw [length_chunk]
      omega
    simp [hempty, endOf]

def entry (file : Buffer) (pos : Nat) : Logger := ⟨seqAt (endOf file pos), seqAt pos, pos⟩

def Logged (file : Buffer) (log : Logger) : Prop :=
  Cut file log.filePos ∧ log = entry file log.filePos

/-! ## Ambiguous sequence numbers -/

/-- No segment carries the number of another offset at which the receiver can
stand. -/
def Unambiguous (file : Buffer) : Prop :=
  ∀ pos a, Cut file pos → pos < file.length → Boundary file a →
    seqAt pos = seqAt a → pos = a

theorem Unambiguous.eq {file : Buffer} (h : Unambiguous file) {pos a : Nat} (hcut : Cut file pos)
    (ha : Boundary file a) (hseq : seqAt pos = seqAt a) : pos = a := by
  by_cases hlt : pos < file.length
  · exact h pos a hcut hlt ha hseq
  · have hend : pos = file.length := le_antisymm hcut.2 (Nat.le_of_not_lt hlt)
    by_contra hne
    have halt : a < file.length := by have := ha.1; omega
    have hacut : Cut file a := ⟨ha.2.resolve_right (by omega), ha.1⟩
    exact hne (h a pos hacut halt ⟨hcut.2, Or.inr hend⟩ hseq.symm).symm

/-- The length is a positive multiple of 102401 more than the offset of a segment. -/
def Wraps (n : Nat) : Prop := ∃ k i, 0 < k ∧ n = seqModulus * k + dataSize * i

/-- Sequence numbers are ambiguous exactly for the lengths that wrap onto the
number of a segment: past 512 · 102401 bytes every length does. -/
theorem unambiguous_of_not_wraps {file : Buffer} (h : ¬ Wraps file.length) :
    Unambiguous file := by
  intro pos a hcut hlt ha hseq
  have hmod := seqAt_eq_iff.mp hseq
  by_contra hne
  apply h
  obtain ⟨hpos, -⟩ := hcut
  obtain ⟨hale, ha⟩ := ha
  have hlong : seqModulus * dataSize ≤ file.length ∨ a = file.length := by
    by_cases hend : a = file.length
    · exact Or.inr hend
    · left
      have hamod : a % dataSize = 0 := ha.resolve_right hend
      unfold Nat.ModEq seqModulus dataSize at *
      omega
  rcases hlong with hlong | hend
  · -- 102401 is 1 modulo 512, so the remainder of the length tells how often to wrap
    unfold seqModulus dataSize at hlong
    by_cases hz : file.length % 512 = 0
    · refine ⟨512, (file.length - 102401 * 512) / 512, by omega, ?_⟩
      unfold seqModulus dataSize
      omega
    · refine ⟨file.length % 512, (file.length - 102401 * (file.length % 512)) / 512,
        by omega, ?_⟩
      unfold seqModulus dataSize
      omega
  · refine ⟨(file.length - pos) / seqModulus, pos / dataSize, ?_, ?_⟩
    · subst hend
      unfold Nat.ModEq seqModulus dataSize at *
      omega
    · subst hend
      unfold Nat.ModEq seqModulus dataSize at *
      omega

theorem not_wraps_of_lt {n : Nat} (h : n < seqModulus) : ¬ Wraps n := by
  rintro ⟨k, i, hk, hn⟩
  unfold seqModulus dataSize at *
  omega

end Cs118.Confundo
