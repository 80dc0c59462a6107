import Cs118.Lib.LastMax
import Cs118.Router.System
/-!
# Longest-prefix match

`lookup` compares masks as the host loads them, and they are stored in network order.
Contiguous masks are ordered by their length all the same: one more bit of prefix sets a
bit that was clear, in whichever byte it falls.
-/

namespace Cs118.Router

open Cs118.Lib.Bytes
open Cs118.Lib.LastMax

/-- The mask with `n` leading bits, as `inet_aton` stores it. -/
def prefixMask (n : Nat) : UInt32 := htonl (UInt32.ofNat (2 ^ 32 - 2 ^ (32 - n)))

def prefixLength (mask : UInt32) : Nat := (List.range 32).countP fun bit => mask.toNat.testBit bit

/-- The entry agrees with the address under its mask. -/
def RoutingTableEntry.Matches (entry : RoutingTableEntry) (ip : UInt32) : Prop :=
  ip &&& entry.mask = entry.dest &&& entry.mask

instance (entry : RoutingTableEntry) (ip : UInt32) : Decidable (entry.Matches ip) :=
  inferInstanceAs (Decidable (_ = _))

def RoutingTable.Contiguous (table : RoutingTable) : Prop :=
  ∀ entry ∈ table.entries, ∃ n ≤ 32, entry.mask = prefixMask n

/-! ## Masks -/

theorem prefixLength_prefixMask {n : Nat} (h : n ≤ 32) : prefixLength (prefixMask n) = n := by
  have hall : ∀ n < 33, prefixLength (prefixMask n) = n := by decide +kernel
  exact hall n (by omega)

/-- One more bit makes the mask greater, as a host integer. -/
theorem prefixMask_lt_succ {n : Nat} (h : n < 32) :
    (prefixMask n).toNat < (prefixMask (n + 1)).toNat := by
  have hall : ∀ n < 32, (prefixMask n).toNat < (prefixMask (n + 1)).toNat := by decide +kernel
  exact hall n h

theorem prefixMask_mono {n m : Nat} (hnm : n ≤ m) (hm : m ≤ 32) :
    (prefixMask n).toNat ≤ (prefixMask m).toNat := by
  induction m, hnm using Nat.le_induction with
  | base => exact Nat.le_refl _
  | succ m hnm ih =>
      exact (ih (by omega)).trans (prefixMask_lt_succ (by omega)).le

theorem prefixMask_le_iff {n m : Nat} (hn : n ≤ 32) (hm : m ≤ 32) :
    (prefixMask n).toNat ≤ (prefixMask m).toNat ↔ n ≤ m := by
  constructor
  · intro hle
    by_contra hlt
    have hstep := prefixMask_lt_succ (by omega : m < 32)
    have hmono := prefixMask_mono (by omega : m + 1 ≤ n) hn
    omega
  · exact fun hle => prefixMask_mono hle hm

/-! ## The loop -/

/-- The loop is the pass that keeps the last greatest mask, over the entries that match. -/
theorem longestMatch_eq (ip : UInt32) (best : Option RoutingTableEntry)
    (entries : List RoutingTableEntry) :
    longestMatch ip best entries =
      lastMax (fun entry : RoutingTableEntry => entry.mask.toNat) best
        (entries.filter (·.Matches ip)) := by
  induction entries generalizing best with
  | nil => cases best <;> rfl
  | cons entry rest ih =>
      unfold longestMatch
      by_cases hmatch : ip &&& entry.mask = entry.dest &&& entry.mask
      · have hmatches : entry.Matches ip := hmatch
        rw [if_pos hmatch, List.filter_cons_of_pos (by simpa using hmatches)]
        cases best with
        | none => exact ih _
        | some longest =>
            dsimp only
            rw [ih, ih, lastMax]
            exact if_congr UInt32.le_iff_toNat_le rfl rfl
      · have hmatches : ¬ entry.Matches ip := hmatch
        rw [if_neg hmatch, ih, List.filter_cons_of_neg (by simpa using hmatches)]

/-- The lookup as one pass over the matching routes, by prefix length. -/
theorem lookup_eq_lastMax {table : RoutingTable} (h : table.Contiguous) (ip : UInt32) :
    table.lookup ip =
      lastMax (fun entry : RoutingTableEntry => prefixLength entry.mask) none
        (table.entries.filter (·.Matches ip)) := by
  unfold RoutingTable.lookup
  rw [longestMatch_eq]
  apply lastMax_congr
  intro first hfirst second hsecond
  obtain ⟨n, hn, hfirst⟩ := h first (List.mem_of_mem_filter hfirst)
  obtain ⟨m, hm, hsecond⟩ := h second (List.mem_of_mem_filter hsecond)
  rw [hfirst, hsecond, prefixLength_prefixMask hn, prefixLength_prefixMask hm]
  exact prefixMask_le_iff hn hm

/-- For every table of contiguous masks: `lookup` throws exactly when no entry matches, and
otherwise gives the last, in the order of the table, of the matching entries with the
longest prefix. -/
theorem lookup_longest_match {table : RoutingTable} (h : table.Contiguous) (ip : UInt32) :
    (table.lookup ip = none ↔ ∀ entry ∈ table.entries, ¬ entry.Matches ip) ∧
      ∀ entry, table.lookup ip = some entry ↔
        ∃ before after, table.entries = before ++ entry :: after ∧ entry.Matches ip ∧
          (∀ other ∈ before, other.Matches ip →
            prefixLength other.mask ≤ prefixLength entry.mask) ∧
          ∀ other ∈ after, other.Matches ip →
            prefixLength other.mask < prefixLength entry.mask := by
  rw [lookup_eq_lastMax h ip]
  constructor
  · rw [lastMax_eq_none_iff, List.filter_eq_nil_iff]
    simp
  · intro entry
    rw [lastMax_eq_some_iff, isLastMax_filter_iff]

theorem projectTable_contiguous : projectTable.Contiguous := by
  unfold RoutingTable.Contiguous
  decide +kernel

/-- An address of the network of `server1`, which the default route matches as well. -/
theorem lookup_projectTable :
    (projectTable.lookup (inetAton 192 168 2 7)).map (·.ifName) = some "sw0-eth1" ∧
      (projectTable.lookup (inetAton 192 168 2 7) = none ↔
        ∀ entry ∈ projectTable.entries, ¬ entry.Matches (inetAton 192 168 2 7)) :=
  ⟨by decide +kernel, (lookup_longest_match projectTable_contiguous _).1⟩

end Cs118.Router
