import Cs118.Router.Proofs.PrefixMatch
/-!
# The order of the routes

The routing table is a list, in the order of its file, and among matching routes of equal
length the last one wins.  Where only one route is the longest the order is irrelevant.
-/

namespace Cs118.Router

open Cs118.Lib.LastMax

def RoutingTable.IsLongest (table : RoutingTable) (ip : UInt32) (entry : RoutingTableEntry) : Prop :=
  entry ∈ table.entries ∧ entry.Matches ip ∧
    ∀ other ∈ table.entries, other.Matches ip →
      prefixLength other.mask ≤ prefixLength entry.mask

theorem RoutingTable.Contiguous.perm {table other : RoutingTable} (h : table.Contiguous)
    (hperm : table.entries.Perm other.entries) : other.Contiguous :=
  fun entry hentry => h entry (hperm.mem_iff.mpr hentry)

section

variable {table : RoutingTable} {ip : UInt32} {entry : RoutingTableEntry}

theorem maxIn_filter_iff :
    MaxIn (fun entry : RoutingTableEntry => prefixLength entry.mask)
        (table.entries.filter (·.Matches ip)) entry ↔ table.IsLongest ip entry := by
  unfold MaxIn RoutingTable.IsLongest
  simp only [List.mem_filter, decide_eq_true_eq, and_imp, and_assoc]

theorem lookup_last (h : table.Contiguous) (hlongest : table.IsLongest ip entry) :
    RoutingTable.lookup ⟨table.entries.erase entry ++ [entry]⟩ ip = some entry := by
  have hperm : table.entries.Perm (table.entries.erase entry ++ [entry]) :=
    (List.perm_cons_erase hlongest.1).trans (List.perm_append_singleton _ _).symm
  rw [lookup_eq_lastMax (h.perm hperm), List.filter_append,
    List.filter_cons_of_pos (by simpa using hlongest.2.1), List.filter_nil]
  apply lastMax_concat
  intro other hother
  obtain ⟨hmem, hmatches⟩ := List.mem_filter.mp hother
  exact hlongest.2.2 other (List.mem_of_mem_erase hmem) (by simpa using hmatches)

end

/-- For every table of contiguous masks and every address: all orders of the table's lines
give the same route if and only if at most one route is the longest that matches.  Each of
the longest is the one that counts where it stands last. -/
theorem order_irrelevant_iff {table : RoutingTable} (h : table.Contiguous) (ip : UInt32) :
    ((∀ other : RoutingTable, table.entries.Perm other.entries →
        other.lookup ip = table.lookup ip) ↔
      ∀ first second, table.IsLongest ip first → table.IsLongest ip second → first = second) ∧
    ∀ entry, table.IsLongest ip entry →
      RoutingTable.lookup ⟨table.entries.erase entry ++ [entry]⟩ ip = some entry := by
  refine ⟨⟨fun hsame first second hfirst hsecond => ?_, fun hunique other hperm => ?_⟩,
    fun entry hentry => lookup_last h hentry⟩
  · have hlast : ∀ entry, table.IsLongest ip entry → table.lookup ip = some entry := by
      intro entry hentry
      rw [← hsame ⟨table.entries.erase entry ++ [entry]⟩
        ((List.perm_cons_erase hentry.1).trans (List.perm_append_singleton _ _).symm)]
      exact lookup_last h hentry
    exact Option.some.inj ((hlast first hfirst).symm.trans (hlast second hsecond))
  · rw [lookup_eq_lastMax h, lookup_eq_lastMax (h.perm hperm)]
    apply lastMax_perm (hperm.filter _)
    intro first second hfirst hsecond
    exact hunique first second (maxIn_filter_iff.mp hfirst) (maxIn_filter_iff.mp hsecond)

/-- The project's table, for an address of `server1`. -/
theorem order_irrelevant_projectTable :
    ((∀ other : RoutingTable, projectTable.entries.Perm other.entries →
        other.lookup (inetAton 192 168 2 7) = projectTable.lookup (inetAton 192 168 2 7)) ↔
      ∀ first second, projectTable.IsLongest (inetAton 192 168 2 7) first →
        projectTable.IsLongest (inetAton 192 168 2 7) second → first = second) ∧
    ∀ entry, projectTable.IsLongest (inetAton 192 168 2 7) entry →
      RoutingTable.lookup ⟨projectTable.entries.erase entry ++ [entry]⟩ (inetAton 192 168 2 7) =
        some entry :=
  order_irrelevant_iff projectTable_contiguous (inetAton 192 168 2 7)

end Cs118.Router
