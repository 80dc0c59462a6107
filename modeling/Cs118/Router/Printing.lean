import Cs118.Lib.Decimal
import Cs118.Router.TableFile
/-!
# Printing the routing table

`ipToString` and the two `operator<<` of `routing-table.cpp`, which the tester asks for.
A string is printed as its bytes.
-/

namespace Cs118.Router

open Cs118.Lib.Bytes
open Cs118.Lib.Text

/-- `ipToString`: `inet_ntop` of the four bytes in memory. -/
def ipToString (ip : UInt32) : Buffer :=
  let bytes := image32 ip
  dotted (bytes.getD 0 0) (bytes.getD 1 0) (bytes.getD 2 0) (bytes.getD 3 0)

def tab : UInt8 := 0x09

def RoutingTableEntry.print (entry : RoutingTableEntry) : Buffer :=
  ipToString entry.dest ++ [tab, tab] ++ ipToString entry.gw ++ [tab] ++
    ipToString entry.mask ++ [tab] ++ bytesOf entry.ifName

def tableHeader : Buffer :=
  bytesOf "Destination" ++ [tab] ++ bytesOf "Gateway" ++ [tab, tab] ++ bytesOf "Mask" ++ [tab] ++
    bytesOf "Iface" ++ [newline]

/-- The lines `operator<<` prints below the header. -/
def printEntries (entries : List RoutingTableEntry) : Buffer :=
  entries.flatMap fun entry => entry.print ++ [newline]

def RoutingTable.print (table : RoutingTable) : Buffer :=
  tableHeader ++ printEntries table.entries

theorem image32_eq (ip : UInt32) : ∃ a b c d, image32 ip = [a, b, c, d] := by
  have hlength := length_image32 ip
  rcases himage : image32 ip with _ | ⟨a, _ | ⟨b, _ | ⟨c, _ | ⟨d, _ | ⟨e, rest⟩⟩⟩⟩⟩ <;>
    simp [himage] at hlength
  exact ⟨a, b, c, d, rfl⟩

theorem ipToString_eq (ip : UInt32) :
    ∃ a b c d, image32 ip = [a, b, c, d] ∧ ipToString ip = dotted a b c d := by
  obtain ⟨a, b, c, d, himage⟩ := image32_eq ip
  refine ⟨a, b, c, d, himage, ?_⟩
  unfold ipToString
  rw [himage]
  rfl

theorem inetAton_ipToString (ip : UInt32) : Cs118.Lib.Text.inetAton (ipToString ip) = some ip := by
  obtain ⟨a, b, c, d, himage, hprint⟩ := ipToString_eq ip
  have hload : load32 [a, b, c, d] = ip := by
    rw [← himage]
    simpa using load32_image32 ip []
  rw [hprint, inetAton_dotted, hload]

theorem ipToString_injective : Function.Injective ipToString := by
  intro ip ip' h
  have hread := inetAton_ipToString ip
  rw [h, inetAton_ipToString] at hread
  exact (Option.some.inj hread).symm

/-- The test for `0.0.0.0` is a test for zero. -/
theorem ipToString_eq_zero_iff (ip : UInt32) : ipToString ip = bytesOf "0.0.0.0" ↔ ip = 0 := by
  have hzero : ipToString 0 = bytesOf "0.0.0.0" := by decide +kernel
  rw [← hzero]
  exact ipToString_injective.eq_iff

theorem ipToString_chars {ip : UInt32} {c : UInt8} (h : c ∈ ipToString ip) :
    isSpace c = false ∧ c ≠ 0 := by
  have hsolid : ∀ n < 256, (0x30 ≤ UInt8.ofNat n ∧ UInt8.ofNat n ≤ 0x39) ∨ UInt8.ofNat n = 0x2e →
      isSpace (UInt8.ofNat n) = false ∧ UInt8.ofNat n ≠ 0 := by decide +kernel
  obtain ⟨_, _, _, _, -, hprint⟩ := ipToString_eq ip
  rw [hprint] at h
  have hc := hsolid c.toNat c.toNat_lt
  rw [UInt8.ofNat_toNat] at hc
  exact hc (dotted_chars h)

theorem length_ipToString_le (ip : UInt32) : (ipToString ip).length ≤ 15 := by
  obtain ⟨a, b, c, d, -, hprint⟩ := ipToString_eq ip
  rw [hprint]
  exact length_dotted_le a b c d

theorem isWord_ipToString (ip : UInt32) : IsWord (ipToString ip) where
  ne_nil := fun hnil => by
    obtain ⟨_, _, _, _, -, hprint⟩ := ipToString_eq ip
    rw [hprint] at hnil
    simp [dotted] at hnil
  solid := fun _ hc => (ipToString_chars hc).1

end Cs118.Router
