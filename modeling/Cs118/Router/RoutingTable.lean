import Mathlib.Tactic.SplitIfs
import Cs118.Router.Frame
/-!
# Routing table and interfaces

`routing-table.cpp`, and the interface set of `simple-router.cpp` with its three
lookups.  Addresses and masks are kept as `inet_aton` stores them.
-/

namespace Cs118.Router

inductive Fault
  | nullDeref
  | outOfBounds
  | runtimeError
deriving DecidableEq, Repr

structure RoutingTableEntry where
  dest : UInt32
  gw : UInt32
  mask : UInt32
  ifName : String
deriving DecidableEq, Repr

structure RoutingTable where
  entries : List RoutingTableEntry
deriving DecidableEq, Repr

def longestMatch (ip : UInt32) : Option RoutingTableEntry → List RoutingTableEntry →
    Option RoutingTableEntry
  | best, [] => best
  | best, entry :: rest =>
    if ip &&& entry.mask = entry.dest &&& entry.mask then
      match best with
      | none => longestMatch ip (some entry) rest
      | some match' =>
        if match'.mask ≤ entry.mask then longestMatch ip (some entry) rest
        else longestMatch ip best rest
    else longestMatch ip best rest

def RoutingTable.lookup (table : RoutingTable) (ip : UInt32) : Option RoutingTableEntry :=
  longestMatch ip none table.entries

structure Interface where
  name : String
  addr : EtherAddr
  ip : UInt32
deriving DecidableEq, Repr

def insertIface (iface : Interface) : List Interface → List Interface
  | [] => [iface]
  | first :: rest =>
    if iface.name < first.name then iface :: first :: rest
    else if first.name < iface.name then first :: insertIface iface rest
    else first :: rest

structure RouterTables where
  routingTable : RoutingTable
  ifaces : List Interface
deriving DecidableEq, Repr

namespace RouterTables

def findIfaceByIp (t : RouterTables) (ip : UInt32) : Option Interface :=
  t.ifaces.find? fun iface => iface.ip = ip

def findIfaceByMac (t : RouterTables) (mac : EtherAddr) : Option Interface :=
  t.ifaces.find? fun iface => iface.addr = mac

def findIfaceByName (t : RouterTables) (name : String) : Option Interface :=
  t.ifaces.find? fun iface => iface.name = name

def sendInterface (t : RouterTables) (ip : UInt32) : Except Fault Interface :=
  match t.routingTable.lookup ip with
  | none => .error .runtimeError
  | some entry =>
    match t.findIfaceByName entry.ifName with
    | none => .error .nullDeref
    | some iface => .ok iface

def RoutesResolve (t : RouterTables) : Prop :=
  ∀ entry ∈ t.routingTable.entries, (t.findIfaceByName entry.ifName).isSome

end RouterTables

theorem longestMatch_mem {ip : UInt32} {best : Option RoutingTableEntry}
    {entries : List RoutingTableEntry} {entry : RoutingTableEntry}
    (h : longestMatch ip best entries = some entry) : best = some entry ∨ entry ∈ entries := by
  induction entries generalizing best with
  | nil => exact Or.inl h
  | cons first rest ih =>
      have hkeep : longestMatch ip best rest = some entry →
          best = some entry ∨ entry ∈ first :: rest :=
        fun hrest => (ih hrest).imp id (List.mem_cons_of_mem _)
      have htake : longestMatch ip (some first) rest = some entry →
          best = some entry ∨ entry ∈ first :: rest := by
        intro hrest
        rcases ih hrest with hfirst | hmem
        · exact Or.inr (by simp [Option.some.inj hfirst])
        · exact Or.inr (List.mem_cons_of_mem _ hmem)
      unfold longestMatch at h
      split_ifs at h
      · cases best with
        | none => exact htake h
        | some longest =>
            simp only at h
            split_ifs at h
            · exact htake h
            · exact hkeep h
      · exact hkeep h

theorem RoutingTable.lookup_mem {table : RoutingTable} {ip : UInt32} {entry : RoutingTableEntry}
    (h : table.lookup ip = some entry) : entry ∈ table.entries :=
  (longestMatch_mem h).resolve_left (by simp)

theorem RouterTables.sendInterface_ne_nullDeref {t : RouterTables} (h : t.RoutesResolve)
    (ip : UInt32) : t.sendInterface ip ≠ .error .nullDeref := by
  unfold sendInterface
  cases hroute : t.routingTable.lookup ip with
  | none => simp
  | some entry =>
      obtain ⟨iface, hiface⟩ := Option.isSome_iff_exists.mp (h entry (RoutingTable.lookup_mem hroute))
      simp [hiface]

end Cs118.Router
