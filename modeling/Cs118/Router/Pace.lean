import Cs118.Router.System
/-!
# The pace of the ticker

The ticker thread sleeps for a second between two passes.  How long it really takes is up
to the operating system; here the environment keeps the passes at most `gap` apart.
-/

namespace Cs118.Router

open Cs118.Lib.Run

structure Paced where
  system : System
  lastTick : Nat

namespace Paced

def now (s : Paced) : Nat := s.system.world.now

def arp (s : Paced) : ArpCache := s.system.world.router.arp

def tickAfter (s : Paced) : Action → Nat
  | .tick => s.now
  | _ => s.lastTick

/-- One step, unless it would leave the last pass more than `gap` behind. -/
def step (gap : Nat) (s : Paced) (a : Action) : Option Paced :=
  (s.system.step a).bind fun next =>
    if next.world.now ≤ s.tickAfter a + gap then some ⟨next, s.tickAfter a⟩ else none

def start (routingTable : RoutingTable) (ifNameToIpMap : List (String × UInt32)) (now : Nat) :
    Paced :=
  ⟨⟨World.start routingTable ifNameToIpMap now, .idle⟩, now⟩

def Reachable (gap : Nat) (routingTable : RoutingTable) (ifNameToIpMap : List (String × UInt32))
    (s : Paced) : Prop :=
  ∃ now, Reach (step gap) (fun _ => True) (start routingTable ifNameToIpMap now) s

theorem step_eq_some {gap : Nat} {s t : Paced} {a : Action} (h : s.step gap a = some t) :
    s.system.step a = some t.system ∧ t.lastTick = s.tickAfter a ∧ t.now ≤ t.lastTick + gap := by
  unfold step at h
  obtain ⟨next, hnext, h⟩ := Option.bind_eq_some_iff.mp h
  split_ifs at h with hpace
  obtain rfl := Option.some.inj h
  exact ⟨hnext, rfl, hpace⟩

theorem Reachable.system {gap : Nat} {routingTable : RoutingTable}
    {ifNameToIpMap : List (String × UInt32)} {s : Paced}
    (h : Reachable gap routingTable ifNameToIpMap s) :
    System.Reachable routingTable ifNameToIpMap s.system := by
  obtain ⟨now, hreach⟩ := h
  exact ⟨now, hreach.invariant
    (P := fun s : Paced => Reach System.step (fun _ => True)
      ⟨World.start routingTable ifNameToIpMap now, .idle⟩ s.system)
    (fun _ _ _ hs _ hstep => hs.tail trivial (step_eq_some hstep).1) (.refl _)⟩

/-- The last pass is never more than `gap` ago. -/
theorem Reachable.now_le {gap : Nat} {routingTable : RoutingTable}
    {ifNameToIpMap : List (String × UInt32)} {s : Paced}
    (h : Reachable gap routingTable ifNameToIpMap s) : s.now ≤ s.lastTick + gap := by
  obtain ⟨now, hreach⟩ := h
  exact hreach.invariant (P := fun s : Paced => s.now ≤ s.lastTick + gap)
    (fun _ _ _ _ _ hstep => (step_eq_some hstep).2.2)
    (show (start routingTable ifNameToIpMap now).now ≤ now + gap from Nat.le_add_right now gap)

end Paced

end Cs118.Router
