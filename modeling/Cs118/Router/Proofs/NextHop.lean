import Cs118.Router.Proofs.Forwarding
import Cs118.Router.Proofs.Unroutable
/-!
# The next hop of a transit frame

The gateway of a route is read from the table, printed, and used nowhere else.  A transit
frame goes to the mapping of the route's `dest`, or of its own destination if that is
0.0.0.0, and waits under its own destination.
-/

namespace Cs118.Router

open Cs118.Lib
open Cs118.Lib.Bytes

/-- All that is ever sent for `request` are ARP requests for `ip`. -/
def AsksFor (request : ArpRequest) (ip : UInt32) : Prop :=
  ∀ t now next events, handleArpRequest t now request = .ok (next, events) →
    (∀ frame outIface purpose, .sent frame outIface purpose ∈ events →
      (arpHeader frame).arpOp = htons arpOpRequest ∧ (arpHeader frame).arpTip = ip) ∧
    ∀ later ∈ next, later.ip = ip

def SendsTo (w : World) (packet : Buffer) (inIface : String) (route : RoutingTableEntry)
    (mac : EtherAddr) : Prop :=
  ∃ w' frame, w.receive packet inIface = (w', .ok ()) ∧
    sentFrames (w.eventsTo w') = [(frame, route.ifName)] ∧
    (EthernetHdr.load frame).etherDhost = mac

def WaitsFor (w : World) (packet : Buffer) (inIface : String) (ip : UInt32) : Prop :=
  ∃ w', w.receive packet inIface = (w', .ok ()) ∧ sentFrames (w.eventsTo w') = [] ∧
    ∃ request ∈ w'.router.arp.arpRequests,
      request.ip = ip ∧ packet ∈ request.frames ∧ AsksFor request ip

/-- The cache as the forwarding branch finds it, with the mapping of the sender. -/
def World.cacheFor (w : World) (packet : Buffer) : ArpCache :=
  (w.learns packet (ipHeader packet).ipSrc).1

/-- `hop` is where the frame goes, and what it waits for. -/
structure HopIs (w : World) (packet : Buffer) (inIface : String) (route : RoutingTableEntry)
    (hop : UInt32) : Prop where
  sends : ∀ entry, (w.cacheFor packet).lookup hop = some entry →
    SendsTo w packet inIface route entry.mac
  waits : (w.cacheFor packet).lookup hop = none → WaitsFor w packet inIface hop

structure HopByRoute (w : World) (packet : Buffer) (inIface : String) (route : RoutingTableEntry) :
    Prop where
  sends : ((w.cacheFor packet).lookup (ipHeader packet).ipDst).isSome →
    (w.router.tables.findIfaceByName route.ifName).isSome →
    ∀ entry, (w.cacheFor packet).lookup (nextHop route (ipHeader packet).ipDst) = some entry →
      SendsTo w packet inIface route entry.mac
  waits : (w.cacheFor packet).lookup (ipHeader packet).ipDst = none →
    (w.router.tables.findIfaceByMac (EthernetHdr.load packet).etherDhost).isSome →
    WaitsFor w packet inIface (ipHeader packet).ipDst

section

variable {w : World} {packet : Buffer} {inIface : String} {route : RoutingTableEntry}

/-! ## Sending -/

theorem sendsTo_of_cached (htransit : InTransit w.router.tables packet inIface)
    (hroute : w.router.tables.routingTable.lookup (ipHeader packet).ipDst = some route)
    {found hop : ArpEntry} {iface : Interface}
    (hfound : (w.cacheFor packet).lookup (ipHeader packet).ipDst = some found)
    (hiface : w.router.tables.findIfaceByName route.ifName = some iface)
    (hhop : (w.cacheFor packet).lookup (nextHop route (ipHeader packet).ipDst) = some hop) :
    SendsTo w packet inIface route hop.mac := by
  have hreceive : w.receive packet inIface =
      (w.setArp (w.learns packet (ipHeader packet).ipSrc).1
        ((w.learns packet (ipHeader packet).ipSrc).2 ++
          [.sent (forwardedFrame packet iface hop.mac) route.ifName (.forwarded packet)]),
        .ok ()) := by
    unfold World.cacheFor at hfound hhop
    rw [receive_transit htransit, exec_lookup, hfound]
    dsimp only
    rw [exec_forwardPacket hroute, World.setArp_arp, hiface, hhop]
    exact exec_sendPacket ..
  refine ⟨_, forwardedFrame packet iface hop.mac, hreceive, ?_, etherDhost_forwardedFrame ..⟩
  rw [World.eventsTo_setArp, sentFrames_learns_append]

/-! ## Waiting -/

theorem pushPacket_request (ip : UInt32) (pending : PendingPacket) (reqs : List ArpRequest) :
    (pushPacket ip pending reqs).2 ∈ (pushPacket ip pending reqs).1 ∧
      (pushPacket ip pending reqs).2.ip = ip ∧
      pending ∈ (pushPacket ip pending reqs).2.packets := by
  induction reqs with
  | nil => exact ⟨List.mem_singleton.mpr rfl, rfl, List.mem_singleton.mpr rfl⟩
  | cons req rest ih =>
      unfold pushPacket
      by_cases hip : req.ip = ip
      · rw [if_pos hip]
        exact ⟨List.mem_cons_self, hip, List.mem_append_right _ (List.mem_singleton.mpr rfl)⟩
      · rw [if_neg hip]
        exact ⟨List.mem_cons_of_mem _ ih.1, ih.2⟩

theorem asksFor_ip (request : ArpRequest) : AsksFor request request.ip := by
  intro t now next events h
  rcases handleArpRequest_cases h with ⟨rfl, rfl⟩ | ⟨-, rfl, rfl⟩ | ⟨-, rfl, iface, -, rfl⟩
  · exact ⟨fun _ _ _ hsent => absurd hsent (by simp), by simp⟩
  · exact ⟨fun _ _ _ hsent => absurd hsent (by simp), by simp⟩
  · refine ⟨fun frame outIface purpose hsent => ?_, by simp⟩
    rw [(Event.sent.inj (List.mem_singleton.mp hsent)).1, arpHeader_arpRequestFrame]
    exact ⟨rfl, rfl⟩

theorem waitsFor_of_missing (htransit : InTransit w.router.tables packet inIface)
    {iface : Interface} (hmissing : (w.cacheFor packet).lookup (ipHeader packet).ipDst = none)
    (hiface : w.router.tables.findIfaceByMac (EthernetHdr.load packet).etherDhost = some iface) :
    WaitsFor w packet inIface (ipHeader packet).ipDst := by
  have hreceive : w.receive packet inIface =
      (w.setArp ((w.cacheFor packet).queueRequest (ipHeader packet).ipDst packet iface.name).1
        ((w.learns packet (ipHeader packet).ipSrc).2 ++ [.queued (ipHeader packet).ipDst packet]),
        .ok ()) := by
    unfold World.cacheFor at hmissing
    rw [receive_transit htransit, exec_lookup, hmissing]
    dsimp only
    rw [hiface, ← World.setArp_setArp]
    rfl
  obtain ⟨hmem, hip, hpacket⟩ := pushPacket_request (ipHeader packet).ipDst ⟨packet, iface.name⟩
    (w.cacheFor packet).arpRequests
  refine ⟨_, hreceive, ?_, _, hmem, hip, List.mem_map_of_mem hpacket, ?_⟩
  · rw [World.eventsTo_setArp, sentFrames, List.filterMap_append]
    exact congrArg (· ++ []) (sentFrames_learns packet (ipHeader packet).ipSrc)
  · conv => rhs; rw [← hip]
    exact asksFor_ip _

end

/-! ## Main result -/

/-- Whatever the gateway, a transit frame goes by the `dest` of its route and its own
destination. -/
theorem hop_by_route {w : World} {packet : Buffer} {inIface : String} {route : RoutingTableEntry}
    (htransit : InTransit w.router.tables packet inIface)
    (hroute : w.router.tables.routingTable.lookup (ipHeader packet).ipDst = some route) :
    HopByRoute w packet inIface route where
  sends hcached hiface entry hhop := by
    obtain ⟨found, hfound⟩ := Option.isSome_iff_exists.mp hcached
    obtain ⟨iface, hiface⟩ := Option.isSome_iff_exists.mp hiface
    exact sendsTo_of_cached htransit hroute hfound hiface hhop
  waits hmissing hiface := by
    obtain ⟨iface, hiface⟩ := Option.isSome_iff_exists.mp hiface
    exact waitsFor_of_missing htransit hmissing hiface

def defaultRoute : RoutingTableEntry :=
  ⟨inetAton 0 0 0 0, inetAton 10 0 1 100, inetAton 0 0 0 0, "sw0-eth3"⟩

theorem inTransit_strayDatagram :
    InTransit waitingRouter.router.tables strayDatagram "sw0-eth3" :=
  ⟨⟨by decide +kernel, by decide +kernel, by decide +kernel, by decide +kernel⟩,
    by decide +kernel, by decide +kernel⟩

theorem hop_by_route_stray : HopByRoute waitingRouter strayDatagram "sw0-eth3" defaultRoute :=
  hop_by_route inTransit_strayDatagram (by decide +kernel)

/-- The mapping of the gateway is known, yet the frame waits for that of 8.8.8.8. -/
theorem gateway_not_next_hop :
    World.Reachable projectTable projectIps waitingRouter ∧
      InTransit waitingRouter.router.tables strayDatagram "sw0-eth3" ∧
      waitingRouter.router.tables.routingTable.lookup (ipHeader strayDatagram).ipDst =
        some defaultRoute ∧
      defaultRoute.gw ≠ 0 ∧ (waitingRouter.router.arp.lookup defaultRoute.gw).isSome ∧
      ¬ HopIs waitingRouter strayDatagram "sw0-eth3" defaultRoute defaultRoute.gw := by
  refine ⟨waitingRouter_reachable, inTransit_strayDatagram, by decide +kernel, by decide +kernel,
    by decide +kernel, fun h => ?_⟩
  have hknown : (waitingRouter.cacheFor strayDatagram).lookup defaultRoute.gw =
      some ⟨projectMac 33, inetAton 10 0 1 100, 0, true⟩ := by
    decide +kernel
  obtain ⟨w', frame, hreceive, hsent, -⟩ := h.sends _ hknown
  have hnone : sentFrames
      (waitingRouter.eventsTo (waitingRouter.receive strayDatagram "sw0-eth3").1) = [] := by
    decide +kernel
  rw [hreceive, hsent] at hnone
  exact absurd hnone (by simp)

end Cs118.Router
