import Cs118.Router.Proofs.Forwarding
/-!
# Frames without a route

`lookup` throws in three places.  The forwarding branch catches the exception; the ARP
reply and the ticker look up the requests that wait, and do not.
-/

namespace Cs118.Router

open Cs118.Lib
open Cs118.Lib.Bytes
open Cs118.Lib.Run

structure Unroutable (t : RouterTables) (packet : Buffer) (inIface : String) : Prop where
  transit : InTransit t packet inIface
  noRoute : t.routingTable.lookup (ipHeader packet).ipDst = none

/-- Handling the frame sends nothing, queues nothing and comes to an end. -/
structure Discarded (w : World) (packet : Buffer) (inIface : String) : Prop where
  result : (w.receive packet inIface).2 = .ok ()
  arpRequests : (w.receive packet inIface).1.router.arp.arpRequests = w.router.arp.arpRequests
  sent : sentFrames (w.eventsTo (w.receive packet inIface).1) = []

/-- A frame without a route is discarded, and no exception of `lookup` gets out of the
handler or the ticker. -/
def RouteFailureContained (w : World) : Turn → Prop
  | .receive packet inIface =>
    (Unroutable w.router.tables packet inIface → Discarded w packet inIface) ∧
      (w.receive packet inIface).2 ≠ .error .runtimeError
  | .tick => w.tick.2 ≠ some .runtimeError
  | _ => True

def UnroutableKnown (w : World) : Turn → Prop
  | .receive packet inIface =>
    Unroutable w.router.tables packet inIface → Known w packet (ipHeader packet).ipDst
  | _ => True

def QueueRoutable (w : World) : Prop :=
  ∀ request ∈ w.router.arp.arpRequests, (w.router.tables.routingTable.lookup request.ip).isSome

/-! ## The three lookups -/

theorem RouterTables.sendInterface_ne_runtimeError {t : RouterTables} {ip : UInt32}
    (h : (t.routingTable.lookup ip).isSome) : t.sendInterface ip ≠ .error .runtimeError := by
  obtain ⟨entry, hroute⟩ := Option.isSome_iff_exists.mp h
  unfold sendInterface
  rw [hroute]
  cases hiface : t.findIfaceByName entry.ifName <;> simp [hiface]

theorem sendPackets_ne_runtimeError {t : RouterTables} {dstIp : UInt32}
    (h : (t.routingTable.lookup dstIp).isSome) (reply : ArpHdr) (packets : List PendingPacket) :
    (sendPackets t reply dstIp packets).2 ≠ some .runtimeError := by
  induction packets with
  | nil => simp [sendPackets]
  | cons pending packets ih =>
      have hroute := RouterTables.sendInterface_ne_runtimeError h
      unfold sendPackets
      by_cases hshort : pending.packet.length < 14
      · simp [hshort]
      · rw [if_neg hshort]
        cases hsend : t.sendInterface dstIp with
        | ok iface => exact ih
        | error fault =>
            rw [hsend] at hroute
            simpa using hroute

theorem sendPendingPackets_ne_runtimeError (cache : ArpCache) {t : RouterTables}
    (h : ∀ request ∈ cache.arpRequests, (t.routingTable.lookup request.ip).isSome) (reply : ArpHdr)
    (dstIp : UInt32) : (cache.sendPendingPackets t reply dstIp).2.2 ≠ some .runtimeError := by
  unfold ArpCache.sendPendingPackets
  cases hfind : cache.findRequest dstIp with
  | none => simp
  | some request =>
      obtain ⟨hmem, rfl⟩ := ArpCache.findRequest_eq_some hfind
      have hsend := sendPackets_ne_runtimeError (h request hmem) reply request.packets
      rcases hpackets : sendPackets t reply request.ip request.packets with ⟨events, fault | fault⟩
      · simp [hpackets]
      · rw [hpackets] at hsend
        simpa [hpackets] using hsend

theorem checkRequests_ne_runtimeError {t : RouterTables} {now : Nat} {requests : List ArpRequest}
    (h : ∀ request ∈ requests, (t.routingTable.lookup request.ip).isSome) :
    (checkRequests t now requests).2.2 ≠ some .runtimeError := by
  induction requests with
  | nil => simp [checkRequests]
  | cons req rest ih =>
      unfold checkRequests
      rcases hreq : handleArpRequest t now req with fault | ⟨_ | next, events⟩
      · intro hthrown
        obtain rfl : fault = .runtimeError := by simpa using hthrown
        have hroute := RouterTables.sendInterface_ne_runtimeError (h req (by simp))
        unfold handleArpRequest at hreq
        split_ifs at hreq
        cases hsend : t.sendInterface req.ip with
        | ok iface => simp [hsend] at hreq
        | error fault =>
            obtain rfl : fault = .runtimeError := by simpa [hsend] using hreq
            exact hroute hsend
      · simp
      · exact ih fun request hrequest => h request (List.mem_cons_of_mem _ hrequest)

theorem QueueRoutable.tick {w : World} (h : QueueRoutable w) : w.tick.2 ≠ some .runtimeError := by
  simp only [World.tick, ArpCache.ticker_outcome]
  exact checkRequests_ne_runtimeError h

/-! ## The handlers -/

section

variable {w : World} {packet : Buffer} {inIface : String}

/-- Only an ARP reply can fail for want of a route. -/
theorem Outcome.fault_ne_runtimeError (hqueue : QueueRoutable w) {arp : ArpCache}
    {events : List Event} {fault : Option Fault} (h : Outcome w packet inIface arp events fault) :
    fault ≠ some .runtimeError := by
  cases h with
  | reply harp hnew arp events fault hsend =>
      have hsafe := sendPendingPackets_ne_runtimeError (w.router.arp.insertArpEntry w.now
        (sourceMac packet) (arpHeader packet).arpSip).1 hqueue (arpHeader packet)
        (arpHeader packet).arpSip
      rwa [hsend] at hsafe
  | _ => simp

/-- A frame without a route is discarded exactly if its destination is known. -/
theorem discarded_iff (h : Unroutable w.router.tables packet inIface) :
    Discarded w packet inIface ↔ Known w packet (ipHeader packet).ipDst := by
  have hreceive := receive_transit h.transit
  rw [exec_lookup] at hreceive
  cases hcached : (w.learns packet (ipHeader packet).ipSrc).1.lookup (ipHeader packet).ipDst with
  | some entry =>
      have hknown : Known w packet (ipHeader packet).ipDst :=
        lookup_learns_isSome.mp (by rw [hcached]; rfl)
      rw [hcached] at hreceive
      dsimp only at hreceive
      unfold forwardPacket at hreceive
      rw [show w.router.tables.routingTable.lookup _ = none from h.noRoute] at hreceive
      refine iff_of_true ⟨?_, ?_, ?_⟩ hknown
      · rw [hreceive]
        rfl
      · rw [hreceive]
        exact arpRequests_learns
      · rw [hreceive]
        show sentFrames (w.eventsTo (w.setArp _ _)) = []
        rw [World.eventsTo_setArp, sentFrames_learns]
  | none =>
      rw [hcached] at hreceive
      refine iff_of_false (fun hdiscarded => ?_) (lookup_learns_none.mp hcached)
      cases hiface : w.router.tables.findIfaceByMac (EthernetHdr.load packet).etherDhost with
      | none =>
          have hresult := hdiscarded.result
          rw [hreceive, hiface] at hresult
          have hfault : (Except.error Fault.nullDeref : Except Fault Unit) = .ok () := hresult
          simp at hfault
      | some iface =>
          have hrequests := hdiscarded.arpRequests
          rw [hreceive, hiface] at hrequests
          have hpushed : (pushPacket (ipHeader packet).ipDst ⟨packet, iface.name⟩
            (w.learns packet (ipHeader packet).ipSrc).1.arpRequests).1 =
              w.router.arp.arpRequests := hrequests
          rw [arpRequests_learns] at hpushed
          exact pushPacket_ne _ _ _ hpushed

theorem Outcome.arpRequests_ips {arp : ArpCache} {events : List Event} {fault : Option Fault}
    (h : Outcome w packet inIface arp events fault) {request : ArpRequest}
    (hrequest : request ∈ arp.arpRequests) :
    (∃ waiting ∈ w.router.arp.arpRequests, waiting.ip = request.ip) ∨
      InTransit w.router.tables packet inIface ∧ ¬ Known w packet (ipHeader packet).ipDst ∧
        request.ip = (ipHeader packet).ipDst := by
  have hkept : request ∈ w.router.arp.arpRequests →
      (∃ waiting ∈ w.router.arp.arpRequests, waiting.ip = request.ip) ∨
      InTransit w.router.tables packet inIface ∧ ¬ Known w packet (ipHeader packet).ipDst ∧
        request.ip = (ipHeader packet).ipDst := fun hmem => Or.inl ⟨request, hmem, rfl⟩
  cases h with
  | ignored _ _ _ => exact hkept hrequest
  | overrun _ _ _ _ => exact hkept hrequest
  | replyKnown _ _ _ => exact hkept hrequest
  | reply harp hnew arp events fault hsend =>
      have hsub := (sendPendingPackets_requests_sublist (w.router.arp.insertArpEntry w.now
        (sourceMac packet) (arpHeader packet).arpSip).1 w.router.tables (arpHeader packet)
        (arpHeader packet).arpSip).subset
      rw [hsend] at hsub
      exact hkept (hsub hrequest)
  | queued htransit hmissing iface _ =>
      rcases pushPacket_mem hrequest with hold | rfl | ⟨req, hreq, hip, rfl⟩
      · rw [arpRequests_learns] at hold
        exact hkept hold
      · exact Or.inr ⟨htransit, lookup_learns_none.mp hmissing, rfl⟩
      · rw [arpRequests_learns] at hreq
        exact Or.inl ⟨req, hreq, rfl⟩
  | _ =>
      rw [arpRequests_learns] at hrequest
      exact hkept hrequest

end

/-! ## Every run -/

theorem QueueRoutable.step {w w' : World} {turn : Turn} (h : QueueRoutable w)
    (hknown : UnroutableKnown w turn) (hstep : w.step turn = some w') : QueueRoutable w' := by
  cases turn with
  | receive packet inIface =>
      obtain ⟨arp, events, fault, rfl, houtcome, -⟩ := World.step_receive_outcome hstep
      intro request hrequest
      rcases houtcome.arpRequests_ips hrequest with ⟨waiting, hwaiting, hip⟩ |
        ⟨htransit, hmissing, hip⟩
      · rw [← hip]
        exact h waiting hwaiting
      · rw [hip]
        by_contra hroute
        exact hmissing (hknown ⟨htransit, Option.not_isSome_iff_eq_none.mp hroute⟩)
  | tick =>
      obtain ⟨rfl, -⟩ := World.step_tick hstep
      intro request hrequest
      simp only [World.tick, World.setArp_arp, ArpCache.ticker_arpRequests] at hrequest
      obtain ⟨req, hreq, hchecked⟩ := checkRequests_checked hrequest
      rw [hchecked.ip]
      exact h req hreq
  | reset ports =>
      obtain rfl := Option.some.inj hstep
      intro request hrequest
      simp [World.reset, SimpleRouter.reset, ArpCache.clear, ArpCache.empty] at hrequest
  | elapse time =>
      obtain rfl := Option.some.inj hstep
      exact h

theorem routeFailureContained_iff {w : World} (h : QueueRoutable w) (turn : Turn) :
    RouteFailureContained w turn ↔ UnroutableKnown w turn := by
  cases turn with
  | receive packet inIface =>
      obtain ⟨arp, events, fault, hreceive, houtcome⟩ := receive_yields w packet inIface
      have hcalm : (w.receive packet inIface).2 ≠ .error .runtimeError := by
        have hfault := houtcome.fault_ne_runtimeError h
        rw [hreceive]
        cases fault with
        | none => simp [World.toExcept]
        | some fault => simpa [World.toExcept] using hfault
      exact (and_iff_left hcalm).trans (forall_congr' fun hunroutable => discarded_iff hunroutable)
  | tick => exact iff_of_true h.tick trivial
  | reset ports => exact Iff.rfl
  | elapse time => exact Iff.rfl

/-- In every run of every router that handles a frame with no pass in between: each frame
without a route is discarded and no exception gets out, if and only if the destination of each
such frame is known when it arrives. -/
theorem route_failures_contained_iff (routingTable : RoutingTable)
    (ifNameToIpMap : List (String × UInt32)) (now : Nat) (turns : List Turn) :
    Throughout World.step RouteFailureContained
        (World.start routingTable ifNameToIpMap now) turns ↔
      Throughout World.step UnroutableKnown (World.start routingTable ifNameToIpMap now) turns := by
  refine throughout_congr (I := QueueRoutable) (fun _ _ _ hw hknown hstep => hw.step hknown hstep)
    (fun _ turn hw => routeFailureContained_iff hw turn) ?_
  intro request hrequest
  simp [World.start, ArpCache.empty] at hrequest

/-- The network of `server1`, and no default route. -/
def stubTable : RoutingTable :=
  ⟨[⟨inetAton 192 168 2 2, inetAton 192 168 2 2, inetAton 255 255 255 0, "sw0-eth1"⟩]⟩

def stubRouter : World := (World.start stubTable projectIps (seconds 2)).reset projectPorts

def strayDatagram : Buffer :=
  clientFrame (projectMac 3) (inetAton 8 8 8 8) 64 0x11 0 (List.replicate 8 0)

/-- A datagram without a route waits for an ARP reply, and the next pass of the ticker throws. -/
theorem stray_datagram_throws :
    World.Reachable stubTable projectIps stubRouter ∧
      Unroutable stubRouter.router.tables strayDatagram "sw0-eth3" ∧
      (stubRouter.receive strayDatagram "sw0-eth3").1.router.arp.arpRequests =
        [⟨inetAton 8 8 8 8, 0, 0, [⟨strayDatagram, "sw0-eth3"⟩]⟩] ∧
      World.Reachable stubTable projectIps (stubRouter.receive strayDatagram "sw0-eth3").1 ∧
      (stubRouter.receive strayDatagram "sw0-eth3").1.tick.2 = some .runtimeError := by
  refine ⟨⟨seconds 2, [.reset projectPorts], rfl⟩, ⟨⟨⟨?_, ?_, ?_, ?_⟩, ?_, ?_⟩, ?_⟩, ?_,
    ⟨seconds 2, [.reset projectPorts, .receive strayDatagram "sw0-eth3"], ?_⟩, ?_⟩ <;>
    decide +kernel

end Cs118.Router
