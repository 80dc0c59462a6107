import Cs118.Router.Proofs.Handling
/-!
# The pointers that are used without a check

With resolving routes the ticker never meets a null pointer, and a handler in two
cases only: it forwards to a next hop whose mapping it does not have, or it
queues a frame that is addressed to no interface of the router.
-/

namespace Cs118.Router

open Cs118.Lib
open Cs118.Lib.Bytes

/-! ## The ticker and the pending packets -/

theorem sendPackets_ne_nullDeref {t : RouterTables} (h : t.RoutesResolve) (reply : ArpHdr)
    (dstIp : UInt32) (packets : List PendingPacket) :
    (sendPackets t reply dstIp packets).2 ≠ some .nullDeref := by
  induction packets with
  | nil => simp [sendPackets]
  | cons pending packets ih =>
      unfold sendPackets
      by_cases hshort : pending.packet.length < 14
      · simp [hshort]
      · rw [if_neg hshort]
        cases hroute : t.sendInterface dstIp with
        | ok iface => exact ih
        | error fault =>
            intro hnull
            obtain rfl : fault = .nullDeref := by simpa using hnull
            exact RouterTables.sendInterface_ne_nullDeref h dstIp hroute

theorem sendPendingPackets_ne_nullDeref {t : RouterTables} (h : t.RoutesResolve)
    (cache : ArpCache) (reply : ArpHdr) (dstIp : UInt32) :
    (cache.sendPendingPackets t reply dstIp).2.2 ≠ some .nullDeref := by
  unfold ArpCache.sendPendingPackets
  cases cache.findRequest dstIp with
  | none => simp
  | some request =>
      have hsend := sendPackets_ne_nullDeref h reply dstIp request.packets
      rcases hpackets : sendPackets t reply dstIp request.packets with ⟨events, fault | fault⟩
      · simp [hpackets]
      · rw [hpackets] at hsend
        simpa [hpackets] using hsend

theorem checkRequests_ne_nullDeref {t : RouterTables} (h : t.RoutesResolve) (now : Nat)
    (requests : List ArpRequest) : (checkRequests t now requests).2.2 ≠ some .nullDeref := by
  induction requests with
  | nil => simp [checkRequests]
  | cons req rest ih =>
      unfold checkRequests
      rcases hreq : handleArpRequest t now req with fault | ⟨_ | next, events⟩
      · intro hnull
        obtain rfl : fault = .nullDeref := by simpa using hnull
        unfold handleArpRequest at hreq
        split_ifs at hreq
        cases hroute : t.sendInterface req.ip with
        | ok iface => simp [hroute] at hreq
        | error fault =>
            obtain rfl : fault = .nullDeref := by simpa [hroute] using hreq
            exact RouterTables.sendInterface_ne_nullDeref h req.ip hroute
      · simp
      · exact ih

theorem tick_ne_nullDeref {w : World} (h : w.router.tables.RoutesResolve) :
    w.tick.2 ≠ some .nullDeref := by
  simp only [World.tick, ArpCache.ticker_outcome]
  exact checkRequests_ne_nullDeref h w.now w.router.arp.arpRequests

/-! ## The handlers -/

/-- Every pointer the handling of `packet` follows leads somewhere. -/
def HopsKnown (w : World) (packet : Buffer) (inIface : String) : Prop :=
  InTransit w.router.tables packet inIface →
    if Known w packet (ipHeader packet).ipDst then
      ∀ route, w.router.tables.routingTable.lookup (ipHeader packet).ipDst = some route →
        Known w packet (nextHop route (ipHeader packet).ipDst)
    else (w.router.tables.findIfaceByMac (EthernetHdr.load packet).etherDhost).isSome

theorem hopsKnown_of_not_inTransit {w : World} {packet : Buffer} {inIface : String}
    (h : ¬ InTransit w.router.tables packet inIface) : HopsKnown w packet inIface :=
  fun htransit => absurd htransit h

theorem Outcome.nullDeref_iff {w : World} {packet : Buffer} {inIface : String}
    (hroutes : w.router.tables.RoutesResolve) {arp : ArpCache} {events : List Event}
    {fault : Option Fault} (h : Outcome w packet inIface arp events fault) :
    fault ≠ some .nullDeref ↔ HopsKnown w packet inIface := by
  have hcalm : fault ≠ some .nullDeref → ¬ InTransit w.router.tables packet inIface →
      (fault ≠ some .nullDeref ↔ HopsKnown w packet inIface) := fun hfault hnot =>
    ⟨fun _ => hopsKnown_of_not_inTransit hnot, fun _ => hfault⟩
  cases h with
  | ignored hip _ _ => exact hcalm (by simp) fun h => hip h.accepted
  | overrun _ hip _ _ => exact hcalm (by simp) fun h => hip h.accepted
  | request harp _ => exact hcalm (by simp) fun h => harp.not_accepted h.accepted
  | requestForUs harp _ _ => exact hcalm (by simp) fun h => harp.not_accepted h.accepted
  | replyKnown harp _ _ => exact hcalm (by simp) fun h => harp.not_accepted h.accepted
  | reply harp _ _ _ _ hsend =>
      refine hcalm ?_ fun h => harp.not_accepted h.accepted
      have hsafe := sendPendingPackets_ne_nullDeref hroutes (w.router.arp.insertArpEntry w.now
        (sourceMac packet) (arpHeader packet).arpSip).1 (arpHeader packet) (arpHeader packet).arpSip
      rwa [hsend] at hsafe
  | icmpOverrun _ hicmp _ => exact hcalm (by simp) hicmp.not_inTransit
  | echo _ hicmp _ _ _ _ => exact hcalm (by simp) hicmp.not_inTransit
  | icmpError hicmp _ _ _ _ => exact hcalm (by simp) hicmp.not_inTransit
  | icmpIgnored hicmp _ => exact hcalm (by simp) hicmp.not_inTransit
  | localOther _ iface hiface _ _ =>
      refine hcalm (by simp) fun h => ?_
      rw [h.foreign] at hiface
      simp at hiface
  | noRoute htransit entry hcached hroute =>
      have hknown : Known w packet (ipHeader packet).ipDst := lookup_learns_isSome.mp (by rw [hcached]; rfl)
      simp only [ne_eq, reduceCtorEq, not_false_eq_true, true_iff]
      intro _
      rw [if_pos hknown, hroute]
      simp
  | noHop htransit entry hcached route hroute hnull =>
      have hknown : Known w packet (ipHeader packet).ipDst := lookup_learns_isSome.mp (by rw [hcached]; rfl)
      simp only [ne_eq, not_true_eq_false, false_iff]
      intro hhops
      have hhop := hhops htransit
      rw [if_pos hknown] at hhop
      rcases hnull with hiface | hmissing
      · have hresolves := hroutes route (RoutingTable.lookup_mem hroute)
        rw [hiface] at hresolves
        exact absurd hresolves (by decide)
      · exact lookup_learns_none.mp hmissing (hhop route hroute)
  | forwarded htransit entry hcached route hroute iface hiface hop hhop =>
      have hknown : Known w packet (ipHeader packet).ipDst := lookup_learns_isSome.mp (by rw [hcached]; rfl)
      simp only [ne_eq, reduceCtorEq, not_false_eq_true, true_iff]
      intro _
      rw [if_pos hknown, hroute]
      rintro _ ⟨⟩
      exact lookup_learns_isSome.mp (by rw [hhop]; rfl)
  | queueNull htransit hmissing hiface =>
      have hunknown := lookup_learns_none.mp hmissing
      simp only [ne_eq, not_true_eq_false, false_iff]
      intro hhops
      have hhop := hhops htransit
      rw [if_neg hunknown, hiface] at hhop
      exact absurd hhop (by decide)
  | queued htransit hmissing iface hiface =>
      have hunknown := lookup_learns_none.mp hmissing
      simp only [ne_eq, reduceCtorEq, not_false_eq_true, true_iff]
      intro _
      rw [if_neg hunknown, hiface]
      rfl

/-- While every route names an interface, the ticker dereferences no null pointer, and
`handlePacket` none exactly when the hops of the frame are known.  The state is the one its
calls find: a pass between its two lookups of one address may still remove the entry. -/
theorem null_safe_iff_hopsKnown {w : World} (hroutes : w.router.tables.RoutesResolve) :
    w.tick.2 ≠ some .nullDeref ∧
      ∀ packet inIface,
        (w.receive packet inIface).2 ≠ .error .nullDeref ↔ HopsKnown w packet inIface := by
  refine ⟨tick_ne_nullDeref hroutes, fun packet inIface => ?_⟩
  obtain ⟨arp, events, fault, hreceive, houtcome⟩ := receive_yields w packet inIface
  rw [hreceive, ← houtcome.nullDeref_iff hroutes]
  cases fault <;> simp [World.toExcept]

theorem projectRouter_routesResolve : projectRouter.router.tables.RoutesResolve := by
  intro entry hentry
  have hall : ∀ entry ∈ projectTable.entries,
      (projectRouter.router.tables.findIfaceByName entry.ifName).isSome := by decide +kernel
  exact hall entry hentry

theorem projectRouter_null_safe :
    projectRouter.tick.2 ≠ some .nullDeref ∧
      ∀ packet inIface, (projectRouter.receive packet inIface).2 ≠ .error .nullDeref ↔
        HopsKnown projectRouter packet inIface :=
  null_safe_iff_hopsKnown projectRouter_routesResolve

/-- A frame for another host that was broadcast is addressed to no interface. -/
theorem broadcast_datagram_nullDeref :
    World.Reachable projectTable projectIps projectRouter ∧
      projectRouter.router.tables.RoutesResolve ∧
      (clientFrame .broadcast (inetAton 192 168 2 2) 64 0x11 0 (List.replicate 8 0)).length = 42 ∧
      (projectRouter.receive (clientFrame .broadcast (inetAton 192 168 2 2) 64 0x11 0
        (List.replicate 8 0)) "sw0-eth3").2 = .error .nullDeref :=
  ⟨projectRouter_reachable, projectRouter_routesResolve, by decide +kernel, by decide +kernel⟩

end Cs118.Router
