import Cs118.Router.Proofs.CacheInvariant
import Cs118.Router.Proofs.Handling
/-!
# The time to live of transit frames

A frame that is forwarded at once has its TTL decremented in eight bits, so that 0
becomes 255; a frame that is queued leaves as it came.
-/

namespace Cs118.Router

open Cs118.Lib
open Cs118.Lib.Bytes
open Cs118.Lib.Run

def ttlOf (frame : Buffer) : Nat := (ipHeader frame).ipTtl.toNat

theorem ttlOf_releaseFrame (reply : ArpHdr) (packet : Buffer) :
    ttlOf (releaseFrame reply packet) = ttlOf packet := by
  rw [ttlOf, ipHeader_releaseFrame, ttlOf]

theorem ttlOf_assembleIPPacket (packet : Buffer) (h : IpHdr) (eHdr : EthernetHdr) :
    ttlOf (assembleIPPacket packet (updateSum h) eHdr) = h.ipTtl.toNat := by
  rw [ttlOf, ipHeader_assembleIPPacket]
  rfl

theorem ttlOf_forwardedFrame (packet : Buffer) (iface : Interface) (mac : EtherAddr) :
    ttlOf (forwardedFrame packet iface mac) = ((ipHeader packet).ipTtl - 1).toNat :=
  ttlOf_assembleIPPacket ..

theorem toNat_sub_one {ttl : UInt8} (h : ttl ≠ 0) : (ttl - 1).toNat + 1 = ttl.toNat := by
  have hpos : ttl.toNat ≠ 0 := fun hzero => h (UInt8.toNat.inj hzero)
  have hlt := ttl.toNat_lt
  rw [UInt8.toNat_sub]
  simp only [UInt8.reduceToNat]
  omega

theorem sub_one_ne (ttl : UInt8) : ttl - 1 ≠ ttl := by
  intro heq
  have htoNat := congrArg UInt8.toNat heq
  have hlt := ttl.toNat_lt
  rw [UInt8.toNat_sub] at htoNat
  simp only [UInt8.reduceToNat] at htoNat
  omega

/-! ## The two ways of a transit frame -/

def Event.Hop : Event → Prop
  | .sent packet _ (.forwarded arrived) => Forwards arrived packet
  | .sent packet _ (.released _ arrived) => ∃ reply, packet = releaseFrame reply arrived
  | _ => True

theorem hop_maintained : Maintained fun w => ∀ event ∈ w.trace, event.Hop := by
  refine .of_events (fun _ => trivial) (fun _ _ _ => trivial) (fun reply _ _ _ => ⟨reply, rfl⟩) ?_
    (fun _ _ _ => trivial) (fun _ _ => trivial) (fun _ => trivial)
  intro packet outIface purpose hsend
  cases purpose with
  | forwarded arrived => exact hsend
  | released ip waiting => exact hsend.elim
  | _ => trivial

theorem hop_of_reachable {routingTable : RoutingTable} {ifNameToIpMap : List (String × UInt32)}
    {s : System} (h : System.Reachable routingTable ifNameToIpMap s) :
    ∀ event ∈ s.world.trace, event.Hop :=
  hop_maintained.reachable (fun _ _ hevent => by simp [World.start] at hevent) h

theorem ttlOf_forwards {arrived packet : Buffer} (h : Forwards arrived packet) :
    (ipHeader packet).ipTtl = (ipHeader arrived).ipTtl - 1 := by
  obtain ⟨eHdr, rfl⟩ := h.frame
  rw [ipHeader_assembleIPPacket]
  rfl

/-- The frame a router forwards at once and the frame a router releases from its
queue are never the same, whatever the routers, their runs and the frame. -/
theorem forwarded_ne_released {routingTable routingTable' : RoutingTable}
    {ifNameToIpMap ifNameToIpMap' : List (String × UInt32)} {s s' : System}
    (h : System.Reachable routingTable ifNameToIpMap s)
    (h' : System.Reachable routingTable' ifNameToIpMap' s') {arrived direct delayed : Buffer}
    {outIface outIface' : String} {ip : UInt32}
    (hdirect : .sent direct outIface (.forwarded arrived) ∈ s.world.trace)
    (hdelayed : .sent delayed outIface' (.released ip arrived) ∈ s'.world.trace) :
    direct ≠ delayed := by
  have hforwards : Forwards arrived direct := hop_of_reachable h _ hdirect
  obtain ⟨reply, hrelease⟩ : ∃ reply, delayed = releaseFrame reply arrived :=
    hop_of_reachable h' _ hdelayed
  rintro rfl
  have hsame : (ipHeader direct).ipTtl = (ipHeader arrived).ipTtl := by
    rw [hrelease, ipHeader_releaseFrame]
  rw [ttlOf_forwards hforwards] at hsame
  exact sub_one_ne _ hsame

def directFrame : Buffer :=
  forwardedFrame (clientDatagram 64) ⟨"sw0-eth1", projectMac 1, inetAton 192 168 2 1⟩ (projectMac 31)

def delayedFrame : Buffer := releaseFrame (arpHeader (serverArp arpOpReply)) (clientDatagram 64)

theorem directFrame_ne_delayedFrame : directFrame ≠ delayedFrame :=
  forwarded_ne_released
    (World.Reachable.system ⟨0, _, run_forwardedRouter⟩)
    (World.Reachable.system ⟨0, _, run_releasedRouter⟩)
    (by decide +kernel :
      .sent directFrame "sw0-eth1" (.forwarded (clientDatagram 64)) ∈ forwardedRouter.trace)
    (by decide +kernel :
      .sent delayedFrame "sw0-eth1" (.released (inetAton 192 168 2 2) (clientDatagram 64)) ∈
        releasedRouter.trace)

/-- One configuration, one frame of TTL 64 and one mapping. -/
theorem paths_disagree_64 :
    World.Reachable projectTable projectIps forwardedRouter ∧
      World.Reachable projectTable projectIps releasedRouter ∧
      forwardedRouter.router.tables = releasedRouter.router.tables ∧
      .sent directFrame "sw0-eth1" (.forwarded (clientDatagram 64)) ∈ forwardedRouter.trace ∧
      .sent delayedFrame "sw0-eth1" (.released (inetAton 192 168 2 2) (clientDatagram 64)) ∈
        releasedRouter.trace ∧
      directFrame ≠ delayedFrame :=
  ⟨⟨0, _, run_forwardedRouter⟩, ⟨0, _, run_releasedRouter⟩, by decide +kernel, by decide +kernel,
    by decide +kernel, by decide +kernel⟩

/-! ## Decreasing -/

/-- A transit frame leaves with one less than it came with, which was at least 2. -/
def Event.TtlOk : Event → Prop
  | .sent packet _ (.forwarded arrived) => 2 ≤ ttlOf arrived ∧ ttlOf arrived = ttlOf packet + 1
  | .sent packet _ (.released _ arrived) => 2 ≤ ttlOf arrived ∧ ttlOf arrived = ttlOf packet + 1
  | .queued _ packet => 2 ≤ ttlOf packet
  | _ => True

def TtlDecreases (w : World) : Prop := ∀ event ∈ w.trace, event.TtlOk

/-- A transit frame of TTL 0 is dropped for want of a route, and no ARP reply sets
waiting frames free. -/
def TtlRespected (w : World) : Turn → Prop
  | .receive packet inIface =>
    (InTransit w.router.tables packet inIface → (ipHeader packet).ipTtl = 0 →
      Known w packet (ipHeader packet).ipDst ∧
        w.router.tables.routingTable.lookup (ipHeader packet).ipDst = none) ∧
    (IsArp w.router.tables packet inIface arpOpReply →
      w.router.arp.lookup (arpHeader packet).arpSip = none →
      w.router.arp.findRequest (arpHeader packet).arpSip = none ∨
        ∀ iface, w.router.tables.sendInterface (arpHeader packet).arpSip ≠ .ok iface)
  | _ => True

section

variable {w : World} {packet : Buffer} {inIface : String}

theorem ttlOk_learns_append {ip : UInt32} {events : List Event} :
    (∀ event ∈ (w.learns packet ip).2 ++ events, event.TtlOk) ↔ ∀ event ∈ events, event.TtlOk := by
  unfold World.learns ArpCache.learn
  cases w.router.arp.lookup ip <;> simp [Event.TtlOk]

theorem ttlOk_learns (ip : UInt32) : ∀ event ∈ (w.learns packet ip).2, event.TtlOk := by
  rw [← List.append_nil (w.learns packet ip).2, ttlOk_learns_append]
  simp

theorem ttlRespected_of_not (htransit : ¬ InTransit w.router.tables packet inIface)
    (hreply : ¬ IsArp w.router.tables packet inIface arpOpReply) :
    TtlRespected w (.receive packet inIface) :=
  ⟨fun h => absurd h htransit, fun h => absurd h hreply⟩

theorem ttlRespected_transit_iff (htransit : InTransit w.router.tables packet inIface) :
    TtlRespected w (.receive packet inIface) ↔ ((ipHeader packet).ipTtl = 0 →
      Known w packet (ipHeader packet).ipDst ∧
        w.router.tables.routingTable.lookup (ipHeader packet).ipDst = none) :=
  ⟨fun h => h.1 htransit, fun h =>
    ⟨fun _ => h, fun hreply => absurd htransit.accepted hreply.not_accepted⟩⟩

theorem two_le_ttlOf_iff (htransit : InTransit w.router.tables packet inIface) :
    2 ≤ ttlOf packet ↔ (ipHeader packet).ipTtl ≠ 0 := by
  have hone : (ipHeader packet).ipTtl.toNat ≠ 1 := fun h => htransit.alive (UInt8.toNat.inj h)
  have hzero : (ipHeader packet).ipTtl = 0 ↔ (ipHeader packet).ipTtl.toNat = 0 :=
    UInt8.toNat_inj.symm
  rw [ttlOf, ne_eq, hzero]
  omega

theorem ttlOk_forwarded_iff (htransit : InTransit w.router.tables packet inIface)
    (iface : Interface) (mac : EtherAddr) (outIface : String) :
    (Event.sent (forwardedFrame packet iface mac) outIface (.forwarded packet)).TtlOk ↔
      (ipHeader packet).ipTtl ≠ 0 := by
  rw [← two_le_ttlOf_iff htransit, Event.TtlOk, ttlOf_forwardedFrame]
  constructor
  · exact And.left
  · intro h
    exact ⟨h, (toNat_sub_one ((two_le_ttlOf_iff htransit).mp h)).symm⟩

theorem ttlOk_reply_iff (hcache : CacheOk w.router.arp) (hqueue : QueueOk w.router.arp)
    (harp : IsArp w.router.tables packet inIface arpOpReply)
    (hnew : w.router.arp.lookup (arpHeader packet).arpSip = none) {arp : ArpCache}
    {events : List Event} {fault : Option Fault}
    (hsend : (w.router.arp.insertArpEntry w.now (sourceMac packet)
      (arpHeader packet).arpSip).1.sendPendingPackets w.router.tables (arpHeader packet)
      (arpHeader packet).arpSip = (arp, events, fault)) :
    (∀ event ∈ Event.learned (arpHeader packet).arpSip :: events, event.TtlOk) ↔
      TtlRespected w (.receive packet inIface) := by
  have hrespected : TtlRespected w (.receive packet inIface) ↔
      (w.router.arp.findRequest (arpHeader packet).arpSip = none ∨
        ∀ iface, w.router.tables.sendInterface (arpHeader packet).arpSip ≠ .ok iface) :=
    ⟨fun h => h.2 harp hnew, fun h =>
      ⟨fun htransit => absurd htransit.accepted harp.not_accepted, fun _ _ => h⟩⟩
  rw [hrespected]
  rcases sendPendingPackets_learned_cases hcache hqueue hnew hsend with
    ⟨hnone, rfl, rfl, rfl⟩ | ⟨request, fault', hsome, hroute, rfl, rfl, rfl⟩ |
      ⟨request, iface, hsome, hroute, rfl, rfl, rfl⟩
  · exact iff_of_true (by simp [Event.TtlOk]) (Or.inl hnone)
  · exact iff_of_true (by simp [Event.TtlOk]) (Or.inr fun iface => by simp [hroute])
  · have hmem := (ArpCache.findRequest_eq_some hsome).1
    refine iff_of_false (fun hall => ?_) ?_
    · obtain ⟨pending, rest, hpackets⟩ := List.exists_cons_of_ne_nil (hcache.packetsNonempty request hmem)
      have hfirst := (hall (.sent (releaseFrame (arpHeader packet) pending.packet) iface.name
        (.released (arpHeader packet).arpSip pending.packet)) (by simp [releases, hpackets])).2
      rw [ttlOf_releaseFrame] at hfirst
      omega
    · rintro (hnone | hnoIface)
      · exact absurd (hnone.symm.trans hsome) (by simp)
      · exact hnoIface iface hroute

theorem Outcome.ttlOk_iff (hcache : CacheOk w.router.arp) (hqueue : QueueOk w.router.arp)
    {arp : ArpCache} {events : List Event} {fault : Option Fault}
    (h : Outcome w packet inIface arp events fault) (hsurvives : fault ≠ some .nullDeref) :
    (∀ event ∈ events, event.TtlOk) ↔ TtlRespected w (.receive packet inIface) := by
  cases h with
  | ignored hip _ hreply =>
      exact iff_of_true (by simp) (ttlRespected_of_not (fun h => hip h.accepted) hreply)
  | overrun _ hip _ hreply =>
      exact iff_of_true (by simp) (ttlRespected_of_not (fun h => hip h.accepted) hreply)
  | request harp _ =>
      exact iff_of_true (ttlOk_learns _) (ttlRespected_of_not
        (fun h => harp.not_accepted h.accepted) fun h => absurd (harp.op_unique h) (by decide))
  | requestForUs harp iface _ =>
      exact iff_of_true (ttlOk_learns_append.mpr (by simp [Event.TtlOk])) (ttlRespected_of_not
        (fun h => harp.not_accepted h.accepted) fun h => absurd (harp.op_unique h) (by decide))
  | replyKnown harp entry hknown =>
      refine iff_of_true (by simp) ⟨fun h => absurd h.accepted harp.not_accepted, fun _ hnew => ?_⟩
      exact absurd (hnew.symm.trans hknown) (by simp)
  | reply harp hnew _ _ _ hsend => exact ttlOk_reply_iff hcache hqueue harp hnew hsend
  | icmpOverrun _ hicmp _ =>
      exact iff_of_true (ttlOk_learns _) (ttlRespected_of_not hicmp.not_inTransit
        fun h => h.not_accepted hicmp.accepted)
  | echo _ hicmp _ _ _ _ =>
      exact iff_of_true (ttlOk_learns_append.mpr (by simp [Event.TtlOk])) (ttlRespected_of_not
        hicmp.not_inTransit fun h => h.not_accepted hicmp.accepted)
  | icmpError hicmp _ _ _ _ =>
      exact iff_of_true (ttlOk_learns_append.mpr (by simp [Event.TtlOk])) (ttlRespected_of_not
        hicmp.not_inTransit fun h => h.not_accepted hicmp.accepted)
  | icmpIgnored hicmp _ =>
      exact iff_of_true (ttlOk_learns _) (ttlRespected_of_not hicmp.not_inTransit
        fun h => h.not_accepted hicmp.accepted)
  | localOther haccepted iface hiface _ _ =>
      refine iff_of_true (ttlOk_learns _) (ttlRespected_of_not (fun h => ?_)
        fun h => h.not_accepted haccepted)
      exact absurd (h.foreign.symm.trans hiface) (by simp)
  | noRoute htransit entry hcached hroute =>
      refine iff_of_true (ttlOk_learns _) ((ttlRespected_transit_iff htransit).mpr fun _ => ?_)
      exact ⟨lookup_learns_isSome.mp (by rw [hcached]; rfl), hroute⟩
  | noHop htransit _ _ _ _ _ => exact absurd rfl hsurvives
  | forwarded htransit entry hcached route hroute iface _ hop _ =>
      rw [ttlOk_learns_append, ttlRespected_transit_iff htransit]
      simp only [List.mem_singleton, forall_eq, ttlOk_forwarded_iff htransit, hroute]
      simp
  | queueNull htransit _ _ => exact absurd rfl hsurvives
  | queued htransit hmissing iface _ =>
      rw [ttlOk_learns_append, ttlRespected_transit_iff htransit]
      simp only [List.mem_singleton, forall_eq, Event.TtlOk, two_le_ttlOf_iff htransit,
        lookup_learns_none.mp hmissing]
      simp

end

/-! ## Every run -/

theorem ttlDecreases_step_iff {w w' : World} {turn : Turn} (hcache : CacheOk w.router.arp)
    (hqueue : QueueOk w.router.arp) (hstep : w.step turn = some w') :
    TtlDecreases w' ↔ TtlDecreases w ∧ TtlRespected w turn := by
  have happend : ∀ arp events, TtlDecreases (w.setArp arp events) ↔
      TtlDecreases w ∧ ∀ event ∈ events, event.TtlOk := by
    intro arp events
    simp only [TtlDecreases, World.setArp_trace, List.mem_append, or_imp, forall_and]
  cases turn with
  | receive packet inIface =>
      obtain ⟨arp, events, fault, rfl, houtcome, hsurvives⟩ := World.step_receive_outcome hstep
      rw [happend, houtcome.ttlOk_iff hcache hqueue (by rcases hsurvives with rfl | rfl <;> simp)]
  | tick =>
      obtain ⟨rfl, -⟩ := World.step_tick hstep
      refine (happend _ _).trans (and_congr_right fun _ => iff_of_true (fun event hevent => ?_) trivial)
      rw [ArpCache.ticker_outcome] at hevent
      obtain ⟨req, -, rfl | ⟨iface, -, rfl⟩⟩ := checkRequests_events hevent <;> trivial
  | reset ports =>
      obtain rfl := Option.some.inj hstep
      simp [TtlDecreases, World.reset, TtlRespected, or_imp, forall_and, Event.TtlOk]
  | elapse time =>
      obtain rfl := Option.some.inj hstep
      simp [TtlDecreases, TtlRespected]

/-- In every run in which a frame is handled with no pass in between, the TTL of the transit
frames decreases exactly when every step respects it. -/
theorem ttlDecreases_iff_ttlRespected {routingTable : RoutingTable}
    {ifNameToIpMap : List (String × UInt32)} {now : Nat} {turns : List Turn} {w : World}
    (hrun : run World.step (World.start routingTable ifNameToIpMap now) turns = some w) :
    TtlDecreases w ↔ AlongRun World.step (fun w turn _ => TtlRespected w turn)
      (World.start routingTable ifNameToIpMap now) turns := by
  have hstart : TtlDecreases (World.start routingTable ifNameToIpMap now) := by
    simp [TtlDecreases, World.start]
  have hiff := iff_alongRun (P := TtlDecreases)
    (I := fun w => System.Reachable routingTable ifNameToIpMap ⟨w, .idle⟩)
    (fun _ _ _ hw _ hstep => System.Reachable.turn hw hstep)
    (fun _ _ _ hw _ hstep =>
      ttlDecreases_step_iff (CacheOk.of_reachable hw) (QueueOk.of_reachable hw) hstep)
    (fun _ _ => trivial) ⟨now, .refl _⟩ hrun
  rw [hiff]
  exact and_iff_right hstart

theorem forwardedRouter_ttlDecreases_iff :
    TtlDecreases forwardedRouter ↔
      AlongRun World.step (fun w turn _ => TtlRespected w turn)
        (World.start projectTable projectIps 0)
        [.reset projectPorts, .receive (serverArp arpOpRequest) "sw0-eth1",
          .receive (clientDatagram 64) "sw0-eth3"] :=
  ttlDecreases_iff_ttlRespected run_forwardedRouter

/-- A frame of TTL 0 is sent on with 255, and a frame of TTL 64 is released with 64. -/
theorem ttl_not_decreasing :
    World.Reachable projectTable projectIps (cachedRouter.receive (clientDatagram 0) "sw0-eth3").1 ∧
      ¬ TtlDecreases (cachedRouter.receive (clientDatagram 0) "sw0-eth3").1 ∧
      World.Reachable projectTable projectIps releasedRouter ∧ ¬ TtlDecreases releasedRouter := by
  refine ⟨⟨0, [.reset projectPorts, .receive (serverArp arpOpRequest) "sw0-eth1",
    .receive (clientDatagram 0) "sw0-eth3"], by decide +kernel⟩, fun h => ?_,
    ⟨0, _, run_releasedRouter⟩, fun h => ?_⟩
  · have hsent := h (.sent (forwardedFrame (clientDatagram 0)
      ⟨"sw0-eth1", projectMac 1, inetAton 192 168 2 1⟩ (projectMac 31)) "sw0-eth1"
      (.forwarded (clientDatagram 0))) (by decide +kernel)
    exact absurd hsent.1 (by decide +kernel)
  · have hsent := h (.sent delayedFrame "sw0-eth1"
      (.released (inetAton 192 168 2 2) (clientDatagram 64))) (by decide +kernel)
    exact absurd hsent.2 (by decide +kernel)

end Cs118.Router
