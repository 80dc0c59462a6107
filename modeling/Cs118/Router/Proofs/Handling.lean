import Cs118.Router.System
import Cs118.Router.Proofs.Frames
import Cs118.Router.Proofs.Methods
/-!
# What handling a frame can do

Every way `handlePacket` can take when no ticker pass falls in between, with all
that has been checked on the way, what it sends and records and how it ends.
-/

namespace Cs118.Router

open Cs118.Lib
open Cs118.Lib.Bytes

/-! ## What the handlers check -/

def arpHeader (packet : Buffer) : ArpHdr := ArpHdr.load (packet.drop 14)

/-- An IPv4 frame whose header the router accepts. -/
structure Accepted (t : RouterTables) (packet : Buffer) (inIface : String) : Prop where
  known : (t.findIfaceByName inIface).isSome
  etherType : (EthernetHdr.load packet).etherType = ntohs ethertypeIp
  fits : 34 ≤ packet.length
  verified : cksum (ipHeader packet).image 20 = 0xffff

structure IsArp (t : RouterTables) (packet : Buffer) (inIface : String) (op : UInt16) : Prop where
  known : (t.findIfaceByName inIface).isSome
  etherType : (EthernetHdr.load packet).etherType = ntohs ethertypeArp
  fits : 42 ≤ packet.length
  arpOp : (arpHeader packet).arpOp = htons op

/-- A frame for another host that lives on. -/
structure InTransit (t : RouterTables) (packet : Buffer) (inIface : String) : Prop where
  accepted : Accepted t packet inIface
  foreign : t.findIfaceByIp (ipHeader packet).ipDst = none
  alive : (ipHeader packet).ipTtl ≠ 1

/-- A frame that is handed to `handleIcmpPacket`, and with which `time_exceed`. -/
structure ForIcmp (t : RouterTables) (packet : Buffer) (inIface : String) (timeExceed : Nat) :
    Prop where
  accepted : Accepted t packet inIface
  reason : (t.findIfaceByIp (ipHeader packet).ipDst).isSome ∧
      ((ipHeader packet).ipP = 0x01 ∧ timeExceed = 0 ∨
        (ipHeader packet).ipP = 0x11 ∧ timeExceed = 1) ∨
    t.findIfaceByIp (ipHeader packet).ipDst = none ∧ (ipHeader packet).ipTtl = 1 ∧ timeExceed = 1

theorem IsArp.not_accepted {t : RouterTables} {packet : Buffer} {inIface : String} {op : UInt16}
    (h : IsArp t packet inIface op) : ¬ Accepted t packet inIface := by
  intro hip
  have hclash := hip.etherType.symm.trans h.etherType
  exact absurd hclash (by decide)

theorem IsArp.op_unique {t : RouterTables} {packet : Buffer} {inIface : String} {op op' : UInt16}
    (h : IsArp t packet inIface op) (h' : IsArp t packet inIface op') : op = op' := by
  have heq := congrArg ntohs (h.arpOp.symm.trans h'.arpOp)
  rwa [ntohs_htons, ntohs_htons] at heq

theorem ForIcmp.not_inTransit {t : RouterTables} {packet : Buffer} {inIface : String}
    {timeExceed : Nat} (h : ForIcmp t packet inIface timeExceed) :
    ¬ InTransit t packet inIface := by
  intro htransit
  rcases h.reason with ⟨hlocal, -⟩ | ⟨-, hexpired, -⟩
  · rw [htransit.foreign] at hlocal
    exact absurd hlocal (by decide)
  · exact htransit.alive hexpired

theorem ForIcmp.protocol {t : RouterTables} {packet : Buffer} {inIface : String} {timeExceed : Nat}
    (h : ForIcmp t packet inIface timeExceed)
    (hlocal : (t.findIfaceByIp (ipHeader packet).ipDst).isSome) :
    (ipHeader packet).ipP = 0x01 ∧ timeExceed = 0 ∨ (ipHeader packet).ipP = 0x11 ∧ timeExceed = 1 := by
  rcases h.reason with ⟨-, hkind⟩ | ⟨hforeign, -⟩
  · exact hkind
  · rw [hforeign] at hlocal
    exact absurd hlocal (by decide)

theorem ForIcmp.unique {t : RouterTables} {packet : Buffer} {inIface : String}
    {timeExceed timeExceed' : Nat} (h : ForIcmp t packet inIface timeExceed)
    (h' : ForIcmp t packet inIface timeExceed') : timeExceed = timeExceed' := by
  rcases h.reason with ⟨hlocal, ⟨hping, rfl⟩ | ⟨hudp, rfl⟩⟩ | ⟨hforeign, -, rfl⟩
  · rcases h'.protocol hlocal with ⟨-, rfl⟩ | ⟨hudp, -⟩
    · rfl
    · exact absurd (hping.symm.trans hudp) (by decide)
  · rcases h'.protocol hlocal with ⟨hping, -⟩ | ⟨-, rfl⟩
    · exact absurd (hping.symm.trans hudp) (by decide)
    · rfl
  · rcases h'.reason with ⟨hlocal, -⟩ | ⟨-, -, rfl⟩
    · rw [hforeign] at hlocal
      exact absurd hlocal (by decide)
    · rfl

def icmpType (packet : Buffer) : UInt8 := (IcmpHdr.load (packet.drop 34)).icmpType

/-- The address whose mapping the forwarding branch uses. -/
def nextHop (entry : RoutingTableEntry) (ip : UInt32) : UInt32 :=
  if entry.dest = 0 then ip else entry.dest

def forwardedFrame (packet : Buffer) (iface : Interface) (mac : EtherAddr) : Buffer :=
  assembleIPPacket packet
    (updateSum { ipHeader packet with ipTtl := (ipHeader packet).ipTtl - 1 })
    { EthernetHdr.load packet with etherShost := iface.addr, etherDhost := mac }

def ArpCache.learn (cache : ArpCache) (now : Nat) (mac : EtherAddr) (ip : UInt32) :
    ArpCache × List Event :=
  match cache.lookup ip with
  | none => ((cache.insertArpEntry now mac ip).1, [.learned ip])
  | some _ => (cache, [])

def World.learns (w : World) (packet : Buffer) (ip : UInt32) : ArpCache × List Event :=
  w.router.arp.learn w.now (sourceMac packet) ip

/-- How the handling of a frame ends: the cache, the events and the fault. -/
inductive Outcome (w : World) (packet : Buffer) (inIface : String) :
    ArpCache → List Event → Option Fault → Prop
  | ignored (hip : ¬ Accepted w.router.tables packet inIface)
      (hrequest : ¬ IsArp w.router.tables packet inIface arpOpRequest)
      (hreply : ¬ IsArp w.router.tables packet inIface arpOpReply) :
      Outcome w packet inIface w.router.arp [] none
  | overrun (hshort : packet.length < 42) (hip : ¬ Accepted w.router.tables packet inIface)
      (hrequest : ¬ IsArp w.router.tables packet inIface arpOpRequest)
      (hreply : ¬ IsArp w.router.tables packet inIface arpOpReply) :
      Outcome w packet inIface w.router.arp [] (some .outOfBounds)
  | request (harp : IsArp w.router.tables packet inIface arpOpRequest)
      (hiface : w.router.tables.findIfaceByIp (arpHeader packet).arpTip = none) :
      Outcome w packet inIface (w.learns packet (arpHeader packet).arpSip).1
        (w.learns packet (arpHeader packet).arpSip).2 none
  | requestForUs (harp : IsArp w.router.tables packet inIface arpOpRequest) (iface : Interface)
      (hiface : w.router.tables.findIfaceByIp (arpHeader packet).arpTip = some iface) :
      Outcome w packet inIface (w.learns packet (arpHeader packet).arpSip).1
        ((w.learns packet (arpHeader packet).arpSip).2 ++
          [.sent (assembleArpInterfaceReplyPacket iface (EthernetHdr.load packet)
            (arpHeader packet)) iface.name .arpReply]) none
  | replyKnown (harp : IsArp w.router.tables packet inIface arpOpReply) (entry : ArpEntry)
      (hknown : w.router.arp.lookup (arpHeader packet).arpSip = some entry) :
      Outcome w packet inIface w.router.arp [] none
  | reply (harp : IsArp w.router.tables packet inIface arpOpReply)
      (hnew : w.router.arp.lookup (arpHeader packet).arpSip = none) (arp : ArpCache)
      (events : List Event) (fault : Option Fault)
      (hsend : (w.router.arp.insertArpEntry w.now (sourceMac packet)
          (arpHeader packet).arpSip).1.sendPendingPackets w.router.tables (arpHeader packet)
          (arpHeader packet).arpSip = (arp, events, fault)) :
      Outcome w packet inIface arp (.learned (arpHeader packet).arpSip :: events) fault
  | icmpOverrun (timeExceed : Nat) (hicmp : ForIcmp w.router.tables packet inIface timeExceed)
      (hshort : packet.length < 38 ∨ icmpType packet ≠ 8 ∧ packet.length < 42) :
      Outcome w packet inIface (w.learns packet (ipHeader packet).ipSrc).1
        (w.learns packet (ipHeader packet).ipSrc).2 (some .outOfBounds)
  | echo (timeExceed : Nat) (hicmp : ForIcmp w.router.tables packet inIface timeExceed)
      (hfits : 38 ≤ packet.length) (htype : icmpType packet = 8) (iface : Interface)
      (hiface : w.router.tables.findIfaceByName inIface = some iface) :
      Outcome w packet inIface (w.learns packet (ipHeader packet).ipSrc).1
        ((w.learns packet (ipHeader packet).ipSrc).2 ++
          [.sent (echoReply iface timeExceed (setBytes packet 36 (image16 0))) iface.name
            .echoReply]) none
  | icmpError (hicmp : ForIcmp w.router.tables packet inIface 1) (hfits : 42 ≤ packet.length)
      (htype : icmpType packet ≠ 8) (iface : Interface)
      (hiface : w.router.tables.findIfaceByName inIface = some iface) :
      Outcome w packet inIface (w.learns packet (ipHeader packet).ipSrc).1
        ((w.learns packet (ipHeader packet).ipSrc).2 ++
          [.sent (icmpError w.router.tables iface packet) iface.name .icmpError]) none
  | icmpIgnored (hicmp : ForIcmp w.router.tables packet inIface 0) (htype : icmpType packet ≠ 8) :
      Outcome w packet inIface (w.learns packet (ipHeader packet).ipSrc).1
        (w.learns packet (ipHeader packet).ipSrc).2 none
  | localOther (haccepted : Accepted w.router.tables packet inIface) (iface : Interface)
      (hiface : w.router.tables.findIfaceByIp (ipHeader packet).ipDst = some iface)
      (hicmp : (ipHeader packet).ipP ≠ 0x01) (hudp : (ipHeader packet).ipP ≠ 0x11) :
      Outcome w packet inIface (w.learns packet (ipHeader packet).ipSrc).1
        (w.learns packet (ipHeader packet).ipSrc).2 none
  | noRoute (htransit : InTransit w.router.tables packet inIface) (entry : ArpEntry)
      (hcached : (w.learns packet (ipHeader packet).ipSrc).1.lookup (ipHeader packet).ipDst =
        some entry)
      (hroute : w.router.tables.routingTable.lookup (ipHeader packet).ipDst = none) :
      Outcome w packet inIface (w.learns packet (ipHeader packet).ipSrc).1
        (w.learns packet (ipHeader packet).ipSrc).2 none
  | noHop (htransit : InTransit w.router.tables packet inIface) (entry : ArpEntry)
      (hcached : (w.learns packet (ipHeader packet).ipSrc).1.lookup (ipHeader packet).ipDst =
        some entry)
      (route : RoutingTableEntry)
      (hroute : w.router.tables.routingTable.lookup (ipHeader packet).ipDst = some route)
      (hnull : w.router.tables.findIfaceByName route.ifName = none ∨
        (w.learns packet (ipHeader packet).ipSrc).1.lookup
          (nextHop route (ipHeader packet).ipDst) = none) :
      Outcome w packet inIface (w.learns packet (ipHeader packet).ipSrc).1
        (w.learns packet (ipHeader packet).ipSrc).2 (some .nullDeref)
  | forwarded (htransit : InTransit w.router.tables packet inIface) (entry : ArpEntry)
      (hcached : (w.learns packet (ipHeader packet).ipSrc).1.lookup (ipHeader packet).ipDst =
        some entry)
      (route : RoutingTableEntry)
      (hroute : w.router.tables.routingTable.lookup (ipHeader packet).ipDst = some route)
      (iface : Interface) (hiface : w.router.tables.findIfaceByName route.ifName = some iface)
      (hop : ArpEntry)
      (hhop : (w.learns packet (ipHeader packet).ipSrc).1.lookup
        (nextHop route (ipHeader packet).ipDst) = some hop) :
      Outcome w packet inIface (w.learns packet (ipHeader packet).ipSrc).1
        ((w.learns packet (ipHeader packet).ipSrc).2 ++
          [.sent (forwardedFrame packet iface hop.mac) route.ifName (.forwarded packet)]) none
  | queueNull (htransit : InTransit w.router.tables packet inIface)
      (hmissing : (w.learns packet (ipHeader packet).ipSrc).1.lookup (ipHeader packet).ipDst = none)
      (hiface : w.router.tables.findIfaceByMac (EthernetHdr.load packet).etherDhost = none) :
      Outcome w packet inIface (w.learns packet (ipHeader packet).ipSrc).1
        (w.learns packet (ipHeader packet).ipSrc).2 (some .nullDeref)
  | queued (htransit : InTransit w.router.tables packet inIface)
      (hmissing : (w.learns packet (ipHeader packet).ipSrc).1.lookup (ipHeader packet).ipDst = none)
      (iface : Interface)
      (hiface : w.router.tables.findIfaceByMac (EthernetHdr.load packet).etherDhost = some iface) :
      Outcome w packet inIface
        ((w.learns packet (ipHeader packet).ipSrc).1.queueRequest (ipHeader packet).ipDst packet
          iface.name).1
        ((w.learns packet (ipHeader packet).ipSrc).2 ++ [.queued (ipHeader packet).ipDst packet])
        none

def Yields (w : World) (packet : Buffer) (inIface : String)
    (result : World × Except Fault Unit) : Prop :=
  ∃ arp events fault, result = (w.setArp arp events, World.toExcept fault) ∧
    Outcome w packet inIface arp events fault

/-! ## The handlers, call by call -/

@[simp] theorem World.setArp_setArp (w : World) (arp arp' : ArpCache) (events events' : List Event) :
    (w.setArp arp events).setArp arp' events' = w.setArp arp' (events ++ events') := by
  simp [World.setArp]

@[simp] theorem World.setArp_self (w : World) : w.setArp w.router.arp [] = w := by
  simp [World.setArp]

variable {w : World} {packet : Buffer} {inIface : String}

theorem exec_lookup (arp : ArpCache) (events : List Event) (ip : UInt32)
    (f : Option ArpEntry → Handler Unit) :
    (Handler.lookup ip >>= f).exec World.perform (w.setArp arp events) =
      (f (arp.lookup ip)).exec World.perform (w.setArp arp events) := rfl

theorem exec_lookup_first (ip : UInt32) (f : Option ArpEntry → Handler Unit) :
    (Handler.lookup ip >>= f).exec World.perform w =
      (f (w.router.arp.lookup ip)).exec World.perform w := rfl

theorem exec_learn (arp : ArpCache) (events : List Event) (ip : UInt32) (f : Unit → Handler Unit) :
    (learn packet ip >>= f).exec World.perform (w.setArp arp events) =
      (f ()).exec World.perform (w.setArp (arp.learn w.now (sourceMac packet) ip).1
        (events ++ (arp.learn w.now (sourceMac packet) ip).2)) := by
  show ((match arp.lookup ip with
    | none => discard (Handler.insertArpEntry (sourceMac packet) ip)
    | some _ => pure ()) >>= f).exec World.perform (w.setArp arp events) = _
  unfold ArpCache.learn
  cases arp.lookup ip with
  | some _ => simp
  | none =>
      show (f ()).exec World.perform ((w.setArp arp events).setArp _ [.learned ip]) = _
      rw [World.setArp_setArp]
      rfl

theorem exec_learn_first (ip : UInt32) (f : Unit → Handler Unit) :
    (learn packet ip >>= f).exec World.perform w =
      (f ()).exec World.perform (w.setArp (w.learns packet ip).1 (w.learns packet ip).2) := by
  have hlearn : (learn packet ip >>= f).exec World.perform (w.setArp w.router.arp []) = _ :=
    exec_learn w.router.arp [] ip f
  rwa [World.setArp_self] at hlearn

theorem exec_sendPacket (arp : ArpCache) (events : List Event) (frame : Buffer) (outIface : String)
    (purpose : Purpose) :
    (Handler.sendPacket frame outIface purpose).exec World.perform (w.setArp arp events) =
      (w.setArp arp (events ++ [.sent frame outIface purpose]), .ok ()) := by
  show ((w.setArp arp events).setArp arp [.sent frame outIface purpose], Except.ok ()) = _
  rw [World.setArp_setArp]

theorem exec_copyOut {α : Type} {load : Buffer → α} {offset size : Nat} {f : α → Handler Unit}
    (h : offset + size ≤ packet.length) :
    Handler.copyOut load packet offset size >>= f = f (load (packet.drop offset)) := by
  rw [Handler.copyOut, if_neg (by omega), Script.pure_bind]

theorem exec_copyOut_overrun {α : Type} {load : Buffer → α} {offset size : Nat}
    {f : α → Handler Unit} (h : packet.length < offset + size) :
    Handler.copyOut load packet offset size >>= f = .throw .outOfBounds := by
  rw [Handler.copyOut, if_pos h, Script.throw_bind]

/-- An echo request is answered whatever its checksum: the length summed is negative. -/
theorem handleIcmpPacket_echo (timeExceed : Nat) {arp : ArpCache} {events : List Event}
    (hlen : 38 ≤ packet.length) (htype : icmpType packet = 8) {iface : Interface}
    (hiface : w.router.tables.findIfaceByName inIface = some iface) :
    (handleIcmpPacket w.router.tables inIface packet timeExceed).exec World.perform
        (w.setArp arp events) =
      (w.setArp arp (events ++ [.sent (echoReply iface timeExceed (setBytes packet 36 (image16 0)))
        iface.name .echoReply]), .ok ()) := by
  have hecho : (IcmpHdr.load (packet.drop 34)).icmpType = 8 := htype
  have hchecked : ∀ temp, cksum temp (sizeofVector - 34) = 0xffff := fun temp =>
    cksum_of_nonpos temp (by decide)
  unfold handleIcmpPacket getIcmpPacket
  rw [exec_copyOut hlen, if_pos hecho, if_pos (hchecked _), hiface]
  exact exec_sendPacket ..

theorem handleIcmpPacket_error {arp : ArpCache} {events : List Event} (hlen : 42 ≤ packet.length)
    (htype : icmpType packet ≠ 8) {iface : Interface}
    (hiface : w.router.tables.findIfaceByName inIface = some iface) :
    (handleIcmpPacket w.router.tables inIface packet 1).exec World.perform (w.setArp arp events) =
      (w.setArp arp (events ++ [.sent (icmpError w.router.tables iface packet) iface.name
        .icmpError]), .ok ()) := by
  have hnot : (IcmpHdr.load (packet.drop 34)).icmpType ≠ 8 := htype
  unfold handleIcmpPacket getIcmpPacket
  rw [exec_copyOut (by omega), if_neg hnot, if_pos rfl, exec_copyOut (by omega), hiface]
  exact exec_sendPacket ..

theorem handleIcmpPacket_yields {timeExceed : Nat}
    (hicmp : ForIcmp w.router.tables packet inIface timeExceed) :
    Yields w packet inIface ((handleIcmpPacket w.router.tables inIface packet timeExceed).exec
      World.perform (w.setArp (w.learns packet (ipHeader packet).ipSrc).1
        (w.learns packet (ipHeader packet).ipSrc).2)) := by
  obtain ⟨iface, hiface⟩ := Option.isSome_iff_exists.mp hicmp.accepted.known
  by_cases hfits : 38 ≤ packet.length
  · by_cases htype : icmpType packet = 8
    · exact ⟨_, _, none, handleIcmpPacket_echo timeExceed hfits htype hiface,
        .echo timeExceed hicmp hfits htype iface hiface⟩
    · have hother : ¬ (IcmpHdr.load (packet.drop 34)).icmpType = 8 := htype
      by_cases hexceed : timeExceed = 1
      · subst hexceed
        by_cases hquoted : 42 ≤ packet.length
        · exact ⟨_, _, none, handleIcmpPacket_error hquoted htype hiface,
            .icmpError hicmp hquoted htype iface hiface⟩
        · refine ⟨_, _, some .outOfBounds, ?_, .icmpOverrun 1 hicmp (Or.inr ⟨htype, by omega⟩)⟩
          unfold handleIcmpPacket getIcmpPacket
          rw [exec_copyOut hfits, if_neg hother, if_pos rfl, exec_copyOut_overrun (by omega)]
          rfl
      · have hzero : timeExceed = 0 := by
          rcases hicmp.reason with ⟨-, ⟨-, h⟩ | ⟨-, h⟩⟩ | ⟨-, -, h⟩
          · exact h
          · exact absurd h hexceed
          · exact absurd h hexceed
        subst hzero
        refine ⟨_, _, none, ?_, .icmpIgnored hicmp htype⟩
        unfold handleIcmpPacket getIcmpPacket
        rw [exec_copyOut hfits, if_neg hother, if_neg hexceed]
        rfl
  · refine ⟨_, _, some .outOfBounds, ?_, .icmpOverrun timeExceed hicmp (Or.inl (by omega))⟩
    unfold handleIcmpPacket getIcmpPacket
    rw [exec_copyOut_overrun (by omega)]
    rfl

/-- With a route the forwarding branch looks up both ends of the next hop and sends. -/
theorem exec_forwardPacket {t : RouterTables} {route : RoutingTableEntry}
    (hroute : t.routingTable.lookup (ipHeader packet).ipDst = some route) (w : World) :
    (forwardPacket t packet (EthernetHdr.load packet)
      { ipHeader packet with ipTtl := (ipHeader packet).ipTtl - 1 }).exec World.perform w =
    Script.exec World.perform
      (Handler.deref (t.findIfaceByName route.ifName) >>= fun iface =>
        Handler.deref (w.router.arp.lookup (nextHop route (ipHeader packet).ipDst)) >>= fun hop =>
        Handler.sendPacket (forwardedFrame packet iface hop.mac) route.ifName
          (.forwarded packet)) w := by
  have hhop : nextHop route (ipHeader packet).ipDst =
      if ipToString route.dest = Text.bytesOf "0.0.0.0" then (ipHeader packet).ipDst
      else route.dest := by
    simp only [nextHop, ipToString_eq_zero_iff]
  unfold forwardPacket
  rw [show t.routingTable.lookup _ = some route from hroute, hhop]
  rfl

theorem forwardPacket_yields (htransit : InTransit w.router.tables packet inIface)
    {entry : ArpEntry} (hcached : (w.learns packet (ipHeader packet).ipSrc).1.lookup
      (ipHeader packet).ipDst = some entry) :
    Yields w packet inIface ((forwardPacket w.router.tables packet (EthernetHdr.load packet)
      { ipHeader packet with ipTtl := (ipHeader packet).ipTtl - 1 }).exec
      World.perform (w.setArp (w.learns packet (ipHeader packet).ipSrc).1
        (w.learns packet (ipHeader packet).ipSrc).2)) := by
  cases hroute : w.router.tables.routingTable.lookup (ipHeader packet).ipDst with
  | none =>
      unfold forwardPacket
      rw [show w.router.tables.routingTable.lookup _ = none from hroute]
      exact ⟨_, _, none, rfl, .noRoute htransit entry hcached hroute⟩
  | some route =>
      rw [exec_forwardPacket hroute, World.setArp_arp]
      cases hiface : w.router.tables.findIfaceByName route.ifName with
      | none =>
          exact ⟨_, _, some .nullDeref, rfl, .noHop htransit entry hcached route hroute (Or.inl hiface)⟩
      | some iface =>
          cases hhop : (w.learns packet (ipHeader packet).ipSrc).1.lookup
              (nextHop route (ipHeader packet).ipDst) with
          | none =>
              exact ⟨_, _, some .nullDeref, rfl,
                .noHop htransit entry hcached route hroute (Or.inr hhop)⟩
          | some hop =>
              exact ⟨_, _, none, exec_sendPacket ..,
                .forwarded htransit entry hcached route hroute iface hiface hop hhop⟩

theorem ArpCache.learn_learn (arp : ArpCache) (now : Nat) (mac : EtherAddr) (ip : UInt32) :
    (arp.learn now mac ip).1.learn now mac ip = ((arp.learn now mac ip).1, []) := by
  have hfound : ((arp.learn now mac ip).1.lookup ip).isSome := by
    unfold ArpCache.learn
    cases hlookup : arp.lookup ip with
    | none => simp [ArpCache.lookup_insertArpEntry]
    | some entry => simp [hlookup]
  obtain ⟨entry, hentry⟩ := Option.isSome_iff_exists.mp hfound
  generalize (arp.learn now mac ip).1 = learnt at hentry
  rw [ArpCache.learn, hentry]

theorem transit_yields (htransit : InTransit w.router.tables packet inIface) :
    Yields w packet inIface (Script.exec World.perform
      (Handler.lookup (ipHeader packet).ipDst >>= fun found =>
        match found with
        | some _ =>
          forwardPacket w.router.tables packet (EthernetHdr.load packet)
            { ipHeader packet with ipTtl := (ipHeader packet).ipTtl - 1 }
        | none =>
          Handler.deref (w.router.tables.findIfaceByMac (EthernetHdr.load packet).etherDhost) >>=
            fun myInter =>
              discard (Handler.queueRequest (ipHeader packet).ipDst packet myInter.name))
      (w.setArp (w.learns packet (ipHeader packet).ipSrc).1
        (w.learns packet (ipHeader packet).ipSrc).2)) := by
  rw [exec_lookup]
  cases hcached : (w.learns packet (ipHeader packet).ipSrc).1.lookup (ipHeader packet).ipDst with
  | some entry => exact forwardPacket_yields htransit hcached
  | none =>
      cases hiface : w.router.tables.findIfaceByMac (EthernetHdr.load packet).etherDhost with
      | none => exact ⟨_, _, some .nullDeref, rfl, .queueNull htransit hcached hiface⟩
      | some iface =>
          refine ⟨_, _, none, ?_, .queued htransit hcached iface hiface⟩
          rw [← World.setArp_setArp]
          rfl

theorem handleIpPacket_transit (htransit : InTransit w.router.tables packet inIface) :
    (handleIpPacket w.router.tables inIface packet (EthernetHdr.load packet)).exec World.perform w =
      Script.exec World.perform
        (Handler.lookup (ipHeader packet).ipDst >>= fun found =>
          match found with
          | some _ =>
            forwardPacket w.router.tables packet (EthernetHdr.load packet)
              { ipHeader packet with ipTtl := (ipHeader packet).ipTtl - 1 }
          | none =>
            Handler.deref (w.router.tables.findIfaceByMac (EthernetHdr.load packet).etherDhost) >>=
              fun myInter =>
                discard (Handler.queueRequest (ipHeader packet).ipDst packet myInter.name))
        (w.setArp (w.learns packet (ipHeader packet).ipSrc).1
          (w.learns packet (ipHeader packet).ipSrc).2) := by
  have hforeign : w.router.tables.findIfaceByIp (IpHdr.load (packet.drop 14)).ipDst = none :=
    htransit.foreign
  have hverified : cksum (IpHdr.load (packet.drop 14)).image 20 = 0xffff :=
    htransit.accepted.verified
  have halive : ¬ (IpHdr.load (packet.drop 14)).ipTtl - 1 ≤ 0 := fun h =>
    htransit.alive ((ttl_le_zero_iff _).mp h)
  unfold handleIpPacket getIpPacket
  rw [exec_copyOut htransit.accepted.fits]
  dsimp only
  rw [if_pos hverified, exec_learn_first, hforeign]
  dsimp only
  rw [if_neg halive]
  rfl

theorem handleIpPacket_icmp {timeExceed : Nat}
    (hicmp : ForIcmp w.router.tables packet inIface timeExceed) :
    (handleIpPacket w.router.tables inIface packet (EthernetHdr.load packet)).exec World.perform w =
      (handleIcmpPacket w.router.tables inIface packet timeExceed).exec World.perform
        (w.setArp (w.learns packet (ipHeader packet).ipSrc).1
          (w.learns packet (ipHeader packet).ipSrc).2) := by
  have hverified : cksum (IpHdr.load (packet.drop 14)).image 20 = 0xffff :=
    hicmp.accepted.verified
  unfold handleIpPacket getIpPacket
  rw [exec_copyOut hicmp.accepted.fits]
  dsimp only
  rw [if_pos hverified, exec_learn_first]
  rcases hicmp.reason with ⟨hlocal, hkind⟩ | ⟨hforeign, hexpired, rfl⟩
  · obtain ⟨iface, hiface⟩ := Option.isSome_iff_exists.mp hlocal
    rw [ipHeader] at hiface
    rw [hiface]
    dsimp only
    rcases hkind with ⟨hping, rfl⟩ | ⟨hudp, rfl⟩
    · rw [if_pos (show (IpHdr.load (packet.drop 14)).ipP = 0x01 from hping)]
      rfl
    · have hnotPing : (IpHdr.load (packet.drop 14)).ipP ≠ 0x01 := by
        rw [show (IpHdr.load (packet.drop 14)).ipP = 0x11 from hudp]
        decide
      rw [if_neg hnotPing, if_pos (show (IpHdr.load (packet.drop 14)).ipP = 0x11 from hudp)]
      rfl
  · rw [ipHeader] at hforeign hexpired
    rw [hforeign]
    dsimp only
    rw [if_pos ((ttl_le_zero_iff _).mpr hexpired), exec_learn, World.learns,
      ArpCache.learn_learn, List.append_nil]
    rfl

theorem handleIpPacket_yields_accepted (haccepted : Accepted w.router.tables packet inIface) :
    Yields w packet inIface ((handleIpPacket w.router.tables inIface packet
      (EthernetHdr.load packet)).exec World.perform w) := by
  cases hlocal : w.router.tables.findIfaceByIp (ipHeader packet).ipDst with
  | some iface =>
      have hours : (w.router.tables.findIfaceByIp (ipHeader packet).ipDst).isSome := by
        rw [hlocal]
        rfl
      by_cases hping : (ipHeader packet).ipP = 0x01
      · have hicmp : ForIcmp w.router.tables packet inIface 0 :=
          ⟨haccepted, Or.inl ⟨hours, Or.inl ⟨hping, rfl⟩⟩⟩
        rw [handleIpPacket_icmp hicmp]
        exact handleIcmpPacket_yields hicmp
      · by_cases hudp : (ipHeader packet).ipP = 0x11
        · have hicmp : ForIcmp w.router.tables packet inIface 1 :=
            ⟨haccepted, Or.inl ⟨hours, Or.inr ⟨hudp, rfl⟩⟩⟩
          rw [handleIpPacket_icmp hicmp]
          exact handleIcmpPacket_yields hicmp
        · have hverified := haccepted.verified
          refine ⟨_, _, none, ?_, .localOther haccepted iface hlocal hping hudp⟩
          rw [ipHeader] at hlocal hping hudp hverified
          unfold handleIpPacket getIpPacket
          rw [exec_copyOut haccepted.fits]
          dsimp only
          rw [if_pos hverified, exec_learn_first, hlocal]
          dsimp only
          rw [if_neg hping, if_neg hudp]
          rfl
  | none =>
      by_cases hexpired : (ipHeader packet).ipTtl = 1
      · have hicmp : ForIcmp w.router.tables packet inIface 1 :=
          ⟨haccepted, Or.inr ⟨hlocal, hexpired, rfl⟩⟩
        rw [handleIpPacket_icmp hicmp]
        exact handleIcmpPacket_yields hicmp
      · have htransit : InTransit w.router.tables packet inIface := ⟨haccepted, hlocal, hexpired⟩
        rw [handleIpPacket_transit htransit]
        exact transit_yields htransit

theorem handleIpPacket_yields (hknown : (w.router.tables.findIfaceByName inIface).isSome)
    (htype : (EthernetHdr.load packet).etherType = ntohs ethertypeIp) :
    Yields w packet inIface ((handleIpPacket w.router.tables inIface packet
      (EthernetHdr.load packet)).exec World.perform w) := by
  have hnotArp : ∀ op, ¬ IsArp w.router.tables packet inIface op := by
    intro op harp
    have hclash := harp.etherType.symm.trans htype
    exact absurd hclash (by decide)
  by_cases hfits : 14 + 20 ≤ packet.length
  · by_cases hsum : cksum (IpHdr.load (packet.drop 14)).image 20 = 0xffff
    · exact handleIpPacket_yields_accepted ⟨hknown, htype, hfits, hsum⟩
    · refine ⟨_, _, none, ?_, .ignored (fun h => hsum h.verified) (hnotArp _) (hnotArp _)⟩
      unfold handleIpPacket getIpPacket
      rw [exec_copyOut hfits]
      dsimp only
      rw [if_neg hsum, World.setArp_self]
      rfl
  · refine ⟨_, _, some .outOfBounds, ?_,
      .overrun (by omega) (fun h => hfits h.fits) (hnotArp _) (hnotArp _)⟩
    unfold handleIpPacket getIpPacket
    rw [exec_copyOut_overrun (by omega), World.setArp_self]
    rfl

theorem exec_sendPendingPackets (arp : ArpCache) (events : List Event) (reply : ArpHdr)
    (ip : UInt32) :
    (Handler.sendPendingPackets reply ip).exec World.perform (w.setArp arp events) =
      (w.setArp (arp.sendPendingPackets w.router.tables reply ip).1
        (events ++ (arp.sendPendingPackets w.router.tables reply ip).2.1),
        World.toExcept (arp.sendPendingPackets w.router.tables reply ip).2.2) := by
  rcases hsend : arp.sendPendingPackets w.router.tables reply ip with ⟨arp', events', fault⟩
  have hperform : (w.setArp arp events).perform (.sendPendingPackets reply ip) =
      (w.setArp arp' (events ++ events'), World.toExcept fault) := by
    simp only [World.perform, World.setArp_arp, World.setArp_tables, hsend, World.setArp_setArp]
    rfl
  cases fault with
  | none => exact Script.exec_call_ok hperform
  | some fault => exact Script.exec_call_error hperform

theorem exec_release (mac : EtherAddr) (ip : UInt32) (reply : ArpHdr) :
    (discard (Handler.insertArpEntry mac ip) >>= fun _ =>
        Handler.sendPendingPackets reply ip).exec World.perform w =
      let next := (w.router.arp.insertArpEntry w.now mac ip).1.sendPendingPackets w.router.tables
        reply ip
      (w.setArp next.1 (.learned ip :: next.2.1), World.toExcept next.2.2) :=
  exec_sendPendingPackets _ [.learned ip] reply ip

theorem handleArpPacket_yields (hknown : (w.router.tables.findIfaceByName inIface).isSome)
    (htype : (EthernetHdr.load packet).etherType = ntohs ethertypeArp) :
    Yields w packet inIface ((handleArpPacket w.router.tables packet
      (EthernetHdr.load packet)).exec World.perform w) := by
  have hnotIp : ¬ Accepted w.router.tables packet inIface := by
    intro hip
    have hclash := hip.etherType.symm.trans htype
    exact absurd hclash (by decide)
  unfold handleArpPacket getArpPacket
  by_cases hfits : 14 + 28 ≤ packet.length
  · rw [exec_copyOut hfits]
    by_cases hrequest : (ArpHdr.load (packet.drop 14)).arpOp = ntohs arpOpRequest
    · rw [if_pos hrequest, exec_learn_first]
      have harp : IsArp w.router.tables packet inIface arpOpRequest :=
        ⟨hknown, htype, hfits, hrequest⟩
      cases hiface : w.router.tables.findIfaceByIp (ArpHdr.load (packet.drop 14)).arpTip with
      | none => exact ⟨_, _, none, rfl, .request harp hiface⟩
      | some iface => exact ⟨_, _, none, exec_sendPacket .., .requestForUs harp iface hiface⟩
    · rw [if_neg hrequest]
      by_cases hreply : (ArpHdr.load (packet.drop 14)).arpOp = htons arpOpReply
      · rw [if_pos hreply]
        have harp : IsArp w.router.tables packet inIface arpOpReply :=
          ⟨hknown, htype, hfits, hreply⟩
        rw [exec_lookup_first]
        cases hcached : w.router.arp.lookup (ArpHdr.load (packet.drop 14)).arpSip with
        | some entry =>
            refine ⟨_, _, none, ?_, .replyKnown harp entry hcached⟩
            rw [World.setArp_self]
            rfl
        | none =>
            exact ⟨_, _, _, exec_release .., .reply harp hcached _ _ _ rfl⟩
      · rw [if_neg hreply]
        refine ⟨_, _, none, ?_, .ignored hnotIp (fun h => hrequest h.arpOp) (fun h => hreply h.arpOp)⟩
        rw [World.setArp_self]
        rfl
  · rw [exec_copyOut_overrun (by omega)]
    refine ⟨_, _, some .outOfBounds, ?_,
      .overrun (by omega) hnotIp (fun h => hfits h.fits) (fun h => hfits h.fits)⟩
    rw [World.setArp_self]
    rfl

theorem receive_known (hknown : (w.router.tables.findIfaceByName inIface).isSome)
    (hfits : 14 ≤ packet.length) :
    w.receive packet inIface =
      (if (EthernetHdr.load packet).etherType = ntohs ethertypeArp then
        handleArpPacket w.router.tables packet (EthernetHdr.load packet)
      else if (EthernetHdr.load packet).etherType = ntohs ethertypeIp then
        handleIpPacket w.router.tables inIface packet (EthernetHdr.load packet)
      else pure () : Handler Unit).exec World.perform w := by
  obtain ⟨iface, hiface⟩ := Option.isSome_iff_exists.mp hknown
  unfold World.receive handlePacket getEthernetHeader
  rw [hiface]
  dsimp only
  rw [exec_copyOut (by omega), List.drop_zero]

theorem receive_arp {op : UInt16} (harp : IsArp w.router.tables packet inIface op) :
    w.receive packet inIface = (handleArpPacket w.router.tables packet
      (EthernetHdr.load packet)).exec World.perform w := by
  have hfits := harp.fits
  rw [receive_known harp.known (by omega), if_pos harp.etherType]

theorem receive_accepted (haccepted : Accepted w.router.tables packet inIface) :
    w.receive packet inIface = (handleIpPacket w.router.tables inIface packet
      (EthernetHdr.load packet)).exec World.perform w := by
  have hfits := haccepted.fits
  have hnotArp : (EthernetHdr.load packet).etherType ≠ ntohs ethertypeArp := by
    rw [haccepted.etherType]
    decide
  rw [receive_known haccepted.known (by omega), if_neg hnotArp, if_pos haccepted.etherType]

theorem receive_transit (htransit : InTransit w.router.tables packet inIface) :
    w.receive packet inIface = Script.exec World.perform
      (Handler.lookup (ipHeader packet).ipDst >>= fun found =>
        match found with
        | some _ =>
          forwardPacket w.router.tables packet (EthernetHdr.load packet)
            { ipHeader packet with ipTtl := (ipHeader packet).ipTtl - 1 }
        | none =>
          Handler.deref (w.router.tables.findIfaceByMac (EthernetHdr.load packet).etherDhost) >>=
            fun myInter =>
              discard (Handler.queueRequest (ipHeader packet).ipDst packet myInter.name))
      (w.setArp (w.learns packet (ipHeader packet).ipSrc).1
        (w.learns packet (ipHeader packet).ipSrc).2) := by
  rw [receive_accepted htransit.accepted, handleIpPacket_transit htransit]

theorem receive_icmp {timeExceed : Nat}
    (hicmp : ForIcmp w.router.tables packet inIface timeExceed) :
    w.receive packet inIface =
      (handleIcmpPacket w.router.tables inIface packet timeExceed).exec World.perform
        (w.setArp (w.learns packet (ipHeader packet).ipSrc).1
          (w.learns packet (ipHeader packet).ipSrc).2) := by
  rw [receive_accepted hicmp.accepted, handleIpPacket_icmp hicmp]

theorem receive_echo {timeExceed : Nat} (hicmp : ForIcmp w.router.tables packet inIface timeExceed)
    (hlen : 38 ≤ packet.length) (htype : icmpType packet = 8) {iface : Interface}
    (hiface : w.router.tables.findIfaceByName inIface = some iface) :
    w.receive packet inIface =
      (w.setArp (w.learns packet (ipHeader packet).ipSrc).1
        ((w.learns packet (ipHeader packet).ipSrc).2 ++
          [.sent (echoReply iface timeExceed (setBytes packet 36 (image16 0))) iface.name
            .echoReply]), .ok ()) := by
  rw [receive_icmp hicmp, handleIcmpPacket_echo timeExceed hlen htype hiface]

theorem receive_icmpError (hicmp : ForIcmp w.router.tables packet inIface 1)
    (hlen : 42 ≤ packet.length) (htype : icmpType packet ≠ 8) {iface : Interface}
    (hiface : w.router.tables.findIfaceByName inIface = some iface) :
    w.receive packet inIface =
      (w.setArp (w.learns packet (ipHeader packet).ipSrc).1
        ((w.learns packet (ipHeader packet).ipSrc).2 ++
          [.sent (icmpError w.router.tables iface packet) iface.name .icmpError]), .ok ()) := by
  rw [receive_icmp hicmp, handleIcmpPacket_error hlen htype hiface]

/-- Every frame is handled in one of the ways of `Outcome`. -/
theorem receive_yields (w : World) (packet : Buffer) (inIface : String) :
    Yields w packet inIface (w.receive packet inIface) := by
  by_cases hknown : (w.router.tables.findIfaceByName inIface).isSome
  · by_cases hfits : 14 ≤ packet.length
    · rw [receive_known hknown hfits]
      by_cases harp : (EthernetHdr.load packet).etherType = ntohs ethertypeArp
      · rw [if_pos harp]
        exact handleArpPacket_yields hknown harp
      · rw [if_neg harp]
        by_cases hip : (EthernetHdr.load packet).etherType = ntohs ethertypeIp
        · rw [if_pos hip]
          exact handleIpPacket_yields hknown hip
        · rw [if_neg hip]
          refine ⟨_, _, none, ?_, .ignored (fun h => hip h.etherType) (fun h => harp h.etherType)
            (fun h => harp h.etherType)⟩
          rw [World.setArp_self]
          rfl
    · obtain ⟨iface, hiface⟩ := Option.isSome_iff_exists.mp hknown
      unfold World.receive handlePacket getEthernetHeader
      rw [hiface]
      dsimp only
      rw [exec_copyOut_overrun (by omega)]
      refine ⟨_, _, some .outOfBounds, ?_, .overrun (by omega) (fun h => ?_) (fun h => ?_)
        (fun h => ?_)⟩
      · rw [World.setArp_self]
        rfl
      all_goals
        have := h.fits
        omega
  · have hnone := Option.not_isSome_iff_eq_none.mp hknown
    unfold World.receive handlePacket
    rw [hnone]
    refine ⟨_, _, none, ?_, .ignored (fun h => hknown h.known) (fun h => hknown h.known)
      (fun h => hknown h.known)⟩
    rw [World.setArp_self]
    rfl

/-! ## What the sender of a frame adds to the cache -/

/-- The address has a mapping once the sender of `packet` is in the cache. -/
def Known (w : World) (packet : Buffer) (ip : UInt32) : Prop :=
  ip = (ipHeader packet).ipSrc ∨ (w.router.arp.lookup ip).isSome

instance (w : World) (packet : Buffer) (ip : UInt32) : Decidable (Known w packet ip) :=
  inferInstanceAs (Decidable (_ ∨ _))

theorem lookup_learns_isSome {w : World} {packet : Buffer} {ip x : UInt32} :
    ((w.learns packet ip).1.lookup x).isSome ↔ x = ip ∨ (w.router.arp.lookup x).isSome := by
  unfold World.learns ArpCache.learn
  cases hip : w.router.arp.lookup ip with
  | none =>
      dsimp only
      rw [ArpCache.lookup_insertArpEntry]
      by_cases hx : ip = x
      · simp [hx]
      · simp [hx, Ne.symm hx]
  | some entry =>
      dsimp only
      constructor
      · exact Or.inr
      · rintro (rfl | hsome)
        · rw [hip]
          rfl
        · exact hsome

theorem lookup_learns_none {w : World} {packet : Buffer} {ip : UInt32} :
    (w.learns packet (ipHeader packet).ipSrc).1.lookup ip = none ↔ ¬ Known w packet ip := by
  rw [Known, ← lookup_learns_isSome, Option.not_isSome_iff_eq_none]

theorem World.step_receive_outcome {w w' : World} {packet : Buffer} {inIface : String}
    (h : w.step (.receive packet inIface) = some w') :
    ∃ arp events fault, w' = w.setArp arp events ∧ Outcome w packet inIface arp events fault ∧
      (fault = none ∨ fault = some .runtimeError) := by
  obtain ⟨arp, events, fault, hreceive, houtcome⟩ := receive_yields w packet inIface
  rw [World.step_receive, hreceive] at h
  refine ⟨arp, events, fault, ?_, houtcome, ?_⟩
  · exact h.elim (fun heq => (congrArg Prod.fst heq).symm) fun heq => (congrArg Prod.fst heq).symm
  · rcases fault with _ | fault
    · exact Or.inl rfl
    · rcases h with heq | heq
      · simp [World.toExcept] at heq
      · exact Or.inr (by simpa [World.toExcept] using (congrArg Prod.snd heq))

theorem World.step_tick {w w' : World} (h : w.step .tick = some w') :
    w' = w.tick.1 ∧ w.tick.2 = none := by
  rcases htick : w.tick with ⟨mid, fault | fault⟩
  · exact ⟨by simpa [World.step, htick] using h.symm, rfl⟩
  · simp [World.step, htick] at h

theorem System.Reachable.turn {routingTable : RoutingTable}
    {ifNameToIpMap : List (String × UInt32)} {w w' : World} {turn : Turn}
    (h : System.Reachable routingTable ifNameToIpMap ⟨w, .idle⟩) (hstep : w.step turn = some w') :
    System.Reachable routingTable ifNameToIpMap ⟨w', .idle⟩ := by
  obtain ⟨now, hreach⟩ := h
  exact ⟨now, hreach.trans (World.step_reach hstep)⟩

def World.eventsTo (w w' : World) : List Event := w'.trace.drop w.trace.length

@[simp] theorem World.eventsTo_setArp (w : World) (arp : ArpCache) (events : List Event) :
    w.eventsTo (w.setArp arp events) = events := by
  simp [World.eventsTo]

/-! ## The frames that are sent -/

section

variable {w : World} {P : Buffer → String → Prop}

theorem not_sent_of_learns {packet : Buffer} (ip : UInt32) (frame : Buffer) (outIface : String)
    (purpose : Purpose) : Event.sent frame outIface purpose ∉ (w.learns packet ip).2 := by
  unfold World.learns ArpCache.learn
  cases w.router.arp.lookup ip <;> simp

theorem forall_sent_of_not_sent {arp : ArpCache} {events : List Event}
    (h : ∀ frame outIface purpose, .sent frame outIface purpose ∉ events) :
    ∀ frame outIface purpose, .sent frame outIface purpose ∈ w.eventsTo (w.setArp arp events) →
      P frame outIface := by
  intro frame outIface purpose hsent
  rw [World.eventsTo_setArp] at hsent
  exact absurd hsent (h frame outIface purpose)

theorem forall_sent_one_iff {packet : Buffer} {ip : UInt32} {arp : ArpCache} {frame : Buffer}
    {outIface : String} {purpose : Purpose} :
    (∀ frame' outIface' purpose', .sent frame' outIface' purpose' ∈ w.eventsTo (w.setArp arp
        ((w.learns packet ip).2 ++ [.sent frame outIface purpose])) → P frame' outIface') ↔
      P frame outIface := by
  rw [World.eventsTo_setArp]
  constructor
  · exact fun h => h frame outIface purpose (by simp)
  · intro h frame' outIface' purpose' hsent
    obtain ⟨rfl, rfl, rfl⟩ : frame' = frame ∧ outIface' = outIface ∧ purpose' = purpose := by
      simpa using (List.mem_append.mp hsent).resolve_left (not_sent_of_learns ip _ _ _)
    exact h

end

end Cs118.Router
