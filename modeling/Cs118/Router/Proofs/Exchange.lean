import Cs118.Router.Proofs.Handling
/-!
# An ARP exchange between two routers

What one router broadcasts for an address is answered by the router that has the
address, and the answer sends out what waits at the first one.
-/

namespace Cs118.Router

open Cs118.Lib
open Cs118.Lib.Bytes

def sentFrames (events : List Event) : List (Buffer × String) :=
  events.filterMap fun
    | .sent packet outIface _ => some (packet, outIface)
    | _ => none

/-- The first request for `ip` is `request`, its frames have an Ethernet header, and
the mapping of `ip` is unknown. -/
structure Awaits (w : World) (ip : UInt32) (before : List ArpRequest) (request : ArpRequest)
    (after : List ArpRequest) : Prop where
  requests : w.router.arp.arpRequests = before ++ request :: after
  ip_eq : request.ip = ip
  first : ∀ other ∈ before, other.ip ≠ ip
  fits : ∀ pending ∈ request.packets, 14 ≤ pending.packet.length
  unknown : w.router.arp.lookup ip = none

section

variable {a b w : World} {ip : UInt32} {packet : Buffer} {inIface : String}

/-! ## The two ARP handlers -/

theorem receive_arpRequest (harp : IsArp w.router.tables packet inIface arpOpRequest)
    {iface : Interface}
    (hiface : w.router.tables.findIfaceByIp (arpHeader packet).arpTip = some iface) :
    w.receive packet inIface =
      (w.setArp (w.learns packet (arpHeader packet).arpSip).1
        ((w.learns packet (arpHeader packet).arpSip).2 ++
          [.sent (assembleArpInterfaceReplyPacket iface (EthernetHdr.load packet)
            (arpHeader packet)) iface.name .arpReply]), .ok ()) := by
  have hop : (ArpHdr.load (packet.drop 14)).arpOp = ntohs arpOpRequest := harp.arpOp
  rw [receive_arp harp]
  unfold handleArpPacket getArpPacket
  rw [arpHeader] at hiface
  rw [exec_copyOut harp.fits, if_pos hop, exec_learn_first, hiface]
  exact exec_sendPacket ..

theorem receive_arpReply (harp : IsArp w.router.tables packet inIface arpOpReply)
    (hunknown : w.router.arp.lookup (arpHeader packet).arpSip = none) :
    w.receive packet inIface =
      let next := (w.router.arp.insertArpEntry w.now (sourceMac packet)
        (arpHeader packet).arpSip).1.sendPendingPackets w.router.tables (arpHeader packet)
        (arpHeader packet).arpSip
      (w.setArp next.1 (.learned (arpHeader packet).arpSip :: next.2.1),
        World.toExcept next.2.2) := by
  have hop : (ArpHdr.load (packet.drop 14)).arpOp = htons arpOpReply := harp.arpOp
  have hnot : (ArpHdr.load (packet.drop 14)).arpOp ≠ ntohs arpOpRequest := by
    rw [hop]
    decide
  rw [receive_arp harp]
  unfold handleArpPacket getArpPacket
  rw [arpHeader] at hunknown
  rw [exec_copyOut harp.fits, if_neg hnot, if_pos hop, exec_lookup_first, hunknown]
  exact exec_release ..

/-! ## The frames -/

def answer (asker owner : Interface) : Buffer :=
  EthernetHdr.image ⟨asker.addr, owner.addr, htons ethertypeArp⟩ ++ ArpHdr.image
    { arpHrd := htons 0x0001
      arpPro := htons 0x0800
      arpHln := 6
      arpPln := 4
      arpOp := htons arpOpReply
      arpSha := owner.addr
      arpSip := owner.ip
      arpTha := asker.addr
      arpTip := asker.ip }

theorem load_arpRequestFrame (iface : Interface) (ip : UInt32) :
    EthernetHdr.load (arpRequestFrame iface ip) = ⟨.broadcast, iface.addr, htons ethertypeArp⟩ := by
  rw [arpRequestFrame, setBytes_headers, EthernetHdr.load_image]

theorem arpHeader_arpRequestFrame (iface : Interface) (ip : UInt32) :
    arpHeader (arpRequestFrame iface ip) =
      { arpHrd := htons 0x0001
        arpPro := htons 0x0800
        arpHln := 6
        arpPln := 4
        arpOp := htons arpOpRequest
        arpSha := iface.addr
        arpSip := iface.ip
        arpTha := .broadcast
        arpTip := ip } := by
  rw [arpHeader, arpRequestFrame, setBytes_headers, List.drop_left' (by simp)]
  simpa using ArpHdr.load_image _ []

theorem length_arpRequestFrame (iface : Interface) (ip : UInt32) :
    (arpRequestFrame iface ip).length = 42 := by
  rw [arpRequestFrame, setBytes_headers]
  simp

theorem arpHeader_answer (asker owner : Interface) :
    arpHeader (answer asker owner) =
      { arpHrd := htons 0x0001
        arpPro := htons 0x0800
        arpHln := 6
        arpPln := 4
        arpOp := htons arpOpReply
        arpSha := owner.addr
        arpSip := owner.ip
        arpTha := asker.addr
        arpTip := asker.ip } := by
  rw [arpHeader, answer, List.drop_left' (by simp)]
  simpa using ArpHdr.load_image _ []

theorem load_answer (asker owner : Interface) :
    EthernetHdr.load (answer asker owner) = ⟨asker.addr, owner.addr, htons ethertypeArp⟩ := by
  rw [answer, EthernetHdr.load_image]

theorem sourceMac_answer (asker owner : Interface) : sourceMac (answer asker owner) = owner.addr :=
  congrArg EthernetHdr.etherShost (load_answer asker owner)

theorem assemble_answer (asker owner : Interface) (ip : UInt32) :
    assembleArpInterfaceReplyPacket owner (EthernetHdr.load (arpRequestFrame asker ip))
      (arpHeader (arpRequestFrame asker ip)) = answer asker owner := by
  rw [load_arpRequestFrame, arpHeader_arpRequestFrame, assembleArpInterfaceReplyPacket,
    setBytes_headers, answer]

theorem isArp_arpRequestFrame {t : RouterTables} (hknown : (t.findIfaceByName inIface).isSome)
    (iface : Interface) (ip : UInt32) :
    IsArp t (arpRequestFrame iface ip) inIface arpOpRequest where
  known := hknown
  etherType := by rw [load_arpRequestFrame]; rfl
  fits := by rw [length_arpRequestFrame]
  arpOp := by rw [arpHeader_arpRequestFrame]

theorem isArp_answer {t : RouterTables} (hknown : (t.findIfaceByName inIface).isSome)
    (asker owner : Interface) : IsArp t (answer asker owner) inIface arpOpReply where
  known := hknown
  etherType := by rw [load_answer]; rfl
  fits := by simp [answer]
  arpOp := by rw [arpHeader_answer]

/-! ## Both ends -/

theorem sentFrames_learns (packet : Buffer) (ip : UInt32) :
    sentFrames (w.learns packet ip).2 = [] := by
  unfold World.learns ArpCache.learn
  cases w.router.arp.lookup ip <;> rfl

theorem sentFrames_learns_append (packet : Buffer) (ip : UInt32) (frame : Buffer)
    (outIface : String) (purpose : Purpose) :
    sentFrames ((w.learns packet ip).2 ++ [.sent frame outIface purpose]) = [(frame, outIface)] := by
  rw [sentFrames, List.filterMap_append]
  exact congrArg (· ++ _) (sentFrames_learns _ _)

theorem sentFrames_releases (reply : ArpHdr) (outIface : String) (ip : UInt32)
    (packets : List PendingPacket) :
    sentFrames (releases reply outIface ip packets) =
      packets.map fun pending => (releaseFrame reply pending.packet, outIface) := by
  rw [sentFrames, releases, List.filterMap_map, ← List.filterMap_eq_map]
  rfl

/-- The owner of the address answers the broadcast. -/
theorem answers (hknown : (b.router.tables.findIfaceByName inIface).isSome) {owner : Interface}
    (howner : b.router.tables.findIfaceByIp ip = some owner) (asker : Interface) :
    (b.receive (arpRequestFrame asker ip) inIface).2 = .ok () ∧
      sentFrames (b.eventsTo (b.receive (arpRequestFrame asker ip) inIface).1) =
        [(answer asker owner, owner.name)] := by
  have harp := isArp_arpRequestFrame hknown asker ip
  rw [receive_arpRequest harp (by rw [arpHeader_arpRequestFrame]; exact howner), assemble_answer]
  refine ⟨rfl, ?_⟩
  rw [World.eventsTo_setArp, sentFrames_learns_append]

theorem eraseP_first {before after : List ArpRequest} {request : ArpRequest}
    (hip : request.ip = ip) (hfirst : ∀ other ∈ before, other.ip ≠ ip) :
    (before ++ request :: after).eraseP (fun request => request.ip = ip) = before ++ after := by
  rw [List.eraseP_append_right _ (by simpa using hfirst), List.eraseP_cons_of_pos (by simpa using hip)]

/-- The asker takes the answer in and sends what waits. -/
theorem releases_on_answer {before after : List ArpRequest} {request : ArpRequest}
    (hwaits : Awaits a ip before request after)
    (hknown : (a.router.tables.findIfaceByName inIface).isSome) {asker owner : Interface}
    (hroute : a.router.tables.sendInterface ip = .ok asker) (howner : owner.ip = ip) :
    (a.receive (answer asker owner) inIface).2 = .ok () ∧
      (a.receive (answer asker owner) inIface).1.router.arp =
        ⟨a.router.arp.cacheEntries ++ [⟨owner.addr, ip, a.now, true⟩], before ++ after⟩ ∧
      sentFrames (a.eventsTo (a.receive (answer asker owner) inIface).1) =
        request.packets.map fun pending =>
          (EthernetHdr.image ⟨owner.addr, asker.addr, htons ethertypeIp⟩ ++ pending.packet.drop 14,
            asker.name) := by
  have harp := isArp_answer hknown asker owner
  have hsip : (arpHeader (answer asker owner)).arpSip = ip := by
    rw [arpHeader_answer]
    exact howner
  have hfind : a.router.arp.findRequest ip = some request := by
    rw [ArpCache.findRequest, hwaits.requests, List.find?_append,
      List.find?_eq_none.mpr (by simpa using hwaits.first), Option.none_or,
      List.find?_cons_of_pos (by simpa using hwaits.ip_eq)]
  have hsend : (a.router.arp.insertArpEntry a.now (sourceMac (answer asker owner))
      ip).1.sendPendingPackets a.router.tables (arpHeader (answer asker owner)) ip =
      (⟨a.router.arp.cacheEntries ++ [⟨owner.addr, ip, a.now, true⟩], before ++ after⟩,
        releases (arpHeader (answer asker owner)) asker.name ip request.packets, none) := by
    unfold ArpCache.sendPendingPackets
    rw [show (a.router.arp.insertArpEntry a.now (sourceMac (answer asker owner)) ip).1.findRequest
      ip = some request from hfind]
    dsimp only
    rw [sendPackets_of_ok hwaits.fits hroute, sourceMac_answer]
    dsimp only [ArpCache.insertArpEntry]
    rw [hwaits.requests, eraseP_first hwaits.ip_eq hwaits.first]
  rw [receive_arpReply harp (by rw [hsip]; exact hwaits.unknown), hsip, hsend]
  refine ⟨rfl, rfl, ?_⟩
  rw [World.eventsTo_setArp]
  show sentFrames (releases _ _ _ _) = _
  rw [sentFrames_releases]
  apply List.map_congr_left
  intro pending _
  rw [releaseFrame_eq, arpHeader_answer]

end

/-- Router `a` has frames waiting for `ip` and a route to it, router `b` has the address
`ip`.  The broadcast that `a` makes for `ip` has `b` send one ARP reply, which has `a` record
the mapping, send each frame that waits once and in order, and drop the request. -/
theorem arp_exchange {a b : World} {ip : UInt32} {inIfaceA inIfaceB : String}
    {before after : List ArpRequest} {request : ArpRequest}
    (hwaits : Awaits a ip before request after)
    (hinA : (a.router.tables.findIfaceByName inIfaceA).isSome)
    (hinB : (b.router.tables.findIfaceByName inIfaceB).isSome) {asker owner : Interface}
    (hroute : a.router.tables.sendInterface ip = .ok asker)
    (howner : b.router.tables.findIfaceByIp ip = some owner) {asked : ArpRequest} {now : Nat}
    (hip : asked.ip = ip) (hdue : seconds 1 < now - asked.timeSent)
    (hleft : asked.nTimesSent < maxSentTime) :
    ∃ next broadcast reply,
      handleArpRequest a.router.tables now asked =
        .ok (some next, [.sent broadcast asker.name (.arpRequest ip)]) ∧
      (EthernetHdr.load broadcast).etherDhost = .broadcast ∧
      (b.receive broadcast inIfaceB).2 = .ok () ∧
      sentFrames (b.eventsTo (b.receive broadcast inIfaceB).1) = [(reply, owner.name)] ∧
      (EthernetHdr.load reply).etherType = htons ethertypeArp ∧
      (arpHeader reply).arpOp = htons arpOpReply ∧
      (a.receive reply inIfaceA).2 = .ok () ∧
      (a.receive reply inIfaceA).1.router.arp =
        ⟨a.router.arp.cacheEntries ++ [⟨owner.addr, ip, a.now, true⟩], before ++ after⟩ ∧
      sentFrames (a.eventsTo (a.receive reply inIfaceA).1) =
        request.packets.map fun pending =>
          (EthernetHdr.image ⟨owner.addr, asker.addr, htons ethertypeIp⟩ ++ pending.packet.drop 14,
            asker.name) := by
  have hsent : handleArpRequest a.router.tables now asked =
      .ok (some { asked with timeSent := now, nTimesSent := asked.nTimesSent + 1 },
        [.sent (arpRequestFrame asker ip) asker.name (.arpRequest ip)]) := by
    unfold handleArpRequest
    rw [if_pos hdue, if_neg (UInt32.not_le.mpr hleft), hip, hroute]
  have hownerIp : owner.ip = ip := by simpa using List.find?_some howner
  obtain ⟨hokB, hreply⟩ := answers hinB howner asker
  obtain ⟨hokA, harp, hreleased⟩ := releases_on_answer hwaits hinA hroute hownerIp
  exact ⟨_, arpRequestFrame asker ip, answer asker owner, hsent, by rw [load_arpRequestFrame],
    hokB, hreply, by rw [load_answer], by rw [arpHeader_answer], hokA, harp, hreleased⟩

/-- A router that has the address of `server1`. -/
def neighbour : World :=
  (World.start ⟨[]⟩ [("eth0", inetAton 192 168 2 2)] 0).reset [⟨"eth0", projectMac 31⟩]

def waitingRequest : ArpRequest :=
  ⟨inetAton 192 168 2 2, 0, 0, [⟨clientDatagram 64, "sw0-eth3"⟩]⟩

theorem arp_exchange_neighbour :
    ∃ next broadcast reply,
      handleArpRequest waitingRouter.router.tables (seconds 2) waitingRequest =
        .ok (some next, [.sent broadcast "sw0-eth1" (.arpRequest (inetAton 192 168 2 2))]) ∧
      (EthernetHdr.load broadcast).etherDhost = .broadcast ∧
      (neighbour.receive broadcast "eth0").2 = .ok () ∧
      sentFrames (neighbour.eventsTo (neighbour.receive broadcast "eth0").1) = [(reply, "eth0")] ∧
      (EthernetHdr.load reply).etherType = htons ethertypeArp ∧
      (arpHeader reply).arpOp = htons arpOpReply ∧
      (waitingRouter.receive reply "sw0-eth1").2 = .ok () ∧
      (waitingRouter.receive reply "sw0-eth1").1.router.arp =
        ⟨[⟨projectMac 33, inetAton 10 0 1 100, 0, true⟩] ++
          [⟨projectMac 31, inetAton 192 168 2 2, 0, true⟩], []⟩ ∧
      sentFrames (waitingRouter.eventsTo (waitingRouter.receive reply "sw0-eth1").1) =
        [(EthernetHdr.image ⟨projectMac 31, projectMac 1, htons ethertypeIp⟩ ++
          (clientDatagram 64).drop 14, "sw0-eth1")] := by
  have hwaits : Awaits waitingRouter (inetAton 192 168 2 2) [] waitingRequest [] :=
    ⟨by decide +kernel, rfl, by decide +kernel, by decide +kernel, by decide +kernel⟩
  have hroute : waitingRouter.router.tables.sendInterface (inetAton 192 168 2 2) =
      .ok ⟨"sw0-eth1", projectMac 1, inetAton 192 168 2 1⟩ := by decide +kernel
  have howner : neighbour.router.tables.findIfaceByIp (inetAton 192 168 2 2) =
      some ⟨"eth0", projectMac 31, inetAton 192 168 2 2⟩ := by decide +kernel
  exact arp_exchange hwaits (by decide +kernel) (by decide +kernel) hroute howner rfl
    (by decide +kernel) (by decide +kernel)

end Cs118.Router
