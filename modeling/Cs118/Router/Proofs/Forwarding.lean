import Cs118.Router.Proofs.Sources
import Cs118.Router.Proofs.TimeToLive
/-!
# A frame that is forwarded at once

The copy that is sent differs from the frame that came in the Ethernet addresses, the
byte of the TTL and the two bytes of the header checksum.
-/

namespace Cs118.Router

open Cs118.Lib
open Cs118.Lib.Bytes

/-- `frame` is `packet` under other Ethernet addresses, with one less to live and a
checksum that fits. -/
structure ForwardedFrom (packet frame : Buffer) : Prop where
  length : frame.length = packet.length
  kept : ∀ i, 12 ≤ i → i ≠ 22 → i ≠ 24 → i ≠ 25 → frame[i]? = packet[i]?
  ttl : ttlOf packet = ttlOf frame + 1
  verified : Verifies frame

/-- The router knows all it needs to send `packet` on: the destination, the route and the
interface it names, and the mapping of the next hop. -/
structure Forwardable (w : World) (packet : Buffer) (inIface : String) (route : RoutingTableEntry)
    (iface : Interface) : Prop where
  accepted : Accepted w.router.tables packet inIface
  foreign : w.router.tables.findIfaceByIp (ipHeader packet).ipDst = none
  ttl : 2 ≤ ttlOf packet
  cached : (w.router.arp.lookup (ipHeader packet).ipDst).isSome
  routed : w.router.tables.routingTable.lookup (ipHeader packet).ipDst = some route
  outgoing : w.router.tables.findIfaceByName route.ifName = some iface
  hop : route.dest ≠ 0 → (w.router.arp.lookup route.dest).isSome

/-- Between `w` and `w'` nothing but `frame` has been sent, to the mapping `hop` on the
interface of the route, and at most the sender's mapping has been recorded. -/
structure SentOn (w w' : World) (packet : Buffer) (route : RoutingTableEntry) (iface : Interface)
    (frame : Buffer) (hop : ArpEntry) : Prop where
  known : w.router.arp.lookup (nextHop route (ipHeader packet).ipDst) = some hop
  sent : sentFrames (w.eventsTo w') = [(frame, route.ifName)]
  forwarded : ForwardedFrom packet frame
  etherDhost : (EthernetHdr.load frame).etherDhost = hop.mac
  etherShost : (EthernetHdr.load frame).etherShost = iface.addr
  arpRequests : w'.router.arp.arpRequests = w.router.arp.arpRequests
  tables : w'.router.tables = w.router.tables
  cacheEntries : w'.router.arp.cacheEntries = w.router.arp.cacheEntries ∨
    w.router.arp.lookup (ipHeader packet).ipSrc = none ∧
      w'.router.arp.cacheEntries = w.router.arp.cacheEntries ++
        [⟨sourceMac packet, (ipHeader packet).ipSrc, w.now, true⟩]

/-! ## The bytes that are sent -/

theorem setBytes_middle {front middle : Buffer} {n : Nat} (hfront : front.length = n) (offset : Nat)
    (bytes : Buffer) (h : offset + bytes.length ≤ middle.length) (rest : Buffer) :
    setBytes (front ++ (middle ++ rest)) (n + offset) bytes =
      front ++ (setBytes middle offset bytes ++ rest) := by
  subst hfront
  have htake : (front ++ (middle ++ rest)).take (front.length + offset) =
      front ++ middle.take offset := by
    rw [List.take_length_add_append, List.take_append_of_le_length (by omega)]
  have hdrop : (front ++ (middle ++ rest)).drop (front.length + offset + bytes.length) =
      middle.drop (offset + bytes.length) ++ rest := by
    rw [Nat.add_assoc, List.drop_length_add_append, List.drop_append_of_le_length h]
  rw [setBytes, htake, hdrop]
  simp [setBytes]

theorem packet_regions {packet : Buffer} (h : 34 ≤ packet.length) :
    packet.drop 12 = image16 (EthernetHdr.load packet).etherType ++
      ((ipHeader packet).image ++ packet.drop 34) := by
  have htype : image16 (EthernetHdr.load packet).etherType = (packet.drop 12).take 2 :=
    image16_load16 (by rw [List.length_drop]; omega)
  have hheader : ipBytes packet ++ packet.drop 34 = (packet.drop 12).drop 2 := by
    have hjoin := List.take_append_drop 20 (packet.drop 14)
    rw [List.drop_drop] at hjoin ⊢
    exact hjoin
  rw [htype, image_ipHeader h, hheader, List.take_append_drop]

def forwardedSum (packet : Buffer) : UInt16 :=
  (updateSum { ipHeader packet with ipTtl := (ipHeader packet).ipTtl - 1 }).ipSum

theorem forwardedFrame_eq {packet : Buffer} (h : 34 ≤ packet.length) (iface : Interface)
    (mac : EtherAddr) :
    forwardedFrame packet iface mac =
      setBytes (setBytes (setBytes packet 0 (mac.bytes ++ iface.addr.bytes)) 22
        [(ipHeader packet).ipTtl - 1]) 24 (image16 (forwardedSum packet)) := by
  have haddrs : (mac.bytes ++ iface.addr.bytes).length = 12 := by
    rw [List.length_append, mac.length_eq, iface.addr.length_eq]
  have hfront : ((mac.bytes ++ iface.addr.bytes) ++
      image16 (EthernetHdr.load packet).etherType).length = 14 := by
    rw [List.length_append, haddrs, length_image16]
  have hreaddressed : setBytes packet 0 (mac.bytes ++ iface.addr.bytes) =
      ((mac.bytes ++ iface.addr.bytes) ++ image16 (EthernetHdr.load packet).etherType) ++
        ((ipHeader packet).image ++ packet.drop 34) := by
    rw [setBytes_zero, haddrs, packet_regions h, List.append_assoc (mac.bytes ++ iface.addr.bytes)]
  have hheader : (updateSum { ipHeader packet with ipTtl := (ipHeader packet).ipTtl - 1 }).image =
      setBytes (setBytes (ipHeader packet).image 8 [(ipHeader packet).ipTtl - 1]) 10
        (image16 (forwardedSum packet)) := by
    rw [← image_ipTtl, ← image_ipSum]
    rfl
  have hlength : (setBytes (ipHeader packet).image 8 [(ipHeader packet).ipTtl - 1]).length = 20 :=
    length_write (IpHdr.length_image _) (by simp)
  have httl := setBytes_middle hfront 8 [(ipHeader packet).ipTtl - 1]
    (by simp : _ ≤ (ipHeader packet).image.length) (packet.drop 34)
  have hsum := setBytes_middle hfront 10 (image16 (forwardedSum packet)) (by rw [hlength]; simp)
    (packet.drop 34)
  rw [forwardedFrame, assembleIPPacket_eq, hheader, hreaddressed, httl, hsum]
  simp only [EthernetHdr.image, List.append_assoc]

theorem length_forwardedFrame {packet : Buffer} (h : 34 ≤ packet.length) (iface : Interface)
    (mac : EtherAddr) : (forwardedFrame packet iface mac).length = packet.length := by
  rw [forwardedFrame, assembleIPPacket_eq]
  simp
  omega

theorem forwardedFrom_forwardedFrame {packet : Buffer} (h : 34 ≤ packet.length)
    (hlives : 2 ≤ ttlOf packet) (iface : Interface) (mac : EtherAddr) :
    ForwardedFrom packet (forwardedFrame packet iface mac) := by
  have haddrs : (mac.bytes ++ iface.addr.bytes).length = 12 := by
    rw [List.length_append, mac.length_eq, iface.addr.length_eq]
  have hfirst : (setBytes packet 0 (mac.bytes ++ iface.addr.bytes)).length = packet.length :=
    length_setBytes (by omega)
  have hsecond : (setBytes (setBytes packet 0 (mac.bytes ++ iface.addr.bytes)) 22
      [(ipHeader packet).ipTtl - 1]).length = packet.length := length_write hfirst (by simp; omega)
  have hnonzero : (ipHeader packet).ipTtl ≠ 0 := fun hzero => by
    rw [ttlOf, hzero] at hlives
    exact absurd hlives (by decide)
  refine ⟨length_forwardedFrame h iface mac, fun i hlow httl hhigh hsum => ?_, ?_,
    verifies_forwardedFrame packet iface mac⟩
  · rw [forwardedFrame_eq h, getElem?_setBytes (by simp; omega), if_neg (by simp; omega),
      getElem?_setBytes (by simp; omega), if_neg (by simp; omega),
      getElem?_setBytes (by omega), if_neg (by omega)]
  · rw [ttlOf_forwardedFrame, toNat_sub_one hnonzero, ttlOf]

theorem etherDhost_forwardedFrame (packet : Buffer) (iface : Interface) (mac : EtherAddr) :
    (EthernetHdr.load (forwardedFrame packet iface mac)).etherDhost = mac := by
  rw [forwardedFrame, assembleIPPacket_eq, EthernetHdr.load_image]

/-! ## The handler -/

theorem Forwardable.inTransit {w : World} {packet : Buffer} {inIface : String}
    {route : RoutingTableEntry} {iface : Interface}
    (h : Forwardable w packet inIface route iface) : InTransit w.router.tables packet inIface where
  accepted := h.accepted
  foreign := h.foreign
  alive hone := by
    have httl := h.ttl
    rw [ttlOf, hone] at httl
    exact absurd httl (by decide)

theorem lookup_learns_of_isSome {w : World} {packet : Buffer} {ip x : UInt32} {entry : ArpEntry}
    (h : w.router.arp.lookup x = some entry) : (w.learns packet ip).1.lookup x = some entry := by
  unfold World.learns ArpCache.learn
  cases hip : w.router.arp.lookup ip with
  | none => simp [ArpCache.lookup_insertArpEntry, h]
  | some _ => exact h

theorem arpRequests_learns {w : World} {packet : Buffer} {ip : UInt32} :
    (w.learns packet ip).1.arpRequests = w.router.arp.arpRequests := by
  unfold World.learns ArpCache.learn
  cases w.router.arp.lookup ip <;> rfl

theorem cacheEntries_learns {w : World} {packet : Buffer} {ip : UInt32} :
    (w.learns packet ip).1.cacheEntries = w.router.arp.cacheEntries ∨
      w.router.arp.lookup ip = none ∧
        (w.learns packet ip).1.cacheEntries =
          w.router.arp.cacheEntries ++ [⟨sourceMac packet, ip, w.now, true⟩] := by
  unfold World.learns ArpCache.learn
  cases hip : w.router.arp.lookup ip with
  | none => exact Or.inr ⟨rfl, rfl⟩
  | some _ => exact Or.inl rfl

theorem receive_forwardable {w : World} {packet : Buffer} {inIface : String}
    {route : RoutingTableEntry} {iface : Interface}
    (h : Forwardable w packet inIface route iface) :
    ∃ hop, w.router.arp.lookup (nextHop route (ipHeader packet).ipDst) = some hop ∧
      w.receive packet inIface =
        (w.setArp (w.learns packet (ipHeader packet).ipSrc).1
          ((w.learns packet (ipHeader packet).ipSrc).2 ++
            [.sent (forwardedFrame packet iface hop.mac) route.ifName (.forwarded packet)]),
          .ok ()) := by
  obtain ⟨entry, hentry⟩ := Option.isSome_iff_exists.mp h.cached
  have hhop : (w.router.arp.lookup (nextHop route (ipHeader packet).ipDst)).isSome := by
    unfold nextHop
    split_ifs with hdest
    · exact h.cached
    · exact h.hop hdest
  obtain ⟨hop, hhop⟩ := Option.isSome_iff_exists.mp hhop
  refine ⟨hop, hhop, ?_⟩
  rw [receive_transit h.inTransit, exec_lookup, lookup_learns_of_isSome hentry]
  dsimp only
  rw [exec_forwardPacket h.routed, World.setArp_arp, h.outgoing, lookup_learns_of_isSome hhop]
  exact exec_sendPacket ..

/-! ## Main result -/

/-- The router sends one frame, which is the received one on its way to the next hop, and
nothing else changes apart from the entry its sender may get. -/
theorem forwards_at_once {w : World} {packet : Buffer} {inIface : String}
    {route : RoutingTableEntry} {iface : Interface}
    (h : Forwardable w packet inIface route iface) :
    ∃ w' frame hop, w.receive packet inIface = (w', .ok ()) ∧
      SentOn w w' packet route iface frame hop := by
  obtain ⟨hop, hhop, hreceive⟩ := receive_forwardable h
  refine ⟨_, forwardedFrame packet iface hop.mac, hop, hreceive, hhop, ?_,
    forwardedFrom_forwardedFrame h.accepted.fits h.ttl iface hop.mac,
    etherDhost_forwardedFrame .., etherShost_forwardedFrame .., arpRequests_learns, rfl,
    cacheEntries_learns⟩
  rw [World.eventsTo_setArp, sentFrames_learns_append]

theorem forwards_at_once_datagram :
    ∃ w' frame hop, cachedRouter.receive (clientDatagram 64) "sw0-eth3" = (w', .ok ()) ∧
      SentOn cachedRouter w' (clientDatagram 64)
        ⟨inetAton 192 168 2 2, inetAton 192 168 2 2, inetAton 255 255 255 0, "sw0-eth1"⟩
        ⟨"sw0-eth1", projectMac 1, inetAton 192 168 2 1⟩ frame hop :=
  forwards_at_once
    ⟨⟨by decide +kernel, by decide +kernel, by decide +kernel, by decide +kernel⟩,
      by decide +kernel, by decide +kernel, by decide +kernel, by decide +kernel,
      by decide +kernel, by decide +kernel⟩

end Cs118.Router
