import Mathlib.Data.String.Basic
import Cs118.Router.Proofs.CacheInvariant
import Cs118.Router.Proofs.Checksums
import Cs118.Router.Proofs.Exchange
/-!
# The Ethernet source of a frame

Six places fill it in.  Five take the address of the interface the frame leaves on; the
frames that an ARP reply sends out of the queue take what the reply names as its target.
-/

namespace Cs118.Router

open Cs118.Lib
open Cs118.Lib.Bytes
open Cs118.Lib.Keyed
open Cs118.Lib.Run

/-- The frame leaves on an interface of the router, and under its address. -/
def SourceRight (t : RouterTables) (frame : Buffer) (outIface : String) : Prop :=
  (t.findIfaceByName outIface).map (·.addr) = some (EthernetHdr.load frame).etherShost

instance (t : RouterTables) (frame : Buffer) (outIface : String) :
    Decidable (SourceRight t frame outIface) :=
  inferInstanceAs (Decidable (_ = _))

def SourcesRight (w w' : World) : Prop :=
  ∀ frame outIface purpose, .sent frame outIface purpose ∈ w.eventsTo w' →
    SourceRight w.router.tables frame outIface

/-- An ARP reply that sends frames out of the queue has the address of the interface they
leave on as its target. -/
def AimedRight (w : World) : Turn → Prop
  | .receive packet inIface =>
    IsArp w.router.tables packet inIface arpOpReply →
      w.router.arp.lookup (arpHeader packet).arpSip = none →
      (w.router.arp.findRequest (arpHeader packet).arpSip).isSome →
      ∀ iface, w.router.tables.sendInterface (arpHeader packet).arpSip = .ok iface →
        (arpHeader packet).arpTha = iface.addr
  | _ => True

/-! ## The interfaces -/

def NamesOrdered (ifaces : List Interface) : Prop :=
  ifaces.Pairwise fun first second => first.name < second.name

theorem mem_insertIface {iface other : Interface} {ifaces : List Interface}
    (h : other ∈ insertIface iface ifaces) : other = iface ∨ other ∈ ifaces := by
  induction ifaces with
  | nil => exact Or.inl (List.mem_singleton.mp h)
  | cons first rest ih =>
      unfold insertIface at h
      split_ifs at h
      · exact List.mem_cons.mp h
      · rcases List.mem_cons.mp h with rfl | h
        · exact Or.inr (by simp)
        · exact (ih h).imp id (List.mem_cons_of_mem _)
      · exact Or.inr h

theorem NamesOrdered.insertIface {ifaces : List Interface} (h : NamesOrdered ifaces)
    (iface : Interface) : NamesOrdered (insertIface iface ifaces) := by
  induction ifaces with
  | nil => exact List.pairwise_singleton _ _
  | cons first rest ih =>
      obtain ⟨hfirst, hrest⟩ := List.pairwise_cons.mp h
      unfold Router.insertIface
      split_ifs with hbefore hafter
      · refine List.pairwise_cons.mpr ⟨fun other hother => ?_, h⟩
        rcases List.mem_cons.mp hother with rfl | hother
        · exact hbefore
        · exact hbefore.trans (hfirst other hother)
      · refine List.pairwise_cons.mpr ⟨fun other hother => ?_, ih hrest⟩
        rcases mem_insertIface hother with rfl | hother
        · exact hafter
        · exact hfirst other hother
      · exact h

theorem namesOrdered_ifacesOf (ifNameToIpMap : List (String × UInt32)) (ports : List Port) :
    NamesOrdered (ifacesOf ifNameToIpMap ports) := by
  unfold ifacesOf
  apply List.foldlRecOn (motive := NamesOrdered) ports _ List.Pairwise.nil
  intro ifaces h port _
  cases ifNameToIpMap.lookup port.name with
  | none => exact h
  | some ip => exact h.insertIface _

theorem NamesOrdered.maintained : Maintained fun w => NamesOrdered w.router.tables.ifaces where
  insert _ _ _ hw _ := hw
  queue _ _ _ _ hw _ _ := hw
  release _ _ _ hw := hw
  send _ _ _ _ hw _ := hw
  tick _ hw _ := hw
  reset w ports _ := namesOrdered_ifacesOf w.router.ifNameToIpMap ports
  elapse _ _ hw := hw

theorem NamesOrdered.of_reachable {routingTable : RoutingTable}
    {ifNameToIpMap : List (String × UInt32)} {s : System}
    (h : System.Reachable routingTable ifNameToIpMap s) :
    NamesOrdered s.world.router.tables.ifaces :=
  maintained.reachable (fun _ => List.Pairwise.nil) h

theorem findIfaceByName_of_mem {t : RouterTables} (h : NamesOrdered t.ifaces) {iface : Interface}
    (hmem : iface ∈ t.ifaces) : t.findIfaceByName iface.name = some iface := by
  have hdistinct : (t.ifaces.map (·.name)).Nodup := by
    rw [List.Nodup, List.pairwise_map]
    exact h.imp fun hlt => hlt.ne
  exact find?_key_of_mem hdistinct hmem

theorem findIfaceByName_name {t : RouterTables} {name : String} {iface : Interface}
    (h : t.findIfaceByName name = some iface) : t.findIfaceByName iface.name = some iface := by
  have hname : iface.name = name := by simpa using List.find?_some h
  rwa [hname]

theorem findIfaceByName_of_sendInterface {t : RouterTables} {ip : UInt32} {iface : Interface}
    (h : t.sendInterface ip = .ok iface) : t.findIfaceByName iface.name = some iface := by
  unfold RouterTables.sendInterface at h
  cases hroute : t.routingTable.lookup ip with
  | none => simp [hroute] at h
  | some entry =>
      cases hiface : t.findIfaceByName entry.ifName with
      | none => simp [hroute, hiface] at h
      | some found =>
          obtain rfl : found = iface := by simpa [hroute, hiface] using h
          exact findIfaceByName_name hiface

/-! ## The frames -/

theorem sourceRight_iff {t : RouterTables} {frame : Buffer} {outIface : String} {iface : Interface}
    (h : t.findIfaceByName outIface = some iface) :
    SourceRight t frame outIface ↔ (EthernetHdr.load frame).etherShost = iface.addr := by
  rw [SourceRight, h, Option.map_some, Option.some.injEq, eq_comm]

theorem etherShost_setBytes {frame : Buffer} (addr : EtherAddr) (h : 12 ≤ frame.length) :
    (EthernetHdr.load (setBytes frame 6 addr.bytes)).etherShost = addr := by
  have hfits : 6 + addr.bytes.length ≤ frame.length := by
    rw [addr.length_eq]
    exact h
  have hback := getBytes_setBytes_same hfits
  rw [addr.length_eq, getBytes] at hback
  have hdrop : (setBytes frame 6 addr.bytes).drop 6 =
      addr.bytes ++ ((setBytes frame 6 addr.bytes).drop 6).drop 6 := by
    conv_lhs => rw [← List.take_append_drop 6 ((setBytes frame 6 addr.bytes).drop 6)]
    rw [hback]
  show EtherAddr.load ((setBytes frame 6 addr.bytes).drop 6) = addr
  rw [hdrop, EtherAddr.load_append]

theorem etherShost_echoReply (iface : Interface) (timeExceed : Nat) {temp : Buffer}
    (h : 12 ≤ temp.length) :
    (EthernetHdr.load (echoReply iface timeExceed temp)).etherShost = iface.addr := by
  unfold echoReply
  apply etherShost_setBytes
  repeat apply le_length_setBytes
  exact h

theorem etherShost_icmpError (t : RouterTables) (iface : Interface) (packet : Buffer) :
    (EthernetHdr.load (icmpError t iface packet)).etherShost = iface.addr := by
  unfold icmpError
  apply etherShost_setBytes
  repeat apply le_length_setBytes
  rw [List.length_replicate]
  decide

theorem etherShost_releaseFrame (reply : ArpHdr) (packet : Buffer) :
    (EthernetHdr.load (releaseFrame reply packet)).etherShost = reply.arpTha := by
  rw [releaseFrame_eq, EthernetHdr.load_image]

theorem etherShost_forwardedFrame (packet : Buffer) (iface : Interface) (mac : EtherAddr) :
    (EthernetHdr.load (forwardedFrame packet iface mac)).etherShost = iface.addr := by
  rw [forwardedFrame, assembleIPPacket_eq, EthernetHdr.load_image]

theorem etherShost_arpReply (iface : Interface) (eHdr : EthernetHdr) (arpHeader : ArpHdr) :
    (EthernetHdr.load (assembleArpInterfaceReplyPacket iface eHdr arpHeader)).etherShost =
      iface.addr := by
  rw [assembleArpInterfaceReplyPacket, setBytes_headers, EthernetHdr.load_image]

theorem etherShost_arpRequestFrame (iface : Interface) (ip : UInt32) :
    (EthernetHdr.load (arpRequestFrame iface ip)).etherShost = iface.addr := by
  rw [load_arpRequestFrame]

/-! ## What is sent -/

section

variable {w : World} {packet : Buffer} {inIface : String}

theorem sourcesRight_of_not_sent {arp : ArpCache} {events : List Event}
    (h : ∀ frame outIface purpose, .sent frame outIface purpose ∉ events) :
    SourcesRight w (w.setArp arp events) :=
  forall_sent_of_not_sent (P := SourceRight w.router.tables) h

theorem sourcesRight_one {ip : UInt32} {arp : ArpCache} {frame : Buffer} {outIface : String}
    {purpose : Purpose} (h : SourceRight w.router.tables frame outIface) :
    SourcesRight w (w.setArp arp ((w.learns packet ip).2 ++ [.sent frame outIface purpose])) :=
  (forall_sent_one_iff (P := SourceRight w.router.tables)).mpr h

theorem sourcesRight_tick (w : World) : SourcesRight w w.tick.1 := by
  intro frame outIface purpose hsent
  rw [World.tick, World.eventsTo_setArp, ArpCache.ticker_outcome] at hsent
  obtain ⟨req, -, heq | ⟨iface, hroute, heq⟩⟩ := checkRequests_events hsent
  · simp at heq
  · rw [(Event.sent.inj heq).1, (Event.sent.inj heq).2.1]
    exact (sourceRight_iff (findIfaceByName_of_sendInterface hroute)).mpr
      (etherShost_arpRequestFrame iface req.ip)

/-- The frames an ARP reply sends out have its target as their source. -/
theorem sourcesRight_reply_iff (hcache : CacheOk w.router.arp) (hqueue : QueueOk w.router.arp)
    (harp : IsArp w.router.tables packet inIface arpOpReply)
    (hnew : w.router.arp.lookup (arpHeader packet).arpSip = none) {arp : ArpCache}
    {events : List Event} {fault : Option Fault}
    (hsend : (w.router.arp.insertArpEntry w.now (sourceMac packet)
      (arpHeader packet).arpSip).1.sendPendingPackets w.router.tables (arpHeader packet)
      (arpHeader packet).arpSip = (arp, events, fault)) :
    SourcesRight w (w.setArp arp (.learned (arpHeader packet).arpSip :: events)) ↔
      AimedRight w (.receive packet inIface) := by
  have haimed : AimedRight w (.receive packet inIface) ↔
      ((w.router.arp.findRequest (arpHeader packet).arpSip).isSome →
        ∀ iface, w.router.tables.sendInterface (arpHeader packet).arpSip = .ok iface →
          (arpHeader packet).arpTha = iface.addr) := by
    simp [AimedRight, harp, hnew]
  rw [haimed]
  rcases sendPendingPackets_learned_cases hcache hqueue hnew hsend with
    ⟨hnone, rfl, rfl, rfl⟩ | ⟨request, fault', hsome, hroute, rfl, rfl, rfl⟩ |
      ⟨request, iface, hsome, hroute, rfl, rfl, rfl⟩
  · exact iff_of_true (sourcesRight_of_not_sent (by simp)) (by simp [hnone])
  · exact iff_of_true (sourcesRight_of_not_sent (by simp)) (by simp [hroute])
  · have hright : ∀ stored, SourceRight w.router.tables (releaseFrame (arpHeader packet) stored)
        iface.name ↔ (arpHeader packet).arpTha = iface.addr := by
      intro stored
      rw [sourceRight_iff (findIfaceByName_of_sendInterface hroute), etherShost_releaseFrame]
    obtain ⟨pending, rest, hpackets⟩ := List.exists_cons_of_ne_nil
      (hcache.packetsNonempty request (ArpCache.findRequest_eq_some hsome).1)
    rw [hsome, hroute]
    constructor
    · rintro hsources - iface' hiface
      obtain rfl : iface = iface' := Except.ok.inj hiface
      rw [← hright pending.packet]
      refine hsources _ _ (.released (arpHeader packet).arpSip pending.packet) ?_
      rw [World.eventsTo_setArp, releases, hpackets]
      simp
    · intro haim frame outIface purpose hsent
      rw [World.eventsTo_setArp, releases] at hsent
      obtain ⟨stored, -, heq⟩ := List.mem_map.mp ((List.mem_cons.mp hsent).resolve_left (by simp))
      rw [← (Event.sent.inj heq).1, ← (Event.sent.inj heq).2.1, hright]
      exact haim rfl iface rfl

theorem Outcome.sourcesRight_iff (hcache : CacheOk w.router.arp) (hqueue : QueueOk w.router.arp)
    (hnames : NamesOrdered w.router.tables.ifaces) {arp : ArpCache} {events : List Event}
    {fault : Option Fault} (h : Outcome w packet inIface arp events fault) :
    SourcesRight w (w.setArp arp events) ↔ AimedRight w (.receive packet inIface) := by
  have haccepted : Accepted w.router.tables packet inIface →
      AimedRight w (.receive packet inIface) := fun hip harp => absurd hip harp.not_accepted
  have hrequest : IsArp w.router.tables packet inIface arpOpRequest →
      AimedRight w (.receive packet inIface) := fun harp harp' =>
    absurd (harp.op_unique harp') (by decide)
  cases h with
  | ignored _ _ hreply =>
      exact iff_of_true (sourcesRight_of_not_sent (by simp)) fun harp => absurd harp hreply
  | overrun _ _ _ hreply =>
      exact iff_of_true (sourcesRight_of_not_sent (by simp)) fun harp => absurd harp hreply
  | request harp _ =>
      exact iff_of_true (sourcesRight_of_not_sent (not_sent_of_learns _)) (hrequest harp)
  | requestForUs harp iface hiface =>
      have hname := findIfaceByName_of_mem hnames (List.mem_of_find?_eq_some hiface)
      exact iff_of_true (sourcesRight_one ((sourceRight_iff hname).mpr (etherShost_arpReply ..)))
        (hrequest harp)
  | replyKnown _ entry hknown =>
      refine iff_of_true (sourcesRight_of_not_sent (by simp)) fun _ hnew => ?_
      exact absurd (hnew.symm.trans hknown) (by simp)
  | reply harp hnew _ _ _ hsend => exact sourcesRight_reply_iff hcache hqueue harp hnew hsend
  | icmpOverrun _ hicmp _ =>
      exact iff_of_true (sourcesRight_of_not_sent (not_sent_of_learns _)) (haccepted hicmp.accepted)
  | echo timeExceed hicmp hfits _ iface hiface =>
      have hsource := etherShost_echoReply iface timeExceed
        (le_length_setBytes (by omega : 12 ≤ packet.length) 36 (image16 0))
      exact iff_of_true
        (sourcesRight_one ((sourceRight_iff (findIfaceByName_name hiface)).mpr hsource))
        (haccepted hicmp.accepted)
  | icmpError hicmp _ _ iface hiface =>
      exact iff_of_true (sourcesRight_one ((sourceRight_iff (findIfaceByName_name hiface)).mpr
        (etherShost_icmpError ..))) (haccepted hicmp.accepted)
  | icmpIgnored hicmp _ =>
      exact iff_of_true (sourcesRight_of_not_sent (not_sent_of_learns _)) (haccepted hicmp.accepted)
  | localOther hip _ _ _ _ =>
      exact iff_of_true (sourcesRight_of_not_sent (not_sent_of_learns _)) (haccepted hip)
  | noRoute htransit _ _ _ =>
      exact iff_of_true (sourcesRight_of_not_sent (not_sent_of_learns _))
        (haccepted htransit.accepted)
  | noHop htransit _ _ _ _ _ =>
      exact iff_of_true (sourcesRight_of_not_sent (not_sent_of_learns _))
        (haccepted htransit.accepted)
  | forwarded htransit _ _ _ _ iface hiface hop _ =>
      exact iff_of_true (sourcesRight_one ((sourceRight_iff hiface).mpr
        (etherShost_forwardedFrame ..))) (haccepted htransit.accepted)
  | queueNull htransit _ _ =>
      exact iff_of_true (sourcesRight_of_not_sent (not_sent_of_learns _))
        (haccepted htransit.accepted)
  | queued htransit _ iface _ =>
      refine iff_of_true (sourcesRight_of_not_sent fun frame outIface purpose hsent => ?_)
        (haccepted htransit.accepted)
      exact not_sent_of_learns _ _ _ _ ((List.mem_append.mp hsent).resolve_right (by simp))

end

theorem sourcesRight_receive_iff {w : World} (hcache : CacheOk w.router.arp)
    (hqueue : QueueOk w.router.arp) (hnames : NamesOrdered w.router.tables.ifaces)
    (packet : Buffer) (inIface : String) :
    SourcesRight w (w.receive packet inIface).1 ↔ AimedRight w (.receive packet inIface) := by
  obtain ⟨arp, events, fault, hreceive, houtcome⟩ := receive_yields w packet inIface
  rw [hreceive]
  exact houtcome.sourcesRight_iff hcache hqueue hnames

theorem sourcesRight_step_iff {w w' : World} {turn : Turn} (hcache : CacheOk w.router.arp)
    (hqueue : QueueOk w.router.arp) (hnames : NamesOrdered w.router.tables.ifaces)
    (hstep : w.step turn = some w') : SourcesRight w w' ↔ AimedRight w turn := by
  cases turn with
  | receive packet inIface =>
      obtain ⟨arp, events, fault, rfl, houtcome, -⟩ := World.step_receive_outcome hstep
      exact houtcome.sourcesRight_iff hcache hqueue hnames
  | tick =>
      rw [(World.step_tick hstep).1]
      exact iff_of_true (sourcesRight_tick w) trivial
  | reset ports =>
      obtain rfl := Option.some.inj hstep
      refine iff_of_true (fun frame outIface purpose hsent => ?_) trivial
      simp [World.eventsTo, World.reset] at hsent
  | elapse time =>
      obtain rfl := Option.some.inj hstep
      refine iff_of_true (fun frame outIface purpose hsent => ?_) trivial
      simp [World.eventsTo] at hsent

/-- From any reachable state: a ticker pass sends under the right sources; so does the
handling of a frame if and only if it is no ARP reply that sends frames out of the queue,
or is aimed at the interface they leave on; and so does a run if and only if this
holds of all its frames. -/
theorem sources_right_iff {routingTable : RoutingTable} {ifNameToIpMap : List (String × UInt32)}
    {w : World} (h : System.Reachable routingTable ifNameToIpMap ⟨w, .idle⟩) :
    SourcesRight w w.tick.1 ∧
      (∀ packet inIface,
        SourcesRight w (w.receive packet inIface).1 ↔ AimedRight w (.receive packet inIface)) ∧
      ∀ turns, AlongRun World.step (fun w _ w' => SourcesRight w w') w turns ↔
        AlongRun World.step (fun w turn _ => AimedRight w turn) w turns := by
  refine ⟨sourcesRight_tick w, sourcesRight_receive_iff (CacheOk.of_reachable h)
    (QueueOk.of_reachable h) (NamesOrdered.of_reachable h), fun turns => ?_⟩
  refine alongRun_congr
    (I := fun w => System.Reachable routingTable ifNameToIpMap ⟨w, .idle⟩) ?_ ?_
    (fun _ _ => trivial) h
  · exact fun w turn w' hw _ hstep _ => hw.turn hstep
  · exact fun w turn w' hw _ hstep => sourcesRight_step_iff (CacheOk.of_reachable hw)
      (QueueOk.of_reachable hw) (NamesOrdered.of_reachable hw) hstep

theorem sources_right_waitingRouter :
    SourcesRight waitingRouter (waitingRouter.receive (serverArp arpOpReply) "sw0-eth1").1 ↔
      AimedRight waitingRouter (.receive (serverArp arpOpReply) "sw0-eth1") :=
  (sources_right_iff waitingRouter_reachable.system).2.1 _ _

/-- The ARP reply of `server1` with another target: the datagram leaves `sw0-eth1` under it. -/
def misaimedReply : Buffer := setBytes (serverArp arpOpReply) 32 (projectMac 9).bytes

theorem source_from_misaimedReply :
    World.Reachable projectTable projectIps waitingRouter ∧
      ¬ SourcesRight waitingRouter (waitingRouter.receive misaimedReply "sw0-eth1").1 := by
  refine ⟨waitingRouter_reachable, fun h => ?_⟩
  have hsource := h (releaseFrame (arpHeader misaimedReply) (clientDatagram 64)) "sw0-eth1"
    (.released (inetAton 192 168 2 2) (clientDatagram 64)) (by decide +kernel)
  exact absurd hsource (by decide +kernel)

end Cs118.Router
