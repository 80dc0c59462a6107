import Cs118.Router.Proofs.Discipline
/-!
# The representation invariant of the ARP cache

One entry for an address at most, all of them valid; one request for an address
at most, none without packets and none tried more often than the maximum.  The
uniqueness of the entries rests on the callers of `insertArpEntry`.
-/

namespace Cs118.Router

open Cs118.Lib
open Cs118.Lib.Bytes
open Cs118.Lib.Keyed
open Cs118.Lib.Run

structure CacheOk (cache : ArpCache) : Prop where
  entriesDistinct : (cache.cacheEntries.map (·.ip)).Nodup
  entriesValid : ∀ entry ∈ cache.cacheEntries, entry.isValid = true
  requestsDistinct : (cache.arpRequests.map (·.ip)).Nodup
  packetsNonempty : ∀ request ∈ cache.arpRequests, request.packets ≠ []
  nTimesSent_le : ∀ request ∈ cache.arpRequests, request.nTimesSent ≤ maxSentTime

theorem Checked.nTimesSent_le {req next : ArpRequest} (h : Checked req next)
    (hreq : req.nTimesSent ≤ maxSentTime) : next.nTimesSent ≤ maxSentTime := by
  rcases h.nTimesSent with heq | ⟨hlt, heq⟩
  · rwa [heq]
  · rw [heq]
    rw [UInt32.lt_iff_toNat_lt] at hlt
    rw [UInt32.le_iff_toNat_le, UInt32.toNat_add]
    simp only [maxSentTime, UInt32.reduceToNat] at *
    omega

namespace CacheOk

variable {cache : ArpCache}

theorem empty : CacheOk ArpCache.empty := by
  constructor <;> simp [ArpCache.empty]

theorem insertArpEntry (h : CacheOk cache) (now : Nat) (mac : EtherAddr) {ip : UInt32}
    (hip : cache.lookup ip = none) : CacheOk (cache.insertArpEntry now mac ip).1 where
  entriesDistinct := by
    rw [ArpCache.lookup_eq_none_iff] at hip
    simp only [ArpCache.insertArpEntry, List.map_append, List.map_cons, List.map_nil,
      List.nodup_append, List.nodup_cons, List.not_mem_nil, not_false_eq_true, List.nodup_nil,
      and_self, List.mem_map, List.mem_singleton, true_and]
    refine ⟨h.entriesDistinct, ?_⟩
    rintro _ ⟨entry, hentry, rfl⟩ _ rfl
    exact hip entry hentry (h.entriesValid entry hentry)
  entriesValid := by
    intro entry hentry
    rcases List.mem_append.mp hentry with hold | hnew
    · exact h.entriesValid entry hold
    · rw [List.mem_singleton.mp hnew]
  requestsDistinct := h.requestsDistinct
  packetsNonempty := h.packetsNonempty
  nTimesSent_le := h.nTimesSent_le

theorem queueRequest (h : CacheOk cache) (ip : UInt32) (packet : Buffer) (iface : String) :
    CacheOk (cache.queueRequest ip packet iface).1 where
  entriesDistinct := h.entriesDistinct
  entriesValid := h.entriesValid
  requestsDistinct := by
    simp only [ArpCache.queueRequest, pushPacket_ips]
    split_ifs with hmem
    · exact h.requestsDistinct
    · rw [List.nodup_append]
      refine ⟨h.requestsDistinct, List.nodup_singleton ip, ?_⟩
      intro x hx y hy
      rw [List.mem_singleton.mp hy]
      rintro rfl
      exact hmem hx
  packetsNonempty := by
    intro request hrequest
    rcases pushPacket_mem hrequest with hold | rfl | ⟨req, -, -, rfl⟩
    · exact h.packetsNonempty request hold
    · simp
    · simp
  nTimesSent_le := by
    intro request hrequest
    rcases pushPacket_mem hrequest with hold | rfl | ⟨req, hreq, -, rfl⟩
    · exact h.nTimesSent_le request hold
    · exact UInt32.le_iff_toNat_le.mpr (Nat.zero_le _)
    · exact h.nTimesSent_le req hreq

theorem of_sublist {requests : List ArpRequest} (h : CacheOk cache)
    (hsub : requests.Sublist cache.arpRequests) : CacheOk { cache with arpRequests := requests } where
  entriesDistinct := h.entriesDistinct
  entriesValid := h.entriesValid
  requestsDistinct := h.requestsDistinct.sublist (hsub.map _)
  packetsNonempty := fun request hrequest => h.packetsNonempty request (hsub.subset hrequest)
  nTimesSent_le := fun request hrequest => h.nTimesSent_le request (hsub.subset hrequest)

theorem sendPendingPackets (h : CacheOk cache) (t : RouterTables) (reply : ArpHdr)
    (dstIp : UInt32) : CacheOk (cache.sendPendingPackets t reply dstIp).1 := by
  rw [sendPendingPackets_fst]
  exact h.of_sublist (sendPendingPackets_requests_sublist ..)

theorem ticker (h : CacheOk cache) {t : RouterTables} {now : Nat}
    (hfault : (cache.ticker t now).2.2 = none) : CacheOk (cache.ticker t now).1 where
  entriesDistinct := by
    rw [ArpCache.ticker_cacheEntries hfault]
    exact h.entriesDistinct.sublist (List.filter_sublist.map _)
  entriesValid := by
    rw [ArpCache.ticker_cacheEntries hfault]
    exact fun entry hentry => h.entriesValid entry (List.mem_of_mem_filter hentry)
  requestsDistinct := by
    rw [ArpCache.ticker_arpRequests]
    exact h.requestsDistinct.sublist (checkRequests_ips_sublist ..)
  packetsNonempty := by
    rw [ArpCache.ticker_arpRequests]
    intro request hrequest
    obtain ⟨req, hreq, hchecked⟩ := checkRequests_checked hrequest
    rw [hchecked.packets]
    exact h.packetsNonempty req hreq
  nTimesSent_le := by
    rw [ArpCache.ticker_arpRequests]
    intro request hrequest
    obtain ⟨req, hreq, hchecked⟩ := checkRequests_checked hrequest
    exact hchecked.nTimesSent_le (h.nTimesSent_le req hreq)

/-- Every method keeps the invariant, `insertArpEntry` when its caller has looked. -/
theorem maintained : Maintained fun w => CacheOk w.router.arp where
  insert w mac _ hw hip := hw.insertArpEntry w.now mac hip
  queue _ ip packet iface hw _ _ := hw.queueRequest ip packet iface
  release w reply ip hw := hw.sendPendingPackets w.router.tables reply ip
  send _ _ _ _ hw _ := hw
  tick _ hw hfault := hw.ticker hfault
  reset _ _ _ := empty
  elapse _ _ hw := hw

theorem of_reachable {routingTable : RoutingTable} {ifNameToIpMap : List (String × UInt32)}
    {s : System} (h : System.Reachable routingTable ifNameToIpMap s) : CacheOk s.world.router.arp :=
  maintained.reachable (fun _ => empty) h

end CacheOk

/-! ## The waiting frames -/

/-- Every waiting frame was fit to be queued where it waits. -/
def QueueOk (cache : ArpCache) : Prop :=
  ∀ request ∈ cache.arpRequests, ∀ pending ∈ request.packets, Queueable request.ip pending.packet

namespace QueueOk

variable {cache : ArpCache}

theorem of_subset (h : QueueOk cache) {requests : List ArpRequest}
    (hsub : requests ⊆ cache.arpRequests) : QueueOk { cache with arpRequests := requests } :=
  fun request hrequest => h request (hsub hrequest)

theorem queueRequest (h : QueueOk cache) {ip : UInt32} {packet : Buffer}
    (hpacket : Queueable ip packet) (iface : String) :
    QueueOk (cache.queueRequest ip packet iface).1 := by
  intro request hrequest pending hpending
  rcases pushPacket_mem hrequest with hold | rfl | ⟨req, hreq, rfl, rfl⟩
  · exact h request hold pending hpending
  · rw [List.mem_singleton.mp hpending]
    exact hpacket
  · rcases List.mem_append.mp hpending with hold | hnew
    · exact h req hreq pending hold
    · rw [List.mem_singleton.mp hnew]
      exact hpacket

theorem sendPendingPackets (h : QueueOk cache) (t : RouterTables) (reply : ArpHdr)
    (dstIp : UInt32) : QueueOk (cache.sendPendingPackets t reply dstIp).1 := by
  rw [sendPendingPackets_fst]
  exact h.of_subset (sendPendingPackets_requests_sublist ..).subset

theorem ticker (h : QueueOk cache) (t : RouterTables) (now : Nat) :
    QueueOk (cache.ticker t now).1 := by
  unfold QueueOk
  rw [ArpCache.ticker_arpRequests]
  intro request hrequest
  obtain ⟨req, hreq, hchecked⟩ := checkRequests_checked hrequest
  rw [hchecked.ip, hchecked.packets]
  exact h req hreq

theorem maintained : Maintained fun w => QueueOk w.router.arp where
  insert _ _ _ hw _ := hw
  queue _ _ _ iface hw _ hpacket := hw.queueRequest hpacket iface
  release w reply ip hw := hw.sendPendingPackets w.router.tables reply ip
  send _ _ _ _ hw _ := hw
  tick w hw _ := hw.ticker w.router.tables w.now
  reset _ _ _ _ hrequest := by simp [World.reset, SimpleRouter.reset, ArpCache.clear,
    ArpCache.empty] at hrequest
  elapse _ _ hw := hw

theorem of_reachable {routingTable : RoutingTable} {ifNameToIpMap : List (String × UInt32)}
    {s : System} (h : System.Reachable routingTable ifNameToIpMap s) :
    QueueOk s.world.router.arp :=
  maintained.reachable (fun _ _ hrequest => by simp [World.start, ArpCache.empty] at hrequest) h

end QueueOk

theorem ArpCache.findRequest_eq_some {cache : ArpCache} {ip : UInt32} {request : ArpRequest}
    (h : cache.findRequest ip = some request) :
    request ∈ cache.arpRequests ∧ request.ip = ip :=
  ⟨List.mem_of_find?_eq_some h, by simpa using List.find?_some h⟩

/-- Nothing waits, or there is no interface, or all is sent and the request removed. -/
theorem sendPendingPackets_cases {cache : ArpCache} (hok : CacheOk cache) (hqueue : QueueOk cache)
    (t : RouterTables) (reply : ArpHdr) (dstIp : UInt32) :
    cache.findRequest dstIp = none ∧
      cache.sendPendingPackets t reply dstIp = (cache, [], none) ∨
    (∃ request fault, cache.findRequest dstIp = some request ∧
      t.sendInterface dstIp = .error fault ∧
      cache.sendPendingPackets t reply dstIp = (cache, [], some fault)) ∨
    ∃ request iface, cache.findRequest dstIp = some request ∧ t.sendInterface dstIp = .ok iface ∧
      cache.sendPendingPackets t reply dstIp =
        ({ cache with
            arpRequests := cache.arpRequests.eraseP fun request => request.ip = dstIp },
          releases reply iface.name dstIp request.packets, none) := by
  unfold ArpCache.sendPendingPackets
  cases hfind : cache.findRequest dstIp with
  | none => exact Or.inl ⟨rfl, rfl⟩
  | some request =>
      right
      have hmem := (ArpCache.findRequest_eq_some hfind).1
      have hfits : ∀ pending ∈ request.packets, 14 ≤ pending.packet.length := fun pending hpending =>
        Nat.le_trans (by decide) (hqueue request hmem pending hpending).fits
      cases hroute : t.sendInterface dstIp with
      | error fault =>
          left
          refine ⟨request, fault, rfl, rfl, ?_⟩
          simp only [sendPackets_of_error (hok.packetsNonempty request hmem) hfits hroute]
      | ok iface =>
          right
          refine ⟨request, iface, rfl, rfl, ?_⟩
          simp only [sendPackets_of_ok hfits hroute]

theorem sendPendingPackets_learned_cases {cache : ArpCache} (hok : CacheOk cache)
    (hqueue : QueueOk cache) {now : Nat} {mac : EtherAddr} {ip : UInt32}
    (hnew : cache.lookup ip = none) {t : RouterTables} {reply : ArpHdr} {arp : ArpCache}
    {events : List Event} {fault : Option Fault}
    (hsend : (cache.insertArpEntry now mac ip).1.sendPendingPackets t reply ip =
      (arp, events, fault)) :
    cache.findRequest ip = none ∧
      arp = (cache.insertArpEntry now mac ip).1 ∧ events = [] ∧ fault = none ∨
    (∃ request fault', cache.findRequest ip = some request ∧ t.sendInterface ip = .error fault' ∧
      arp = (cache.insertArpEntry now mac ip).1 ∧ events = [] ∧ fault = some fault') ∨
    ∃ request iface, cache.findRequest ip = some request ∧ t.sendInterface ip = .ok iface ∧
      arp = { (cache.insertArpEntry now mac ip).1 with
        arpRequests := cache.arpRequests.eraseP fun request => request.ip = ip } ∧
      events = releases reply iface.name ip request.packets ∧ fault = none := by
  have hinserted : CacheOk (cache.insertArpEntry now mac ip).1 := hok.insertArpEntry _ _ hnew
  rcases sendPendingPackets_cases hinserted hqueue t reply ip with
    ⟨hnone, heq⟩ | ⟨request, fault', hsome, hroute, heq⟩ | ⟨request, iface, hsome, hroute, heq⟩ <;>
    obtain ⟨rfl, rfl, rfl⟩ : arp = _ ∧ events = _ ∧ fault = _ := by
      simpa only [Prod.mk.injEq] using hsend.symm.trans heq
  · exact Or.inl ⟨hnone, rfl, rfl, rfl⟩
  · exact Or.inr (Or.inl ⟨request, fault', hsome, hroute, rfl, rfl, rfl⟩)
  · exact Or.inr (Or.inr ⟨request, iface, hsome, hroute, rfl, rfl, rfl⟩)

/-! ## Main result -/

theorem World.tick_cacheEntries {w : World} (h : CacheOk w.router.arp) (hfault : w.tick.2 = none) :
    w.tick.1.router.arp.cacheEntries =
      w.router.arp.cacheEntries.filter fun entry => w.now - entry.timeAdded ≤ seconds 30 := by
  have hentries : (w.router.arp.ticker w.router.tables w.now).1.cacheEntries = _ :=
    ArpCache.ticker_cacheEntries hfault
  simp only [World.tick, World.setArp_arp, hentries]
  apply List.filter_congr
  intro entry hentry
  simp [h.entriesValid entry hentry, srArpcacheTo]

/-- The invariant holds between any two calls of a handler, and a ticker pass
leaves exactly the entries of at most 30 seconds. -/
theorem cache_invariant {routingTable : RoutingTable} {ifNameToIpMap : List (String × UInt32)}
    {s : System} (h : System.Reachable routingTable ifNameToIpMap s) :
    CacheOk s.world.router.arp ∧
      ∀ s', s.step .tick = some s' →
        s'.world.router.arp.cacheEntries =
          s.world.router.arp.cacheEntries.filter
            fun entry => s.world.now - entry.timeAdded ≤ seconds 30 := by
  have hok := CacheOk.of_reachable h
  refine ⟨hok, fun s' hstep => ?_⟩
  rcases htick : s.world.tick with ⟨next, fault | fault⟩
  · simp only [System.step, htick, Option.some.injEq] at hstep
    subst hstep
    have hentries := World.tick_cacheEntries hok (by rw [htick])
    rwa [htick] at hentries
  · simp [System.step, htick] at hstep

/-- An ARP request with a ticker pass between the lookup and the insertion, and 31
seconds of silence. -/
def interruptedActions : List Action :=
  [.reset projectPorts, .receive (serverArp arpOpRequest) "sw0-eth1", .call, .tick, .call, .call,
    .elapse (seconds 31)]

theorem cache_invariant_interrupted :
    ∃ s, run System.step ⟨World.start projectTable projectIps 0, .idle⟩ interruptedActions = some s ∧
      CacheOk s.world.router.arp ∧
      ∀ s', s.step .tick = some s' →
        s'.world.router.arp.cacheEntries =
          s.world.router.arp.cacheEntries.filter
            fun entry => s.world.now - entry.timeAdded ≤ seconds 30 := by
  obtain ⟨s, hs⟩ := Option.isSome_iff_exists.mp (by decide +kernel :
    (run System.step ⟨World.start projectTable projectIps 0, .idle⟩ interruptedActions).isSome)
  exact ⟨s, hs, cache_invariant ⟨0, reach_of_run (by simp) hs⟩⟩

end Cs118.Router
