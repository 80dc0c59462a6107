import Cs118.Lib.Keyed
import Cs118.Router.ArpCache
/-!
# What each method of the cache does
-/

namespace Cs118.Router

open Cs118.Lib.Bytes
open Cs118.Lib.Keyed

/-! ## Entries -/

namespace ArpCache

theorem lookup_eq_none_iff {cache : ArpCache} {ip : UInt32} :
    cache.lookup ip = none ↔ ∀ entry ∈ cache.cacheEntries, entry.isValid → entry.ip ≠ ip := by
  simp [lookup, List.find?_eq_none]

theorem lookup_insertArpEntry (cache : ArpCache) (now : Nat) (mac : EtherAddr) (ip x : UInt32) :
    (cache.insertArpEntry now mac ip).1.lookup x =
      (cache.lookup x).or (if ip = x then some ⟨mac, ip, now, true⟩ else none) := by
  simp only [lookup, insertArpEntry, List.find?_append, List.find?_cons, List.find?_nil]
  by_cases hip : ip = x <;> simp [hip]

theorem filter_map_markExpired (now : Nat) (entries : List ArpEntry) :
    (entries.map (markExpired now)).filter (fun entry => entry.isValid) =
      entries.filter fun entry => entry.isValid ∧ now - entry.timeAdded ≤ srArpcacheTo := by
  induction entries with
  | nil => rfl
  | cons entry entries ih =>
      rw [List.map_cons, List.filter_cons, List.filter_cons, ih]
      by_cases hexpired : entry.isValid ∧ srArpcacheTo < now - entry.timeAdded
      · have hkeep : ¬ (entry.isValid ∧ now - entry.timeAdded ≤ srArpcacheTo) := by omega
        rw [markExpired, if_pos hexpired, if_neg (by simp), if_neg (by simpa using hkeep)]
      · rw [markExpired, if_neg hexpired]
        by_cases hvalid : entry.isValid
        · have hlive : now - entry.timeAdded ≤ srArpcacheTo := by
            by_contra hlate
            exact hexpired ⟨hvalid, by omega⟩
          rw [if_pos hvalid, if_pos (by simp [hvalid, hlive])]
        · rw [if_neg hvalid, if_neg (by simp [hvalid])]

/-- A ticker pass that is not interrupted keeps the live entries. -/
theorem ticker_cacheEntries {cache : ArpCache} {t : RouterTables} {now : Nat}
    (h : (cache.ticker t now).2.2 = none) :
    (cache.ticker t now).1.cacheEntries =
      cache.cacheEntries.filter fun entry =>
        entry.isValid ∧ now - entry.timeAdded ≤ srArpcacheTo := by
  unfold ticker periodicCheckArpRequestsAndCacheEntries at *
  rcases hcheck : checkRequests t now cache.arpRequests with ⟨requests, events, fault | fault⟩
  · exact filter_map_markExpired now cache.cacheEntries
  · simp [hcheck] at h

theorem periodicCheck_checkRequests (cache : ArpCache) (t : RouterTables) (now : Nat) :
    ((cache.periodicCheckArpRequestsAndCacheEntries t now).1.arpRequests,
        (cache.periodicCheckArpRequestsAndCacheEntries t now).2) =
      checkRequests t now cache.arpRequests := by
  unfold periodicCheckArpRequestsAndCacheEntries
  rcases hcheck : checkRequests t now cache.arpRequests with ⟨requests, events, fault | fault⟩ <;>
    rfl

theorem ticker_arpRequests (cache : ArpCache) (t : RouterTables) (now : Nat) :
    (cache.ticker t now).1.arpRequests = (checkRequests t now cache.arpRequests).1 :=
  congrArg Prod.fst (periodicCheck_checkRequests _ t now)

theorem ticker_outcome (cache : ArpCache) (t : RouterTables) (now : Nat) :
    (cache.ticker t now).2 = (checkRequests t now cache.arpRequests).2 :=
  congrArg Prod.snd (periodicCheck_checkRequests _ t now)

theorem lookup_ticker_none {cache : ArpCache} {t : RouterTables} {now : Nat} {ip : UInt32}
    (h : cache.lookup ip = none) (hfault : (cache.ticker t now).2.2 = none) :
    (cache.ticker t now).1.lookup ip = none := by
  rw [lookup_eq_none_iff] at h ⊢
  rw [ticker_cacheEntries hfault]
  intro entry hentry
  exact h entry (List.mem_of_mem_filter hentry)

end ArpCache

/-! ## The loop of `sendPendingPackets` -/

def releases (reply : ArpHdr) (outIface : String) (ip : UInt32) (packets : List PendingPacket) :
    List Event :=
  packets.map fun pending =>
    .sent (releaseFrame reply pending.packet) outIface (.released ip pending.packet)

theorem sendPackets_of_ok {t : RouterTables} {reply : ArpHdr} {dstIp : UInt32}
    {packets : List PendingPacket} {iface : Interface}
    (hfits : ∀ pending ∈ packets, 14 ≤ pending.packet.length)
    (hroute : t.sendInterface dstIp = .ok iface) :
    sendPackets t reply dstIp packets = (releases reply iface.name dstIp packets, none) := by
  induction packets with
  | nil => rfl
  | cons pending packets ih =>
      have hlen := hfits pending (by simp)
      rw [sendPackets, if_neg (by omega), hroute]
      simp only [ih fun other hother => hfits other (List.mem_cons_of_mem _ hother), releases,
        List.map_cons]

/-- Without an interface nothing is sent: the lookup fails for the first packet. -/
theorem sendPackets_of_error {t : RouterTables} {reply : ArpHdr} {dstIp : UInt32}
    {packets : List PendingPacket} {fault : Fault} (hpackets : packets ≠ [])
    (hfits : ∀ pending ∈ packets, 14 ≤ pending.packet.length)
    (hroute : t.sendInterface dstIp = .error fault) :
    sendPackets t reply dstIp packets = ([], some fault) := by
  cases packets with
  | nil => exact absurd rfl hpackets
  | cons pending packets =>
      have hlen := hfits pending (by simp)
      rw [sendPackets, if_neg (by omega), hroute]

theorem sendPackets_events {t : RouterTables} {reply : ArpHdr} {dstIp : UInt32}
    {packets : List PendingPacket} {event : Event}
    (h : event ∈ (sendPackets t reply dstIp packets).1) :
    ∃ pending ∈ packets, ∃ iface,
      event = .sent (releaseFrame reply pending.packet) iface (.released dstIp pending.packet) := by
  induction packets with
  | nil => simp [sendPackets] at h
  | cons pending packets ih =>
      unfold sendPackets at h
      by_cases hshort : pending.packet.length < 14
      · simp [hshort] at h
      · rw [if_neg hshort] at h
        cases hroute : t.sendInterface dstIp with
        | error fault => simp [hroute] at h
        | ok iface =>
            simp only [hroute, List.mem_cons] at h
            rcases h with rfl | hrest
            · exact ⟨pending, by simp, iface.name, rfl⟩
            · obtain ⟨other, hother, heq⟩ := ih hrest
              exact ⟨other, List.mem_cons_of_mem _ hother, heq⟩

/-! ## What releasing leaves of the cache -/

theorem cacheEntries_sendPendingPackets (cache : ArpCache) (t : RouterTables) (reply : ArpHdr)
    (dstIp : UInt32) :
    (cache.sendPendingPackets t reply dstIp).1.cacheEntries = cache.cacheEntries := by
  unfold ArpCache.sendPendingPackets
  split
  · rfl
  · split <;> rfl

@[simp] theorem lookup_sendPendingPackets (cache : ArpCache) (t : RouterTables) (reply : ArpHdr)
    (dstIp x : UInt32) :
    (cache.sendPendingPackets t reply dstIp).1.lookup x = cache.lookup x := by
  rw [ArpCache.lookup, cacheEntries_sendPendingPackets, ArpCache.lookup]

theorem sendPendingPackets_requests_sublist (cache : ArpCache) (t : RouterTables) (reply : ArpHdr)
    (dstIp : UInt32) :
    (cache.sendPendingPackets t reply dstIp).1.arpRequests.Sublist cache.arpRequests := by
  unfold ArpCache.sendPendingPackets
  split
  · exact List.Sublist.refl _
  · split
    · exact List.Sublist.refl _
    · exact List.eraseP_sublist

theorem requests_sendPendingPackets (cache : ArpCache) (t : RouterTables) (reply : ArpHdr)
    (x : UInt32) :
    (cache.sendPendingPackets t reply x).1.arpRequests = cache.arpRequests ∨
      (cache.sendPendingPackets t reply x).1.arpRequests =
        cache.arpRequests.eraseP fun req => req.ip = x := by
  unfold ArpCache.sendPendingPackets
  split
  · exact Or.inl rfl
  · split
    · exact Or.inl rfl
    · exact Or.inr rfl

theorem sendPendingPackets_fst (cache : ArpCache) (t : RouterTables) (reply : ArpHdr)
    (dstIp : UInt32) : (cache.sendPendingPackets t reply dstIp).1 =
      { cache with arpRequests := (cache.sendPendingPackets t reply dstIp).1.arpRequests } := by
  rw [← cacheEntries_sendPendingPackets cache t reply dstIp]

theorem sendPendingPackets_events {cache : ArpCache} {t : RouterTables} {reply : ArpHdr}
    {dstIp : UInt32} {event : Event} (h : event ∈ (cache.sendPendingPackets t reply dstIp).2.1) :
    ∃ request ∈ cache.arpRequests, ∃ pending ∈ request.packets, ∃ outIface,
      event = .sent (releaseFrame reply pending.packet) outIface
        (.released dstIp pending.packet) := by
  unfold ArpCache.sendPendingPackets at h
  cases hfind : cache.findRequest dstIp with
  | none => simp [hfind] at h
  | some request =>
      have hmem : event ∈ (sendPackets t reply dstIp request.packets).1 := by
        rcases hsend : sendPackets t reply dstIp request.packets with ⟨events, fault | fault⟩ <;>
          simpa [hfind, hsend] using h
      exact ⟨request, List.mem_of_find?_eq_some hfind, sendPackets_events hmem⟩

/-! ## The loop over the requests -/

theorem handleArpRequest_cases {t : RouterTables} {now : Nat} {req : ArpRequest}
    {next : Option ArpRequest} {events : List Event}
    (h : handleArpRequest t now req = .ok (next, events)) :
    next = some req ∧ events = [] ∨
    maxSentTime ≤ req.nTimesSent ∧ next = none ∧ events = [.gaveUp req.ip req.frames] ∨
    req.nTimesSent < maxSentTime ∧
      next = some { req with timeSent := now, nTimesSent := req.nTimesSent + 1 } ∧
      ∃ iface, t.sendInterface req.ip = .ok iface ∧
        events = [.sent (arpRequestFrame iface req.ip) iface.name (.arpRequest req.ip)] := by
  unfold handleArpRequest at h
  by_cases hdue : seconds 1 < now - req.timeSent
  · rw [if_pos hdue] at h
    by_cases hmax : maxSentTime ≤ req.nTimesSent
    · rw [if_pos hmax] at h
      obtain ⟨rfl, rfl⟩ : none = next ∧ [Event.gaveUp req.ip req.frames] = events := by
        simpa using h
      exact Or.inr (Or.inl ⟨hmax, rfl, rfl⟩)
    · rw [if_neg hmax] at h
      cases hroute : t.sendInterface req.ip with
      | error fault => simp [hroute] at h
      | ok iface =>
          simp only [hroute, Except.ok.injEq, Prod.mk.injEq] at h
          exact Or.inr (Or.inr ⟨UInt32.not_le.mp hmax, h.1.symm, iface, rfl, h.2.symm⟩)
  · rw [if_neg hdue] at h
    obtain ⟨rfl, rfl⟩ : some req = next ∧ [] = events := by simpa using h
    exact Or.inl ⟨rfl, rfl⟩

theorem checkRequests_ips_sublist (t : RouterTables) (now : Nat) (reqs : List ArpRequest) :
    ((checkRequests t now reqs).1.map (·.ip)).Sublist (reqs.map (·.ip)) := by
  induction reqs with
  | nil => exact List.Sublist.refl _
  | cons req rest ih =>
      unfold checkRequests
      rcases hreq : handleArpRequest t now req with fault | ⟨_ | next, events⟩
      · exact List.Sublist.refl _
      · exact List.sublist_cons_self _ _
      · have hip : next.ip = req.ip := by
          rcases handleArpRequest_cases hreq with ⟨hnext, -⟩ | ⟨-, hnext, -⟩ | ⟨-, hnext, -⟩
          · rw [Option.some.inj hnext]
          · simp at hnext
          · rw [Option.some.inj hnext]
        simp only [List.map_cons, hip]
        exact ih.cons_cons _

structure Checked (req next : ArpRequest) : Prop where
  ip : next.ip = req.ip
  packets : next.packets = req.packets
  nTimesSent : next.nTimesSent = req.nTimesSent ∨
    req.nTimesSent < maxSentTime ∧ next.nTimesSent = req.nTimesSent + 1

theorem checkRequests_checked {t : RouterTables} {now : Nat} {reqs : List ArpRequest}
    {next : ArpRequest} (h : next ∈ (checkRequests t now reqs).1) :
    ∃ req ∈ reqs, Checked req next := by
  induction reqs with
  | nil => simp [checkRequests] at h
  | cons req rest ih =>
      have hkept : ∀ other, other ∈ req :: rest → ∃ req' ∈ req :: rest, Checked req' other :=
        fun other hother => ⟨other, hother, rfl, rfl, Or.inl rfl⟩
      unfold checkRequests at h
      rcases hreq : handleArpRequest t now req with fault | ⟨_ | first, events⟩ <;>
        simp only [hreq] at h
      · exact hkept next h
      · exact hkept next (List.mem_cons_of_mem _ h)
      · rcases List.mem_cons.mp h with rfl | h
        · refine ⟨req, by simp, ?_⟩
          rcases handleArpRequest_cases hreq with ⟨hnext, -⟩ | ⟨-, hnext, -⟩ | ⟨hlt, hnext, -⟩
          · rw [Option.some.inj hnext]
            exact ⟨rfl, rfl, Or.inl rfl⟩
          · simp at hnext
          · rw [Option.some.inj hnext]
            exact ⟨rfl, rfl, Or.inr ⟨hlt, rfl⟩⟩
        · obtain ⟨req', hreq', hchecked⟩ := ih h
          exact ⟨req', List.mem_cons_of_mem _ hreq', hchecked⟩

theorem checkRequests_events {t : RouterTables} {now : Nat} {reqs : List ArpRequest} {event : Event}
    (h : event ∈ (checkRequests t now reqs).2.1) :
    ∃ req ∈ reqs, event = .gaveUp req.ip req.frames ∨
      ∃ iface, t.sendInterface req.ip = .ok iface ∧
        event = .sent (arpRequestFrame iface req.ip) iface.name (.arpRequest req.ip) := by
  induction reqs with
  | nil => simp [checkRequests] at h
  | cons req rest ih =>
      unfold checkRequests at h
      rcases hreq : handleArpRequest t now req with fault | ⟨_ | next, first⟩ <;>
        simp only [hreq] at h
      · simp at h
      · rcases handleArpRequest_cases hreq with ⟨hnext, -⟩ | ⟨-, -, rfl⟩ | ⟨-, hnext, -⟩
        · simp at hnext
        · exact ⟨req, by simp, Or.inl (List.mem_singleton.mp h)⟩
        · simp at hnext
      · rcases List.mem_append.mp h with hfirst | hrest
        · rcases handleArpRequest_cases hreq with ⟨-, rfl⟩ | ⟨-, hnext, -⟩ |
            ⟨-, -, iface, hroute, rfl⟩
          · simp at hfirst
          · simp at hnext
          · exact ⟨req, by simp, Or.inr ⟨iface, hroute, List.mem_singleton.mp hfirst⟩⟩
        · obtain ⟨other, hother, hevent⟩ := ih hrest
          exact ⟨other, List.mem_cons_of_mem _ hother, hevent⟩

/-! ## The insertion of `queueRequest` -/

theorem pushPacket_ips (ip : UInt32) (pending : PendingPacket) (reqs : List ArpRequest) :
    (pushPacket ip pending reqs).1.map (·.ip) =
      if ip ∈ reqs.map (·.ip) then reqs.map (·.ip) else reqs.map (·.ip) ++ [ip] := by
  induction reqs with
  | nil => simp [pushPacket]
  | cons req rest ih =>
      unfold pushPacket
      by_cases hip : req.ip = ip
      · simp [hip]
      · simp only [if_neg hip, List.map_cons, ih, List.mem_cons, Ne.symm hip, false_or]
        split_ifs <;> rfl

theorem pushPacket_mem {ip : UInt32} {pending : PendingPacket} {reqs : List ArpRequest}
    {next : ArpRequest} (h : next ∈ (pushPacket ip pending reqs).1) :
    next ∈ reqs ∨ next = ⟨ip, 0, 0, [pending]⟩ ∨
      ∃ req ∈ reqs, req.ip = ip ∧ next = { req with packets := req.packets ++ [pending] } := by
  induction reqs with
  | nil => exact Or.inr (Or.inl (by simpa [pushPacket] using h))
  | cons req rest ih =>
      unfold pushPacket at h
      by_cases hip : req.ip = ip
      · simp only [if_pos hip] at h
        rcases List.mem_cons.mp h with rfl | h
        · exact Or.inr (Or.inr ⟨req, by simp, hip, rfl⟩)
        · exact Or.inl (List.mem_cons_of_mem _ h)
      · simp only [if_neg hip] at h
        rcases List.mem_cons.mp h with rfl | h
        · exact Or.inl (by simp)
        · rcases ih h with hold | hnew | ⟨req', hreq', hupdate⟩
          · exact Or.inl (List.mem_cons_of_mem _ hold)
          · exact Or.inr (Or.inl hnew)
          · exact Or.inr (Or.inr ⟨req', List.mem_cons_of_mem _ hreq', hupdate⟩)

theorem pushPacket_ne (ip : UInt32) (pending : PendingPacket) (reqs : List ArpRequest) :
    (pushPacket ip pending reqs).1 ≠ reqs := by
  induction reqs with
  | nil => simp [pushPacket]
  | cons req rest ih =>
      unfold pushPacket
      by_cases hip : req.ip = ip
      · rw [if_pos hip]
        intro heq
        have hpackets := congrArg ArpRequest.packets (List.cons.inj heq).1
        simp at hpackets
      · rw [if_neg hip]
        intro heq
        exact ih (List.cons.inj heq).2

end Cs118.Router
