import Cs118.Router.Proofs.Conservation
import Cs118.Router.Proofs.Handling
/-!
# Learning a mapping and the frames that wait for it

A mapping is recorded for an ARP request, an ARP reply or an IPv4 frame, and only
the reply goes on to send what waits.  Learning is safe when nothing waits, or
when it is a reply and there is an interface to send on.
-/

namespace Cs118.Router

open Cs118.Lib
open Cs118.Lib.Bytes
open Cs118.Lib.Keyed
open Cs118.Lib.Run

def Event.releases (ip : UInt32) : Event → List Buffer
  | .sent _ _ (.released x packet) => if x = ip then [packet] else []
  | _ => []

/-- Whoever is learned on the way from `w` to `w'` is sent all that waited for it,
in order and once, and has no request left. -/
def ReleasesQueue (w w' : World) : Prop :=
  ∀ ip, .learned ip ∈ w.eventsTo w' →
    w'.router.arp.findRequest ip = none ∧
      (w.eventsTo w').flatMap (Event.releases ip) = pendingFor ip w.router.arp.arpRequests

/-- The frame carries a mapping for `ip` that the router takes in. -/
inductive Offers (t : RouterTables) (packet : Buffer) (inIface : String) : UInt32 → Prop
  | request (h : IsArp t packet inIface arpOpRequest) : Offers t packet inIface (arpHeader packet).arpSip
  | reply (h : IsArp t packet inIface arpOpReply) : Offers t packet inIface (arpHeader packet).arpSip
  | source (h : Accepted t packet inIface) : Offers t packet inIface (ipHeader packet).ipSrc

/-- An address the frame would newly teach has no request, or the frame is an ARP
reply and the queue can be sent. -/
def LearnsSafely (w : World) : Turn → Prop
  | .receive packet inIface =>
    ∀ ip, Offers w.router.tables packet inIface ip → w.router.arp.lookup ip = none →
      w.router.arp.findRequest ip = none ∨
        IsArp w.router.tables packet inIface arpOpReply ∧
          ∃ iface, w.router.tables.sendInterface ip = .ok iface
  | _ => True

theorem findRequest_eq_none_iff {cache : ArpCache} {ip : UInt32} :
    cache.findRequest ip = none ↔ ip ∉ cache.arpRequests.map (·.ip) := by
  simp [ArpCache.findRequest, List.find?_eq_none]

/-! ## One frame -/

section

variable {w : World} {packet : Buffer} {inIface : String}

theorem learns_arpRequests (packet : Buffer) (ip : UInt32) :
    (w.learns packet ip).1.arpRequests = w.router.arp.arpRequests := by
  unfold World.learns ArpCache.learn
  cases w.router.arp.lookup ip <;> rfl

theorem learned_mem_learns {ip x : UInt32} :
    Event.learned x ∈ (w.learns packet ip).2 ↔ x = ip ∧ w.router.arp.lookup ip = none := by
  unfold World.learns ArpCache.learn
  cases w.router.arp.lookup ip <;> simp

theorem releases_learns (ip x : UInt32) :
    (w.learns packet ip).2.flatMap (Event.releases x) = [] := by
  unfold World.learns ArpCache.learn
  cases w.router.arp.lookup ip <;> rfl

theorem flatMap_releases (reply : ArpHdr) (outIface : String) (ip x : UInt32)
    (packets : List PendingPacket) :
    (releases reply outIface ip packets).flatMap (Event.releases x) =
      if ip = x then packets.map (·.packet) else [] := by
  rw [← Moves.retiredFor_releases x ip reply outIface packets]
  simp [retiredFor, releases, List.flatMap_map, Event.releases, Event.retires]

theorem pendingFor_of_findRequest_none {cache : ArpCache} {ip : UInt32}
    (h : cache.findRequest ip = none) : pendingFor ip cache.arpRequests = [] :=
  valueAt_of_not_mem (findRequest_eq_none_iff.mp h)

theorem releasesQueue_learns_iff {ip : UInt32} {arp : ArpCache} {events : List Event}
    (hlearned : ∀ x, Event.learned x ∉ events)
    (hreleases : ∀ x, events.flatMap (Event.releases x) = [])
    (hrequests : w.router.arp.lookup ip = none →
      (arp.findRequest ip = none ↔ w.router.arp.findRequest ip = none)) :
    ReleasesQueue w (w.setArp arp ((w.learns packet ip).2 ++ events)) ↔
      (w.router.arp.lookup ip = none → w.router.arp.findRequest ip = none) := by
  unfold ReleasesQueue
  rw [World.eventsTo_setArp]
  constructor
  · intro h hnew
    exact (hrequests hnew).mp
      (h ip (List.mem_append_left _ (learned_mem_learns.mpr ⟨rfl, hnew⟩))).1
  · intro h x hx
    obtain ⟨rfl, hnew⟩ := learned_mem_learns.mp
      ((List.mem_append.mp hx).resolve_right (hlearned x))
    refine ⟨(hrequests hnew).mpr (h hnew), ?_⟩
    rw [List.flatMap_append, releases_learns, hreleases, pendingFor_of_findRequest_none (h hnew)]
    rfl

theorem releasesQueue_of_not_learned {arp : ArpCache} {events : List Event}
    (hlearned : ∀ x, Event.learned x ∉ events) : ReleasesQueue w (w.setArp arp events) := by
  intro ip hip
  rw [World.eventsTo_setArp] at hip
  exact absurd hip (hlearned ip)

theorem offers_request_iff {t : RouterTables} (harp : IsArp t packet inIface arpOpRequest)
    {ip : UInt32} : Offers t packet inIface ip ↔ ip = (arpHeader packet).arpSip := by
  constructor
  · rintro (_ | _ | hip)
    · rfl
    · rfl
    · exact absurd hip harp.not_accepted
  · rintro rfl
    exact .request harp

theorem offers_reply_iff {t : RouterTables} (harp : IsArp t packet inIface arpOpReply)
    {ip : UInt32} : Offers t packet inIface ip ↔ ip = (arpHeader packet).arpSip := by
  constructor
  · rintro (_ | _ | hip)
    · rfl
    · rfl
    · exact absurd hip harp.not_accepted
  · rintro rfl
    exact .reply harp

theorem offers_source_iff {t : RouterTables} (haccepted : Accepted t packet inIface)
    {ip : UInt32} : Offers t packet inIface ip ↔ ip = (ipHeader packet).ipSrc := by
  constructor
  · rintro (harp | harp | _)
    · exact absurd haccepted harp.not_accepted
    · exact absurd haccepted harp.not_accepted
    · rfl
  · rintro rfl
    exact .source haccepted

/-- Without an ARP reply learning is safe only where nothing waits. -/
theorem learnsSafely_iff {ip : UInt32}
    (hoffers : ∀ x, Offers w.router.tables packet inIface x ↔ x = ip)
    (hreply : ¬ IsArp w.router.tables packet inIface arpOpReply) :
    LearnsSafely w (.receive packet inIface) ↔
      (w.router.arp.lookup ip = none → w.router.arp.findRequest ip = none) := by
  simp [LearnsSafely, hoffers, hreply]

theorem learnsSafely_request_iff (harp : IsArp w.router.tables packet inIface arpOpRequest) :
    LearnsSafely w (.receive packet inIface) ↔
      (w.router.arp.lookup (arpHeader packet).arpSip = none →
        w.router.arp.findRequest (arpHeader packet).arpSip = none) :=
  learnsSafely_iff (fun _ => offers_request_iff harp)
    fun hreply => absurd (harp.op_unique hreply) (by decide)

theorem learnsSafely_source_iff (haccepted : Accepted w.router.tables packet inIface) :
    LearnsSafely w (.receive packet inIface) ↔
      (w.router.arp.lookup (ipHeader packet).ipSrc = none →
        w.router.arp.findRequest (ipHeader packet).ipSrc = none) :=
  learnsSafely_iff (fun _ => offers_source_iff haccepted)
    fun hreply => hreply.not_accepted haccepted

theorem findRequest_queueRequest {cache : ArpCache} {ip x : UInt32} (hx : x ≠ ip) (packet : Buffer)
    (iface : String) :
    (cache.queueRequest ip packet iface).1.findRequest x = none ↔ cache.findRequest x = none := by
  rw [findRequest_eq_none_iff, findRequest_eq_none_iff, ArpCache.queueRequest, pushPacket_ips]
  split_ifs with hmem
  · rfl
  · simp [hx]

theorem learns_findRequest (ip x : UInt32) :
    (w.learns packet ip).1.findRequest x = w.router.arp.findRequest x := by
  rw [ArpCache.findRequest, learns_arpRequests, ArpCache.findRequest]

theorem releasesQueue_reply_iff (hcache : CacheOk w.router.arp) (hqueue : QueueOk w.router.arp)
    (harp : IsArp w.router.tables packet inIface arpOpReply)
    (hnew : w.router.arp.lookup (arpHeader packet).arpSip = none) {arp : ArpCache}
    {events : List Event} {fault : Option Fault}
    (hsend : (w.router.arp.insertArpEntry w.now (sourceMac packet)
      (arpHeader packet).arpSip).1.sendPendingPackets w.router.tables (arpHeader packet)
      (arpHeader packet).arpSip = (arp, events, fault)) :
    ReleasesQueue w (w.setArp arp (.learned (arpHeader packet).arpSip :: events)) ↔
      LearnsSafely w (.receive packet inIface) := by
  have hsafe : LearnsSafely w (.receive packet inIface) ↔
      (w.router.arp.findRequest (arpHeader packet).arpSip = none ∨
        ∃ iface, w.router.tables.sendInterface (arpHeader packet).arpSip = .ok iface) := by
    simp [LearnsSafely, offers_reply_iff harp, harp, hnew]
  rw [hsafe]
  rcases sendPendingPackets_learned_cases hcache hqueue hnew hsend with
    ⟨hnone, rfl, rfl, rfl⟩ | ⟨request, fault', hsome, hroute, rfl, rfl, rfl⟩ |
      ⟨request, iface, hsome, hroute, rfl, rfl, rfl⟩
  · refine iff_of_true ?_ (Or.inl hnone)
    intro ip hip
    rw [World.eventsTo_setArp] at hip ⊢
    obtain rfl : ip = _ := by simpa using hip
    exact ⟨hnone, (pendingFor_of_findRequest_none hnone).symm⟩
  · refine iff_of_false (fun hreleases => ?_) ?_
    · have hrequest := (hreleases (arpHeader packet).arpSip (by simp)).1
      exact absurd (hrequest.symm.trans hsome) (by simp)
    · rintro (hnone | ⟨iface, hiface⟩)
      · exact absurd (hnone.symm.trans hsome) (by simp)
      · exact absurd (hiface.symm.trans hroute) (by simp)
  · refine iff_of_true ?_ (Or.inr ⟨iface, hroute⟩)
    intro ip hip
    rw [World.eventsTo_setArp] at hip ⊢
    obtain rfl : ip = _ := by simpa [releases] using hip
    obtain ⟨hmem, hsip⟩ := ArpCache.findRequest_eq_some hsome
    refine ⟨findRequest_eq_none_iff.mpr (not_mem_map_key_eraseP hcache.requestsDistinct _), ?_⟩
    have hpending : pendingFor (arpHeader packet).arpSip w.router.arp.arpRequests = request.frames := by
      rw [← hsip]
      exact valueAt_of_mem hcache.requestsDistinct hmem
    rw [hpending, List.flatMap_cons, flatMap_releases, if_pos rfl]
    rfl

theorem Outcome.releasesQueue_iff (hcache : CacheOk w.router.arp) (hqueue : QueueOk w.router.arp)
    {arp : ArpCache} {events : List Event} {fault : Option Fault}
    (h : Outcome w packet inIface arp events fault) :
    ReleasesQueue w (w.setArp arp events) ↔ LearnsSafely w (.receive packet inIface) := by
  have hidle : (∀ ip, ¬ Offers w.router.tables packet inIface ip) → events = [] →
      (ReleasesQueue w (w.setArp arp events) ↔ LearnsSafely w (.receive packet inIface)) := by
    rintro hoffers rfl
    exact iff_of_true (releasesQueue_of_not_learned (by simp)) fun ip hip => absurd hip (hoffers ip)
  have hlearns : ∀ {ip : UInt32} {more : List Event}, events = (w.learns packet ip).2 ++ more →
      (∀ x, Event.learned x ∉ more) → (∀ x, more.flatMap (Event.releases x) = []) →
      (w.router.arp.lookup ip = none →
        (arp.findRequest ip = none ↔ w.router.arp.findRequest ip = none)) →
      (LearnsSafely w (.receive packet inIface) ↔
        (w.router.arp.lookup ip = none → w.router.arp.findRequest ip = none)) →
      (ReleasesQueue w (w.setArp arp events) ↔ LearnsSafely w (.receive packet inIface)) := by
    rintro ip more rfl hlearned hreleases hrequests hsafe
    rw [hsafe]
    exact releasesQueue_learns_iff hlearned hreleases hrequests
  -- the source is learned, and the requests stay as they are
  have hsends : ∀ {ip : UInt32} {more : List Event}, arp = (w.learns packet ip).1 →
      events = (w.learns packet ip).2 ++ more → (∀ x, Event.learned x ∉ more) →
      (∀ x, more.flatMap (Event.releases x) = []) →
      (LearnsSafely w (.receive packet inIface) ↔
        (w.router.arp.lookup ip = none → w.router.arp.findRequest ip = none)) →
      (ReleasesQueue w (w.setArp arp events) ↔ LearnsSafely w (.receive packet inIface)) := by
    rintro ip more rfl hevents hlearned hreleases hsafe
    exact hlearns hevents hlearned hreleases (fun _ => by rw [learns_findRequest]) hsafe
  have hquiet : ∀ {ip : UInt32}, arp = (w.learns packet ip).1 → events = (w.learns packet ip).2 →
      (LearnsSafely w (.receive packet inIface) ↔
        (w.router.arp.lookup ip = none → w.router.arp.findRequest ip = none)) →
      (ReleasesQueue w (w.setArp arp events) ↔ LearnsSafely w (.receive packet inIface)) := by
    rintro ip harp rfl hsafe
    exact hsends harp (List.append_nil _).symm (by simp) (by simp) hsafe
  cases h with
  | ignored hip hrequest hreply =>
      refine hidle ?_ rfl
      rintro _ (harp | harp | haccepted)
      · exact hrequest harp
      · exact hreply harp
      · exact hip haccepted
  | overrun _ hip hrequest hreply =>
      refine hidle ?_ rfl
      rintro _ (harp | harp | haccepted)
      · exact hrequest harp
      · exact hreply harp
      · exact hip haccepted
  | request harp _ =>
      exact hquiet rfl rfl (learnsSafely_request_iff harp)
  | requestForUs harp iface _ =>
      exact hsends rfl rfl (by simp) (by simp [Event.releases])
        (learnsSafely_request_iff harp)
  | replyKnown harp entry hknown =>
      refine iff_of_true (releasesQueue_of_not_learned (by simp)) fun ip hip hnew => ?_
      rw [(offers_reply_iff harp).mp hip, hknown] at hnew
      exact absurd hnew (by simp)
  | reply harp hnew _ _ _ hsend => exact releasesQueue_reply_iff hcache hqueue harp hnew hsend
  | icmpOverrun _ hicmp _ =>
      exact hquiet rfl rfl (learnsSafely_source_iff hicmp.accepted)
  | echo _ hicmp _ _ _ _ =>
      exact hsends rfl rfl (by simp) (by simp [Event.releases])
        (learnsSafely_source_iff hicmp.accepted)
  | icmpError hicmp _ _ _ _ =>
      exact hsends rfl rfl (by simp) (by simp [Event.releases])
        (learnsSafely_source_iff hicmp.accepted)
  | icmpIgnored hicmp _ =>
      exact hquiet rfl rfl (learnsSafely_source_iff hicmp.accepted)
  | localOther haccepted _ _ _ _ =>
      exact hquiet rfl rfl (learnsSafely_source_iff haccepted)
  | noRoute htransit _ _ _ =>
      exact hquiet rfl rfl (learnsSafely_source_iff htransit.accepted)
  | noHop htransit _ _ _ _ _ =>
      exact hquiet rfl rfl (learnsSafely_source_iff htransit.accepted)
  | forwarded htransit _ _ _ _ _ _ _ _ =>
      exact hsends rfl rfl (by simp) (by simp [Event.releases])
        (learnsSafely_source_iff htransit.accepted)
  | queueNull htransit _ _ =>
      exact hquiet rfl rfl (learnsSafely_source_iff htransit.accepted)
  | queued htransit hmissing iface _ =>
      refine hlearns rfl (by simp) (by simp [Event.releases]) (fun _ => ?_)
        (learnsSafely_source_iff htransit.accepted)
      have hne : (ipHeader packet).ipSrc ≠ (ipHeader packet).ipDst := by
        intro heq
        exact lookup_learns_none.mp hmissing (Or.inl heq.symm)
      rw [findRequest_queueRequest hne, learns_findRequest]

/-! ## No entry beside a request -/

def Exclusive (cache : ArpCache) : Prop :=
  ∀ ip, (cache.lookup ip).isSome → cache.findRequest ip = none

theorem exclusive_learns (h : Exclusive w.router.arp) {ip : UInt32}
    (hsafe : w.router.arp.lookup ip = none → w.router.arp.findRequest ip = none) :
    Exclusive (w.learns packet ip).1 := by
  intro x hx
  rw [learns_findRequest]
  rcases lookup_learns_isSome.mp hx with rfl | hold
  · cases hlookup : w.router.arp.lookup x with
    | none => exact hsafe hlookup
    | some entry => exact h x (by rw [hlookup]; rfl)
  · exact h x hold

theorem findRequest_none_of_sublist {cache cache' : ArpCache} {ip : UInt32}
    (hsub : (cache'.arpRequests.map (·.ip)).Sublist (cache.arpRequests.map (·.ip)))
    (h : cache.findRequest ip = none) : cache'.findRequest ip = none := by
  rw [findRequest_eq_none_iff] at h ⊢
  exact fun hmem => h (hsub.subset hmem)

theorem exclusive_reply (h : Exclusive w.router.arp) {arp : ArpCache} {events : List Event} {fault : Option Fault}
    (hsend : (w.router.arp.insertArpEntry w.now (sourceMac packet)
      (arpHeader packet).arpSip).1.sendPendingPackets w.router.tables (arpHeader packet)
      (arpHeader packet).arpSip = (arp, events, fault))
    (hreleases : ReleasesQueue w (w.setArp arp (.learned (arpHeader packet).arpSip :: events))) :
    Exclusive arp := by
  have hgone := (hreleases (arpHeader packet).arpSip (by simp)).1
  have hlookup := lookup_sendPendingPackets (w.router.arp.insertArpEntry w.now
    (sourceMac packet) (arpHeader packet).arpSip).1 w.router.tables (arpHeader packet)
    (arpHeader packet).arpSip
  have hsub := sendPendingPackets_requests_sublist (w.router.arp.insertArpEntry w.now
    (sourceMac packet) (arpHeader packet).arpSip).1 w.router.tables (arpHeader packet)
    (arpHeader packet).arpSip
  rw [hsend] at hlookup hsub
  intro x hx
  by_cases hsip : (arpHeader packet).arpSip = x
  · rw [← hsip]
    exact hgone
  · refine findRequest_none_of_sublist (hsub.map _) (h x ?_)
    rw [hlookup, ArpCache.lookup_insertArpEntry, if_neg hsip, Option.or_none] at hx
    exact hx

theorem Outcome.exclusive (hcache : CacheOk w.router.arp) (hqueue : QueueOk w.router.arp)
    {arp : ArpCache} {events : List Event} {fault : Option Fault}
    (houtcome : Outcome w packet inIface arp events fault) (h : Exclusive w.router.arp)
    (hsafe : LearnsSafely w (.receive packet inIface)) : Exclusive arp := by
  have hreleases := (houtcome.releasesQueue_iff hcache hqueue).mpr hsafe
  have hsource : Accepted w.router.tables packet inIface →
      Exclusive (w.learns packet (ipHeader packet).ipSrc).1 := fun haccepted =>
    exclusive_learns h ((learnsSafely_source_iff haccepted).mp hsafe)
  cases houtcome with
  | ignored _ _ _ => exact h
  | overrun _ _ _ _ => exact h
  | request harp _ => exact exclusive_learns h ((learnsSafely_request_iff harp).mp hsafe)
  | requestForUs harp _ _ => exact exclusive_learns h ((learnsSafely_request_iff harp).mp hsafe)
  | replyKnown _ _ _ => exact h
  | reply _ _ _ _ _ hsend => exact exclusive_reply h hsend hreleases
  | icmpOverrun _ hicmp _ => exact hsource hicmp.accepted
  | echo _ hicmp _ _ _ _ => exact hsource hicmp.accepted
  | icmpError hicmp _ _ _ _ => exact hsource hicmp.accepted
  | icmpIgnored hicmp _ => exact hsource hicmp.accepted
  | localOther haccepted _ _ _ _ => exact hsource haccepted
  | noRoute htransit _ _ _ => exact hsource htransit.accepted
  | noHop htransit _ _ _ _ _ => exact hsource htransit.accepted
  | forwarded htransit _ _ _ _ _ _ _ _ => exact hsource htransit.accepted
  | queueNull htransit _ _ => exact hsource htransit.accepted
  | queued htransit hmissing iface _ =>
      intro x hx
      have hne : x ≠ (ipHeader packet).ipDst := by
        rintro rfl
        rw [show (((w.learns packet (ipHeader packet).ipSrc).1.queueRequest (ipHeader packet).ipDst
          packet iface.name).1.lookup (ipHeader packet).ipDst) = none from hmissing] at hx
        exact absurd hx (by decide)
      rw [findRequest_queueRequest hne]
      exact hsource htransit.accepted x hx

end

/-! ## Every run -/

theorem exclusive_ticker {cache : ArpCache} {t : RouterTables} {now : Nat} (h : Exclusive cache)
    (hfault : (cache.ticker t now).2.2 = none) : Exclusive (cache.ticker t now).1 := by
  intro ip hip
  refine findRequest_none_of_sublist ?_ (h ip ?_)
  · rw [ArpCache.ticker_arpRequests]
    exact checkRequests_ips_sublist ..
  · by_contra hmissing
    rw [Option.not_isSome_iff_eq_none] at hmissing
    rw [ArpCache.lookup_ticker_none hmissing hfault] at hip
    exact absurd hip (by decide)

theorem exclusive_step {w w' : World} {turn : Turn} (hcache : CacheOk w.router.arp)
    (hqueue : QueueOk w.router.arp) (h : Exclusive w.router.arp) (hstep : w.step turn = some w')
    (hsafe : LearnsSafely w turn) : Exclusive w'.router.arp := by
  cases turn with
  | receive packet inIface =>
      obtain ⟨arp, events, fault, rfl, houtcome, -⟩ := World.step_receive_outcome hstep
      exact houtcome.exclusive hcache hqueue h hsafe
  | tick =>
      obtain ⟨rfl, hfault⟩ := World.step_tick hstep
      exact exclusive_ticker h hfault
  | reset ports =>
      obtain rfl := Option.some.inj hstep
      intro ip hip
      rfl
  | elapse time =>
      obtain rfl := Option.some.inj hstep
      exact h

theorem not_learned_of_check {t : RouterTables} {now : Nat} {requests : List ArpRequest}
    (ip : UInt32) : Event.learned ip ∉ (checkRequests t now requests).2.1 := by
  intro hlearned
  obtain ⟨req, -, heq | ⟨iface, -, heq⟩⟩ := checkRequests_events hlearned <;> simp at heq

theorem releasesQueue_step_iff {w w' : World} {turn : Turn} (hcache : CacheOk w.router.arp)
    (hqueue : QueueOk w.router.arp) (hstep : w.step turn = some w') :
    ReleasesQueue w w' ↔ LearnsSafely w turn := by
  cases turn with
  | receive packet inIface =>
      obtain ⟨arp, events, fault, rfl, houtcome, -⟩ := World.step_receive_outcome hstep
      exact houtcome.releasesQueue_iff hcache hqueue
  | tick =>
      obtain ⟨rfl, -⟩ := World.step_tick hstep
      refine iff_of_true (releasesQueue_of_not_learned fun ip => ?_) trivial
      rw [ArpCache.ticker_outcome]
      exact not_learned_of_check ip
  | reset ports =>
      obtain rfl := Option.some.inj hstep
      refine iff_of_true (fun ip hip => ?_) trivial
      simp [World.eventsTo, World.reset] at hip
  | elapse time =>
      obtain rfl := Option.some.inj hstep
      refine iff_of_true (fun ip hip => ?_) trivial
      simp [World.eventsTo] at hip

/-- In every run, every step releases the queue of whomever it learns exactly when
every step learns safely, and then no address has both an entry and a request. -/
theorem queue_released_iff_learnsSafely {routingTable : RoutingTable}
    {ifNameToIpMap : List (String × UInt32)} {now : Nat} {turns : List Turn} {w : World}
    (hrun : run World.step (World.start routingTable ifNameToIpMap now) turns = some w) :
    (AlongRun World.step (fun w _ w' => ReleasesQueue w w')
        (World.start routingTable ifNameToIpMap now) turns ↔
      AlongRun World.step (fun w turn _ => LearnsSafely w turn)
        (World.start routingTable ifNameToIpMap now) turns) ∧
    (AlongRun World.step (fun w turn _ => LearnsSafely w turn)
        (World.start routingTable ifNameToIpMap now) turns → Exclusive w.router.arp) := by
  have hstart : System.Reachable routingTable ifNameToIpMap
      ⟨World.start routingTable ifNameToIpMap now, .idle⟩ := ⟨now, .refl _⟩
  constructor
  · exact alongRun_congr (fun _ _ _ hw _ hstep _ => System.Reachable.turn hw hstep)
      (fun _ _ _ hw _ hstep =>
        releasesQueue_step_iff (CacheOk.of_reachable hw) (QueueOk.of_reachable hw) hstep)
      (fun _ _ => trivial) hstart
  · intro hsafe
    have hempty : Exclusive (World.start routingTable ifNameToIpMap now).router.arp :=
      fun _ _ => rfl
    exact (AlongRun.invariant
      (P := fun w => System.Reachable routingTable ifNameToIpMap ⟨w, .idle⟩ ∧
        Exclusive w.router.arp)
      (fun w _ _ hw hstep hok => ⟨System.Reachable.turn hw.1 hstep,
        exclusive_step (CacheOk.of_reachable hw.1) (QueueOk.of_reachable hw.1) hw.2 hstep hok⟩)
      ⟨hstart, hempty⟩ hsafe hrun).2

theorem releasedRouter_iff :
    let start := World.start projectTable projectIps 0
    let turns : List Turn :=
      [.reset projectPorts, .receive (clientDatagram 64) "sw0-eth3",
        .receive (serverArp arpOpReply) "sw0-eth1"]
    (AlongRun World.step (fun w _ w' => ReleasesQueue w w') start turns ↔
      AlongRun World.step (fun w turn _ => LearnsSafely w turn) start turns) ∧
    (AlongRun World.step (fun w turn _ => LearnsSafely w turn) start turns →
      Exclusive releasedRouter.router.arp) :=
  queue_released_iff_learnsSafely run_releasedRouter

def blockedRouter : World := (waitingRouter.receive (serverArp arpOpRequest) "sw0-eth1").1

theorem blocked_by_arp_request :
    run World.step (World.start projectTable projectIps 0)
        [.reset projectPorts, .receive (clientDatagram 64) "sw0-eth3"] = some waitingRouter ∧
      waitingRouter.step (.receive (serverArp arpOpRequest) "sw0-eth1") = some blockedRouter ∧
      ¬ ReleasesQueue waitingRouter blockedRouter ∧ ¬ Exclusive blockedRouter.router.arp := by
  refine ⟨by decide +kernel, by decide +kernel, fun h => ?_, fun h => ?_⟩
  · exact absurd (h (inetAton 192 168 2 2) (by decide +kernel)).1 (by decide +kernel)
  · exact absurd (h (inetAton 192 168 2 2) (by decide +kernel)) (by decide +kernel)

end Cs118.Router
