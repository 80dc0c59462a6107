import Cs118.Router.Proofs.CacheInvariant
/-!
# Conservation of the queued frames

For every address the frames that were ever queued are, in their order, those
that have been retired (sent on, given up or cleared) followed by those that
still wait.  A request is given up after five broadcasts.
-/

namespace Cs118.Router

open Cs118.Lib
open Cs118.Lib.Bytes
open Cs118.Lib.Keyed
open Cs118.Lib.Run

def pendingFor (ip : UInt32) (requests : List ArpRequest) : List Buffer :=
  valueAt ArpRequest.ip ArpRequest.frames [] ip requests

def timesSentFor (ip : UInt32) (requests : List ArpRequest) : Nat :=
  valueAt ArpRequest.ip (fun request => request.nTimesSent.toNat) 0 ip requests

namespace Event

def queues (ip : UInt32) : Event → List Buffer
  | .queued x packet => if x = ip then [packet] else []
  | _ => []

/-- The frames for `ip` that stop waiting. -/
def retires (ip : UInt32) : Event → List Buffer
  | .sent _ _ (.released x packet) => if x = ip then [packet] else []
  | .gaveUp x packets => if x = ip then packets else []
  | .cleared requests => pendingFor ip requests
  | _ => []

/-- The number of broadcasts for the current request for `ip`, after `attempts` of them. -/
def counts (ip : UInt32) (attempts : Nat) : Event → Nat
  | .sent _ _ (.arpRequest x) => if x = ip then attempts + 1 else attempts
  | .sent _ _ (.released x _) => if x = ip then 0 else attempts
  | .gaveUp x _ => if x = ip then 0 else attempts
  | .cleared _ => 0
  | _ => attempts

/-- The frame that leaves is the one that waited, behind a new Ethernet header. -/
def Carries : Event → Prop
  | .sent packet _ (.released _ waiting) =>
    packet.length = waiting.length ∧ packet.drop 14 = waiting.drop 14
  | _ => True

end Event

def queuedFor (ip : UInt32) (trace : List Event) : List Buffer := trace.flatMap (Event.queues ip)

def retiredFor (ip : UInt32) (trace : List Event) : List Buffer := trace.flatMap (Event.retires ip)

def attemptsFor (ip : UInt32) (attempts : Nat) (trace : List Event) : Nat :=
  trace.foldl (Event.counts ip) attempts

/-- A request for `ip` is given up after five broadcasts only. -/
def GivesUpLate (ip : UInt32) : Nat → List Event → Prop
  | _, [] => True
  | attempts, event :: rest =>
    (∀ packets, event = .gaveUp ip packets → attempts = maxSentTime.toNat) ∧
      GivesUpLate ip (event.counts ip attempts) rest

@[simp] theorem queuedFor_append (ip : UInt32) (first second : List Event) :
    queuedFor ip (first ++ second) = queuedFor ip first ++ queuedFor ip second :=
  List.flatMap_append

@[simp] theorem retiredFor_append (ip : UInt32) (first second : List Event) :
    retiredFor ip (first ++ second) = retiredFor ip first ++ retiredFor ip second :=
  List.flatMap_append

@[simp] theorem attemptsFor_append (ip : UInt32) (attempts : Nat) (first second : List Event) :
    attemptsFor ip attempts (first ++ second) =
      attemptsFor ip (attemptsFor ip attempts first) second :=
  List.foldl_append

theorem givesUpLate_append {ip : UInt32} {attempts : Nat} {first second : List Event} :
    GivesUpLate ip attempts (first ++ second) ↔
      GivesUpLate ip attempts first ∧
        GivesUpLate ip (attemptsFor ip attempts first) second := by
  induction first generalizing attempts with
  | nil => simp [GivesUpLate, attemptsFor]
  | cons event first ih => simp [GivesUpLate, attemptsFor, ih, and_assoc]

/-- What the trace says about `ip`, and how it compares with the requests. -/
structure Accounted (ip : UInt32) (requests : List ArpRequest) (trace : List Event) : Prop where
  balance : queuedFor ip trace = retiredFor ip trace ++ pendingFor ip requests
  attempts : attemptsFor ip 0 trace = timesSentFor ip requests
  givesUpLate : GivesUpLate ip 0 trace

structure Moves (ip : UInt32) (before : List ArpRequest) (events : List Event)
    (after : List ArpRequest) : Prop where
  balance : pendingFor ip before ++ queuedFor ip events =
    retiredFor ip events ++ pendingFor ip after
  attempts : attemptsFor ip (timesSentFor ip before) events = timesSentFor ip after
  givesUpLate : GivesUpLate ip (timesSentFor ip before) events

theorem Accounted.append {ip : UInt32} {before after : List ArpRequest}
    {trace events : List Event} (h : Accounted ip before trace) (hmoves : Moves ip before events after) :
    Accounted ip after (trace ++ events) where
  balance := by
    rw [queuedFor_append, h.balance, List.append_assoc, hmoves.balance, retiredFor_append,
      List.append_assoc]
  attempts := by rw [attemptsFor_append, h.attempts, hmoves.attempts]
  givesUpLate := by
    rw [givesUpLate_append, h.attempts]
    exact ⟨h.givesUpLate, hmoves.givesUpLate⟩

structure Event.Quiet (ip : UInt32) (event : Event) : Prop where
  queues : event.queues ip = []
  retires : event.retires ip = []
  counts : ∀ attempts, event.counts ip attempts = attempts
  stays : ∀ packets, event ≠ .gaveUp ip packets

namespace Moves

variable {ip : UInt32} {requests : List ArpRequest}

theorem nil : Moves ip requests [] requests :=
  ⟨by simp [queuedFor, retiredFor], rfl, trivial⟩

theorem trans {mid after : List ArpRequest} {first second : List Event}
    (hfirst : Moves ip requests first mid) (hsecond : Moves ip mid second after) :
    Moves ip requests (first ++ second) after where
  balance := by
    rw [queuedFor_append, retiredFor_append, ← List.append_assoc, hfirst.balance,
      List.append_assoc, hsecond.balance, List.append_assoc]
  attempts := by rw [attemptsFor_append, hfirst.attempts, hsecond.attempts]
  givesUpLate := by
    rw [givesUpLate_append, hfirst.attempts]
    exact ⟨hfirst.givesUpLate, hsecond.givesUpLate⟩

theorem quiet {event : Event} (h : event.Quiet ip) : Moves ip requests [event] requests where
  balance := by simp [queuedFor, retiredFor, h.queues, h.retires]
  attempts := h.counts _
  givesUpLate := ⟨fun packets heq => absurd heq (h.stays packets), trivial⟩

theorem quiets {events : List Event} (h : ∀ event ∈ events, event.Quiet ip) :
    Moves ip requests events requests := by
  induction events with
  | nil => exact nil
  | cons event events ih =>
      exact (quiet (h event (by simp))).trans
        (ih fun other hother => h other (List.mem_cons_of_mem _ hother))

theorem learned (x : UInt32) : Moves ip requests [.learned x] requests :=
  quiet ⟨rfl, rfl, fun _ => rfl, fun _ => by simp⟩

theorem sent {packet : Buffer} (outIface : String) {purpose : Purpose}
    (h : Sendable packet purpose) :
    Moves ip requests [.sent packet outIface purpose] requests := by
  cases purpose with
  | arpRequest _ => exact h.elim
  | released _ _ => exact h.elim
  | _ => exact quiet ⟨rfl, rfl, fun _ => rfl, fun _ => by simp⟩

theorem cleared : Moves ip requests [.cleared requests] [] where
  balance := by simp [queuedFor, retiredFor, Event.queues, Event.retires, pendingFor]
  attempts := rfl
  givesUpLate := ⟨by simp, trivial⟩

/-! ### Queueing -/

theorem pendingFor_pushPacket (ip x : UInt32) (pending : PendingPacket)
    (requests : List ArpRequest) :
    pendingFor ip (pushPacket x pending requests).1 =
      pendingFor ip requests ++ if x = ip then [pending.packet] else [] := by
  induction requests with
  | nil =>
      rw [pendingFor, pushPacket, valueAt_cons]
      split_ifs <;> rfl
  | cons request rest ih =>
      unfold pushPacket
      by_cases hx : request.ip = x
      · rw [if_pos hx]
        simp only [pendingFor, valueAt_cons, hx]
        split_ifs <;> simp [ArpRequest.frames]
      · rw [if_neg hx]
        simp only [pendingFor, valueAt_cons] at ih ⊢
        by_cases hip : request.ip = ip
        · rw [if_pos hip, if_pos hip, if_neg (by rw [← hip]; exact Ne.symm hx), List.append_nil]
        · rw [if_neg hip, if_neg hip, ih]

theorem timesSentFor_pushPacket (ip x : UInt32) (pending : PendingPacket)
    (requests : List ArpRequest) :
    timesSentFor ip (pushPacket x pending requests).1 = timesSentFor ip requests := by
  induction requests with
  | nil =>
      rw [timesSentFor, pushPacket, valueAt_cons]
      split_ifs <;> rfl
  | cons request rest ih =>
      unfold pushPacket
      by_cases hx : request.ip = x
      · rw [if_pos hx]
        rfl
      · rw [if_neg hx]
        simp only [timesSentFor, valueAt_cons] at ih ⊢
        rw [ih]

theorem queued (x : UInt32) (packet : Buffer) (iface : String) :
    Moves ip requests [.queued x packet] (pushPacket x ⟨packet, iface⟩ requests).1 where
  balance := by simp [queuedFor, retiredFor, Event.queues, Event.retires, pendingFor_pushPacket]
  attempts := by rw [timesSentFor_pushPacket]; rfl
  givesUpLate := ⟨by simp, trivial⟩

/-! ### Sending the pending packets -/

section releases

variable (ip x : UInt32) (reply : ArpHdr) (outIface : String) (packets : List PendingPacket)

theorem queuedFor_releases : queuedFor ip (releases reply outIface x packets) = [] := by
  simp [queuedFor, releases, Event.queues, List.flatMap_map]

theorem retiredFor_releases :
    retiredFor ip (releases reply outIface x packets) =
      if x = ip then packets.map (·.packet) else [] := by
  induction packets with
  | nil => simp [retiredFor, releases]
  | cons pending packets ih =>
      simp only [retiredFor, releases, List.map_cons, List.flatMap_cons] at ih ⊢
      rw [ih, Event.retires]
      split_ifs <;> rfl

theorem attemptsFor_releases_self (attempts : Nat) (hpackets : packets ≠ []) :
    attemptsFor ip attempts (releases reply outIface ip packets) = 0 := by
  have hzero : ∀ packets, attemptsFor ip 0 (releases reply outIface ip packets) = 0 := by
    intro packets
    induction packets with
    | nil => rfl
    | cons pending packets ih => simpa [attemptsFor, releases, Event.counts] using ih
  cases packets with
  | nil => exact absurd rfl hpackets
  | cons pending packets => simpa [attemptsFor, releases, Event.counts] using hzero packets

theorem attemptsFor_releases_other (attempts : Nat) (hx : x ≠ ip) :
    attemptsFor ip attempts (releases reply outIface x packets) = attempts := by
  induction packets with
  | nil => rfl
  | cons pending packets ih => simpa [attemptsFor, releases, Event.counts, hx] using ih

theorem givesUpLate_releases (attempts : Nat) :
    GivesUpLate ip attempts (releases reply outIface x packets) := by
  induction packets generalizing attempts with
  | nil => trivial
  | cons pending packets ih => exact ⟨by simp, ih _⟩

end releases

theorem released (hdistinct : (requests.map (·.ip)).Nodup) {request : ArpRequest}
    (hrequest : request ∈ requests) (hpackets : request.packets ≠ []) (reply : ArpHdr)
    (outIface : String) :
    Moves ip requests (releases reply outIface request.ip request.packets)
      (requests.eraseP fun other => other.ip = request.ip) := by
  refine ⟨?_, ?_, givesUpLate_releases ..⟩
  · rw [queuedFor_releases, retiredFor_releases, pendingFor, pendingFor, valueAt_eraseP hdistinct,
      List.append_nil]
    by_cases hip : request.ip = ip
    · rw [if_pos hip, if_pos hip.symm, ← hip, valueAt_of_mem hdistinct hrequest, List.append_nil]
      rfl
    · rw [if_neg hip, if_neg (Ne.symm hip), List.nil_append]
  · rw [timesSentFor, timesSentFor, valueAt_eraseP hdistinct]
    by_cases hip : request.ip = ip
    · rw [if_pos hip.symm, hip, attemptsFor_releases_self _ _ _ _ _ hpackets]
    · rw [if_neg (Ne.symm hip), attemptsFor_releases_other _ _ _ _ _ _ hip]

/-! ### The pass over the requests -/

theorem checkRequests_quiet {t : RouterTables} {now : Nat} (hip : ip ∉ requests.map (·.ip)) :
    ∀ event ∈ (checkRequests t now requests).2.1, event.Quiet ip := by
  intro event hevent
  obtain ⟨req, hreq, hcases⟩ := checkRequests_events hevent
  have hne : req.ip ≠ ip := fun heq => hip (heq ▸ List.mem_map_of_mem hreq)
  rcases hcases with rfl | ⟨iface, -, rfl⟩
  · exact ⟨rfl, by simp [Event.retires, hne], by simp [Event.counts, hne], by simp [hne]⟩
  · exact ⟨rfl, rfl, by simp [Event.counts, hne], by simp⟩

theorem gaveUp {req : ArpRequest} {rest : List ArpRequest}
    (hdistinct : ((req :: rest).map (·.ip)).Nodup) (htimes : req.nTimesSent = maxSentTime) :
    Moves ip (req :: rest) [.gaveUp req.ip req.frames] rest := by
  rw [List.map_cons, List.nodup_cons] at hdistinct
  by_cases hip : req.ip = ip
  · subst hip
    refine ⟨?_, ?_, ?_, trivial⟩
    · rw [pendingFor, pendingFor, valueAt_cons, if_pos rfl, valueAt_of_not_mem hdistinct.1]
      simp [queuedFor, retiredFor, Event.queues, Event.retires]
    · rw [timesSentFor, timesSentFor, valueAt_of_not_mem hdistinct.1]
      simp [attemptsFor, Event.counts]
    · intro _ _
      rw [timesSentFor, valueAt_cons, if_pos rfl, htimes]
  · have hquiet : (Event.gaveUp req.ip req.frames).Quiet ip :=
      ⟨rfl, by simp [Event.retires, hip], by simp [Event.counts, hip], by simp [hip]⟩
    have hmoves : Moves ip rest _ rest := quiet hquiet
    refine ⟨?_, ?_, ?_⟩
    · rw [pendingFor, valueAt_cons, if_neg hip]
      exact hmoves.balance
    · rw [timesSentFor, valueAt_cons, if_neg hip]
      exact hmoves.attempts
    · rw [timesSentFor, valueAt_cons, if_neg hip]
      exact hmoves.givesUpLate

theorem broadcast {req : ArpRequest} {rest : List ArpRequest} (packet : Buffer)
    (outIface : String) (now : Nat) (htimes : req.nTimesSent < maxSentTime) :
    Moves ip (req :: rest) [.sent packet outIface (.arpRequest req.ip)]
      ({ req with timeSent := now, nTimesSent := req.nTimesSent + 1 } :: rest) := by
  have hsucc : (req.nTimesSent + 1).toNat = req.nTimesSent.toNat + 1 := by
    rw [UInt32.lt_iff_toNat_lt] at htimes
    simp only [maxSentTime, UInt32.reduceToNat] at htimes
    rw [UInt32.toNat_add]
    simp only [UInt32.reduceToNat]
    omega
  refine ⟨?_, ?_, by simp, trivial⟩
  · simp [queuedFor, retiredFor, Event.queues, Event.retires, pendingFor, valueAt_cons,
      ArpRequest.frames]
  · rw [timesSentFor, timesSentFor, valueAt_cons, valueAt_cons]
    by_cases hip : req.ip = ip
    · simp [attemptsFor, Event.counts, hip, hsucc]
    · simp [attemptsFor, Event.counts, hip]

/-- Events about the other requests move nothing at the first one. -/
theorem under {req : ArpRequest} {rest rest' : List ArpRequest} {events : List Event}
    (hquiet : ip = req.ip → ∀ event ∈ events, event.Quiet ip)
    (hrest : Moves ip rest events rest') : Moves ip (req :: rest) events (req :: rest') := by
  by_cases hip : req.ip = ip
  · have hmoves : Moves ip (req :: rest) events (req :: rest) := quiets (hquiet hip.symm)
    refine ⟨?_, ?_, hmoves.givesUpLate⟩
    · rw [hmoves.balance, pendingFor, pendingFor, valueAt_cons, valueAt_cons, if_pos hip, if_pos hip]
    · rw [hmoves.attempts, timesSentFor, timesSentFor, valueAt_cons, valueAt_cons, if_pos hip,
        if_pos hip]
  · refine ⟨?_, ?_, ?_⟩
    · rw [pendingFor, pendingFor, valueAt_cons, valueAt_cons, if_neg hip, if_neg hip]
      exact hrest.balance
    · rw [timesSentFor, timesSentFor, valueAt_cons, valueAt_cons, if_neg hip, if_neg hip]
      exact hrest.attempts
    · rw [timesSentFor, valueAt_cons, if_neg hip]
      exact hrest.givesUpLate

theorem checked {t : RouterTables} {now : Nat} (hdistinct : (requests.map (·.ip)).Nodup)
    (htimes : ∀ request ∈ requests, request.nTimesSent ≤ maxSentTime) :
    Moves ip requests (checkRequests t now requests).2.1 (checkRequests t now requests).1 := by
  induction requests with
  | nil => exact nil
  | cons req rest ih =>
      have hnodup := hdistinct
      rw [List.map_cons, List.nodup_cons] at hnodup
      have hrest := ih hnodup.2 fun request hrequest => htimes request (List.mem_cons_of_mem _ hrequest)
      have hunder : ∀ next : ArpRequest, next.ip = req.ip →
          Moves ip (next :: rest) (checkRequests t now rest).2.1
            (next :: (checkRequests t now rest).1) := fun next hnext =>
        under (fun hip => checkRequests_quiet (by rw [hip, hnext]; exact hnodup.1)) hrest
      unfold checkRequests
      rcases hreq : handleArpRequest t now req with fault | ⟨_ | next, first⟩
      · exact nil
      · rcases handleArpRequest_cases hreq with ⟨hnext, -⟩ | ⟨hmax, -, rfl⟩ | ⟨-, hnext, -⟩
        · simp at hnext
        · exact gaveUp hdistinct (UInt32.le_antisymm (htimes req (by simp)) hmax)
        · simp at hnext
      · rcases handleArpRequest_cases hreq with ⟨hnext, rfl⟩ | ⟨-, hnext, -⟩ |
          ⟨hlt, hnext, iface, -, rfl⟩
        · obtain rfl := Option.some.inj hnext
          exact hunder next rfl
        · simp at hnext
        · obtain rfl := Option.some.inj hnext
          exact (broadcast _ _ now hlt).trans (hunder _ rfl)

end Moves

/-! ## Every run -/

structure Ledger (w : World) : Prop where
  cache : CacheOk w.router.arp
  queue : QueueOk w.router.arp
  accounted : ∀ ip, Accounted ip w.router.arp.arpRequests w.trace
  carried : ∀ event ∈ w.trace, event.Carries

namespace Ledger

variable {w : World}

theorem start (routingTable : RoutingTable) (ifNameToIpMap : List (String × UInt32)) (now : Nat) :
    Ledger (World.start routingTable ifNameToIpMap now) where
  cache := CacheOk.empty
  queue := fun _ hrequest => by simp [World.start, ArpCache.empty] at hrequest
  accounted := fun _ => ⟨rfl, rfl, trivial⟩
  carried := fun _ hevent => by simp [World.start] at hevent

theorem of_moves {arp : ArpCache} {events : List Event} (h : Ledger w) (hcache : CacheOk arp)
    (hqueue : QueueOk arp)
    (hmoves : ∀ ip, Moves ip w.router.arp.arpRequests events arp.arpRequests)
    (hcarried : ∀ event ∈ events, event.Carries) : Ledger (w.setArp arp events) where
  cache := hcache
  queue := hqueue
  accounted := fun ip => (h.accounted ip).append (hmoves ip)
  carried := fun event hevent => (List.mem_append.mp hevent).elim (h.carried event) (hcarried event)

theorem release (h : Ledger w) (reply : ArpHdr) (dstIp : UInt32) :
    Ledger (w.perform (.sendPendingPackets reply dstIp)).1 := by
  have hcache := h.cache.sendPendingPackets w.router.tables reply dstIp
  have hqueue := h.queue.sendPendingPackets w.router.tables reply dstIp
  simp only [World.perform]
  rcases sendPendingPackets_cases h.cache h.queue w.router.tables reply dstIp with
    ⟨-, heq⟩ | ⟨request, fault, -, -, heq⟩ | ⟨request, iface, hfind, -, heq⟩ <;>
    rw [heq] at hcache hqueue ⊢
  · exact h.of_moves hcache hqueue (fun _ => Moves.nil) (by simp)
  · exact h.of_moves hcache hqueue (fun _ => Moves.nil) (by simp)
  · obtain ⟨hmem, rfl⟩ := ArpCache.findRequest_eq_some hfind
    refine h.of_moves hcache hqueue (fun ip => ?_) ?_
    · exact Moves.released h.cache.requestsDistinct hmem (h.cache.packetsNonempty request hmem)
        reply iface.name
    · intro event hevent
      obtain ⟨pending, hpending, rfl⟩ := List.mem_map.mp hevent
      have hfits := (h.queue request hmem pending hpending).fits
      exact ⟨length_releaseFrame reply (by omega), drop_releaseFrame reply pending.packet⟩

theorem carries_of_check {t : RouterTables} {now : Nat} {requests : List ArpRequest} :
    ∀ event ∈ (checkRequests t now requests).2.1, event.Carries := by
  intro event hevent
  obtain ⟨req, -, rfl | ⟨iface, -, rfl⟩⟩ := checkRequests_events hevent <;> trivial

theorem maintained : Maintained Ledger where
  insert w mac ip hw hip :=
    hw.of_moves (hw.cache.insertArpEntry w.now mac hip) hw.queue (fun _ => Moves.learned ip)
      (by simp [Event.Carries])
  queue w ip packet iface hw _ hpacket :=
    hw.of_moves (hw.cache.queueRequest ip packet iface) (hw.queue.queueRequest hpacket iface)
      (fun _ => Moves.queued ip packet iface) (by simp [Event.Carries])
  release w reply ip hw := hw.release reply ip
  send w packet outIface purpose hw hsend := by
    refine hw.of_moves hw.cache hw.queue (fun _ => Moves.sent outIface hsend) ?_
    cases purpose with
    | released _ _ => exact hsend.elim
    | _ => simp [Event.Carries]
  tick w hw hfault := by
    refine hw.of_moves (hw.cache.ticker hfault) (hw.queue.ticker _ _) (fun ip => ?_) ?_
    · rw [ArpCache.ticker_arpRequests, ArpCache.ticker_outcome]
      exact Moves.checked hw.cache.requestsDistinct hw.cache.nTimesSent_le
    · rw [ArpCache.ticker_outcome]
      exact carries_of_check
  reset w ports hw :=
    { cache := CacheOk.empty
      queue := QueueOk.maintained.reset w ports hw.queue
      accounted := fun ip => (hw.accounted ip).append Moves.cleared
      carried := fun event hevent => (List.mem_append.mp hevent).elim (hw.carried event)
        fun hnew => by rw [List.mem_singleton.mp hnew]; trivial }
  elapse _ _ hw := ⟨hw.cache, hw.queue, hw.accounted, hw.carried⟩

theorem of_reachable {routingTable : RoutingTable} {ifNameToIpMap : List (String × UInt32)}
    {s : System} (h : System.Reachable routingTable ifNameToIpMap s) : Ledger s.world :=
  maintained.reachable (start routingTable ifNameToIpMap) h

end Ledger

theorem GivesUpLate.attempts_eq {ip : UInt32} {attempts : Nat} {before after : List Event}
    {packets : List Buffer}
    (h : GivesUpLate ip attempts (before ++ .gaveUp ip packets :: after)) :
    attemptsFor ip attempts before = 5 :=
  (givesUpLate_append.mp h).2.1 packets rfl

/-- Conservation: at any moment of any run the frames queued for an address are
those retired, in the same order, and then those of its single request. -/
theorem queue_conservation {routingTable : RoutingTable} {ifNameToIpMap : List (String × UInt32)}
    {s : System} (h : System.Reachable routingTable ifNameToIpMap s) :
    (s.world.router.arp.arpRequests.map (·.ip)).Nodup ∧
    (∀ event ∈ s.world.trace, event.Carries) ∧
    ∀ ip,
      queuedFor ip s.world.trace =
        retiredFor ip s.world.trace ++ pendingFor ip s.world.router.arp.arpRequests ∧
      ∀ before packets after, s.world.trace = before ++ .gaveUp ip packets :: after →
        attemptsFor ip 0 before = 5 := by
  have hledger := Ledger.of_reachable h
  refine ⟨hledger.cache.requestsDistinct, hledger.carried, fun ip => ?_⟩
  have haccount := hledger.accounted ip
  refine ⟨haccount.balance, fun before packets after htrace => ?_⟩
  have hlate := haccount.givesUpLate
  rw [htrace] at hlate
  exact hlate.attempts_eq

/-- A datagram is queued between two ticker passes and given up after five broadcasts. -/
def givingUpActions : List Action :=
  [.reset projectPorts, .receive (clientDatagram 64) "sw0-eth3", .call, .call, .tick, .call,
    .call] ++ (List.replicate 6 [.elapse (seconds 2), .tick]).flatten

theorem queue_conservation_givingUp :
    ∃ s, run System.step ⟨World.start projectTable projectIps 0, .idle⟩ givingUpActions = some s ∧
      (s.world.router.arp.arpRequests.map (·.ip)).Nodup ∧
      (∀ event ∈ s.world.trace, event.Carries) ∧
      ∀ ip,
        queuedFor ip s.world.trace =
          retiredFor ip s.world.trace ++ pendingFor ip s.world.router.arp.arpRequests ∧
        ∀ before packets after, s.world.trace = before ++ .gaveUp ip packets :: after →
          attemptsFor ip 0 before = 5 := by
  obtain ⟨s, hs⟩ := Option.isSome_iff_exists.mp (by decide +kernel :
    (run System.step ⟨World.start projectTable projectIps 0, .idle⟩ givingUpActions).isSome)
  exact ⟨s, hs, queue_conservation ⟨0, reach_of_run (by simp) hs⟩⟩

end Cs118.Router
