import Cs118.Router.Proofs.Conservation
/-!
# How many ARP requests the router broadcasts

Each queued frame pays for five broadcasts.  A request spends at most five, and none is
opened without a frame, so the broadcasts for an address never outrun its frames.
-/

namespace Cs118.Router

open Cs118.Lib
open Cs118.Lib.Bytes
open Cs118.Lib.Keyed
open Cs118.Lib.Run

def Event.asks (ip : UInt32) : Event → Bool
  | .sent _ _ (.arpRequest x) => x = ip
  | _ => false

def askedFor (ip : UInt32) (trace : List Event) : Nat := trace.countP (Event.asks ip)

@[simp] theorem askedFor_append (ip : UInt32) (first second : List Event) :
    askedFor ip (first ++ second) = askedFor ip first + askedFor ip second :=
  List.countP_append

/-- The broadcasts that the request for `ip` may still make. -/
def credit (ip : UInt32) (requests : List ArpRequest) : Nat :=
  valueAt ArpRequest.ip (fun request => 5 - request.nTimesSent.toNat) 0 ip requests

theorem credit_cons (ip : UInt32) (req : ArpRequest) (rest : List ArpRequest) :
    credit ip (req :: rest) = if req.ip = ip then 5 - req.nTimesSent.toNat else credit ip rest :=
  rfl

theorem credit_of_not_mem {ip : UInt32} {requests : List ArpRequest}
    (h : ip ∉ requests.map (·.ip)) : credit ip requests = 0 :=
  valueAt_of_not_mem h

/-- Broadcasts made and still possible are paid for by the frames queued. -/
structure Funded (ip : UInt32) (before : List ArpRequest) (events : List Event)
    (after : List ArpRequest) : Prop where
  asked : askedFor ip events + credit ip after ≤
    credit ip before + 5 * (queuedFor ip events).length

namespace Funded

variable {ip : UInt32} {requests : List ArpRequest}

theorem append {trace events : List Event} {before after : List ArpRequest}
    (htrace : Funded ip [] trace before) (hevents : Funded ip before events after) :
    Funded ip [] (trace ++ events) after where
  asked := by
    have hfirst := htrace.asked
    have hsecond := hevents.asked
    rw [askedFor_append, queuedFor_append, List.length_append]
    omega

theorem of_le {events : List Event} {after : List ArpRequest}
    (hquiet : ∀ event ∈ events, event.asks ip = false) (h : credit ip after ≤ credit ip requests) :
    Funded ip requests events after where
  asked := by
    have hzero : askedFor ip events = 0 :=
      List.countP_eq_zero.mpr fun event hevent => by simp [hquiet event hevent]
    omega

theorem credit_pushPacket (ip x : UInt32) (pending : PendingPacket) (requests : List ArpRequest) :
    credit ip (pushPacket x pending requests).1 ≤
      credit ip requests + if x = ip then 5 else 0 := by
  induction requests with
  | nil =>
      rw [pushPacket, credit_cons]
      by_cases hx : x = ip <;> simp [hx, credit]
  | cons req rest ih =>
      rw [pushPacket]
      by_cases hreq : req.ip = x
      · rw [if_pos hreq, credit_cons, credit_cons]
        exact Nat.le_add_right _ _
      · rw [if_neg hreq, credit_cons, credit_cons]
        by_cases hip : req.ip = ip
        · rw [if_pos hip, if_pos hip]
          exact Nat.le_add_right _ _
        · rw [if_neg hip, if_neg hip]
          exact ih

theorem queued (x : UInt32) (packet : Buffer) (iface : String) :
    Funded ip requests [.queued x packet] (pushPacket x ⟨packet, iface⟩ requests).1 where
  asked := by
    have hcredit := credit_pushPacket ip x ⟨packet, iface⟩ requests
    have hasked : askedFor ip [.queued x packet] = 0 := rfl
    have hqueued : 5 * (queuedFor ip [.queued x packet]).length = if x = ip then 5 else 0 := by
      by_cases hx : x = ip <;> simp [queuedFor, Event.queues, hx]
    rw [hasked, hqueued, Nat.zero_add]
    exact hcredit

theorem credit_eraseP (hdistinct : (requests.map (·.ip)).Nodup) (ip x : UInt32) :
    credit ip (requests.eraseP fun req => req.ip = x) ≤ credit ip requests := by
  unfold credit
  rw [valueAt_eraseP hdistinct]
  split_ifs
  · exact Nat.zero_le _
  · exact Nat.le_refl _

theorem askedFor_checkRequests {t : RouterTables} {now : Nat} (hip : ip ∉ requests.map (·.ip)) :
    askedFor ip (checkRequests t now requests).2.1 = 0 := by
  rw [askedFor, List.countP_eq_zero]
  intro event hevent
  obtain ⟨req, hreq, rfl | ⟨iface, -, rfl⟩⟩ := checkRequests_events hevent
  · simp [Event.asks]
  · have hne : req.ip ≠ ip := fun heq => hip (heq ▸ List.mem_map_of_mem hreq)
    simpa [Event.asks] using hne

theorem handled {t : RouterTables} {now : Nat} {req next : ArpRequest} {events : List Event}
    (h : handleArpRequest t now req = .ok (some next, events)) :
    next.ip = req.ip ∧
      askedFor req.ip events + (5 - next.nTimesSent.toNat) ≤ 5 - req.nTimesSent.toNat ∧
        ∀ ip, req.ip ≠ ip → askedFor ip events = 0 := by
  rcases handleArpRequest_cases h with ⟨heq, rfl⟩ | ⟨-, heq, -⟩ | ⟨hlt, heq, iface, -, rfl⟩
  · rw [Option.some.inj heq]
    exact ⟨rfl, by simp [askedFor], fun ip _ => rfl⟩
  · cases heq
  · rw [Option.some.inj heq]
    rw [UInt32.lt_iff_toNat_lt] at hlt
    simp only [maxSentTime, UInt32.reduceToNat] at hlt
    have hsucc : (req.nTimesSent + 1).toNat = req.nTimesSent.toNat + 1 := by
      rw [UInt32.toNat_add]
      simp only [UInt32.reduceToNat]
      omega
    have hone : askedFor req.ip
        [.sent (arpRequestFrame iface req.ip) iface.name (.arpRequest req.ip)] = 1 := by
      simp [askedFor, Event.asks]
    refine ⟨rfl, ?_, fun ip hip => by simp [askedFor, Event.asks, hip]⟩
    dsimp only
    rw [hone, hsucc]
    omega

theorem checked {t : RouterTables} {now : Nat} (hdistinct : (requests.map (·.ip)).Nodup) :
    askedFor ip (checkRequests t now requests).2.1 + credit ip (checkRequests t now requests).1 ≤
      credit ip requests := by
  induction requests with
  | nil => exact Nat.le_refl 0
  | cons req rest ih =>
      rw [List.map_cons, List.nodup_cons] at hdistinct
      rw [checkRequests, credit_cons]
      rcases hreq : handleArpRequest t now req with fault | ⟨_ | next, events⟩
      · dsimp only
        rw [credit_cons]
        exact (Nat.zero_add _).le
      · have hquiet : askedFor ip events = 0 := by
          rcases handleArpRequest_cases hreq with ⟨heq, -⟩ | ⟨-, -, rfl⟩ | ⟨-, heq, -⟩
          · cases heq
          · rfl
          · cases heq
        dsimp only
        rw [hquiet, Nat.zero_add]
        by_cases hip : req.ip = ip
        · rw [credit_of_not_mem (hip ▸ hdistinct.1)]
          exact Nat.zero_le _
        · rw [if_neg hip]
      · obtain ⟨hnext, hspent, hothers⟩ := handled hreq
        dsimp only
        rw [askedFor_append, credit_cons, hnext]
        by_cases hip : req.ip = ip
        · rw [if_pos hip, if_pos hip, askedFor_checkRequests (hip ▸ hdistinct.1), ← hip]
          exact hspent
        · rw [if_neg hip, if_neg hip, hothers ip hip, Nat.zero_add]
          exact ih hdistinct.2

end Funded

structure Thrifty (w : World) : Prop where
  cache : CacheOk w.router.arp
  funded : ∀ ip, Funded ip [] w.trace w.router.arp.arpRequests

namespace Thrifty

theorem queuedFor_check {t : RouterTables} {now : Nat} {requests : List ArpRequest} (ip : UInt32) :
    queuedFor ip (checkRequests t now requests).2.1 = [] := by
  rw [queuedFor, List.flatMap_eq_nil_iff]
  intro event hevent
  obtain ⟨req, -, rfl | ⟨iface, -, rfl⟩⟩ := checkRequests_events hevent <;> rfl

theorem maintained : Maintained Thrifty where
  insert w mac ip hw hip :=
    ⟨hw.cache.insertArpEntry w.now mac hip, fun x => (hw.funded x).append
      (Funded.of_le (by simp [Event.asks]) (Nat.le_refl _))⟩
  queue w ip packet iface hw _ _ :=
    ⟨hw.cache.queueRequest ip packet iface, fun x => (hw.funded x).append
      (Funded.queued ip packet iface)⟩
  release w reply ip hw := by
    refine ⟨hw.cache.sendPendingPackets w.router.tables reply ip, fun x => (hw.funded x).append ?_⟩
    apply Funded.of_le
    · intro event hevent
      obtain ⟨-, -, pending, -, outIface, rfl⟩ := sendPendingPackets_events hevent
      rfl
    · simp only [World.perform, World.setArp_arp]
      rcases requests_sendPendingPackets w.router.arp w.router.tables reply ip with heq | heq
      · rw [heq]
      · rw [heq]
        exact Funded.credit_eraseP hw.cache.requestsDistinct x ip
  send w packet outIface purpose hw hsend := by
    refine ⟨hw.cache, fun x => (hw.funded x).append (Funded.of_le ?_ (Nat.le_refl _))⟩
    intro event hevent
    rw [List.mem_singleton.mp hevent]
    cases purpose with
    | arpRequest _ => exact hsend.elim
    | _ => rfl
  tick w hw hfault := by
    refine ⟨hw.cache.ticker hfault, fun x => (hw.funded x).append ⟨?_⟩⟩
    simp only [World.tick, World.setArp_arp, ArpCache.ticker_arpRequests, ArpCache.ticker_outcome,
      queuedFor_check]
    exact Funded.checked hw.cache.requestsDistinct
  reset w ports hw :=
    ⟨CacheOk.empty, fun x => (hw.funded x).append
      (Funded.of_le (by simp [Event.asks]) (Nat.zero_le _))⟩
  elapse _ _ hw := ⟨hw.cache, hw.funded⟩

end Thrifty

/-- In every reachable state, wherever the ticker passes fell: the router has broadcast at
most five ARP requests for an address for each frame it has queued for it. -/
theorem askedFor_le {routingTable : RoutingTable} {ifNameToIpMap : List (String × UInt32)}
    {s : System} (h : System.Reachable routingTable ifNameToIpMap s) (ip : UInt32) :
    askedFor ip s.world.trace ≤ 5 * (queuedFor ip s.world.trace).length := by
  have hthrifty : Thrifty s.world := Thrifty.maintained.reachable
    (fun _ => ⟨CacheOk.empty, fun _ => ⟨Nat.le_refl 0⟩⟩) h
  have hasked := (hthrifty.funded ip).asked
  have hnone : credit ip [] = 0 := rfl
  omega

/-- A frame that is given up has cost its five broadcasts. -/
theorem askedFor_le_givingUp :
    ∃ s, run System.step ⟨World.start projectTable projectIps 0, .idle⟩ givingUpActions = some s ∧
      askedFor (inetAton 192 168 2 2) s.world.trace = 5 ∧
      askedFor (inetAton 192 168 2 2) s.world.trace ≤
        5 * (queuedFor (inetAton 192 168 2 2) s.world.trace).length := by
  have hfound : (run System.step ⟨World.start projectTable projectIps 0, .idle⟩
      givingUpActions).any (fun s => askedFor (inetAton 192 168 2 2) s.world.trace = 5) = true := by
    decide +kernel
  obtain ⟨s, hs, hasked⟩ := Option.any_eq_true _ _ |>.mp hfound
  exact ⟨s, hs, of_decide_eq_true hasked, askedFor_le ⟨0, reach_of_run (by simp) hs⟩ _⟩

end Cs118.Router
