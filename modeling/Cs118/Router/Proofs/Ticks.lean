import Cs118.Router.Proofs.Exchange
/-!
# What a ticker pass does for the requests

The documentation of `periodicCheckArpRequestsAndCacheEntries` handles each queued
request.  The loop is left as soon as it has removed one, so the requests behind that one
wait for the next pass.
-/

namespace Cs118.Router

open Cs118.Lib
open Cs118.Lib.Bytes
open Cs118.Lib.Run

/-- Last sent more than one second ago. -/
def ArpRequest.Due (now : Nat) (req : ArpRequest) : Prop := seconds 1 < now - req.timeSent

def ArpRequest.Exhausted (req : ArpRequest) : Prop := maxSentTime ≤ req.nTimesSent

instance (now : Nat) (req : ArpRequest) : Decidable (req.Due now) :=
  inferInstanceAs (Decidable (seconds 1 < now - req.timeSent))

instance (req : ArpRequest) : Decidable req.Exhausted :=
  inferInstanceAs (Decidable (maxSentTime ≤ req.nTimesSent))

/-- What a pass should leave of a request. -/
def ArpRequest.served (now : Nat) (req : ArpRequest) : Option ArpRequest :=
  if req.Due now then
    if req.Exhausted then none
    else some { req with timeSent := now, nTimesSent := req.nTimesSent + 1 }
  else some req

def ArpRequest.broadcast (t : RouterTables) (req : ArpRequest) : Option (Buffer × String) :=
  (t.sendInterface req.ip).toOption.map fun iface => (arpRequestFrame iface req.ip, iface.name)

/-- All of `queue` has been served: each due request is removed or has had one ARP request
broadcast for it and been counted, and the others are as they were. -/
structure Served (t : RouterTables) (now : Nat) (queue : List ArpRequest)
    (outcome : List ArpRequest × List Event × Option Fault) : Prop where
  survives : outcome.2.2 = none
  requests : outcome.1 = queue.filterMap (ArpRequest.served now)
  broadcasts : sentFrames outcome.2.1 =
    (queue.filter fun req => req.Due now ∧ ¬ req.Exhausted).filterMap (ArpRequest.broadcast t)

def NoneBlocked (now : Nat) (requests : List ArpRequest) : Prop :=
  requests.Pairwise fun first later => first.Due now → first.Exhausted → ¬ later.Due now

section

variable {t : RouterTables} {now : Nat} {req : ArpRequest} {rest : List ArpRequest}

/-! ## One request -/

theorem handleArpRequest_fresh (h : ¬ req.Due now) :
    handleArpRequest t now req = .ok (some req, []) := if_neg h

theorem handleArpRequest_exhausted (hdue : req.Due now) (hexhausted : req.Exhausted) :
    handleArpRequest t now req = .ok (none, [.gaveUp req.ip req.frames]) := by
  unfold ArpRequest.Due ArpRequest.Exhausted at *
  rw [handleArpRequest, if_pos hdue, if_pos hexhausted]

theorem handleArpRequest_resent (hdue : req.Due now) (hmore : ¬ req.Exhausted) {iface : Interface}
    (hiface : t.sendInterface req.ip = .ok iface) :
    handleArpRequest t now req =
      .ok (some { req with timeSent := now, nTimesSent := req.nTimesSent + 1 },
        [.sent (arpRequestFrame iface req.ip) iface.name (.arpRequest req.ip)]) := by
  unfold ArpRequest.Due ArpRequest.Exhausted at *
  rw [handleArpRequest, if_pos hdue, if_neg hmore, hiface]

theorem served_fresh (h : ¬ req.Due now) : req.served now = some req := if_neg h

theorem served_exhausted (hdue : req.Due now) (hexhausted : req.Exhausted) :
    req.served now = none := by
  rw [ArpRequest.served, if_pos hdue, if_pos hexhausted]

theorem served_resent (hdue : req.Due now) (hmore : ¬ req.Exhausted) :
    req.served now = some { req with timeSent := now, nTimesSent := req.nTimesSent + 1 } := by
  rw [ArpRequest.served, if_pos hdue, if_neg hmore]

theorem not_due_of_served {next : ArpRequest} (h : req.served now = some next) :
    ¬ next.Due now := by
  by_cases hdue : req.Due now
  · by_cases hexhausted : req.Exhausted
    · rw [served_exhausted hdue hexhausted] at h
      exact absurd h (by simp)
    · rw [served_resent hdue hexhausted, Option.some.injEq] at h
      rw [← h, ArpRequest.Due, Nat.sub_self]
      exact Nat.not_lt_zero _
  · rw [served_fresh hdue, Option.some.injEq] at h
    exact h ▸ hdue

theorem filterMap_served_eq_self_iff {requests : List ArpRequest} :
    requests.filterMap (ArpRequest.served now) = requests ↔ ∀ req ∈ requests, ¬ req.Due now := by
  constructor
  · intro h req hreq
    rw [← h] at hreq
    obtain ⟨before, -, hserved⟩ := List.mem_filterMap.mp hreq
    exact not_due_of_served hserved
  · intro h
    induction requests with
    | nil => rfl
    | cons first rest ih =>
        rw [List.filterMap_cons_some (served_fresh (h first List.mem_cons_self)),
          ih fun req hreq => h req (List.mem_cons_of_mem _ hreq)]

/-! ## The loop -/

theorem served_loop_fresh (h : ¬ req.Due now) :
    Served t now (req :: rest) (checkRequests t now (req :: rest)) ↔
      Served t now rest (checkRequests t now rest) := by
  have hcheck : checkRequests t now (req :: rest) =
      (req :: (checkRequests t now rest).1, (checkRequests t now rest).2) := by
    rw [checkRequests, handleArpRequest_fresh h]
    rfl
  have hserved := served_fresh h
  rw [hcheck]
  constructor
  · rintro ⟨hsurvives, hrequests, hbroadcasts⟩
    rw [List.filterMap_cons_some hserved] at hrequests
    rw [List.filter_cons_of_neg (by simp [h])] at hbroadcasts
    exact ⟨hsurvives, (List.cons.inj hrequests).2, hbroadcasts⟩
  · rintro ⟨hsurvives, hrequests, hbroadcasts⟩
    refine ⟨hsurvives, ?_, ?_⟩
    · rw [List.filterMap_cons_some hserved, ← hrequests]
    · rw [List.filter_cons_of_neg (by simp [h]), ← hbroadcasts]

theorem served_loop_resent (hdue : req.Due now) (hmore : ¬ req.Exhausted) {iface : Interface}
    (hiface : t.sendInterface req.ip = .ok iface) :
    Served t now (req :: rest) (checkRequests t now (req :: rest)) ↔
      Served t now rest (checkRequests t now rest) := by
  have hcheck : checkRequests t now (req :: rest) =
      ({ req with timeSent := now, nTimesSent := req.nTimesSent + 1 } ::
          (checkRequests t now rest).1,
        .sent (arpRequestFrame iface req.ip) iface.name (.arpRequest req.ip) ::
          (checkRequests t now rest).2.1,
        (checkRequests t now rest).2.2) := by
    rw [checkRequests, handleArpRequest_resent hdue hmore hiface]
    rfl
  have hserved := served_resent hdue hmore
  have hbroadcast : req.broadcast t = some (arpRequestFrame iface req.ip, iface.name) := by
    rw [ArpRequest.broadcast, hiface]
    rfl
  have hsent : ∀ events, sentFrames
      (.sent (arpRequestFrame iface req.ip) iface.name (.arpRequest req.ip) :: events) =
        (arpRequestFrame iface req.ip, iface.name) :: sentFrames events := fun _ => rfl
  rw [hcheck]
  constructor
  · rintro ⟨hsurvives, hrequests, hbroadcasts⟩
    rw [List.filterMap_cons_some hserved] at hrequests
    rw [hsent, List.filter_cons_of_pos (by simp [hdue, hmore]),
      List.filterMap_cons_some hbroadcast] at hbroadcasts
    exact ⟨hsurvives, (List.cons.inj hrequests).2, (List.cons.inj hbroadcasts).2⟩
  · rintro ⟨hsurvives, hrequests, hbroadcasts⟩
    refine ⟨hsurvives, ?_, ?_⟩
    · rw [List.filterMap_cons_some hserved, ← hrequests]
    · rw [hsent, List.filter_cons_of_pos (by simp [hdue, hmore]),
        List.filterMap_cons_some hbroadcast, ← hbroadcasts]

/-- The loop ends at a request that it removes. -/
theorem served_loop_exhausted (hdue : req.Due now) (hexhausted : req.Exhausted) :
    Served t now (req :: rest) (checkRequests t now (req :: rest)) ↔
      ∀ later ∈ rest, ¬ later.Due now := by
  have hcheck : checkRequests t now (req :: rest) =
      (rest, [.gaveUp req.ip req.frames], none) := by
    rw [checkRequests, handleArpRequest_exhausted hdue hexhausted]
  rw [hcheck]
  constructor
  · rintro ⟨-, hrequests, -⟩
    rw [List.filterMap_cons_none (served_exhausted hdue hexhausted)] at hrequests
    exact filterMap_served_eq_self_iff.mp hrequests.symm
  · intro hrest
    refine ⟨rfl, ?_, ?_⟩
    · rw [List.filterMap_cons_none (served_exhausted hdue hexhausted),
        filterMap_served_eq_self_iff.mpr hrest]
    · rw [List.filter_cons_of_neg (by simp [hexhausted]),
        List.filter_eq_nil_iff.mpr fun later hlater => by simp [hrest later hlater]]
      rfl

theorem served_loop_iff {requests : List ArpRequest}
    (h : ∀ req ∈ requests, ∃ iface, t.sendInterface req.ip = .ok iface) :
    Served t now requests (checkRequests t now requests) ↔ NoneBlocked now requests := by
  unfold NoneBlocked
  induction requests with
  | nil => exact iff_of_true ⟨rfl, rfl, rfl⟩ List.Pairwise.nil
  | cons req rest ih =>
      have hrest := ih fun other hother => h other (List.mem_cons_of_mem _ hother)
      rw [List.pairwise_cons]
      by_cases hdue : req.Due now
      · by_cases hexhausted : req.Exhausted
        · rw [served_loop_exhausted hdue hexhausted]
          constructor
          · intro hlater
            refine ⟨fun later hmem _ _ => hlater later hmem, ?_⟩
            exact List.Pairwise.imp_of_mem (R := fun _ _ => True)
              (fun _ hmem _ _ _ => hlater _ hmem) (List.pairwise_of_forall fun _ _ => trivial)
          · exact fun hnone later hmem => hnone.1 later hmem hdue hexhausted
        · obtain ⟨iface, hiface⟩ := h req List.mem_cons_self
          rw [served_loop_resent hdue hexhausted hiface, hrest]
          exact ⟨fun hnone => ⟨fun _ _ _ hex => absurd hex hexhausted, hnone⟩, And.right⟩
      · rw [served_loop_fresh hdue, hrest]
        exact ⟨fun hnone => ⟨fun _ _ hd => absurd hd hdue, hnone⟩, And.right⟩

end

/-! ## The pass -/

/-- A pass serves every request exactly when none that is due stands behind one that it
removes. -/
theorem tick_serves_iff (t : RouterTables) (now : Nat) (cache : ArpCache)
    (h : ∀ req ∈ cache.arpRequests, ∃ iface, t.sendInterface req.ip = .ok iface) :
    Served t now cache.arpRequests
        ((cache.periodicCheckArpRequestsAndCacheEntries t now).1.arpRequests,
          (cache.periodicCheckArpRequestsAndCacheEntries t now).2) ↔
      NoneBlocked now cache.arpRequests := by
  rw [ArpCache.periodicCheck_checkRequests, served_loop_iff h]

def secondDatagram : Buffer :=
  clientFrame (projectMac 3) (inetAton 172 64 3 10) 64 0x11 0 (List.replicate 8 0)

/-- Four requests: fresh, due, exhausted and fresh again. -/
def mixedQueue : List ArpRequest :=
  [⟨inetAton 172 64 3 10, seconds 12, 1, [⟨secondDatagram, "sw0-eth3"⟩]⟩,
    ⟨inetAton 10 0 1 100, seconds 10, 2, [⟨secondDatagram, "sw0-eth2"⟩]⟩,
    ⟨inetAton 192 168 2 2, seconds 10, 5, [⟨clientDatagram 64, "sw0-eth3"⟩]⟩,
    ⟨inetAton 192 168 2 3, seconds 12, 4, [⟨clientDatagram 64, "sw0-eth3"⟩]⟩]

theorem tick_serves_mixedQueue :
    Served projectRouter.router.tables (seconds 12) mixedQueue
      ((ArpCache.periodicCheckArpRequestsAndCacheEntries ⟨[], mixedQueue⟩
          projectRouter.router.tables (seconds 12)).1.arpRequests,
        (ArpCache.periodicCheckArpRequestsAndCacheEntries ⟨[], mixedQueue⟩
          projectRouter.router.tables (seconds 12)).2) := by
  refine (tick_serves_iff _ _ ⟨[], mixedQueue⟩ ?_).mpr (by unfold NoneBlocked; decide +kernel)
  intro req hreq
  simp only [mixedQueue, List.mem_cons, List.not_mem_nil, or_false] at hreq
  rcases hreq with rfl | rfl | rfl | rfl
  · exact ⟨⟨"sw0-eth2", projectMac 2, inetAton 172 64 3 1⟩, by rfl⟩
  · exact ⟨⟨"sw0-eth3", projectMac 3, inetAton 10 0 1 1⟩, by rfl⟩
  · exact ⟨⟨"sw0-eth1", projectMac 1, inetAton 192 168 2 1⟩, by rfl⟩
  · exact ⟨⟨"sw0-eth1", projectMac 1, inetAton 192 168 2 1⟩, by rfl⟩

/-- `server1` never answers, and a datagram for `server2` arrives after the fifth request. -/
def unansweredTurns : List Turn :=
  let resent : List Turn := [.elapse (seconds 2), .tick]
  [.reset projectPorts, .receive (clientDatagram 64) "sw0-eth3"] ++
    (List.replicate 5 resent).flatten ++
    [.receive secondDatagram "sw0-eth3", .elapse (seconds 2)]

def unansweredQueue : List ArpRequest :=
  [⟨inetAton 192 168 2 2, seconds 10, 5, [⟨clientDatagram 64, "sw0-eth3"⟩]⟩,
    ⟨inetAton 172 64 3 10, 0, 0, [⟨secondDatagram, "sw0-eth3"⟩]⟩]

/-- The pass that removes the request for `server1` sends none for `server2`. -/
theorem request_behind_removed_one_waits :
    ∃ w, World.Reachable projectTable projectIps w ∧
      (∀ req ∈ w.router.arp.arpRequests, ∃ iface, w.router.tables.sendInterface req.ip = .ok iface) ∧
      ¬ Served w.router.tables w.now w.router.arp.arpRequests
        ((w.router.arp.periodicCheckArpRequestsAndCacheEntries w.router.tables w.now).1.arpRequests,
          (w.router.arp.periodicCheckArpRequestsAndCacheEntries w.router.tables w.now).2) := by
  have hrun : (run World.step (World.start projectTable projectIps 0) unansweredTurns).any
      (fun w => w.router.arp.arpRequests = unansweredQueue ∧ w.now = seconds 12 ∧
        w.router.tables = projectRouter.router.tables) = true := by
    decide +kernel
  obtain ⟨w, hw, hstate⟩ := (Option.any_eq_true _ _).mp hrun
  obtain ⟨hqueue, hnow, htables⟩ := of_decide_eq_true hstate
  refine ⟨w, ⟨0, unansweredTurns, hw⟩, ?_, fun hserved => ?_⟩
  · rw [hqueue, htables]
    intro req hreq
    rcases List.mem_pair.mp hreq with rfl | rfl
    · exact ⟨⟨"sw0-eth1", projectMac 1, inetAton 192 168 2 1⟩, by rfl⟩
    · exact ⟨⟨"sw0-eth2", projectMac 2, inetAton 172 64 3 1⟩, by rfl⟩
  · rw [ArpCache.periodicCheck_checkRequests, hqueue, hnow, htables] at hserved
    have hrequests : (checkRequests projectRouter.router.tables (seconds 12) unansweredQueue).1 =
        unansweredQueue.filterMap (ArpRequest.served (seconds 12)) := hserved.requests
    exact absurd hrequests (by decide +kernel)

end Cs118.Router
