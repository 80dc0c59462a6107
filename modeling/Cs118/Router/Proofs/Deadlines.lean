import Mathlib.Tactic.GCongr
import Cs118.Router.Pace
import Cs118.Router.Proofs.CacheInvariant
import Cs118.Router.Proofs.Evolution
/-!
# What a steady ticker promises

With passes at most `gap` apart no lookup gives a mapping much older than 30 seconds, and
no frame waits for ever.  A pass that removes a request stops there, so a request can be
passed over, but only once for each request that was made before it.
-/

namespace Cs118.Router

open Cs118.Lib
open Cs118.Lib.Bytes
open Cs118.Lib.Keyed
open Cs118.Lib.Run

/-! ## Old mappings -/

/-- No entry is of the future, and none was too old at the last pass. -/
structure Fresh (s : Paced) : Prop where
  added : ∀ entry ∈ s.arp.cacheEntries, entry.timeAdded ≤ s.now
  kept : ∀ entry ∈ s.arp.cacheEntries, s.lastTick ≤ entry.timeAdded + seconds 30
  tick : s.lastTick ≤ s.now

theorem Evolves.entries {w w' : World} {a : Action} (h : Evolves w a w') {entry : ArpEntry}
    (hentry : entry ∈ w'.router.arp.cacheEntries) :
    (a ≠ .tick ∧ (entry ∈ w.router.arp.cacheEntries ∨ entry.timeAdded = w.now)) ∨
      a = .tick ∧ entry ∈ w.router.arp.cacheEntries ∧ w.now ≤ entry.timeAdded + seconds 30 := by
  cases h with
  | receive packet inIface => exact Or.inl ⟨by simp, Or.inl hentry⟩
  | none => exact Or.inl ⟨by simp, Or.inl hentry⟩
  | call op =>
      refine Or.inl ⟨by simp, ?_⟩
      cases op with
      | insertArpEntry mac ip =>
          rcases List.mem_append.mp hentry with hentry | hentry
          · exact Or.inl hentry
          · rw [List.mem_singleton.mp hentry]
            exact Or.inr rfl
      | sendPendingPackets reply ip =>
          left
          have hkept := cacheEntries_sendPendingPackets w.router.arp w.router.tables reply ip
          exact hkept ▸ hentry
      | lookup ip => exact Or.inl hentry
      | queueRequest ip packet iface => exact Or.inl hentry
      | sendPacket packet outIface purpose => exact Or.inl hentry
  | tick hfault =>
      right
      have hkept : w.tick.1.router.arp.cacheEntries = _ := ArpCache.ticker_cacheEntries hfault
      rw [hkept] at hentry
      obtain ⟨hmem, hlive⟩ := List.mem_filter.mp hentry
      obtain ⟨-, hlive⟩ := of_decide_eq_true hlive
      refine ⟨rfl, hmem, ?_⟩
      unfold srArpcacheTo at hlive
      omega
  | reset ports => simp [World.reset, SimpleRouter.reset, ArpCache.clear, ArpCache.empty] at hentry
  | elapse time => exact Or.inl ⟨by simp, Or.inl hentry⟩

theorem Evolves.now_le {w w' : World} {a : Action} (h : Evolves w a w') : w.now ≤ w'.now := by
  cases h with
  | call op => exact (World.perform_keeps w op).2.2.ge
  | elapse time => exact Nat.le_add_right w.now time
  | _ => exact Nat.le_refl _

theorem Fresh.step {gap : Nat} {s t : Paced} {a : Action} (hs : Fresh s) (h : s.step gap a = some t) :
    Fresh t := by
  obtain ⟨hstep, htick, -⟩ := Paced.step_eq_some h
  have hevolves := System.step_evolves hstep
  have hnow : s.now ≤ t.now := hevolves.now_le
  have hold : a ≠ .tick → t.lastTick = s.lastTick := by
    intro ha
    rw [htick]
    cases a <;> first | rfl | exact absurd rfl ha
  refine ⟨fun entry hentry => ?_, fun entry hentry => ?_, ?_⟩
  · rcases hevolves.entries hentry with ⟨-, hmem | hadded⟩ | ⟨-, hmem, -⟩
    · exact (hs.added entry hmem).trans hnow
    · exact hadded.le.trans hnow
    · exact (hs.added entry hmem).trans hnow
  · rcases hevolves.entries hentry with ⟨ha, hmem | hadded⟩ | ⟨rfl, -, hlive⟩
    · rw [hold ha]
      exact hs.kept entry hmem
    · rw [hold ha, hadded]
      exact hs.tick.trans (Nat.le_add_right _ _)
    · rw [htick]
      exact hlive
  · by_cases ha : a = .tick
    · subst ha
      rw [htick]
      exact hnow
    · rw [hold ha]
      exact hs.tick.trans hnow

/-- In every reachable state what a lookup finds was learned in the past, and at most
`gap` more than 30 seconds ago. -/
theorem lookup_fresh {gap : Nat} {routingTable : RoutingTable}
    {ifNameToIpMap : List (String × UInt32)} {s : Paced}
    (hs : Paced.Reachable gap routingTable ifNameToIpMap s) {ip : UInt32} {entry : ArpEntry}
    (h : s.arp.lookup ip = some entry) :
    entry.timeAdded ≤ s.now ∧ s.now ≤ entry.timeAdded + seconds 30 + gap := by
  have hpace := hs.now_le
  obtain ⟨now, hreach⟩ := hs
  have hfresh : Fresh s :=
    hreach.invariant (fun _ _ _ hs _ hstep => hs.step hstep)
      ⟨fun _ hentry => by simp [Paced.start, Paced.arp, World.start, ArpCache.empty] at hentry,
        fun _ hentry => by simp [Paced.start, Paced.arp, World.start, ArpCache.empty] at hentry,
        Nat.le_refl now⟩
  have hmem := List.mem_of_find?_eq_some h
  have hkept := hfresh.kept entry hmem
  exact ⟨hfresh.added entry hmem, by omega⟩

def freshActions : List Action :=
  [.reset projectPorts, .receive (serverArp arpOpRequest) "sw0-eth1", .call, .call, .call] ++
    (List.replicate 10 [.elapse (seconds 1), .tick]).flatten

theorem lookup_fresh_freshActions :
    ∃ s entry, run (Paced.step (seconds 2)) (Paced.start projectTable projectIps 0) freshActions =
        some s ∧ s.arp.lookup (inetAton 192 168 2 2) = some entry ∧
      entry.timeAdded ≤ s.now ∧ s.now ≤ entry.timeAdded + seconds 30 + seconds 2 := by
  have hfound : (run (Paced.step (seconds 2)) (Paced.start projectTable projectIps 0)
      freshActions).any (fun s => (s.arp.lookup (inetAton 192 168 2 2)).isSome) = true := by
    decide +kernel
  obtain ⟨s, hs, hsome⟩ := Option.any_eq_true _ _ |>.mp hfound
  obtain ⟨entry, hentry⟩ := Option.isSome_iff_exists.mp hsome
  have hreach : Paced.Reachable (seconds 2) projectTable projectIps s :=
    ⟨0, reach_of_run (by simp) hs⟩
  exact ⟨s, entry, hs, hentry, lookup_fresh hreach hentry⟩

/-! ## The place of a request -/

/-- The request for `ip` has been sent so often and so long ago, and is behind `ahead`
others. -/
inductive Placed (ip : UInt32) (timeSent nTimesSent : Nat) : List ArpRequest → Nat → Prop
  | here (req : ArpRequest) (rest : List ArpRequest) (hip : req.ip = ip)
    (htime : req.timeSent = timeSent) (htimes : req.nTimesSent.toNat = nTimesSent) :
    Placed ip timeSent nTimesSent (req :: rest) 0
  | behind (first : ArpRequest) {rest : List ArpRequest} {ahead : Nat}
    (h : Placed ip timeSent nTimesSent rest ahead) :
    Placed ip timeSent nTimesSent (first :: rest) (ahead + 1)

theorem placed_of_split (before : List ArpRequest) (req : ArpRequest) (after : List ArpRequest) :
    Placed req.ip req.timeSent req.nTimesSent.toNat (before ++ req :: after) before.length := by
  induction before with
  | nil => exact .here req after rfl rfl rfl
  | cons first before ih => exact .behind first ih

section

variable {ip : UInt32} {timeSent nTimesSent ahead : Nat} {requests : List ArpRequest}

theorem Placed.mem (h : Placed ip timeSent nTimesSent requests ahead) :
    ip ∈ requests.map (·.ip) := by
  induction h with
  | here req rest hip htime htimes => simp [hip]
  | behind first hrest ih => exact List.mem_cons_of_mem _ ih

theorem Placed.pushPacket (h : Placed ip timeSent nTimesSent requests ahead) (x : UInt32)
    (pending : PendingPacket) :
    Placed ip timeSent nTimesSent (pushPacket x pending requests).1 ahead := by
  induction h with
  | here req rest hip htime htimes =>
      rw [Router.pushPacket]
      by_cases hx : req.ip = x
      · rw [if_pos hx]
        exact .here { req with packets := req.packets ++ [pending] } rest hip htime htimes
      · rw [if_neg hx]
        exact .here req _ hip htime htimes
  | behind first hrest ih =>
      rw [Router.pushPacket]
      by_cases hx : first.ip = x
      · rw [if_pos hx]
        exact .behind _ hrest
      · rw [if_neg hx]
        exact .behind first ih

theorem Placed.eraseP (h : Placed ip timeSent nTimesSent requests ahead) {x : UInt32}
    (hx : x ≠ ip) :
    ∃ ahead' ≤ ahead, Placed ip timeSent nTimesSent (requests.eraseP fun req => req.ip = x) ahead' := by
  induction h with
  | here req rest hip htime htimes =>
      rw [List.eraseP_cons_of_neg (by simpa [hip] using hx.symm)]
      exact ⟨0, Nat.le_refl 0, .here req _ hip htime htimes⟩
  | @behind first rest ahead hrest ih =>
      by_cases hfirst : first.ip = x
      · rw [List.eraseP_cons_of_pos (by simpa using hfirst)]
        exact ⟨ahead, Nat.le_succ ahead, hrest⟩
      · rw [List.eraseP_cons_of_neg (by simpa using hfirst)]
        obtain ⟨ahead', hle, hplaced⟩ := ih
        exact ⟨ahead' + 1, Nat.succ_le_succ hle, .behind first hplaced⟩

end

/-! ## A pass -/

theorem toNat_maxSentTime : maxSentTime.toNat = 5 := rfl

theorem Placed.checkRequests {t : RouterTables} {now : Nat} {ip : UInt32}
    {timeSent nTimesSent ahead : Nat} {requests : List ArpRequest}
    (h : Placed ip timeSent nTimesSent requests ahead) (hdistinct : (requests.map (·.ip)).Nodup)
    (hfault : (checkRequests t now requests).2.2 = none)
    (hstays : ip ∈ (checkRequests t now requests).1.map (·.ip)) :
    (∃ ahead' < ahead, Placed ip timeSent nTimesSent (checkRequests t now requests).1 ahead') ∨
      (now ≤ timeSent + seconds 1 ∧
        Placed ip timeSent nTimesSent (checkRequests t now requests).1 ahead) ∨
      nTimesSent < 5 ∧
        Placed ip now (nTimesSent + 1) (checkRequests t now requests).1 ahead := by
  induction h with
  | here req rest hip htime htimes =>
      right
      rw [List.map_cons, List.nodup_cons] at hdistinct
      rw [Router.checkRequests, handleArpRequest] at hfault hstays ⊢
      by_cases hdue : seconds 1 < now - req.timeSent
      · rw [if_pos hdue] at hfault hstays ⊢
        by_cases hmax : maxSentTime ≤ req.nTimesSent
        · -- given up, and no other request has its address
          rw [if_pos hmax] at hstays
          exact absurd (hip ▸ hstays) hdistinct.1
        · right
          have hlt : req.nTimesSent.toNat < 5 := by
            have hnot := UInt32.not_le.mp hmax
            rwa [UInt32.lt_iff_toNat_lt, toNat_maxSentTime] at hnot
          have hsucc : (req.nTimesSent + 1).toNat = nTimesSent + 1 := by
            rw [UInt32.toNat_add, ← htimes]
            simp only [UInt32.reduceToNat]
            omega
          rw [if_neg hmax] at hfault ⊢
          cases hroute : t.sendInterface req.ip with
          | error fault =>
              rw [hroute] at hfault
              cases hfault
          | ok iface =>
              exact ⟨htimes ▸ hlt,
                .here { req with timeSent := now, nTimesSent := req.nTimesSent + 1 } _ hip rfl hsucc⟩
      · left
        rw [if_neg hdue]
        exact ⟨by omega, .here req _ hip htime htimes⟩
  | @behind first rest ahead hrest ih =>
      rw [List.map_cons, List.nodup_cons] at hdistinct
      have hother : first.ip ≠ ip := fun heq => hdistinct.1 (heq ▸ hrest.mem)
      rw [Router.checkRequests] at hfault hstays ⊢
      rcases hfirst : handleArpRequest t now first with fault | ⟨_ | next, events⟩
      · rw [hfirst] at hfault
        cases hfault
      · exact Or.inl ⟨ahead, Nat.lt_succ_self ahead, hrest⟩
      · have hnext : next.ip = first.ip := by
          rcases handleArpRequest_cases hfirst with ⟨heq, -⟩ | ⟨-, heq, -⟩ | ⟨-, heq, -⟩
          · rw [Option.some.inj heq]
          · cases heq
          · rw [Option.some.inj heq]
        rw [hfirst] at hfault hstays
        have hstaysRest : ip ∈ (Router.checkRequests t now rest).1.map (·.ip) := by
          rcases List.mem_cons.mp hstays with heq | hmem
          · exact absurd (hnext.symm.trans heq.symm) hother
          · exact hmem
        rcases ih hdistinct.2 hfault hstaysRest with ⟨ahead', hlt, hplaced⟩ | ⟨hnow, hplaced⟩ |
          ⟨hlt, hplaced⟩
        · exact Or.inl ⟨ahead' + 1, Nat.succ_lt_succ hlt, .behind next hplaced⟩
        · exact Or.inr (Or.inl ⟨hnow, .behind next hplaced⟩)
        · exact Or.inr (Or.inr ⟨hlt, .behind next hplaced⟩)

/-! ## The deadline -/

/-- By when a request is gone: each of the five broadcasts and the giving up may have to
wait for a second and a pass, and each request before it may take one pass more. -/
def deadline (gap lastTick ahead timeSent nTimesSent : Nat) : Nat :=
  max lastTick (timeSent + seconds 1) + gap * (ahead + 1) + (5 - nTimesSent) * (seconds 1 + gap)

theorem deadline_mono {gap lastTick ahead ahead' timeSent nTimesSent : Nat} (h : ahead' ≤ ahead) :
    deadline gap lastTick ahead' timeSent nTimesSent ≤
      deadline gap lastTick ahead timeSent nTimesSent := by
  unfold deadline
  gcongr

/-- A request that is passed over: the place gained pays for the time of one pass. -/
theorem deadline_passed {gap lastTick now ahead ahead' timeSent nTimesSent : Nat}
    (h : ahead' < ahead) (hnow : now ≤ lastTick + gap) :
    deadline gap now ahead' timeSent nTimesSent ≤
      deadline gap lastTick ahead timeSent nTimesSent := by
  have hplace : gap * (ahead' + 1) + gap ≤ gap * (ahead + 1) := by
    rw [← Nat.mul_succ]
    exact Nat.mul_le_mul_left gap (by omega)
  unfold deadline
  omega

theorem deadline_early {gap lastTick now ahead timeSent nTimesSent : Nat}
    (h : now ≤ timeSent + seconds 1) :
    deadline gap now ahead timeSent nTimesSent ≤
      deadline gap lastTick ahead timeSent nTimesSent := by
  unfold deadline
  omega

/-- A request that is served: the broadcast pays for its second and its pass. -/
theorem deadline_served {gap lastTick now ahead timeSent nTimesSent : Nat} (h : nTimesSent < 5)
    (hnow : now ≤ lastTick + gap) :
    deadline gap now ahead now (nTimesSent + 1) ≤
      deadline gap lastTick ahead timeSent nTimesSent := by
  have hleft : (5 - nTimesSent) * (seconds 1 + gap) =
      (5 - (nTimesSent + 1)) * (seconds 1 + gap) + (seconds 1 + gap) := by
    rw [← Nat.succ_mul]
    congr 1
    omega
  unfold deadline
  rw [hleft]
  omega

def InTime (gap limit : Nat) (ip : UInt32) (s : Paced) : Prop :=
  ∃ ahead timeSent nTimesSent, Placed ip timeSent nTimesSent s.arp.arpRequests ahead ∧
    deadline gap s.lastTick ahead timeSent nTimesSent ≤ limit

theorem InTime.step {gap limit : Nat} {ip : UInt32} {s t : Paced} {a : Action}
    (hs : InTime gap limit ip s) (hdistinct : (s.arp.arpRequests.map (·.ip)).Nodup)
    (hpace : s.now ≤ s.lastTick + gap) (h : s.step gap a = some t)
    (hstays : ip ∈ t.arp.arpRequests.map (·.ip)) : InTime gap limit ip t := by
  obtain ⟨ahead, timeSent, nTimesSent, hplaced, hlimit⟩ := hs
  obtain ⟨hstep, htick, -⟩ := Paced.step_eq_some h
  have hevolves := System.step_evolves hstep
  unfold InTime
  rw [htick]
  unfold Paced.arp at hplaced hdistinct hstays ⊢
  clear h hstep htick
  generalize t.system.world = w at hevolves hstays ⊢
  cases hevolves with
  | receive packet inIface => exact ⟨ahead, timeSent, nTimesSent, hplaced, hlimit⟩
  | none => exact ⟨ahead, timeSent, nTimesSent, hplaced, hlimit⟩
  | elapse time => exact ⟨ahead, timeSent, nTimesSent, hplaced, hlimit⟩
  | reset ports =>
      simp [World.reset, SimpleRouter.reset, ArpCache.clear, ArpCache.empty] at hstays
  | call op =>
      cases op with
      | lookup x => exact ⟨ahead, timeSent, nTimesSent, hplaced, hlimit⟩
      | insertArpEntry mac x => exact ⟨ahead, timeSent, nTimesSent, hplaced, hlimit⟩
      | sendPacket packet outIface purpose =>
          exact ⟨ahead, timeSent, nTimesSent, hplaced, hlimit⟩
      | queueRequest x packet iface =>
          exact ⟨ahead, timeSent, nTimesSent, hplaced.pushPacket x ⟨packet, iface⟩, hlimit⟩
      | sendPendingPackets reply x =>
          simp only [World.perform, World.setArp_arp] at hstays ⊢
          rcases requests_sendPendingPackets s.system.world.router.arp s.system.world.router.tables
            reply x with hsame | herased
          · rw [hsame]
            exact ⟨ahead, timeSent, nTimesSent, hplaced, hlimit⟩
          · rw [herased] at hstays ⊢
            have hx : x ≠ ip := fun heq =>
              not_mem_map_key_eraseP hdistinct x (heq ▸ hstays)
            obtain ⟨ahead', hle, hplaced'⟩ := hplaced.eraseP hx
            exact ⟨ahead', timeSent, nTimesSent, hplaced', (deadline_mono hle).trans hlimit⟩
  | tick hfault =>
      simp only [World.tick, World.setArp_arp, ArpCache.ticker_arpRequests,
        ArpCache.ticker_outcome] at hfault hstays ⊢
      rcases hplaced.checkRequests hdistinct hfault hstays with
        ⟨ahead', hlt, hplaced'⟩ | ⟨hearly, hplaced'⟩ | ⟨hlt, hplaced'⟩
      · exact ⟨ahead', timeSent, nTimesSent, hplaced', (deadline_passed hlt hpace).trans hlimit⟩
      · exact ⟨ahead, timeSent, nTimesSent, hplaced', (deadline_early hearly).trans hlimit⟩
      · exact ⟨ahead, _, _, hplaced', (deadline_served hlt hpace).trans hlimit⟩

/-- No request waits for ever: as long as the request for an address is never answered,
given up or cleared, whatever else happens, the clock has not passed its deadline. -/
theorem waits_until_deadline {gap : Nat} {routingTable : RoutingTable}
    {ifNameToIpMap : List (String × UInt32)} {s s' : Paced}
    (hs : Paced.Reachable gap routingTable ifNameToIpMap s) {before after : List ArpRequest}
    {req : ArpRequest} (hreq : s.arp.arpRequests = before ++ req :: after) {actions : List Action}
    (hrun : run (Paced.step gap) s actions = some s')
    (hwaits : AlongRun (Paced.step gap) (fun _ _ t => req.ip ∈ t.arp.arpRequests.map (·.ip)) s
      actions) :
    s'.now ≤ deadline gap s.lastTick before.length req.timeSent req.nTimesSent.toNat := by
  generalize hdeadline : deadline gap s.lastTick before.length req.timeSent req.nTimesSent.toNat =
    limit
  have hstart : InTime gap limit req.ip s :=
    ⟨_, _, _, hreq ▸ placed_of_split before req after, hdeadline.le⟩
  have hboth := hwaits.invariant
    (P := fun s : Paced => Paced.Reachable gap routingTable ifNameToIpMap s ∧
      InTime gap limit req.ip s)
    (fun u a t hu hstep hstays => ?_) ⟨hs, hstart⟩ hrun
  · obtain ⟨hreachable, ahead, timeSent, nTimesSent, -, hlimit⟩ := hboth
    have hpace := hreachable.now_le
    have hplace : gap * 1 ≤ gap * (ahead + 1) := Nat.mul_le_mul_left gap (by omega)
    refine le_trans ?_ hlimit
    unfold deadline
    omega
  · obtain ⟨hreachable, hin⟩ := hu
    have hdistinct := (CacheOk.of_reachable hreachable.system).requestsDistinct
    obtain ⟨now, hreach⟩ := hreachable
    exact ⟨⟨now, hreach.tail trivial hstep⟩,
      hin.step hdistinct (Paced.Reachable.now_le ⟨now, hreach⟩) hstep hstays⟩

def queueingActions : List Action :=
  [.elapse (seconds 1), .tick, .reset projectPorts, .receive (clientDatagram 64) "sw0-eth3", .call,
    .call, .call, .call]

def askingActions : List Action := (List.replicate 5 [.elapse (seconds 2), .tick]).flatten

theorem waits_until_deadline_askingActions :
    ∃ s s' req, run (Paced.step (seconds 2)) (Paced.start projectTable projectIps 0)
        queueingActions = some s ∧ s.arp.arpRequests = [] ++ req :: [] ∧
      run (Paced.step (seconds 2)) s askingActions = some s' ∧
      s'.now ≤ deadline (seconds 2) s.lastTick 0 req.timeSent req.nTimesSent.toNat := by
  have hfound : (run (Paced.step (seconds 2)) (Paced.start projectTable projectIps 0)
      queueingActions).any (fun s => s.arp.arpRequests.map (·.ip) = [inetAton 192 168 2 2] ∧
        (run (Paced.step (seconds 2)) s askingActions).isSome ∧
        AlongRun (Paced.step (seconds 2))
          (fun _ _ t => inetAton 192 168 2 2 ∈ t.arp.arpRequests.map (·.ip)) s
          askingActions) = true := by
    decide +kernel
  obtain ⟨s, hs, hproperty⟩ := Option.any_eq_true _ _ |>.mp hfound
  obtain ⟨hips, hsome, hwaits⟩ := of_decide_eq_true hproperty
  obtain ⟨s', hrun⟩ := Option.isSome_iff_exists.mp hsome
  obtain ⟨req, hreq, hip⟩ := List.map_eq_singleton_iff.mp hips
  rw [← hip] at hwaits
  have hreach : Paced.Reachable (seconds 2) projectTable projectIps s :=
    ⟨0, reach_of_run (by simp) hs⟩
  have hplace : s.arp.arpRequests = [] ++ req :: [] := hreq
  have hlate := waits_until_deadline hreach hplace hrun hwaits
  exact ⟨s, s', req, hs, hplace, hrun, hlate⟩

end Cs118.Router
