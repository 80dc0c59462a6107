import Cs118.Router.System
import Cs118.Router.Proofs.Frames
import Cs118.Router.Proofs.Methods
/-!
# The discipline of the handlers

`insertArpEntry` and `queueRequest` check nothing; every handler looks the
address up before it calls them.  The rule to carry a property through all runs
follows: a property that the guarded calls, the ticker pass and the reset keep
holds in every reachable state, since a pass in between only removes entries.
-/

namespace Cs118.Router

open Cs118.Lib
open Cs118.Lib.Bytes
open Cs118.Lib.Run

/-- A frame that may be queued for `ip`: it has a verified header with that
destination. -/
structure Queueable (ip : UInt32) (packet : Buffer) : Prop where
  fits : 34 ≤ packet.length
  verified : cksum (ipHeader packet).image 20 = 0xffff
  dst : (ipHeader packet).ipDst = ip

structure Forwards (arrived packet : Buffer) : Prop where
  fits : 34 ≤ arrived.length
  alive : (ipHeader arrived).ipTtl ≠ 1
  frame : ∃ eHdr, packet = assembleIPPacket arrived
    (updateSum { ipHeader arrived with ipTtl := (ipHeader arrived).ipTtl - 1 }) eHdr

def Sendable (packet : Buffer) : Purpose → Prop
  | .arpRequest _ => False
  | .released _ _ => False
  | .forwarded arrived => Forwards arrived packet
  | _ => True

/-- The calls a handler may make when it knows that the addresses `absent` are
not in the cache. -/
def Guarded (absent : UInt32 → Prop) : ArpCall → Prop
  | .insertArpEntry _ ip => absent ip
  | .queueRequest ip packet _ => absent ip ∧ Queueable ip packet
  | .sendPacket packet _ purpose => Sendable packet purpose
  | _ => True

def Learns (absent : UInt32 → Prop) : (call : ArpCall) → call.Reply → UInt32 → Prop
  | .lookup ip, none => fun x => absent x ∨ x = ip
  | .insertArpEntry _ ip, _ => fun x => absent x ∧ x ≠ ip
  | _, _ => absent

theorem follows_deref {α : Type} {a : Option α} {f : α → Handler Unit}
    {absent : UInt32 → Prop} (hf : ∀ a, (f a).Follows Guarded Learns absent) :
    (Handler.deref a >>= f).Follows Guarded Learns absent := by
  cases a with
  | none => trivial
  | some a => exact hf a

theorem follows_copyOut {α : Type} {load : Buffer → α} {packet : Buffer} {offset size : Nat}
    {f : α → Handler Unit} {absent : UInt32 → Prop}
    (hf : offset + size ≤ packet.length → (f (load (packet.drop offset))).Follows Guarded Learns absent) :
    (Handler.copyOut load packet offset size >>= f).Follows Guarded Learns absent := by
  unfold Handler.copyOut
  by_cases hshort : packet.length < offset + size
  · rw [if_pos hshort]
    trivial
  · rw [if_neg hshort]
    exact hf (Nat.le_of_not_lt hshort)

theorem follows_learn (packet : Buffer) (ip : UInt32) (absent : UInt32 → Prop) :
    (learn packet ip).Follows Guarded Learns absent := by
  refine ⟨trivial, fun found => ?_⟩
  cases found with
  | none => exact ⟨Or.inr rfl, fun _ => trivial⟩
  | some _ => trivial

theorem follows_handleArpPacket (t : RouterTables) (packet : Buffer) (eHdr : EthernetHdr)
    (absent : UInt32 → Prop) :
    (handleArpPacket t packet eHdr).Follows Guarded Learns absent := by
  apply follows_copyOut
  intro _
  split_ifs
  · apply (follows_learn _ _ _).bind
    intro absent _
    cases t.findIfaceByIp (ArpHdr.load (packet.drop 14)).arpTip with
    | none => trivial
    | some _ => exact ⟨trivial, fun _ => trivial⟩
  · refine ⟨trivial, fun found => ?_⟩
    cases found with
    | none => exact ⟨Or.inr rfl, fun _ => ⟨trivial, fun _ => trivial⟩⟩
    | some _ => trivial
  · trivial

theorem follows_handleIcmpPacket (t : RouterTables) (tempIface : String) (packet : Buffer)
    (timeExceed : Nat) (absent : UInt32 → Prop) :
    (handleIcmpPacket t tempIface packet timeExceed).Follows Guarded Learns absent := by
  apply follows_copyOut
  intro _
  by_cases hecho : (IcmpHdr.load (packet.drop 34)).icmpType = 8
  · rw [if_pos hecho]
    dsimp only
    split_ifs
    · exact follows_deref fun _ => ⟨trivial, fun _ => trivial⟩
    · trivial
  · rw [if_neg hecho]
    split_ifs
    · exact follows_copyOut fun _ => follows_deref fun _ => ⟨trivial, fun _ => trivial⟩
    · trivial

theorem follows_forwardPacket {t : RouterTables} {packet : Buffer} {eHdr : EthernetHdr}
    {ipPacket : IpHdr} {absent : UInt32 → Prop}
    (hsend : ∀ eHdr, Forwards packet (assembleIPPacket packet (updateSum ipPacket) eHdr)) :
    (forwardPacket t packet eHdr ipPacket).Follows Guarded Learns absent := by
  unfold forwardPacket
  cases t.routingTable.lookup ipPacket.ipDst with
  | none => trivial
  | some entry =>
      exact ⟨trivial, fun _ => follows_deref fun _ => follows_deref fun _ =>
        ⟨hsend _, fun _ => trivial⟩⟩

theorem follows_handleIpPacket (t : RouterTables) (tempIface : String) (packet : Buffer)
    (eHdr : EthernetHdr) (absent : UInt32 → Prop) :
    (handleIpPacket t tempIface packet eHdr).Follows Guarded Learns absent := by
  apply follows_copyOut
  intro hfits
  dsimp only
  by_cases hsum : cksum (IpHdr.load (packet.drop 14)).image 20 = 0xffff
  · rw [if_pos hsum]
    apply (follows_learn _ _ _).bind
    intro absent _
    cases t.findIfaceByIp (IpHdr.load (packet.drop 14)).ipDst with
    | some _ =>
        dsimp only
        split_ifs
        · exact follows_handleIcmpPacket ..
        · exact follows_handleIcmpPacket ..
        · trivial
    | none =>
        dsimp only
        split_ifs with httl
        · exact (follows_learn _ _ _).bind fun _ _ => follows_handleIcmpPacket ..
        · have halive : (ipHeader packet).ipTtl ≠ 1 := fun hone => httl ((ttl_le_zero_iff _).mpr hone)
          refine ⟨trivial, fun found => ?_⟩
          cases found with
          | some _ => exact follows_forwardPacket fun eHdr => ⟨hfits, halive, eHdr, rfl⟩
          | none =>
              exact follows_deref fun _ => ⟨⟨Or.inr rfl, hfits, hsum, rfl⟩, fun _ => trivial⟩
  · rw [if_neg hsum]
    trivial

/-- Every handler run keeps the discipline, whatever is known at its start. -/
theorem follows_handlePacket (t : RouterTables) (packet : Buffer) (inIface : String)
    (absent : UInt32 → Prop) :
    (handlePacket t packet inIface).Follows Guarded Learns absent := by
  unfold handlePacket
  cases t.findIfaceByName inIface with
  | none => trivial
  | some _ =>
      apply follows_copyOut
      intro _
      split_ifs
      · exact follows_handleArpPacket ..
      · exact follows_handleIpPacket ..
      · trivial

/-! ## Properties of every reachable state -/

structure Maintained (Inv : World → Prop) : Prop where
  insert : ∀ w mac ip, Inv w → w.router.arp.lookup ip = none →
    Inv (w.perform (.insertArpEntry mac ip)).1
  queue : ∀ w ip packet iface, Inv w → w.router.arp.lookup ip = none → Queueable ip packet →
    Inv (w.perform (.queueRequest ip packet iface)).1
  release : ∀ w reply ip, Inv w → Inv (w.perform (.sendPendingPackets reply ip)).1
  send : ∀ w packet outIface purpose, Inv w → Sendable packet purpose →
    Inv (w.perform (.sendPacket packet outIface purpose)).1
  tick : ∀ w, Inv w → w.tick.2 = none → Inv w.tick.1
  reset : ∀ w ports, Inv w → Inv (w.reset ports)
  elapse : ∀ w time, Inv w → Inv { w with now := w.now + time }

/-- The property, and that the addresses the handler has missed are still missing. -/
def Holds (Inv : World → Prop) (absent : UInt32 → Prop) (w : World) : Prop :=
  Inv w ∧ ∀ ip, absent ip → w.router.arp.lookup ip = none

def Status.Follows (absent : UInt32 → Prop) : Status → Prop
  | .idle => True
  | .handling rest => rest.Follows Guarded Learns absent

theorem follows_settle {p : Handler Unit} {absent : UInt32 → Prop} {status : Status}
    (hp : p.Follows Guarded Learns absent) (h : settle p = some status) :
    status.Follows absent := by
  cases p with
  | pure _ =>
      obtain rfl : .idle = status := by simpa [settle] using h
      trivial
  | throw fault =>
      cases fault <;> simp [settle] at h
      subst h
      trivial
  | call call rest =>
      obtain rfl : .handling (.call call rest) = status := by simpa [settle] using h
      exact hp

variable {Inv : World → Prop}

theorem Maintained.performed (hInv : Maintained Inv) {absent : UInt32 → Prop} {w : World}
    {call : ArpCall} (hw : Holds Inv absent w) (hallowed : Guarded absent call) :
    Inv (w.perform call).1 := by
  cases call with
  | lookup ip => exact hw.1
  | insertArpEntry mac ip => exact hInv.insert w mac ip hw.1 (hw.2 ip hallowed)
  | queueRequest ip packet iface =>
      exact hInv.queue w ip packet iface hw.1 (hw.2 ip hallowed.1) hallowed.2
  | sendPendingPackets reply ip => exact hInv.release w reply ip hw.1
  | sendPacket packet outIface purpose => exact hInv.send w packet outIface purpose hw.1 hallowed

theorem holds_perform_ok (hInv : Maintained Inv) {absent : UInt32 → Prop} {w : World}
    {call : ArpCall} {reply : call.Reply} (hw : Holds Inv absent w)
    (hallowed : Guarded absent call) (hreply : (w.perform call).2 = .ok reply) :
    Holds Inv (Learns absent call reply) (w.perform call).1 := by
  refine ⟨hInv.performed hw hallowed, ?_⟩
  cases call with
  | lookup ip =>
      cases reply with
      | some entry => exact hw.2
      | none =>
          rintro x (hx | rfl)
          · exact hw.2 x hx
          · exact Except.ok.inj hreply
  | insertArpEntry mac ip =>
      rintro x ⟨hx, hne⟩
      simp only [World.perform, World.setArp_arp]
      rw [ArpCache.lookup_insertArpEntry, hw.2 x hx, if_neg (Ne.symm hne)]
      rfl
  | queueRequest ip packet iface => exact hw.2
  | sendPendingPackets header ip =>
      intro x hx
      rw [World.perform, World.setArp_arp, lookup_sendPendingPackets]
      exact hw.2 x hx
  | sendPacket packet outIface purpose => exact hw.2

theorem holds_perform_error (hInv : Maintained Inv) {absent : UInt32 → Prop} {w : World}
    {call : ArpCall} {fault : Fault} (hw : Holds Inv absent w)
    (hallowed : Guarded absent call) (hfault : (w.perform call).2 = .error fault) :
    Holds Inv absent (w.perform call).1 := by
  refine ⟨hInv.performed hw hallowed, ?_⟩
  cases call with
  | sendPendingPackets header ip =>
      intro x hx
      rw [World.perform, World.setArp_arp, lookup_sendPendingPackets]
      exact hw.2 x hx
  | lookup _ => simp [World.perform] at hfault
  | insertArpEntry _ _ => simp [World.perform] at hfault
  | queueRequest _ _ _ => simp [World.perform] at hfault
  | sendPacket _ _ _ => simp [World.perform] at hfault

/-- One step, a ticker pass in the middle of a handler included. -/
theorem Maintained.step (hInv : Maintained Inv) {s s' : System} {a : Action}
    (hs : ∃ absent, Holds Inv absent s.world ∧ s.status.Follows absent)
    (h : s.step a = some s') :
    ∃ absent, Holds Inv absent s'.world ∧ s'.status.Follows absent := by
  obtain ⟨world, status⟩ := s
  obtain ⟨absent, hw, hstatus⟩ := hs
  cases a with
  | receive packet inIface =>
      cases status with
      | handling rest => simp [System.step] at h
      | idle =>
          simp only [System.step, Option.map_eq_some_iff] at h
          obtain ⟨next, hnext, rfl⟩ := h
          exact ⟨absent, hw, follows_settle (follows_handlePacket _ _ _ _) hnext⟩
  | call =>
      cases status with
      | idle => simp [System.step] at h
      | handling rest =>
          simp only [System.step, Option.map_eq_some_iff] at h
          obtain ⟨next, hnext, rfl⟩ := h
          obtain ⟨absent', hrest, hholds⟩ : ∃ absent',
              (Script.resume World.perform world rest).2.Follows Guarded Learns absent' ∧
                Holds Inv absent' (Script.resume World.perform world rest).1 :=
            Script.Follows.resume hstatus hw
              (fun _ _ _ _ hheld hallowed hok => holds_perform_ok hInv hheld hallowed hok)
              (fun _ _ _ _ hheld hallowed herr => holds_perform_error hInv hheld hallowed herr)
          exact ⟨absent', hholds, follows_settle hrest hnext⟩
  | tick =>
      rcases htick : world.tick with ⟨next, fault | fault⟩
      · simp only [System.step, htick, Option.some.injEq] at h
        subst h
        have hfault : world.tick.2 = none := by rw [htick]
        have hnext : next = world.tick.1 := by rw [htick]
        refine ⟨absent, ⟨?_, fun ip hip => ?_⟩, hstatus⟩
        · rw [hnext]
          exact hInv.tick world hw.1 hfault
        · rw [hnext]
          exact ArpCache.lookup_ticker_none (hw.2 ip hip) hfault
      · simp [System.step, htick] at h
  | reset ports =>
      cases status with
      | handling rest => simp [System.step] at h
      | idle =>
          simp only [System.step, Option.some.injEq] at h
          subst h
          exact ⟨fun _ => False, ⟨hInv.reset world ports hw.1, fun _ hip => hip.elim⟩, trivial⟩
  | elapse time =>
      simp only [System.step, Option.some.injEq] at h
      subst h
      exact ⟨absent, ⟨hInv.elapse world time hw.1, hw.2⟩, hstatus⟩

/-- A property that is maintained and holds at the start holds in every reachable state. -/
theorem Maintained.reachable (hInv : Maintained Inv) {routingTable : RoutingTable}
    {ifNameToIpMap : List (String × UInt32)}
    (hstart : ∀ now, Inv (World.start routingTable ifNameToIpMap now)) {s : System}
    (h : System.Reachable routingTable ifNameToIpMap s) : Inv s.world := by
  obtain ⟨now, hreach⟩ := h
  have hinitial : ∃ absent, Holds Inv absent (World.start routingTable ifNameToIpMap now) ∧
      Status.idle.Follows absent :=
    ⟨fun _ => False, ⟨hstart now, fun _ hip => hip.elim⟩, trivial⟩
  obtain ⟨absent, hholds, -⟩ := Reach.invariant
    (P := fun s : System => ∃ absent, Holds Inv absent s.world ∧ s.status.Follows absent)
    (fun _ _ _ hs _ hstep => hInv.step hs hstep) hinitial hreach
  exact hholds.1

theorem Maintained.of_events {P : Event → Prop} (learned : ∀ ip, P (.learned ip))
    (queued : ∀ ip packet, Queueable ip packet → P (.queued ip packet))
    (released : ∀ reply packet outIface ip,
      P (.sent (releaseFrame reply packet) outIface (.released ip packet)))
    (sent : ∀ packet outIface purpose, Sendable packet purpose → P (.sent packet outIface purpose))
    (broadcast : ∀ packet outIface ip, P (.sent packet outIface (.arpRequest ip)))
    (gaveUp : ∀ ip packets, P (.gaveUp ip packets)) (cleared : ∀ requests, P (.cleared requests)) :
    Maintained fun w => ∀ event ∈ w.trace, P event where
  insert _ _ ip hw _ event hevent :=
    (List.mem_append.mp hevent).elim (hw event) fun hnew => by
      rw [List.mem_singleton.mp hnew]
      exact learned ip
  queue _ ip packet _ hw _ hpacket event hevent :=
    (List.mem_append.mp hevent).elim (hw event) fun hnew => by
      rw [List.mem_singleton.mp hnew]
      exact queued ip packet hpacket
  release _ reply ip hw event hevent :=
    (List.mem_append.mp hevent).elim (hw event) fun hnew => by
      obtain ⟨-, -, pending, -, outIface, rfl⟩ := sendPendingPackets_events hnew
      exact released reply pending.packet outIface ip
  send _ packet outIface purpose hw hsend event hevent :=
    (List.mem_append.mp hevent).elim (hw event) fun hnew => by
      rw [List.mem_singleton.mp hnew]
      exact sent packet outIface purpose hsend
  tick _ hw _ event hevent :=
    (List.mem_append.mp hevent).elim (hw event) fun hnew => by
      rw [ArpCache.ticker_outcome] at hnew
      obtain ⟨req, -, rfl | ⟨iface, -, rfl⟩⟩ := checkRequests_events hnew
      · exact gaveUp req.ip req.frames
      · exact broadcast _ _ req.ip
  reset w _ hw event hevent :=
    (List.mem_append.mp hevent).elim (hw event) fun hnew => by
      rw [List.mem_singleton.mp hnew]
      exact cleared w.router.arp.arpRequests
  elapse _ _ hw := hw

end Cs118.Router
