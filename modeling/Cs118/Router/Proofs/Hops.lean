import Cs118.Router.Proofs.TimeToLive
/-!
# A datagram on its way through many routers

Each router has its own configuration and run, and forwards the datagram at once or from
its queue.  The datagram stays what it is.  Its TTL, counted down in eight bits to 1,
allows at most 255 immediate hops; a hop through a queue costs nothing.
-/

namespace Cs118.Router

open Cs118.Lib
open Cs118.Lib.Bytes
open Cs118.Lib.Run

inductive HopKind
  | immediate
  | queued
deriving DecidableEq, Repr

/-- Some router, in some run of its two threads, has sent `packet` on for `arrived`. -/
def Hops : HopKind → Buffer → Buffer → Prop
  | .immediate, arrived, packet => ∃ routingTable ifNameToIpMap s outIface,
    System.Reachable routingTable ifNameToIpMap s ∧
      .sent packet outIface (.forwarded arrived) ∈ s.world.trace
  | .queued, arrived, packet => ∃ routingTable ifNameToIpMap s outIface ip,
    System.Reachable routingTable ifNameToIpMap s ∧
      .sent packet outIface (.released ip arrived) ∈ s.world.trace

inductive Path : Buffer → List HopKind → Buffer → Prop
  | nil (frame : Buffer) : Path frame [] frame
  | cons {first next last : Buffer} {kind : HopKind} {kinds : List HopKind}
    (hop : Hops kind first next) (rest : Path next kinds last) : Path first (kind :: kinds) last

/-- The immediate hops that are left to a frame. -/
def hopsLeft (frame : Buffer) : Nat := ((ipHeader frame).ipTtl - 1).toNat

/-- What no router changes: all but the Ethernet header, the TTL and the checksum. -/
structure SameDatagram (first last : Buffer) : Prop where
  header : ∃ ttl sum, ipHeader last = { ipHeader first with ipTtl := ttl, ipSum := sum }
  payload : last.drop 34 = first.drop 34

/-! ## One hop -/

theorem hopsLeft_forwards {arrived packet : Buffer} (h : Forwards arrived packet) :
    hopsLeft packet + 1 = hopsLeft arrived := by
  have hne : (ipHeader arrived).ipTtl - 1 ≠ 0 := fun hzero => h.alive (by
    have hback := congrArg (· + 1) hzero
    simpa using hback)
  unfold hopsLeft
  rw [ttlOf_forwards h]
  exact toNat_sub_one hne

theorem SameDatagram.refl (frame : Buffer) : SameDatagram frame frame :=
  ⟨⟨(ipHeader frame).ipTtl, (ipHeader frame).ipSum, rfl⟩, rfl⟩

theorem SameDatagram.trans {first next last : Buffer} (hfirst : SameDatagram first next)
    (hnext : SameDatagram next last) : SameDatagram first last := by
  obtain ⟨ttl, sum, hheader⟩ := hfirst.header
  obtain ⟨ttl', sum', hheader'⟩ := hnext.header
  refine ⟨⟨ttl', sum', ?_⟩, hnext.payload.trans hfirst.payload⟩
  rw [hheader', hheader]

theorem sameDatagram_forwards {arrived packet : Buffer} (h : Forwards arrived packet) :
    SameDatagram arrived packet := by
  have hlength := h.fits
  obtain ⟨eHdr, rfl⟩ := h.frame
  refine ⟨⟨_, _, ipHeader_assembleIPPacket ..⟩, ?_⟩
  rw [assembleIPPacket_eq, ← List.append_assoc, List.drop_left' (by simp)]

theorem sameDatagram_releaseFrame (reply : ArpHdr) (arrived : Buffer) :
    SameDatagram arrived (releaseFrame reply arrived) := by
  refine ⟨⟨(ipHeader arrived).ipTtl, (ipHeader arrived).ipSum, ipHeader_releaseFrame reply arrived⟩, ?_⟩
  have hdrop := congrArg (List.drop 20) (drop_releaseFrame reply arrived)
  rwa [List.drop_drop, List.drop_drop] at hdrop

theorem Hops.spec {kind : HopKind} {arrived packet : Buffer} (h : Hops kind arrived packet) :
    SameDatagram arrived packet ∧
      hopsLeft packet + [kind].count .immediate = hopsLeft arrived := by
  cases kind with
  | immediate =>
      obtain ⟨routingTable, ifNameToIpMap, s, outIface, hreachable, hsent⟩ := h
      have hforwards : Forwards arrived packet := hop_of_reachable hreachable _ hsent
      exact ⟨sameDatagram_forwards hforwards, hopsLeft_forwards hforwards⟩
  | queued =>
      obtain ⟨routingTable, ifNameToIpMap, s, outIface, ip, hreachable, hsent⟩ := h
      obtain ⟨reply, rfl⟩ : ∃ reply, packet = releaseFrame reply arrived :=
        hop_of_reachable hreachable _ hsent
      refine ⟨sameDatagram_releaseFrame reply arrived, ?_⟩
      rw [hopsLeft, ipHeader_releaseFrame]
      rfl

/-- Through any routers in any order: the header fields and the payload of the datagram
arrive as they were sent, and the immediate hops are those by which its TTL has fallen, so
never more than the 255 of a frame of TTL 0. -/
theorem path_spec {first last : Buffer} {kinds : List HopKind} (h : Path first kinds last) :
    SameDatagram first last ∧ hopsLeft last + kinds.count .immediate = hopsLeft first ∧
      kinds.count .immediate ≤ 255 := by
  have hspec : SameDatagram first last ∧
      hopsLeft last + kinds.count .immediate = hopsLeft first := by
    induction h with
    | nil frame => exact ⟨.refl frame, rfl⟩
    | @cons first next last kind kinds hop rest ih =>
        obtain ⟨hsame, hcount⟩ := hop.spec
        refine ⟨hsame.trans ih.1, ?_⟩
        calc hopsLeft last + (kind :: kinds).count .immediate
            = hopsLeft last + kinds.count .immediate + [kind].count .immediate := by
              rw [← List.singleton_append, List.count_append]
              omega
          _ = hopsLeft next + [kind].count .immediate := by rw [ih.2]
          _ = hopsLeft first := hcount
  refine ⟨hspec.1, hspec.2, ?_⟩
  have hlt := ((ipHeader first).ipTtl - 1).toNat_lt
  have hleft : hopsLeft first < 256 := hlt
  omega

/-- A second router.  Its `sw0-eth3` has the address to which the project's router sends. -/
def secondPorts : List Port :=
  [⟨"sw0-eth1", projectMac 11⟩, ⟨"sw0-eth2", projectMac 12⟩, ⟨"sw0-eth3", projectMac 31⟩]

def secondHop (frame : Buffer) : Buffer :=
  forwardedFrame frame ⟨"sw0-eth1", projectMac 11, inetAton 192 168 2 1⟩ (projectMac 31)

/-- From the queue of the project's router, and then twice through the second one, which
knows the mapping. -/
theorem path_spec_secondHop :
    SameDatagram (clientDatagram 64) (secondHop (secondHop delayedFrame)) ∧
      hopsLeft (secondHop (secondHop delayedFrame)) +
        [HopKind.queued, .immediate, .immediate].count .immediate = hopsLeft (clientDatagram 64) ∧
      [HopKind.queued, .immediate, .immediate].count .immediate ≤ 255 := by
  have hrun : (run World.step (World.start projectTable projectIps 0)
      [.reset secondPorts, .receive (serverArp arpOpRequest) "sw0-eth1",
        .receive delayedFrame "sw0-eth3", .receive (secondHop delayedFrame) "sw0-eth3"]).any
      (fun w =>
        .sent (secondHop delayedFrame) "sw0-eth1" (.forwarded delayedFrame) ∈ w.trace ∧
          .sent (secondHop (secondHop delayedFrame)) "sw0-eth1"
            (.forwarded (secondHop delayedFrame)) ∈ w.trace) = true := by decide +kernel
  obtain ⟨w, hw, hsent⟩ := (Option.any_eq_true _ _).mp hrun
  obtain ⟨hfirst, hagain⟩ := of_decide_eq_true hsent
  have hreach : System.Reachable projectTable projectIps ⟨w, .idle⟩ :=
    World.Reachable.system ⟨0, _, hw⟩
  have hqueued : Hops .queued (clientDatagram 64) delayedFrame :=
    ⟨projectTable, projectIps, ⟨releasedRouter, .idle⟩, "sw0-eth1", inetAton 192 168 2 2,
      World.Reachable.system ⟨0, _, run_releasedRouter⟩, by decide +kernel⟩
  exact path_spec (.cons hqueued (.cons ⟨_, _, _, _, hreach, hfirst⟩
    (.cons ⟨_, _, _, _, hreach, hagain⟩ (.nil _))))

end Cs118.Router
