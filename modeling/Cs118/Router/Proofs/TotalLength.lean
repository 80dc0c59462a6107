import Cs118.Router.Proofs.Forwarding
import Cs118.Router.Proofs.IcmpErrors
/-!
# The total length of what is sent

A forwarded frame and an echo reply are as long as the frame that came.  An ICMP error has
70 bytes, and four less in its header than that frame.
-/

namespace Cs118.Router

open Cs118.Lib
open Cs118.Lib.Bytes

def totalLength (frame : Buffer) : Nat := (ntohs (ipHeader frame).ipLen).toNat

/-- The length field counts what follows the Ethernet header. -/
def LengthRight (frame : Buffer) : Prop := totalLength frame + 14 = frame.length

instance : DecidablePred LengthRight := fun _ => inferInstanceAs (Decidable (_ = _))

structure ErrorAnswered (t : RouterTables) (packet : Buffer) (inIface : String) : Prop where
  forIcmp : ForIcmp t packet inIface 1
  fits : 42 ≤ packet.length
  notEcho : icmpType packet ≠ 8

def LengthsRight (w : World) (packet : Buffer) (inIface : String) : Prop :=
  ∀ sent ∈ sentFrames (w.eventsTo (w.receive packet inIface).1),
    IsIpv4 sent.1 → LengthRight sent.1

section

variable {w : World} {packet : Buffer} {inIface : String}

/-! ## What is sent for an IPv4 frame -/

inductive Response (w : World) (packet : Buffer) (inIface : String) : List (Buffer × String) → Prop
  | silent (herror : ¬ ErrorAnswered w.router.tables packet inIface) : Response w packet inIface []
  | echo (timeExceed : Nat) (hfits : 38 ≤ packet.length) (htype : icmpType packet = 8)
      (iface : Interface) : Response w packet inIface
        [(echoReply iface timeExceed (setBytes packet 36 (image16 0)), iface.name)]
  | error (herror : ErrorAnswered w.router.tables packet inIface) (iface : Interface) :
      Response w packet inIface [(icmpError w.router.tables iface packet, iface.name)]
  | forwarded (htransit : InTransit w.router.tables packet inIface) (iface : Interface)
      (mac : EtherAddr) (outIface : String) :
      Response w packet inIface [(forwardedFrame packet iface mac, outIface)]

theorem receive_response (hip : IsIpv4 packet) :
    Response w packet inIface (sentFrames (w.eventsTo (w.receive packet inIface).1)) := by
  have hnotArp : ∀ op, ¬ IsArp w.router.tables packet inIface op := by
    intro op harp
    have hclash := harp.etherType.symm.trans hip
    exact absurd hclash (by decide)
  obtain ⟨arp, events, fault, hreceive, houtcome⟩ := receive_yields w packet inIface
  rw [hreceive, World.eventsTo_setArp]
  have htransit : InTransit w.router.tables packet inIface →
      ¬ ErrorAnswered w.router.tables packet inIface := fun h herror =>
    herror.forIcmp.not_inTransit h
  cases houtcome with
  | ignored hnot _ _ => exact .silent fun herror => hnot herror.forIcmp.accepted
  | overrun _ hnot _ _ => exact .silent fun herror => hnot herror.forIcmp.accepted
  | request harp _ => exact absurd harp (hnotArp _)
  | requestForUs harp _ _ => exact absurd harp (hnotArp _)
  | replyKnown harp _ _ => exact absurd harp (hnotArp _)
  | reply harp _ _ _ _ _ => exact absurd harp (hnotArp _)
  | icmpOverrun timeExceed hicmp hshort =>
      rw [sentFrames_learns]
      refine .silent fun herror => ?_
      have hfits := herror.fits
      omega
  | echo timeExceed hicmp hfits htype iface hiface =>
      rw [sentFrames_learns_append]
      exact .echo timeExceed hfits htype iface
  | icmpError hicmp hfits htype iface hiface =>
      rw [sentFrames_learns_append]
      exact .error ⟨hicmp, hfits, htype⟩ iface
  | icmpIgnored hicmp htype =>
      rw [sentFrames_learns]
      exact .silent fun herror => absurd (hicmp.unique herror.forIcmp) (by decide)
  | localOther haccepted iface hiface hping hudp =>
      rw [sentFrames_learns]
      refine .silent fun herror => ?_
      rcases herror.forIcmp.protocol (by rw [hiface]; rfl) with ⟨hp, -⟩ | ⟨hp, -⟩
      · exact hping hp
      · exact hudp hp
  | noRoute hmoves _ _ _ =>
      rw [sentFrames_learns]
      exact .silent (htransit hmoves)
  | noHop hmoves _ _ _ _ _ =>
      rw [sentFrames_learns]
      exact .silent (htransit hmoves)
  | forwarded hmoves _ _ route _ iface _ hop _ =>
      rw [sentFrames_learns_append]
      exact .forwarded hmoves iface hop.mac route.ifName
  | queueNull hmoves _ _ =>
      rw [sentFrames_learns]
      exact .silent (htransit hmoves)
  | queued hmoves _ iface _ =>
      rw [sentFrames, List.filterMap_append]
      have hnone : sentFrames (w.learns packet (ipHeader packet).ipSrc).2 = [] :=
        sentFrames_learns _ _
      rw [sentFrames] at hnone
      rw [hnone]
      exact .silent (htransit hmoves)

/-! ## The lengths -/

theorem totalLength_eq (frame : Buffer) :
    totalLength frame = (ntohs (load16 (getBytes frame 16 2))).toNat := by
  rw [totalLength, getBytes, load16_take _ (by decide)]
  show (ntohs (load16 ((frame.drop 14).drop 2))).toNat = _
  rw [List.drop_drop]

theorem lengthRight_echoReply (iface : Interface) (timeExceed : Nat) (hfits : 38 ≤ packet.length)
    (hright : LengthRight packet) :
    LengthRight (echoReply iface timeExceed (setBytes packet 36 (image16 0))) := by
  have hkept := holding_echoReply iface timeExceed hfits (by decide) (by decide : 16 + 2 ≤ 24)
  have hfield := hkept.kept
  rw [length_getBytes (by omega)] at hfield
  rw [LengthRight, totalLength_eq, hfield, ← totalLength_eq, hkept.length]
  exact hright

theorem lengthRight_forwardedFrame (hfits : 34 ≤ packet.length) (iface : Interface)
    (mac : EtherAddr) (hright : LengthRight packet) :
    LengthRight (forwardedFrame packet iface mac) := by
  rw [LengthRight, length_forwardedFrame hfits, totalLength, forwardedFrame,
    ipHeader_assembleIPPacket]
  exact hright

/-- The ICMP error has the length of a frame of 74 bytes. -/
theorem lengthRight_icmpError_iff {t : RouterTables} (iface : Interface)
    (hfits : 42 ≤ packet.length) (hright : LengthRight packet) :
    LengthRight (icmpError t iface packet) ↔ packet.length = 74 := by
  have hcarries : Carries 70 _ (icmpError t iface packet) := (icmpError_answer hfits).carries
  have hshort : (ntohs (errorHeader t iface packet).ipLen).toNat =
      (ntohs (ipHeader packet).ipLen - 4).toNat := congrArg UInt16.toNat (ntohs_htons _)
  rw [LengthRight, totalLength, hcarries.length, hcarries.ipHeader_eq, hshort, UInt16.toNat_sub]
  rw [LengthRight, totalLength] at hright
  have hlt := (ntohs (ipHeader packet).ipLen).toNat_lt
  simp only [UInt16.reduceToNat]
  omega

/-! ## Main result -/

/-- A frame whose header has its length right: all that is sent for it has too, if and only
if it is not answered with an ICMP error, or has 74 bytes. -/
theorem lengths_right_iff (hip : IsIpv4 packet) (hright : LengthRight packet) :
    LengthsRight w packet inIface ↔
      (ErrorAnswered w.router.tables packet inIface → packet.length = 74) := by
  unfold LengthsRight
  have hresponse : Response w packet inIface
    (sentFrames (w.eventsTo (w.receive packet inIface).1)) := receive_response hip
  generalize sentFrames (w.eventsTo (w.receive packet inIface).1) = sent at hresponse ⊢
  cases hresponse with
  | silent herror => exact iff_of_true (by simp) fun h => absurd h herror
  | echo timeExceed hfits htype iface =>
      rw [List.forall_mem_singleton]
      exact iff_of_true (fun _ => lengthRight_echoReply iface timeExceed hfits hright)
        fun h => absurd htype h.notEcho
  | error herror iface =>
      have hipv4 : IsIpv4 (icmpError w.router.tables iface packet) := by
        rw [isIpv4_iff, (icmpError_answer herror.fits).type]
        exact isIpv4_iff.mp hip
      have hiff : LengthRight (icmpError w.router.tables iface packet) ↔ packet.length = 74 :=
        lengthRight_icmpError_iff iface herror.fits hright
      rw [List.forall_mem_singleton, ← hiff]
      exact ⟨fun h _ => h hipv4, fun h _ => h herror⟩
  | forwarded htransit iface mac outIface =>
      rw [List.forall_mem_singleton]
      exact iff_of_true
        (fun _ => lengthRight_forwardedFrame htransit.accepted.fits iface mac hright)
        fun h => absurd htransit h.forIcmp.not_inTransit

end

theorem lengths_right_expired :
    LengthsRight projectRouter (clientDatagram 1) "sw0-eth3" ↔
      (ErrorAnswered projectRouter.router.tables (clientDatagram 1) "sw0-eth3" →
        (clientDatagram 1).length = 74) :=
  lengths_right_iff (by unfold IsIpv4; decide +kernel) (by decide +kernel)

/-- The ICMP error for an expired datagram of 42 bytes claims 24 of its 56. -/
theorem expired_42_wrong_length :
    IsIpv4 (clientDatagram 1) ∧ LengthRight (clientDatagram 1) ∧
      ¬ LengthsRight projectRouter (clientDatagram 1) "sw0-eth3" := by
  refine ⟨by unfold IsIpv4; decide +kernel, by decide +kernel, fun h => ?_⟩
  have hright := h
    (icmpError projectRouter.router.tables ⟨"sw0-eth3", projectMac 3, inetAton 10 0 1 1⟩
      (clientDatagram 1), "sw0-eth3") (by decide +kernel) (by unfold IsIpv4; decide +kernel)
  exact absurd hright (by decide +kernel)

end Cs118.Router
